import OsModa.Teachd.Learning

/-!
The life of an optimization: suggested, approved, and applied or rolled back.

Approving checks that the optimization is suggested, and applying that it is approved. A
suggestion checks nothing: it replaces what is stored under the document's id, whatever has
become of it, and applying never marks the document as applied. So the only steps that take an
optimization back are suggestions for a document whose optimization has been approved since
(`lifecycle_forward_iff`).
-/

namespace OsModa.Teachd

open OsModa.Text OsModa.Machine

/-- Suggested, approved, applied or rolled back. -/
def OptStatus.rank : OptStatus → Nat
  | suggested => 0
  | approved => 1
  | applied | rolledBack => 2

/-- The document is marked as applied, or an optimization of it has been applied. -/
def KnowledgeDb.Applied (db : KnowledgeDb) (docId : String) : Prop :=
  (∃ d ∈ db.docs.find? docId, d.applied = true) ∨
    ∃ o ∈ db.optimizations.rows, o.knowledgeDocId = docId ∧ o.status = .applied

/-- No optimization goes back, and nothing is suggested for a document that is applied. -/
structure GoesForward (t : KnowledgeStep) : Prop where
  rank : ∀ id, ∀ o ∈ t.before.db.optimizations.find? id,
    ∃ o' ∈ t.after.db.optimizations.find? id, o.status.rank ≤ o'.status.rank
  unapplied : ∀ opts, t.output = .suggestions opts → ∀ o ∈ opts,
    ¬ t.before.db.Applied o.knowledgeDocId

/-- What is suggested has not been approved before. -/
def SuggestsNew (u : Unicode) (t : KnowledgeStep) : Prop :=
  ∀ sug, t.input = .suggest sug → ∀ o ∈ sug.suggestions u t.before.db,
    ∀ old ∈ t.before.db.optimizations.find? o.id, old.status = .suggested

/-! ### What a step stores -/

section

variable {u : Unicode} {s : TeachdState} {db : KnowledgeDb} {id : String}

theorem mem_suggestions {sug : Suggesting} {o : Optimization} (h : o ∈ sug.suggestions u db) :
    o.id = "opt-" ++ o.knowledgeDocId ∧ o.status = .suggested ∧
      ∃ d ∈ db.docs.rows, d.id = o.knowledgeDocId ∧ d.applied = false := by
  obtain ⟨d, hd, hsuggested⟩ := List.mem_filterMap.mp h
  obtain ⟨hlisted, hunapplied⟩ := List.mem_filter.mp hd
  obtain ⟨action, -, rfl⟩ := Option.map_eq_some_iff.mp hsuggested
  exact ⟨rfl, rfl, d, sug.order.mem_of_mem_take hlisted, rfl, by simpa using hunapplied⟩

/-- A suggestion leaves an optimization as it is, or replaces it. -/
theorem find?_suggest (sug : Suggesting) (db : KnowledgeDb) (id : String) :
    ((∀ o ∈ sug.suggestions u db, o.id ≠ id) ∧
        (suggestOptimizations u sug db).2.optimizations.find? id = db.optimizations.find? id) ∨
      ∃ o ∈ sug.suggestions u db, o.id = id ∧
        (suggestOptimizations u sug db).2.optimizations.find? id = some o :=
  Table.find?_foldl_put (sug.suggestions u db) db.optimizations id

theorem find?_updateOptimizationStatus (id : String) (status : OptStatus) (switchId : Option String)
    (db : KnowledgeDb) (id' : String) :
    (updateOptimizationStatus id status switchId db).optimizations.find? id' =
      (db.optimizations.find? id').map fun o =>
        if id' = id then { o with status := status, switchId := switchId } else o := by
  rw [updateOptimizationStatus, Table.find?_updateWhere]
  cases hfind : db.optimizations.find? id' with
  | none => rfl
  | some o => simp [Table.key_of_find? hfind]

/-- An updated row has the new status, or it is another one that stays. -/
theorem mem_updateOptimizationStatus {status : OptStatus} {switchId : Option String}
    {o : Optimization} (h : o ∈ (updateOptimizationStatus id status switchId db).optimizations.rows) :
    ∃ old ∈ db.optimizations.rows, old.id = o.id ∧ old.knowledgeDocId = o.knowledgeDocId ∧
      (o.id = id ∧ o.status = status ∨ o.id ≠ id ∧ o = old) := by
  obtain ⟨old, hold, rfl⟩ := List.mem_map.mp h
  refine ⟨old, hold, ?_⟩
  by_cases hid : old.id = id
  · simp [hid]
  · simp [hid]

/-- The steps that may store optimizations. -/
def KnowledgeEvent.storesOptimizations : KnowledgeEvent → Bool
  | suggest _ | approve _ _ | applyFinish _ => true
  | _ => false

def KnowledgeEvent.isSuggest : KnowledgeEvent → Bool
  | suggest _ => true
  | _ => false

theorem optimizations_of_not_stores {e : KnowledgeEvent} (he : e.storesOptimizations = false) :
    (knowledgeNext u e s).2.db.optimizations = s.db.optimizations := by
  cases e with
  | suggest sug => cases he
  | approve id now => cases he
  | applyFinish request => cases he
  | learn l => simp only [knowledgeNext, TeachdState.locked, runLearningCycle, foldl_storePattern]
  | update id now body =>
    simp only [knowledgeNext, TeachdState.locked, knowledgeUpdate]
    split <;> rfl
  | applyRead id now => rw [knowledgeNext, applyRead_db]
  | applyExecute request switch succeeds => rw [knowledgeNext, applyExecute_db]
  | observe | prune | create | hangUp => rfl

/-! ### The order of the statuses -/

theorem goesForward_of_same {t : KnowledgeStep}
    (hsame : t.after.db.optimizations = t.before.db.optimizations)
    (hquiet : ∀ opts, t.output ≠ .suggestions opts) : GoesForward t where
  rank id o ho := ⟨o, by rwa [hsame], le_rfl⟩
  unapplied opts hopts := absurd hopts (hquiet opts)

/-- An update to a status that is not behind that of the row. -/
theorem goesForward_of_update {t : KnowledgeStep} (id : String) (status : OptStatus)
    (switchId : Option String) (hafter : t.after.db.optimizations =
      (updateOptimizationStatus id status switchId t.before.db).optimizations)
    (hrank : ∀ o ∈ t.before.db.optimizations.find? id, o.status.rank ≤ status.rank)
    (hquiet : ∀ opts, t.output ≠ .suggestions opts) : GoesForward t where
  rank id' o ho := by
    rw [hafter, find?_updateOptimizationStatus, ho]
    refine ⟨_, rfl, ?_⟩
    dsimp only
    split
    · rename_i hid
      exact hrank o (hid ▸ ho)
    · exact le_rfl
  unapplied opts hopts := absurd hopts (hquiet opts)

theorem OptStatus.rank_le_two (status : OptStatus) : status.rank ≤ 2 := by
  cases status <;> decide

theorem OptStatus.rank_eq_zero {status : OptStatus} : status.rank = 0 ↔ status = .suggested := by
  cases status <;> decide

/-- The optimizations are those of their documents. -/
def KnowledgeDb.OfDocs (db : KnowledgeDb) : Prop :=
  ∀ o ∈ db.optimizations.rows, o.id = "opt-" ++ o.knowledgeDocId

theorem ofDocs_update (h : db.OfDocs) (id : String) (status : OptStatus) (switchId : Option String) :
    (updateOptimizationStatus id status switchId db).OfDocs := by
  intro o ho
  obtain ⟨old, hold, hid, hdoc, -⟩ := mem_updateOptimizationStatus ho
  rw [← hid, ← hdoc]
  exact h old hold

theorem ofDocs_suggest (h : db.OfDocs) (sug : Suggesting) : (suggestOptimizations u sug db).2.OfDocs := by
  intro o ho
  rcases Table.mem_rows_foldl_put ho with hnew | hold
  · exact (mem_suggestions hnew).1
  · exact h o hold

theorem ofDocs_step (h : s.db.OfDocs) (e : KnowledgeEvent) : (knowledgeNext u e s).2.db.OfDocs := by
  cases e with
  | suggest sug => exact ofDocs_suggest h sug
  | approve id now =>
    rw [knowledgeNext, TeachdState.locked]
    rcases approve_cases id now s.db with ⟨status, message, hsame⟩ | ⟨o, old, -, -, hstored⟩
    · rwa [hsame]
    · rw [hstored]
      exact ofDocs_update h _ _ _
  | applyFinish request =>
    rw [knowledgeNext]
    rcases applyFinish_cases request s with hsame | ⟨o, result, status, reply, -, -, hstored⟩
    · rwa [hsame]
    · rw [hstored]
      exact ofDocs_update h _ _ _
  | _ =>
    rw [KnowledgeDb.OfDocs, optimizations_of_not_stores rfl]
    exact h

theorem suggest_goesForward_iff (h : s.db.OfDocs) (sug : Suggesting) :
    GoesForward (stepOf (knowledgeNext u) (.suggest sug) s) ↔
      SuggestsNew u (stepOf (knowledgeNext u) (.suggest sug) s) := by
  constructor
  · intro hforward sug' hsug o ho old hold
    obtain rfl := KnowledgeEvent.suggest.inj hsug
    obtain ⟨o', ho', hrank⟩ := hforward.rank o.id old hold
    rcases find?_suggest (u := u) sug s.db o.id with ⟨hother, -⟩ | ⟨new, hnew, -, hfind⟩
    · exact absurd rfl (hother o ho)
    · -- What is stored now is a suggestion, so what was there was one, too.
      obtain rfl : new = o' := Option.some.inj (hfind.symm.trans ho')
      rw [(mem_suggestions hnew).2.1] at hrank
      exact OptStatus.rank_eq_zero.mp (Nat.le_zero.mp hrank)
  · intro hnew
    refine ⟨fun id o ho => ?_, fun opts hopts o ho happlied => ?_⟩
    · rcases find?_suggest (u := u) sug s.db id with ⟨-, hsame⟩ | ⟨o', ho', hid, hfind⟩
      · exact ⟨o, hsame.trans ho, le_rfl⟩
      · have hold := hnew sug rfl o' ho' o (by rw [hid]; exact ho)
        exact ⟨o', hfind, by rw [hold]; exact Nat.zero_le _⟩
    · obtain rfl := KnowledgeReply.suggestions.inj hopts
      obtain ⟨hid, -, d, hd, hdoc, hunapplied⟩ := mem_suggestions ho
      rcases happlied with ⟨d', hd', hmarked⟩ | ⟨old, hold, hof, hstatus⟩
      · rw [← hdoc] at hd'
        rw [← Option.mem_unique (Table.mem_rows_iff.mp hd) hd', hunapplied] at hmarked
        cases hmarked
      · have hsame : old.id = o.id := by rw [h old hold, hof, hid]
        have hsuggested := hnew sug rfl o ho old (hsame ▸ Table.mem_rows_iff.mp hold)
        rw [hstatus] at hsuggested
        cases hsuggested

theorem not_suggestions {e : KnowledgeEvent} (he : e.isSuggest = false) (opts : List Optimization) :
    (knowledgeNext u e s).1 ≠ .suggestions opts := by
  cases e with
  | suggest sug => cases he
  | update id now body =>
    simp only [knowledgeNext, TeachdState.locked, knowledgeUpdate]
    split <;> exact KnowledgeReply.noConfusion
  | approve id now =>
    rw [knowledgeNext, TeachdState.locked]
    rcases approve_cases id now s.db with ⟨status, message, h⟩ | ⟨o, old, -, -, h⟩
    all_goals rw [h]; exact KnowledgeReply.noConfusion
  | applyRead id now =>
    rw [knowledgeNext]
    rcases applyRead_cases id now s with ⟨status, message, h⟩ | ⟨o, old, -, -, -, h⟩
    all_goals rw [h]; exact KnowledgeReply.noConfusion
  | applyExecute request switch succeeds =>
    rw [knowledgeNext]
    rcases applyExecute_cases request switch succeeds s with h | ⟨o, -, h⟩
    all_goals rw [h]; exact KnowledgeReply.noConfusion
  | applyFinish request =>
    rw [knowledgeNext]
    rcases applyFinish_cases request s with h | ⟨o, result, status, reply, -, -, h⟩
    all_goals rw [h]; exact KnowledgeReply.noConfusion
  | observe | prune | learn | create | hangUp => exact KnowledgeReply.noConfusion

/-- Only a suggestion takes an optimization back, and only if it replaces one that was approved. -/
theorem goesForward_step_iff (h : s.db.OfDocs) (e : KnowledgeEvent) :
    GoesForward (stepOf (knowledgeNext u) e s) ↔ SuggestsNew u (stepOf (knowledgeNext u) e s) := by
  by_cases he : e.isSuggest = false
  · have hquiet : ∀ opts, (stepOf (knowledgeNext u) e s).output ≠ .suggestions opts := not_suggestions he
    refine iff_of_true ?_ fun sug hsug => ?_
    · cases e with
      | suggest sug => cases he
      | approve id now =>
        rcases approve_cases id now s.db with ⟨status, message, hsame⟩ | ⟨o, old, hold, hstatus, hstored⟩
        · refine goesForward_of_same ?_ hquiet
          simp only [stepOf, knowledgeNext, TeachdState.locked, hsame]
        · refine goesForward_of_update id .approved none ?_ ?_ hquiet
          · simp only [stepOf, knowledgeNext, TeachdState.locked, hstored]
          · intro o' ho'
            rw [Option.mem_unique ho' hold, hstatus]
            exact Nat.zero_le _
      | applyFinish request =>
        rcases applyFinish_cases request s with hsame | ⟨o, result, status, reply, -, hended, hstored⟩
        · refine goesForward_of_same ?_ hquiet
          simp only [stepOf, knowledgeNext, hsame]
        · refine goesForward_of_update o.id status result ?_ ?_ hquiet
          · simp only [stepOf, knowledgeNext, hstored]
          · intro o' _
            rcases hended with rfl | rfl
            · exact o'.status.rank_le_two
            · exact o'.status.rank_le_two
      | _ => exact goesForward_of_same (optimizations_of_not_stores rfl) hquiet
    · rw [stepOf_input] at hsug
      rw [hsug] at he
      cases he
  · cases e with
    | suggest sug => exact suggest_goesForward_iff h sug
    | _ => exact absurd rfl he

end

/-- **The lifecycle goes forward.** In a run of teachd from recorded observations, no optimization
ever goes back and nothing is suggested for a document that is applied, if and only if no
suggestion lists a document whose optimization has been approved already. -/
theorem lifecycle_forward_iff (u : Unicode) (observations : Table Observation.id)
    (events : List KnowledgeEvent) :
    (∀ t ∈ trace (knowledgeNext u) events (.start ⟨observations, .empty, .empty, .empty⟩),
        GoesForward t) ↔
      ∀ t ∈ trace (knowledgeNext u) events (.start ⟨observations, .empty, .empty, .empty⟩),
        SuggestsNew u t :=
  all_good_iff (I := fun s => s.db.OfDocs) (fun e _ h => goesForward_step_iff h e)
    (fun e _ h _ => ofDocs_step h e) events (by intro o ho; cases ho)

/-! ### Documents that are applied -/

/-- No document is marked as applied. -/
def KnowledgeDb.Unmarked (db : KnowledgeDb) : Prop := ∀ d ∈ db.docs.rows, d.applied = false

theorem unmarked_put {db : KnowledgeDb} (h : db.Unmarked) {d : KnowledgeDoc}
    (hd : d.applied = false) : ({ db with docs := db.docs.put d } : KnowledgeDb).Unmarked := by
  intro d' hd'
  rcases Table.mem_rows_put.mp hd' with rfl | ⟨hold, -⟩
  · exact hd
  · exact h d' hold

theorem unmarked_step {u : Unicode} {s : TeachdState} (h : s.db.Unmarked) (e : KnowledgeEvent) :
    (knowledgeNext u e s).2.db.Unmarked := by
  cases e with
  | learn l =>
    rw [knowledgeNext, TeachdState.locked]
    intro d hd
    rw [runLearningCycle_docs] at hd
    rcases Table.mem_rows_foldl_put hd with hnew | hold
    · obtain ⟨p, -, -, rfl⟩ := mem_learned.mp hnew
      rfl
    · exact h d hold
  | create uuid now body => exact unmarked_put h rfl
  | update id now body =>
    rw [knowledgeNext, TeachdState.locked, knowledgeUpdate]
    cases hfind : s.db.docs.find? id with
    | none => exact h
    | some d =>
      refine unmarked_put h ?_
      exact h d (List.mem_of_find?_eq_some hfind)
  | _ =>
    rw [KnowledgeDb.Unmarked, docs_of_not_storesDocs rfl]
    exact h

/-- teachd never marks a document as applied, so every document stays up for suggestions. -/
theorem docs_stay_unmarked (u : Unicode) (observations : Table Observation.id)
    (events : List KnowledgeEvent) :
    (final (knowledgeNext u) events (.start ⟨observations, .empty, .empty, .empty⟩)).db.Unmarked :=
  final_invariant (I := fun s : TeachdState => s.db.Unmarked) (fun e _ h => unmarked_step h e) events
    (by intro d hd; cases hd)

def suggestFirst : Suggesting := ⟨fun _ => firstLook, .stable _⟩

/-- The restart of a service is suggested, approved, applied, and suggested again. -/
def suggestedAgain : List KnowledgeStep :=
  trace (knowledgeNext Unicode.ascii)
    [.create "1" firstLook ⟨"nginx.service recurring failures", "reliability", "", none⟩,
      .suggest suggestFirst, .approve "opt-kd-manual-1" firstLook,
      .applyRead "opt-kd-manual-1" firstLook, .applyExecute 0 (some "switch-1") true,
      .applyFinish 0, .suggest suggestFirst]
    (.start ⟨.empty, .empty, .empty, .empty⟩)

theorem suggestedAgain_goes_back : ¬ ∀ t ∈ suggestedAgain, GoesForward t := by
  intro h
  have hrank := (h _ (List.mem_of_getElem? (i := 6) rfl)).rank "opt-kd-manual-1"
  revert hrank
  decide +kernel

end OsModa.Teachd
