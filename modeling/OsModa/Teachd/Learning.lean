import OsModa.Teachd.Knowledge

/-!
Learning cycles and what is already known.

A cycle stores the patterns that it detects and the documents of the confident ones under ids
that are the same in every cycle, and replaces what was stored there. So a document that was
edited by hand loses the edit, its `created_at` and its `applied` flag when the pattern is
detected again, and the `first_seen` of a pattern moves with the last hour
(`relearned_not_preserved`). Where every cycle finds only patterns that are new, or were last
seen to begin later, all of it is kept (`learning_preserves`).
-/

namespace OsModa.Teachd

open OsModa.Text OsModa.Machine OsModa.Float64

/-! ### What a step stores -/

/-- The documents that a learning cycle stores. -/
def Learning.learned (l : Learning) (db : KnowledgeDb) : List KnowledgeDoc :=
  ((l.patterns db).filter (·.isConfident)).map fun p => knowledgeFromPattern (l.clock p.id) p

theorem foldl_storePattern (clock : String → DateTime) (patterns : List Pattern) (db : KnowledgeDb) :
    patterns.foldl (storePattern clock) db =
      { db with
        patterns := patterns.foldl Table.put db.patterns
        docs := ((patterns.filter (·.isConfident)).map fun p =>
          knowledgeFromPattern (clock p.id) p).foldl Table.put db.docs } := by
  induction patterns generalizing db with
  | nil => rfl
  | cons p patterns ih =>
    rw [List.foldl_cons, ih]
    cases hp : p.isConfident with
    | true => simp [storePattern, hp]
    | false => simp [storePattern, hp]

theorem runLearningCycle_patterns (l : Learning) (db : KnowledgeDb) :
    (runLearningCycle l db).patterns = (l.patterns db).foldl Table.put db.patterns := by
  rw [runLearningCycle, foldl_storePattern]

theorem runLearningCycle_docs (l : Learning) (db : KnowledgeDb) :
    (runLearningCycle l db).docs = (l.learned db).foldl Table.put db.docs := by
  rw [runLearningCycle, foldl_storePattern]
  rfl

theorem mem_learned {l : Learning} {db : KnowledgeDb} {d : KnowledgeDoc} :
    d ∈ l.learned db ↔
      ∃ p ∈ l.patterns db, p.isConfident = true ∧ d = knowledgeFromPattern (l.clock p.id) p := by
  rw [Learning.learned, List.mem_map]
  constructor
  · rintro ⟨p, hp, rfl⟩
    obtain ⟨hmem, hconfident⟩ := List.mem_filter.mp hp
    exact ⟨p, hmem, hconfident, rfl⟩
  · rintro ⟨p, hmem, hconfident, rfl⟩
    exact ⟨p, List.mem_filter.mpr ⟨hmem, hconfident⟩, rfl⟩

@[simp] theorem knowledgeFromPattern_id (now : DateTime) (p : Pattern) :
    (knowledgeFromPattern now p).id = "kd-" ++ p.id := rfl

@[simp] theorem knowledgeFromPattern_createdAt (now : DateTime) (p : Pattern) :
    (knowledgeFromPattern now p).createdAt = now := rfl

/-- A cycle leaves a document as it is, or puts that of a confident pattern in its place. -/
theorem find?_learned_docs (l : Learning) (db : KnowledgeDb) (id : String) :
    (runLearningCycle l db).docs.find? id = db.docs.find? id ∨
      ∃ p ∈ l.patterns db, p.isConfident = true ∧ "kd-" ++ p.id = id ∧
        (runLearningCycle l db).docs.find? id = some (knowledgeFromPattern (l.clock p.id) p) := by
  rw [runLearningCycle_docs]
  rcases Table.find?_foldl_put (l.learned db) db.docs id with ⟨-, hsame⟩ | ⟨d, hd, hid, hfind⟩
  · exact .inl hsame
  · obtain ⟨p, hp, hconfident, rfl⟩ := mem_learned.mp hd
    exact .inr ⟨p, hp, hconfident, hid, hfind⟩

theorem find?_learned_patterns (l : Learning) (db : KnowledgeDb) (id : String) :
    (runLearningCycle l db).patterns.find? id = db.patterns.find? id ∨
      ∃ p ∈ l.patterns db, p.id = id ∧ (runLearningCycle l db).patterns.find? id = some p := by
  rw [runLearningCycle_patterns]
  rcases Table.find?_foldl_put (l.patterns db) db.patterns id with ⟨-, hsame⟩ | hstored
  · exact .inl hsame
  · exact .inr hstored

/-- The document of a confident pattern is stored as if it were new. -/
theorem learned_createdAt {l : Learning} {db : KnowledgeDb} {p : Pattern} (hp : p ∈ l.patterns db)
    (hconfident : p.isConfident = true) :
    ∃ d ∈ (runLearningCycle l db).docs.find? ("kd-" ++ p.id), d.createdAt = l.clock p.id := by
  rw [runLearningCycle_docs]
  rcases Table.find?_foldl_put (l.learned db) db.docs ("kd-" ++ p.id) with
    ⟨hother, -⟩ | ⟨d, hd, hid, hfind⟩
  · exact absurd rfl (hother _ (mem_learned.mpr ⟨p, hp, hconfident, rfl⟩))
  · obtain ⟨q, -, -, rfl⟩ := mem_learned.mp hd
    refine ⟨_, hfind, ?_⟩
    rw [knowledgeFromPattern_id, String.append_right_inj] at hid
    rw [knowledgeFromPattern_createdAt, hid]

/-- A cycle changes the `created_at` of every document that it stores again, unless the clock
stands where it stood. -/
theorem keepsCreatedAt_iff (l : Learning) (db : KnowledgeDb) :
    (∀ id, ∀ d ∈ db.docs.find? id, ∃ d' ∈ (runLearningCycle l db).docs.find? id,
        d'.createdAt = d.createdAt) ↔
      ∀ p ∈ l.patterns db, p.isConfident = true → ∀ d ∈ db.docs.find? ("kd-" ++ p.id),
        l.clock p.id = d.createdAt := by
  constructor
  · intro h p hp hconfident d hd
    obtain ⟨d', hd', hkept⟩ := h _ d hd
    obtain ⟨d'', hd'', hclock⟩ := learned_createdAt hp hconfident
    rw [← hclock, Option.mem_unique hd'' hd', hkept]
  · intro h id d hd
    rcases find?_learned_docs l db id with hsame | ⟨p, hp, hconfident, rfl, hfind⟩
    · exact ⟨d, hsame.trans hd, rfl⟩
    · exact ⟨_, hfind, h p hp hconfident d hd⟩

/-! ### Edits by hand -/

/-- The last values that were given to a document by hand. -/
structure Edits where
  content : Option String
  tags : Option (List String)
  category : Option String

/-- A step that creates or updates the document gives it values. -/
def Edits.after (id : String) (e : Edits) (t : KnowledgeStep) : Edits :=
  match t.input, t.output with
  | .create _ _ body, .doc d =>
    if d.id = id then ⟨some body.content, some (body.tags.getD []), some body.category⟩ else e
  | .update docId _ body, .doc _ =>
    if docId = id then
      ⟨body.content.or e.content, body.tags.or e.tags, body.category.or e.category⟩
    else e
  | _, _ => e

/-- The edits of a document in a run. -/
def editsOf (id : String) (past : List KnowledgeStep) : Edits :=
  past.foldl (Edits.after id) ⟨none, none, none⟩

/-- The document has the values that it was given. -/
structure Edits.KeptBy (e : Edits) (doc : Option KnowledgeDoc) : Prop where
  content : ∀ v ∈ e.content, doc.map (·.content) = some v
  tags : ∀ v ∈ e.tags, doc.map (·.tags) = some v
  category : ∀ v ∈ e.category, doc.map (·.category) = some v

/-- Every document has the values that it was given in a run. -/
def EditsKept (past : List KnowledgeStep) (db : KnowledgeDb) : Prop :=
  ∀ id, (editsOf id past).KeptBy (db.docs.find? id)

theorem editsOf_concat (id : String) (past : List KnowledgeStep) (t : KnowledgeStep) :
    editsOf id (past ++ [t]) = (editsOf id past).after id t := by
  rw [editsOf, List.foldl_append]
  rfl

/-- Where there is no document, nothing was edited. -/
theorem Edits.KeptBy.of_none {e : Edits} (h : e.KeptBy none) (doc : Option KnowledgeDoc) :
    e.KeptBy doc where
  content v hv := absurd (h.content v hv) nofun
  tags v hv := absurd (h.tags v hv) nofun
  category v hv := absurd (h.category v hv) nofun

/-- A value that was given, or else the one before. -/
theorem getD_of_mem_or {α : Type*} {given before : Option α} {old v : α}
    (hbefore : ∀ w ∈ before, some old = some w) (hv : v ∈ given.or before) :
    some (given.getD old) = some v := by
  cases given with
  | none => exact hbefore v hv
  | some w => exact hv

theorem Edits.KeptBy.create {e : Edits} {id uuid : String} {now : DateTime}
    {body : CreateKnowledgeRequest} {s : TeachdState} {u : Unicode}
    (h : e.KeptBy (s.db.docs.find? id)) :
    (e.after id (stepOf (knowledgeNext u) (.create uuid now body) s)).KeptBy
      ((knowledgeCreate uuid now body s.db).2.docs.find? id) := by
  simp only [Edits.after, stepOf, knowledgeNext, TeachdState.locked, knowledgeCreate, Table.find?_put]
  by_cases hid : "kd-manual-" ++ uuid = id
  · rw [if_pos hid, if_pos hid]
    exact ⟨fun v hv => hv, fun v hv => hv, fun v hv => hv⟩
  · rwa [if_neg hid, if_neg hid]

theorem Edits.KeptBy.update {e : Edits} {id docId : String} {now : DateTime}
    {body : UpdateKnowledgeRequest} {s : TeachdState} {u : Unicode}
    (h : e.KeptBy (s.db.docs.find? id)) :
    (e.after id (stepOf (knowledgeNext u) (.update docId now body) s)).KeptBy
      ((knowledgeUpdate docId now body s.db).2.docs.find? id) := by
  simp only [Edits.after, stepOf, knowledgeNext, TeachdState.locked, knowledgeUpdate]
  cases hfind : s.db.docs.find? docId with
  | none => exact h
  | some d =>
    simp only [Table.find?_put, Table.key_of_find? hfind]
    by_cases hid : docId = id
    · subst hid
      rw [hfind] at h
      rw [if_pos rfl, if_pos rfl]
      exact ⟨fun v => getD_of_mem_or h.content, fun v => getD_of_mem_or h.tags,
        fun v => getD_of_mem_or h.category⟩
    · rwa [if_neg hid, if_neg hid]

/-- The steps that may store documents. -/
def KnowledgeEvent.storesDocs : KnowledgeEvent → Bool
  | learn _ | create _ _ _ | update _ _ _ => true
  | _ => false

/-! ### Cycles that spare what is known -/

/-- A cycle finds no pattern whose document is stored, if it is confident of it, and none that
begins later than it is stored to begin. -/
def SparesKnown (t : KnowledgeStep) : Prop :=
  ∀ l, t.input = .learn l → ∀ p ∈ l.patterns t.before.db,
    (p.isConfident = true → t.before.db.docs.find? ("kd-" ++ p.id) = none) ∧
      ∀ q ∈ t.before.db.patterns.find? p.id, p.firstSeen ≤ q.firstSeen

/-- After a cycle, what was known before it still is. -/
structure PreservesKnown (past : List KnowledgeStep) (t : KnowledgeStep) : Prop where
  edits : EditsKept past t.after.db
  docs : ∀ id, ∀ d ∈ t.before.db.docs.find? id, ∃ d' ∈ t.after.db.docs.find? id,
    d'.createdAt = d.createdAt ∧ (d.applied = true → d'.applied = true)
  firstSeen : ∀ id, ∀ p ∈ t.before.db.patterns.find? id, ∃ p' ∈ t.after.db.patterns.find? id,
    p'.firstSeen ≤ p.firstSeen

section

variable {u : Unicode} {s : TeachdState}

/-- A cycle that spares what is known leaves the documents that there are. -/
theorem find?_docs_of_spares {l : Learning} (hspares : SparesKnown (stepOf (knowledgeNext u) (.learn l) s))
    {id : String} {d : KnowledgeDoc} (hd : s.db.docs.find? id = some d) :
    (runLearningCycle l s.db).docs.find? id = some d := by
  rcases find?_learned_docs l s.db id with hsame | ⟨p, hp, hconfident, rfl, -⟩
  · exact hsame.trans hd
  · have hnone := (hspares l rfl p hp).1 hconfident
    rw [stepOf_before, hd] at hnone
    cases hnone

theorem editsKept_learn {past : List KnowledgeStep} {l : Learning} (h : EditsKept past s.db)
    (hspares : SparesKnown (stepOf (knowledgeNext u) (.learn l) s)) :
    EditsKept past (runLearningCycle l s.db) := by
  intro id
  have hid := h id
  cases hfind : s.db.docs.find? id with
  | none =>
    rw [hfind] at hid
    exact hid.of_none _
  | some d =>
    rw [hfind] at hid
    rwa [find?_docs_of_spares hspares hfind]

theorem docs_of_not_storesDocs {e : KnowledgeEvent} (he : e.storesDocs = false) :
    (knowledgeNext u e s).2.db.docs = s.db.docs := by
  cases e with
  | learn l => cases he
  | create uuid now body => cases he
  | update id now body => cases he
  | approve id now =>
    rw [knowledgeNext, TeachdState.locked]
    rcases approve_cases id now s.db with ⟨status, message, h⟩ | ⟨o, old, -, -, h⟩
    · rw [h]
    · rw [h]
      rfl
  | applyRead id now => rw [knowledgeNext, applyRead_db]
  | applyExecute request switch succeeds => rw [knowledgeNext, applyExecute_db]
  | applyFinish request =>
    rw [knowledgeNext]
    rcases applyFinish_cases request s with h | ⟨o, result, status, reply, -, -, h⟩
    · rw [h]
    · rw [h]
      rfl
  | observe | prune | suggest | hangUp => rfl

theorem editsKept_step {e : KnowledgeEvent} {past : List KnowledgeStep} (h : EditsKept past s.db)
    (hspares : SparesKnown (stepOf (knowledgeNext u) e s)) :
    EditsKept (past ++ [stepOf (knowledgeNext u) e s]) (knowledgeNext u e s).2.db := by
  intro id
  rw [editsOf_concat]
  cases e with
  | learn l => exact editsKept_learn h hspares id
  | create uuid now body => exact (h id).create
  | update docId now body => exact (h id).update
  | _ =>
    rw [docs_of_not_storesDocs rfl]
    exact h id

theorem preservesKnown_learn {past : List KnowledgeStep} {l : Learning} (h : EditsKept past s.db)
    (hspares : SparesKnown (stepOf (knowledgeNext u) (.learn l) s)) :
    PreservesKnown past (stepOf (knowledgeNext u) (.learn l) s) where
  edits := editsKept_learn h hspares
  docs id d hd := ⟨d, find?_docs_of_spares hspares hd, rfl, fun happlied => happlied⟩
  firstSeen id p hp := by
    rcases find?_learned_patterns l s.db id with hsame | ⟨q, hq, rfl, hfind⟩
    · exact ⟨p, hsame.trans hp, Int.le_refl _⟩
    · exact ⟨q, hfind, (hspares l rfl q hq).2 p hp⟩

end

/-- **Learning preserves what is known.** In a run of teachd over any database, as long as no
cycle stores a document again or a pattern that begins later than it is stored to begin, no
cycle reverts an edit, changes a `created_at`, clears an `applied` flag or moves a `first_seen`
to a later time. -/
theorem learning_preserves (u : Unicode) (db : KnowledgeDb) (events : List KnowledgeEvent)
    (h : ∀ t ∈ trace (knowledgeNext u) events (.start db), SparesKnown t)
    {past future : List KnowledgeStep} {t : KnowledgeStep}
    (hsplit : trace (knowledgeNext u) events (.start db) = past ++ t :: future)
    {l : Learning} (hl : t.input = .learn l) : PreservesKnown past t := by
  obtain ⟨hpast, hrest⟩ := trace_eq_append hsplit
  obtain ⟨hstep, -⟩ := trace_eq_cons hrest.symm
  have hedits : EditsKept ([] ++ trace (knowledgeNext u) (past.map Step.input) (.start db))
      (final (knowledgeNext u) (past.map Step.input) (.start db)).db :=
    history_invariant_of (R := fun past s => EditsKept past s.db) (C := fun _ t => SparesKnown t)
      (fun e past s hkept hspares => editsKept_step hkept hspares) (past.map Step.input)
      (fun id => ⟨nofun, nofun, nofun⟩) fun before u' after hu' =>
        h u' (by rw [hsplit, hpast, hu']; simp)
  rw [List.nil_append, ← hpast] at hedits
  have hspares : SparesKnown t := h t (by rw [hsplit]; simp)
  rw [hstep, hl] at hspares ⊢
  exact preservesKnown_learn hedits hspares

/-! ### A service that keeps failing -/

/-- 2026-01-01, 13:00. -/
def firstLook : DateTime := ⟨1767272400 * 1000000000, by decide⟩

/-- Five minutes later. -/
def secondLook : DateTime := ⟨1767272700 * 1000000000, by decide⟩

def nginxFailure (n : Nat) : Observation :=
  ⟨"obs-" ++ toString n, firstLook, "service",
    .object [("failed", .integer 1), ("failed_names", .array [.string "nginx.service"])]⟩

/-- Eight failures at the first look. -/
def nginxFailures : KnowledgeDb :=
  ⟨((List.range 8).map nginxFailure).foldl Table.put .empty, .empty, .empty, .empty⟩

/-- A cycle at a time, in the orders that keep ties as they are. -/
def lookAt (now : DateTime) : Learning := ⟨now, fun _ => now, .stable _, .stable _⟩

/-- A document is written by hand before the first cycle. -/
def note : KnowledgeStep :=
  stepOf (knowledgeNext Unicode.ascii)
    (.create "0" firstLook ⟨"nginx", "reliability", "Restart it by hand.", none⟩)
    (.start nginxFailures)

def learnedAfterNote : KnowledgeStep :=
  stepOf (knowledgeNext Unicode.ascii) (.learn (lookAt secondLook)) note.after

/-- The document of a pattern is edited by hand before the pattern is detected again. -/
def learnedTwice : List KnowledgeStep :=
  trace (knowledgeNext Unicode.ascii)
    [.learn (lookAt firstLook),
      .update "kd-pat-recurring-nginx.service" firstLook ⟨some "Restart it by hand.", none, none⟩,
      .learn (lookAt secondLook)] (.start nginxFailures)

theorem note_preserved : PreservesKnown [note] learnedAfterNote := by
  refine learning_preserves Unicode.ascii nginxFailures [note.input, learnedAfterNote.input]
    (fun t ht => ?_) (show _ = [note] ++ learnedAfterNote :: [] from rfl) rfl
  rcases List.mem_cons.mp ht with rfl | hlearn
  · intro l hl
    cases hl
  · obtain rfl := List.mem_singleton.mp hlearn
    intro l hl
    obtain rfl := KnowledgeEvent.learn.inj hl
    decide +kernel

theorem relearned_not_preserved : ¬ ∀ past t future l, learnedTwice = past ++ t :: future →
    t.input = .learn l → PreservesKnown past t := by
  intro h
  have hkept := (h [_, _] _ [] _ rfl rfl).edits "kd-pat-recurring-nginx.service"
  have hcontent := hkept.content "Restart it by hand." (by decide +kernel)
  revert hcontent
  decide +kernel

end OsModa.Teachd
