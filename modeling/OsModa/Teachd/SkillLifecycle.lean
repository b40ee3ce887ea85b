import OsModa.Teachd.Skills

/-!
The life of a skill candidate.

A candidate is stored as pending, and each step of teachd leaves its status or takes it one
step along pending, generated, promoted or rejected, retired (`skill_lifecycle`). A
verification cycle stores many candidates, but each of those it has listed once.
-/

namespace OsModa.Teachd

open OsModa.Text OsModa.Machine OsModa.Float64

/-- The moves of a candidate's status. -/
inductive StatusEdge : SkillCandidateStatus → SkillCandidateStatus → Prop where
  | generate : StatusEdge .pending .generated
  | promote : StatusEdge .generated .promoted
  | reject : StatusEdge .generated .rejected
  | retire : StatusEdge .promoted .retired

/-- A status that no candidate leaves. -/
def SkillCandidateStatus.Final (s : SkillCandidateStatus) : Prop := s = .rejected ∨ s = .retired

/-- What one step may do to the candidates. -/
structure KeepsLifecycle (t : SkillsStep) : Prop where
  moves : ∀ id c, t.before.candidates.find? id = some c → ∃ c',
    t.after.candidates.find? id = some c' ∧ (c'.status = c.status ∨ StatusEdge c.status c'.status)
  born : ∀ id c', t.before.candidates.find? id = none → t.after.candidates.find? id = some c' →
    c'.status = .pending
  redetected : ∀ d, t.input = .detect d → ∀ id c, t.before.candidates.find? id = some c →
    t.after.candidates.find? id = some c
  confidence : ∀ c ∈ t.after.candidates.rows, 0 ≤ c.confidence ∧ c.confidence ≤ 1

/-! ### Candidates before and after -/

/-- A candidate's confidence is a share. -/
def SkillCandidate.Fair (c : SkillCandidate) : Prop := 0 ≤ c.confidence ∧ c.confidence ≤ 1

/-- The candidates of a table go one step of their life at most, and new ones are pending. -/
structure Follows (before after : Table SkillCandidate.id) : Prop where
  moves : ∀ id c, before.find? id = some c → ∃ c', after.find? id = some c' ∧
    (c'.status = c.status ∨ StatusEdge c.status c'.status)
  born : ∀ id c', before.find? id = none → after.find? id = some c' → c'.status = .pending

section

variable {candidates after : Table SkillCandidate.id} {c c' : SkillCandidate}

theorem StatusEdge.not_final {s s' : SkillCandidateStatus} (h : StatusEdge s s') : ¬ s.Final := by
  cases h <;> simp [SkillCandidateStatus.Final]

theorem Follows.refl (candidates : Table SkillCandidate.id) : Follows candidates candidates :=
  ⟨fun _ c hc => ⟨c, hc, .inl rfl⟩, fun _ c' hnone hc' => by rw [hnone] at hc'; cases hc'⟩

/-- A stored candidate is replaced by one a step further. -/
theorem Follows.put (hfind : candidates.find? c.id = some c) (hid : c'.id = c.id)
    (hstatus : c'.status = c.status ∨ StatusEdge c.status c'.status) :
    Follows candidates (candidates.put c') := by
  constructor
  · intro id d hd
    rw [Table.find?_put]
    split
    · rename_i hsame
      rw [← hsame, hid, hfind, Option.some.injEq] at hd
      exact ⟨c', rfl, hd ▸ hstatus⟩
    · exact ⟨d, hd, .inl rfl⟩
  · intro id d hnone hd
    rw [Table.find?_put] at hd
    split at hd
    · rename_i hsame
      rw [← hsame, hid, hfind] at hnone
      cases hnone
    · rw [hnone] at hd
      cases hd

theorem fair_put (h : ∀ c ∈ candidates.rows, c.Fair) (hc' : c'.Fair) :
    ∀ c ∈ (candidates.put c').rows, c.Fair := by
  intro c hc
  have hfind := Table.mem_rows_iff.mp hc
  rw [Table.find?_put] at hfind
  split at hfind
  · cases hfind
    exact hc'
  · exact h c (Table.mem_rows_iff.mpr hfind)

/-! ### Detection -/

theorem computeConfidence_fair (s : ToolSequenceCandidate) :
    0 ≤ computeConfidence s ∧ computeConfidence s ≤ 1 := by
  have hsession : (0 : ℚ) ≤ min (fl (s.sessionCount / 8)) 1 :=
    le_min (fl_nonneg (by positivity)) zero_le_one
  have hlength : (0 : ℚ) ≤ min (fl (1 / max (fl (s.tools.length - 1)) 1)) 1 :=
    le_min (fl_nonneg (by positivity)) zero_le_one
  refine ⟨le_min (fl_nonneg (add_nonneg (fl_nonneg ?_) (fl_nonneg ?_))) zero_le_one,
    min_le_right _ _⟩
  · exact mul_nonneg hsession (fl_nonneg (by norm_num))
  · exact mul_nonneg hlength (fl_nonneg (by norm_num))

/-- A sequence that is considered gives a pending candidate at most. -/
theorem considerSequence_cases (now : DateTime) (listing : OrderBy candidateKey)
    (candidates : Table SkillCandidate.id) (s : ToolSequenceCandidate) :
    considerSequence now listing candidates s = candidates ∨
      candidates.find? (newCandidate now s).id = none ∧
        considerSequence now listing candidates s = candidates.put (newCandidate now s) := by
  unfold considerSequence
  split
  · exact .inl rfl
  · rename_i hfree
    split
    · exact .inl rfl
    · exact .inr ⟨by simpa [newCandidate] using hfree, rfl⟩

/-- What a detection keeps of the candidates. -/
structure Redetects (before after : Table SkillCandidate.id) : Prop where
  same : ∀ id c, before.find? id = some c → after.find? id = some c
  born : ∀ id c', before.find? id = none → after.find? id = some c' → c'.status = .pending
  fair : (∀ c ∈ before.rows, c.Fair) → ∀ c ∈ after.rows, c.Fair

theorem redetects_considerSequence (now : DateTime) (listing : OrderBy candidateKey)
    (candidates : Table SkillCandidate.id) (s : ToolSequenceCandidate) :
    Redetects candidates (considerSequence now listing candidates s) := by
  rcases considerSequence_cases now listing candidates s with hsame | ⟨hfree, hput⟩
  · rw [hsame]
    exact ⟨fun _ _ h => h, fun _ c' hnone hc' => (by rw [hnone] at hc'; cases hc'), fun h => h⟩
  · rw [hput]
    refine ⟨fun id c hc => ?_, fun id c' hnone hc' => ?_, fun h => ?_⟩
    · rw [Table.find?_put, if_neg, hc]
      rintro rfl
      rw [hfree] at hc
      cases hc
    · rw [Table.find?_put] at hc'
      split at hc'
      · cases hc'
        rfl
      · rw [hnone] at hc'
        cases hc'
    · exact fair_put h (computeConfidence_fair s)

theorem redetects_foldl (now : DateTime) (listing : OrderBy candidateKey)
    (sequences : List ToolSequenceCandidate) (candidates : Table SkillCandidate.id) :
    Redetects candidates (sequences.foldl (considerSequence now listing) candidates) := by
  induction sequences generalizing candidates with
  | nil =>
    exact ⟨fun _ _ h => h, fun _ c' hnone hc' => (by rw [List.foldl_nil, hnone] at hc'; cases hc'),
      fun h => h⟩
  | cons s sequences ih =>
    have hfirst := redetects_considerSequence now listing candidates s
    have hrest := ih (considerSequence now listing candidates s)
    refine ⟨fun id c hc => hrest.same id c (hfirst.same id c hc), fun id c' hnone hc' => ?_,
      fun h => hrest.fair (hfirst.fair h)⟩
    cases hnext : (considerSequence now listing candidates s).find? id with
    | none => exact hrest.born id c' hnext hc'
    | some d =>
      -- It was stored for this sequence, and the rest of the cycle keeps it.
      rw [List.foldl_cons, hrest.same id d hnext, Option.some.injEq] at hc'
      exact hc' ▸ hfirst.born id d hnone hnext

/-! ### Verification -/

/-- The verifier leaves a candidate's status or takes it one step further. -/
theorem verifyCandidate_spec {now : DateTime} {executions : List SkillExecution}
    (h : verifyCandidate now executions c = some c') : c'.id = c.id ∧ c'.Fair ∧
      (c'.status = c.status ∨ StatusEdge c.status c'.status) := by
  unfold verifyCandidate at h
  dsimp only at h
  split at h
  · cases h
  · obtain ⟨status, hstatus, rfl⟩ := Option.map_eq_some_iff.mp h
    refine ⟨rfl, clamp_bounds zero_le_one, ?_⟩
    show status = c.status ∨ StatusEdge c.status status
    cases hc : c.status with
    | generated =>
      rw [hc] at hstatus
      obtain rfl := Option.some.inj hstatus
      split_ifs
      · exact .inr .promote
      · exact .inr .reject
      · exact .inl rfl
    | promoted =>
      rw [hc] at hstatus
      obtain rfl := Option.some.inj hstatus
      split_ifs
      · exact .inr .retire
      · exact .inl rfl
    | pending | rejected | retired =>
      rw [hc] at hstatus
      cases hstatus

theorem find?_of_mem_listing {order : OrderBy candidateKey} {status : Option SkillCandidateStatus}
    {limit : Nat} (h : c ∈ listSkillCandidates order status limit candidates) :
    candidates.find? c.id = some c ∧ status.all (c.status = ·) := by
  obtain ⟨hmem, hstatus⟩ := List.mem_filter.mp (order.mem_of_mem_take h)
  exact ⟨Table.mem_rows_iff.mp hmem, hstatus⟩

theorem nodup_listing (order : OrderBy candidateKey) (status : Option SkillCandidateStatus)
    (limit : Nat) : ((listSkillCandidates order status limit candidates).map (·.id)).Nodup :=
  order.nodup_take (candidates.nodup_keys.sublist (List.filter_sublist.map _)) limit

/-- No candidate is listed twice. -/
theorem nodup_verifyListing (generatedOrder promotedOrder : OrderBy candidateKey) :
    ((verifyListing generatedOrder promotedOrder candidates).map (·.id)).Nodup := by
  rw [verifyListing, List.map_append]
  refine List.Nodup.append (nodup_listing ..) (nodup_listing ..) ?_
  intro id hgenerated hpromoted
  obtain ⟨c, hc, rfl⟩ := List.mem_map.mp hgenerated
  obtain ⟨d, hd, hid⟩ := List.mem_map.mp hpromoted
  obtain ⟨hcfind, hcstatus⟩ := find?_of_mem_listing hc
  obtain ⟨hdfind, hdstatus⟩ := find?_of_mem_listing hd
  rw [hid, hcfind, Option.some.injEq] at hdfind
  subst hdfind
  simp only [Option.all_some, decide_eq_true_eq] at hcstatus hdstatus
  rw [hcstatus] at hdstatus
  cases hdstatus

theorem find?_of_mem_verifyListing {generatedOrder promotedOrder : OrderBy candidateKey}
    (h : c ∈ verifyListing generatedOrder promotedOrder candidates) :
    candidates.find? c.id = some c := by
  rcases List.mem_append.mp h with h | h
  · exact (find?_of_mem_listing h).1
  · exact (find?_of_mem_listing h).1

theorem find?_storeVerified_other {now : DateTime} {executions : List SkillExecution} {id : String}
    (hid : c.id ≠ id) : (storeVerified now executions candidates c).find? id = candidates.find? id := by
  unfold storeVerified
  split
  · rfl
  · rename_i hsome
    exact Table.find?_put_other ((verifyCandidate_spec hsome).1 ▸ hid)

/-- Storing the verified candidates one after another: each row is as it was or as the
verifier has it. -/
theorem foldl_storeVerified (now : DateTime) (executions : List SkillExecution)
    (listing : List SkillCandidate) (candidates : Table SkillCandidate.id)
    (hnodup : (listing.map (·.id)).Nodup) (hlisted : ∀ c ∈ listing, candidates.find? c.id = some c)
    (id : String) :
    (listing.foldl (storeVerified now executions) candidates).find? id = candidates.find? id ∨
      ∃ c ∈ listing, ∃ c', c.id = id ∧ verifyCandidate now executions c = some c' ∧
        (listing.foldl (storeVerified now executions) candidates).find? id = some c' := by
  induction listing generalizing candidates with
  | nil => exact .inl rfl
  | cons c listing ih =>
    obtain ⟨hnew, hnodup⟩ := List.nodup_cons.mp hnodup
    have hother : ∀ d ∈ listing, c.id ≠ d.id := fun d hd hid =>
      hnew (List.mem_map.mpr ⟨d, hd, hid.symm⟩)
    rcases ih (storeVerified now executions candidates c) hnodup fun d hd => by
        rw [find?_storeVerified_other (hother d hd)]
        exact hlisted d (List.mem_cons_of_mem _ hd) with hsame | ⟨d, hd, d', hid, hd', hfind⟩
    · rw [List.foldl_cons, hsame]
      by_cases hid : c.id = id
      · unfold storeVerified
        cases hverified : verifyCandidate now executions c with
        | none => exact .inl rfl
        | some c' =>
          refine .inr ⟨c, List.mem_cons_self, c', hid, hverified, ?_⟩
          rw [Table.find?_put, if_pos ((verifyCandidate_spec hverified).1.trans hid)]
      · exact .inl (find?_storeVerified_other hid)
    · exact .inr ⟨d, List.mem_cons_of_mem _ hd, d', hid, hd', hfind⟩

theorem follows_verify (now : DateTime) (generatedOrder promotedOrder : OrderBy candidateKey)
    (db : SkillsDb) :
    Follows db.candidates (runVerifyCycle now generatedOrder promotedOrder db).2.candidates := by
  have hrow := foldl_storeVerified now db.executions
    (verifyListing generatedOrder promotedOrder db.candidates) db.candidates
    (nodup_verifyListing ..) (fun c hc => find?_of_mem_verifyListing hc)
  constructor
  · intro id c hc
    rcases hrow id with hsame | ⟨d, hd, d', hid, hverified, hfind⟩
    · exact ⟨c, hsame.trans hc, .inl rfl⟩
    · rw [← hid, find?_of_mem_verifyListing hd, Option.some.injEq] at hc
      exact ⟨d', hfind, hc ▸ (verifyCandidate_spec hverified).2.2⟩
  · intro id c' hnone hc'
    rcases hrow id with hsame | ⟨d, hd, d', hid, -, -⟩
    · rw [show (runVerifyCycle now generatedOrder promotedOrder db).2.candidates.find? id = _ from
        hsame, hnone] at hc'
      cases hc'
    · rw [← hid, find?_of_mem_verifyListing hd] at hnone
      cases hnone

theorem fair_verify (now : DateTime) (generatedOrder promotedOrder : OrderBy candidateKey)
    {db : SkillsDb} (h : ∀ c ∈ db.candidates.rows, c.Fair) :
    ∀ c ∈ (runVerifyCycle now generatedOrder promotedOrder db).2.candidates.rows, c.Fair := by
  intro c hc
  have hfind := Table.mem_rows_iff.mp hc
  rcases foldl_storeVerified now db.executions
      (verifyListing generatedOrder promotedOrder db.candidates) db.candidates
      (nodup_verifyListing ..) (fun c hc => find?_of_mem_verifyListing hc) c.id with
    hsame | ⟨d, -, d', -, hverified, hfind'⟩
  · exact h c (Table.mem_rows_iff.mpr (hsame.symm.trans hfind))
  · rw [show c = d' from Option.some.inj (hfind.symm.trans hfind')]
    exact (verifyCandidate_spec hverified).2.1

/-! ### Requests -/

/-- A request changes nothing, or moves one candidate from a status to another. -/
def Marks (source target : SkillCandidateStatus) (db db' : SkillsDb) : Prop :=
  db' = db ∨ ∃ c c', db.candidates.find? c.id = some c ∧ c'.id = c.id ∧ c'.name = c.name ∧
    c'.tools = c.tools ∧ c'.confidence = c.confidence ∧ c.status = source ∧ c'.status = target ∧
    db' = { db with candidates := db.candidates.put c' }

theorem marks_skillGenerate (skillsDir id : String) (now : DateTime) (write : Except String Unit)
    (db : SkillsDb) : Marks .pending .generated db (skillGenerate skillsDir id now write db).2 := by
  unfold skillGenerate
  cases hfind : db.candidates.find? id with
  | none => exact .inl rfl
  | some c =>
    by_cases hstatus : c.status = .pending
    · cases hwrite : writeSkillFile skillsDir write c with
      | error e => exact .inl (by simp [hstatus, hwrite])
      | ok path =>
        refine .inr ⟨c, { c with status := .generated, skillPath := some path, updatedAt := now }, ?_⟩
        exact ⟨Table.key_of_find? hfind ▸ hfind, rfl, rfl, rfl, rfl, hstatus, rfl,
          by simp [hstatus, hwrite]⟩
    · exact .inl (by simp [hstatus])

theorem marks_skillPromote (id : String) (now : DateTime) (db : SkillsDb) :
    Marks .generated .promoted db (skillPromote id now db).2 := by
  unfold skillPromote
  cases hfind : db.candidates.find? id with
  | none => exact .inl rfl
  | some c =>
    by_cases hstatus : c.status = .generated
    · refine .inr ⟨c, { c with status := .promoted, updatedAt := now }, ?_⟩
      exact ⟨Table.key_of_find? hfind ▸ hfind, rfl, rfl, rfl, rfl, hstatus, rfl, by simp [hstatus]⟩
    · exact .inl (by simp [hstatus])

theorem Marks.follows {source target : SkillCandidateStatus} {db db' : SkillsDb}
    (h : Marks source target db db') (hedge : StatusEdge source target) :
    Follows db.candidates db'.candidates := by
  rcases h with rfl | ⟨c, c', hfind, hid, -, -, -, rfl, rfl, rfl⟩
  · exact .refl _
  · exact .put hfind hid (.inr hedge)

theorem Marks.fair {source target : SkillCandidateStatus} {db db' : SkillsDb}
    (h : Marks source target db db') (hfair : ∀ c ∈ db.candidates.rows, c.Fair) :
    ∀ c ∈ db'.candidates.rows, c.Fair := by
  rcases h with rfl | ⟨c, c', hfind, -, -, -, hconfidence, -, -, rfl⟩
  · exact hfair
  · have hc := hfair c (List.mem_of_find?_eq_some hfind)
    exact fair_put hfair (by rwa [SkillCandidate.Fair, hconfidence])

theorem observeAction_candidates (u : Unicode) (id : String) (now : DateTime)
    (body : ObserveActionRequest) (db : SkillsDb) :
    (observeAction u id now body db).2.candidates = db.candidates := by
  unfold observeAction
  split <;> rfl

end

/-! ### Steps and runs -/

section

variable (u : Unicode) (skillsDir : String)

theorem follows_step (e : SkillsEvent) (db : SkillsDb) :
    Follows db.candidates (skillsNext u skillsDir e db).2.candidates := by
  cases e with
  | observe id now body =>
    rw [show (skillsNext u skillsDir (.observe id now body) db).2.candidates = db.candidates from
      observeAction_candidates ..]
    exact .refl _
  | prune cutoff => exact .refl _
  | detect d =>
    have hredetects := redetects_foldl d.now d.listing (d.sequences db) db.candidates
    exact ⟨fun id c hc => ⟨c, hredetects.same id c hc, .inl rfl⟩, hredetects.born⟩
  | generate id now write => exact (marks_skillGenerate skillsDir id now write db).follows .generate
  | promote id now => exact (marks_skillPromote id now db).follows .promote
  | execution e => exact .refl _
  | verify now generatedOrder promotedOrder => exact follows_verify now generatedOrder promotedOrder db

theorem fair_step (e : SkillsEvent) (db : SkillsDb) (h : ∀ c ∈ db.candidates.rows, c.Fair) :
    ∀ c ∈ (skillsNext u skillsDir e db).2.candidates.rows, c.Fair := by
  cases e with
  | observe id now body =>
    rw [show (skillsNext u skillsDir (.observe id now body) db).2.candidates = db.candidates from
      observeAction_candidates ..]
    exact h
  | prune cutoff => exact h
  | detect d => exact (redetects_foldl d.now d.listing (d.sequences db) db.candidates).fair h
  | generate id now write => exact (marks_skillGenerate skillsDir id now write db).fair h
  | promote id now => exact (marks_skillPromote id now db).fair h
  | execution e => exact h
  | verify now generatedOrder promotedOrder => exact fair_verify now generatedOrder promotedOrder h

/-- A candidate that is rejected or retired stays so. -/
theorem final_status_stays (events : List SkillsEvent) {db : SkillsDb} {id : String}
    {c : SkillCandidate} (hfind : db.candidates.find? id = some c) (hfinal : c.status.Final) :
    ∃ c', (final (skillsNext u skillsDir) events db).candidates.find? id = some c' ∧
      c'.status = c.status := by
  refine final_invariant (I := fun db' : SkillsDb =>
    ∃ c', db'.candidates.find? id = some c' ∧ c'.status = c.status) ?_ events ⟨c, hfind, rfl⟩
  rintro e db' ⟨c', hfind', hstatus⟩
  obtain ⟨c'', hfind'', hmoves⟩ := (follows_step u skillsDir e db').moves id c' hfind'
  refine ⟨c'', hfind'', ?_⟩
  rcases hmoves with hsame | hedge
  · exact hsame.trans hstatus
  · exact absurd (hstatus ▸ hfinal) hedge.not_final

/-- **The life of a skill candidate.** In every run of teachd from an empty database, each step
takes every candidate one step along its life at most, new candidates are pending, a detection
leaves those that there are alone, all confidences are shares, and a candidate that is
rejected or retired at any time is so ever after. -/
theorem skill_lifecycle (events : List SkillsEvent) :
    (∀ t ∈ trace (skillsNext u skillsDir) events .empty, KeepsLifecycle t) ∧
      ∀ past future, events = past ++ future → ∀ id c,
        (final (skillsNext u skillsDir) past .empty).candidates.find? id = some c →
        c.status.Final →
        ∃ c', (final (skillsNext u skillsDir) events .empty).candidates.find? id = some c' ∧
          c'.status = c.status := by
  constructor
  · intro t ht
    obtain ⟨past, future, -, hstep⟩ := mem_trace_split ht
    have hfair := (trace_invariant (I := fun db : SkillsDb => ∀ c ∈ db.candidates.rows, c.Fair)
      (fair_step u skillsDir) (by simp [SkillsDb.empty, Table.empty]) ht).2
    have hfollows := follows_step u skillsDir t.input (final (skillsNext u skillsDir) past .empty)
    rw [hstep] at hfair ⊢
    refine ⟨hfollows.moves, hfollows.born, fun d hd id c hc => ?_, hfair⟩
    rw [stepOf_input] at hd
    rw [stepOf_after, hd]
    exact (redetects_foldl d.now d.listing _ _).same id c hc
  · rintro past future rfl id c hfind hfinal
    rw [final_append]
    exact final_status_stays u skillsDir future hfind hfinal

end

end OsModa.Teachd
