import OsModa.Teachd.SkillIdentity

/-!
Verifying twice on the same executions.

The verifier blends the success rate of a skill into its confidence, and stores the result where
the next cycle finds its "initial" confidence. So the confidence moves on with every cycle, until
it is one that blending no longer changes. The status depends on the rate alone, and the second
cycle changes it only for candidates that the first did not list (`verify_twice_iff`).
-/

namespace OsModa.Teachd

open OsModa.Float64

/-! ### One cycle -/

section Cycle

variable {now : DateTime} {executions : List SkillExecution} {candidates : Table SkillCandidate.id}
  {listing : List SkillCandidate} {c : SkillCandidate}

/-- The share of a skill's executions that succeeded. -/
def successRate (executions : List SkillExecution) (name : String) : ℚ :=
  fl ((skillSuccessRate executions name).1 / (skillSuccessRate executions name).2)

/-- A skill has been executed often enough to be judged. -/
def Judged (executions : List SkillExecution) (name : String) : Prop :=
  minExecutions ≤ (skillSuccessRate executions name).2

theorem verifyCandidate_eq_some {c' : SkillCandidate} :
    verifyCandidate now executions c = some c' ↔ Judged executions c.name ∧
      ∃ status, verifiedStatus (successRate executions c.name) c.status = some status ∧
        c' = { c with
          confidence := blendConfidence c.confidence (successRate executions c.name)
          updatedAt := now
          status := status } := by
  unfold verifyCandidate Judged
  dsimp only
  split
  · rename_i hfew
    exact iff_of_false (by simp) fun h => absurd h.1 (by omega)
  · rename_i henough
    rw [and_iff_right (by omega), Option.map_eq_some_iff]
    exact exists_congr fun status => and_congr_right fun _ => eq_comm

theorem find?_foldl_storeVerified_other {id : String} (h : ∀ c ∈ listing, c.id ≠ id) :
    (listing.foldl (storeVerified now executions) candidates).find? id = candidates.find? id := by
  induction listing generalizing candidates with
  | nil => rfl
  | cons c listing ih =>
    obtain ⟨hc, hrest⟩ := List.forall_mem_cons.mp h
    rw [List.foldl_cons, ih hrest, find?_storeVerified_other hc]

/-- A listed candidate is stored as the verifier has it, or left if it passes over it. -/
theorem find?_foldl_storeVerified_of_mem (hnodup : (listing.map (·.id)).Nodup)
    (hlisted : ∀ c ∈ listing, candidates.find? c.id = some c) (hc : c ∈ listing) :
    (listing.foldl (storeVerified now executions) candidates).find? c.id =
      some ((verifyCandidate now executions c).getD c) := by
  induction listing generalizing candidates with
  | nil => cases hc
  | cons d listing ih =>
    obtain ⟨hnew, hnodup⟩ := List.nodup_cons.mp hnodup
    have hother : ∀ e ∈ listing, e.id ≠ d.id := fun e he hid =>
      hnew (List.mem_map.mpr ⟨e, he, hid⟩)
    rw [List.foldl_cons]
    rcases List.mem_cons.mp hc with rfl | hc
    · rw [find?_foldl_storeVerified_other hother, storeVerified]
      cases hverified : verifyCandidate now executions c with
      | none => exact hlisted c List.mem_cons_self
      | some c' =>
        rw [Option.getD_some, ← (verifyCandidate_spec hverified).1]
        exact Table.find?_put_self _ _
    · refine ih hnodup (fun e he => ?_) hc
      rw [find?_storeVerified_other (hother e he).symm]
      exact hlisted e (List.mem_cons_of_mem _ he)

end Cycle

/-! ### Two cycles -/

/-- When a cycle runs, and in which orders its queries list candidates. -/
structure Verifying where
  now : DateTime
  generatedOrder : OrderBy candidateKey
  promotedOrder : OrderBy candidateKey

namespace Verifying

variable (v : Verifying) (db : SkillsDb)

def cycle : SkillsDb := (runVerifyCycle v.now v.generatedOrder v.promotedOrder db).2

/-- The candidates that the cycle lists. -/
def listing : List SkillCandidate := verifyListing v.generatedOrder v.promotedOrder db.candidates

@[simp] theorem cycle_executions : (v.cycle db).executions = db.executions := rfl

variable {v db} {c : SkillCandidate}

theorem find?_cycle_of_mem (hc : c ∈ v.listing db) :
    (v.cycle db).candidates.find? c.id =
      some ((verifyCandidate v.now db.executions c).getD c) :=
  find?_foldl_storeVerified_of_mem (nodup_verifyListing ..)
    (fun _ hd => find?_of_mem_verifyListing hd) hc

theorem find?_cycle_other {id : String} (h : ∀ c ∈ v.listing db, c.id ≠ id) :
    (v.cycle db).candidates.find? id = db.candidates.find? id :=
  find?_foldl_storeVerified_other h

/-- Only generated and promoted candidates are listed. -/
theorem status_of_mem_listing (hc : c ∈ v.listing db) :
    c.status = .generated ∨ c.status = .promoted := by
  rcases List.mem_append.mp hc with hc | hc
  · exact .inl (by simpa using (find?_of_mem_listing hc).2)
  · exact .inr (by simpa using (find?_of_mem_listing hc).2)

end Verifying

/-- The status and the confidence of a candidate. -/
def verdict (candidates : Table SkillCandidate.id) (id : String) :
    Option (SkillCandidateStatus × ℚ) :=
  (candidates.find? id).map fun c => (c.status, c.confidence)

/-- The second of two cycles leaves every status and every confidence as the first has left it. -/
def VerifiedOnce (first second : Verifying) (db : SkillsDb) : Prop :=
  verdict (second.cycle (first.cycle db)).candidates = verdict (first.cycle db).candidates

/-- The verifier would leave the candidate as it is. -/
structure Settled (executions : List SkillExecution) (c : SkillCandidate) : Prop where
  confidence : blendConfidence c.confidence (successRate executions c.name) = c.confidence
  status : verifiedStatus (successRate executions c.name) c.status = some c.status

/-- A status that the verifier gives and lists again is the one that it gives again. -/
theorem verifiedStatus_again {rate : ℚ} {status given : SkillCandidateStatus}
    (h : verifiedStatus rate status = some given)
    (hlisted : given = .generated ∨ given = .promoted) :
    verifiedStatus rate given = some given := by
  have hrates : retireRate ≤ promoteRate := by decide +kernel
  cases status with
  | generated =>
    obtain rfl := Option.some.inj h
    split_ifs at hlisted ⊢ with hpromote hreject
    · exact congrArg some (if_neg (not_lt.mpr (hrates.trans hpromote)))
    · simp at hlisted
    · exact congrArg some ((if_neg hpromote).trans (if_neg hreject))
  | promoted =>
    obtain rfl := Option.some.inj h
    split_ifs at hlisted ⊢ with hretire
    · simp at hlisted
    · exact congrArg some (if_neg hretire)
  | pending | rejected | retired => cases h

section Twice

variable {first second : Verifying} {db : SkillsDb}

/-- The verifier judges a listed candidate that has been executed often enough. -/
theorem Verifying.exists_verified {v : Verifying} {db : SkillsDb} {c : SkillCandidate}
    (hc : c ∈ v.listing db) (hjudged : Judged db.executions c.name) :
    ∃ c', verifyCandidate v.now db.executions c = some c' := by
  have hstatus : ∃ status, verifiedStatus (successRate db.executions c.name) c.status =
      some status := by
    rcases Verifying.status_of_mem_listing hc with h | h <;> rw [h] <;> exact ⟨_, rfl⟩
  obtain ⟨status, hstatus⟩ := hstatus
  exact ⟨_, verifyCandidate_eq_some.mpr ⟨hjudged, status, hstatus, rfl⟩⟩

/-- Nothing changes in the second cycle if and only if what it lists is settled. -/
theorem verifiedOnce_iff_settled : VerifiedOnce first second db ↔
    ∀ c ∈ second.listing (first.cycle db), Judged db.executions c.name →
      Settled db.executions c := by
  constructor
  · intro honce c hc hjudged
    have hid := congrFun honce c.id
    rw [verdict, verdict, Verifying.find?_cycle_of_mem hc, find?_of_mem_verifyListing hc,
      Option.map_some, Option.map_some, Option.some_inj, Prod.mk.injEq] at hid
    obtain ⟨c', hc'⟩ := Verifying.exists_verified hc hjudged
    rw [hc', Option.getD_some] at hid
    obtain ⟨-, status, hstatus, rfl⟩ := verifyCandidate_eq_some.mp hc'
    exact ⟨hid.2, hstatus.trans (congrArg some hid.1)⟩
  · intro hsettled
    funext id
    by_cases hlisted : ∃ c ∈ second.listing (first.cycle db), c.id = id
    · obtain ⟨c, hc, rfl⟩ := hlisted
      rw [verdict, verdict, Verifying.find?_cycle_of_mem hc, find?_of_mem_verifyListing hc,
        Option.map_some, Option.map_some, Option.some_inj, Prod.mk.injEq]
      cases hverified : verifyCandidate second.now (first.cycle db).executions c with
      | none => exact ⟨rfl, rfl⟩
      | some c' =>
        obtain ⟨hjudged, status, hstatus, rfl⟩ := verifyCandidate_eq_some.mp hverified
        have h := hsettled c hc hjudged
        exact ⟨Option.some.inj (hstatus.symm.trans h.status), h.confidence⟩
    · rw [verdict, verdict, Verifying.find?_cycle_other fun c hc hid => hlisted ⟨c, hc, hid⟩]

/-- What the second cycle lists was verified by the first, or has been passed over by both for
its few executions, or was not listed by the first. -/
theorem mem_second_listing {c : SkillCandidate} (hc : c ∈ second.listing (first.cycle db)) :
    (∃ c₀ ∈ first.listing db, verifyCandidate first.now db.executions c₀ = some c) ∨
      ¬ Judged db.executions c.name ∨ c ∈ db.candidates.rows ∧ c ∉ first.listing db := by
  have hfind : (first.cycle db).candidates.find? c.id = some c := find?_of_mem_verifyListing hc
  by_cases hlisted : ∃ c₀ ∈ first.listing db, c₀.id = c.id
  · obtain ⟨c₀, hc₀, hid⟩ := hlisted
    rw [← hid, Verifying.find?_cycle_of_mem hc₀] at hfind
    cases hverified : verifyCandidate first.now db.executions c₀ with
    | some c' =>
      rw [hverified] at hfind
      exact .inl ⟨c₀, hc₀, Option.some.inj hfind ▸ hverified⟩
    | none =>
      rw [hverified] at hfind
      obtain rfl : c₀ = c := Option.some.inj hfind
      refine .inr (.inl fun hjudged => ?_)
      obtain ⟨c', hc'⟩ := Verifying.exists_verified hc₀ hjudged
      rw [hverified] at hc'
      cases hc'
  · rw [Verifying.find?_cycle_other fun d hd hid => hlisted ⟨d, hd, hid⟩] at hfind
    exact .inr (.inr ⟨Table.mem_rows_iff.mpr hfind, fun hmem => hlisted ⟨c, hmem, rfl⟩⟩)

end Twice

/-- No verdict is left to the second cycle: blending twice is blending once for every candidate
that both cycles judge, and what only the second one judges is settled as it stands. -/
structure NothingLeft (first second : Verifying) (db : SkillsDb) : Prop where
  again : ∀ c ∈ first.listing db, ∀ c', verifyCandidate first.now db.executions c = some c' →
    c' ∈ second.listing (first.cycle db) →
    blendConfidence (blendConfidence c.confidence (successRate db.executions c.name))
        (successRate db.executions c.name) =
      blendConfidence c.confidence (successRate db.executions c.name)
  late : ∀ c ∈ db.candidates.rows, c ∉ first.listing db →
    c ∈ second.listing (first.cycle db) → Judged db.executions c.name →
    Settled db.executions c

theorem verifiedOnce_iff_nothingLeft {first second : Verifying} {db : SkillsDb} :
    VerifiedOnce first second db ↔ NothingLeft first second db := by
  rw [verifiedOnce_iff_settled]
  constructor
  · intro hsettled
    refine ⟨fun c hc c' hverified hlisted => ?_, fun c _ _ hlisted => hsettled c hlisted⟩
    obtain ⟨hjudged, status, -, rfl⟩ := verifyCandidate_eq_some.mp hverified
    exact (hsettled _ hlisted hjudged).confidence
  · intro hleft c hc hjudged
    rcases mem_second_listing hc with ⟨c₀, hc₀, hverified⟩ | hfew | ⟨hrow, hnew⟩
    · have hagain := hleft.again c₀ hc₀ c hverified hc
      obtain ⟨-, status, hstatus, rfl⟩ := verifyCandidate_eq_some.mp hverified
      exact ⟨hagain, verifiedStatus_again hstatus (Verifying.status_of_mem_listing hc)⟩
    · exact absurd hjudged hfew
    · exact hleft.late c hrow hnew hc hjudged

/-! ### Stores that the cycle lists whole -/

/-- The statuses that the verifier looks at. -/
def Verifiable (status : SkillCandidateStatus) : Prop :=
  status = .generated ∨ status = .promoted

instance : DecidablePred Verifiable := fun status =>
  inferInstanceAs (Decidable (status = .generated ∨ status = .promoted))

/-- No more candidates than one query lists. -/
def ListedWhole (db : SkillsDb) : Prop :=
  db.candidates.countWhere (fun c => Verifiable c.status) ≤ 100

section Whole

variable {v first second : Verifying} {db : SkillsDb} {c : SkillCandidate}

theorem mem_listSkillCandidates_of_le {order : OrderBy candidateKey}
    {status : SkillCandidateStatus} (hstatus : Verifiable status) (h : ListedWhole db)
    (hc : c ∈ db.candidates.rows) (hcs : c.status = status) :
    c ∈ listSkillCandidates order (some status) 100 db.candidates := by
  have hfew :
      (db.candidates.rows.filter fun c => (some status).all (c.status = ·)).length ≤ 100 := by
    rw [← List.countP_eq_length_filter]
    refine le_trans (List.countP_mono_left fun d _ hd => ?_) h
    simp only [Option.all_some, decide_eq_true_eq] at hd ⊢
    exact hd ▸ hstatus
  rw [listSkillCandidates, List.take_of_length_le (((order.perm _).length_eq).trans_le hfew),
    OrderBy.mem_arrange]
  exact List.mem_filter.mpr ⟨hc, by simpa using hcs⟩

theorem mem_verifyListing_iff (h : ListedWhole db) :
    c ∈ v.listing db ↔ c ∈ db.candidates.rows ∧ Verifiable c.status := by
  constructor
  · intro hc
    exact ⟨Table.mem_rows_iff.mpr (find?_of_mem_verifyListing hc),
      Verifying.status_of_mem_listing hc⟩
  · rintro ⟨hc, hstatus⟩
    refine List.mem_append.mpr (hstatus.imp ?_ ?_) <;> intro hs <;>
      exact mem_listSkillCandidates_of_le (hs ▸ hstatus) h hc hs

/-- The verifier makes no candidate verifiable that was not. -/
theorem verifiable_before (hc : c ∈ (v.cycle db).candidates.rows) (hstatus : Verifiable c.status) :
    ∃ c₀ ∈ db.candidates.rows, c₀.id = c.id ∧ Verifiable c₀.status := by
  have hfind := Table.mem_rows_iff.mp hc
  by_cases hlisted : ∃ c₀ ∈ v.listing db, c₀.id = c.id
  · obtain ⟨c₀, hc₀, hid⟩ := hlisted
    exact ⟨c₀, Table.mem_rows_iff.mpr (find?_of_mem_verifyListing hc₀), hid,
      Verifying.status_of_mem_listing hc₀⟩
  · rw [Verifying.find?_cycle_other fun d hd hid => hlisted ⟨d, hd, hid⟩] at hfind
    exact ⟨c, Table.mem_rows_iff.mpr hfind, rfl, hstatus⟩

theorem listedWhole_cycle (h : ListedWhole db) : ListedWhole (v.cycle db) := by
  unfold ListedWhole Table.countWhere at h ⊢
  rw [List.countP_eq_length_filter, ← List.length_map (·.id)] at h ⊢
  refine le_trans (List.Subperm.length_le (List.subperm_of_subset ?_ fun id hid => ?_)) h
  · exact (v.cycle db).candidates.nodup_keys.sublist (List.filter_sublist.map _)
  · obtain ⟨c, hc, rfl⟩ := List.mem_map.mp hid
    obtain ⟨hrow, hstatus⟩ := List.mem_filter.mp hc
    obtain ⟨c₀, hc₀, hid₀, hstatus₀⟩ := verifiable_before hrow (of_decide_eq_true hstatus)
    exact List.mem_map.mpr ⟨c₀, List.mem_filter.mpr ⟨hc₀, decide_eq_true hstatus₀⟩, hid₀⟩

end Whole

/-- Each candidate that the verifier judges and keeps has a confidence that moves once at most. -/
def MovesOnce (db : SkillsDb) : Prop :=
  ∀ c ∈ db.candidates.rows, Judged db.executions c.name →
    (∃ status, verifiedStatus (successRate db.executions c.name) c.status = some status ∧
      Verifiable status) →
    blendConfidence (blendConfidence c.confidence (successRate db.executions c.name))
        (successRate db.executions c.name) =
      blendConfidence c.confidence (successRate db.executions c.name)

theorem nothingLeft_iff_movesOnce {first second : Verifying} {db : SkillsDb}
    (h : ListedWhole db) : NothingLeft first second db ↔ MovesOnce db := by
  constructor
  · intro hleft c hc hjudged
    rintro ⟨status, hstatus, hkept⟩
    have hlisted : c ∈ first.listing db := by
      refine (mem_verifyListing_iff h).mpr ⟨hc, ?_⟩
      cases hcs : c.status with
      | generated => exact .inl rfl
      | promoted => exact .inr rfl
      | pending | rejected | retired => rw [hcs] at hstatus; cases hstatus
    have hverified : verifyCandidate first.now db.executions c = some { c with
        confidence := blendConfidence c.confidence (successRate db.executions c.name)
        updatedAt := first.now
        status := status } :=
      verifyCandidate_eq_some.mpr ⟨hjudged, status, hstatus, rfl⟩
    refine hleft.again c hlisted _ hverified
      ((mem_verifyListing_iff (listedWhole_cycle h)).mpr ⟨?_, hkept⟩)
    have hfind := Verifying.find?_cycle_of_mem hlisted
    rw [hverified, Option.getD_some] at hfind
    exact Table.mem_rows_iff.mpr hfind
  · intro hmoves
    constructor
    · intro c hc c' hverified hlisted
      obtain ⟨hjudged, status, hstatus, rfl⟩ := verifyCandidate_eq_some.mp hverified
      exact hmoves c (Table.mem_rows_iff.mpr (find?_of_mem_verifyListing hc)) hjudged
        ⟨status, hstatus, Verifying.status_of_mem_listing hlisted⟩
    · intro c hc hnew hlisted
      have hstatus := Verifying.status_of_mem_listing hlisted
      exact absurd ((mem_verifyListing_iff h).mpr ⟨hc, hstatus⟩) hnew

/-- Two cycles do what one does if and only if nothing is left to the second; where the queries
list all candidates, if and only if no kept candidate moves twice. -/
theorem verify_twice_iff (first second : Verifying) (db : SkillsDb) :
    (VerifiedOnce first second db ↔ NothingLeft first second db) ∧
      (ListedWhole db → (VerifiedOnce first second db ↔ MovesOnce db)) :=
  ⟨verifiedOnce_iff_nothingLeft, fun h =>
    verifiedOnce_iff_nothingLeft.trans (nothingLeft_iff_movesOnce h)⟩

/-! ### A skill that always succeeds -/

/-- A generated skill of confidence one half that has succeeded in five of five executions. -/
def alwaysSuccessful : SkillsDb where
  actions := []
  candidates := Table.empty.put
    { id := "skill-1", name := "restart-service", description := "", tools := [],
      sessionCount := 3, confidence := 1 / 2, sourcePatterns := [], status := .generated,
      skillPath := none, createdAt := noon, updatedAt := noon }
  executions := List.replicate 5 ⟨"restart-service", "success"⟩

def verifyingAtNoon : Verifying := ⟨noon, .stable candidateKey, .stable candidateKey⟩

/-- Its confidence is seven tenths after the first cycle, and more after the second. -/
theorem alwaysSuccessful_moves_twice :
    ¬ VerifiedOnce verifyingAtNoon verifyingAtNoon alwaysSuccessful := by
  intro honce
  have hid := congrArg (Option.map Prod.snd) (congrFun honce "skill-1")
  revert hid
  decide +kernel

/-- The queries list the one skill there is. -/
theorem alwaysSuccessful_twice_iff :
    ListedWhole alwaysSuccessful ∧
      (VerifiedOnce verifyingAtNoon verifyingAtNoon alwaysSuccessful ↔
        MovesOnce alwaysSuccessful) :=
  have h : ListedWhole alwaysSuccessful := by
    unfold ListedWhole
    decide +kernel
  ⟨h, (verify_twice_iff verifyingAtNoon verifyingAtNoon alwaysSuccessful).2 h⟩

end OsModa.Teachd
