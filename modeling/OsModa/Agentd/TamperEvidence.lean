import OsModa.Agentd.Ledger

/-!
What the last hash of a ledger says about its rows, with SHA-256 idealized to an
injective function.

The hashed text joins six fields with `|`. The first and the last field never
contain the delimiter, so the payload may contain it freely; a timestamp, type or
actor with a `|` can trade characters with its neighbour. Two verified tables of
one length with the same last hash are therefore equal exactly when their rows have
these delimiters at the same places (`tables_eq_iff_samePipes`).
-/

namespace OsModa.Agentd

open OsModa.Encoding

/-- Number of delimiters in a field. -/
def pipes (field : String) : Nat := field.toList.count '|'

/-- The timestamps, the types and the actors have equally many delimiters. -/
def SamePipes (e e' : Event) : Prop :=
  pipes e.ts = pipes e'.ts ∧ pipes e.eventType = pipes e'.eventType ∧ pipes e.actor = pipes e'.actor

theorem count_pipe_decimalInt (id : Int) : (decimalInt id).count '|' = 0 := by
  refine List.count_eq_zero_of_not_mem ?_
  intro h
  rcases mem_decimalInt h with hdigit | hsign
  · revert hdigit
    decide
  · revert hsign
    decide

section

variable (sha256 : List UInt8 → List UInt8)

theorem pipes_computeHash (e : Event) : pipes ((chain sha256).compute e) = 0 := by
  refine List.count_eq_zero_of_not_mem ?_
  intro h
  have halnum : ('|' : Char).isAlphanum = true :=
    isAlphanum_of_mem_hexEncode (by simpa [chain, computeHash] using h)
  revert halnum
  decide

/-- Every row of a valid chain follows a hash without delimiters. -/
theorem pipes_prevHash {start : String} {rows : List Event}
    (hvalid : HashChain.Valid (chain sha256) start rows) (hstart : pipes start = 0) :
    ∀ e ∈ rows, pipes e.prevHash = 0 := by
  induction rows generalizing start with
  | nil => simp
  | cons r rows ih =>
    obtain ⟨hprev, hdigest, hrest⟩ := hvalid
    intro e he
    rcases List.mem_cons.mp he with rfl | he
    · exact (congrArg pipes hprev).trans hstart
    · exact ih hrest (hdigest ▸ pipes_computeHash sha256 r) e he

/-- The hashed text determines the fields as soon as the delimiters of all but the
payload are accounted for. -/
theorem hashInput_inj {e e' : Event} (hpipes : SamePipes e e') (hprev : pipes e.prevHash = 0)
    (hprev' : pipes e'.prevHash = 0)
    (h : hashInput e.id e.ts e.eventType e.actor e.payload e.prevHash =
      hashInput e'.id e'.ts e'.eventType e'.actor e'.payload e'.prevHash) :
    e.id = e'.id ∧ e.ts = e'.ts ∧ e.eventType = e'.eventType ∧ e.actor = e'.actor ∧
      e.payload = e'.payload ∧ e.prevHash = e'.prevHash := by
  obtain ⟨hts, htype, hactor⟩ := hpipes
  unfold hashInput at h
  obtain ⟨h1, h⟩ := append_sep_inj
    ((count_pipe_decimalInt e.id).trans (count_pipe_decimalInt e'.id).symm) h
  obtain ⟨h2, h⟩ := append_sep_inj hts h
  obtain ⟨h3, h⟩ := append_sep_inj htype h
  obtain ⟨h4, h⟩ := append_sep_inj hactor h
  obtain ⟨h5, h6⟩ := append_sep_inj_right (hprev.trans hprev'.symm) h
  exact ⟨decimalInt_injective h1, String.toList_inj.mp h2, String.toList_inj.mp h3,
    String.toList_inj.mp h4, String.toList_inj.mp h5, String.toList_inj.mp h6⟩

/-- **Tamper evidence.** Two verified tables with as many rows and the same last
hash are equal, in every field, exactly when their rows agree on the number of
delimiters in each timestamp, type and actor. -/
theorem tables_eq_iff_samePipes (hinj : Function.Injective sha256) {t t' : Events}
    (hlen : t.rows.length = t'.rows.length) (hv : verify sha256 t = true)
    (hv' : verify sha256 t' = true)
    (hlast : t.rows.getLast?.map (·.hash) = t'.rows.getLast?.map (·.hash)) :
    t = t' ↔ List.Forall₂ SamePipes t.rows t'.rows := by
  have hvalid := (verify_iff sha256).mp hv
  have hvalid' := (verify_iff sha256).mp hv'
  have hgenesis : pipes genesisPrevHash = 0 := by decide
  constructor
  · rintro rfl
    exact List.forall₂_same.mpr fun e _ => ⟨rfl, rfl, rfl⟩
  · intro hpipes
    refine Events.ext (HashChain.eq_of_lastDigest_eq ?_ hvalid hvalid' ?_ hpipes)
    · intro e he e' he' hsame hcompute hdigest
      have hhex := congrArg String.toList hcompute
      simp only [chain, computeHash, String.toList_ofList] at hhex
      have hinput := utf8_injective (hinj (hexEncode_injective hhex))
      obtain ⟨h1, h2, h3, h4, h5, h6⟩ := hashInput_inj hsame
        (pipes_prevHash sha256 hvalid hgenesis e he)
        (pipes_prevHash sha256 hvalid' hgenesis e' he') hinput
      cases e
      cases e'
      simp only [chain] at hdigest
      simp_all
    · exact congrArg (Option.getD · genesisPrevHash) hlast

end

/-! ### A shifted boundary -/

/-- SHA-256 on the one text that the rows below hash, and no digest elsewhere. -/
def sha256OfShifted : List UInt8 → List UInt8 :=
  knownDigests [(utf8 (hashInput 1 "t" "a" "b|c" "p" genesisPrevHash),
    [0x74, 0xc2, 0x15, 0x0f, 0x1d, 0x78, 0x94, 0x3b, 0xdb, 0x4b, 0xe4, 0xac, 0xc1, 0xa4, 0x1b,
     0xac, 0xbd, 0xff, 0x19, 0x06, 0x6e, 0xc1, 0x4a, 0xd5, 0xa2, 0x82, 0xf8, 0x5f, 0xed, 0x29,
     0x48, 0x62])]

theorem knownDigests_singleton (input digest x : List UInt8) :
    knownDigests [(input, digest)] x =
      if x = input then digest else List.replicate 33 0 ++ x := by
  unfold knownDigests
  by_cases hx : x = input
  · rw [if_pos hx, hx, List.lookup_cons_self, Option.getD_some]
  · rw [if_neg hx, List.lookup_cons, beq_eq_false_iff_ne.mpr hx]
    rfl

theorem knownDigests_injective {input digest : List UInt8} (hlen : digest.length = 32) :
    Function.Injective (knownDigests [(input, digest)]) := by
  have hlong : ∀ x : List UInt8, digest ≠ List.replicate 33 0 ++ x := by
    intro x h
    have hsize := congrArg List.length h
    rw [hlen, List.length_append, List.length_replicate] at hsize
    omega
  intro x y h
  rw [knownDigests_singleton, knownDigests_singleton] at h
  split_ifs at h with hx hy hy
  · exact hx.trans hy.symm
  · exact absurd h (hlong y)
  · exact absurd h.symm (hlong x)
  · exact List.append_cancel_left h

/-- The first row of a ledger whose type and actor join to `a|b|c`. -/
def shiftedRow (eventType actor : String) : Events where
  rows := [⟨1, "t", eventType, actor, "p", genesisPrevHash,
    "74c2150f1d78943bdb4be4acc1a41bacbdff19066ec14ad5a282f85fed294862"⟩]
  sorted := List.pairwise_singleton _ _

theorem verify_shiftedRow_type : verify sha256OfShifted (shiftedRow "a|b" "c") = true := by
  decide +kernel

theorem verify_shiftedRow_actor : verify sha256OfShifted (shiftedRow "a" "b|c") = true := by
  decide +kernel

theorem shiftedRow_ne : shiftedRow "a|b" "c" ≠ shiftedRow "a" "b|c" := by
  intro h
  have : (shiftedRow "a|b" "c").rows = (shiftedRow "a" "b|c").rows := congrArg Events.rows h
  revert this
  decide

/-- The type `a|b` with the actor `c` and the type `a` with the actor `b|c` have the
same hash. -/
theorem shiftedRow_collides :
    Function.Injective sha256OfShifted ∧
      (shiftedRow "a|b" "c").rows.length = (shiftedRow "a" "b|c").rows.length ∧
      verify sha256OfShifted (shiftedRow "a|b" "c") = true ∧
      verify sha256OfShifted (shiftedRow "a" "b|c") = true ∧
      (shiftedRow "a|b" "c").rows.getLast?.map (·.hash) =
        (shiftedRow "a" "b|c").rows.getLast?.map (·.hash) ∧
      shiftedRow "a|b" "c" ≠ shiftedRow "a" "b|c" :=
  ⟨knownDigests_injective rfl, rfl, verify_shiftedRow_type, verify_shiftedRow_actor, rfl,
    shiftedRow_ne⟩

/-- The two rows do not have their delimiters at the same places. -/
theorem shiftedRow_not_samePipes :
    ¬ List.Forall₂ SamePipes (shiftedRow "a|b" "c").rows (shiftedRow "a" "b|c").rows := by
  intro h
  have hlen : (shiftedRow "a|b" "c").rows.length = (shiftedRow "a" "b|c").rows.length := rfl
  exact shiftedRow_ne ((tables_eq_iff_samePipes sha256OfShifted (knownDigests_injective rfl) hlen
    verify_shiftedRow_type verify_shiftedRow_actor rfl).mpr h)

end OsModa.Agentd
