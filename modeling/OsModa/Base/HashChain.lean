import Mathlib.Data.List.Basic
import Mathlib.Data.List.Forall2
import Mathlib.Data.List.Induction

/-!
Chains of rows in which each row records the digest of the row before it and its
own digest.

A chain is verified from its first row on (`Valid`). What it protects is read from
its last digest backwards: if the digest of a row binds the row, up to a relation
`R` between the two rows that are compared, then two chains of one length with the
same last digest that are related row by row are equal (`eq_of_lastDigest_eq`).
-/

namespace OsModa.HashChain

variable {ρ δ : Type}

/-- How to read a chain's row: the digest it follows, the one it carries, and the
one that its contents have. -/
structure Format (ρ δ : Type) where
  prev : ρ → δ
  digest : ρ → δ
  compute : ρ → δ

/-- The digest that a row appended to the chain has to follow. -/
def lastDigest (F : Format ρ δ) (start : δ) (rows : List ρ) : δ :=
  (rows.getLast?.map F.digest).getD start

/-- Every row follows the one before it and carries the digest of its contents. -/
def Valid (F : Format ρ δ) : δ → List ρ → Prop
  | _, [] => True
  | start, r :: rows => F.prev r = start ∧ F.compute r = F.digest r ∧ Valid F (F.digest r) rows

variable {F : Format ρ δ} {start : δ}

@[simp] theorem lastDigest_nil : lastDigest F start [] = start := rfl

@[simp] theorem lastDigest_concat (rows : List ρ) (r : ρ) :
    lastDigest F start (rows ++ [r]) = F.digest r := by
  simp [lastDigest]

theorem lastDigest_cons (r : ρ) (rows : List ρ) :
    lastDigest F start (r :: rows) = lastDigest F (F.digest r) rows := by
  cases rows using List.reverseRecOn with
  | nil => rfl
  | append_singleton rows s => rw [← List.cons_append, lastDigest_concat, lastDigest_concat]

/-- A row extends a valid chain exactly when it follows the last digest and
carries the digest of its contents. -/
theorem valid_concat (rows : List ρ) (r : ρ) : Valid F start (rows ++ [r]) ↔
    Valid F start rows ∧ F.prev r = lastDigest F start rows ∧ F.compute r = F.digest r := by
  induction rows generalizing start with
  | nil => simp [Valid]
  | cons s rows ih =>
    simp only [List.cons_append, Valid, lastDigest_cons, ih]
    constructor
    · rintro ⟨h1, h2, h3, h4⟩
      exact ⟨⟨h1, h2, h3⟩, h4⟩
    · rintro ⟨⟨h1, h2, h3⟩, h4⟩
      exact ⟨h1, h2, h3, h4⟩

/-- A chain that is valid in one format is valid in another that reads the same digests exactly
where the two compute the same ones. -/
theorem valid_iff_of_valid {G : Format ρ δ} {rows : List ρ} (hprev : G.prev = F.prev)
    (hdigest : G.digest = F.digest) (hvalid : Valid F start rows) :
    Valid G start rows ↔ ∀ r ∈ rows, G.compute r = F.compute r := by
  induction rows generalizing start with
  | nil => exact iff_of_true trivial fun _ h => absurd h List.not_mem_nil
  | cons r rows ih =>
    obtain ⟨hlink, hcompute, hrest⟩ := hvalid
    rw [Valid, hprev, hdigest, ih hrest, List.forall_mem_cons, hcompute]
    exact ⟨fun h => h.2, fun h => ⟨hlink, h⟩⟩

/-- **The last digest binds the chain**, as far as a digest binds its row. -/
theorem eq_of_lastDigest_eq {R : ρ → ρ → Prop} {rows rows' : List ρ}
    (binds : ∀ r ∈ rows, ∀ r' ∈ rows', R r r' → F.compute r = F.compute r' →
      F.digest r = F.digest r' → r = r')
    (hvalid : Valid F start rows) (hvalid' : Valid F start rows')
    (hlast : lastDigest F start rows = lastDigest F start rows')
    (hR : List.Forall₂ R rows rows') : rows = rows' := by
  induction rows using List.reverseRecOn generalizing rows' with
  | nil => exact (List.forall₂_nil_left_iff.mp hR).symm
  | append_singleton rows r ih =>
    -- Split the last row off the other chain too.
    cases rows' using List.reverseRecOn with
    | nil => exact absurd hR.length_eq (by simp)
    | append_singleton rows' r' =>
      have hlen : rows.length = rows'.length := by simpa using hR.length_eq
      have hinit : List.Forall₂ R rows rows' := by
        have := List.forall₂_take_append _ _ _ hR
        rwa [← hlen, List.take_left] at this
      have hend : List.Forall₂ R [r] [r'] := by
        have := List.forall₂_drop_append _ _ _ hR
        rwa [← hlen, List.drop_left] at this
      rw [lastDigest_concat, lastDigest_concat] at hlast
      obtain ⟨hv, hprev, hdigest⟩ := (valid_concat rows r).mp hvalid
      obtain ⟨hv', hprev', hdigest'⟩ := (valid_concat rows' r').mp hvalid'
      have hrow : r = r' := by
        refine binds r (by simp) r' (by simp) (by simpa using hend) ?_ hlast
        rw [hdigest, hdigest', hlast]
      subst hrow
      rw [ih (fun s hs s' hs' => binds s (List.mem_append_left _ hs) s'
        (List.mem_append_left _ hs')) hv hv' (hprev ▸ hprev') hinit]

end OsModa.HashChain
