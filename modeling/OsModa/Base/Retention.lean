import Mathlib.Order.Lattice
import Mathlib.Data.List.Basic
import Mathlib.Data.List.Count

/-!
Keeping the greatest of a list of keys.

What goes is taken from the front of the sorted list. Whether a key stays is decided by the number
of keys above it (`mem_oldest_iff`), which does not need the sorted list, and as many stay as are
to stay (`length_kept`).
-/

namespace OsModa.Retention

universe u

variable {κ : Type u} [LinearOrder κ] {keys : List κ} {keep : Nat} {k : κ}

/-- The keys that go when only the `keep` greatest stay. -/
def oldest (keep : Nat) (keys : List κ) : List κ :=
  (keys.mergeSort fun a b => a ≤ b).take (keys.length - keep)

/-- The keys that stay. -/
def newest (keep : Nat) (keys : List κ) : List κ :=
  (keys.mergeSort fun a b => a ≤ b).drop (keys.length - keep)

theorem oldest_append_newest (keep : Nat) (keys : List κ) :
    (oldest keep keys ++ newest keep keys).Perm keys := by
  rw [oldest, newest, List.take_append_drop]
  exact List.mergeSort_perm _ _

/-- Every key that goes is below every key that stays. -/
theorem lt_of_mem (hnodup : keys.Nodup) {old new : κ} (hold : old ∈ oldest keep keys)
    (hnew : new ∈ newest keep keys) : old < new := by
  have hsorted : (keys.mergeSort fun a b => a ≤ b).Pairwise (· ≤ ·) := by
    refine (List.pairwise_mergeSort ?_ ?_ keys).imp of_decide_eq_true
    · exact fun a b c hab hbc => decide_eq_true
        ((of_decide_eq_true hab).trans (of_decide_eq_true hbc))
    · exact fun a b => by simpa using le_total a b
  rw [← List.take_append_drop (keys.length - keep) (keys.mergeSort _)] at hsorted
  have hperm := (oldest_append_newest keep keys).nodup_iff.mpr hnodup
  refine lt_of_le_of_ne ((List.pairwise_append.mp hsorted).2.2 old hold new hnew) ?_
  exact (List.nodup_append.mp hperm).2.2 old hold new hnew

theorem length_newest (keep : Nat) (keys : List κ) :
    (newest keep keys).length = min keep keys.length := by
  rw [newest, List.length_drop, List.length_mergeSort]
  omega

/-- A key goes exactly when enough keys are above it. -/
theorem mem_oldest_iff (hnodup : keys.Nodup) :
    k ∈ oldest keep keys ↔ k ∈ keys ∧ keep ≤ keys.countP (fun k' => decide (k < k')) := by
  have hperm := oldest_append_newest keep keys
  have hcount : ∀ p : κ → Bool, keys.countP p =
      (oldest keep keys).countP p + (newest keep keys).countP p := fun p => by
    rw [← hperm.countP_eq p, List.countP_append]
  constructor
  · intro hold
    refine ⟨hperm.subset (List.mem_append_left _ hold), ?_⟩
    have habove : (newest keep keys).countP (fun k' => decide (k < k')) =
        (newest keep keys).length :=
      List.countP_eq_length.mpr fun k' hk' => decide_eq_true (lt_of_mem hnodup hold hk')
    have hpos : keys.length - keep ≠ 0 := by
      intro hzero
      rw [oldest, hzero, List.take_zero] at hold
      cases hold
    rw [hcount, habove, length_newest]
    omega
  · rintro ⟨hmem, habove⟩
    obtain hold | hnew := List.mem_append.mp (hperm.mem_iff.mpr hmem)
    · exact hold
    · -- Only keys that stay are above a key that stays, and it is not above itself.
      have hnone : (oldest keep keys).countP (fun k' => decide (k < k')) = 0 :=
        List.countP_eq_zero.mpr fun k' hk' hlt =>
          lt_asymm (lt_of_mem hnodup hk' hnew) (of_decide_eq_true hlt)
      have hless : (newest keep keys).countP (fun k' => decide (k < k')) <
          (newest keep keys).length := by
        refine Nat.lt_of_le_of_ne List.countP_le_length fun hall => ?_
        exact lt_irrefl k (of_decide_eq_true (List.countP_eq_length.mp hall k hnew))
      rw [hcount, hnone, Nat.zero_add] at habove
      rw [length_newest] at hless
      omega

/-- As many stay as are to stay. -/
theorem length_kept (hnodup : keys.Nodup) :
    (keys.filter fun k => decide (k ∉ oldest keep keys)).length = min keep keys.length := by
  have hperm := oldest_append_newest keep keys
  have hall := (hperm.nodup_iff.mpr hnodup)
  rw [← (hperm.filter _).length_eq, List.filter_append, List.filter_eq_nil_iff.mpr (by simp),
    List.nil_append, List.filter_eq_self.mpr, length_newest]
  exact fun k hnew => decide_eq_true fun hold => (List.nodup_append.mp hall).2.2 k hold k hnew rfl

end OsModa.Retention
