import Mathlib.Algebra.BigOperators.Group.List.Basic
import Mathlib.Algebra.GroupWithZero.Nat
import OsModa.Base.Query

/-!
The best rows that fit in a budget.

Rows are ranked by a key, and those of one key stay in their order. They are taken from the
front until the next one would exceed the budget; the first is taken in any case. What is taken
is thus the longest initial part of the ranking within the budget (`shortlisted_takeWithin`), and
closed upwards: with a row it has all that are ranked before it (`mem_of_mem_initial`).
-/

namespace OsModa

universe u v

variable {ρ : Type u} {κ : Type v} [LinearOrder κ]

/-! ### Ranking -/

namespace OrderBy

variable {key : ρ → κ} {rows chosen : List ρ} {a b : ρ}

/-- Of two rows of which the first has no larger key and comes first, it is also ranked first. -/
theorem pair_sublist_stable (hkey : key a ≤ key b) (h : [a, b].Sublist rows) :
    [a, b].Sublist ((stable key).arrange rows) :=
  List.pair_sublist_insertionSort hkey h

/-- An initial part of a ranking has all rows that go before one of its own. -/
theorem mem_of_mem_initial (hnodup : rows.Nodup) (hchosen : chosen <+: (stable key).arrange rows)
    (ha : a ∈ rows) (hb : b ∈ chosen)
    (hbefore : key a < key b ∨ key a = key b ∧ [a, b].Sublist rows) : a ∈ chosen := by
  obtain ⟨rest, hrest⟩ := hchosen
  have hnodup' : (chosen ++ rest).Nodup := hrest ▸ ((stable key).perm rows).nodup_iff.mpr hnodup
  have hsorted := (stable key).sorted rows
  have hmem : a ∈ chosen ++ rest := hrest ▸ (stable key).mem_arrange.mpr ha
  rw [← hrest] at hsorted
  refine (List.mem_append.mp hmem).resolve_right fun hlate => ?_
  rcases hbefore with hless | ⟨hsame, hpair⟩
  · exact absurd ((List.pairwise_append.mp hsorted).2.2 b hb a hlate) (not_le.mpr hless)
  · have hranked := hrest ▸ pair_sublist_stable hsame.le hpair
    obtain ⟨first, second, hsplit, hfirst, hsecond⟩ := List.sublist_append_iff.mp hranked
    have hapart := List.disjoint_of_nodup_append hnodup'
    cases first with
    | nil =>
      obtain rfl : second = [a, b] := hsplit.symm
      exact hapart hb (hsecond.subset (List.mem_cons_of_mem _ List.mem_cons_self))
    | cons x first =>
      obtain ⟨rfl, -⟩ := List.cons.inj hsplit
      exact hapart (hfirst.subset List.mem_cons_self) hlate

end OrderBy

/-! ### Taking within a budget -/

section Within

variable (cost : ρ → Nat) (limit : Nat)

def totalCost (rows : List ρ) : Nat := (rows.map cost).sum

/-- Take rows while they stay within the limit; the first is taken in any case. -/
def takeWithin (spent : Nat) (taken : List ρ) : List ρ → Nat × List ρ
  | [] => (spent, taken)
  | r :: rows =>
    if limit < spent + cost r ∧ taken ≠ [] then (spent, taken)
    else takeWithin (spent + cost r) (taken ++ [r]) rows

/-- The longest initial part of a ranking within a limit, with the first row in any case. -/
structure Shortlisted (ranking chosen : List ρ) : Prop where
  initial : chosen <+: ranking
  started : ranking ≠ [] → chosen ≠ []
  fits : totalCost cost chosen ≤ limit ∨ chosen.length ≤ 1
  full : ∀ r, chosen ++ [r] <+: ranking → limit < totalCost cost (chosen ++ [r])

variable {cost limit}

theorem totalCost_concat (rows : List ρ) (r : ρ) :
    totalCost cost (rows ++ [r]) = totalCost cost rows + cost r := by
  simp [totalCost]

/-- Taking goes on from what is taken already. -/
theorem shortlisted_takeWithin_from {taken : List ρ}
    (hfits : totalCost cost taken ≤ limit ∨ taken.length ≤ 1) (rows : List ρ) :
    (takeWithin cost limit (totalCost cost taken) taken rows).1 =
        totalCost cost (takeWithin cost limit (totalCost cost taken) taken rows).2 ∧
      taken <+: (takeWithin cost limit (totalCost cost taken) taken rows).2 ∧
      Shortlisted cost limit (taken ++ rows)
        (takeWithin cost limit (totalCost cost taken) taken rows).2 := by
  induction rows generalizing taken with
  | nil =>
    rw [List.append_nil]
    refine ⟨rfl, List.prefix_rfl, List.prefix_rfl, id, hfits, fun r hr => ?_⟩
    have hlength : (taken ++ [r]).length ≤ taken.length := hr.length_le
    rw [List.length_append, List.length_singleton] at hlength
    omega
  | cons r rows ih =>
    rw [takeWithin]
    split
    · rename_i hstop
      refine ⟨rfl, List.prefix_rfl, List.prefix_append _ _, fun _ => hstop.2, hfits, fun x hx => ?_⟩
      obtain ⟨rest, hrest⟩ := hx
      rw [List.append_assoc, List.singleton_append, List.append_cancel_left_eq] at hrest
      rw [(List.cons.inj hrest).1, totalCost_concat]
      exact hstop.1
    · rename_i hgo
      have hfits' : totalCost cost (taken ++ [r]) ≤ limit ∨ (taken ++ [r]).length ≤ 1 := by
        rw [totalCost_concat]
        by_cases hempty : taken = []
        · exact .inr (by rw [hempty]; exact le_rfl)
        · exact .inl (Nat.le_of_not_lt fun hlarge => hgo ⟨hlarge, hempty⟩)
      obtain ⟨hspent, htaken, hshort⟩ := ih hfits'
      rw [totalCost_concat] at hspent htaken hshort
      rw [List.append_assoc] at hshort
      exact ⟨hspent, (List.prefix_append _ _).trans htaken, hshort⟩

theorem shortlisted_takeWithin (cost : ρ → Nat) (limit : Nat) (ranking : List ρ) :
    (takeWithin cost limit 0 [] ranking).1 =
        totalCost cost (takeWithin cost limit 0 [] ranking).2 ∧
      Shortlisted cost limit ranking (takeWithin cost limit 0 [] ranking).2 := by
  have hempty : totalCost cost ([] : List ρ) ≤ limit ∨ ([] : List ρ).length ≤ 1 :=
    .inl (Nat.zero_le limit)
  obtain ⟨hspent, -, hshort⟩ := shortlisted_takeWithin_from hempty ranking
  exact ⟨hspent, hshort⟩

end Within

end OsModa
