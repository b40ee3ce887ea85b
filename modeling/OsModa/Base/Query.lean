import Mathlib.Data.List.Sort

/-!
`SELECT ... ORDER BY`, and other orders that are only partly determined.

SQLite returns rows that the order does not tell apart in any order it likes, and a `HashMap`
its entries in any order at all. `OrderBy key` is one way to arrange rows by a key, the
smallest first; what holds for every one of them holds of the query.
-/

namespace OsModa

universe u v

variable {ρ : Type u} {κ : Type v} [LinearOrder κ]

/-- An arrangement of rows by a key; rows of one key come in any order. -/
structure OrderBy (key : ρ → κ) where
  arrange : List ρ → List ρ
  perm : ∀ rows, (arrange rows).Perm rows
  sorted : ∀ rows, (arrange rows).Pairwise fun a b => key a ≤ key b

namespace OrderBy

variable {key : ρ → κ}

/-- The arrangement that keeps the order of rows of one key. -/
def stable (key : ρ → κ) : OrderBy key where
  arrange := List.insertionSort fun a b => key a ≤ key b
  perm := List.perm_insertionSort _
  sorted rows :=
    haveI : Std.Total fun a b : ρ => key a ≤ key b := ⟨fun a b => le_total (key a) (key b)⟩
    haveI : IsTrans ρ fun a b => key a ≤ key b := ⟨fun _ _ _ => le_trans⟩
    List.pairwise_insertionSort _ rows

theorem mem_arrange (order : OrderBy key) {rows : List ρ} {r : ρ} :
    r ∈ order.arrange rows ↔ r ∈ rows :=
  (order.perm rows).mem_iff

/-- `LIMIT`: no row is listed that is not there. -/
theorem mem_of_mem_take (order : OrderBy key) {rows : List ρ} {limit : Nat} {r : ρ}
    (h : r ∈ (order.arrange rows).take limit) : r ∈ rows :=
  order.mem_arrange.mp (List.mem_of_mem_take h)

theorem nodup_take (order : OrderBy key) {α : Type*} {f : ρ → α} {rows : List ρ}
    (h : (rows.map f).Nodup) (limit : Nat) : (((order.arrange rows).take limit).map f).Nodup :=
  ((((order.perm rows).map f).nodup_iff).mpr h).sublist ((List.take_sublist _ _).map f)

end OrderBy

/-! ### Limits and filters -/

/-- A longer list has the same first rows exactly where the shorter one has enough of them. -/
theorem map_take_append_iff {α : Type*} (f : ρ → α) (rows rest : List ρ) (limit : Nat) :
    (rows.take limit).map f = ((rows ++ rest).take limit).map f ↔
      limit ≤ rows.length ∨ rest = [] := by
  constructor
  · intro h
    have hlength := congrArg List.length h
    simp only [List.length_map, List.length_take, List.length_append] at hlength
    rw [← List.length_eq_zero_iff]
    omega
  · rintro (henough | rfl)
    · rw [List.take_append_of_le_length henough]
    · rw [List.append_nil]

/-- Rows that are limited before they are filtered: nothing is lost exactly where enough of the
first rows pass the filter, or none of the later ones does. -/
theorem filter_take_iff {α : Type*} (f : ρ → α) (p : ρ → Bool) (rows : List ρ)
    (first limit : Nat) :
    (((rows.take first).filter p).take limit).map f = ((rows.filter p).take limit).map f ↔
      limit ≤ (rows.take first).countP p ∨ ∀ r ∈ rows.drop first, p r = false := by
  conv_lhs => rhs; rw [← List.take_append_drop first rows, List.filter_append]
  rw [map_take_append_iff, List.countP_eq_length_filter, List.filter_eq_nil_iff]
  simp only [Bool.not_eq_true]

end OsModa
