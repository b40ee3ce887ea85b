/-!
Texts that are shown one after the other by one counter: of each, what is beyond the longest text
before it.

What is shown of growing forms of one text is that text (`take_append_deltas`). Of several texts it
is as long as the longest, so it is all of them together only if all but one are empty
(`length_flatten_eq_longest_iff`).
-/

namespace OsModa.Growing

variable {α : Type}

/-- What is shown of some texts, after as many units. -/
def deltas (shown : Nat) : List (List α) → List α
  | [] => []
  | t :: ts => if shown < t.length then t.drop shown ++ deltas t.length ts else deltas shown ts

/-- Length of the longest text. -/
def longest : List (List α) → Nat
  | [] => 0
  | t :: ts => max t.length (longest ts)

/-- At most one of the texts is not empty. -/
def AtMostOne (ts : List (List α)) : Prop := (ts.filter fun t => !t.isEmpty).length ≤ 1

instance (ts : List (List α)) : Decidable (AtMostOne ts) := inferInstanceAs (Decidable (_ ≤ 1))

variable {shown : Nat} {text t : List α} {ts ts' : List (List α)}

theorem length_le_longest (h : t ∈ ts) : t.length ≤ longest ts := by
  induction ts with
  | nil => cases h
  | cons t' ts ih =>
    rw [longest]
    rcases List.mem_cons.mp h with rfl | hmem
    · exact Nat.le_max_left _ _
    · exact Nat.le_trans (ih hmem) (Nat.le_max_right _ _)

theorem longest_le {n : Nat} (h : ∀ t ∈ ts, t.length ≤ n) : longest ts ≤ n := by
  induction ts with
  | nil => exact Nat.zero_le n
  | cons t ts ih =>
    rw [List.forall_mem_cons] at h
    exact Nat.max_le.mpr ⟨h.1, ih h.2⟩

theorem longest_append : longest (ts ++ ts') = max (longest ts) (longest ts') := by
  induction ts with
  | nil => exact (Nat.zero_max _).symm
  | cons t ts ih => rw [List.cons_append, longest, ih, longest, Nat.max_assoc]

theorem deltas_append : deltas shown (ts ++ ts') =
    deltas shown ts ++ deltas (max shown (longest ts)) ts' := by
  induction ts generalizing shown with
  | nil => rw [List.nil_append, longest, Nat.max_zero, deltas, List.nil_append]
  | cons t ts ih =>
    rw [List.cons_append, deltas, deltas, longest]
    split
    · rename_i hmore
      have hmax : max shown (max t.length (longest ts)) = max t.length (longest ts) := by omega
      rw [hmax, ih, List.append_assoc]
    · rename_i hless
      have hmax : max shown (max t.length (longest ts)) = max shown (longest ts) := by omega
      rw [hmax, ih]

/-- What was shown is as long as the longest text. -/
theorem length_deltas (shown : Nat) (ts : List (List α)) :
    shown + (deltas shown ts).length = max shown (longest ts) := by
  induction ts generalizing shown with
  | nil => exact (Nat.max_zero _).symm
  | cons t ts ih =>
    rw [deltas, longest]
    split
    · rw [List.length_append, List.length_drop]
      have hrest := ih t.length
      omega
    · have hrest := ih shown
      omega

/-- Of the beginnings of one text, all that there is of it is shown. -/
theorem take_append_deltas (h : ∀ t ∈ ts, t <+: text) :
    text.take shown ++ deltas shown ts = text.take (max shown (longest ts)) := by
  induction ts generalizing shown with
  | nil => rw [deltas, longest, Nat.max_zero, List.append_nil]
  | cons t ts ih =>
    obtain ⟨⟨rest, rfl⟩, hts⟩ := List.forall_mem_cons.mp h
    rw [deltas, longest]
    split
    · rename_i hmore
      have htake : (t ++ rest).take shown ++ t.drop shown = (t ++ rest).take t.length := by
        rw [List.take_append_of_le_length (Nat.le_of_lt hmore), List.take_append_drop, List.take_left]
      have hmax : max shown (max t.length (longest ts)) = max t.length (longest ts) := by omega
      rw [← List.append_assoc, htake, ih hts, hmax]
    · have hmax : max shown (max t.length (longest ts)) = max shown (longest ts) := by omega
      rw [ih hts, hmax]

theorem longest_le_length_flatten (ts : List (List α)) : longest ts ≤ ts.flatten.length := by
  refine longest_le fun t ht => ?_
  obtain ⟨before, after, rfl⟩ := List.append_of_mem ht
  rw [List.flatten_append, List.flatten_cons, List.length_append, List.length_append]
  omega

theorem atMostOne_cons : AtMostOne (t :: ts) ↔
    t = [] ∧ AtMostOne ts ∨ ts.flatten = [] := by
  unfold AtMostOne
  rw [List.flatten_eq_nil_iff]
  cases t with
  | nil =>
    rw [List.filter_cons_of_neg (by simp)]
    refine ⟨fun h => .inl ⟨rfl, h⟩, ?_⟩
    rintro (⟨-, h⟩ | h)
    · exact h
    · rw [List.filter_eq_nil_iff.mpr fun t ht => by simp [h t ht]]
      exact Nat.zero_le 1
  | cons a t =>
    rw [List.filter_cons_of_pos (by simp), List.length_cons]
    constructor
    · intro h
      have hnone : ts.filter (fun t => !t.isEmpty) = [] := List.eq_nil_of_length_eq_zero (by omega)
      refine .inr fun t ht => ?_
      simpa using List.filter_eq_nil_iff.mp hnone t ht
    · rintro (⟨h, -⟩ | h)
      · cases h
      · rw [List.filter_eq_nil_iff.mpr fun t ht => by simp [h t ht]]
        exact Nat.le_refl 1

/-- All texts together are as long as the longest only if they are one text. -/
theorem length_flatten_eq_longest_iff : ts.flatten.length = longest ts ↔ AtMostOne ts := by
  induction ts with
  | nil => exact iff_of_true rfl (Nat.zero_le 1)
  | cons t ts ih =>
    have hle := longest_le_length_flatten ts
    rw [atMostOne_cons, ← ih, List.flatten_cons, List.length_append, longest,
      ← List.length_eq_zero_iff, ← List.length_eq_zero_iff]
    omega

/-- Of texts of which at most one is not empty, all are the beginning of what they are together. -/
theorem AtMostOne.prefix_flatten (h : AtMostOne ts) (ht : t ∈ ts) : t <+: ts.flatten := by
  induction ts with
  | nil => cases ht
  | cons t' ts ih =>
    rw [List.flatten_cons]
    rcases atMostOne_cons.mp h with ⟨rfl, hts⟩ | hnone
    · rcases List.mem_cons.mp ht with rfl | hmem
      · exact List.nil_prefix
      · exact ih hts hmem
    · rw [hnone, List.append_nil]
      rcases List.mem_cons.mp ht with rfl | hmem
      · exact List.prefix_rfl
      · rw [List.flatten_eq_nil_iff.mp hnone t hmem]
        exact List.nil_prefix

/-- Growing forms of some texts show these texts only if they are one text. -/
theorem deltas_eq_flatten_iff {final : List (List α)} (hgrown : ∀ t ∈ ts, ∃ t' ∈ final, t <+: t')
    (hfinal : longest final ≤ longest ts) : deltas 0 ts = final.flatten ↔ AtMostOne final := by
  have hlongest : longest ts = longest final := by
    refine Nat.le_antisymm (longest_le fun t ht => ?_) hfinal
    obtain ⟨t', ht', hprefix⟩ := hgrown t ht
    exact Nat.le_trans hprefix.length_le (length_le_longest ht')
  have hlength := length_deltas 0 ts
  rw [Nat.zero_add, Nat.zero_max, hlongest] at hlength
  constructor
  · intro hall
    rw [← length_flatten_eq_longest_iff, ← hall, hlength]
  · intro hone
    have hprefix : ∀ t ∈ ts, t <+: final.flatten := by
      intro t ht
      obtain ⟨t', ht', hgrow⟩ := hgrown t ht
      exact hgrow.trans (hone.prefix_flatten ht')
    have htake : final.flatten.take 0 ++ deltas 0 ts = _ := take_append_deltas hprefix
    rw [List.take_zero, List.nil_append, Nat.zero_max, hlongest,
      ← length_flatten_eq_longest_iff.mpr hone, List.take_length] at htake
    exact htake

end OsModa.Growing
