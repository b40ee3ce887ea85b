import Mathlib.Data.List.Infix
import OsModa.Base.Encoding

/-!
Replacing a part of a text wherever it occurs, and texts that are made of lines.

Occurrences are found from the left and do not overlap. A part without the separator lies
within a line, so the lines are replaced one by one (`replace_intercalate`), and a line that
does not have the part stays as it is (`replace_of_not_infix`). Whether a line has the part is
read off at a character that occurs in the part (`infix_append_cons`).
-/

namespace OsModa.Replace

open OsModa.Encoding

variable {α : Type} [DecidableEq α]

/-- Replace a part wherever it occurs; `skip` elements belong to an occurrence already found. -/
def replaceFrom (part new : List α) : Nat → List α → List α
  | _, [] => []
  | skip + 1, _ :: s => replaceFrom part new skip s
  | 0, c :: s =>
    if part <+: c :: s then new ++ replaceFrom part new (part.length - 1) s
    else c :: replaceFrom part new 0 s

/-- `s.replace(part, new)` of a part that is not empty. -/
def replace (part new s : List α) : List α := replaceFrom part new 0 s

example : replace "ab".toList "c".toList "xababyab".toList = "xccyc".toList := by decide

/-! ### Lines -/

section Lines

variable {part new : List α} {sep : α}

theorem replaceFrom_cons (c : α) (s : List α) : replaceFrom part new 0 (c :: s) =
    if part <+: c :: s then new ++ replaceFrom part new (part.length - 1) s
    else c :: replaceFrom part new 0 s := rfl

omit [DecidableEq α] in
/-- What does not have the separator and starts a text starts its first line. -/
theorem prefix_append_cons_iff (hsep : sep ∉ part) (line rest : List α) :
    part <+: line ++ sep :: rest ↔ part <+: line := by
  refine ⟨fun h => ?_, fun h => h.trans (List.prefix_append _ _)⟩
  rcases List.prefix_or_prefix_of_prefix h (List.prefix_append _ _) with hline | ⟨after, rfl⟩
  · exact hline
  · cases after with
    | nil => rw [List.append_nil]
    | cons c after =>
      have hhead : c :: after <+: sep :: rest := (List.prefix_append_right_inj line).mp h
      rw [(List.cons_prefix_cons.mp hhead).1] at hsep
      exact absurd (List.mem_append_right _ List.mem_cons_self) hsep

theorem replaceFrom_append_cons (hsep : sep ∉ part) (hpart : part ≠ []) {skip : Nat}
    {line : List α} (hskip : skip ≤ line.length) (rest : List α) :
    replaceFrom part new skip (line ++ sep :: rest) =
      replaceFrom part new skip line ++ sep :: replace part new rest := by
  induction line generalizing skip with
  | nil =>
    obtain rfl : skip = 0 := Nat.le_zero.mp hskip
    rw [List.nil_append, replaceFrom_cons, if_neg]
    · rfl
    · obtain ⟨c, part, rfl⟩ := List.exists_cons_of_ne_nil hpart
      exact fun h => hsep ((List.cons_prefix_cons.mp h).1 ▸ List.mem_cons_self)
  | cons c line ih =>
    cases skip with
    | succ skip => exact ih (Nat.le_of_succ_le_succ hskip)
    | zero =>
      rw [List.cons_append, replaceFrom_cons, replaceFrom_cons, ← List.cons_append,
        if_congr (prefix_append_cons_iff hsep (c :: line) rest) rfl rfl]
      split
      · rename_i hoccurs
        have hlength := hoccurs.length_le
        rw [List.length_cons] at hlength
        rw [ih (by omega), List.append_assoc]
      · rw [ih (Nat.zero_le _), List.cons_append]

/-- The lines of a text are replaced one by one. -/
theorem replace_intercalate (hsep : sep ∉ part) (hpart : part ≠ []) (lines : List (List α)) :
    replace part new ([sep].intercalate lines) =
      [sep].intercalate (lines.map (replace part new)) := by
  induction lines with
  | nil => rfl
  | cons line lines ih =>
    cases lines with
    | nil => simp only [List.map_cons, List.map_nil, List.intercalate_singleton]
    | cons next lines =>
      rw [List.map_cons, List.map_cons, List.intercalate_cons_cons, List.intercalate_cons_cons,
        ← List.map_cons, ← ih]
      exact (congrArg (replace part new) (List.append_assoc ..)).trans
        ((replaceFrom_append_cons hsep hpart (Nat.zero_le _) _).trans
          (List.append_assoc _ [sep] _).symm)

omit [DecidableEq α] in
/-- A text around one of its lines. -/
theorem intercalate_append_cons (above below : List (List α)) (line : List α) :
    [sep].intercalate (above ++ line :: below) =
      above.flatMap (· ++ [sep]) ++ line ++ below.flatMap (sep :: ·) := by
  induction above with
  | nil =>
    induction below generalizing line with
    | nil => simp
    | cons next below ih =>
      rw [List.nil_append, List.intercalate_cons_cons, ← List.nil_append (next :: below), ih next]
      simp
  | cons first above ih =>
    rw [List.cons_append, List.flatMap_cons]
    cases above with
    | nil => rw [List.nil_append, List.intercalate_cons_cons, ← List.nil_append (line :: below), ih]; simp
    | cons next above =>
      rw [List.cons_append, List.intercalate_cons_cons, ← List.cons_append, ih]
      simp

end Lines

/-! ### Texts without the part -/

section Absent

variable {part new s : List α}

theorem replace_of_not_infix (h : ¬ part <:+: s) : replace part new s = s := by
  unfold replace
  induction s with
  | nil => rfl
  | cons c s ih =>
    rw [replaceFrom_cons, if_neg fun hoccurs => h hoccurs.isInfix,
      ih fun hinner => h (hinner.trans (List.infix_cons_iff.mpr (.inr List.infix_rfl)))]

omit [DecidableEq α] in
theorem not_infix_of_not_mem {mark : α} (hpart : mark ∈ part) (hs : mark ∉ s) :
    ¬ part <:+: s :=
  fun h => hs (h.subset hpart)

omit [DecidableEq α] in
theorem not_mem_intercalate {c : α} {sep : List α} (hsep : c ∉ sep) {words : List (List α)}
    (h : ∀ word ∈ words, c ∉ word) : c ∉ sep.intercalate words := by
  induction words with
  | nil => exact List.not_mem_nil
  | cons word words ih =>
    obtain ⟨hword, hwords⟩ := List.forall_mem_cons.mp h
    cases words with
    | nil => rwa [List.intercalate_singleton]
    | cons next words =>
      rw [List.intercalate_cons_cons, List.mem_append, List.mem_append]
      exact not_or.mpr ⟨not_or.mpr ⟨hword, hsep⟩, ih hwords⟩

/-- A part with a mark occurs around the first mark of a text, or after it. -/
theorem infix_append_cons {front back before after : List α} {mark : α} (hfront : mark ∉ front)
    (hbefore : mark ∉ before) (h : front ++ mark :: back <:+: before ++ mark :: after) :
    front <:+ before ∨ front ++ mark :: back <:+: after := by
  obtain ⟨left, right, htext⟩ := h
  rw [List.append_assoc, List.append_assoc, List.cons_append] at htext
  rcases List.append_eq_append_iff.mp htext with ⟨mid, rfl, hmid⟩ | ⟨mid, rfl, hmid⟩
  · have hcount : front.count mark = mid.count mark :=
      (List.count_eq_zero.mpr hfront).trans
        (List.count_eq_zero.mpr fun hmem => hbefore (List.mem_append_right _ hmem)).symm
    obtain ⟨rfl, -⟩ := append_sep_inj hcount hmid
    exact .inl (List.suffix_append _ _)
  · cases mid with
    | nil =>
      cases front with
      | nil => exact .inl List.nil_suffix
      | cons c front =>
        obtain ⟨rfl, -⟩ := List.cons.inj hmid
        exact absurd List.mem_cons_self hfront
    | cons c mid =>
      obtain ⟨-, rfl⟩ := List.cons.inj hmid
      exact .inr ⟨mid, right, by simp⟩

end Absent

end OsModa.Replace
