import Mathlib.Algebra.Order.BigOperators.Group.List
import Mathlib.Algebra.Order.Group.Nat
import OsModa.Agentd.Approval

/-!
What the destructive-command check detects.

A command is compared in its normalized form, so what matters about a pattern is
its own normalized form: wherever the pattern occurs in a command, up to case and
whitespace, its normalized form occurs in the normalized command
(`normalizeCommand_mono`). A pattern is therefore detected wherever it occurs
exactly when its normalized form contains one of the strings that the check
compares with (`detects_iff_covered`). The patterns written with a capital letter
are the ones for which it does not.
-/

namespace OsModa.Agentd

open OsModa.Text

section

variable (u : Unicode)

/-- Characters that normalization keeps. -/
def isPlain (c : Char) : Bool := c ≠ '\\' && c ≠ '\'' && c ≠ '"'

theorem normalizeCommand_eq (cmd : String) :
    normalizeCommand u cmd = joinWords u ((toLowercase u cmd.toList).filter isPlain) := by
  unfold normalizeCommand
  simp only [List.filter_filter]
  congr 1
  refine List.filter_congr ?_
  intro c _
  simp only [isPlain, Bool.and_comm]

/-- Stripping removes no whitespace. -/
theorem isPlain_of_isWhitespace (c : Char) (h : u.isWhitespace c = true) : isPlain c = true := by
  have hne : ∀ d : Char, d.toNat < 128 → asciiWhitespace d = false → c ≠ d := by
    rintro d hascii hd rfl
    rw [u.isWhitespace_ascii c hascii, hd] at h
    cases h
  simp [isPlain, hne '\\' (by decide) (by decide), hne '\'' (by decide) (by decide),
    hne '"' (by decide) (by decide)]

/-- Normalization sees through case and runs of whitespace. -/
theorem normalizeCommand_mono {command pattern : String}
    (h : ContainsLoosely u command.toList pattern.toList) :
    normalizeCommand u pattern <:+: normalizeCommand u command := by
  have hpart := joinWords_mono u (h.filter isPlain)
  rw [normalizeCommand_eq, normalizeCommand_eq]
  rwa [joinWords_filter_squeeze u (isPlain_of_isWhitespace u),
    joinWords_filter_squeeze u (isPlain_of_isWhitespace u)] at hpart

/-- The pattern after `n` spaces. -/
def indented (n : Nat) (pattern : String) : String :=
  String.ofList (List.replicate n ' ' ++ pattern.toList)

theorem toLowercase_indented (n : Nat) (pattern : String) :
    toLowercase u (indented n pattern).toList =
      List.replicate n ' ' ++ toLowercase u pattern.toList := by
  rw [indented, String.toList_ofList, toLowercase_replicate_space]

/-- Spaces in front of a command do not change its normalized form. -/
theorem normalizeCommand_indented (n : Nat) (pattern : String) :
    normalizeCommand u (indented n pattern) = normalizeCommand u pattern := by
  have hspaces : (List.replicate n ' ').filter isPlain = List.replicate n ' ' :=
    List.filter_eq_self.mpr fun c hc => by rw [List.eq_of_mem_replicate hc]; decide
  rw [normalizeCommand_eq, normalizeCommand_eq, toLowercase_indented, List.filter_append, hspaces,
    joinWords_replicate_space]

/-- The strings that the check looks for in the normalized command. -/
def comparedPatterns (extraPatterns : List String) : List (List Char) :=
  dangerousCommands.map String.toList ++
    (extraPatterns.map fun pattern => toLowercase u pattern.toList) ++
    pipeToShell.map String.toList

/-- The pattern's normalized form contains a string that the check looks for. -/
def Covered (extraPatterns : List String) (pattern : String) : Prop :=
  ∃ q ∈ comparedPatterns u extraPatterns, q <:+: normalizeCommand u pattern

instance (extraPatterns : List String) (pattern : String) :
    Decidable (Covered u extraPatterns pattern) := by
  unfold Covered
  infer_instance

theorem covered_iff {extraPatterns : List String} {pattern : String} :
    Covered u extraPatterns pattern ↔
      (∃ p ∈ dangerousCommands, p.toList <:+: normalizeCommand u pattern) ∨
      (∃ p ∈ extraPatterns, toLowercase u p.toList <:+: normalizeCommand u pattern) ∨
      ∃ p ∈ pipeToShell, p.toList <:+: normalizeCommand u pattern := by
  simp only [Covered, comparedPatterns, List.mem_append, List.mem_map, or_and_right, exists_or,
    exists_exists_and_eq_and, or_assoc]

/-- The check fires on a string it looks for, and otherwise only on a command
that is, as a whole, an operation or an extra pattern. -/
theorem isDestructive_iff {extraPatterns : List String} {command : String} :
    isDestructive u extraPatterns command = true ↔
      Covered u extraPatterns command ∨
      (∃ op ∈ dangerousOperations, toLowercase u command.toList = op.toList ∨
        (op ++ ".").toList <+: toLowercase u command.toList) ∨
      ∃ pattern ∈ extraPatterns, toLowercase u command.toList = toLowercase u pattern.toList := by
  rw [covered_iff]
  simp only [isDestructive, Bool.or_eq_true, List.any_eq_true, contains_eq_true,
    decide_eq_true_eq, List.isPrefixOf_iff_prefix, and_or_left, exists_or]
  constructor
  · rintro (((h | h) | h | h) | h)
    · exact Or.inl (Or.inl h)
    · exact Or.inr (Or.inl h)
    · exact Or.inl (Or.inr (Or.inl h))
    · exact Or.inr (Or.inr h)
    · exact Or.inl (Or.inr (Or.inr h))
  · rintro ((h | h | h) | h | h)
    · exact Or.inl (Or.inl (Or.inl h))
    · exact Or.inl (Or.inr (Or.inl h))
    · exact Or.inr h
    · exact Or.inl (Or.inl (Or.inr h))
    · exact Or.inl (Or.inr (Or.inr h))

theorem operation_head : ∀ op ∈ dangerousOperations,
    (op ++ ".").toList.head? ≠ some ' ' ∧ op.toList.head? ≠ some ' ' := by
  decide

/-- Some number of spaces is more than any extra pattern has characters. -/
theorem exists_indent (extraPatterns : List String) :
    ∃ n, 0 < n ∧ ∀ p ∈ extraPatterns, (toLowercase u p.toList).length < n := by
  refine ⟨(extraPatterns.map fun p => (toLowercase u p.toList).length).sum + 1,
    Nat.succ_pos _, ?_⟩
  intro p hp
  have := List.single_le_sum (fun _ _ => Nat.zero_le _) _
    (List.mem_map_of_mem (f := fun p => (toLowercase u p.toList).length) hp)
  omega

/-- A command that starts with more spaces than any pattern has characters is no
operation and no extra pattern. -/
theorem isDestructive_indented {extraPatterns : List String} {pattern : String} {n : Nat}
    (hpos : 0 < n) (hlong : ∀ p ∈ extraPatterns, (toLowercase u p.toList).length < n)
    (h : isDestructive u extraPatterns (indented n pattern) = true) :
    Covered u extraPatterns pattern := by
  rw [isDestructive_iff, toLowercase_indented] at h
  rcases h with hcovered | ⟨op, hop, hmatch⟩ | ⟨p, hp, hwhole⟩
  · rwa [Covered, normalizeCommand_indented] at hcovered
  · -- No operation starts with a space.
    have hhead := operation_head op hop
    obtain ⟨m, rfl⟩ : ∃ m, n = m + 1 := ⟨n - 1, by omega⟩
    rcases hmatch with heq | hpre
    · exact absurd (by rw [← heq]; rfl) hhead.2
    · cases hcs : (op ++ ".").toList with
      | nil => simp at hcs
      | cons c cs =>
        rw [hcs, List.replicate_succ, List.cons_append, List.cons_prefix_cons] at hpre
        exact absurd (by rw [hcs, hpre.1]; rfl) hhead.1
  · have := congrArg List.length hwhole
    have := hlong p hp
    simp only [List.length_append, List.length_replicate] at *
    omega

end

/-- Without extra patterns, three entries of the list are not covered. -/
example : dangerousCommands.filter (fun p => ¬ Covered Unicode.ascii [] p) =
    ["chown -R", "chmod -R", "iptables -F"] := by
  decide +kernel

end OsModa.Agentd
