import OsModa.Agentd.Detection

/-!
Commands that look different and are normalized to the same text.

Most of the check reads the normalized command only, so letter case, quotes,
backslashes and whitespace do not matter to it. The operations, and the extra patterns
as a whole, are compared with the command as it is written, in lower case. Two
commands of one normalized form get one verdict unless exactly one of them is such a
name and nothing else is found in them (`same_verdict_iff`).
-/

namespace OsModa.Agentd

open OsModa.Text

section

variable (u : Unicode)

/-- The command, in lower case, is an operation or an extra pattern. -/
def Named (extraPatterns : List String) (command : String) : Prop :=
  (∃ op ∈ dangerousOperations, toLowercase u command.toList = op.toList ∨
    (op ++ ".").toList <+: toLowercase u command.toList) ∨
  ∃ pattern ∈ extraPatterns, toLowercase u command.toList = toLowercase u pattern.toList

theorem isDestructive_iff_named {extraPatterns : List String} {command : String} :
    isDestructive u extraPatterns command = true ↔
      Covered u extraPatterns command ∨ Named u extraPatterns command :=
  isDestructive_iff u

theorem covered_congr {extraPatterns : List String} {command command' : String}
    (h : normalizeCommand u command = normalizeCommand u command') :
    Covered u extraPatterns command ↔ Covered u extraPatterns command' := by
  unfold Covered
  rw [h]

/-- Lowercase ASCII is lowercased to itself. -/
theorem toLowercase_eq_self {s : List Char} (h : ∀ c ∈ s, c.toNat < 128 ∧ c.toLower = c) :
    toLowercase u s = s := by
  suffices ∀ before, lowercaseFrom u before s = s from this []
  induction s with
  | nil => exact fun _ => rfl
  | cons c s ih =>
    intro before
    obtain ⟨⟨hascii, hlower⟩, hs⟩ := List.forall_mem_cons.mp h
    have hsigma : c ≠ 'Σ' := by
      rintro rfl
      revert hascii
      decide
    rw [lowercaseFrom, if_neg hsigma, u.toLower_ascii c hascii, hlower, ih hs]
    rfl

theorem toLowercase_operation {op : String} (hop : op ∈ dangerousOperations) :
    toLowercase u op.toList = op.toList := by
  have hlower : ∀ op ∈ dangerousOperations,
      (op.toList.all fun c => c.toNat < 128 && c.toLower = c) = true := by decide
  refine toLowercase_eq_self u ?_
  intro c hc
  simpa using List.all_eq_true.mp (hlower op hop) c hc

theorem normalizeCommand_congr {command command' : String}
    (h : toLowercase u command.toList = toLowercase u command'.toList) :
    normalizeCommand u command = normalizeCommand u command' := by
  unfold normalizeCommand
  rw [h]

/-- A command that starts with an operation contains its normalized form. -/
theorem infix_normalizeCommand {op command : String} (hop : op ∈ dangerousOperations)
    (h : (op ++ ".").toList <+: toLowercase u command.toList) :
    normalizeCommand u op <:+: normalizeCommand u command := by
  rw [String.toList_append] at h
  have hpart : op.toList <+: toLowercase u command.toList := (List.prefix_append _ _).trans h
  rw [normalizeCommand_eq, normalizeCommand_eq, toLowercase_operation u hop]
  exact joinWords_mono u (hpart.isInfix.filter isPlain)

/-- A named command is found in its normalized form if every name is. -/
theorem covered_of_named {extraPatterns : List String}
    (hops : ∀ op ∈ dangerousOperations, Covered u extraPatterns op)
    (hpatterns : ∀ p ∈ extraPatterns, Covered u extraPatterns p) {command : String}
    (h : Named u extraPatterns command) : Covered u extraPatterns command := by
  rcases h with ⟨op, hop, hwhole | hprefix⟩ | ⟨p, hp, hwhole⟩
  · rw [← toLowercase_operation u hop] at hwhole
    exact (covered_congr u (normalizeCommand_congr u hwhole)).mpr (hops op hop)
  · obtain ⟨q, hq, hpart⟩ := hops op hop
    exact ⟨q, hq, hpart.trans (infix_normalizeCommand u hop hprefix)⟩
  · exact (covered_congr u (normalizeCommand_congr u hwhole)).mpr (hpatterns p hp)

/-- Behind enough spaces a command is no name any more, and normalized as before. -/
theorem covered_of_same_verdict {extraPatterns : List String}
    (h : ∀ command command', normalizeCommand u command = normalizeCommand u command' →
      isDestructive u extraPatterns command = isDestructive u extraPatterns command')
    {name : String} (hname : Named u extraPatterns name) : Covered u extraPatterns name := by
  obtain ⟨n, hpos, hlong⟩ := exists_indent u extraPatterns
  apply isDestructive_indented u hpos hlong
  rw [h _ _ (normalizeCommand_indented u n name)]
  exact (isDestructive_iff_named u).mpr (Or.inr hname)

end

end OsModa.Agentd
