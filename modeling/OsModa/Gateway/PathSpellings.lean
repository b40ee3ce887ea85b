import OsModa.Base.LexicalPath
import OsModa.Gateway.Hook

/-!
The guarded files under other spellings of their paths.

The hook looks for its texts in the path as it is written. A text that spans two names is missed
where their separator is doubled, and a text inside one name is found in a detour through a
directory of that name. So the answer depends on the spelling, except for files whose own names
are guarded (`spellingFree_iff`).
-/

namespace OsModa.Gateway

open OsModa.Agentd OsModa.Js OsModa.Path OsModa.Path.PathSyntax

/-- Paths as the hook receives them. -/
def posix : PathSyntax UInt16 := ⟨47, 46, by decide⟩

/-! ### What should not depend on the spelling -/

/-- The hook gives the same answer for every path that denotes the file. -/
def AlikeProtected (path : JsString) : Prop :=
  ∀ q, posix.SameFile path q → isSelfProtected q = isSelfProtected path

def writeTools : List String := ["Write", "Edit", "MultiEdit", "NotebookEdit"]

/-- No call that targets the file is let through, whatever agentd answers. -/
def NeverWritten (path : JsString) : Prop :=
  ∀ q, posix.SameFile path q → ∀ tool ∈ writeTools, ∀ input : ToolInput,
    input.filePath.orElse (fun _ => input.notebookPath) = some q →
      ∀ ask, hookMain ask (some ⟨tool, some input⟩) ≠ .allow

/-- The protection of the file does not depend on how its path is spelled. -/
structure SpellingFree (path : JsString) : Prop where
  alike : AlikeProtected path
  guarded : isSelfProtected path = true → NeverWritten path

/-- The file has a name that is guarded in itself, or in its place. -/
def NameGuarded (file : Lexical UInt16) : Prop :=
  ∃ before n after, file.names = before ++ n :: after ∧
    (utf16 "id_ed25519" <:+: n ∨ utf16 "id_rsa" <:+: n ∨
      (file.absolute = true ∨ before ≠ []) ∧
        (utf16 "authorized_keys" <+: n ∨
          n = utf16 ".ssh" ∧ (file.trailing = true ∨ after ≠ [])))

/-! ### Names that every spelling shows -/

section Names

variable {path : JsString}

theorem isSelfProtected_iff :
    isSelfProtected path = true ↔ ∃ p ∈ selfProtect, utf16 p <:+: path := by
  simp only [isSelfProtected, includes, Bool.and_eq_true, List.any_eq_true, decide_eq_true_eq,
    and_iff_right_iff_imp]
  rintro ⟨p, hp, hpart⟩ rfl
  have hne : ∀ p ∈ selfProtect, utf16 p ≠ [] := by decide
  exact hne p hp (List.infix_nil.mp hpart)

/-- A guarded name is found in every spelling. -/
theorem isSelfProtected_of_nameGuarded (h : NameGuarded (posix.lexical path)) :
    isSelfProtected path = true := by
  obtain ⟨before, n, after, hnames, hguarded⟩ := h
  obtain ⟨x, y, hpath, hbefore, hafter⟩ := exists_delimited hnames
  have hname : n <:+: path := ⟨x, y, by rw [hpath, List.append_assoc]⟩
  rw [isSelfProtected_iff]
  rcases hguarded with hid | hid | ⟨hplace, hkeys | ⟨rfl, hinside⟩⟩
  · exact ⟨"id_ed25519", by decide, hid.trans hname⟩
  · exact ⟨"id_rsa", by decide, hid.trans hname⟩
  · obtain ⟨x', rfl⟩ := hbefore hplace
    obtain ⟨rest, rfl⟩ := hkeys
    exact ⟨"/authorized_keys", by decide, x', rest ++ y,
      by rw [hpath]; simp [posix, utf16, utf16Char]⟩
  · obtain ⟨x', rfl⟩ := hbefore hplace
    obtain ⟨y', rfl⟩ := hafter hinside
    exact ⟨"/.ssh/", by decide, x', y', by rw [hpath]; simp [posix, utf16, utf16Char]⟩

/-! ### Spellings that hide and spellings that show -/

theorem spread_position {before after : List JsString} {n : JsString}
    (h : (posix.spread (posix.lexical path)).splitOn posix.separator = before ++ n :: after)
    (hn : n ≠ []) (hhere : n ≠ posix.here) :
    ∃ b a, (posix.lexical path).names = b ++ n :: a ∧
      (before ≠ [] → (posix.lexical path).absolute = true ∨ b ≠ []) ∧
      (after ≠ [] → (posix.lexical path).trailing = true ∨ a ≠ []) := by
  obtain ⟨b, a, hshown, hbefore, hafter⟩ :=
    names_of_spread writable_shown (fun m hm => (mem_shown hm).1) h hn
  have hmem : n ∈ posix.shown (posix.lexical path) :=
    hshown ▸ List.mem_append_right _ List.mem_cons_self
  exact ⟨b, a, (names_of_shown hmem hhere).symm.trans hshown, hbefore, hafter⟩

/-- Neither empty nor a dot. -/
theorem real_of_infix {part n : JsString} (h : part <:+: n) (hlong : 2 ≤ part.length) :
    n ≠ [] ∧ n ≠ posix.here := by
  have hlen := h.length_le
  constructor
  · rintro rfl
    rw [List.length_nil] at hlen
    omega
  · rintro rfl
    have hone : posix.here.length = 1 := rfl
    omega

/-- With its separators doubled, a path is protected for its names only. -/
theorem nameGuarded_of_spread
    (h : isSelfProtected (posix.spread (posix.lexical path)) = true) :
    NameGuarded (posix.lexical path) := by
  obtain ⟨p, hp, hpart⟩ := isSelfProtected_iff.mp h
  have hspan : ¬ utf16 "/var/l" <:+: posix.spread (posix.lexical path) := by
    intro hspan
    have hvar : posix.separator ∉ utf16 "var" := by decide
    have hl : posix.separator ∉ utf16 "l" := by decide
    obtain ⟨before, n, after, hsplit, -, hnext⟩ := exists_whole_name hvar hl hspan
    have hwritable : Writable posix.separator (posix.shown (posix.lexical path)) := writable_shown
    have hchain := isChain_spread hwritable
    rw [hsplit] at hchain
    have hpart : [utf16 "var", n] <:+: before ++ utf16 "var" :: n :: after :=
      ⟨before, after, by simp⟩
    have hpair := hchain.infix hpart
    rcases List.isChain_pair.mp hpair with hempty | rfl
    · exact absurd hempty (by decide)
    · exact absurd (List.prefix_nil.mp hnext) (by decide)
  have hinside : ∀ {part : JsString}, posix.separator ∉ part → 2 ≤ part.length →
      part <:+: posix.spread (posix.lexical path) →
      ∃ before n after, (posix.lexical path).names = before ++ n :: after ∧ part <:+: n := by
    intro part hfree hlong hpart
    obtain ⟨n, hmem, hpart⟩ := exists_infix_name hfree hpart
    obtain ⟨before, after, hsplit⟩ := List.append_of_mem hmem
    obtain ⟨hn, hhere⟩ := real_of_infix hpart hlong
    obtain ⟨b, a, hnames, -, -⟩ := spread_position hsplit hn hhere
    exact ⟨b, n, a, hnames, hpart⟩
  simp only [selfProtect, List.mem_cons, List.not_mem_nil, or_false] at hp
  rcases hp with rfl | rfl | rfl | rfl | rfl | rfl | rfl
  · exact absurd (List.IsInfix.trans (by decide) hpart) hspan
  · exact absurd (List.IsInfix.trans (by decide) hpart) hspan
  · exact absurd (List.IsInfix.trans (by decide) hpart) hspan
  · have hfree : posix.separator ∉ utf16 "authorized_keys" := by decide
    obtain ⟨before, n, after, hsplit, hbefore, hkeys⟩ := exists_prefix_name hfree hpart
    obtain ⟨hn, hhere⟩ := real_of_infix hkeys.isInfix (by decide)
    obtain ⟨b, a, hnames, hplace, -⟩ := spread_position hsplit hn hhere
    exact ⟨b, n, a, hnames, .inr (.inr ⟨hplace hbefore, .inl hkeys⟩)⟩
  · have hfree : posix.separator ∉ utf16 ".ssh" := by decide
    obtain ⟨before, n, after, hsplit, hbefore, -⟩ :=
      exists_whole_name hfree List.not_mem_nil hpart
    obtain ⟨b, a, hnames, hplace, hmore⟩ := spread_position hsplit (by decide) (by decide)
    exact ⟨b, _, a, hnames, .inr (.inr ⟨hplace hbefore,
      .inr ⟨rfl, hmore (List.cons_ne_nil _ _)⟩⟩)⟩
  · obtain ⟨before, n, after, hnames, hid⟩ := hinside (by decide) (by decide) hpart
    exact ⟨before, n, after, hnames, .inl hid⟩
  · obtain ⟨before, n, after, hnames, hid⟩ := hinside (by decide) (by decide) hpart
    exact ⟨before, n, after, hnames, .inr (.inl hid)⟩

/-- A detour through a directory of a guarded name is protected, wherever it leads. -/
theorem isSelfProtected_detour (file : Lexical UInt16) :
    isSelfProtected (posix.detour (utf16 "id_rsa") file) = true :=
  isSelfProtected_iff.mpr ⟨"id_rsa", by decide, infix_detour file⟩

theorem alikeProtected_iff : AlikeProtected path ↔ NameGuarded (posix.lexical path) := by
  constructor
  · intro halike
    have hdetour := halike (posix.detour (utf16 "id_rsa") (posix.lexical path))
      (lexical_detour (by exact ⟨by decide, by decide, by decide⟩) (by decide)).symm
    have hspread := halike (posix.spread (posix.lexical path)) lexical_spread.symm
    rw [isSelfProtected_detour] at hdetour
    exact nameGuarded_of_spread (hspread.trans hdetour.symm)
  · intro hguarded q hsame
    rw [isSelfProtected_of_nameGuarded hguarded]
    exact isSelfProtected_of_nameGuarded (hsame ▸ hguarded)

end Names

/-! ### The calls of the write tools -/

theorem hookMain_write {tool : String} (htool : tool ∈ writeTools) {input : ToolInput}
    {path : JsString} (hpath : input.filePath.orElse (fun _ => input.notebookPath) = some path)
    (ask : JsString → Option HttpReply) :
    hookMain ask (some ⟨tool, some input⟩) = .allow ↔ isSelfProtected path = false := by
  have hkind : gatedKind tool (some input) = .write path := by
    have hgated : ∀ tool ∈ writeTools, tool ∈ gatedTools ∧ tool ≠ "Bash" := by decide
    rw [gatedKind, if_neg (not_not.mpr (hgated tool htool).1), if_neg (hgated tool htool).2]
    exact congrArg (fun target => GatedKind.write (Option.getD target [])) hpath
  unfold hookMain
  simp only [hkind]
  cases isSelfProtected path <;> simp

/-- The protection of a file is free of its spelling if and only if one of its own names is
guarded. -/
theorem spellingFree_iff (path : JsString) :
    SpellingFree path ↔ NameGuarded (posix.lexical path) := by
  constructor
  · exact fun h => alikeProtected_iff.mp h.alike
  · intro hguarded
    refine ⟨alikeProtected_iff.mpr hguarded, fun _ q hsame tool htool input hpath ask hallow => ?_⟩
    have hprotected : isSelfProtected q = true := isSelfProtected_of_nameGuarded (hsame ▸ hguarded)
    rw [(hookMain_write htool hpath ask).mp hallow] at hprotected
    cases hprotected

/-- The gateway's token, with a doubled separator, is written without a question. -/
theorem gatewayToken_written :
    isSelfProtected (utf16 "/var/lib/osmoda/config/gateway-token") = true ∧
      ¬ NeverWritten (utf16 "/var/lib/osmoda/config/gateway-token") ∧
      ¬ SpellingFree (utf16 "/var/lib/osmoda/config/gateway-token") := by
  have hprotected : isSelfProtected (utf16 "/var/lib/osmoda/config/gateway-token") = true := by
    decide +kernel
  have hwritten : ¬ NeverWritten (utf16 "/var/lib/osmoda/config/gateway-token") := fun h =>
    h (utf16 "/var/lib/osmoda/config//gateway-token") (by decide +kernel) "Write" (by decide)
      ⟨none, some (utf16 "/var/lib/osmoda/config//gateway-token"), none⟩ rfl (fun _ => none) rfl
  exact ⟨hprotected, hwritten, fun h => hwritten (h.guarded hprotected)⟩

end OsModa.Gateway
