import OsModa.Agentd.Obfuscation
import OsModa.Base.Spelling
import OsModa.Gateway.Hook

/-!
The backstop against the policy that it stands in for.

While agentd is down the hook blocks what its patterns match; while agentd answers, what its
texts are found in. Six of the eight patterns match commands in which agentd finds none of its
texts: a recursive `rm` with other options than `-rf`, a `dd` whose `of=` comes first, the fork
bomb, a download piped into a shell under `sudo`, and a redirection with no blank before the
device. Outside these spellings, what the hook blocks agentd finds
(`backstop_within_policy_iff`).
-/

namespace OsModa.Gateway

open OsModa.Agentd OsModa.Js OsModa.Regex OsModa.Text

/-! ### Spellings in a command -/

/-- The characters of units below the surrogates. -/
abbrev chars (t : JsString) : List Char := t.map fun a => Char.ofNat a.toNat

/-- The units spell the text. -/
structure UnitsSpell (p : String) (t : JsString) : Prop where
  ascii : ∀ a ∈ t, a.toNat < 128
  spelled : Spelled p.toList (chars t)

/-- The text is spelled somewhere in the command. -/
def SpelledIn (p : String) (command : JsString) : Prop :=
  ∃ x t y, command = x ++ (t ++ y) ∧ UnitsSpell p t

theorem UnitsSpell.append {p q : String} {t s : JsString} (h : UnitsSpell p t)
    (h' : UnitsSpell q s) : UnitsSpell (p ++ q) (t ++ s) := by
  refine ⟨fun a ha => ?_, ?_⟩
  · exact (List.mem_append.mp ha).elim (h.ascii a) (h'.ascii a)
  · rw [String.toList_append, chars, List.map_append]
    exact h.spelled.append h'.spelled

theorem lowerUnit_lt {a : UInt16} (h : (lowerUnit a).toNat < 128) : a.toNat < 128 := by
  unfold lowerUnit at h
  split at h
  · rename_i hcapital
    have hle : a.toNat ≤ 90 := UInt16.le_iff_toNat_le.mp hcapital.2
    omega
  · exact h

theorem toLower_unit : ∀ n < 128, (Char.ofNat n).toNat = n ∧
    (Char.ofNat n).toLower.toNat = (lowerUnit (UInt16.ofNat n)).toNat := by
  decide +kernel

theorem toNat_unit {c : Char} (hc : c.toNat < 128) :
    (UInt16.ofNat c.toNat).toNat = c.toNat :=
  UInt16.toNat_ofNat_of_lt' (hc.trans (by decide))

theorem toLower_ofNat {a : UInt16} {c : Char} (hc : c.toNat < 128)
    (h : lowerUnit a = UInt16.ofNat c.toNat) :
    a.toNat < 128 ∧ (Char.ofNat a.toNat).toLower = c := by
  have ha : a.toNat < 128 := lowerUnit_lt (by rw [h, toNat_unit hc]; exact hc)
  refine ⟨ha, Char.toNat_inj.mp ?_⟩
  rw [(toLower_unit _ ha).2, UInt16.ofNat_toNat, h, toNat_unit hc]

theorem utf16_ascii {s : String} (h : ∀ c ∈ s.toList, c.toNat < 128) :
    utf16 s = s.toList.map fun c => UInt16.ofNat c.toNat := by
  unfold utf16
  generalize s.toList = cs at h
  induction cs with
  | nil => rfl
  | cons c cs ih =>
    obtain ⟨hc, hcs⟩ := List.forall_mem_cons.mp h
    rw [List.flatMap_cons, ih hcs, utf16Char, if_pos (by omega)]
    rfl

theorem spelled_of_forall₂ {cs : List Char} {m : JsString} (hcs : ∀ c ∈ cs, c.toNat < 128)
    (h : List.Forall₂ (fun c a => lowerUnit a = UInt16.ofNat c.toNat) cs m) :
    (∀ a ∈ m, a.toNat < 128) ∧ Spelled cs (chars m) := by
  induction h with
  | nil => exact ⟨by simp, .nil⟩
  | cons ha _ ih =>
    obtain ⟨hc, htail⟩ := List.forall_mem_cons.mp hcs
    obtain ⟨hascii, rfl⟩ := toLower_ofNat hc ha
    obtain ⟨hmascii, hspelled⟩ := ih htail
    refine ⟨List.forall_mem_cons.mpr ⟨hascii, hmascii⟩, .char ?_ hspelled⟩
    rwa [(toLower_unit _ hascii).1]

/-- ASCII without capital letters. -/
def isLowerText (s : String) : Bool := s.toList.all fun c => c.toNat < 128 && c.toLower = c

section Literals

variable {s : String} {before : Option UInt16} {m rest : JsString}

theorem ascii_of_isLowerText (h : isLowerText s = true) : ∀ c ∈ s.toList, c.toNat < 128 := by
  intro c hc
  exact of_decide_eq_true (Bool.and_eq_true_iff.mp (List.all_eq_true.mp h c hc)).1

theorem lower_of_isLowerText (h : isLowerText s = true) : ∀ c ∈ s.toList, c.toLower = c := by
  intro c hc
  exact of_decide_eq_true (Bool.and_eq_true_iff.mp (List.all_eq_true.mp h c hc)).2

/-- A literal text under the flag `i` matches its spellings. -/
theorem spell_of_litI (hlower : isLowerText s = true)
    (h : Matches isWord (litI s) before m rest) : UnitsSpell s m := by
  have hs := ascii_of_isLowerText hlower
  have hunits := (matches_all_one (q := fun b a => decide (lowerUnit a = b))).mp h
  rw [utf16_ascii hs, List.forall₂_map_left_iff] at hunits
  have hboth := spelled_of_forall₂ hs (hunits.imp fun _ _ hca => of_decide_eq_true hca)
  exact ⟨hboth.1, hboth.2⟩

theorem matches_lit : Matches isWord (lit s) before m rest ↔ m = utf16 s := by
  have hunits : Matches isWord (lit s) before m rest ↔
      List.Forall₂ (fun b a => decide (a = b) = true) (utf16 s) m := matches_all_one
  refine hunits.trans ⟨fun h => ?_, fun h => ?_⟩
  · have heq : List.Forall₂ Eq (utf16 s) m := h.imp fun _ _ hba => (of_decide_eq_true hba).symm
    rw [List.forall₂_eq_eq_eq] at heq
    exact heq.symm
  · subst h
    exact List.forall₂_same.mpr fun a _ => decide_eq_true rfl

/-- Text without capital letters spells itself. -/
theorem spell_self (hlower : isLowerText s = true) : UnitsSpell s (utf16 s) := by
  have hascii := ascii_of_isLowerText hlower
  rw [utf16_ascii hascii]
  have hboth := spelled_of_forall₂ hascii (m := s.toList.map fun c => UInt16.ofNat c.toNat) <|
    List.forall₂_map_right_iff.mpr <| List.forall₂_same.mpr fun c hc => by
      refine UInt16.toNat_inj.mp ?_
      rw [← (toLower_unit _ (hascii c hc)).2, toNat_unit (hascii c hc), Char.ofNat_toNat,
        lower_of_isLowerText hlower c hc]
  exact ⟨hboth.1, hboth.2⟩

end Literals

/-! ### Blanks -/

/-- A blank that is no ASCII character. -/
def isOddSpace (a : UInt16) : Bool := isSpace a && 128 ≤ a.toNat

/-- Blanks with an odd one among them. -/
def oddSpaces : Regex UInt16 := .all [spaces, .one isOddSpace, spaces]

theorem isSpace_ascii : ∀ n < 128, isSpace (UInt16.ofNat n) = true →
    asciiWhitespace (Char.ofNat n) = true := by
  decide +kernel

section Blanks

variable {before : Option UInt16} {m rest : JsString}

theorem blanks_cases (hm : ∀ a ∈ m, isSpace a = true) :
    (∀ before rest, Matches isWord oddSpaces before m rest) ∨ m = [] ∨ UnitsSpell " " m := by
  by_cases hodd : ∃ a ∈ m, 128 ≤ a.toNat
  · obtain ⟨a, ha, hge⟩ := hodd
    obtain ⟨x, y, rfl⟩ := List.append_of_mem ha
    rw [List.forall_mem_append, List.forall_mem_cons] at hm
    have hodd : isOddSpace a = true := by
      rw [isOddSpace, hm.2.1, Bool.true_and]
      exact decide_eq_true hge
    exact .inl fun _ _ => matches_all_cons.mpr ⟨x, a :: y, rfl, hm.1,
      matches_all_cons.mpr ⟨[a], y, rfl, ⟨a, hodd, rfl⟩, hm.2.2⟩⟩
  · rcases eq_or_ne m [] with hnil | hne
    · exact .inr (.inl hnil)
    · have hascii : ∀ a ∈ m, a.toNat < 128 := fun a ha => by
        by_contra hge
        exact hodd ⟨a, ha, by omega⟩
      refine .inr (.inr ⟨hascii, ?_⟩)
      have hblanks : Spelled (' ' :: []) (chars m ++ []) :=
        .blanks (by simpa using hne) (fun c hc => ?_) .nil
      · rwa [List.append_nil] at hblanks
      · obtain ⟨a, ha, rfl⟩ := List.mem_map.mp hc
        exact isSpace_ascii _ (hascii a ha) (by rw [UInt16.ofNat_toNat]; exact hm a ha)

theorem oddSpaces_within_spaces : Within isWord oddSpaces spaces := by
  intro before m rest h
  obtain ⟨x, _, rfl, hx, h⟩ := matches_all_cons.mp h
  obtain ⟨_, y, rfl, ⟨a, ha, rfl⟩, hy⟩ := matches_all_cons.mp h
  have ha : isSpace a = true := (Bool.and_eq_true_iff.mp ha).1
  refine List.forall_mem_append.mpr ⟨hx, List.forall_mem_append.mpr ⟨?_, hy⟩⟩
  exact List.forall_mem_singleton.mpr ha

theorem empty_within_spaces : Within isWord .empty spaces := by
  rintro before _ rest rfl
  exact fun _ ha => absurd ha List.not_mem_nil

theorem oddSpaces_ne_nil (h : Matches isWord oddSpaces before m rest) : m ≠ [] := by
  obtain ⟨x, _, rfl, -, h⟩ := matches_all_cons.mp h
  obtain ⟨_, y, rfl, ⟨a, -, rfl⟩, -⟩ := matches_all_cons.mp h
  simp

theorem oddSpaces_within_plus : Within isWord oddSpaces (.plus isSpace) := fun before m rest h =>
  matches_plus.mpr ⟨oddSpaces_ne_nil h, oddSpaces_within_spaces before m rest h⟩

end Blanks

/-! ### Options of `rm` -/

/-- `[a-z]*r[a-z]*f?`: letters with an `r` among them. -/
def recursiveFlags : Regex UInt16 :=
  .all [.many isLetter, litI "r", .many isLetter, .opt (litI "f")]

/-- A letter, but not this one. -/
def isLetterBut (b a : UInt16) : Bool := isLetter a && lowerUnit a ≠ b

/-- Such letters that do not start with `rf`. -/
def otherFlags : Regex UInt16 :=
  .any [.all [.one (isLetterBut 114), .many isLetter, litI "r", .many isLetter],
    .all [litI "r", .one (isLetterBut 102), .many isLetter],
    litI "r"]

section Flags

variable {before : Option UInt16} {m rest : JsString}

theorem matches_r : Matches isWord (litI "r") before m rest ↔ ∃ a, lowerUnit a = 114 ∧ m = [a] := by
  change (∃ a, decide (lowerUnit a = 114) = true ∧ m = [a]) ↔ _
  simp only [decide_eq_true_eq]

theorem matches_f : Matches isWord (litI "f") before m rest ↔ ∃ a, lowerUnit a = 102 ∧ m = [a] := by
  change (∃ a, decide (lowerUnit a = 102) = true ∧ m = [a]) ↔ _
  simp only [decide_eq_true_eq]

theorem isLetter_of_lower {a : UInt16} (h : lowerUnit a = 114 ∨ lowerUnit a = 102) :
    isLetter a = true := by
  unfold isLetter
  rcases h with h | h <;> rw [h] <;> decide

theorem matches_recursiveFlags : Matches isWord recursiveFlags before m rest ↔
    (∀ a ∈ m, isLetter a = true) ∧ ∃ a ∈ m, lowerUnit a = 114 := by
  constructor
  · intro h
    obtain ⟨x, _, rfl, hx, h⟩ := matches_all_cons.mp h
    obtain ⟨_, _, rfl, hr, h⟩ := matches_all_cons.mp h
    obtain ⟨y, z, rfl, hy, hz⟩ := matches_all_cons.mp h
    obtain ⟨a, ha, rfl⟩ := matches_r.mp hr
    have hz : ∀ b ∈ z, isLetter b = true := by
      rcases matches_opt.mp hz with hf | rfl
      · obtain ⟨b, hb, rfl⟩ := matches_f.mp hf
        exact List.forall_mem_singleton.mpr (isLetter_of_lower (.inr hb))
      · simp
    simp only [List.forall_mem_append, List.forall_mem_singleton]
    exact ⟨⟨hx, isLetter_of_lower (.inl ha), hy, hz⟩, a, by simp, ha⟩
  · rintro ⟨hm, a, hmem, ha⟩
    obtain ⟨x, y, rfl⟩ := List.append_of_mem hmem
    rw [List.forall_mem_append, List.forall_mem_cons] at hm
    refine matches_all_cons.mpr ⟨x, a :: y, rfl, hm.1, matches_all_cons.mpr
      ⟨[a], y, rfl, matches_r.mpr ⟨a, ha, rfl⟩, matches_all_cons.mpr
        ⟨y, [], (List.append_nil y).symm, hm.2.2, matches_opt.mpr (.inr rfl)⟩⟩⟩

theorem otherFlags_within : Within isWord otherFlags recursiveFlags := by
  intro before m rest h
  obtain ⟨re, hre, h⟩ := matches_any.mp h
  simp only [List.mem_cons, List.not_mem_nil, or_false] at hre
  rw [matches_recursiveFlags]
  rcases hre with rfl | rfl | rfl
  · obtain ⟨_, _, rfl, ⟨a, ha, rfl⟩, h⟩ := matches_all_cons.mp h
    obtain ⟨x, _, rfl, hx, h⟩ := matches_all_cons.mp h
    obtain ⟨_, y, rfl, hr, hy⟩ := matches_all_cons.mp h
    obtain ⟨b, hb, rfl⟩ := matches_r.mp hr
    simp only [List.forall_mem_append, List.forall_mem_singleton]
    exact ⟨⟨(Bool.and_eq_true_iff.mp ha).1, hx, isLetter_of_lower (.inl hb), hy⟩, b, by simp, hb⟩
  · obtain ⟨_, _, rfl, hr, h⟩ := matches_all_cons.mp h
    obtain ⟨_, y, rfl, ⟨b, hb, rfl⟩, hy⟩ := matches_all_cons.mp h
    obtain ⟨a, ha, rfl⟩ := matches_r.mp hr
    simp only [List.forall_mem_append, List.forall_mem_singleton]
    exact ⟨⟨isLetter_of_lower (.inl ha), (Bool.and_eq_true_iff.mp hb).1, hy⟩, a, by simp, ha⟩
  · obtain ⟨a, ha, rfl⟩ := matches_r.mp h
    exact ⟨List.forall_mem_singleton.mpr (isLetter_of_lower (.inl ha)), a, by simp, ha⟩

/-- The options are other ones, or start with `rf`. -/
theorem flags_cases (h : Matches isWord recursiveFlags before m rest) :
    Matches isWord otherFlags before m rest ∨ ∃ t t', m = t ++ t' ∧ UnitsSpell "rf" t := by
  obtain ⟨hm, a, hmem, ha⟩ := matches_recursiveFlags.mp h
  cases m with
  | nil => cases hmem
  | cons b m =>
    obtain ⟨hb, hm⟩ := List.forall_mem_cons.mp hm
    by_cases hbr : lowerUnit b = 114
    · cases m with
      | nil => exact .inl (matches_any.mpr ⟨_, by simp, matches_r.mpr ⟨b, hbr, rfl⟩⟩)
      | cons c m =>
        obtain ⟨hc, hm⟩ := List.forall_mem_cons.mp hm
        by_cases hcf : lowerUnit c = 102
        · have hspell : (∀ a ∈ [b, c], a.toNat < 128) ∧ Spelled "rf".toList (chars [b, c]) :=
            spelled_of_forall₂ (ascii_of_isLowerText (by decide)) (.cons hbr (.cons hcf .nil))
          exact .inr ⟨[b, c], m, rfl, hspell.1, hspell.2⟩
        · refine .inl (matches_any.mpr ⟨_, List.mem_cons_of_mem _ List.mem_cons_self,
            matches_all_cons.mpr ⟨[b], c :: m, rfl, matches_r.mpr ⟨b, hbr, rfl⟩,
              matches_all_cons.mpr ⟨[c], m, rfl, ⟨c, ?_, rfl⟩, hm⟩⟩⟩)
          rw [isLetterBut, hc, Bool.true_and]
          exact decide_eq_true hcf
    · have hmem : a ∈ m := (List.mem_cons.mp hmem).resolve_left fun hab => hbr (hab ▸ ha)
      obtain ⟨x, y, rfl⟩ := List.append_of_mem hmem
      rw [List.forall_mem_append, List.forall_mem_cons] at hm
      refine .inl (matches_any.mpr ⟨_, List.mem_cons_self, matches_all_cons.mpr
        ⟨[b], x ++ a :: y, rfl, ⟨b, ?_, rfl⟩, matches_all_cons.mpr ⟨x, a :: y, rfl, hm.1,
          matches_all_cons.mpr ⟨[a], y, rfl, matches_r.mpr ⟨a, ha, rfl⟩, hm.2.2⟩⟩⟩⟩)
      rw [isLetterBut, hb, Bool.true_and]
      exact decide_eq_true hbr

end Flags

/-! ### The spellings that escape -/

/-- `\brm`, blanks, a dash with options, and the root directory. -/
def rmWith (blanks flags : Regex UInt16) : Regex UInt16 :=
  .all ([.boundary, litI "rm", blanks, lit "-"] ++ [flags, .plus isSpace, lit "/"])

def rmEscaping : Regex UInt16 :=
  .alt (rmWith (.plus isSpace) otherFlags) (rmWith oddSpaces recursiveFlags)

/-- `dd of=/dev/sdX`. -/
def ddToDevice : Regex UInt16 :=
  .all [.boundary, litI "dd", .boundary, .many notNewline, .boundary, litI "of=/dev/"]

def forkBomb : Regex UInt16 :=
  .all [lit ":", spaces, lit "(", spaces, lit ")", spaces, lit "\x7b", spaces, lit ":", spaces,
    lit "|", spaces, lit ":", spaces, lit "&", spaces, lit "\x7d", spaces, lit ";"]

def underSudo : Regex UInt16 := .seq (litI "sudo") (.plus isSpace)

/-- A download piped into a shell. -/
def pipeWith (blanks user : Regex UInt16) : Regex UInt16 :=
  .all ([.boundary, .any [litI "curl", litI "wget"], .boundary, .many notNewline] ++
    [lit "|", blanks, user, .opt (litI "ba"), litI "sh", .boundary])

/-- A redirection to a disk. -/
def redirectWith (blanks : Regex UInt16) : Regex UInt16 :=
  .all [lit ">", blanks, litI "/dev/sd", .one isLetter]

/-- The two patterns that match a word alone. -/
def wordAlone (words : Regex UInt16) : Regex UInt16 := .all [.boundary, words, .boundary]

/-- The backstop in these terms. -/
theorem catastrophic_eq : catastrophic =
    [.seq rmSlash (.alt (.one isSpace) .atEnd),
     .seq rmSlash (lit "*"),
     wordAlone (litI "mkfs"),
     ddToDevice,
     wordAlone (.any [litI "shutdown", litI "reboot", litI "halt", litI "poweroff"]),
     forkBomb,
     pipeWith spaces (.opt underSudo),
     redirectWith spaces] :=
  rfl

/-- What six of the patterns match beside the texts that agentd looks for. -/
def escaping : List (Regex UInt16) :=
  [.seq rmEscaping (.alt (.one isSpace) .atEnd),
   .seq rmEscaping (lit "*"),
   ddToDevice,
   forkBomb,
   .alt (pipeWith spaces underSudo) (pipeWith oddSpaces .empty),
   .alt (redirectWith .empty) (redirectWith oddSpaces)]

/-- The command is spelled in a way that the backstop knows and agentd does not, or agentd
cannot be asked about it at all. -/
inductive Escapes (command : JsString) : Prop where
  | spelling {re : Regex UInt16} (listed : re ∈ escaping) (found : re.test isWord command = true)
  | illFormed {re : Regex UInt16} (unreadable : decode? command = none)
      (listed : re ∈ catastrophic) (found : re.test isWord command = true)

/-! ### The patterns, one by one -/

section Patterns

variable {before : Option UInt16} {m rest : JsString}

theorem matches_rmSlash : Matches isWord rmSlash before m rest ↔
    Matches isWord (rmWith (.plus isSpace) recursiveFlags) before m rest := by
  have hsplit : rmSlash = .all ([.boundary, litI "rm", .plus isSpace, lit "-"] ++
      ([.many isLetter, litI "r", .many isLetter, .opt (litI "f")] ++
        [.plus isSpace, lit "/"])) := rfl
  rw [hsplit, rmWith, matches_all_append, matches_all_append]
  exact exists_congr fun m₁ => exists_congr fun m₂ => and_congr_right fun _ =>
    and_congr_right fun _ => matches_all_append.trans matches_all_cons.symm

theorem rmEscaping_within : Within isWord rmEscaping rmSlash := by
  have hwith : ∀ {blanks flags}, Within isWord blanks (.plus isSpace) →
      Within isWord flags recursiveFlags → Within isWord (rmWith blanks flags) rmSlash :=
    fun hblanks hflags before m rest h => matches_rmSlash.mpr <|
      Within.all (.cons (.refl _) (.cons (.refl _) (.cons hblanks (.cons (.refl _)
        (.cons hflags (.cons (.refl _) (.cons (.refl _) .nil))))))) before m rest h
  exact .alt (hwith (.refl _) otherFlags_within) (hwith oddSpaces_within_plus (.refl _))

/-- Options that start with `-rf` after ASCII blanks are what agentd looks for. -/
theorem rm_cases (h : Matches isWord rmSlash before m rest) :
    Matches isWord rmEscaping before m rest ∨ SpelledIn "rm -rf" m := by
  obtain ⟨m₁, _, rfl, hrm, h⟩ := matches_all_append.mp (matches_rmSlash.mp h)
  obtain ⟨flags, m₃, rfl, hflags, hroot⟩ := matches_all_cons.mp h
  rcases flags_cases hflags with hother | ⟨t, t', rfl, hrf⟩
  · exact .inl (.inl (matches_all_append.mpr ⟨m₁, _, rfl, hrm,
      matches_all_cons.mpr ⟨flags, m₃, rfl, hother, hroot⟩⟩))
  · obtain ⟨_, _, rfl, hboundary, h⟩ := matches_all_cons.mp hrm
    obtain ⟨rm, _, rfl, hword, h⟩ := matches_all_cons.mp h
    obtain ⟨blanks, dash, rfl, hblanks, hdash⟩ := matches_all_cons.mp h
    obtain ⟨hne, hspaces⟩ := matches_plus.mp hblanks
    rcases blanks_cases hspaces with hodd | hnil | hblank
    · exact .inl (.inr (matches_all_append.mpr ⟨_, _, rfl, matches_all_cons.mpr
        ⟨_, _, rfl, hboundary, matches_all_cons.mpr ⟨rm, _, rfl, hword, matches_all_cons.mpr
          ⟨blanks, dash, rfl, hodd _ _, hdash⟩⟩⟩, matches_all_cons.mpr
          ⟨t ++ t', m₃, rfl, hflags, hroot⟩⟩))
    · exact absurd hnil hne
    · obtain rfl := matches_lit.mp hdash
      obtain rfl : _ = [] := hboundary.1
      have hspell := (((spell_of_litI (by decide) hword).append hblank).append
        (spell_self (s := "-") (by decide))).append hrf
      exact .inr ⟨[], _, t' ++ m₃, by simp, hspell⟩

theorem spelledIn_append {p : String} (h : SpelledIn p m) (x y : JsString) :
    SpelledIn p (x ++ (m ++ y)) := by
  obtain ⟨x', t, y', rfl, ht⟩ := h
  exact ⟨x ++ x', t, y' ++ y, by simp, ht⟩

theorem pipe_within {user : Regex UInt16} {blanks : Regex UInt16}
    (hblanks : Within isWord blanks spaces) (huser : Within isWord user (.opt underSudo)) :
    Within isWord (pipeWith blanks user) (pipeWith spaces (.opt underSudo)) :=
  .all (.cons (.refl _) (.cons (.refl _) (.cons (.refl _) (.cons (.refl _) (.cons (.refl _)
    (.cons hblanks (.cons huser (.cons (.refl _) (.cons (.refl _) (.cons (.refl _) .nil))))))))))

/-- A pipe into `sh` or `bash`, after ASCII blanks or none. -/
def plainPipes : List String := ["|sh", "|bash", "| sh", "| bash"]

theorem pipe_cases (h : Matches isWord (pipeWith spaces (.opt underSudo)) before m rest) :
    Matches isWord (.alt (pipeWith spaces underSudo) (pipeWith oddSpaces .empty)) before m rest ∨
      ∃ p ∈ plainPipes, SpelledIn p m := by
  obtain ⟨m₁, _, rfl, hload, h⟩ := matches_all_append.mp h
  obtain ⟨bar, _, rfl, hbar, h⟩ := matches_all_cons.mp h
  obtain ⟨blanks, _, rfl, hblanks, h⟩ := matches_all_cons.mp h
  obtain ⟨user, _, rfl, huser, hshell⟩ := matches_all_cons.mp h
  rcases matches_opt.mp huser with hsudo | rfl
  · exact .inl (.inl (matches_all_append.mpr ⟨m₁, _, rfl, hload, matches_all_cons.mpr
      ⟨bar, _, rfl, hbar, matches_all_cons.mpr ⟨blanks, _, rfl, hblanks, matches_all_cons.mpr
        ⟨user, _, rfl, hsudo, hshell⟩⟩⟩⟩))
  · rcases blanks_cases hblanks with hodd | hplain
    · exact .inl (.inr (matches_all_append.mpr ⟨m₁, _, rfl, hload, matches_all_cons.mpr
        ⟨bar, _, rfl, hbar, matches_all_cons.mpr ⟨blanks, _, rfl, hodd _ _, matches_all_cons.mpr
          ⟨[], _, rfl, rfl, hshell⟩⟩⟩⟩))
    · obtain rfl := matches_lit.mp hbar
      obtain ⟨ba, _, rfl, hba, h⟩ := matches_all_cons.mp hshell
      obtain ⟨sh, tail, rfl, hsh, -⟩ := matches_all_cons.mp h
      have hspellSh := spell_of_litI (by decide) hsh
      have hspellBar := spell_self (s := "|") (by decide)
      rcases matches_opt.mp hba with hba | rfl <;> rcases hplain with rfl | hblank
      · exact .inr ⟨"|bash", by decide, m₁, _, tail, by simp,
          (hspellBar.append (spell_of_litI (by decide) hba)).append hspellSh⟩
      · exact .inr ⟨"| bash", by decide, m₁, _, tail, by simp,
          ((hspellBar.append hblank).append (spell_of_litI (by decide) hba)).append hspellSh⟩
      · exact .inr ⟨"|sh", by decide, m₁, _, tail, by simp, hspellBar.append hspellSh⟩
      · exact .inr ⟨"| sh", by decide, m₁, _, tail, by simp,
          (hspellBar.append hblank).append hspellSh⟩

theorem redirect_within {blanks : Regex UInt16} (hblanks : Within isWord blanks spaces) :
    Within isWord (redirectWith blanks) (redirectWith spaces) :=
  .all (.cons (.refl _) (.cons hblanks (.cons (.refl _) (.cons (.refl _) .nil))))

theorem redirect_cases (h : Matches isWord (redirectWith spaces) before m rest) :
    Matches isWord (.alt (redirectWith .empty) (redirectWith oddSpaces)) before m rest ∨
      SpelledIn "> /dev/sd" m := by
  obtain ⟨arrow, _, rfl, harrow, h⟩ := matches_all_cons.mp h
  obtain ⟨blanks, _, rfl, hblanks, h⟩ := matches_all_cons.mp h
  rcases blanks_cases hblanks with hodd | rfl | hblank
  · exact .inl (.inr (matches_all_cons.mpr ⟨arrow, _, rfl, harrow, matches_all_cons.mpr
      ⟨blanks, _, rfl, hodd _ _, h⟩⟩))
  · exact .inl (.inl (matches_all_cons.mpr ⟨arrow, _, rfl, harrow, matches_all_cons.mpr
      ⟨[], _, rfl, rfl, h⟩⟩))
  · obtain ⟨disk, letter, rfl, hdisk, -⟩ := matches_all_cons.mp h
    obtain rfl := matches_lit.mp harrow
    have hspell := ((spell_self (s := ">") (by decide)).append hblank).append
      (spell_of_litI (by decide) hdisk)
    exact .inr ⟨[], _, letter, by simp, hspell⟩

end Patterns

/-! ### From the patterns to the policy -/

/-- The texts of agentd that a command spells where the backstop matches it without escaping. -/
def plainTexts : List String :=
  ["rm -rf", "mkfs", "> /dev/sd", "shutdown", "reboot", "halt", "poweroff"] ++ plainPipes

section Policy

variable {u : Unicode} {gate : ApprovalGate} {command : JsString}

theorem isCatastrophic_iff :
    isCatastrophic command = true ↔ ∃ re ∈ catastrophic, re.test isWord command = true := by
  rw [isCatastrophic, Bool.and_eq_true, List.any_eq_true, and_iff_right_iff_imp]
  rintro ⟨re, hre, hfound⟩
  refine decide_eq_true ?_
  intro hnil
  subst hnil
  have hempty : ∀ re ∈ catastrophic, re.test isWord [] = false := by
    simp only [catastrophic_eq, List.forall_mem_cons]
    decide
  rw [hempty re hre] at hfound
  cases hfound

/-- What escapes is matched by the backstop. -/
theorem isCatastrophic_of_escapes (h : Escapes command) : isCatastrophic command = true := by
  rw [isCatastrophic_iff]
  cases h with
  | illFormed _ listed found => exact ⟨_, listed, found⟩
  | @spelling re listed found =>
    simp only [escaping, List.mem_cons, List.not_mem_nil, or_false] at listed
    simp only [catastrophic_eq, List.exists_mem_cons_iff, List.not_mem_nil, false_and,
      exists_false, or_false]
    rcases listed with rfl | rfl | rfl | rfl | rfl | rfl
    · exact .inl ((rmEscaping_within.seq (.refl _)).test found)
    · exact .inr (.inl ((rmEscaping_within.seq (.refl _)).test found))
    · exact .inr (.inr (.inr (.inl found)))
    · exact .inr (.inr (.inr (.inr (.inr (.inl found)))))
    · have hpipe : Within isWord (.alt (pipeWith spaces underSudo) (pipeWith oddSpaces .empty))
          (pipeWith spaces (.opt underSudo)) :=
        .alt (pipe_within (.refl _) fun _ _ _ => Or.inl)
          (pipe_within oddSpaces_within_spaces fun _ _ _ => Or.inr)
      exact .inr (.inr (.inr (.inr (.inr (.inr (.inl (hpipe.test found)))))))
    · have hredirect : Within isWord (.alt (redirectWith .empty) (redirectWith oddSpaces))
          (redirectWith spaces) :=
        .alt (redirect_within empty_within_spaces) (redirect_within oddSpaces_within_spaces)
      exact .inr (.inr (.inr (.inr (.inr (.inr (.inr (hredirect.test found)))))))

theorem spelled_of_wordAlone {words : Regex UInt16} {x m y : JsString}
    (h : Matches isWord (wordAlone words) (lastOf none x) m y)
    (hspell : ∀ before m rest, Matches isWord words before m rest →
      ∃ p ∈ plainTexts, UnitsSpell p m) :
    ∃ p ∈ plainTexts, SpelledIn p (x ++ (m ++ y)) := by
  obtain ⟨_, _, rfl, ⟨rfl, -⟩, h⟩ := matches_all_cons.mp h
  obtain ⟨_, _, rfl, hword, rfl, -⟩ := matches_all_cons.mp h
  obtain ⟨p, hp, hspelled⟩ := hspell _ _ _ hword
  rw [List.append_nil, List.nil_append]
  exact ⟨p, hp, x, _, y, rfl, hspelled⟩

theorem root_cases {tail : Regex UInt16} {before : Option UInt16} {m rest : JsString}
    (h : Matches isWord (.seq rmSlash tail) before m rest) :
    Matches isWord (.seq rmEscaping tail) before m rest ∨ SpelledIn "rm -rf" m := by
  obtain ⟨m₁, m₂, rfl, hrm, htail⟩ := h
  rcases rm_cases hrm with hrm | hspelled
  · exact .inl ⟨m₁, m₂, rfl, hrm, htail⟩
  · exact .inr (spelledIn_append hspelled [] m₂)

/-- What the backstop matches escapes, or spells a text of agentd. -/
theorem escapes_or_spelled (h : isCatastrophic command = true) :
    (∃ re ∈ escaping, re.test isWord command = true) ∨ ∃ p ∈ plainTexts, SpelledIn p command := by
  obtain ⟨re, hre, hfound⟩ := isCatastrophic_iff.mp h
  obtain ⟨x, m, y, rfl, hm⟩ := test_iff.mp hfound
  have hescape : ∀ {re}, re ∈ escaping → Matches isWord re (lastOf none x) m y →
      (∃ re ∈ escaping, re.test isWord (x ++ (m ++ y)) = true) ∨
        ∃ p ∈ plainTexts, SpelledIn p (x ++ (m ++ y)) :=
    fun hre hm => .inl ⟨_, hre, test_iff.mpr ⟨x, m, y, rfl, hm⟩⟩
  simp only [catastrophic_eq, List.mem_cons, List.not_mem_nil, or_false] at hre
  rcases hre with rfl | rfl | rfl | rfl | rfl | rfl | rfl | rfl
  · rcases root_cases hm with hm | hspelled
    · exact hescape (by simp [escaping]) hm
    · exact .inr ⟨_, by decide, spelledIn_append hspelled x y⟩
  · rcases root_cases hm with hm | hspelled
    · exact hescape (by simp [escaping]) hm
    · exact .inr ⟨_, by decide, spelledIn_append hspelled x y⟩
  · exact .inr (spelled_of_wordAlone hm fun _ _ _ hword =>
      ⟨"mkfs", by decide, spell_of_litI (by decide) hword⟩)
  · exact hescape (by simp [escaping]) hm
  · refine .inr (spelled_of_wordAlone hm fun _ _ _ hword => ?_)
    obtain ⟨re, hre, hword⟩ := matches_any.mp hword
    simp only [List.mem_cons, List.not_mem_nil, or_false] at hre
    rcases hre with rfl | rfl | rfl | rfl
    · exact ⟨"shutdown", by decide, spell_of_litI (by decide) hword⟩
    · exact ⟨"reboot", by decide, spell_of_litI (by decide) hword⟩
    · exact ⟨"halt", by decide, spell_of_litI (by decide) hword⟩
    · exact ⟨"poweroff", by decide, spell_of_litI (by decide) hword⟩
  · exact hescape (by simp [escaping]) hm
  · rcases pipe_cases hm with hm | ⟨p, hp, hspelled⟩
    · exact hescape (by simp [escaping]) hm
    · exact .inr ⟨p, List.mem_append_right _ hp, spelledIn_append hspelled x y⟩
  · rcases redirect_cases hm with hm | hspelled
    · exact hescape (by simp [escaping]) hm
    · exact .inr ⟨_, by decide, spelledIn_append hspelled x y⟩

/-- The texts are ASCII, and as normalization leaves them. -/
theorem plainTexts_normal : ∀ p ∈ plainTexts, (p ∈ dangerousCommands ∨ p ∈ pipeToShell) ∧
    isLowerText p = true ∧ p.toList.all isPlain = true ∧
    joinWords Unicode.ascii p.toList = p.toList := by
  decide

/-- agentd finds a text wherever it is spelled. -/
theorem infix_of_spelledIn {p : String} (hp : p ∈ plainTexts) (h : SpelledIn p command)
    {s : List Char} (hs : decode? command = some s) :
    p.toList <:+: normalizeCommand u (String.ofList s) := by
  obtain ⟨-, hlower, hplain, hnormal⟩ := plainTexts_normal p hp
  obtain ⟨x, t, y, rfl, hascii, hspelled⟩ := h
  obtain ⟨s₁, s₂, rfl⟩ := decode?_part (fun a ha => (hascii a ha).trans (by decide)) hs
  have hfound : (chars t).map Char.toLower <:+: toLowercase u (s₁ ++ (chars t ++ s₂)) :=
    map_toLower_infix u hspelled.ascii s₁ s₂
  have hkept : ((chars t).map Char.toLower).filter isPlain = (chars t).map Char.toLower := by
    refine List.filter_eq_self.mpr ?_
    intro c hc
    rcases hspelled.mem_or_blank c hc with hc | hc
    · exact List.all_eq_true.mp hplain c hc
    · refine isPlain_of_isWhitespace u c ?_
      rw [u.isWhitespace_ascii c (toNat_lt_of_asciiWhitespace hc), hc]
  have hpart := joinWords_mono u (hfound.filter isPlain)
  rwa [hkept, hspelled.joinWords_eq, (words_ascii u (ascii_of_isLowerText hlower)).1, hnormal,
    ← String.toList_ofList (l := s₁ ++ (chars t ++ s₂)), ← normalizeCommand_eq] at hpart

/-- agentd can read the command, and finds one of its texts in the normalized form or knows
the whole of it by name. -/
def Mentions (u : Unicode) (gate : ApprovalGate) (command : JsString) : Prop :=
  ∃ s, decode? command = some s ∧ (Covered u gate.extraPatterns (String.ofList s) ∨
    Named u gate.extraPatterns (String.ofList s))

theorem mentions_iff : Mentions u gate command ↔ DestructiveFor u gate command :=
  exists_congr fun _ => and_congr_right fun _ => (isDestructive_iff_named u).symm

/-- What the backstop blocks without a verdict, agentd finds destructive, if and only if a
spelling that escapes comes with a text that agentd finds all the same. -/
theorem backstop_within_policy_iff (u : Unicode) (gate : ApprovalGate) (command : JsString) :
    (isCatastrophic command = true → DestructiveFor u gate command) ↔
      (Escapes command → Mentions u gate command) := by
  rw [mentions_iff]
  constructor
  · exact fun h hescapes => h (isCatastrophic_of_escapes hescapes)
  · intro h hcatastrophic
    cases hread : decode? command with
    | none =>
      obtain ⟨re, listed, found⟩ := isCatastrophic_iff.mp hcatastrophic
      exact h (.illFormed hread listed found)
    | some s =>
      rcases escapes_or_spelled hcatastrophic with ⟨re, listed, found⟩ | ⟨p, hp, hspelled⟩
      · exact h (.spelling listed found)
      · refine mentions_iff.mp ⟨s, hread, .inl ((covered_iff u).mpr ?_)⟩
        have hfound := infix_of_spelledIn (u := u) hp hspelled hread
        rcases (plainTexts_normal p hp).1 with hlisted | hlisted
        · exact .inl ⟨p, hlisted, hfound⟩
        · exact .inr (.inr ⟨p, hlisted, hfound⟩)

end Policy

/-- An outage blocks the command, and agentd with its own texts lets it run. -/
def BlockedByOutage (command : String) : Prop :=
  isCatastrophic (utf16 command) = true ∧ ¬ DestructiveFor .ascii (.new []) (utf16 command)

theorem blockedByOutage_iff {command : String} : BlockedByOutage command ↔
    isCatastrophic (utf16 command) = true ∧ isDestructive .ascii [] command = false := by
  unfold BlockedByOutage DestructiveFor
  simp only [decode?_utf16, Option.some.injEq, exists_eq_left', String.ofList_toList,
    Bool.not_eq_true]
  rfl

instance (command : String) : Decidable (BlockedByOutage command) :=
  decidable_of_iff _ blockedByOutage_iff.symm

/-- One command for each of the patterns from which something escapes. -/
theorem outage_blocks_more :
    BlockedByOutage "rm -fr /" ∧ BlockedByOutage "rm -r /*" ∧
      BlockedByOutage "dd bs=1M of=/dev/sda if=image" ∧
      BlockedByOutage ":() \x7b :|:& \x7d;:" ∧
      BlockedByOutage "curl https://get.example | sudo bash" ∧
      BlockedByOutage "cat image >/dev/sda" := by
  decide +kernel

end OsModa.Gateway
