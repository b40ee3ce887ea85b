import OsModa.Base.Replace
import OsModa.Base.TimeText
import OsModa.Teachd.Knowledge
import OsModa.Teachd.Skills

/-!
The text of a candidate's SKILL.md.

A new file says `activation: manual`. What is promoted or retired is found in the text by this
key, wherever it occurs. No line but the one of the activation has it, if there is no colon in
the names of the tools (`replace_skillMd`).
-/

namespace OsModa.Teachd

open OsModa.Text OsModa.Float64 OsModa.Replace

/-! ### The text of SKILL.md -/

/-- `char::to_uppercase`, which may yield several characters. -/
structure Uppercase where
  toUpper : Char → List Char
  toUpper_ascii : ∀ c : Char, c.toNat < 128 → toUpper c = [c.toUpper]
  colon : ∀ c : Char, ':' ∈ toUpper c → c = ':'

theorem eq_colon_of_toUpper {c : Char} (h : c.toUpper = ':') : c = ':' := by
  unfold Char.toUpper at h
  split at h
  · rename_i hlower
    rw [Char.ext_iff] at h
    have hnat := congrArg UInt32.toNat h
    have hlow : 97 ≤ c.val.toNat := hlower.1
    have hhigh : c.val.toNat ≤ 122 := hlower.2
    simp only [UInt32.toNat_add] at hnat
    rw [show ('A'.val - 'a'.val).toNat = 4294967264 by decide,
      show ':'.val.toNat = 58 by decide] at hnat
    omega
  · exact h

/-- The letters of ASCII only. -/
def Uppercase.ascii : Uppercase where
  toUpper c := [c.toUpper]
  toUpper_ascii _ _ := rfl
  colon _ h := eq_colon_of_toUpper (List.mem_singleton.mp h).symm

/-- `format("%Y-%m-%d")`. -/
def dateText (t : DateTime) : String :=
  let (year, month, day) := DateTime.civilFromDays (t.nanos / 1000000000 / 86400)
  DateTime.yearText year ++ "-" ++ DateTime.padded 2 month.toNat ++ "-" ++
    DateTime.padded 2 day.toNat

/-- `{:.2}` of a number that is not negative. -/
def twoDecimals (x : ℚ) : String :=
  let hundredths := (roundEven (x * 100)).toNat
  toString (hundredths / 100) ++ "." ++ DateTime.padded 2 (hundredths % 100)

def titleFromName (u : Unicode) (upper : Uppercase) (name : String) : String :=
  let words := splitWhitespace u (name.toList.map fun c => if c = '-' then ' ' else c)
  String.ofList ([' '].intercalate (words.map fun word =>
    match word with
    | [] => []
    | first :: rest => upper.toUpper first ++ rest))

/-- The lines up to the activation. -/
def skillMdHead (today : DateTime) (c : SkillCandidate) : List String :=
  ["---", "name: " ++ c.name, "description: >", "  " ++ c.description,
    "  Auto-generated from " ++ toString c.sessionCount ++ " observed sessions on " ++
      dateText today ++ ".",
    "tools:"] ++
  (if c.tools.isEmpty then [""] else c.tools.map fun tool => "  - " ++ tool)

/-- The step of a tool. -/
def stepLines (i : Nat) (tool : String) : List String :=
  [toString (i + 1) ++ ". Execute `" ++ tool ++ "`:", "   ```",
    "   " ++ tool ++ "(\x7b /* parameters */ \x7d)", "   ```", ""]

/-- The lines after the activation. -/
def skillMdRest (u : Unicode) (upper : Uppercase) (c : SkillCandidate) : List String :=
  ["auto_generated: true", "version: 1", "confidence: " ++ twoDecimals c.confidence, "---", "",
    "# " ++ titleFromName u upper c.name, "", c.description, "", "## Steps", ""] ++
  c.tools.zipIdx.flatMap (fun (tool, i) => stepLines i tool) ++
  [toString (c.tools.length + 1) ++ ". **Report results** (required for skill learning):", "   ```",
    "   teach_skill_execution(\x7b skill_name: \"" ++ c.name ++
      "\", outcome: \"success\" | \"failure\" | \"partial\", notes: \"<what happened>\" \x7d)",
    "   ```", "", "## Notes", "",
    "- This skill was auto-generated by teachd from repeated agent behavior.",
    "- Review and customize the parameters before promoting to auto-activation.",
    "- Confidence score: " ++ percent c.confidence ++ " (based on " ++ toString c.sessionCount ++
      " sessions).", ""]

/-- A SKILL.md file with an activation. -/
def skillMd (u : Unicode) (upper : Uppercase) (today : DateTime) (activation : String)
    (c : SkillCandidate) : List Char :=
  ['\n'].intercalate ((skillMdHead today c ++ ("activation: " ++ activation) ::
    skillMdRest u upper c).map String.toList)

/-- Generate a SKILL.md file from a candidate. -/
def generateSkillMd (u : Unicode) (upper : Uppercase) (today : DateTime) (c : SkillCandidate) :
    List Char := skillMd u upper today "manual" c

/-! ### Changes of the activation -/

def promoteText : List Char → List Char :=
  replace "activation: manual".toList "activation: auto".toList

def retireText : List Char → List Char :=
  replace "activation: auto".toList "activation: retired".toList

/-! ### Lines without an activation -/

/-- What the replaced parts start with. -/
def activationKey : List Char := "activation:".toList

/-- A line that no replacement of an activation changes. -/
def Unkeyed (line : String) : Prop := ¬ activationKey <:+: line.toList

def ColonFree (s : String) : Prop := ':' ∉ s.toList

instance (s : String) : Decidable (ColonFree s) := inferInstanceAs (Decidable (¬ _))

@[simp] theorem colonFree_append {s t : String} : ColonFree (s ++ t) ↔ ColonFree s ∧ ColonFree t := by
  simp [ColonFree]

theorem colonFree_of_digits {s : String} (h : ∀ c ∈ s.toList, c.isDigit = true) : ColonFree s :=
  fun hcolon => absurd (h ':' hcolon) (by decide)

@[simp] theorem colonFree_nat (n : Nat) : ColonFree (toString n) :=
  colonFree_of_digits fun _ hc => Nat.isDigit_of_mem_toDigits (b := 10) (by decide) (by decide)
    (by simpa [Nat.repr] using hc)

@[simp] theorem colonFree_padded (width n : Nat) : ColonFree (DateTime.padded width n) :=
  colonFree_of_digits fun _ => DateTime.isDigit_of_mem_padded

@[simp] theorem colonFree_int (i : Int) : ColonFree (toString i) := by
  cases i with
  | ofNat n => exact colonFree_nat n
  | negSucc n => exact colonFree_append.mpr ⟨by decide, colonFree_nat (n + 1)⟩

theorem Unkeyed.of_colonFree {line : String} (h : ColonFree line) : Unkeyed line :=
  not_infix_of_not_mem (by decide) h

/-- A key is read off at the colon that ends it. -/
theorem Unkeyed.of_colon {line : String} (before after : String)
    (hline : line.toList = before.toList ++ ':' :: after.toList) (hbefore : ColonFree before)
    (hkey : ¬ "activation".toList <:+ before.toList) (hafter : Unkeyed after) : Unkeyed line := by
  intro hinfix
  have hparts : "activation".toList ++ ':' :: [] <:+: before.toList ++ ':' :: after.toList :=
    hline ▸ hinfix
  rcases infix_append_cons (by decide) hbefore hparts with h | h
  · exact hkey h
  · exact hafter h

/-- The texts of a candidate that its file contains. -/
structure Clear (c : SkillCandidate) : Prop where
  name : ColonFree c.name
  description : ColonFree c.description
  tools : ∀ tool ∈ c.tools, ColonFree tool

theorem colonFree_dateText (t : DateTime) : ColonFree (dateText t) := by
  have hyear : ∀ year : Int, ColonFree (DateTime.yearText year) := by
    intro year
    unfold DateTime.yearText
    split_ifs
    · exact colonFree_padded _ _
    · exact colonFree_append.mpr ⟨by decide, colonFree_padded _ _⟩
    · exact colonFree_append.mpr ⟨by decide, colonFree_padded _ _⟩
  have hdash : ColonFree "-" := by decide
  simp only [dateText, colonFree_append, hyear, hdash, colonFree_padded, and_self]

theorem colonFree_twoDecimals (x : ℚ) : ColonFree (twoDecimals x) := by
  have hdot : ColonFree "." := by decide
  simp only [twoDecimals, colonFree_append, hdot, colonFree_nat, colonFree_padded, and_self]

theorem colonFree_title {u : Unicode} {upper : Uppercase} {name : String} (h : ColonFree name) :
    ColonFree (titleFromName u upper name) := by
  have hspaced : ':' ∉ name.toList.map fun c => if c = '-' then ' ' else c := by
    intro hcolon
    obtain ⟨c, hc, hmapped⟩ := List.mem_map.mp hcolon
    split at hmapped
    · revert hmapped
      decide
    · exact h (hmapped ▸ hc)
  unfold ColonFree titleFromName
  rw [String.toList_ofList]
  refine not_mem_intercalate (by decide) fun word hword => ?_
  obtain ⟨spoken, hspoken, rfl⟩ := List.mem_map.mp hword
  have hfree : ':' ∉ spoken := fun hcolon => hspaced
    (List.mem_of_mem_filter (flatten_splitWhitespace u _ ▸ List.mem_flatten_of_mem hspoken hcolon))
  cases spoken with
  | nil => exact List.not_mem_nil
  | cons first rest =>
    obtain ⟨hfirst, hrest⟩ := not_or.mp (mt List.mem_cons.mpr hfree)
    exact mt List.mem_append.mp (not_or.mpr ⟨fun hupper => hfirst (upper.colon first hupper).symm, hrest⟩)

theorem unkeyed_skillMdHead {c : SkillCandidate} (h : Clear c) (today : DateTime) :
    ∀ line ∈ skillMdHead today c, Unkeyed line := by
  intro line hline
  simp only [skillMdHead, List.cons_append, List.nil_append, List.mem_cons] at hline
  rcases hline with rfl | rfl | rfl | rfl | rfl | rfl | htool
  · exact .of_colonFree (by decide)
  · refine .of_colon "name" (" " ++ c.name) ?_ (by decide) (by decide) (.of_colonFree ?_)
    · simp only [String.toList_append]
      rfl
    · exact colonFree_append.mpr ⟨by decide, h.name⟩
  · exact .of_colon "description" " >" (by decide) (by decide) (by decide) (.of_colonFree (by decide))
  · exact .of_colonFree (colonFree_append.mpr ⟨by decide, h.description⟩)
  · refine .of_colonFree ?_
    have hfrom : ColonFree "  Auto-generated from " := by decide
    have hon : ColonFree " observed sessions on " := by decide
    have hdot : ColonFree "." := by decide
    simp only [colonFree_append, hfrom, hon, hdot, colonFree_nat, colonFree_dateText, and_self]
  · exact .of_colon "tools" "" (by decide) (by decide) (by decide) (.of_colonFree (by decide))
  · split at htool
    · rw [List.mem_singleton.mp htool]
      exact .of_colonFree (by decide)
    · obtain ⟨tool, hmem, rfl⟩ := List.mem_map.mp htool
      exact .of_colonFree (colonFree_append.mpr ⟨by decide, h.tools tool hmem⟩)

/-- Whether a text ends with the key is seen at its last character. -/
theorem not_key_suffix (s : List Char) (t : String) {c : Char}
    (h : t.toList.getLast? = some c ∧ c ≠ 'n') : ¬ "activation".toList <:+ s ++ t.toList := by
  rintro ⟨front, hfront⟩
  have hlast := congrArg List.getLast? hfront
  rw [List.getLast?_append_of_ne_nil _ (by decide),
    List.getLast?_append_of_ne_nil _ (fun hnil => by rw [hnil] at h; cases h.1), h.1] at hlast
  exact h.2 (Option.some.inj hlast).symm

theorem unkeyed_stepLines {tool : String} (h : ColonFree tool) (i : Nat) :
    ∀ line ∈ stepLines i tool, Unkeyed line := by
  intro line hline
  have hexecute : ColonFree ". Execute `" := by decide
  have htick : ColonFree "`" := by decide
  have hindent : ColonFree "   " := by decide
  have hcall : ColonFree "(\x7b /* parameters */ \x7d)" := by decide
  simp only [stepLines, List.mem_cons, List.not_mem_nil, or_false] at hline
  rcases hline with rfl | rfl | rfl | rfl | rfl
  · refine .of_colon (toString (i + 1) ++ ". Execute `" ++ tool ++ "`") "" ?_ ?_ ?_
      (.of_colonFree (by decide))
    · simp only [String.toList_append, List.append_assoc]
      rfl
    · simp only [colonFree_append, colonFree_nat, hexecute, h, htick, and_self]
    · rw [String.toList_append]
      exact not_key_suffix _ "`" ⟨rfl, by decide⟩
  · exact .of_colonFree (by decide)
  · exact .of_colonFree (by simp only [colonFree_append, hindent, h, hcall, and_self])
  · exact .of_colonFree (by decide)
  · exact .of_colonFree (by decide)

/-- The call that reports how the skill went has three keys. -/
theorem unkeyed_report {name : String} (h : ColonFree name) :
    Unkeyed ("   teach_skill_execution(\x7b skill_name: \"" ++ name ++
      "\", outcome: \"success\" | \"failure\" | \"partial\", notes: \"<what happened>\" \x7d)") := by
  have hskill : "   teach_skill_execution(\x7b skill_name: \"".toList =
      "   teach_skill_execution(\x7b skill_name".toList ++ ':' :: " \"".toList := by decide +kernel
  have houtcome :
      "\", outcome: \"success\" | \"failure\" | \"partial\", notes: \"<what happened>\" \x7d)".toList =
      "\", outcome".toList ++ ':' ::
        " \"success\" | \"failure\" | \"partial\", notes: \"<what happened>\" \x7d)".toList := by
    decide +kernel
  refine .of_colon "   teach_skill_execution(\x7b skill_name" (" \"" ++ name ++
    "\", outcome: \"success\" | \"failure\" | \"partial\", notes: \"<what happened>\" \x7d)")
    ?_ (by decide) (by decide +kernel) ?_
  · simp only [String.toList_append, hskill, List.append_assoc, List.cons_append]
  · refine .of_colon (" \"" ++ name ++ "\", outcome")
      " \"success\" | \"failure\" | \"partial\", notes: \"<what happened>\" \x7d)" ?_ ?_ ?_ ?_
    · simp only [String.toList_append, houtcome, List.append_assoc]
    · have hquote : ColonFree " \"" := by decide
      have hkey : ColonFree "\", outcome" := by decide
      simp only [colonFree_append, hquote, h, hkey, and_self]
    · rw [String.toList_append]
      exact not_key_suffix _ "\", outcome" ⟨rfl, by decide⟩
    · exact .of_colon " \"success\" | \"failure\" | \"partial\", notes"
        " \"<what happened>\" \x7d)" (by decide +kernel) (by decide) (by decide +kernel)
        (.of_colonFree (by decide))

theorem unkeyed_skillMdRest {c : SkillCandidate} (h : Clear c) (u : Unicode) (upper : Uppercase) :
    ∀ line ∈ skillMdRest u upper c, Unkeyed line := by
  intro line hline
  simp only [skillMdRest, List.cons_append, List.nil_append, List.mem_cons, List.mem_append,
    List.mem_flatMap, List.not_mem_nil, or_false] at hline
  rcases hline with rfl | rfl | rfl | rfl | rfl | rfl | rfl | rfl | rfl | rfl | rfl |
    ⟨⟨tool, i⟩, hmem, hstep⟩ | rfl | rfl | rfl | rfl | rfl | rfl | rfl | rfl | rfl | rfl | rfl
  · exact .of_colon "auto_generated" " true" (by decide) (by decide) (by decide) (.of_colonFree (by decide))
  · exact .of_colon "version" " 1" (by decide) (by decide) (by decide) (.of_colonFree (by decide))
  · refine .of_colon "confidence" (" " ++ twoDecimals c.confidence) ?_ (by decide) (by decide)
      (.of_colonFree ?_)
    · simp only [String.toList_append]
      rfl
    · exact colonFree_append.mpr ⟨by decide, colonFree_twoDecimals _⟩
  · exact .of_colonFree (by decide)
  · exact .of_colonFree (by decide)
  · exact .of_colonFree (colonFree_append.mpr ⟨by decide, colonFree_title h.name⟩)
  · exact .of_colonFree (by decide)
  · exact .of_colonFree h.description
  · exact .of_colonFree (by decide)
  · exact .of_colonFree (by decide)
  · exact .of_colonFree (by decide)
  · exact unkeyed_stepLines (h.tools tool (List.fst_mem_of_mem_zipIdx hmem)) i line hstep
  · refine .of_colon (toString (c.tools.length + 1) ++
      ". **Report results** (required for skill learning)") "" ?_ ?_ ?_ (.of_colonFree (by decide))
    · simp only [String.toList_append, List.append_assoc]
      rfl
    · exact colonFree_append.mpr ⟨colonFree_nat _, by decide⟩
    · rw [String.toList_append]
      exact not_key_suffix (c := ')') _ _ (by decide +kernel)
  · exact .of_colonFree (by decide)
  · exact unkeyed_report h.name
  · exact .of_colonFree (by decide)
  · exact .of_colonFree (by decide)
  · exact .of_colonFree (by decide)
  · exact .of_colonFree (by decide)
  · exact .of_colonFree (by decide +kernel)
  · exact .of_colonFree (by decide +kernel)
  · refine .of_colon "- Confidence score" (" " ++ percent c.confidence ++ " (based on " ++
      toString c.sessionCount ++ " sessions).") ?_ (by decide) (by decide) (.of_colonFree ?_)
    · simp only [String.toList_append, List.append_assoc]
      rfl
    · have hblank : ColonFree " " := by decide
      have hbased : ColonFree " (based on " := by decide
      have hend : ColonFree " sessions)." := by decide
      have hpercent : ColonFree "%" := by decide
      simp only [percent, colonFree_append, hblank, hbased, hend, hpercent, colonFree_int,
        colonFree_nat, and_self]
  · exact .of_colonFree (by decide)

/-- A replacement of an activation changes the line of the activation only. -/
theorem replace_skillMd {u : Unicode} {upper : Uppercase} {c : SkillCandidate} {part new : List Char}
    {activation activation' : String} (h : Clear c) (hkey : activationKey <:+: part)
    (hline : '\n' ∉ part)
    (hnew : replace part new ("activation: " ++ activation).toList =
      ("activation: " ++ activation').toList) (today : DateTime) :
    replace part new (skillMd u upper today activation c) =
      skillMd u upper today activation' c := by
  have hsame : ∀ line : String, Unkeyed line → replace part new line.toList = line.toList :=
    fun line hunkeyed => replace_of_not_infix fun hpart => hunkeyed (hkey.trans hpart)
  have hpart : part ≠ [] := by
    rintro rfl
    revert hkey
    decide
  unfold skillMd
  rw [replace_intercalate hline hpart, List.map_map, List.map_append, List.map_append, List.map_cons,
    List.map_cons]
  refine congrArg _ (congrArg₂ _ ?_ (congrArg₂ _ hnew ?_))
  · exact List.map_congr_left fun line hline => hsame line (unkeyed_skillMdHead h today line hline)
  · exact List.map_congr_left fun line hline => hsame line (unkeyed_skillMdRest h u upper line hline)

section Rewritten

variable {u : Unicode} {upper : Uppercase} {c : SkillCandidate}

theorem promoteText_manual (h : Clear c) (today : DateTime) :
    promoteText (skillMd u upper today "manual" c) = skillMd u upper today "auto" c :=
  replace_skillMd h (by decide) (by decide) (by decide) today

theorem retireText_auto (h : Clear c) (today : DateTime) :
    retireText (skillMd u upper today "auto" c) = skillMd u upper today "retired" c :=
  replace_skillMd h (by decide) (by decide) (by decide) today

/-- A retirement finds nothing in a file that missed its promotion. -/
theorem retireText_manual (h : Clear c) (today : DateTime) :
    retireText (skillMd u upper today "manual" c) = skillMd u upper today "manual" c :=
  replace_skillMd h (by decide) (by decide) (by decide) today

end Rewritten

end OsModa.Teachd
