import OsModa.Base.Encoding
import OsModa.Teachd.SkillLifecycle

/-!
The ids, names and files of skill candidates.

An id is made of the joined tools, cut off at 60 characters, and a name of the tools without
their prefixes. Neither tells all tool sequences apart. They do as long as no tool name has
a dash, the joined tools are short, and no two sequences are the same but for the prefixes
(`skills_identified`).
-/

namespace OsModa.Teachd

open OsModa.Text OsModa.Machine OsModa.Encoding

/-- Candidates are told apart by name and by file, and the sequences that a detection considers
by id, from each other and from those that are stored. -/
structure SkillsIdentified (t : SkillsStep) : Prop where
  names : (t.after.candidates.rows.map (·.name)).Nodup
  paths : ∀ c ∈ t.after.candidates.rows, ∀ c' ∈ t.after.candidates.rows, ∀ path,
    c.skillPath = some path → c'.skillPath = some path → c = c'
  ids : ∀ d, t.input = .detect d → ∀ s ∈ d.sequences t.before,
    (∀ s' ∈ d.sequences t.before,
        "sc-" ++ slugFromTools s.tools = "sc-" ++ slugFromTools s'.tools → s.tools = s'.tools) ∧
      ∀ c ∈ t.after.candidates.rows, c.id = "sc-" ++ slugFromTools s.tools → c.tools = s.tools

/-! ### Sequences that are told apart -/

/-- No tool name has a dash, and the joined names are at most 60 bytes long. -/
structure Plain (tools : List String) : Prop where
  dashFree : ∀ tool ∈ tools, '-' ∉ tool.toList
  short : ("-".intercalate tools).utf8ByteSize ≤ 60

/-- The sequences agree tool by tool, but for the prefixes. -/
def Alike (tools tools' : List String) : Prop := tools.map stripTool = tools'.map stripTool

instance (tools tools' : List String) : Decidable (Alike tools tools') :=
  inferInstanceAs (Decidable (_ = _))

/-- The sequences that a detection considers are plain, and not like any other of them or of
those with a candidate. -/
structure Unlike (sequences : List (List String)) (candidates : List SkillCandidate) : Prop where
  plain : ∀ tools ∈ sequences, Plain tools
  unlike : ∀ tools ∈ sequences, ∀ tools' ∈ sequences ++ candidates.map (·.tools),
    Alike tools tools' → tools = tools'

/-- A step detects no sequences that are easily confused. -/
def DetectsUnlike (t : SkillsStep) : Prop :=
  match t.input with
  | .detect d => Unlike ((d.sequences t.before).map (·.tools)) t.before.candidates.rows
  | _ => True

section

variable {tools tools' : List String}

theorem slugFromTools_of_short (h : Plain tools) : slugFromTools tools = "-".intercalate tools := by
  rw [slugFromTools, if_neg (by simpa using h.short)]

/-- Words without a dash are read back from the joined text. -/
theorem string_intercalate_inj {sep : String} (rest : List Char) (hsep : sep.toList = '-' :: rest)
    (hfree : ∀ tool ∈ tools, '-' ∉ tool.toList) (hfree' : ∀ tool ∈ tools', '-' ∉ tool.toList)
    (hne : tools ≠ []) (hne' : tools' ≠ []) (h : sep.intercalate tools = sep.intercalate tools') :
    tools = tools' := by
  have hchars := congrArg String.toList h
  rw [String.toList_intercalate, String.toList_intercalate, hsep] at hchars
  refine List.map_injective_iff.mpr (fun _ _ => String.toList_inj.mp) (intercalate_inj ?_ ?_ ?_ ?_ hchars)
  · simpa using hfree
  · simpa using hfree'
  · simpa using hne
  · simpa using hne'

theorem slugFromTools_inj (hplain : Plain tools) (hplain' : Plain tools') (hne : tools ≠ [])
    (hne' : tools' ≠ [])
    (h : "sc-" ++ slugFromTools tools = "sc-" ++ slugFromTools tools') : tools = tools' := by
  rw [slugFromTools_of_short hplain, slugFromTools_of_short hplain', String.append_right_inj] at h
  exact string_intercalate_inj [] rfl hplain.dashFree hplain'.dashFree hne hne' h

/-- What is left of a tool name is a part of it. -/
theorem mem_of_mem_stripTool {tool : String} {ch : Char} (h : ch ∈ (stripTool tool).toList) :
    ch ∈ tool.toList := by
  have hstrip : ∀ {start s : String}, stripPrefix? start tool = some s → ch ∈ s.toList →
      ch ∈ tool.toList := by
    intro start s hs hch
    unfold stripPrefix? at hs
    split at hs
    · obtain rfl := Option.some.inj hs
      rw [String.toList_ofList] at hch
      exact List.mem_of_mem_drop hch
    · cases hs
  unfold stripTool at h
  cases hsystem : stripPrefix? "system_" tool with
  | some s => exact hstrip hsystem (by simpa [hsystem] using h)
  | none =>
    cases hservice : stripPrefix? "service_" tool with
    | some s => exact hstrip hservice (by simpa [hsystem, hservice] using h)
    | none =>
      cases hshell : stripPrefix? "shell_" tool with
      | some s => exact hstrip hshell (by simpa [hsystem, hservice, hshell] using h)
      | none => simpa [hsystem, hservice, hshell] using h

/-- Two plain sequences with one name are alike. -/
theorem alike_of_name (hplain : Plain tools) (hplain' : Plain tools') (hne : tools ≠ [])
    (hne' : tools' ≠ []) (h : skillNameFromTools tools = skillNameFromTools tools') :
    Alike tools tools' := by
  have hfree : ∀ {tools : List String}, Plain tools → ∀ tool ∈ tools.map stripTool,
      '-' ∉ tool.toList := by
    intro tools hplain stripped hstripped hdash
    obtain ⟨tool, htool, rfl⟩ := List.mem_map.mp hstripped
    exact hplain.dashFree tool htool (mem_of_mem_stripTool hdash)
  exact string_intercalate_inj "and-".toList rfl (hfree hplain) (hfree hplain')
    (by simpa using hne) (by simpa using hne') h

/-! ### What is detected -/

theorem mem_windows {size : Nat} {window : List String} :
    window ∈ windows size tools ↔ window <:+: tools ∧ window.length = size := by
  unfold windows
  rw [List.mem_filterMap]
  constructor
  · rintro ⟨rest, hrest, hwindow⟩
    split at hwindow
    · rename_i hsize
      obtain rfl := Option.some.inj hwindow
      refine ⟨(List.take_prefix _ _).isInfix.trans ((List.mem_tails _ _).mp hrest).isInfix, ?_⟩
      rw [List.length_take, min_eq_left hsize]
    · cases hwindow
  · rintro ⟨⟨before, after, rfl⟩, rfl⟩
    refine ⟨window ++ after, (List.mem_tails _ _).mpr ⟨before, by rw [List.append_assoc]⟩, ?_⟩
    rw [if_pos (by simp), List.take_left']
    rfl

/-- The windows of three to six tools. -/
theorem mem_windowsOf {window : List String} :
    window ∈ windowsOf tools ↔ window <:+: tools ∧ 3 ≤ window.length ∧ window.length ≤ 6 := by
  unfold windowsOf
  split
  · rename_i hshort
    refine iff_of_false List.not_mem_nil ?_
    rintro ⟨hpart, hthree, -⟩
    have := hpart.length_le
    omega
  · simp only [List.mem_flatMap, mem_windows, List.mem_range'_1]
    constructor
    · rintro ⟨size, hsize, hpart, rfl⟩
      exact ⟨hpart, by omega⟩
    · rintro ⟨hpart, hthree, hsix⟩
      have := hpart.length_le
      exact ⟨window.length, by omega, hpart, rfl⟩

theorem ne_nil_of_mem_windowsOf {window : List String} (h : window ∈ windowsOf tools) :
    window ≠ [] := by
  rintro rfl
  exact absurd (mem_windowsOf.mp h).2.1 (by simp)

theorem mem_keepUndominated {s c : ToolSequenceCandidate} {kept : List ToolSequenceCandidate}
    (h : s ∈ keepUndominated kept c) : s ∈ kept ∨ s = c := by
  unfold keepUndominated at h
  split at h
  · exact .inl h
  · simpa using h

theorem mem_foldl_keepUndominated {s : ToolSequenceCandidate}
    {candidates kept : List ToolSequenceCandidate} (h : s ∈ candidates.foldl keepUndominated kept) :
    s ∈ kept ∨ s ∈ candidates := by
  induction candidates generalizing kept with
  | nil => exact .inl h
  | cons c candidates ih =>
    rcases ih h with hkept | hrest
    · rcases mem_keepUndominated hkept with hold | rfl
      · exact .inl hold
      · exact .inr List.mem_cons_self
    · exact .inr (List.mem_cons_of_mem _ hrest)

/-- A sequence that is considered has tools. -/
theorem ne_nil_of_mem_sequences {d : Detection} {db : SkillsDb} {s : ToolSequenceCandidate}
    (h : s ∈ d.sequences db) : s.tools ≠ [] := by
  have hfound := (mem_foldl_keepUndominated (List.mem_of_mem_take h)).resolve_left List.not_mem_nil
  rw [OrderBy.mem_arrange, List.mem_filter, List.mem_map] at hfound
  obtain ⟨⟨window, hwindow, rfl⟩, -⟩ := hfound
  obtain ⟨session, -, hmem⟩ := List.mem_flatMap.mp (List.mem_dedup.mp hwindow)
  exact ne_nil_of_mem_windowsOf hmem

end

/-! ### Candidates that are told apart -/

/-- Each candidate has the id and the name of its tools, and no two are alike. -/
structure Identified (candidates : Table SkillCandidate.id) : Prop where
  plain : ∀ c ∈ candidates.rows, Plain c.tools ∧ c.tools ≠ []
  id : ∀ c ∈ candidates.rows, c.id = "sc-" ++ slugFromTools c.tools
  name : ∀ c ∈ candidates.rows, c.name = skillNameFromTools c.tools
  unlike : ∀ c ∈ candidates.rows, ∀ c' ∈ candidates.rows, Alike c.tools c'.tools → c.tools = c'.tools

/-- A candidate's file, if there is one, is that of its name. -/
def Filed (skillsDir : String) (candidates : Table SkillCandidate.id) : Prop :=
  ∀ c ∈ candidates.rows, ∀ path, c.skillPath = some path →
    path = skillFilePath skillsDir c.name ∧ c.name.toList ≠ [] ∧ '/' ∉ c.name.toList

section

variable {skillsDir : String} {candidates : Table SkillCandidate.id}

theorem Identified.eq_of_name (h : Identified candidates) {c c' : SkillCandidate}
    (hc : c ∈ candidates.rows) (hc' : c' ∈ candidates.rows) (hname : c.name = c'.name) : c = c' := by
  obtain ⟨hplain, hne⟩ := h.plain c hc
  obtain ⟨hplain', hne'⟩ := h.plain c' hc'
  rw [h.name c hc, h.name c' hc'] at hname
  have htools := h.unlike c hc c' hc' (alike_of_name hplain hplain' hne hne' hname)
  exact Table.eq_of_key hc hc' (by rw [h.id c hc, h.id c' hc', htools])

theorem Identified.nodup_names (h : Identified candidates) :
    (candidates.rows.map (·.name)).Nodup :=
  (List.Nodup.of_map _ candidates.nodup_keys).map_on fun _ hc _ hc' => h.eq_of_name hc hc'

/-- Names without a slash have their own files. -/
theorem skillFilePath_inj {name name' : String} (hne : name.toList ≠ []) (hne' : name'.toList ≠ [])
    (hslash : '/' ∉ name.toList) (hslash' : '/' ∉ name'.toList)
    (h : skillFilePath skillsDir name = skillFilePath skillsDir name') : name = name' := by
  have hinner : ∀ name : String, ∃ dir : String,
      joinPath skillsDir ("auto-" ++ name) = dir ++ ("auto-" ++ name) ∧
        ∀ name', joinPath skillsDir ("auto-" ++ name') = dir ++ ("auto-" ++ name') := by
    intro name
    by_cases hdir : (skillsDir.isEmpty || skillsDir.toList.getLast? = some '/') = true
    · exact ⟨skillsDir, by rw [joinPath, if_pos hdir], fun name' => by rw [joinPath, if_pos hdir]⟩
    · exact ⟨skillsDir ++ "/", by rw [joinPath, if_neg hdir], fun name' => by rw [joinPath, if_neg hdir]⟩
  obtain ⟨dir, hdir, hdirs⟩ := hinner name
  -- A name is not empty and has no slash, so one is put after it.
  have houter : ∀ name : String, name.toList ≠ [] → '/' ∉ name.toList →
      joinPath (dir ++ ("auto-" ++ name)) "SKILL.md" = dir ++ ("auto-" ++ name) ++ "/" ++ "SKILL.md" := by
    intro name hne hslash
    rw [joinPath, if_neg]
    simp only [String.toList_append, Bool.or_eq_true, decide_eq_true_eq, not_or]
    constructor
    · simp
    · rw [List.getLast?_append_of_ne_nil _ (by simp), List.getLast?_append_of_ne_nil _ hne]
      exact fun hlast => hslash (List.mem_of_getLast? hlast)
  rw [skillFilePath, skillFilePath, hdir, hdirs name', houter name hne hslash,
    houter name' hne' hslash', String.append_left_inj, String.append_left_inj,
    String.append_right_inj, String.append_right_inj] at h
  exact h

theorem Identified.eq_of_path (h : Identified candidates) (hfiled : Filed skillsDir candidates)
    {c c' : SkillCandidate} (hc : c ∈ candidates.rows) (hc' : c' ∈ candidates.rows) {path : String}
    (hpath : c.skillPath = some path) (hpath' : c'.skillPath = some path) : c = c' := by
  obtain ⟨hfile, hne, hslash⟩ := hfiled c hc path hpath
  obtain ⟨hfile', hne', hslash'⟩ := hfiled c' hc' path hpath'
  exact h.eq_of_name hc hc' (skillFilePath_inj hne hne' hslash hslash' (hfile.symm.trans hfile'))

/-! ### Steps -/

/-- A new candidate keeps the others apart. -/
theorem Identified.put {now : DateTime} {s : ToolSequenceCandidate} (h : Identified candidates)
    (hplain : Plain s.tools) (hne : s.tools ≠ [])
    (hunlike : ∀ c ∈ candidates.rows, Alike s.tools c.tools → s.tools = c.tools) :
    Identified (candidates.put (newCandidate now s)) := by
  refine ⟨fun c hc => ?_, fun c hc => ?_, fun c hc => ?_, fun c hc c' hc' halike => ?_⟩
  · rcases Table.mem_rows_put.mp hc with rfl | ⟨hold, -⟩
    · exact ⟨hplain, hne⟩
    · exact h.plain c hold
  · rcases Table.mem_rows_put.mp hc with rfl | ⟨hold, -⟩
    · rfl
    · exact h.id c hold
  · rcases Table.mem_rows_put.mp hc with rfl | ⟨hold, -⟩
    · rfl
    · exact h.name c hold
  · rcases Table.mem_rows_put.mp hc with rfl | ⟨hold, -⟩ <;> rcases Table.mem_rows_put.mp hc' with rfl | ⟨hold', -⟩
    · rfl
    · exact hunlike c' hold' halike
    · exact (hunlike c hold halike.symm).symm
    · exact h.unlike c hold c' hold' halike

/-- The candidates in the course of a detection: those there were, and those of its sequences. -/
structure Detected (sequences : List ToolSequenceCandidate) (before candidates : Table SkillCandidate.id) :
    Prop where
  identified : Identified candidates
  origin : ∀ c ∈ candidates.rows, c ∈ before.rows ∨
    c.skillPath = none ∧ ∃ s ∈ sequences, c.tools = s.tools

theorem Detected.consider {sequences : List ToolSequenceCandidate} {before : Table SkillCandidate.id}
    (h : Detected sequences before candidates)
    (hunlike : Unlike (sequences.map (·.tools)) before.rows) (now : DateTime)
    (listing : OrderBy candidateKey) {s : ToolSequenceCandidate} (hs : s ∈ sequences)
    (hne : s.tools ≠ []) :
    Detected sequences before (considerSequence now listing candidates s) := by
  rcases considerSequence_cases now listing candidates s with hsame | ⟨-, hput⟩
  · rwa [hsame]
  · rw [hput]
    have hmem : s.tools ∈ sequences.map (·.tools) := List.mem_map_of_mem hs
    refine ⟨h.identified.put (hunlike.plain _ hmem) hne fun c hc => ?_, fun c hc => ?_⟩
    · refine hunlike.unlike _ hmem _ (List.mem_append.mpr ?_)
      rcases h.origin c hc with hold | ⟨-, s', hs', htools⟩
      · exact .inr (List.mem_map_of_mem hold)
      · exact .inl (htools ▸ List.mem_map_of_mem hs')
    · rcases Table.mem_rows_put.mp hc with rfl | ⟨hold, -⟩
      · exact .inr ⟨rfl, s, hs, rfl⟩
      · exact h.origin c hold

theorem Detected.foldl {sequences rest : List ToolSequenceCandidate} {before : Table SkillCandidate.id}
    (h : Detected sequences before candidates)
    (hunlike : Unlike (sequences.map (·.tools)) before.rows) (now : DateTime)
    (listing : OrderBy candidateKey) (hrest : ∀ s ∈ rest, s ∈ sequences ∧ s.tools ≠ []) :
    Detected sequences before (rest.foldl (considerSequence now listing) candidates) := by
  induction rest generalizing candidates with
  | nil => exact h
  | cons s rest ih =>
    obtain ⟨⟨hs, hne⟩, hrest⟩ := List.forall_mem_cons.mp hrest
    exact ih (h.consider hunlike now listing hs hne) hrest

theorem detected_runSkillgenCycle {d : Detection} {db : SkillsDb} (h : Identified db.candidates)
    (hunlike : Unlike ((d.sequences db).map (·.tools)) db.candidates.rows) :
    Detected (d.sequences db) db.candidates (runSkillgenCycle d db).candidates :=
  Detected.foldl ⟨h, fun _ hc => .inl hc⟩ hunlike d.now d.listing fun _ hs =>
    ⟨hs, ne_nil_of_mem_sequences hs⟩

/-- The same skill, perhaps with a file since. -/
structure SameSkill (skillsDir : String) (c c' : SkillCandidate) : Prop where
  id : c'.id = c.id
  name : c'.name = c.name
  tools : c'.tools = c.tools
  file : c'.skillPath = c.skillPath ∨
    ∃ write path, writeSkillFile skillsDir write c = .ok path ∧ c'.skillPath = some path

theorem SameSkill.refl (skillsDir : String) (c : SkillCandidate) : SameSkill skillsDir c c :=
  ⟨rfl, rfl, rfl, .inl rfl⟩

/-- Every candidate of a table is one of another, perhaps with a file since. -/
def KeepsSkills (skillsDir : String) (before after : Table SkillCandidate.id) : Prop :=
  ∀ c' ∈ after.rows, ∃ c ∈ before.rows, SameSkill skillsDir c c'

theorem KeepsSkills.refl (skillsDir : String) (candidates : Table SkillCandidate.id) :
    KeepsSkills skillsDir candidates candidates :=
  fun c hc => ⟨c, hc, .refl skillsDir c⟩

theorem KeepsSkills.put {c c' : SkillCandidate} (hc : c ∈ candidates.rows)
    (hsame : SameSkill skillsDir c c') : KeepsSkills skillsDir candidates (candidates.put c') := by
  intro d hd
  rcases Table.mem_rows_put.mp hd with rfl | ⟨hold, -⟩
  · exact ⟨c, hc, hsame⟩
  · exact ⟨d, hold, .refl skillsDir d⟩

theorem KeepsSkills.identified {after : Table SkillCandidate.id}
    (hkeeps : KeepsSkills skillsDir candidates after) (h : Identified candidates) :
    Identified after := by
  refine ⟨fun c hc => ?_, fun c hc => ?_, fun c hc => ?_, fun c hc c' hc' halike => ?_⟩
  all_goals obtain ⟨d, hd, hsame⟩ := hkeeps c hc
  · rw [hsame.tools]
    exact h.plain d hd
  · rw [hsame.id, hsame.tools]
    exact h.id d hd
  · rw [hsame.name, hsame.tools]
    exact h.name d hd
  · obtain ⟨d', hd', hsame'⟩ := hkeeps c' hc'
    rw [hsame.tools, hsame'.tools] at halike ⊢
    exact h.unlike d hd d' hd' halike

theorem writeSkillFile_ok {write : Except String Unit} {c : SkillCandidate} {path : String}
    (h : writeSkillFile skillsDir write c = .ok path) :
    path = skillFilePath skillsDir c.name ∧ c.name.toList ≠ [] ∧ '/' ∉ c.name.toList := by
  unfold writeSkillFile at h
  dsimp only at h
  split at h
  · cases h
  · rename_i hvalid
    cases write with
    | error e => cases h
    | ok done =>
      cases h
      simp only [Bool.or_eq_true, not_or] at hvalid
      exact ⟨rfl, by simpa using hvalid.2, by simpa using hvalid.1.1.1⟩

theorem KeepsSkills.filed {after : Table SkillCandidate.id}
    (hkeeps : KeepsSkills skillsDir candidates after) (h : Filed skillsDir candidates) :
    Filed skillsDir after := by
  intro c hc path hpath
  obtain ⟨d, hd, hsame⟩ := hkeeps c hc
  rw [hsame.name]
  rcases hsame.file with hfile | ⟨write, path', hwrite, hfile⟩
  · exact h d hd path (hfile ▸ hpath)
  · obtain rfl := Option.some.inj (hfile.symm.trans hpath)
    exact writeSkillFile_ok hwrite

theorem keepsSkills_generate (id : String) (now : DateTime) (write : Except String Unit)
    (db : SkillsDb) : KeepsSkills skillsDir db.candidates
      (skillGenerate skillsDir id now write db).2.candidates := by
  unfold skillGenerate
  cases hfind : db.candidates.find? id with
  | none => exact .refl _ _
  | some c =>
    by_cases hstatus : c.status = .pending
    · cases hwrite : writeSkillFile skillsDir write c with
      | error e => simpa [hstatus, hwrite] using KeepsSkills.refl _ _
      | ok path =>
        simp only [hstatus, hwrite, ne_eq, not_true, if_false]
        exact .put (List.mem_of_find?_eq_some hfind) ⟨rfl, rfl, rfl, .inr ⟨write, path, hwrite, rfl⟩⟩
    · simpa [hstatus] using KeepsSkills.refl _ _

theorem keepsSkills_promote (id : String) (now : DateTime) (db : SkillsDb) :
    KeepsSkills skillsDir db.candidates (skillPromote id now db).2.candidates := by
  unfold skillPromote
  cases hfind : db.candidates.find? id with
  | none => exact .refl _ _
  | some c =>
    by_cases hstatus : c.status = .generated
    · simp only [hstatus, ne_eq, not_true, if_false]
      exact .put (List.mem_of_find?_eq_some hfind) ⟨rfl, rfl, rfl, .inl rfl⟩
    · simpa [hstatus] using KeepsSkills.refl _ _

theorem keepsSkills_verify (now : DateTime) (generatedOrder promotedOrder : OrderBy candidateKey)
    (db : SkillsDb) : KeepsSkills skillsDir db.candidates
      (runVerifyCycle now generatedOrder promotedOrder db).2.candidates := by
  intro c' hc'
  rcases foldl_storeVerified now db.executions
      (verifyListing generatedOrder promotedOrder db.candidates) db.candidates
      (nodup_verifyListing ..) (fun c hc => find?_of_mem_verifyListing hc) c'.id with
    hsame | ⟨d, hd, d', -, hverified, hfind⟩
  · exact ⟨c', Table.mem_rows_iff.mpr (hsame.symm.trans (Table.mem_rows_iff.mp hc')), .refl _ _⟩
  · have hd' : c' = d' := Option.some.inj ((Table.mem_rows_iff.mp hc').symm.trans hfind)
    refine ⟨d, Table.mem_rows_iff.mpr (find?_of_mem_verifyListing hd), ?_⟩
    unfold verifyCandidate at hverified
    dsimp only at hverified
    split at hverified
    · cases hverified
    · obtain ⟨status, -, rfl⟩ := Option.map_eq_some_iff.mp hverified
      exact hd' ▸ ⟨rfl, rfl, rfl, .inl rfl⟩

variable (u : Unicode)

/-- Every step but a detection keeps the skills. -/
theorem keepsSkills_step (e : SkillsEvent) (db : SkillsDb) (he : ∀ d, e ≠ .detect d) :
    KeepsSkills skillsDir db.candidates (skillsNext u skillsDir e db).2.candidates := by
  cases e with
  | observe id now body =>
    rw [show (skillsNext u skillsDir (.observe id now body) db).2.candidates = db.candidates from
      observeAction_candidates ..]
    exact .refl _ _
  | prune cutoff => exact .refl _ _
  | detect d => exact absurd rfl (he d)
  | generate id now write => exact keepsSkills_generate id now write db
  | promote id now => exact keepsSkills_promote id now db
  | execution e => exact .refl _ _
  | verify now generatedOrder promotedOrder => exact keepsSkills_verify now generatedOrder promotedOrder db

/-- The candidates are told apart, and each file is that of its name. -/
def SkillsDb.Told (skillsDir : String) (db : SkillsDb) : Prop :=
  Identified db.candidates ∧ Filed skillsDir db.candidates

theorem told_step {e : SkillsEvent} {db : SkillsDb} (h : db.Told skillsDir)
    (hunlike : DetectsUnlike (stepOf (skillsNext u skillsDir) e db)) :
    (skillsNext u skillsDir e db).2.Told skillsDir := by
  by_cases he : ∀ d, e ≠ .detect d
  · have hkeeps : KeepsSkills skillsDir db.candidates _ := keepsSkills_step u e db he
    exact ⟨hkeeps.identified h.1, hkeeps.filed h.2⟩
  · push Not at he
    obtain ⟨d, rfl⟩ := he
    have hdetected := detected_runSkillgenCycle h.1 hunlike
    refine ⟨hdetected.identified, fun c hc path hpath => ?_⟩
    rcases hdetected.origin c hc with hold | ⟨hnone, -⟩
    · exact h.2 c hold path hpath
    · rw [hnone] at hpath
      cases hpath

theorem skillsIdentified_step {e : SkillsEvent} {db : SkillsDb} (h : db.Told skillsDir)
    (hunlike : DetectsUnlike (stepOf (skillsNext u skillsDir) e db)) :
    SkillsIdentified (stepOf (skillsNext u skillsDir) e db) := by
  obtain ⟨hidentified, hfiled⟩ := told_step u h hunlike
  refine ⟨hidentified.nodup_names, fun c hc c' hc' path => hidentified.eq_of_path hfiled hc hc', ?_⟩
  intro d hd s hs
  rw [stepOf_input] at hd
  subst hd
  have hplain := hunlike.plain s.tools (List.mem_map_of_mem hs)
  have hne := ne_nil_of_mem_sequences hs
  refine ⟨fun s' hs' hid => ?_, fun c hc hid => ?_⟩
  · exact slugFromTools_inj hplain (hunlike.plain s'.tools (List.mem_map_of_mem hs')) hne
      (ne_nil_of_mem_sequences hs') hid
  · obtain ⟨hplain', hne'⟩ := hidentified.plain c hc
    exact slugFromTools_inj hplain' hplain hne' hne ((hidentified.id c hc).symm.trans hid)

/-- **Skills are told apart.** In a run of teachd from any recorded actions, as long as no
detection considers sequences that are easily confused, no two candidates have one name or
one file, and no two sequences one id. -/
theorem skills_identified (skillsDir : String) (actions : List AgentAction)
    (events : List SkillsEvent)
    (h : ∀ t ∈ trace (skillsNext u skillsDir) events ⟨actions, .empty, []⟩, DetectsUnlike t) :
    ∀ t ∈ trace (skillsNext u skillsDir) events ⟨actions, .empty, []⟩, SkillsIdentified t := by
  intro t ht
  have hstart : SkillsDb.Told skillsDir ⟨actions, .empty, []⟩ := by
    constructor
    · constructor <;> simp [Table.empty]
    · simp [Filed, Table.empty]
  have htold := (trace_invariant_of (I := SkillsDb.Told skillsDir)
    (fun e db htold hunlike => told_step u htold hunlike) hstart h ht).1
  obtain ⟨past, future, -, hstep⟩ := mem_trace_split ht
  have hunlike := h t ht
  rw [hstep] at htold hunlike ⊢
  exact skillsIdentified_step u htold hunlike

end

/-! ### Two services -/

def noon : DateTime := ⟨1767268800 * 1000000000, by decide⟩

/-- A sequence of tools in a session, all at noon. -/
def sessionActions (session : String) (tools : List String) : List AgentAction :=
  tools.map fun tool => ⟨session ++ tool, noon, session, tool, true⟩

/-- The sequence in three sessions. -/
def thrice (kind : String) (tools : List String) : List AgentAction :=
  ["1", "2", "3"].flatMap fun session => sessionActions (kind ++ session) tools

/-- A detection at noon, in the orders that keep ties as they are. -/
def detectAtNoon (actions : List AgentAction) : List SkillsStep :=
  trace (skillsNext Unicode.ascii "/skills") [.detect ⟨noon, .stable _, .stable _, .stable _⟩]
    ⟨actions, .empty, []⟩

theorem oneSequence_identified :
    SkillsIdentified (stepOf (skillsNext Unicode.ascii "/skills")
      (.detect ⟨noon, .stable _, .stable _, .stable _⟩)
      ⟨thrice "s" ["stop", "logs", "start"], .empty, []⟩) := by
  refine skills_identified Unicode.ascii "/skills" (thrice "s" ["stop", "logs", "start"])
    [.detect ⟨noon, .stable _, .stable _, .stable _⟩] (fun t ht => ?_) _ List.mem_cons_self
  obtain rfl := List.mem_singleton.mp ht
  refine ⟨?_, ?_⟩
  · have hshort : ∀ tools ∈ ((Detection.sequences ⟨noon, .stable _, .stable _, .stable _⟩
        ⟨thrice "s" ["stop", "logs", "start"], .empty, []⟩).map (·.tools)),
        (∀ tool ∈ tools, '-' ∉ tool.toList) ∧ ("-".intercalate tools).utf8ByteSize ≤ 60 := by
      decide +kernel
    exact fun tools htools => ⟨(hshort tools htools).1, (hshort tools htools).2⟩
  · decide +kernel

/-- The tools of the two sequences differ in their prefixes only. -/
theorem twoPrefixes_not_identified : ¬ ∀ t ∈ detectAtNoon
    (thrice "a" ["system_stop", "system_logs", "system_start"] ++
      thrice "b" ["service_stop", "service_logs", "service_start"]), SkillsIdentified t := by
  intro h
  have hnames := (h _ List.mem_cons_self).names
  revert hnames
  decide +kernel

end OsModa.Teachd
