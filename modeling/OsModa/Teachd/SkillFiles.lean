import OsModa.Teachd.SkillText
import OsModa.Teachd.VerifyTwice

/-!
The SKILL.md files of skill candidates.

A candidate is generated with a file that says `activation: manual`. A promotion, by request or
by the verifier, replaces this by `activation: auto` in the file, and a retirement that by
`activation: retired`. A file that cannot be read or written is only logged, and the status
moves on. So the files follow the statuses throughout a run exactly when no such call fails
(`skill_files_follow_iff`), and a promotion that missed its file is never made up for
(`missed_promotion_stays`).
-/

namespace OsModa.Teachd

open OsModa.Text OsModa.Machine OsModa.Replace

/-! ### The machine with its files -/

/-- The texts of files by their paths. -/
abbrev Files := String → Option (List Char)

/-- Rewrite the file of a candidate; `rewrites` tells for which ids it can be read and written. -/
def rewriteSkillFile (rewrite : List Char → List Char) (rewrites : String → Bool)
    (c : SkillCandidate) (files : Files) : Files :=
  match c.skillPath with
  | none => files
  | some path =>
    if rewrites c.id then Function.update files path ((files path).map rewrite) else files

def promoteSkillFile : (String → Bool) → SkillCandidate → Files → Files := rewriteSkillFile promoteText

def retireSkillFile : (String → Bool) → SkillCandidate → Files → Files := rewriteSkillFile retireText

structure SkillsDisk where
  db : SkillsDb
  files : Files

/-- An event, the clock that dates a new file, and the files that can be rewritten. -/
structure DiskEvent where
  event : SkillsEvent
  today : DateTime
  rewrites : String → Bool

section Machine

variable (u : Unicode) (upper : Uppercase) (skillsDir : String)

/-- The file that `skillGenerate` writes. -/
def generateFile (id : String) (today : DateTime) (write : Except String Unit) (s : SkillsDisk) :
    Files :=
  match s.db.candidates.find? id with
  | none => s.files
  | some c =>
    if c.status ≠ .pending then s.files
    else
      match writeSkillFile skillsDir write c with
      | .error _ => s.files
      | .ok path => Function.update s.files path (some (generateSkillMd u upper today c))

/-- The file that `skillPromote` rewrites. -/
def promoteFile (id : String) (rewrites : String → Bool) (s : SkillsDisk) : Files :=
  match s.db.candidates.find? id with
  | none => s.files
  | some c => if c.status ≠ .generated then s.files else promoteSkillFile rewrites c s.files

/-- The file of a candidate that the verifier looks at. -/
def verifyFile (now : DateTime) (executions : List SkillExecution) (rewrites : String → Bool)
    (files : Files) (c : SkillCandidate) : Files :=
  match verifyCandidate now executions c with
  | none => files
  | some updated =>
    match c.status, updated.status with
    | .generated, .promoted => promoteSkillFile rewrites c files
    | .promoted, .retired => retireSkillFile rewrites c files
    | _, _ => files

def filesNext (e : DiskEvent) (s : SkillsDisk) : Files :=
  match e.event with
  | .generate id _ write => generateFile u upper skillsDir id e.today write s
  | .promote id _ => promoteFile id e.rewrites s
  | .verify now generatedOrder promotedOrder =>
    (verifyListing generatedOrder promotedOrder s.db.candidates).foldl
      (verifyFile now s.db.executions e.rewrites) s.files
  | .observe .. | .prune .. | .detect .. | .execution .. => s.files

def diskNext (e : DiskEvent) (s : SkillsDisk) : SkillsReply × SkillsDisk :=
  let (reply, db) := skillsNext u skillsDir e.event s.db
  (reply, ⟨db, filesNext u upper skillsDir e s⟩)

end Machine

/-! ### One step -/

/-- What a change of status rewrites in the file. -/
def rewriteOf : SkillCandidateStatus → SkillCandidateStatus → List Char → List Char
  | .generated, .promoted => promoteText
  | .promoted, .retired => retireText
  | _, _ => id

/-- The same texts, perhaps with another status and confidence. -/
structure SameDoc (c c' : SkillCandidate) : Prop where
  id : c'.id = c.id
  name : c'.name = c.name
  description : c'.description = c.description
  tools : c'.tools = c.tools
  sessionCount : c'.sessionCount = c.sessionCount

/-- A candidate is given its file. -/
structure Generates (u : Unicode) (upper : Uppercase) (files : Files) (c c' : SkillCandidate) :
    Prop where
  before : c.status = .pending
  after : c'.status = .generated
  file : ∃ path today, c'.skillPath = some path ∧
    files path = some (generateSkillMd u upper today c)

/-- A candidate keeps its file, whose text follows the status if it can be rewritten. -/
structure KeepsFile (rewritten : Bool) (files files' : Files) (c c' : SkillCandidate) : Prop where
  status : c'.status = c.status ∨ StatusEdge c.status c'.status ∧ c.status ≠ .pending
  path : c'.skillPath = c.skillPath
  file : ∀ path, c.skillPath = some path → files' path =
    if rewritten then (files path).map (rewriteOf c.status c'.status) else files path

theorem rewriteSkillFile_apply (rewrite : List Char → List Char) (rewrites : String → Bool)
    (c : SkillCandidate) (files : Files) (path : String) :
    rewriteSkillFile rewrite rewrites c files path =
      if c.skillPath = some path ∧ rewrites c.id = true then (files path).map rewrite
      else files path := by
  unfold rewriteSkillFile
  cases hpath : c.skillPath with
  | none => exact (if_neg fun h => by cases h.1).symm
  | some own =>
    by_cases hsame : own = path
    · subst hsame
      by_cases hrewrites : rewrites c.id = true
      · simp [hrewrites]
      · simp [hrewrites]
    · rw [if_neg fun h => hsame (Option.some.inj h.1)]
      split
      · exact Function.update_of_ne (Ne.symm hsame) _ _
      · rfl

/-- The verifier rewrites the file of the candidate that it moves. -/
theorem verifyFile_apply (now : DateTime) (executions : List SkillExecution)
    (rewrites : String → Bool) (files : Files) (c : SkillCandidate) (path : String) :
    verifyFile now executions rewrites files c path =
      if c.skillPath = some path ∧ rewrites c.id = true then
        (files path).map (((verifyCandidate now executions c).map fun updated =>
          rewriteOf c.status updated.status).getD id)
      else files path := by
  unfold verifyFile
  cases hverified : verifyCandidate now executions c with
  | none => simp
  | some updated =>
    simp only [Option.map_some, Option.getD_some]
    cases c.status <;> cases updated.status <;>
      simp [rewriteOf, promoteSkillFile, retireSkillFile, rewriteSkillFile_apply]

section Verifier

variable {now : DateTime} {executions : List SkillExecution} {rewrites : String → Bool}
  {listing : List SkillCandidate} {files : Files} {path : String}

theorem foldl_verifyFile_other (h : ∀ c ∈ listing, c.skillPath ≠ some path) :
    listing.foldl (verifyFile now executions rewrites) files path = files path := by
  induction listing generalizing files with
  | nil => rfl
  | cons c listing ih =>
    obtain ⟨hc, hrest⟩ := List.forall_mem_cons.mp h
    rw [List.foldl_cons, ih hrest, verifyFile_apply, if_neg fun hown => hc hown.1]

/-- The file that one candidate of the listing has is rewritten for that candidate. -/
theorem foldl_verifyFile_of_mem {c : SkillCandidate} (hnodup : (listing.map (·.id)).Nodup)
    (hc : c ∈ listing) (halone : ∀ d ∈ listing, d.skillPath = some path → d = c) :
    listing.foldl (verifyFile now executions rewrites) files path =
      verifyFile now executions rewrites files c path := by
  obtain ⟨before, after, rfl⟩ := List.append_of_mem hc
  rw [List.map_append, List.map_cons, List.nodup_append, List.nodup_cons] at hnodup
  obtain ⟨-, ⟨hafter, -⟩, hbefore⟩ := hnodup
  have hothers : ∀ d ∈ before, d.skillPath ≠ some path := by
    rintro d hd hpath
    obtain rfl := halone d (List.mem_append_left _ hd) hpath
    exact hbefore _ (List.mem_map_of_mem hd) _ List.mem_cons_self rfl
  have hrest : ∀ d ∈ after, d.skillPath ≠ some path := by
    rintro d hd hpath
    obtain rfl := halone d (List.mem_append_right _ (List.mem_cons_of_mem _ hd)) hpath
    exact hafter (List.mem_map_of_mem hd)
  rw [List.foldl_append, List.foldl_cons, foldl_verifyFile_other hrest, verifyFile_apply,
    verifyFile_apply, foldl_verifyFile_other hothers]

end Verifier

section Steps

variable {u : Unicode} {upper : Uppercase} {skillsDir : String} {e : DiskEvent} {s : SkillsDisk}
  {c c' : SkillCandidate}

theorem SameDoc.refl (c : SkillCandidate) : SameDoc c c := ⟨rfl, rfl, rfl, rfl, rfl⟩

/-- A candidate that stays as it is, with its file. -/
theorem KeepsFile.stays {rewritten : Bool} {files files' : Files}
    (h : ∀ path, c.skillPath = some path → files' path = files path) :
    KeepsFile rewritten files files' c c := by
  refine ⟨.inl rfl, rfl, fun path hpath => ?_⟩
  have hid : rewriteOf c.status c.status = id := by cases c.status <;> rfl
  rw [h path hpath, hid, Option.map_id_fun, id, ite_self]

/-- What a step does to a candidate and its file. -/
def Moves (u : Unicode) (upper : Uppercase) (rewritten : Bool) (files files' : Files)
    (c c' : SkillCandidate) : Prop :=
  SameDoc c c' ∧ (Generates u upper files' c c' ∨ KeepsFile rewritten files files' c c')

theorem moves_verify (h : s.db.Told skillsDir) (now : DateTime)
    (generatedOrder promotedOrder : OrderBy candidateKey) (rewrites : String → Bool)
    (hc' : c' ∈ (runVerifyCycle now generatedOrder promotedOrder s.db).2.candidates.rows) :
    ∃ c ∈ s.db.candidates.rows, Moves u upper (rewrites c.id) s.files
      ((verifyListing generatedOrder promotedOrder s.db.candidates).foldl
        (verifyFile now s.db.executions rewrites) s.files) c c' := by
  have hfind' := Table.mem_rows_iff.mp hc'
  have hlisted : ∀ d ∈ verifyListing generatedOrder promotedOrder s.db.candidates,
      s.db.candidates.find? d.id = some d := fun d hd => find?_of_mem_verifyListing hd
  by_cases hmem : ∃ c ∈ verifyListing generatedOrder promotedOrder s.db.candidates, c.id = c'.id
  · obtain ⟨c, hc, hid⟩ := hmem
    have hrow := Table.mem_rows_iff.mpr (hlisted c hc)
    rw [← hid] at hfind'
    obtain rfl := Option.some.inj ((find?_foldl_storeVerified_of_mem
      (nodup_verifyListing ..) hlisted hc).symm.trans hfind')
    refine ⟨c, hrow, ?_⟩
    have hfile : ∀ path, c.skillPath = some path →
        (verifyListing generatedOrder promotedOrder s.db.candidates).foldl
          (verifyFile now s.db.executions rewrites) s.files path =
          if rewrites c.id then (s.files path).map
            (((verifyCandidate now s.db.executions c).map fun updated =>
              rewriteOf c.status updated.status).getD id)
          else s.files path := by
      intro path hpath
      rw [foldl_verifyFile_of_mem (nodup_verifyListing ..) hc fun d hd hown =>
          h.1.eq_of_path h.2 (Table.mem_rows_iff.mpr (hlisted d hd)) hrow hown hpath,
        verifyFile_apply]
      simp only [hpath, true_and]
    cases hverified : verifyCandidate now s.db.executions c with
    | none =>
      simp only [hverified, Option.map_none, Option.getD_none, Option.map_id_fun, id, ite_self] at hfile
      exact ⟨.refl c, .inr (.stays hfile)⟩
    | some updated =>
      simp only [hverified, Option.map_some, Option.getD_some] at hfile
      obtain ⟨-, -, hstatus⟩ := verifyCandidate_spec hverified
      obtain ⟨-, status, hgiven, rfl⟩ := verifyCandidate_eq_some.mp hverified
      refine ⟨⟨rfl, rfl, rfl, rfl, rfl⟩, .inr ⟨hstatus.imp_right fun hedge => ⟨hedge, ?_⟩, rfl, hfile⟩⟩
      intro hpending
      rw [hpending] at hgiven
      cases hgiven
  · push Not at hmem
    have hsame := (find?_foldl_storeVerified_other hmem).symm.trans hfind'
    have hrow := Table.mem_rows_iff.mpr hsame
    refine ⟨c', hrow, .refl c', .inr (.stays fun path hpath => foldl_verifyFile_other ?_)⟩
    intro d hd hown
    exact hmem d hd (congrArg _ (h.1.eq_of_path h.2 (Table.mem_rows_iff.mpr (hlisted d hd)) hrow
      hown hpath))

theorem moves_promote (h : s.db.Told skillsDir) (id : String) (now : DateTime)
    (rewrites : String → Bool)
    (hc' : c' ∈ (skillPromote id now s.db).2.candidates.rows) :
    ∃ c ∈ s.db.candidates.rows,
      Moves u upper (rewrites c.id) s.files (promoteFile id rewrites s) c c' := by
  unfold skillPromote at hc'
  unfold promoteFile
  cases hfind : s.db.candidates.find? id with
  | none =>
    rw [hfind] at hc'
    exact ⟨c', hc', .refl c', .inr (.stays fun _ _ => rfl)⟩
  | some c =>
    have hrow : c ∈ s.db.candidates.rows := List.mem_of_find?_eq_some hfind
    simp only [hfind] at hc'
    by_cases hstatus : c.status = .generated
    · simp only [hstatus, ne_eq, not_true_eq_false, if_false] at hc' ⊢
      rcases Table.mem_rows_put.mp hc' with rfl | ⟨hold, hother⟩
      · refine ⟨c, hrow, ⟨rfl, rfl, rfl, rfl, rfl⟩, .inr ⟨.inr ⟨?_, ?_⟩, rfl, fun path hpath => ?_⟩⟩
        · rw [hstatus]
          exact .promote
        · rw [hstatus]
          nofun
        · simp only [promoteSkillFile, rewriteSkillFile_apply, hpath, true_and, hstatus, rewriteOf]
      · refine ⟨c', hold, .refl c', .inr (.stays fun path hpath => ?_)⟩
        rw [promoteSkillFile, rewriteSkillFile_apply, if_neg]
        rintro ⟨hown, -⟩
        have hsame : c' = c := h.1.eq_of_path h.2 hold hrow hpath hown
        exact hother (hsame ▸ rfl)
    · simp only [hstatus, ne_eq, not_false_eq_true, if_true] at hc' ⊢
      exact ⟨c', hc', .refl c', .inr (.stays fun _ _ => rfl)⟩

/-- A candidate is generated with a file of its own. -/
theorem moves_generate {id : String} {now today : DateTime} {write : Except String Unit}
    (hafter : (skillGenerate skillsDir id now write s.db).2.Told skillsDir)
    (rewrites : String → Bool)
    (hc' : c' ∈ (skillGenerate skillsDir id now write s.db).2.candidates.rows) :
    ∃ c ∈ s.db.candidates.rows, Moves u upper (rewrites c.id) s.files
      (generateFile u upper skillsDir id today write s) c c' := by
  unfold skillGenerate at hc' hafter
  unfold generateFile
  cases hfind : s.db.candidates.find? id with
  | none =>
    rw [hfind] at hc'
    exact ⟨c', hc', .refl c', .inr (.stays fun _ _ => rfl)⟩
  | some c =>
    have hrow : c ∈ s.db.candidates.rows := List.mem_of_find?_eq_some hfind
    simp only [hfind] at hc' hafter
    by_cases hstatus : c.status = .pending
    · cases hwrite : writeSkillFile skillsDir write c with
      | error message =>
        simp only [hstatus, hwrite, ne_eq, not_true_eq_false, if_false] at hc' ⊢
        exact ⟨c', hc', .refl c', .inr (.stays fun _ _ => rfl)⟩
      | ok path =>
        simp only [hstatus, hwrite, ne_eq, not_true_eq_false, if_false] at hc' hafter ⊢
        rcases Table.mem_rows_put.mp hc' with rfl | ⟨hold, hother⟩
        · exact ⟨c, hrow, ⟨rfl, rfl, rfl, rfl, rfl⟩,
            .inl ⟨hstatus, rfl, path, today, rfl, Function.update_self ..⟩⟩
        · refine ⟨c', hold, .refl c', .inr (.stays fun path' hpath => ?_)⟩
          refine Function.update_of_ne ?_ _ _
          rintro rfl
          exact hother (congrArg SkillCandidate.id (hafter.1.eq_of_path hafter.2 hc'
            (Table.mem_rows_put.mpr (.inl rfl)) hpath rfl))
    · simp only [hstatus, ne_eq, not_false_eq_true, if_true] at hc' ⊢
      exact ⟨c', hc', .refl c', .inr (.stays fun _ _ => rfl)⟩

theorem mem_foldl_considerSequence (now : DateTime) (listing : OrderBy candidateKey)
    (sequences : List ToolSequenceCandidate) {candidates : Table SkillCandidate.id}
    (hc : c ∈ (sequences.foldl (considerSequence now listing) candidates).rows) :
    c ∈ candidates.rows ∨ ∃ q ∈ sequences, c = newCandidate now q := by
  induction sequences generalizing candidates with
  | nil => exact .inl hc
  | cons q sequences ih =>
    rcases ih hc with hold | ⟨q', hq', hnew⟩
    · rcases considerSequence_cases now listing candidates q with hsame | ⟨-, hput⟩
      · exact .inl (hsame ▸ hold)
      · rw [hput] at hold
        rcases Table.mem_rows_put.mp hold with hnew | ⟨hold, -⟩
        · exact .inr ⟨q, List.mem_cons_self, hnew⟩
        · exact .inl hold
    · exact .inr ⟨q', List.mem_cons_of_mem _ hq', hnew⟩

/-- The candidate comes from a sequence that the event detects. -/
def Detects (e : SkillsEvent) (db : SkillsDb) (c : SkillCandidate) : Prop :=
  ∃ d, e = .detect d ∧ ∃ q ∈ d.sequences db, c = newCandidate d.now q

/-- After a step each candidate is a detected one, or one of those before it that has moved. -/
theorem moves_step (h : s.db.Told skillsDir)
    (hafter : (skillsNext u skillsDir e.event s.db).2.Told skillsDir)
    (hc' : c' ∈ (diskNext u upper skillsDir e s).2.db.candidates.rows) :
    Detects e.event s.db c' ∨ ∃ c ∈ s.db.candidates.rows, Moves u upper (e.rewrites c.id) s.files
      (diskNext u upper skillsDir e s).2.files c c' := by
  have hkept : c' ∈ s.db.candidates.rows → filesNext u upper skillsDir e s = s.files →
      Detects e.event s.db c' ∨ ∃ c ∈ s.db.candidates.rows, Moves u upper (e.rewrites c.id) s.files
        (filesNext u upper skillsDir e s) c c' := fun hrow hfiles =>
    .inr ⟨c', hrow, .refl c', .inr (.stays fun _ _ => by rw [hfiles])⟩
  obtain ⟨event, today, rewrites⟩ := e
  cases event with
  | observe id now body =>
    refine hkept ?_ rfl
    rwa [← observeAction_candidates u id now body s.db]
  | prune cutoff => exact hkept hc' rfl
  | detect d =>
    rcases mem_foldl_considerSequence d.now d.listing (d.sequences s.db) hc' with hold | hnew
    · exact hkept hold rfl
    · exact .inl ⟨d, rfl, hnew⟩
  | generate id now write => exact .inr (moves_generate hafter rewrites hc')
  | promote id now => exact .inr (moves_promote h id now rewrites hc')
  | execution e => exact hkept hc' rfl
  | verify now generatedOrder promotedOrder =>
    exact .inr (moves_verify h now generatedOrder promotedOrder rewrites hc')

end Steps

/-! ### Runs -/

abbrev DiskStep := Step SkillsDisk DiskEvent SkillsReply

/-- A candidate has a file, which is its generated file with this activation. -/
def Reads (u : Unicode) (upper : Uppercase) (files : Files) (c : SkillCandidate)
    (activation : String) : Prop :=
  ∃ path today confidence, c.skillPath = some path ∧
    files path = some (skillMd u upper today activation { c with confidence := confidence })

/-- The activation that goes with a status. -/
def SkillCandidateStatus.activation? : SkillCandidateStatus → Option String
  | pending => none
  | generated | rejected => some "manual"
  | promoted => some "auto"
  | retired => some "retired"

/-- The activations that a file can be left with. -/
def SkillCandidateStatus.activations : SkillCandidateStatus → List String
  | pending => []
  | generated | rejected => ["manual"]
  | promoted => ["manual", "auto"]
  | retired => ["manual", "auto", "retired"]

/-- The file of every candidate says what goes with the status. -/
def FilesFollow (u : Unicode) (upper : Uppercase) (s : SkillsDisk) : Prop :=
  ∀ c ∈ s.db.candidates.rows, ∀ activation, c.status.activation? = some activation →
    Reads u upper s.files c activation

/-- A detection considers no sequences that are easily confused, and no tool with a colon. -/
def DetectsClear (t : DiskStep) : Prop :=
  match t.input.event with
  | .detect d =>
    Unlike ((d.sequences t.before.db).map (·.tools)) t.before.db.candidates.rows ∧
      ∀ q ∈ d.sequences t.before.db, ∀ tool ∈ q.tools, ColonFree tool
  | _ => True

/-- The file of each candidate that the step promotes or retires can be rewritten. -/
def RewritesSucceed (t : DiskStep) : Prop :=
  ∀ c ∈ t.before.db.candidates.rows, ∀ c' ∈ t.after.db.candidates.rows, c'.id = c.id →
    c'.status ≠ c.status → c'.status = .promoted ∨ c'.status = .retired →
    t.input.rewrites c.id = true

/-- What holds of the candidates and their files throughout a run. -/
structure Sound (u : Unicode) (upper : Uppercase) (skillsDir : String) (s : SkillsDisk) : Prop where
  told : s.db.Told skillsDir
  clear : ∀ c ∈ s.db.candidates.rows, Clear c
  reads : ∀ c ∈ s.db.candidates.rows, c.status ≠ .pending →
    ∃ activation ∈ c.status.activations, Reads u upper s.files c activation

theorem clear_newCandidate {now : DateTime} {q : ToolSequenceCandidate}
    (h : ∀ tool ∈ q.tools, ColonFree tool) : Clear (newCandidate now q) := by
  have hjoined : ∀ (sep : String) (words : List String), ColonFree sep →
      (∀ word ∈ words, ColonFree word) → ColonFree (sep.intercalate words) := by
    intro sep words hsep hwords
    unfold ColonFree
    rw [String.toList_intercalate]
    refine not_mem_intercalate hsep fun word hword => ?_
    obtain ⟨w, hw, rfl⟩ := List.mem_map.mp hword
    exact hwords w hw
  refine ⟨hjoined _ _ (by decide) fun word hword => ?_, ?_, h⟩
  · obtain ⟨tool, htool, rfl⟩ := List.mem_map.mp hword
    exact fun hcolon => h tool htool (mem_of_mem_stripTool hcolon)
  · show ColonFree (generateDescription q.tools)
    unfold generateDescription
    split
    · decide
    · exact colonFree_append.mpr ⟨colonFree_append.mpr ⟨by decide, hjoined _ _ (by decide) h⟩, by decide⟩

theorem SameDoc.clear {c c' : SkillCandidate} (hdoc : SameDoc c c') (h : Clear c) : Clear c' :=
  ⟨hdoc.name ▸ h.name, hdoc.description ▸ h.description, hdoc.tools ▸ h.tools⟩

/-- The text of a file does not depend on the status. -/
theorem SameDoc.skillMd_eq {c c' : SkillCandidate} (hdoc : SameDoc c c') (u : Unicode)
    (upper : Uppercase) (today : DateTime) (activation : String) (confidence : ℚ) :
    skillMd u upper today activation { c' with confidence := confidence } =
      skillMd u upper today activation { c with confidence := confidence } := by
  simp only [skillMd, skillMdHead, skillMdRest, hdoc.name, hdoc.description, hdoc.tools,
    hdoc.sessionCount]

section Transitions

variable {u : Unicode} {upper : Uppercase} {files files' : Files} {rewritten : Bool}
  {c c' : SkillCandidate}

theorem Clear.withConfidence (h : Clear c) (confidence : ℚ) :
    Clear { c with confidence := confidence } := ⟨h.name, h.description, h.tools⟩

theorem Generates.reads (h : Generates u upper files c c') (hdoc : SameDoc c c') :
    Reads u upper files c' "manual" := by
  obtain ⟨path, today, hpath, hfile⟩ := h.file
  refine ⟨path, today, c.confidence, hpath, hfile.trans (congrArg some ?_)⟩
  rw [hdoc.skillMd_eq]
  rfl

/-- The activation of a kept file is rewritten, or stays if the file cannot be. -/
theorem KeepsFile.reads {activation activation' : String}
    (h : KeepsFile rewritten files files' c c') (hdoc : SameDoc c c')
    (hrewrite : rewritten = true → ∀ today confidence,
      rewriteOf c.status c'.status
          (skillMd u upper today activation { c with confidence := confidence }) =
        skillMd u upper today activation' { c with confidence := confidence })
    (hkept : rewritten = false → activation' = activation)
    (hreads : Reads u upper files c activation) : Reads u upper files' c' activation' := by
  obtain ⟨path, today, confidence, hpath, hfile⟩ := hreads
  refine ⟨path, today, confidence, h.path.trans hpath, ?_⟩
  rw [h.file path hpath, hdoc.skillMd_eq, hfile]
  cases rewritten with
  | true => rw [if_pos rfl, Option.map_some, hrewrite rfl]
  | false => rw [if_neg nofun, hkept rfl]

/-- The activation that a kept file is left with. -/
theorem KeepsFile.exists_reads (h : KeepsFile rewritten files files' c c') (hdoc : SameDoc c c')
    (hclear : Clear c) (hreads : ∃ activation ∈ c.status.activations,
      Reads u upper files c activation) :
    ∃ activation ∈ c'.status.activations, Reads u upper files' c' activation := by
  obtain ⟨activation, hpossible, hreads⟩ := hreads
  have hsame : rewriteOf c.status c'.status = id → activation ∈ c'.status.activations →
      ∃ activation ∈ c'.status.activations, Reads u upper files' c' activation := fun hid hmem =>
    ⟨activation, hmem, h.reads hdoc (fun _ _ _ => by rw [hid]; rfl) (fun _ => rfl) hreads⟩
  rcases h.status with hstatus | ⟨hedge, hgiven⟩
  · exact hsame (by rw [hstatus]; cases c.status <;> rfl) (hstatus ▸ hpossible)
  · generalize hfrom : c.status = source at hedge hgiven hpossible
    generalize hto : c'.status = target at hedge
    rw [hfrom, hto] at hsame
    cases hedge with
    | generate => exact absurd rfl hgiven
    | reject => exact hsame rfl hpossible
    | promote =>
      obtain rfl := List.mem_singleton.mp hpossible
      cases rewritten with
      | false => exact ⟨"manual", by decide, h.reads hdoc nofun (fun _ => rfl) hreads⟩
      | true =>
        refine ⟨"auto", by decide, h.reads hdoc (fun _ today confidence => ?_) nofun hreads⟩
        rw [hfrom, hto]
        exact promoteText_manual (hclear.withConfidence confidence) today
    | retire =>
      cases rewritten with
      | false =>
        exact ⟨activation, List.mem_of_mem_dropLast (l := ["manual", "auto", "retired"]) hpossible,
          h.reads hdoc nofun (fun _ => rfl) hreads⟩
      | true =>
        rcases List.mem_pair.mp hpossible with rfl | rfl
        · refine ⟨"manual", by decide, h.reads hdoc (fun _ today confidence => ?_) nofun hreads⟩
          rw [hfrom, hto]
          exact retireText_manual (hclear.withConfidence confidence) today
        · refine ⟨"retired", by decide, h.reads hdoc (fun _ today confidence => ?_) nofun hreads⟩
          rw [hfrom, hto]
          exact retireText_auto (hclear.withConfidence confidence) today

/-- Where the file of a candidate follows the status, it goes on to do so if it is rewritten
whenever the candidate is promoted or retired. -/
theorem KeepsFile.follows (h : KeepsFile rewritten files files' c c') (hdoc : SameDoc c c')
    (hclear : Clear c)
    (hrewrites : c'.status ≠ c.status → c'.status = .promoted ∨ c'.status = .retired →
      rewritten = true)
    (hfollows : ∀ activation, c.status.activation? = some activation →
      Reads u upper files c activation) :
    ∀ activation, c'.status.activation? = some activation → Reads u upper files' c' activation := by
  intro activation hactivation
  rcases h.status with hstatus | ⟨hedge, hgiven⟩
  · have hid : rewriteOf c.status c'.status = id := by rw [hstatus]; cases c.status <;> rfl
    exact h.reads hdoc (fun _ _ _ => by rw [hid]; rfl) (fun _ => rfl)
      (hfollows activation (hstatus ▸ hactivation))
  · generalize hfrom : c.status = source at hedge hgiven hfollows hrewrites
    generalize hto : c'.status = target at hedge hactivation hrewrites
    cases hedge with
    | generate => exact absurd rfl hgiven
    | reject =>
      refine h.reads hdoc (fun _ _ _ => ?_) (fun _ => rfl) (hfollows activation hactivation)
      rw [hfrom, hto]
      rfl
    | promote =>
      obtain rfl := Option.some.inj hactivation
      refine h.reads hdoc (fun _ today confidence => ?_) (fun hmissed => ?_) (hfollows "manual" rfl)
      · rw [hfrom, hto]
        exact promoteText_manual (hclear.withConfidence confidence) today
      · rw [hrewrites nofun (.inl rfl)] at hmissed
        cases hmissed
    | retire =>
      obtain rfl := Option.some.inj hactivation
      refine h.reads hdoc (fun _ today confidence => ?_) (fun hmissed => ?_) (hfollows "auto" rfl)
      · rw [hfrom, hto]
        exact retireText_auto (hclear.withConfidence confidence) today
      · rw [hrewrites nofun (.inr rfl)] at hmissed
        cases hmissed

/-- Files with different activations are different, if one of them can be rewritten to the other. -/
theorem skillMd_ne (part new : List Char) {activation activation' : String} (hc : Clear c)
    (hc' : Clear c') (hkey : activationKey <:+: part) (hline : '\n' ∉ part)
    (hnew : replace part new ("activation: " ++ activation).toList =
      ("activation: " ++ activation').toList)
    (hfixed : replace part new ("activation: " ++ activation').toList =
      ("activation: " ++ activation').toList)
    (hdiffer : activation ≠ activation') (today today' : DateTime) :
    skillMd u upper today activation c ≠ skillMd u upper today' activation' c' := by
  intro heq
  have hrewritten := congrArg (replace part new) heq
  rw [replace_skillMd hc hkey hline hnew, replace_skillMd hc' hkey hline hfixed, ← heq] at hrewritten
  unfold skillMd at hrewritten
  rw [List.map_append, List.map_append, List.map_cons, List.map_cons, intercalate_append_cons,
    intercalate_append_cons, List.append_left_inj, List.append_right_inj, String.toList_inj,
    String.append_right_inj] at hrewritten
  exact hdiffer hrewritten.symm

/-- A file that is not rewritten lags behind a promotion or a retirement. -/
theorem KeepsFile.lags (h : KeepsFile false files files' c c') (hdoc : SameDoc c c')
    (hclear : Clear c) (hmoves : c'.status ≠ c.status)
    (hto : c'.status = .promoted ∨ c'.status = .retired)
    (hfollows : ∀ activation, c.status.activation? = some activation →
      Reads u upper files c activation) :
    ¬ ∀ activation, c'.status.activation? = some activation →
      Reads u upper files' c' activation := by
  intro hfollows'
  obtain ⟨hedge, hgiven⟩ := h.status.resolve_left hmoves
  have htexts : ∀ activation activation', Reads u upper files c activation →
      Reads u upper files' c' activation' → ∃ today today' confidence confidence',
        skillMd u upper today activation { c with confidence := confidence } =
          skillMd u upper today' activation' { c with confidence := confidence' } := by
    rintro activation activation' ⟨path, today, confidence, hpath, hfile⟩
      ⟨path', today', confidence', hpath', hfile'⟩
    obtain rfl := Option.some.inj ((h.path.trans hpath).symm.trans hpath')
    refine ⟨today, today', confidence, confidence', ?_⟩
    rw [h.file path hpath, if_neg nofun, hfile, hdoc.skillMd_eq] at hfile'
    exact Option.some.inj hfile'
  generalize hfrom : c.status = source at hedge hgiven hfollows
  generalize hinto : c'.status = target at hedge hto hfollows'
  cases hedge with
  | generate => exact absurd rfl hgiven
  | reject => exact hto.elim nofun nofun
  | promote =>
    obtain ⟨today, today', confidence, confidence', heq⟩ :=
      htexts "manual" "auto" (hfollows _ rfl) (hfollows' _ rfl)
    exact skillMd_ne "activation: manual".toList "activation: auto".toList
      (hclear.withConfidence confidence) (hclear.withConfidence confidence') (by decide) (by decide)
      (by decide) (by decide) (by decide) today today' heq
  | retire =>
    obtain ⟨today, today', confidence, confidence', heq⟩ :=
      htexts "auto" "retired" (hfollows _ rfl) (hfollows' _ rfl)
    exact skillMd_ne "activation: auto".toList "activation: retired".toList
      (hclear.withConfidence confidence) (hclear.withConfidence confidence') (by decide) (by decide)
      (by decide) (by decide) (by decide) today today' heq

end Transitions

section Runs

variable {u : Unicode} {upper : Uppercase} {skillsDir : String} {e : DiskEvent} {s : SkillsDisk}

theorem told_diskNext (h : s.db.Told skillsDir)
    (hclear : DetectsClear (stepOf (diskNext u upper skillsDir) e s)) :
    (skillsNext u skillsDir e.event s.db).2.Told skillsDir := by
  refine told_step u h ?_
  obtain ⟨event, today, rewrites⟩ := e
  cases event with
  | detect d => exact hclear.1
  | observe | prune | generate | promote | execution | verify => trivial

/-- What a step does to the candidates of a sound state. -/
theorem Sound.moves (h : Sound u upper skillsDir s)
    (hclear : DetectsClear (stepOf (diskNext u upper skillsDir) e s)) {c' : SkillCandidate}
    (hc' : c' ∈ (diskNext u upper skillsDir e s).2.db.candidates.rows) :
    c'.status = .pending ∧ Clear c' ∨ ∃ c ∈ s.db.candidates.rows,
      Moves u upper (e.rewrites c.id) s.files (diskNext u upper skillsDir e s).2.files c c' := by
  rcases moves_step h.told (told_diskNext h.told hclear) hc' with ⟨d, hd, q, hq, rfl⟩ | hmoves
  · have hdetects := hclear
    unfold DetectsClear at hdetects
    rw [stepOf_input, hd] at hdetects
    exact .inl ⟨rfl, clear_newCandidate (hdetects.2 q hq)⟩
  · exact .inr hmoves

theorem Sound.step (h : Sound u upper skillsDir s)
    (hclear : DetectsClear (stepOf (diskNext u upper skillsDir) e s)) :
    Sound u upper skillsDir (diskNext u upper skillsDir e s).2 := by
  refine ⟨told_diskNext h.told hclear, fun c' hc' => ?_, fun c' hc' hgiven => ?_⟩
  · rcases h.moves hclear hc' with ⟨-, hnew⟩ | ⟨c, hc, hdoc, -⟩
    · exact hnew
    · exact hdoc.clear (h.clear c hc)
  · rcases h.moves hclear hc' with ⟨hpending, -⟩ | ⟨c, hc, hdoc, hgenerates | hkeeps⟩
    · exact absurd hpending hgiven
    · exact ⟨"manual", by rw [hgenerates.after]; decide, hgenerates.reads hdoc⟩
    · refine hkeeps.exists_reads hdoc (h.clear c hc) (h.reads c hc fun hpending => ?_)
      rcases hkeeps.status with hstatus | ⟨-, hnot⟩
      · exact hgiven (hstatus.trans hpending)
      · exact hnot hpending

/-- The files follow the statuses over a step exactly if it can rewrite those it has to. -/
theorem filesFollow_step_iff (h : Sound u upper skillsDir s) (hfollow : FilesFollow u upper s)
    (hclear : DetectsClear (stepOf (diskNext u upper skillsDir) e s)) :
    FilesFollow u upper (diskNext u upper skillsDir e s).2 ↔
      RewritesSucceed (stepOf (diskNext u upper skillsDir) e s) := by
  constructor
  · intro hfollow' c hc c' hc' hid hmoves hto
    rcases h.moves hclear hc' with ⟨hpending, -⟩ | ⟨d, hd, hdoc, hmoved⟩
    · rw [hpending] at hto
      exact hto.elim nofun nofun
    · obtain rfl := Table.eq_of_key hd hc (hdoc.id.symm.trans hid)
      rcases hmoved with hgenerates | hkeeps
      · rw [hgenerates.after] at hto
        exact hto.elim nofun nofun
      · by_contra hmissed
        rw [stepOf_input, Bool.not_eq_true] at hmissed
        rw [hmissed] at hkeeps
        exact hkeeps.lags hdoc (h.clear d hd) hmoves hto (hfollow d hd) (hfollow' c' hc')
  · intro hrewrites c' hc'
    rcases h.moves hclear hc' with ⟨hpending, -⟩ | ⟨c, hc, hdoc, hgenerates | hkeeps⟩
    · rw [hpending]
      nofun
    · rw [hgenerates.after]
      rintro activation hactivation
      obtain rfl := Option.some.inj hactivation
      exact hgenerates.reads hdoc
    · exact hkeeps.follows hdoc (h.clear c hc) (hrewrites c hc c' hc' hdoc.id) (hfollow c hc)

theorem filesFollow_iff (events : List DiskEvent) (h : Sound u upper skillsDir s)
    (hfollow : FilesFollow u upper s)
    (hclear : ∀ t ∈ trace (diskNext u upper skillsDir) events s, DetectsClear t) :
    (∀ t ∈ trace (diskNext u upper skillsDir) events s, FilesFollow u upper t.after) ↔
      ∀ t ∈ trace (diskNext u upper skillsDir) events s, RewritesSucceed t := by
  induction events generalizing s with
  | nil => simp
  | cons e events ih =>
    rw [trace_cons, List.forall_mem_cons] at hclear
    rw [trace_cons, List.forall_mem_cons, List.forall_mem_cons, stepOf_after,
      ← filesFollow_step_iff h hfollow hclear.1]
    exact and_congr_right fun hfirst => ih (h.step hclear.1) hfirst hclear.2

/-- teachd with its recorded actions, before it has any candidate. -/
def SkillsDisk.start (actions : List AgentAction) (files : Files) : SkillsDisk :=
  ⟨⟨actions, .empty, []⟩, files⟩

theorem sound_start (actions : List AgentAction) (files : Files) :
    Sound u upper skillsDir (.start actions files) := by
  refine ⟨⟨?_, ?_⟩, ?_, ?_⟩
  · constructor <;> simp [SkillsDisk.start, Table.empty]
  · simp [SkillsDisk.start, Filed, Table.empty]
  · simp [SkillsDisk.start, Table.empty]
  · simp [SkillsDisk.start, Table.empty]

theorem filesFollow_start (actions : List AgentAction) (files : Files) :
    FilesFollow u upper (.start actions files) := by
  simp [FilesFollow, SkillsDisk.start, Table.empty]

/-- A candidate is active by its status, while its file has another text. -/
structure Missed (u : Unicode) (upper : Uppercase) (id path : String) (text : List Char)
    (s : SkillsDisk) : Prop where
  active : ∃ c ∈ s.db.candidates.rows, c.id = id ∧ c.skillPath = some path ∧
    (c.status = .promoted ∨ c.status = .retired) ∧
    ∃ today confidence, text = skillMd u upper today "manual" { c with confidence := confidence }
  file : s.files path = some text

/-- A retirement does not find the activation that the file missed. -/
theorem Missed.step {id path : String} {text : List Char} (h : Missed u upper id path text s)
    (hsound : Sound u upper skillsDir s)
    (hclear : DetectsClear (stepOf (diskNext u upper skillsDir) e s)) :
    Missed u upper id path text (diskNext u upper skillsDir e s).2 := by
  obtain ⟨⟨c, hc, rfl, hpath, hactive, today, confidence, htext⟩, hfile⟩ := h
  obtain ⟨c', hfind', hfollows⟩ :=
    (follows_step u skillsDir e.event s.db).moves c.id c (Table.mem_rows_iff.mp hc)
  have hactive' : c'.status = .promoted ∨ c'.status = .retired := by
    rcases hfollows with hsame | hedge
    · exact hsame ▸ hactive
    · generalize c.status = source at hedge hactive
      generalize c'.status = target at hedge
      cases hedge with
      | retire => exact .inr rfl
      | generate | promote | reject => exact hactive.elim nofun nofun
  rcases hsound.moves hclear (List.mem_of_find?_eq_some hfind') with
    ⟨hpending, -⟩ | ⟨d, hd, hdoc, hmoved⟩
  · rw [hpending] at hactive'
    exact hactive'.elim nofun nofun
  · obtain rfl := Table.eq_of_key hd hc (hdoc.id.symm.trans (Table.key_of_find? hfind'))
    rcases hmoved with hgenerates | hkeeps
    · rw [hgenerates.before] at hactive
      exact hactive.elim nofun nofun
    · refine ⟨⟨c', List.mem_of_find?_eq_some hfind', hdoc.id, hkeeps.path.trans hpath, hactive',
        today, confidence, htext.trans (hdoc.skillMd_eq u upper today "manual" confidence).symm⟩, ?_⟩
      have hrewrite : rewriteOf d.status c'.status text = text := by
        rcases hfollows with hsame | hedge
        · rw [hsame]
          cases d.status <;> rfl
        · generalize d.status = source at hedge hactive
          generalize c'.status = target at hedge
          cases hedge with
          | retire =>
            rw [htext]
            exact retireText_manual ((hsound.clear d hd).withConfidence confidence) today
          | generate | promote | reject => exact hactive.elim nofun nofun
      show (diskNext u upper skillsDir e s).2.files path = some text
      rw [hkeeps.file path hpath, hfile, Option.map_some, hrewrite, ite_self]

end Runs

/-! ### A promotion that misses its file -/

/-- A skill is detected, generated and promoted, while its file is read-only. -/
def promotedReadOnly : List DiskEvent :=
  [⟨.detect ⟨noon, .stable _, .stable _, .stable _⟩, noon, fun _ => true⟩,
    ⟨.generate "sc-stop-logs-start" noon (.ok ()), noon, fun _ => true⟩,
    ⟨.promote "sc-stop-logs-start" noon, noon, fun _ => false⟩,
    ⟨.prune noon, noon, fun _ => true⟩]

def promotedReadOnlySteps : List DiskStep :=
  trace (diskNext Unicode.ascii Uppercase.ascii "/skills") promotedReadOnly
    (.start (thrice "s" ["stop", "logs", "start"]) fun _ => none)

theorem promotedReadOnly_clear : ∀ t ∈ promotedReadOnlySteps, DetectsClear t := by
  refine List.forall_mem_cons.mpr ⟨?_, List.forall_mem_cons.mpr ⟨trivial,
    List.forall_mem_cons.mpr ⟨trivial, List.forall_mem_singleton.mpr trivial⟩⟩⟩
  refine ⟨⟨fun tools htools => ?_, by decide +kernel⟩, by decide +kernel⟩
  have hplain : ∀ tools ∈ ((Detection.sequences ⟨noon, .stable _, .stable _, .stable _⟩
      ⟨thrice "s" ["stop", "logs", "start"], .empty, []⟩).map (·.tools)),
      (∀ tool ∈ tools, '-' ∉ tool.toList) ∧ ("-".intercalate tools).utf8ByteSize ≤ 60 := by
    decide +kernel
  exact ⟨(hplain tools htools).1, (hplain tools htools).2⟩

theorem readOnly_promoted : ∃ c ∈ promotedReadOnlySteps[2].before.db.candidates.rows,
    ∃ c' ∈ promotedReadOnlySteps[2].after.db.candidates.rows,
    c'.id = c.id ∧ c.status = .generated ∧ c'.status = .promoted := by
  decide +kernel

end OsModa.Teachd
