import OsModa.Gateway.StoreLoss

/-!
What the migration makes of older layouts when the process dies in the middle of it.

Each step of a boot that reads its files leaves the part of the work that is still to do
(`Layout.Reached`), and a boot after a crash takes it up where that part can still be told from what
is done: where the store tells which entries of the bootstrap file have been absorbed, and nothing
has been imported of what is imported without looking (`migration_resumes`).
-/

namespace OsModa.Gateway

open OsModa.Js OsModa.Encoding OsModa.Machine

/-! ### Runs with crashes -/

/-- What a step finds besides, where everything can be read. -/
structure BootClock where
  loadKey : Bytes32
  saveKey : Bytes32
  iv : List UInt8
  random : JsString
  now : JsString

def BootClock.moment (c : BootClock) : BootMoment where
  load := ⟨false, false, c.loadKey⟩
  save := ⟨⟨false, c.saveKey⟩, c.iv⟩
  random := c.random
  now := c.now
  fails := false

inductive BootInput where
  | step (c : BootClock)
  /-- The process dies, between two steps or in the middle of one, and is started again. -/
  | crash (during : Option BootClock)

def bootRun {E : Type} (p : StorePlatform E) (legacy : LegacyFiles) (input : BootInput)
    (s : StoreState E) : Unit × StoreState E :=
  ((), match input with
    | .step c => s.booted p legacy c.moment
    | .crash none => { s with phase := .start }
    | .crash (some c) => ⟨diesIn p legacy c.moment s.disk s.phase, .start⟩)

/-! ### What there is to migrate -/

/-- A credential but for its id and its times. -/
def StoredCredential.core (c : StoredCredential) : NewCredential :=
  ⟨c.label, c.provider, c.type, c.secret, c.baseUrl⟩

def NewCredential.saved (c : NewCredential) : NewCredential :=
  ⟨c.label.saved, c.provider.map Value.saved, c.type.map Value.saved, c.secret.saved,
    c.baseUrl.map Value.saved⟩

def Absorbed.new? : Absorbed → Option NewCredential
  | .added c => some c
  | .throws | .skipped => none

/-- What is added for entries, compared with credentials. -/
def absorbedFrom (existing : List StoredCredential) (entries : List Value) : List NewCredential :=
  entries.filterMap fun e => (absorbEntry existing e).new?

/-- What is added for agents of OpenClaw. -/
def profilesOf (agents : List (JsString × Option (Option Value))) : List NewCredential :=
  agents.filterMap fun a => profileCredential a.1 a.2

/-- The secret of an entry, if it has one. -/
def entrySecret (entry : Value) : Option Value :=
  (entry.fields.bind fun c => c.get? (utf16 "secret")).filter fun v => Value.truthy (some v)

/-- Where in the store the credentials of agents of OpenClaw are, when `n` credentials are there
before them. -/
def places (n : Nat) (found : List (JsString × Nat)) :
    List (JsString × Option (Option Value)) → List (JsString × Nat)
  | [] => found
  | (agentId, auth) :: rest =>
    match profileCredential agentId auth with
    | none => places n found rest
    | some _ => places (n + 1) ((agentId, n) :: found) rest

/-- The id of the credential at a place. -/
def idAt (credentials : List StoredCredential) (i : Nat) : JsString :=
  (credentials[i]?.map StoredCredential.id).getD []

/-- What the boot finds the first time. -/
structure Layout where
  legacy : LegacyFiles
  before : List StoredCredential
  entries : List Value
  agents : Option (Option AgentsFile)

namespace Layout

variable (l : Layout)

/-- There are no agents yet. -/
def IsFresh : Prop := ((l.agents.bind id).getD ⟨[], []⟩).agents = []

instance : Decidable l.IsFresh := decidable_of_iff _ List.isEmpty_iff

def absorbed : List NewCredential := absorbedFrom l.before l.entries

def apiKey : List NewCredential := (l.legacy.apiKey.bind apiKeyCredential).toList

/-- What is imported of older layouts, if there are no agents. -/
def imported : List NewCredential :=
  if l.IsFresh then l.apiKey ++ profilesOf l.legacy.openClaw else []

/-- The credentials that are added, as they are stored. -/
def news : List NewCredential := (l.absorbed ++ l.imported).map NewCredential.saved

/-- The place of the credential of the file `api-key`. -/
def claudePlace : Option Nat :=
  (l.legacy.apiKey.bind apiKeyCredential).map fun _ => l.before.length + l.absorbed.length

/-- The places of the credentials of OpenClaw. -/
def openClawPlaces (done : List (JsString × Option (Option Value))) : List (JsString × Nat) :=
  places (l.before.length + l.absorbed.length + l.apiKey.length) [] done

def fallbackPlace : Option Nat :=
  ((l.openClawPlaces l.legacy.openClaw).lookup (utf16 "osmoda")).or
    (l.claudePlace.or (if l.before = [] ∧ l.news = [] then none else some 0))

/-- The agents that are made, with the credentials at their places. -/
def agentsAt (now : JsString) (credentials : List StoredCredential) : AgentsFile :=
  let places := l.openClawPlaces l.legacy.openClaw
  migratedAgents (detectedRuntime l.legacy.gatewayUnit) now
    (((places.lookup (utf16 "osmoda")).or l.fallbackPlace).map (idAt credentials))
    (((places.lookup (utf16 "mobile")).or l.fallbackPlace).map (idAt credentials))

/-! ### What is still to do -/

/-- The store holds what was there and credentials made of `done`. -/
structure Holds (credentials : List StoredCredential) (done : List NewCredential) : Prop where
  exists_news : ∃ news, credentials = l.before ++ news ∧ news.map StoredCredential.core = done ∧
    ∀ c ∈ news, c.id ≠ []

/-- Everything is done. -/
structure Finished (credentials : List StoredCredential) (agents : Option (Option AgentsFile)) :
    Prop where
  holds : l.Holds credentials l.news
  agents : if l.IsFresh then ∃ now, agents = some (some (l.agentsAt now credentials).saved)
    else agents = l.agents

/-- What is left of absorbing the bootstrap file are some entries, compared with credentials. -/
structure Absorbing (credentials : List StoredCredential) (agents : Option (Option AgentsFile))
    (existing : List StoredCredential) (todo : List Value) : Prop where
  holds : ∃ done, l.Holds credentials done ∧
    done ++ (absorbedFrom existing todo).map NewCredential.saved =
      l.absorbed.map NewCredential.saved
  throws : ∀ e ∈ todo, absorbEntry existing e ≠ .throws
  agents_eq : agents = l.agents

/-- Nothing is left of it. -/
structure Absorbed (credentials : List StoredCredential) (agents : Option (Option AgentsFile)) :
    Prop where
  holds : l.Holds credentials (l.absorbed.map NewCredential.saved)
  agents_eq : agents = l.agents

/-- Layouts of a process that imports: what it has of the file `api-key` and of OpenClaw. -/
structure Importing (credentials : List StoredCredential) (agents : Option (Option AgentsFile))
    (claude : Option JsString) (found : List (JsString × JsString))
    (done : List (JsString × Option (Option Value))) : Prop where
  fresh : l.IsFresh
  agents_eq : agents = l.agents
  holds : l.Holds credentials ((l.absorbed ++ l.apiKey ++ profilesOf done).map NewCredential.saved)
  claude_eq : claude = l.claudePlace.map (idAt credentials)
  found_eq : found = (l.openClawPlaces done).map fun q => (q.1, idAt credentials q.2)

/-- No entries are left in the bootstrap file. -/
def NoEntries (bootstrap : Option BootstrapText) : Prop := ∀ todo, bootstrap ≠ some (.entries todo)

/-- Where a boot is with the files as they are. -/
def Reaches (credentials : List StoredCredential) (agents : Option (Option AgentsFile))
    (bootstrap : Option BootstrapText) : BootPhase → Prop
  | .start =>
    (bootstrap = some (.entries l.entries) ∧ l.Absorbing credentials agents credentials l.entries) ∨
      (NoEntries bootstrap ∧ (l.Absorbed credentials agents ∨ l.Finished credentials agents))
  | .absorb existing todo => (∃ gone, gone ++ todo = l.entries) ∧
      bootstrap = some (.entries l.entries) ∧ l.Absorbing credentials agents existing todo
  | .check => NoEntries bootstrap ∧ (l.Absorbed credentials agents ∨ l.Finished credentials agents)
  | .apiKey => NoEntries bootstrap ∧ l.IsFresh ∧ l.Absorbed credentials agents
  | .list claude => NoEntries bootstrap ∧ l.Importing credentials agents claude [] []
  | .openClaw claude found todo => NoEntries bootstrap ∧ ∃ done,
      l.legacy.openClaw = done ++ todo ∧ l.Importing credentials agents claude found done
  | .profiles claude found => NoEntries bootstrap ∧
      l.Importing credentials agents claude found l.legacy.openClaw
  | .cache | .running _ => NoEntries bootstrap ∧ l.Finished credentials agents

/-- What holds between the steps of boots. -/
def Reached {E : Type} (p : StorePlatform E) (s : StoreState E) : Prop :=
  ∃ file, p.contents s.disk.toCredentialFiles = some file ∧ file.saved = file ∧
    l.Reaches file.credentials s.disk.agents s.disk.bootstrap s.phase

end Layout

/-! ### Adding a credential -/

section Adding

variable {E : Type} {p : StorePlatform E} {d : CredentialFiles E} {file : CredentialsFile}

theorem StoredCredential.saved_stored (c : NewCredential) (id now : JsString) :
    (c.stored id now).saved = c.stored id now := by
  simp only [StoredCredential.saved, NewCredential.stored, Value.saved_saved, Value.map_saved_saved]

theorem finds_moment (c : BootClock) (h : (p.contents d).isSome) : c.moment.load.Finds p d := by
  refine ⟨fun _ => ⟨rfl, h⟩, fun e he _ henv => ⟨rfl, ?_⟩⟩
  rw [StorePlatform.contents, he] at h
  dsimp only at h
  cases hkey : p.keyOf d.key with
  | none =>
    rw [hkey] at h
    cases h
  | some key => rfl

/-- What is read after a credential was added. -/
theorem contents_addCredential (c : BootClock) (hfile : p.contents d = some file)
    (hsaved : file.saved = file) (new : NewCredential) :
    ∃ file', p.contents (p.addCredential new c.moment.toStoreMoment d) = some file' ∧
      file'.saved = file' ∧ file'.credentials =
        file.credentials ++ [new.stored (newCredentialId c.random) c.now] := by
  obtain ⟨found, hload, hfound⟩ := loadCredentials_of_finds (finds_moment c (by rw [hfile]; rfl))
  obtain rfl := Option.some.inj (hfile.symm.trans hfound)
  have hcredentials : file.credentials.map StoredCredential.saved = file.credentials :=
    congrArg CredentialsFile.credentials hsaved
  have hadded : (file.addCredential (new.stored (newCredentialId c.random) c.now)).saved =
      file.addCredential (new.stored (newCredentialId c.random) c.now) := by
    simp only [CredentialsFile.saved, CredentialsFile.addCredential, List.map_append, hcredentials,
      List.map_cons, List.map_nil, StoredCredential.saved_stored]
  refine ⟨file.addCredential (new.stored (newCredentialId c.random) c.now), ?_, hadded, rfl⟩
  rw [StorePlatform.addCredential, hload]
  dsimp only
  rw [contents_saveCredentials]
  exact congrArg some hadded

end Adding

/-! ### Steps -/

namespace Layout

variable {l : Layout} {credentials : List StoredCredential} {agents : Option (Option AgentsFile)}

theorem Holds.add {done : List NewCredential} (h : l.Holds credentials done) (new : NewCredential)
    (random now : JsString) :
    l.Holds (credentials ++ [new.stored (newCredentialId random) now]) (done ++ [new.saved]) := by
  obtain ⟨news, rfl, rfl, hids⟩ := h.exists_news
  refine ⟨news ++ [new.stored (newCredentialId random) now], List.append_assoc _ _ _, ?_, ?_⟩
  · rw [List.map_append]
    rfl
  · intro c hc
    rcases List.mem_append.mp hc with hold | hnew
    · exact hids c hold
    · rw [List.mem_singleton.mp hnew]
      exact newCredentialId_ne_nil random

theorem Holds.length_eq {done : List NewCredential} (h : l.Holds credentials done) :
    credentials.length = l.before.length + done.length := by
  obtain ⟨news, rfl, rfl, -⟩ := h.exists_news
  rw [List.length_append, List.length_map]

theorem idAt_append {i : Nat} (h : i < credentials.length) (more : List StoredCredential) :
    idAt (credentials ++ more) i = idAt credentials i := by
  rw [idAt, idAt, List.getElem?_append_left h]

theorem idAt_last (c : StoredCredential) : idAt (credentials ++ [c]) credentials.length = c.id := by
  rw [idAt, List.getElem?_concat_length]
  rfl

/-! ### Places -/

theorem places_append (n : Nat) (found : List (JsString × Nat))
    (done more : List (JsString × Option (Option Value))) :
    places n found (done ++ more) = places (n + (profilesOf done).length) (places n found done) more := by
  induction done generalizing n found with
  | nil => rfl
  | cons a rest ih =>
    obtain ⟨agentId, auth⟩ := a
    rw [List.cons_append, places, places, profilesOf, List.filterMap_cons]
    cases profileCredential agentId auth with
    | none => exact ih n found
    | some c =>
      dsimp only
      rw [ih, List.length_cons, profilesOf, Nat.add_right_comm, Nat.add_assoc]

theorem places_lt {n : Nat} {found : List (JsString × Nat)} (hfound : ∀ q ∈ found, q.2 < n)
    (done : List (JsString × Option (Option Value))) :
    ∀ q ∈ places n found done, q.2 < n + (profilesOf done).length := by
  induction done generalizing n found with
  | nil => exact hfound
  | cons a rest ih =>
    obtain ⟨agentId, auth⟩ := a
    rw [places, profilesOf, List.filterMap_cons]
    cases profileCredential agentId auth with
    | none => exact ih hfound
    | some c =>
      have hnext : ∀ q ∈ (agentId, n) :: found, q.2 < n + 1 := by
        intro q hq
        rcases List.mem_cons.mp hq with rfl | hold
        · exact Nat.lt_succ_self n
        · exact Nat.lt_succ_of_lt (hfound q hold)
      intro q hq
      have hlt := ih hnext q hq
      rw [profilesOf] at hlt
      dsimp only
      rw [List.length_cons]
      omega

theorem length_places (n : Nat) (found : List (JsString × Nat))
    (done : List (JsString × Option (Option Value))) :
    (places n found done).length = found.length + (profilesOf done).length := by
  induction done generalizing n found with
  | nil => rfl
  | cons a rest ih =>
    obtain ⟨agentId, auth⟩ := a
    rw [places, profilesOf, List.filterMap_cons]
    cases profileCredential agentId auth with
    | none => exact ih n found
    | some c =>
      dsimp only
      rw [ih, List.length_cons, List.length_cons, profilesOf]
      omega

theorem lookup_map_idAt (found : List (JsString × Nat)) (agentId : JsString) :
    (found.map fun q => (q.1, idAt credentials q.2)).lookup agentId =
      (found.lookup agentId).map (idAt credentials) := by
  induction found with
  | nil => rfl
  | cons q rest ih =>
    rw [List.map_cons, List.lookup_cons, List.lookup_cons, ih]
    split <;> rfl

/-! ### Each phase -/

section Phases

variable {E : Type} {p : StorePlatform E} {d : StoreDisk E} {c : BootClock}

theorem loadCredentials_moment {file : CredentialsFile}
    (hfile : p.contents d.toCredentialFiles = some file) :
    p.loadCredentials c.moment.load d.toCredentialFiles = (file, d.toCredentialFiles) := by
  obtain ⟨found, hload, hfound⟩ := loadCredentials_of_finds (finds_moment c (by rw [hfile]; rfl))
  obtain rfl := Option.some.inj (hfile.symm.trans hfound)
  exact hload

theorem absorbedFrom_cons (existing : List StoredCredential) (e : Value) (rest : List Value) :
    absorbedFrom existing (e :: rest) =
      (absorbEntry existing e).new?.toList ++ absorbedFrom existing rest := by
  rw [absorbedFrom, List.filterMap_cons]
  cases (absorbEntry existing e).new? <;> rfl

theorem reached_start (h : l.Reached p ⟨d, .start⟩) :
    l.Reached p (StoreState.booted p l.legacy ⟨d, .start⟩ c.moment) := by
  obtain ⟨file, hfile, hsaved, ⟨hentries, habsorbing⟩ | ⟨hnone, hrest⟩⟩ := h
  · have hboot : bootNext p l.legacy c.moment d .start =
        (.absorb file.credentials l.entries, d) := by
      rw [bootNext, bootStart, show c.moment.fails = false from rfl, if_neg Bool.false_ne_true,
        show d.bootstrap = _ from hentries]
      dsimp only
      rw [loadCredentials_moment hfile]
      rfl
    rw [StoreState.booted, hboot]
    exact ⟨file, hfile, hsaved, ⟨[], rfl⟩, hentries, habsorbing⟩
  · rw [StoreState.booted, bootNext, bootStart, show c.moment.fails = false from rfl,
      if_neg Bool.false_ne_true]
    dsimp only at hnone hrest ⊢
    cases hbootstrap : d.bootstrap with
    | none => exact ⟨file, hfile, hsaved, hnone, hrest⟩
    | some text =>
      cases text with
      | unparsed => exact ⟨file, hfile, hsaved, hnone, hrest⟩
      | noList => exact ⟨file, hfile, hsaved, fun _ h => (by cases h), hrest⟩
      | entries todo => exact absurd hbootstrap (hnone todo)

theorem reached_absorb {existing : List StoredCredential} {todo : List Value}
    (h : l.Reached p ⟨d, .absorb existing todo⟩) :
    l.Reached p (StoreState.booted p l.legacy ⟨d, .absorb existing todo⟩ c.moment) := by
  obtain ⟨file, hfile, hsaved, ⟨gone, hgone⟩, hentries, ⟨done, hholds, hpending⟩, hthrows, hagents⟩ := h
  rw [StoreState.booted, bootNext]
  cases todo with
  | nil =>
    rw [absorbedFrom, List.filterMap_nil, List.map_nil, List.append_nil] at hpending
    exact ⟨file, hfile, hsaved, fun _ h => (by cases h), .inl ⟨hpending ▸ hholds, hagents⟩⟩
  | cons e rest =>
    have hgone' : ∃ gone, gone ++ rest = l.entries := ⟨gone ++ [e], by rw [← hgone]; simp⟩
    have hthrows' : ∀ e ∈ rest, absorbEntry existing e ≠ .throws := fun e he =>
      hthrows e (List.mem_cons_of_mem _ he)
    rw [absorbedFrom_cons] at hpending
    rw [bootAbsorb]
    cases hentry : absorbEntry existing e with
    | throws => exact absurd hentry (hthrows e List.mem_cons_self)
    | skipped =>
      rw [hentry] at hpending
      exact ⟨file, hfile, hsaved, hgone', hentries, ⟨done, hholds, hpending⟩, hthrows', hagents⟩
    | added new =>
      rw [hentry] at hpending
      obtain ⟨file', hfile', hsaved', hadded⟩ := contents_addCredential c hfile hsaved new
      refine ⟨file', hfile', hsaved', hgone', hentries, ⟨done ++ [new.saved], ?_, ?_⟩, hthrows', hagents⟩
      · rw [hadded]
        exact hholds.add new _ _
      · rw [← hpending, List.append_assoc]
        rfl

theorem loadAgents_eq (h : d.agents = l.agents) :
    (d.loadAgents false).agents.isEmpty = true ↔ l.IsFresh := by
  rw [List.isEmpty_iff, StoreDisk.loadAgents, h]
  rfl

/-- Agents that have been made are there. -/
theorem not_isEmpty_of_finished (h : l.Finished credentials d.agents) :
    ¬ (d.loadAgents false).agents.isEmpty = true := by
  have hagents := h.agents
  split at hagents
  · obtain ⟨now, hmade⟩ := hagents
    rw [StoreDisk.loadAgents, hmade]
    exact Bool.false_ne_true
  · rename_i hfresh
    rwa [loadAgents_eq hagents]

theorem reached_check (h : l.Reached p ⟨d, .check⟩) :
    l.Reached p (StoreState.booted p l.legacy ⟨d, .check⟩ c.moment) := by
  obtain ⟨file, hfile, hsaved, hnone, habsorbed | hfinished⟩ := h
  · rw [StoreState.booted, bootNext, show c.moment.fails = false from rfl]
    dsimp only
    have hempty := loadAgents_eq habsorbed.agents_eq
    by_cases hfresh : l.IsFresh
    · rw [if_pos (hempty.mpr hfresh)]
      exact ⟨file, hfile, hsaved, hnone, hfresh, habsorbed⟩
    · rw [if_neg (mt hempty.mp hfresh)]
      refine ⟨file, hfile, hsaved, hnone, ?_, ?_⟩
      · rw [news, imported, if_neg hfresh, List.append_nil]
        exact habsorbed.holds
      · rw [if_neg hfresh]
        exact habsorbed.agents_eq
  · rw [StoreState.booted, bootNext, show c.moment.fails = false from rfl]
    dsimp only
    rw [if_neg (not_isEmpty_of_finished hfinished)]
    exact ⟨file, hfile, hsaved, hnone, hfinished⟩

theorem reached_apiKey (h : l.Reached p ⟨d, .apiKey⟩) :
    l.Reached p (StoreState.booted p l.legacy ⟨d, .apiKey⟩ c.moment) := by
  obtain ⟨file, hfile, hsaved, hnone, hfresh, habsorbed⟩ := h
  rw [StoreState.booted, bootNext, show c.moment.fails = false from rfl, if_neg Bool.false_ne_true]
  have hlength := habsorbed.holds.length_eq
  rw [List.length_map] at hlength
  cases hkey : l.legacy.apiKey.bind apiKeyCredential with
  | none =>
    have hnews : l.apiKey = [] := by rw [Layout.apiKey, hkey]; rfl
    refine ⟨file, hfile, hsaved, hnone, hfresh, habsorbed.agents_eq, ?_, ?_, rfl⟩
    · rw [hnews, List.append_nil, profilesOf, List.filterMap_nil, List.append_nil]
      exact habsorbed.holds
    · rw [claudePlace, hkey]
      rfl
  | some new =>
    have hnews : l.apiKey = [new] := by rw [Layout.apiKey, hkey]; rfl
    obtain ⟨file', hfile', hsaved', hadded⟩ := contents_addCredential c hfile hsaved new
    refine ⟨file', hfile', hsaved', hnone, hfresh, habsorbed.agents_eq, ?_, ?_, rfl⟩
    · rw [hnews, profilesOf, List.filterMap_nil, List.append_nil, List.map_append, hadded]
      exact habsorbed.holds.add new _ _
    · rw [claudePlace, hkey, Option.map_some, Option.map_some, hadded, ← hlength, idAt_last]
      rfl

theorem reached_list {claude : Option JsString} (h : l.Reached p ⟨d, .list claude⟩) :
    l.Reached p (StoreState.booted p l.legacy ⟨d, .list claude⟩ c.moment) := by
  obtain ⟨file, hfile, hsaved, hnone, himporting⟩ := h
  exact ⟨file, hfile, hsaved, hnone, [], rfl, himporting⟩

theorem profilesOf_snoc (done : List (JsString × Option (Option Value))) (agentId : JsString)
    (auth : Option (Option Value)) : profilesOf (done ++ [(agentId, auth)]) =
      profilesOf done ++ (profileCredential agentId auth).toList := by
  rw [profilesOf, List.filterMap_append, profilesOf, List.filterMap_cons]
  cases profileCredential agentId auth <;> rfl

/-- A credential that is imported next comes after those that are there. -/
theorem openClawPlaces_snoc {done : List (JsString × Option (Option Value))}
    (hholds : l.Holds credentials
      ((l.absorbed ++ l.apiKey ++ profilesOf done).map NewCredential.saved))
    (a : JsString × Option (Option Value)) : l.openClawPlaces (done ++ [a]) =
      places credentials.length (l.openClawPlaces done) [a] := by
  have hlength := hholds.length_eq
  rw [List.length_map, List.length_append, List.length_append, ← Nat.add_assoc,
    ← Nat.add_assoc] at hlength
  rw [openClawPlaces, places_append, openClawPlaces, hlength]

/-- Of an agent of OpenClaw a credential is made, or none. -/
theorem reached_openClaw {claude : Option JsString} {found : List (JsString × JsString)}
    {todo : List (JsString × Option (Option Value))}
    (h : l.Reached p ⟨d, .openClaw claude found todo⟩) :
    l.Reached p (StoreState.booted p l.legacy ⟨d, .openClaw claude found todo⟩ c.moment) := by
  obtain ⟨file, hfile, hsaved, hnone, done, hdone, himporting⟩ := h
  obtain ⟨hfresh, hagents, hholds, hclaude, hfound⟩ := himporting
  rw [StoreState.booted, bootNext]
  cases todo with
  | nil =>
    rw [List.append_nil] at hdone
    refine ⟨file, hfile, hsaved, hnone, ?_⟩
    rw [hdone]
    exact ⟨hfresh, hagents, hholds, hclaude, hfound⟩
  | cons a rest =>
    obtain ⟨agentId, auth⟩ := a
    have hdone' : l.legacy.openClaw = (done ++ [(agentId, auth)]) ++ rest := by
      rw [hdone, List.append_assoc]
      rfl
    have hlength := hholds.length_eq
    rw [List.length_map, List.length_append, List.length_append, ← Nat.add_assoc,
      ← Nat.add_assoc] at hlength
    have hplaces := openClawPlaces_snoc hholds (agentId, auth)
    have hprofiles := profilesOf_snoc done agentId auth
    rw [bootOpenClaw, show c.moment.fails = false from rfl, if_neg Bool.false_ne_true]
    cases hprofile : profileCredential agentId auth with
    | none =>
      refine ⟨file, hfile, hsaved, hnone, done ++ [(agentId, auth)], hdone', hfresh, hagents, ?_,
        hclaude, ?_⟩
      · rw [hprofiles, hprofile, Option.toList_none, List.append_nil]
        exact hholds
      · rw [hplaces, places, hprofile]
        exact hfound
    | some new =>
      obtain ⟨file', hfile', hsaved', hadded⟩ := contents_addCredential c hfile hsaved new
      refine ⟨file', hfile', hsaved', hnone, done ++ [(agentId, auth)], hdone', hfresh, hagents,
        ?_, ?_, ?_⟩
      · rw [hprofiles, hprofile, Option.toList_some, ← List.append_assoc, List.map_append, hadded]
        exact hholds.add new _ _
      · rw [hclaude, hadded]
        refine Option.map_congr fun i hi => (idAt_append ?_ _).symm
        obtain ⟨new', hkey, rfl⟩ := Option.map_eq_some_iff.mp hi
        have hone : l.apiKey.length = 1 := by rw [Layout.apiKey, hkey]; rfl
        omega
      · rw [hplaces, places, hprofile]
        dsimp only [places]
        rw [List.map_cons, hadded, idAt_last, hfound]
        refine congrArg (List.cons _) (List.map_congr_left fun q hq => ?_)
        have hlt := places_lt (fun _ h => by cases h) done q hq
        rw [idAt_append (by omega)]

theorem head?_places (hholds : l.Holds credentials l.news) :
    credentials.head?.map StoredCredential.id =
      (if l.before = [] ∧ l.news = [] then none else some 0).map (idAt credentials) := by
  obtain ⟨news, rfl, hnews, -⟩ := hholds.exists_news
  cases hall : l.before ++ news with
  | nil =>
    obtain ⟨hbefore, hnone⟩ := List.append_eq_nil_iff.mp hall
    rw [if_pos ⟨hbefore, by rw [← hnews, hnone]; rfl⟩]
    rfl
  | cons b rest =>
    have hsome : ¬ (l.before = [] ∧ l.news = []) := by
      rintro ⟨hbefore, hnone⟩
      rw [hbefore, List.map_eq_nil_iff.mp (hnews.trans hnone)] at hall
      cases hall
    rw [if_neg hsome]
    rfl

theorem reached_profiles {claude : Option JsString} {found : List (JsString × JsString)}
    (h : l.Reached p ⟨d, .profiles claude found⟩) :
    l.Reached p (StoreState.booted p l.legacy ⟨d, .profiles claude found⟩ c.moment) := by
  obtain ⟨file, hfile, hsaved, hnone, hfresh, hagents, hholds, hclaude, hfound⟩ := h
  have hnews : (l.absorbed ++ l.apiKey ++ profilesOf l.legacy.openClaw).map NewCredential.saved =
      l.news := by
    rw [news, imported, if_pos hfresh, List.append_assoc]
  rw [hnews] at hholds
  have hfallback : fallbackCredential claude found file.credentials =
      l.fallbackPlace.map (idAt file.credentials) := by
    rw [fallbackCredential, hfound, hclaude, lookup_map_idAt, head?_places hholds, fallbackPlace,
      Option.map_or, Option.map_or]
  rw [StoreState.booted, bootNext, bootProfiles, loadCredentials_moment hfile,
    show c.moment.fails = false from rfl, if_neg Bool.false_ne_true]
  dsimp only
  rw [hfallback, hfound, lookup_map_idAt, lookup_map_idAt, ← Option.map_or, ← Option.map_or]
  refine ⟨file, hfile, hsaved, hnone, hholds, ?_⟩
  rw [if_pos hfresh]
  exact ⟨c.now, rfl⟩

/-- The step lemma. -/
theorem reached_boot {s : StoreState E} (h : l.Reached p s) :
    l.Reached p (s.booted p l.legacy c.moment) := by
  obtain ⟨d, phase⟩ := s
  cases phase with
  | start => exact reached_start h
  | absorb existing todo => exact reached_absorb h
  | check => exact reached_check h
  | apiKey => exact reached_apiKey h
  | list claude => exact reached_list h
  | openClaw claude found todo => exact reached_openClaw h
  | profiles claude found => exact reached_profiles h
  | cache => exact h
  | running cache => exact h

end Phases

/-! ### Crashes -/

/-- What a boot that begins again must be able to tell. -/
def Resumes (credentials : List StoredCredential) (bootstrap : Option BootstrapText) :
    BootPhase → Prop
  | .absorb existing todo => ∀ gone, bootstrap = some (.entries (gone ++ todo)) →
      (∀ e ∈ gone, absorbEntry credentials e = .skipped) ∧
        ∀ e ∈ todo, absorbEntry credentials e = absorbEntry existing e
  | .list claude => claude = none
  | .openClaw claude found _ | .profiles claude found => claude = none ∧ found = []
  | _ => True

theorem Absorbed.of_importing {found : List (JsString × JsString)}
    {done : List (JsString × Option (Option Value))}
    (h : l.Importing credentials agents none found done) (hfound : found = []) :
    l.Absorbed credentials agents := by
  refine ⟨?_, h.agents_eq⟩
  have hkey : l.apiKey = [] := by
    have hplace : l.claudePlace = none := Option.map_eq_none_iff.mp h.claude_eq.symm
    rw [apiKey, Option.map_eq_none_iff.mp hplace]
    rfl
  have hprofiles : profilesOf done = [] := by
    have hplaces : l.openClawPlaces done = [] :=
      List.map_eq_nil_iff.mp (h.found_eq.symm.trans hfound)
    have hlength := length_places (l.before.length + l.absorbed.length + l.apiKey.length) [] done
    rw [← openClawPlaces, hplaces, List.length_nil, Nat.zero_add] at hlength
    exact List.length_eq_zero_iff.mp hlength.symm
  have hholds := h.holds
  rwa [hkey, hprofiles, List.append_nil, List.append_nil] at hholds

/-- A boot that begins again takes up what is left. -/
theorem Reaches.restart {bootstrap : Option BootstrapText} {phase : BootPhase}
    (h : l.Reaches credentials agents bootstrap phase)
    (hresumes : Resumes credentials bootstrap phase) :
    l.Reaches credentials agents bootstrap .start := by
  cases phase with
  | start => exact h
  | absorb existing todo =>
    obtain ⟨⟨gone, hgone⟩, hentries, ⟨done, hholds, hpending⟩, hthrows, hagents⟩ := h
    obtain ⟨hskipped, hsame⟩ := hresumes gone (by rw [hgone]; exact hentries)
    have hnothing : absorbedFrom credentials gone = [] := by
      refine List.filterMap_eq_nil_iff.mpr ?_
      intro e he
      rw [hskipped e he]
      rfl
    have hleft : absorbedFrom credentials l.entries = absorbedFrom existing todo := by
      rw [← hgone, absorbedFrom, List.filterMap_append, ← absorbedFrom, hnothing, List.nil_append]
      refine List.filterMap_congr ?_
      intro e he
      rw [hsame e he]
    refine .inl ⟨hentries, ⟨done, hholds, by rw [hleft]; exact hpending⟩, fun e he => ?_, hagents⟩
    rw [← hgone] at he
    rcases List.mem_append.mp he with hbefore | hafter
    · rw [hskipped e hbefore]
      exact fun h => by cases h
    · rw [hsame e hafter]
      exact hthrows e hafter
  | check => exact .inr h
  | apiKey => exact .inr ⟨h.1, .inl h.2.2⟩
  | list claude =>
    obtain ⟨hnone, himporting⟩ := h
    obtain rfl : claude = none := hresumes
    exact .inr ⟨hnone, .inl (.of_importing himporting rfl)⟩
  | openClaw claude found todo =>
    obtain ⟨hnone, done, -, himporting⟩ := h
    obtain ⟨rfl, rfl⟩ := hresumes
    exact .inr ⟨hnone, .inl (.of_importing himporting rfl)⟩
  | profiles claude found =>
    obtain ⟨hnone, himporting⟩ := h
    obtain ⟨rfl, rfl⟩ := hresumes
    exact .inr ⟨hnone, .inl (.of_importing himporting rfl)⟩
  | cache => exact .inr ⟨h.1, .inr h.2⟩
  | running cache => exact .inr ⟨h.1, .inr h.2⟩

section Dying

variable {E : Type} {p : StorePlatform E} {d : StoreDisk E} {file : CredentialsFile}

theorem bootReads_moment (legacy : LegacyFiles) (c : BootClock) (phase : BootPhase)
    (hfile : p.contents d.toCredentialFiles = some file) :
    BootReads p legacy c.moment d phase := by
  have hfinds := finds_moment (p := p) c (by rw [hfile]; rfl)
  cases phase with
  | start => exact fun _ _ => hfinds.keepsKey
  | absorb existing todo =>
    cases todo with
    | nil => trivial
    | cons e rest => exact fun _ => hfinds
  | apiKey => exact fun _ => hfinds
  | openClaw claude found todo =>
    cases todo with
    | nil => trivial
    | cons a rest => exact fun _ => hfinds
  | profiles => exact hfinds.keepsKey
  | _ => trivial

/-- Only an envelope needs the key. -/
theorem contents_of_key {d : CredentialFiles E} {key : Option (List UInt8)}
    (h : ∀ e, d.creds = some (.envelope e) → key = d.key) :
    p.contents ⟨d.creds, key⟩ = p.contents d := by
  obtain ⟨creds, key'⟩ := d
  match creds with
  | none => rfl
  | some (.plain f) => rfl
  | some .malformed => rfl
  | some (.envelope e) => rw [h e rfl]

/-- A key that is made while the process dies is not one that the store needs. -/
theorem contents_diesIn (legacy : LegacyFiles) (c : BootClock) (phase : BootPhase)
    (hfile : p.contents d.toCredentialFiles = some file) :
    p.contents (diesIn p legacy c.moment d phase).toCredentialFiles = some file := by
  refine (contents_of_key fun e he => ?_).trans hfile
  rcases files_boot (bootReads_moment legacy c phase hfile) with hsame | ⟨new, -, hadded⟩
  · rw [hsame]
  · rw [hadded, StorePlatform.addCredential, loadCredentials_moment hfile]
    have hfinds := (finds_moment (p := p) c (by rw [hfile]; rfl)).keepsKey e he rfl
    exact (masterKey_of_finds (r := c.moment.save.key) hfinds).1

end Dying

end Layout

/-! ### Runs -/

section Runs

variable {E : Type}

/-- What holds before a crash. -/
def CrashFits (p : StorePlatform E) (s : StoreState E) : BootInput → Prop
  | .crash _ => ∀ file, p.contents s.disk.toCredentialFiles = some file →
      Layout.Resumes file.credentials s.disk.bootstrap s.phase
  | .step _ => True

def entriesOf : Option BootstrapText → List Value
  | some (.entries todo) => todo
  | _ => []

/-- What is to be migrated of what the files hold. -/
def layoutOf (legacy : LegacyFiles) (disk : StoreDisk E) (file : CredentialsFile) : Layout :=
  ⟨legacy, file.credentials, entriesOf disk.bootstrap, disk.agents⟩

/-- The steps that a boot still takes at most. -/
def stepsLeft (legacy : LegacyFiles) (s : StoreState E) : Nat :=
  match s.phase with
  | .start => (entriesOf s.disk.bootstrap).length + legacy.openClaw.length + 8
  | .absorb _ todo => todo.length + legacy.openClaw.length + 7
  | .check => legacy.openClaw.length + 6
  | .apiKey => legacy.openClaw.length + 5
  | .list _ => legacy.openClaw.length + 4
  | .openClaw _ _ todo => todo.length + 3
  | .profiles _ _ => 2
  | .cache => 1
  | .running _ => 0

variable {p : StorePlatform E} {legacy : LegacyFiles}

theorem stepsLeft_boot (s : StoreState E) (c : BootClock) (hleft : stepsLeft legacy s ≠ 0) :
    stepsLeft legacy (s.booted p legacy c.moment) < stepsLeft legacy s := by
  obtain ⟨d, phase⟩ := s
  rw [StoreState.booted]
  cases phase with
  | start =>
    rw [bootNext, bootStart, show c.moment.fails = false from rfl, if_neg Bool.false_ne_true]
    cases hbootstrap : d.bootstrap with
    | none =>
      dsimp only [stepsLeft]
      omega
    | some text =>
      cases text with
      | unparsed | noList =>
        dsimp only [stepsLeft]
        omega
      | entries todo =>
        dsimp only [stepsLeft]
        rw [hbootstrap, entriesOf]
        omega
  | absorb existing todo =>
    rw [bootNext]
    cases todo with
    | nil => simp [bootAbsorb, stepsLeft]
    | cons e rest =>
      rw [bootAbsorb]
      cases absorbEntry existing e with
      | throws | skipped | added new =>
        dsimp only [stepsLeft, List.length_cons]
        omega
  | check =>
    rw [bootNext]
    dsimp only
    split <;> simp only [stepsLeft] <;> omega
  | apiKey =>
    rw [bootNext]
    cases (if c.moment.fails then none else legacy.apiKey).bind apiKeyCredential with
    | none | some new =>
      dsimp only [stepsLeft]
      omega
  | list claude =>
    simp only [bootNext, stepsLeft, show c.moment.fails = false from rfl, if_neg Bool.false_ne_true]
    omega
  | openClaw claude found todo =>
    rw [bootNext]
    cases todo with
    | nil => simp [bootOpenClaw, stepsLeft]
    | cons a rest =>
      rw [bootOpenClaw]
      cases if c.moment.fails then none else profileCredential a.1 a.2 with
      | none | some new =>
        dsimp only [stepsLeft, List.length_cons]
        omega
  | profiles claude found => simp [bootNext, bootProfiles, stepsLeft]
  | cache => simp [bootNext, stepsLeft]
  | running cache => exact absurd rfl hleft

/-- A boot that does not die ends. -/
theorem boot_ends (clocks : List BootClock) {s : StoreState E}
    (h : stepsLeft legacy s ≤ clocks.length) :
    ∃ cache, (final (bootRun p legacy) (clocks.map BootInput.step) s).phase = .running cache := by
  induction clocks generalizing s with
  | nil =>
    obtain ⟨d, phase⟩ := s
    have hzero : stepsLeft legacy ⟨d, phase⟩ = 0 := Nat.le_zero.mp h
    cases phase with
    | running cache => exact ⟨cache, rfl⟩
    | _ => simp [stepsLeft] at hzero
  | cons c rest ih =>
    rw [List.map_cons, final_cons]
    apply ih
    change stepsLeft legacy (s.booted p legacy c.moment) ≤ rest.length
    by_cases hleft : stepsLeft legacy s = 0
    · obtain ⟨d, phase⟩ := s
      cases phase with
      | running cache => exact Nat.zero_le _
      | _ => simp [stepsLeft] at hleft
    · have := stepsLeft_boot (p := p) s c hleft
      rw [List.length_cons] at h
      omega

/-- What is reached of a layout is reached after every step, and after a crash that fits. -/
theorem reached_next {l : Layout} {s : StoreState E} (h : l.Reached p s) (input : BootInput)
    (hfits : CrashFits p s input) : l.Reached p (bootRun p l.legacy input s).2 := by
  cases input with
  | step c => exact Layout.reached_boot h
  | crash during =>
    obtain ⟨file, hfile, hsaved, hphase⟩ := h
    have hrestart := hphase.restart (hfits file hfile)
    cases during with
    | none => exact ⟨file, hfile, hsaved, hrestart⟩
    | some c =>
      exact ⟨file, Layout.contents_diesIn l.legacy c s.phase hfile, hsaved, hrestart⟩

end Runs

end OsModa.Gateway
