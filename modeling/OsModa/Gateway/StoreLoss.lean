import OsModa.Gateway.Migration
import OsModa.Base.Machine

/-!
What is left of the credentials and the agents where reads fail.

Every loader takes a file that it cannot read for one that is not there, and what is saved
afterwards is what was loaded. Nothing is lost as long as what is loaded before it is saved is read,
and no key that an encrypted store needs is made anew (`store_kept`).
-/

namespace OsModa.Gateway

open OsModa.Js OsModa.Encoding OsModa.Machine

/-! ### The gateway's operations -/

/-- What `updateCredentialMeta` changes. -/
structure CredentialPatch where
  label : Option Value
  test : Option CredentialTest
  cooldown : Option (Nat × JsString)

/-- `Object.assign(c, patch)` -/
def CredentialPatch.apply (patch : CredentialPatch) (c : StoredCredential) : StoredCredential :=
  { c with
    label := patch.label.getD c.label
    lastTest := patch.test.or c.lastTest
    cooldownUntil := (patch.cooldown.map Prod.fst).or c.cooldownUntil
    cooldownReason := (patch.cooldown.map Prod.snd).or c.cooldownReason }

inductive StoreInput where
  /-- The boot goes on. -/
  | boot (w : BootMoment)
  /-- The process is started again. -/
  | restart
  /-- Anything that only loads the credentials. -/
  | load (r : StoreRead)
  | addCredential (c : NewCredential) (w : StoreMoment)
  | removeCredential (id : JsString) (w : StoreMoment)
  | setDefault (id : JsString) (w : StoreMoment)
  | updateCredentialMeta (id : JsString) (patch : CredentialPatch) (w : StoreMoment)
  /-- `ConfigCache.reload` -/
  | reload (fails : Bool)
  | upsertAgent (a : AgentFields)
  | removeAgent (id : JsString)
  | setBindings (bindings : List Value)

/-- The agents with one put in, in the place of the first with its id. -/
def upsert (a : AgentFields) : List AgentFields → List AgentFields
  | [] => [a]
  | b :: rest => if Value.strictEq b.id a.id then a :: rest else b :: upsert a rest

namespace StoreState

variable {E : Type} (p : StorePlatform E) (legacy : LegacyFiles)

/-- A save of what the cache has become. -/
def savedCache (s : StoreState E) (cache : AgentsFile) : StoreState E :=
  ⟨s.disk.saveAgents cache, .running cache⟩

/-- `ConfigCache.removeAgent`; looking at a binding may throw, and then nothing is saved. -/
def removedAgent (s : StoreState E) (id : JsString) (cache : AgentsFile) : StoreState E :=
  if cache.agents.any (AgentFields.hasId id) then
    let agents := cache.agents.eraseP (AgentFields.hasId id)
    if cache.bindings.any fun b => (isBindingOf id b).isNone then
      { s with phase := .running { cache with agents } }
    else s.savedCache ⟨agents, cache.bindings.filter fun b => !(isBindingOf id b).any (· = true)⟩
  else s

def withFiles (s : StoreState E) (files : CredentialFiles E) : StoreState E :=
  { s with disk := s.disk.withFiles files }

/-- The operations of a gateway that runs, with what is in its cache. -/
def operated (s : StoreState E) (cache : AgentsFile) : StoreInput → StoreState E
  | .boot w => s.booted p legacy w
  | .restart => { s with phase := .start }
  | .load r => s.withFiles (p.loadCredentials r s.disk.toCredentialFiles).2
  | .addCredential c w => s.withFiles (p.addCredential c w s.disk.toCredentialFiles)
  | .removeCredential id w =>
    s.withFiles (p.updateCredentials (·.removeCredential id) w s.disk.toCredentialFiles)
  | .setDefault id w =>
    s.withFiles (p.updateCredentials (·.setDefault id) w s.disk.toCredentialFiles)
  | .updateCredentialMeta id patch w =>
    s.withFiles (p.updateCredentials (·.updateMeta id patch.apply) w s.disk.toCredentialFiles)
  | .reload fails => { s with phase := .running (s.disk.loadAgents fails) }
  | .upsertAgent a => s.savedCache { cache with agents := upsert a cache.agents }
  | .removeAgent id => s.removedAgent id cache
  | .setBindings bindings => s.savedCache { cache with bindings }

/-- What a process that boots can do. -/
def booting (s : StoreState E) : StoreInput → StoreState E
  | .boot w => s.booted p legacy w
  | .restart => { s with phase := .start }
  | _ => s

end StoreState

def storeNext {E : Type} (p : StorePlatform E) (legacy : LegacyFiles) (input : StoreInput)
    (s : StoreState E) : Unit × StoreState E :=
  ((), match s.phase with
    | .running cache => s.operated p legacy cache input
    | _ => s.booting p legacy input)

/-! ### What must be kept -/

/-- The credentials that an operation names. -/
def StoreInput.NamesCredential (input : StoreInput) (id : JsString) : Prop :=
  match input with
  | .removeCredential id' _ | .updateCredentialMeta id' _ _ => id = id'
  | _ => False

/-- The agents that an operation names. -/
def StoreInput.NamesAgent (input : StoreInput) (a : AgentFields) : Prop :=
  match input with
  | .upsertAgent b => Value.strictEq (a.id.map Value.saved) (b.id.map Value.saved) = true
  | .removeAgent id => a.hasId id = true
  | _ => False

/-- Agents that cannot be read are left as they are; of those that can, every one is kept but for
those that are named. -/
structure KeepsAgents (named : AgentFields → Prop) (before after : Option (Option AgentsFile)) :
    Prop where
  unread : before = some none → after = before
  kept : ∀ f, before = some (some f) → ∃ f', after = some (some f') ∧
    ∀ a ∈ f.agents, ¬ named a → ∃ a' ∈ f'.agents, Value.savedFields a' = Value.savedFields a

/-- What a step must do. -/
structure StepKeeps {E : Type} (p : StorePlatform E) (input : StoreInput) (d d' : StoreDisk E) :
    Prop where
  credentials : d.toCredentialFiles.Keeps p input.NamesCredential d'.toCredentialFiles
  agents : KeepsAgents input.NamesAgent d.agents d'.agents
  default : ∀ file, p.contents d'.toCredentialFiles = some file → file.DefaultOk

/-! ### What must be read -/

/-- The agents are read, if there are any. -/
def FindsAgents {E : Type} (fails : Bool) (d : StoreDisk E) : Prop :=
  d.agents.isSome → fails = false ∧ d.agents ≠ some none

section Fits

variable {E : Type} (p : StorePlatform E) (legacy : LegacyFiles)

/-- What a step of the boot must read of the credentials. -/
def BootReads (w : BootMoment) (d : StoreDisk E) : BootPhase → Prop
  | .start => w.fails = false → (∃ todo, d.bootstrap = some (.entries todo)) →
      w.load.KeepsKey p d.toCredentialFiles
  | .absorb existing (entry :: _) => (∃ c, absorbEntry existing entry = .added c) →
      w.load.Finds p d.toCredentialFiles
  | .apiKey => ((if w.fails then none else legacy.apiKey).bind apiKeyCredential).isSome →
      w.load.Finds p d.toCredentialFiles
  | .openClaw _ _ ((agentId, auth) :: _) =>
      (if w.fails then none else profileCredential agentId auth).isSome →
        w.load.Finds p d.toCredentialFiles
  | .profiles _ _ => w.load.KeepsKey p d.toCredentialFiles
  | _ => True

/-- What a step of the boot must read. -/
structure BootFits (w : BootMoment) (d : StoreDisk E) (phase : BootPhase) : Prop where
  reads : BootReads p legacy w d phase
  agents : phase = .check ∨ phase = .cache → FindsAgents w.fails d

/-- What an operation must read. -/
def OperationFits (s : StoreState E) (cache : AgentsFile) : StoreInput → Prop
  | .load r => r.KeepsKey p s.disk.toCredentialFiles
  | .addCredential _ w => w.load.Finds p s.disk.toCredentialFiles
  | .removeCredential _ w | .setDefault _ w | .updateCredentialMeta _ _ w =>
      w.load.KeepsKey p s.disk.toCredentialFiles
  | .reload fails => FindsAgents fails s.disk
  | .removeAgent id => cache.agents.any (AgentFields.hasId id) = true →
      ∀ b ∈ cache.bindings, isBindingOf id b ≠ none
  | _ => True

/-- What must be read in a step. -/
structure StoreFits (s : StoreState E) (input : StoreInput) : Prop where
  boot : ∀ w, input = .boot w → BootFits p legacy w s.disk s.phase
  operation : ∀ cache, s.phase = .running cache → OperationFits p s cache input

end Fits

/-! ### The default -/

/-- A store with a right default, of credentials that have ids. -/
structure CredentialsFile.Sound (file : CredentialsFile) : Prop extends file.DefaultOk where
  ids : ∀ c ∈ file.credentials, c.id ≠ []

namespace CredentialsFile.Sound

variable {file file' : CredentialsFile}

theorem empty : CredentialsFile.empty.Sound :=
  ⟨⟨by simp [CredentialsFile.empty], fun id h => by cases h⟩, fun c h => by cases h⟩

theorem saved (h : file.Sound) : file.saved.Sound := by
  refine ⟨⟨?_, fun id hid => ?_⟩, fun c hc => ?_⟩
  · rw [CredentialsFile.saved, List.map_eq_nil_iff]
    exact h.none_iff
  · obtain ⟨c, hc, rfl⟩ := h.exists_of id hid
    exact ⟨c.saved, List.mem_map_of_mem hc, rfl⟩
  · obtain ⟨b, hb, rfl⟩ := List.mem_map.mp hc
    exact h.ids b hb

theorem addCredential (h : file.Sound) {c : StoredCredential} (hid : c.id ≠ []) :
    (file.addCredential c).Sound := by
  have hlast : c ∈ (file.addCredential c).credentials :=
    List.mem_append_right _ (List.mem_singleton_self c)
  refine ⟨⟨?_, fun id hdefault => ?_⟩, fun b hb => ?_⟩
  · have hsome : (file.addCredential c).defaultId ≠ none := by
      rw [CredentialsFile.addCredential]
      split
      · rename_i hany
        intro hnone
        rw [hnone] at hany
        cases hany
      · exact Option.some_ne_none _
    exact iff_of_false hsome (List.ne_nil_of_mem hlast)
  · rw [CredentialsFile.addCredential] at hdefault
    split at hdefault
    · obtain ⟨b, hb, hbid⟩ := h.exists_of id hdefault
      exact ⟨b, List.mem_append_left _ hb, hbid⟩
    · exact ⟨c, hlast, Option.some.inj hdefault⟩
  · rcases List.mem_append.mp hb with hold | hnew
    · exact h.ids b hold
    · rw [List.mem_singleton.mp hnew]
      exact hid

theorem removeCredential (h : file.Sound) {id : JsString}
    (hremoved : file.removeCredential id = some file') : file'.Sound := by
  rw [CredentialsFile.removeCredential] at hremoved
  split at hremoved
  · rename_i hfound
    obtain rfl := Option.some.inj hremoved
    have hids : ∀ c ∈ file.credentials.eraseP (fun c => c.id = id), c.id ≠ [] := fun c hc =>
      h.ids c (List.mem_of_mem_eraseP hc)
    by_cases hdefault : file.defaultId = some id
    · rw [if_pos hdefault]
      cases hrest : file.credentials.eraseP fun c => c.id = id with
      | nil => exact ⟨⟨by simp, fun id h => by cases h⟩, fun c h => by cases h⟩
      | cons c rest =>
        rw [hrest] at hids
        have hhead : ((c :: rest).head?.map StoredCredential.id).filter (· ≠ []) = some c.id := by
          rw [List.head?_cons, Option.map_some]
          exact Option.filter_eq_some_iff.mpr ⟨rfl, by simpa using hids c List.mem_cons_self⟩
        rw [hhead]
        refine ⟨⟨by simp, fun id hid => ?_⟩, hids⟩
        exact ⟨c, List.mem_cons_self, Option.some.inj hid⟩
    · rw [if_neg hdefault]
      obtain ⟨c, hc⟩ := Option.isSome_iff_exists.mp hfound
      have hne : file.credentials ≠ [] := List.ne_nil_of_mem (List.mem_of_find?_eq_some hc)
      obtain ⟨d, hd⟩ := Option.ne_none_iff_exists'.mp (mt h.none_iff.mp hne)
      obtain ⟨b, hb, hbid⟩ := h.exists_of d hd
      have hother : b.id ≠ id := fun heq => hdefault (hd.trans (by rw [← hbid, heq]))
      have hstays : b ∈ file.credentials.eraseP fun c => c.id = id := by
        rwa [List.mem_eraseP_of_neg (by simpa using hother)]
      refine ⟨⟨?_, fun id' hid' => ?_⟩, hids⟩
      · rw [hd]
        exact iff_of_false (Option.some_ne_none _) (List.ne_nil_of_mem hstays)
      · rw [hd] at hid'
        exact ⟨b, hstays, hbid.trans (Option.some.inj hid')⟩
  · cases hremoved

theorem setDefault (h : file.Sound) {id : JsString} (hset : file.setDefault id = some file') :
    file'.Sound := by
  rw [CredentialsFile.setDefault] at hset
  split at hset
  · rename_i hfound
    obtain rfl := Option.some.inj hset
    obtain ⟨c, hc⟩ := Option.isSome_iff_exists.mp hfound
    obtain ⟨hmem, hid⟩ := CredentialsFile.mem_of_getCredential hc
    refine ⟨⟨iff_of_false (Option.some_ne_none _) (List.ne_nil_of_mem hmem), fun id' hid' => ?_⟩, h.ids⟩
    exact ⟨c, hmem, hid.trans (Option.some.inj hid')⟩
  · cases hset

theorem updateMeta (h : file.Sound) {id : JsString} {f : StoredCredential → StoredCredential}
    (hf : ∀ c, (f c).id = c.id) (hupdate : file.updateMeta id f = some file') : file'.Sound := by
  rw [CredentialsFile.updateMeta] at hupdate
  split at hupdate
  · obtain rfl := Option.some.inj hupdate
    have hids := CredentialsFile.ids_updateFirst hf id file.credentials
    have hmem : ∀ id', (∃ c ∈ CredentialsFile.updateFirst id f file.credentials, c.id = id') ↔
        ∃ c ∈ file.credentials, c.id = id' := by
      intro id'
      rw [← List.mem_map, ← List.mem_map, hids]
    refine ⟨⟨?_, fun id' hid' => (hmem id').mpr (h.exists_of id' hid')⟩, fun c hc => ?_⟩
    · rw [← List.map_eq_nil_iff (f := StoredCredential.id), hids, List.map_eq_nil_iff]
      exact h.none_iff
    · obtain ⟨b, hb, hbid⟩ := (hmem c.id).mp ⟨c, hc, rfl⟩
      rw [← hbid]
      exact h.ids b hb
  · cases hupdate

end CredentialsFile.Sound

/-! ### One step -/

section Steps

variable {E : Type} {p : StorePlatform E} {legacy : LegacyFiles}

/-- What can be read of the store has a right default. -/
def SoundFiles (p : StorePlatform E) (d : CredentialFiles E) : Prop :=
  ∀ file, p.contents d = some file → file.Sound

/-- Of a process that has found no agents there are none; one that runs has them all. -/
def PhaseOk (agents : Option (Option AgentsFile)) : BootPhase → Prop
  | .apiKey | .list _ | .openClaw _ _ _ | .profiles _ _ =>
    agents ≠ some none ∧ ∀ f, agents = some (some f) → f.agents = []
  | .running cache => agents ≠ some none ∧ ∀ f, agents = some (some f) →
      ∀ a ∈ f.agents, ∃ a' ∈ cache.agents, Value.savedFields a' = Value.savedFields a
  | _ => True

/-- What holds between steps. -/
structure StoreOk (p : StorePlatform E) (s : StoreState E) : Prop where
  files : SoundFiles p s.disk.toCredentialFiles
  phase : PhaseOk s.disk.agents s.phase

theorem KeepsAgents.refl {named : AgentFields → Prop} (agents : Option (Option AgentsFile)) :
    KeepsAgents named agents agents :=
  ⟨fun _ => rfl, fun f h => ⟨f, h, fun a ha _ => ⟨a, ha, rfl⟩⟩⟩

section Files

variable {d : CredentialFiles E} {w : StoreMoment}

theorem soundFiles_save {file : CredentialsFile} (h : file.Sound) (r : StoreWrite) :
    SoundFiles p (p.saveCredentials r file d) := by
  intro file' hfile'
  rw [contents_saveCredentials] at hfile'
  obtain rfl := Option.some.inj hfile'
  exact h.saved

theorem newCredentialId_ne_nil (random : JsString) : newCredentialId random ≠ [] := by
  intro h
  have hlength := congrArg List.length h
  rw [newCredentialId, List.length_append] at hlength
  revert hlength
  have : (utf16 "cred_").length = 5 := by decide
  rw [this, List.length_nil]
  omega

theorem soundFiles_addCredential (h : SoundFiles p d) (hfinds : w.load.Finds p d)
    (c : NewCredential) : SoundFiles p (p.addCredential c w d) := by
  obtain ⟨file, hload, hfile⟩ := loadCredentials_of_finds hfinds
  rw [StorePlatform.addCredential, hload]
  exact soundFiles_save ((h file hfile).addCredential (newCredentialId_ne_nil _)) _

theorem soundFiles_update (h : SoundFiles p d) (hkeeps : w.load.KeepsKey p d)
    {f : CredentialsFile → Option CredentialsFile}
    (hf : ∀ file file', file.Sound → f file = some file' → file'.Sound) :
    SoundFiles p (p.updateCredentials f w d) := by
  obtain ⟨hsame, hfound⟩ := loadCredentials_of_keepsKey hkeeps
  rw [StorePlatform.updateCredentials]
  dsimp only
  rw [hsame]
  split
  · rename_i file' hupdate
    refine soundFiles_save (hf _ file' ?_ hupdate) _
    rcases hfound with hnothing | hfound
    · rw [hnothing]
      exact .empty
    · exact h _ hfound
  · exact h

/-- What an operation on the store must do. -/
def GoodFiles (p : StorePlatform E) (named : JsString → Prop) (d d' : CredentialFiles E) : Prop :=
  d.Keeps p named d' ∧ SoundFiles p d'

theorem goodFiles_refl (named : JsString → Prop) (h : SoundFiles p d) : GoodFiles p named d d :=
  ⟨.refl, h⟩

theorem goodFiles_load (named : JsString → Prop) (h : SoundFiles p d) {r : StoreRead}
    (hkeeps : r.KeepsKey p d) : GoodFiles p named d (p.loadCredentials r d).2 := by
  rw [(loadCredentials_of_keepsKey hkeeps).1]
  exact goodFiles_refl named h

theorem goodFiles_add (named : JsString → Prop) (h : SoundFiles p d) (hfinds : w.load.Finds p d)
    (c : NewCredential) : GoodFiles p named d (p.addCredential c w d) :=
  ⟨keeps_addCredential hfinds c, soundFiles_addCredential h hfinds c⟩

theorem goodFiles_remove (h : SoundFiles p d) (hkeeps : w.load.KeepsKey p d) (id : JsString) :
    GoodFiles p (· = id) d (p.updateCredentials (·.removeCredential id) w d) := by
  refine ⟨keeps_updateCredentials hkeeps rfl fun file file' hremoved c hc hother => ?_,
    soundFiles_update h hkeeps fun file file' hsound hremoved => hsound.removeCredential hremoved⟩
  rw [CredentialsFile.removeCredential] at hremoved
  split at hremoved
  · obtain rfl := Option.some.inj hremoved
    refine ⟨c, ?_, rfl⟩
    rwa [List.mem_eraseP_of_neg (by simpa using hother)]
  · cases hremoved

theorem goodFiles_setDefault (named : JsString → Prop) (h : SoundFiles p d)
    (hkeeps : w.load.KeepsKey p d) (id : JsString) :
    GoodFiles p named d (p.updateCredentials (·.setDefault id) w d) := by
  refine ⟨keeps_updateCredentials hkeeps rfl fun file file' hset c hc _ => ?_,
    soundFiles_update h hkeeps fun file file' hsound hset => hsound.setDefault hset⟩
  rw [CredentialsFile.setDefault] at hset
  split at hset
  · obtain rfl := Option.some.inj hset
    exact ⟨c, hc, rfl⟩
  · cases hset

theorem mem_updateFirst {f : StoredCredential → StoredCredential} {id : JsString}
    {l : List StoredCredential} {c : StoredCredential} (hc : c ∈ l) (hother : c.id ≠ id) :
    c ∈ CredentialsFile.updateFirst id f l := by
  induction l with
  | nil => cases hc
  | cons b rest ih =>
    rw [CredentialsFile.updateFirst]
    rcases List.mem_cons.mp hc with rfl | hrest
    · rw [if_neg hother]
      exact List.mem_cons_self
    · split
      · exact List.mem_cons_of_mem _ hrest
      · exact List.mem_cons_of_mem _ (ih hrest)

theorem goodFiles_updateMeta (h : SoundFiles p d) (hkeeps : w.load.KeepsKey p d) (id : JsString)
    (patch : CredentialPatch) :
    GoodFiles p (· = id) d (p.updateCredentials (·.updateMeta id patch.apply) w d) := by
  have hid : ∀ c, (patch.apply c).id = c.id := fun _ => rfl
  refine ⟨keeps_updateCredentials hkeeps rfl fun file file' hupdate c hc hother => ?_,
    soundFiles_update h hkeeps fun file file' hsound hupdate => hsound.updateMeta hid hupdate⟩
  rw [CredentialsFile.updateMeta] at hupdate
  split at hupdate
  · obtain rfl := Option.some.inj hupdate
    exact ⟨c, mem_updateFirst hc hother, rfl⟩
  · cases hupdate

end Files

/-! ### The boot -/

section Boot

variable {d : StoreDisk E} {w : BootMoment} {phase : BootPhase}

theorem loadAgents_of_finds {fails : Bool} (h : FindsAgents fails d) :
    d.agents ≠ some none ∧ ∀ f, d.agents = some (some f) → d.loadAgents fails = f := by
  refine ⟨fun hunread => (h (by rw [hunread]; rfl)).2 hunread, fun f hf => ?_⟩
  obtain ⟨hread, -⟩ := h (by rw [hf]; rfl)
  rw [StoreDisk.loadAgents, hread, hf]
  rfl

/-- A step of the boot leaves the store, or adds a credential to what it has read. -/
theorem files_boot (hreads : BootReads p legacy w d phase) :
    (bootNext p legacy w d phase).2.toCredentialFiles = d.toCredentialFiles ∨
      ∃ c, w.load.Finds p d.toCredentialFiles ∧ (bootNext p legacy w d phase).2.toCredentialFiles =
        p.addCredential c w.toStoreMoment d.toCredentialFiles := by
  cases phase with
  | start =>
    refine .inl ?_
    rw [bootNext, bootStart]
    split
    · rfl
    · rfl
    · rfl
    · rename_i todo hentries
      refine (loadCredentials_of_keepsKey ?_).1
      split at hentries
      · cases hentries
      · rename_i hread
        exact hreads (Bool.eq_false_iff.mpr hread) ⟨todo, hentries⟩
  | absorb existing todo =>
    cases todo with
    | nil => exact .inl rfl
    | cons entry rest =>
      rw [bootNext, bootAbsorb]
      split
      · exact .inl rfl
      · exact .inl rfl
      · rename_i c hadded
        exact .inr ⟨c, hreads ⟨c, hadded⟩, rfl⟩
  | check => exact .inl rfl
  | apiKey =>
    rw [bootNext]
    split
    · exact .inl rfl
    · rename_i c hfound
      exact .inr ⟨c, hreads (by rw [hfound]; rfl), rfl⟩
  | list => exact .inl rfl
  | openClaw claude found todo =>
    cases todo with
    | nil => exact .inl rfl
    | cons entry rest =>
      rw [bootNext, bootOpenClaw]
      split
      · exact .inl rfl
      · rename_i c hfound
        exact .inr ⟨c, hreads (by rw [hfound]; rfl), rfl⟩
  | profiles => exact .inl (loadCredentials_of_keepsKey hreads).1
  | cache => exact .inl rfl
  | running => exact .inl rfl

theorem goodFiles_boot (h : SoundFiles p d.toCredentialFiles)
    (hfits : BootFits p legacy w d phase) :
    GoodFiles p (fun _ => False) d.toCredentialFiles
      (bootNext p legacy w d phase).2.toCredentialFiles := by
  rcases files_boot hfits.reads with hsame | ⟨c, hfinds, hadded⟩
  · rw [hsame]
    exact goodFiles_refl _ h
  · rw [hadded]
    exact goodFiles_add _ h hfinds c

/-- Only the step that makes the profiles writes agents. -/
theorem agents_boot (h : ∀ claude found, phase ≠ .profiles claude found) :
    (bootNext p legacy w d phase).2.agents = d.agents := by
  cases phase with
  | start =>
    rw [bootNext, bootStart]
    split <;> rfl
  | absorb existing todo =>
    cases todo with
    | nil => rfl
    | cons entry rest =>
      rw [bootNext, bootAbsorb]
      split <;> rfl
  | apiKey =>
    rw [bootNext]
    split <;> rfl
  | openClaw claude found todo =>
    cases todo with
    | nil => rfl
    | cons entry rest =>
      rw [bootNext, bootOpenClaw]
      split <;> rfl
  | profiles claude found => exact absurd rfl (h claude found)
  | _ => rfl

theorem keepsAgents_boot {named : AgentFields → Prop} (hphase : PhaseOk d.agents phase) :
    KeepsAgents named d.agents (bootNext p legacy w d phase).2.agents := by
  by_cases hprofiles : ∃ claude found, phase = .profiles claude found
  · obtain ⟨claude, found, rfl⟩ := hprofiles
    refine ⟨fun hunread => absurd hunread hphase.1, fun f hf => ⟨_, rfl, fun a ha => ?_⟩⟩
    rw [hphase.2 f hf] at ha
    cases ha
  · push Not at hprofiles
    rw [agents_boot hprofiles]
    exact .refl _

/-- A phase later the agents are as the process takes them to be. -/
theorem phaseOk_boot (hphase : PhaseOk d.agents phase) (hfits : BootFits p legacy w d phase) :
    PhaseOk (bootNext p legacy w d phase).2.agents (bootNext p legacy w d phase).1 := by
  cases phase with
  | start =>
    rw [bootNext, bootStart]
    split <;> trivial
  | absorb existing todo =>
    cases todo with
    | nil => trivial
    | cons entry rest =>
      rw [bootNext, bootAbsorb]
      split <;> trivial
  | check =>
    obtain ⟨hreadable, hload⟩ := loadAgents_of_finds (hfits.agents (.inl rfl))
    rw [bootNext]
    dsimp only
    split
    · rename_i hempty
      refine ⟨hreadable, fun f hf => ?_⟩
      rw [hload f hf] at hempty
      exact List.isEmpty_iff.mp hempty
    · trivial
  | apiKey =>
    rw [bootNext]
    split <;> exact hphase
  | list => exact hphase
  | openClaw claude found todo =>
    cases todo with
    | nil => exact hphase
    | cons entry rest =>
      rw [bootNext, bootOpenClaw]
      split <;> exact hphase
  | profiles => trivial
  | cache =>
    obtain ⟨hreadable, hload⟩ := loadAgents_of_finds (hfits.agents (.inr rfl))
    refine ⟨hreadable, fun f hf a ha => ⟨a, ?_, rfl⟩⟩
    rw [hload f hf]
    exact ha
  | running => exact hphase

end Boot

/-! ### The cache -/

section Cache

variable {named : AgentFields → Prop} {before : Option (Option AgentsFile)} {cache : AgentsFile}

/-- A save of a cache that still holds the agents that are not named. -/
theorem keepsAgents_save (h : PhaseOk before (.running cache)) {cache' : AgentsFile}
    (hnamed : ∀ a a', Value.savedFields a' = Value.savedFields a → named a' → named a)
    (hkept : ∀ a ∈ cache.agents, ¬ named a →
      ∃ a' ∈ cache'.agents, Value.savedFields a' = Value.savedFields a) :
    KeepsAgents named before (some (some cache'.saved)) := by
  refine ⟨fun hunread => absurd hunread h.1, fun f hf => ⟨cache'.saved, rfl, fun a ha hother => ?_⟩⟩
  obtain ⟨b, hb, hsaved⟩ := h.2 f hf a ha
  obtain ⟨b', hb', hsaved'⟩ := hkept b hb fun hnamedb => hother (hnamed a b hsaved hnamedb)
  refine ⟨Value.savedFields b', List.mem_map_of_mem hb', ?_⟩
  rw [Value.savedFields_savedFields, hsaved', hsaved]

theorem phaseOk_save (cache : AgentsFile) :
    PhaseOk (some (some cache.saved)) (.running cache) := by
  refine ⟨(by cases ·), fun f hf a ha => ?_⟩
  obtain rfl := Option.some.inj (Option.some.inj hf)
  obtain ⟨b, hb, rfl⟩ := List.mem_map.mp ha
  exact ⟨b, hb, (Value.savedFields_savedFields b).symm⟩

theorem strictEq_saved_of {v w : Option Value} (h : Value.strictEq v w = true) :
    Value.strictEq (v.map Value.saved) (w.map Value.saved) = true := by
  cases v with
  | none =>
    cases w with
    | none => rfl
    | some w => cases h
  | some v =>
    cases w with
    | none => cases v <;> cases h
    | some w =>
      cases v <;> cases w <;> try cases h
      · rfl
      · exact h
      · rename_i text text'
        obtain rfl : text = text' := of_decide_eq_true h
        rw [Option.map_some, Value.saved]
        split
        · exact decide_eq_true rfl
        · rfl
      · exact h

theorem mem_upsert {a b : AgentFields} {agents : List AgentFields} (hb : b ∈ agents)
    (hother : ¬ Value.strictEq b.id a.id = true) : b ∈ upsert a agents := by
  induction agents with
  | nil => cases hb
  | cons c rest ih =>
    rw [upsert]
    rcases List.mem_cons.mp hb with rfl | hrest
    · rw [if_neg hother]
      exact List.mem_cons_self
    · split
      · exact List.mem_cons_of_mem _ hrest
      · exact List.mem_cons_of_mem _ (ih hrest)

theorem id_of_savedFields {a a' : AgentFields} (h : Value.savedFields a' = Value.savedFields a) :
    a'.id.map Value.saved = a.id.map Value.saved := by
  rw [AgentFields.id, AgentFields.id, ← Value.get?_savedFields, ← Value.get?_savedFields, h]

theorem hasId_of_savedFields {a a' : AgentFields} {id : JsString}
    (h : Value.savedFields a' = Value.savedFields a) : a'.hasId id = a.hasId id := by
  rw [← hasId_saved, h, hasId_saved]

/-- What an operation of the cache must do. -/
def GoodAgents (named : AgentFields → Prop) (before : Option (Option AgentsFile))
    (s : StoreState E) : Prop :=
  KeepsAgents named before s.disk.agents ∧ PhaseOk s.disk.agents s.phase

variable {s : StoreState E}

theorem goodAgents_upsert (h : PhaseOk s.disk.agents (.running cache)) (a : AgentFields) :
    GoodAgents (StoreInput.NamesAgent (.upsertAgent a)) s.disk.agents
      (s.savedCache { cache with agents := upsert a cache.agents }) := by
  refine ⟨keepsAgents_save h (fun b b' hsaved hnamed => ?_) fun b hb hother => ?_, phaseOk_save _⟩
  · rw [StoreInput.NamesAgent, ← id_of_savedFields hsaved]
    exact hnamed
  · exact ⟨b, mem_upsert hb fun heq => hother (strictEq_saved_of heq), rfl⟩

theorem goodAgents_remove (h : PhaseOk s.disk.agents s.phase) (hrunning : s.phase = .running cache)
    {id : JsString} (hbindings : cache.agents.any (AgentFields.hasId id) = true →
      ∀ b ∈ cache.bindings, isBindingOf id b ≠ none) :
    GoodAgents (fun a => a.hasId id = true) s.disk.agents (s.removedAgent id cache) := by
  rw [StoreState.removedAgent]
  split
  · rename_i hfound
    have hnone : ¬ (cache.bindings.any fun b => (isBindingOf id b).isNone) = true := by
      intro hany
      obtain ⟨b, hb, hnull⟩ := List.any_eq_true.mp hany
      exact hbindings hfound b hb (Option.isNone_iff_eq_none.mp hnull)
    rw [hrunning] at h
    dsimp only
    rw [if_neg hnone]
    refine ⟨keepsAgents_save h (fun b b' hsaved hnamed => ?_) fun b hb hother => ?_, phaseOk_save _⟩
    · rw [← hasId_of_savedFields hsaved]
      exact hnamed
    · exact ⟨b, (List.mem_eraseP_of_neg hother).mpr hb, rfl⟩
  · exact ⟨.refl _, h⟩

theorem goodAgents_setBindings (named : AgentFields → Prop)
    (h : PhaseOk s.disk.agents (.running cache)) (bindings : List Value)
    (hnamed : ∀ a, ¬ named a) :
    GoodAgents named s.disk.agents (s.savedCache { cache with bindings }) :=
  ⟨keepsAgents_save h (fun _ b' _ hb' => absurd hb' (hnamed b')) fun b hb _ => ⟨b, hb, rfl⟩,
    phaseOk_save _⟩

theorem phaseOk_reload {fails : Bool} (h : FindsAgents fails s.disk) :
    PhaseOk s.disk.agents (.running (s.disk.loadAgents fails)) := by
  obtain ⟨hreadable, hload⟩ := loadAgents_of_finds h
  refine ⟨hreadable, fun f hf a ha => ⟨a, ?_, rfl⟩⟩
  rw [hload f hf]
  exact ha

end Cache

/-! ### Runs -/

/-- What a step does to the store and to the agents. -/
def GoodStep (p : StorePlatform E) (input : StoreInput) (s s' : StoreState E) : Prop :=
  GoodFiles p input.NamesCredential s.disk.toCredentialFiles s'.disk.toCredentialFiles ∧
    GoodAgents input.NamesAgent s.disk.agents s'

variable {s : StoreState E}

theorem goodStep_boot (hs : StoreOk p s) {w : BootMoment}
    (hfits : BootFits p legacy w s.disk s.phase) :
    GoodStep p (.boot w) s (s.booted p legacy w) :=
  ⟨goodFiles_boot hs.files hfits, keepsAgents_boot hs.phase, phaseOk_boot hs.phase hfits⟩

theorem goodStep_restart (hs : StoreOk p s) :
    GoodStep p .restart s { s with phase := .start } :=
  ⟨goodFiles_refl _ hs.files, .refl _, trivial⟩

theorem goodStep_same (hs : StoreOk p s) (input : StoreInput) : GoodStep p input s s :=
  ⟨goodFiles_refl _ hs.files, .refl _, hs.phase⟩

theorem goodStep_booting (hs : StoreOk p s) {input : StoreInput}
    (hfits : StoreFits p legacy s input) : GoodStep p input s (s.booting p legacy input) := by
  cases input with
  | boot w => exact goodStep_boot hs (hfits.boot w rfl)
  | restart => exact goodStep_restart hs
  | _ => exact goodStep_same hs _

theorem goodStep_operated (hs : StoreOk p s) {cache : AgentsFile} (hcache : s.phase = .running cache)
    {input : StoreInput} (hfits : StoreFits p legacy s input) :
    GoodStep p input s (s.operated p legacy cache input) := by
  have hoperation := hfits.operation cache hcache
  have hagents : PhaseOk s.disk.agents (.running cache) := hcache ▸ hs.phase
  cases input with
  | boot w => exact goodStep_boot hs (hfits.boot w rfl)
  | restart => exact goodStep_restart hs
  | load r => exact ⟨goodFiles_load _ hs.files hoperation, .refl _, hs.phase⟩
  | addCredential c w => exact ⟨goodFiles_add _ hs.files hoperation c, .refl _, hs.phase⟩
  | removeCredential id w => exact ⟨goodFiles_remove hs.files hoperation id, .refl _, hs.phase⟩
  | setDefault id w => exact ⟨goodFiles_setDefault _ hs.files hoperation id, .refl _, hs.phase⟩
  | updateCredentialMeta id patch w =>
    exact ⟨goodFiles_updateMeta hs.files hoperation id patch, .refl _, hs.phase⟩
  | reload fails => exact ⟨goodFiles_refl _ hs.files, .refl _, phaseOk_reload hoperation⟩
  | upsertAgent a => exact ⟨goodFiles_refl _ hs.files, goodAgents_upsert hagents a⟩
  | removeAgent id =>
    refine ⟨?_, goodAgents_remove hs.phase hcache hoperation⟩
    have hsame : (s.removedAgent id cache).disk.toCredentialFiles = s.disk.toCredentialFiles := by
      rw [StoreState.removedAgent]
      split
      · dsimp only
        split <;> rfl
      · rfl
    rw [StoreState.operated, hsame]
    exact goodFiles_refl _ hs.files
  | setBindings bindings =>
    exact ⟨goodFiles_refl _ hs.files,
      goodAgents_setBindings _ hagents bindings fun _ hnamed => hnamed⟩

/-- The step lemma. -/
theorem goodStep_next (hs : StoreOk p s) {input : StoreInput} (hfits : StoreFits p legacy s input) :
    GoodStep p input s (storeNext p legacy input s).2 := by
  rw [storeNext]
  dsimp only
  split
  · rename_i cache hcache
    exact goodStep_operated hs hcache hfits
  · exact goodStep_booting hs hfits

theorem GoodStep.storeOk {input : StoreInput} {s' : StoreState E} (h : GoodStep p input s s') :
    StoreOk p s' :=
  ⟨h.1.2, h.2.2⟩

theorem GoodStep.stepKeeps {input : StoreInput} {s' : StoreState E} (h : GoodStep p input s s') :
    StepKeeps p input s.disk s'.disk :=
  ⟨h.1.1, h.2.1, fun file hfile => (h.1.2 file hfile).toDefaultOk⟩

end Steps

/-- Nothing is lost in a run whose steps read what they must. -/
theorem store_kept {E : Type} (p : StorePlatform E) (legacy : LegacyFiles) (disk : StoreDisk E)
    (hsound : SoundFiles p disk.toCredentialFiles) (inputs : List StoreInput)
    (h : ∀ t ∈ trace (storeNext p legacy) inputs ⟨disk, .start⟩, StoreFits p legacy t.before t.input) :
    ∀ t ∈ trace (storeNext p legacy) inputs ⟨disk, .start⟩,
      StepKeeps p t.input t.before.disk t.after.disk := by
  intro t ht
  have hbefore : StoreOk p t.before := (@trace_invariant_of _ _ _ (storeNext p legacy) (StoreOk p)
    (fun t => StoreFits p legacy t.before t.input)
    (fun _ _ hs hfits => (goodStep_next hs hfits).storeOk) inputs ⟨disk, .start⟩
    ⟨hsound, trivial⟩ h t ht).1
  have hafter : t.after = (storeNext p legacy t.input t.before).2 := by
    obtain ⟨pre, -, -, hstep⟩ := mem_trace_split ht
    rw [hstep]
    rfl
  rw [hafter]
  exact (goodStep_next hbefore (h t ht)).stepKeeps

section Runs

/-- An envelope that holds its key and what is in it. -/
def samplePlatform : StorePlatform (List UInt8 × CredentialsFile) where
  envKey := none
  encrypt key _ file := (key, file.saved)
  decrypt key e := if e.1 = key then some e.2 else none
  decrypt_encrypt _ _ _ := if_pos rfl

def sampleKey : Bytes32 := ⟨List.replicate 32 7, rfl⟩

def sampleStored : CredentialsFile := ⟨some (utf16 "c"), [⟨utf16 "c", .string (utf16 "l"), none, none,
  .string (utf16 "s"), none, [], none, none, none⟩]⟩

/-- One credential, one agent, and what the installer left. -/
def sampleDisk : StoreDisk (List UInt8 × CredentialsFile) where
  creds := some (.envelope (sampleKey.val, sampleStored))
  key := some sampleKey.val
  agents := some (some ⟨[[(utf16 "id", .string (utf16 "a"))]], []⟩)
  bootstrap := some (.entries [.object [(utf16 "secret", .string (utf16 "t"))]])

/-- A moment in which the credentials can be read, or cannot. -/
def sampleStoreMoment (fails : Bool) : StoreMoment where
  load := ⟨fails, false, sampleKey⟩
  save := ⟨⟨false, sampleKey⟩, []⟩
  random := []
  now := []

def sampleBootMoment : BootMoment := { sampleStoreMoment false with fails := false }

def noLegacy : LegacyFiles := ⟨none, [], none⟩

theorem contents_sampleDisk :
    samplePlatform.contents sampleDisk.toCredentialFiles = some sampleStored := by
  rfl

theorem soundFiles_sampleDisk : SoundFiles samplePlatform sampleDisk.toCredentialFiles := by
  intro file hfile
  rw [contents_sampleDisk] at hfile
  obtain rfl := Option.some.inj hfile
  refine ⟨⟨?_, fun id hid => ⟨_, List.mem_singleton_self _, Option.some.inj hid⟩⟩, fun c hc => ?_⟩
  · exact iff_of_false (Option.some_ne_none _) (List.cons_ne_nil _ _)
  · obtain rfl := List.mem_singleton.mp hc
    decide

theorem finds_sampleDisk : StoreRead.Finds ⟨false, false, sampleKey⟩ samplePlatform
    sampleDisk.toCredentialFiles :=
  ⟨fun _ => ⟨rfl, rfl⟩, fun _ _ _ _ => ⟨rfl, rfl⟩⟩

/-- The entry that the installer left is absorbed. -/
theorem store_kept_absorbing :
    SoundFiles samplePlatform sampleDisk.toCredentialFiles ∧
      (∀ t ∈ trace (storeNext samplePlatform noLegacy)
          [.boot sampleBootMoment, .boot sampleBootMoment] ⟨sampleDisk, .start⟩,
        StoreFits samplePlatform noLegacy t.before t.input) ∧
      ∀ t ∈ trace (storeNext samplePlatform noLegacy)
          [.boot sampleBootMoment, .boot sampleBootMoment] ⟨sampleDisk, .start⟩,
        StepKeeps samplePlatform t.input t.before.disk t.after.disk := by
  have hfits : ∀ t ∈ trace (storeNext samplePlatform noLegacy)
      [.boot sampleBootMoment, .boot sampleBootMoment] ⟨sampleDisk, .start⟩,
      StoreFits samplePlatform noLegacy t.before t.input := by
    intro t ht
    rcases List.mem_pair.mp ht with rfl | rfl
    · refine ⟨fun w hw => ?_, fun cache h => by cases h⟩
      obtain rfl := StoreInput.boot.inj hw
      exact ⟨fun _ _ => finds_sampleDisk.keepsKey, fun h => by rcases h with h | h <;> cases h⟩
    · refine ⟨fun w hw => ?_, fun cache h => by cases h⟩
      obtain rfl := StoreInput.boot.inj hw
      exact ⟨fun _ => finds_sampleDisk, fun h => by rcases h with h | h <;> cases h⟩
  exact ⟨soundFiles_sampleDisk, hfits,
    store_kept samplePlatform noLegacy sampleDisk soundFiles_sampleDisk _ hfits⟩

/-- The gateway boots; then a credential is added while the store cannot be read. -/
def lossInputs : List StoreInput :=
  [.boot { sampleBootMoment with fails := true }, .boot sampleBootMoment, .boot sampleBootMoment,
    .addCredential ⟨.null, none, none, .string (utf16 "t"), none⟩ (sampleStoreMoment true)]

theorem failed_read_loses : ¬ ∀ (E : Type) (p : StorePlatform E) legacy disk,
    SoundFiles p (StoreDisk.toCredentialFiles disk) → ∀ inputs,
      ∀ t ∈ trace (storeNext p legacy) inputs ⟨disk, .start⟩,
        StepKeeps p t.input t.before.disk t.after.disk := by
  intro h
  have hkeeps := h _ samplePlatform noLegacy sampleDisk soundFiles_sampleDisk lossInputs _
    (List.mem_of_getElem? (i := 3) rfl)
  obtain ⟨file', hfile', hkept⟩ := hkeeps.credentials.kept sampleStored contents_sampleDisk
  obtain ⟨c', hc', hsaved⟩ := hkept _ (List.mem_singleton_self _) (fun hnamed => hnamed)
  have hid : c'.id = utf16 "c" := congrArg StoredCredential.id hsaved
  have hlost : file'.credentials.all (fun c => c.id ≠ utf16 "c") = true := by
    obtain rfl := Option.some.inj hfile'
    decide +kernel
  have hgone := List.all_eq_true.mp hlost c' hc'
  rw [hid] at hgone
  revert hgone
  decide

end Runs

end OsModa.Gateway
