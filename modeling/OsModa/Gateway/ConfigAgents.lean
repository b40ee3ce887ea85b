import OsModa.Gateway.ConfigSteps

/-!
What the stored agents are like.

`PUT` and `PATCH` write the same records, each with checks of its own, and a credential that a
record refers to can be deleted. The records stay valid as long as a `PATCH` gives what a `PUT`
would check, a `PUT` what it does not check, and no credential goes that is referred to
(`agents_stay_valid`).
-/

namespace OsModa.Gateway

open OsModa.Js OsModa.Machine ConfigState

/-- The name of a driver. -/
def IsRuntime (v : Option Value) : Prop :=
  ∃ name, v = some (.string name) ∧ lookupDriver name = .driver

/-- An id that is not empty, also once it is written. -/
def IsAgentId (v : Option Value) : Prop := Value.truthy (v.map Value.saved) = true

/-- Empty, or the id of a credential. -/
def RefersTo (credentials : List StoredCredential) (v : Option Value) : Prop :=
  Value.truthy v = true → ∃ c ∈ credentials, v = some (.string c.id)

/-- Empty, or a path where profiles may be. -/
def IsProfilePath (v : Option Value) : Prop :=
  Value.truthy v = true → isAllowedProfilePath v = true

/-- What an agent must be, but for its credential. -/
structure AgentFields.Valid (a : AgentFields) : Prop where
  id : IsAgentId a.id
  runtime : IsRuntime a.runtime
  enabled : isBool a.enabled = true
  channels : isArray a.channels = true
  profileDir : IsProfilePath a.profileDir
  systemPromptFile : IsProfilePath a.systemPromptFile
  caps : ∀ k ∈ capKeys, isAllowedCap (a.get? k) = true

/-- Agents as they must be, but for their credentials. -/
structure WellFormed (agents : List AgentFields) : Prop where
  valid : ∀ a ∈ agents, a.Valid
  distinct : agents.Pairwise fun a b => Value.strictEq a.id b.id = false

structure ValidAgents (credentials : List StoredCredential) (agents : List AgentFields) : Prop
    extends WellFormed agents where
  credentials : ∀ a ∈ agents, RefersTo credentials a.credentialId

/-- The agents in memory and in the file are valid. -/
structure ValidConfig (c : Config) : Prop where
  memory : ValidAgents c.credentials.credentials c.current.content.agents
  file : ValidAgents c.credentials.credentials c.file.agents

/-! ### What requests must give -/

/-- What a `PATCH` gives an agent. -/
structure GivesValid (body : Fields) : Prop where
  runtime : ∀ v, body.get? (utf16 "runtime") = some v → IsRuntime (some v)
  enabled : ∀ v, body.get? (utf16 "enabled") = some v → isBool (some v) = true
  channels : ∀ v, body.get? (utf16 "channels") = some v → isArray (some v) = true

/-- What a `PUT` gives. -/
structure PutFits (credentials : List StoredCredential) (agents : List AgentFields) : Prop where
  ids : ∀ a ∈ agents, IsAgentId a.id
  distinct : agents.Pairwise fun a b => Value.strictEq a.id b.id = false
  runtimes : ∀ a ∈ agents, IsRuntime a.runtime
  /-- They are still there after the probes. -/
  credentials : ∀ a ∈ agents, RefersTo credentials a.credentialId

/-- A `PATCH` that a step makes, of the agent with a tag in a snapshot. -/
inductive Patches (s : ConfigState) : ConfigInput → Nat → Nat → Fields → Prop
  | now {id v body tag a w} : s.current.findAgent id = some (tag, a) →
      Value.ownFields v = some body → checkPatch body = .ok () → newRuntime body a = none →
      Patches s (.request true (.patchAgent id (some v)) w) s.live tag body
  | later {n id body ref tag health w} :
      JsMap.get? s.pending n = some (.patch id body ref tag) → health.available = true →
      Patches s (.probed n health w) ref tag body

/-- The credential id that an agent of a snapshot has after a `PATCH`. -/
def credentialAfter (tag : Nat) (body : Fields) (e : Nat × AgentFields) : Option Value :=
  if e.1 = tag then (body.get? (utf16 "credential_id")).or e.2.credentialId else e.2.credentialId

/-- What must hold before a step. -/
structure KeepsValid (s : ConfigState) (input : ConfigInput) : Prop where
  patch : ∀ ref tag body, Patches s input ref tag body →
    (∃ e ∈ (s.snapshots ref).entries, e.1 = tag) → GivesValid body
  /-- Of a snapshot that has been replaced, this is about all agents: it is written. -/
  credentials : ∀ ref tag body, Patches s input ref tag body →
    ref = s.live ∨ input.written = true → ∀ e ∈ (s.snapshots ref).entries,
      RefersTo s.credentials.credentials (credentialAfter tag body e)
  put : ∀ p health now, Puts s input p health now →
    checkAgents p.credentials health p.agents = .ok () →
      PutFits s.credentials.credentials p.agents
  delete : ∀ id w, input = .request true (.deleteCredential id) w → w.written = true →
    ∀ a ∈ s.current.content.agents ++ s.file.agents, a.credentialId ≠ some (.string id)

/-! ### Writing -/

section Saved

variable {v : Option Value} {credentials : List StoredCredential}

theorem truthy_of_saved (h : Value.truthy (v.map Value.saved) = true) : Value.truthy v = true := by
  cases v with
  | none => exact h
  | some v =>
    cases v with
    | number text =>
      rw [Option.map_some, Value.saved] at h
      split at h
      · exact h
      · cases h
    | array items => rfl
    | object fields => rfl
    | _ => exact h

theorem IsRuntime.saved (h : IsRuntime v) : IsRuntime (v.map Value.saved) := by
  obtain ⟨name, rfl, hdriver⟩ := h
  exact ⟨name, rfl, hdriver⟩

theorem IsAgentId.saved (h : IsAgentId v) : IsAgentId (v.map Value.saved) := by
  rw [IsAgentId, Value.map_saved_saved]
  exact h

theorem RefersTo.saved (h : RefersTo credentials v) : RefersTo credentials (v.map Value.saved) := by
  intro htruthy
  obtain ⟨c, hc, rfl⟩ := h (truthy_of_saved htruthy)
  exact ⟨c, hc, rfl⟩

theorem IsProfilePath.saved (h : IsProfilePath v) : IsProfilePath (v.map Value.saved) := by
  intro htruthy
  have hallowed := h (truthy_of_saved htruthy)
  cases v with
  | none => exact hallowed
  | some v =>
    cases v with
    | string p => exact hallowed
    | _ => cases hallowed

theorem isBool_saved (h : isBool v = true) : isBool (v.map Value.saved) = true := by
  cases v with
  | none => exact h
  | some v =>
    cases v with
    | bool b => rfl
    | _ => cases h

theorem isArray_saved (h : isArray v = true) : isArray (v.map Value.saved) = true := by
  cases v with
  | none => exact h
  | some v =>
    cases v with
    | array items => rfl
    | _ => cases h

theorem isAllowedCap_saved (h : isAllowedCap v = true) :
    isAllowedCap (v.map Value.saved) = true := by
  cases v with
  | none => exact h
  | some v =>
    cases v with
    | null => exact h
    | number text =>
      have hfinite : Value.isFinite text = true := ((Bool.and_eq_true _ _).mp h).1
      rw [Option.map_some, Value.saved, if_pos hfinite]
      exact h
    | _ => cases h

/-- Writing an id does not change what it is equal to. -/
theorem strictEq_of_isAgentId (h : IsAgentId v) (w : Option Value) :
    Value.strictEq (v.map Value.saved) w = Value.strictEq v w := by
  cases v with
  | none => rfl
  | some v =>
    rw [Option.map_some]
    cases v with
    | number text =>
      rw [IsAgentId, Option.map_some, Value.saved] at h
      rw [Value.saved]
      split at h
      · rename_i hfinite
        rw [if_pos hfinite]
      · cases h
    | array items => rcases w with - | w <;> rfl
    | object fields => rcases w with - | w <;> rfl
    | _ => rfl

/-- Ids that can be written stay apart. -/
theorem strictEq_saved_saved {w : Option Value} (hv : IsAgentId v) (hw : IsAgentId w)
    (h : Value.strictEq v w = false) :
    Value.strictEq (v.map Value.saved) (w.map Value.saved) = false := by
  rw [strictEq_of_isAgentId hv, Value.strictEq_comm, strictEq_of_isAgentId hw, Value.strictEq_comm]
  exact h

theorem AgentFields.Valid.saved {a : AgentFields} (h : a.Valid) :
    AgentFields.Valid (Value.savedFields a) := by
  have hget : ∀ k, Fields.get? (Value.savedFields a) k = (a.get? k).map Value.saved :=
    Value.get?_savedFields a
  refine ⟨?_, ?_, ?_, ?_, ?_, ?_, fun k hk => ?_⟩
  · rw [AgentFields.id, hget]
    exact h.id.saved
  · rw [AgentFields.runtime, hget]
    exact h.runtime.saved
  · rw [AgentFields.enabled, hget]
    exact isBool_saved h.enabled
  · rw [AgentFields.channels, hget]
    exact isArray_saved h.channels
  · rw [AgentFields.profileDir, hget]
    exact h.profileDir.saved
  · rw [AgentFields.systemPromptFile, hget]
    exact h.systemPromptFile.saved
  · rw [hget]
    exact isAllowedCap_saved (h.caps k hk)

theorem WellFormed.saved {agents : List AgentFields} (h : WellFormed agents) :
    WellFormed (agents.map Value.savedFields) where
  valid := by
    intro a ha
    obtain ⟨b, hb, rfl⟩ := List.mem_map.mp ha
    exact (h.valid b hb).saved
  distinct := by
    rw [List.pairwise_map]
    refine h.distinct.imp_of_mem fun {a b} ha hb hne => ?_
    rw [AgentFields.id, AgentFields.id, Value.get?_savedFields, Value.get?_savedFields]
    exact strictEq_saved_saved (h.valid a ha).id (h.valid b hb).id hne

theorem WellFormed.sublist {agents agents' : List AgentFields} (h : WellFormed agents)
    (hsub : agents'.Sublist agents) : WellFormed agents' :=
  ⟨fun a ha => h.valid a (hsub.subset ha), h.distinct.sublist hsub⟩

end Saved

/-! ### PATCH -/

section Patch

variable {body : Fields} {a : AgentFields}

theorem get?_patched_of_mem {k : JsString} (hk : k ∈ patchKeys) (now : JsString) :
    (a.patched body now).get? k = (body.get? k).or (a.get? k) := by
  have hdate : utf16 "updated_at" ≠ k := by
    rintro rfl
    revert hk
    decide
  rw [get?_patched, if_neg hdate, if_pos hk]

/-- What a body gives and what the agent had are both as they must be. -/
theorem of_or {P : Option Value → Prop} {v w : Option Value} (hv : ∀ x, v = some x → P (some x))
    (hw : P w) : P (v.or w) := by
  cases v with
  | none => exact hw
  | some x => exact hv x rfl

theorem id_patched (now : JsString) : (a.patched body now).id = a.id := by
  rw [AgentFields.id, get?_patched, if_neg (by decide), if_neg (by decide)]
  rfl

theorem credentialId_patched (now : JsString) : (a.patched body now).credentialId =
    (body.get? (utf16 "credential_id")).or a.credentialId :=
  get?_patched_of_mem (by decide) now

/-- The paths and caps of a body have been checked. -/
theorem of_checkPatch (h : checkPatch body = .ok ()) :
    (∀ v, body.get? (utf16 "profile_dir") = some v → IsProfilePath (some v)) ∧
    (∀ v, body.get? (utf16 "system_prompt_file") = some v → IsProfilePath (some v)) ∧
    ∀ k ∈ capKeys, ∀ v, body.get? k = some v → isAllowedCap (some v) = true := by
  rw [checkPatch] at h
  split at h
  · cases h
  · rename_i hdir
    split at h
    · cases h
    · rename_i hfile
      split at h
      · cases h
      · rename_i hcaps
        refine ⟨fun v hv _ => ?_, fun v hv htruthy => ?_, fun k hk v hv => ?_⟩
        · simpa [hv] using hdir
        · have hnullish : isNullish (some v) = false := by
            cases v with
            | null => cases htruthy
            | _ => rfl
          simpa [hv, hnullish] using hfile
        · have hcap := List.find?_eq_none.mp hcaps k hk
          simpa [hv] using hcap

theorem AgentFields.Valid.patched (h : a.Valid) (hchecked : checkPatch body = .ok ())
    (hgives : GivesValid body) (now : JsString) : (a.patched body now).Valid := by
  obtain ⟨hdir, hfile, hcaps⟩ := of_checkPatch hchecked
  refine ⟨?_, ?_, ?_, ?_, ?_, ?_, fun k hk => ?_⟩
  · rw [id_patched]
    exact h.id
  · rw [AgentFields.runtime, get?_patched_of_mem (by decide)]
    exact of_or hgives.runtime h.runtime
  · rw [AgentFields.enabled, get?_patched_of_mem (by decide)]
    exact of_or (P := fun v => isBool v = true) hgives.enabled h.enabled
  · rw [AgentFields.channels, get?_patched_of_mem (by decide)]
    exact of_or (P := fun v => isArray v = true) hgives.channels h.channels
  · rw [AgentFields.profileDir, get?_patched_of_mem (by decide)]
    exact of_or hdir h.profileDir
  · rw [AgentFields.systemPromptFile, get?_patched_of_mem (by decide)]
    exact of_or hfile h.systemPromptFile
  · have hkey : k ∈ patchKeys := by
      revert k
      decide
    rw [get?_patched_of_mem hkey]
    exact of_or (P := fun v => isAllowedCap v = true) (hcaps k hk) (h.caps k hk)

variable {snapshot : Snapshot} {tag : Nat} {now : JsString}

theorem mem_patchAgent (h : a ∈ (snapshot.patchAgent tag body now).content.agents) :
    ∃ e ∈ snapshot.entries, a = if e.1 = tag then e.2.patched body now else e.2 := by
  obtain ⟨e', he', rfl⟩ := List.mem_map.mp h
  obtain ⟨e, he, rfl⟩ := List.mem_map.mp he'
  refine ⟨e, he, ?_⟩
  split <;> rfl

theorem WellFormed.patchAgent (h : WellFormed snapshot.content.agents)
    (hchecked : checkPatch body = .ok ())
    (hgives : (∃ e ∈ snapshot.entries, e.1 = tag) → GivesValid body) :
    WellFormed (snapshot.patchAgent tag body now).content.agents where
  valid := by
    intro a ha
    obtain ⟨e, he, rfl⟩ := mem_patchAgent ha
    have hvalid := h.valid e.2 (List.mem_map_of_mem he)
    split
    · rename_i htag
      exact hvalid.patched hchecked (hgives ⟨e, he, htag⟩) now
    · exact hvalid
  distinct := by
    have hid : ∀ e : Nat × AgentFields,
        (if e.1 = tag then (e.1, e.2.patched body now) else e).2.id = e.2.id := by
      intro e
      split
      · exact id_patched now
      · rfl
    rw [Snapshot.content, Snapshot.patchAgent, List.pairwise_map, List.pairwise_map]
    refine (List.pairwise_map.mp h.distinct).imp fun {e e'} hne => ?_
    rw [hid, hid]
    exact hne

end Patch

/-! ### PUT -/

section Put

variable {credentials : List StoredCredential} {health : List (JsString × DriverHealth)}

theorem checkAgents_eq_ok {agents : List AgentFields} :
    checkAgents credentials health agents = .ok () ↔
      ∀ a ∈ agents, checkAgent credentials health a = .ok () := by
  induction agents with
  | nil => simp [checkAgents]
  | cons a rest ih =>
    rw [List.forall_mem_cons, ← ih, checkAgents]
    cases checkAgent credentials health a with
    | error e => simp [bind, Except.bind]
    | ok => simp [bind, Except.bind]

/-- The paths and caps of an agent have been checked. -/
theorem of_checkAgent {a : AgentFields} (h : checkAgent credentials health a = .ok ()) :
    IsProfilePath a.profileDir ∧ IsProfilePath a.systemPromptFile ∧
      ∀ k ∈ capKeys, isAllowedCap (a.get? k) = true := by
  rw [checkAgent] at h
  split at h
  · cases h
  · split at h
    · cases h
    · cases h
    · split at h
      · cases h
      · split at h
        · cases h
        · rename_i hdir
          split at h
          · cases h
          · rename_i hfile
            split at h
            · cases h
            · rename_i hcaps
              refine ⟨fun htruthy => ?_, fun htruthy => ?_, fun k hk => ?_⟩
              · simpa [htruthy] using hdir
              · simpa [htruthy] using hfile
              · simpa using List.find?_eq_none.mp hcaps k hk

theorem get?_normalized {a : AgentFields} {k : JsString} (hk : utf16 "channels" ≠ k)
    (hk' : utf16 "updated_at" ≠ k) (now : JsString) : (a.normalized now).get? k = a.get? k := by
  rw [AgentFields.normalized, Fields.get?_set, if_neg hk, Fields.get?_set, if_neg hk']

theorem id_normalized (a : AgentFields) (now : JsString) : (a.normalized now).id = a.id :=
  get?_normalized (by decide) (by decide) now

theorem credentialId_normalized (a : AgentFields) (now : JsString) :
    (a.normalized now).credentialId = a.credentialId :=
  get?_normalized (by decide) (by decide) now

theorem isArray_normalized (a : AgentFields) (now : JsString) :
    isArray (a.normalized now).channels = true := by
  rw [AgentFields.channels, AgentFields.normalized, Fields.get?_set, if_pos rfl]
  split <;> rfl

theorem valid_normalized {a : AgentFields} (hfields : isMissingFields a = false)
    (hchecked : checkAgent credentials health a = .ok ()) (hid : IsAgentId a.id)
    (hruntime : IsRuntime a.runtime) (now : JsString) : (a.normalized now).Valid := by
  obtain ⟨hdir, hfile, hcaps⟩ := of_checkAgent hchecked
  have henabled : isBool a.enabled = true := by
    rw [isMissingFields, Bool.or_eq_false_iff] at hfields
    simpa using hfields.2
  refine ⟨?_, ?_, ?_, isArray_normalized a now, ?_, ?_, fun k hk => ?_⟩
  · rw [id_normalized]
    exact hid
  · rw [AgentFields.runtime, get?_normalized (by decide) (by decide)]
    exact hruntime
  · rw [AgentFields.enabled, get?_normalized (by decide) (by decide)]
    exact henabled
  · rw [AgentFields.profileDir, get?_normalized (by decide) (by decide)]
    exact hdir
  · rw [AgentFields.systemPromptFile, get?_normalized (by decide) (by decide)]
    exact hfile
  · have hkeys : utf16 "channels" ≠ k ∧ utf16 "updated_at" ≠ k := by
      revert k
      decide
    rw [get?_normalized hkeys.1 hkeys.2]
    exact hcaps k hk

/-- The agents of a `PUT` have the fields that they must have. -/
theorem isMissingFields_of_puts {s : ConfigState} (hs : s.Sound) {input : ConfigInput}
    {p : PutAgents} {now : JsString} (h : Puts s input p health now) :
    ∀ a ∈ p.agents, isMissingFields a = false := by
  cases h with
  | now _ _ hagents _ => exact isMissingFields_of_readAgents hagents
  | @later n _ _ _ _ _ _ _ hpending _ => exact hs.pending n _ hpending
  | @done n _ _ _ _ hpending => exact hs.pending n _ hpending

theorem wellFormed_put {agents : List AgentFields} (hfits : PutFits credentials agents)
    (hfields : ∀ a ∈ agents, isMissingFields a = false) {found : List StoredCredential}
    (hchecked : checkAgents found health agents = .ok ()) (now : JsString) :
    WellFormed (agents.map (AgentFields.normalized now)) where
  valid := by
    intro b hb
    obtain ⟨a, ha, rfl⟩ := List.mem_map.mp hb
    exact valid_normalized (hfields a ha) (checkAgents_eq_ok.mp hchecked a ha) (hfits.ids a ha)
      (hfits.runtimes a ha) now
  distinct := by
    rw [List.pairwise_map]
    refine hfits.distinct.imp fun {a b} hne => ?_
    rw [id_normalized, id_normalized]
    exact hne

end Put

/-! ### One step -/

/-- What is kept of a configuration. The snapshots that have been replaced may name credentials
that are gone. -/
structure KeptConfig (c : Config) : Prop where
  snapshots : ∀ ref, WellFormed (c.snapshots ref).content.agents
  memory : ∀ a ∈ c.current.content.agents, RefersTo c.credentials.credentials a.credentialId
  file : ValidAgents c.credentials.credentials c.file.agents

theorem agents_load (f : AgentsFile) : (Snapshot.load f).content.agents = f.agents :=
  map_snd_tagged 0 f.agents

theorem agents_putAgents (agents : List AgentFields) (bindings : List Value) (s : Snapshot) :
    (s.putAgents agents bindings).content.agents = agents :=
  map_snd_tagged s.nextTag agents

namespace KeptConfig

variable {c : Config} {snapshot : Snapshot} {ref : Nat}

theorem valid (h : KeptConfig c) : ValidConfig c := ⟨⟨h.snapshots c.live, h.memory⟩, h.file⟩

theorem setSnapshot (h : KeptConfig c) (hform : WellFormed snapshot.content.agents)
    (hrefers : ref = c.live →
      ∀ a ∈ snapshot.content.agents, RefersTo c.credentials.credentials a.credentialId) :
    KeptConfig (c.setSnapshot ref snapshot) := by
  refine ⟨fun ref' => ?_, ?_, h.file⟩
  · by_cases href : ref' = ref
    · rw [href, c.setSnapshot_self]
      exact hform
    · rw [c.setSnapshot_of_ne href]
      exact h.snapshots ref'
  · by_cases hlive : ref = c.live
    · subst hlive
      rw [show (c.setSnapshot c.live snapshot).current = snapshot from
        c.setSnapshot_self c.live snapshot]
      exact hrefers rfl
    · rw [show (c.setSnapshot ref snapshot).current = c.current from
        c.setSnapshot_of_ne (Ne.symm hlive) snapshot]
      exact h.memory

theorem reload (h : KeptConfig c) : KeptConfig c.reload := by
  refine ⟨fun ref => ?_, ?_, h.file⟩
  · by_cases href : ref = c.nextSnapshot
    · have hload : c.reload.snapshots ref = Snapshot.load c.file := by
        rw [href]
        exact c.reload_current
      rw [hload, agents_load]
      exact h.file.toWellFormed
    · rw [c.reload_of_ne href]
      exact h.snapshots ref
  · rw [c.reload_current, agents_load]
    exact h.file.credentials

theorem saveSnapshot (h : KeptConfig c) (hform : WellFormed snapshot.content.agents)
    (hrefers : ∀ a ∈ snapshot.content.agents, RefersTo c.credentials.credentials a.credentialId) :
    KeptConfig (c.saveSnapshot ref snapshot) := by
  have hchanged : KeptConfig (c.setSnapshot ref snapshot) := h.setSnapshot hform fun _ => hrefers
  refine KeptConfig.reload ⟨hchanged.snapshots, hchanged.memory, hform.saved, fun a ha => ?_⟩
  obtain ⟨b, hb, rfl⟩ := List.mem_map.mp ha
  rw [AgentFields.credentialId, Value.get?_savedFields]
  exact (hrefers b hb).saved

theorem saveCredentials (h : KeptConfig c) {credentials : CredentialsFile}
    (hrefers : ∀ a ∈ c.current.content.agents ++ c.file.agents,
      RefersTo credentials.credentials a.credentialId) (reloads : Bool) :
    KeptConfig (c.saveCredentials credentials reloads) := by
  have hsaved : KeptConfig { c with credentials } :=
    ⟨h.snapshots, fun a ha => hrefers a (List.mem_append_left _ ha),
      h.file.toWellFormed, fun a ha => hrefers a (List.mem_append_right _ ha)⟩
  cases reloads with
  | true => exact hsaved.reload
  | false => exact hsaved

end KeptConfig

section Steps

variable {s : ConfigState} {input : ConfigInput} {ref : Nat} {update : AgentsUpdate}
  {snapshot : Snapshot}

theorem wellFormed_of_changes (hs : s.Sound) (h : KeptConfig s.toConfig) (hfits : KeepsValid s input)
    (hchange : Changes s input ref update snapshot) : WellFormed snapshot.content.agents := by
  cases hchange with
  | @patchNow id v body tag a w hfound hbody hchecked hsame =>
    exact (h.snapshots s.live).patchAgent hchecked
      (hfits.patch _ _ _ (.now hfound hbody hchecked hsame))
  | @patchLater n id body ref tag health w hpending havailable =>
    obtain ⟨-, -, -, hchecked, -⟩ := hs.pending n _ hpending
    exact (h.snapshots ref).patchAgent hchecked (hfits.patch _ _ _ (.later hpending havailable))
  | @put _ p health now hput hchecked =>
    rw [agents_putAgents]
    exact wellFormed_put (hfits.put p health now hput hchecked) (isMissingFields_of_puts hs hput)
      hchecked now
  | delete => exact (h.snapshots s.live).sublist (List.eraseP_sublist.map _)

theorem refersTo_of_patches {tag : Nat} {body : Fields} (hfits : KeepsValid s input)
    (hpatch : Patches s input ref tag body) (hwritten : ref = s.live ∨ input.written = true)
    (now : JsString) : ∀ a ∈ ((s.snapshots ref).patchAgent tag body now).content.agents,
      RefersTo s.credentials.credentials a.credentialId := by
  intro a ha
  obtain ⟨e, he, rfl⟩ := mem_patchAgent ha
  have hrefers := hfits.credentials ref tag body hpatch hwritten e he
  rw [credentialAfter] at hrefers
  split
  · rename_i htag
    rw [if_pos htag] at hrefers
    rw [credentialId_patched]
    exact hrefers
  · rename_i htag
    rw [if_neg htag] at hrefers
    exact hrefers

theorem refersTo_of_changes (h : KeptConfig s.toConfig) (hfits : KeepsValid s input)
    (hchange : Changes s input ref update snapshot)
    (hwritten : ref = s.live ∨ input.written = true) :
    ∀ a ∈ snapshot.content.agents, RefersTo s.credentials.credentials a.credentialId := by
  cases hchange with
  | patchNow hfound hbody hchecked hsame =>
    exact refersTo_of_patches hfits (.now hfound hbody hchecked hsame) hwritten _
  | patchLater hpending havailable =>
    exact refersTo_of_patches hfits (.later hpending havailable) hwritten _
  | @put _ p health now hput hchecked =>
    intro b hb
    rw [agents_putAgents] at hb
    obtain ⟨a, ha, rfl⟩ := List.mem_map.mp hb
    rw [credentialId_normalized]
    exact (hfits.put p health now hput hchecked).credentials a ha
  | delete =>
    intro a ha
    exact h.memory a ((List.eraseP_sublist.map _).subset ha)

/-- A credential that is referred to stays. -/
theorem refersTo_of_credentials {credentials : CredentialsFile} (hfits : KeepsValid s input)
    (hwritten : input.written = true)
    (hids : ∀ c ∈ s.credentials.credentials, (∃ c' ∈ credentials.credentials, c'.id = c.id) ∨
      ∃ w, input = .request true (.deleteCredential c.id) w) {a : AgentFields}
    (ha : a ∈ s.current.content.agents ++ s.file.agents)
    (hrefers : RefersTo s.credentials.credentials a.credentialId) :
    RefersTo credentials.credentials a.credentialId := by
  intro htruthy
  obtain ⟨c, hc, hid⟩ := hrefers htruthy
  rcases hids c hc with ⟨c', hc', heq⟩ | ⟨w, rfl⟩
  · exact ⟨c', hc', by rw [hid, heq]⟩
  · exact absurd hid (hfits.delete c.id w rfl hwritten a ha)

theorem kept_of_outcome {base : ConfigState} {r : ConfigOutput × ConfigState} (hs : s.Sound)
    (h : KeptConfig s.toConfig) (hfits : KeepsValid s input) (houtcome : Outcome s input base r)
    (hbase : base.toConfig = s.toConfig) : KeptConfig r.2.toConfig := by
  cases houtcome with
  | same =>
    rw [hbase]
    exact h
  | @waits p =>
    have hsame : (base.wait p).2.toConfig = s.toConfig := hbase
    rw [hsame]
    exact h
  | reloads => exact h.reload
  | credentials hwritten hids =>
    refine h.saveCredentials (fun a ha => ?_) _
    refine refersTo_of_credentials hfits hwritten hids ha ?_
    rcases List.mem_append.mp ha with hmemory | hfile
    · exact h.memory a hmemory
    · exact h.file.credentials a hfile
  | unwritten hchange =>
    exact h.setSnapshot (wellFormed_of_changes hs h hfits hchange)
      fun hlive => refersTo_of_changes h hfits hchange (.inl hlive)
  | @noDriver e id v body tag a w hinput hfound hbody hchecked hsame =>
    subst hinput
    have hchange := Changes.patchNow (w := w) hfound hbody hchecked hsame
    exact h.setSnapshot (wellFormed_of_changes hs h hfits hchange)
      fun hlive => refersTo_of_changes h hfits hchange (.inl hlive)
  | @splices e id w a =>
    have hsub : (s.current.spliceAgent id).content.agents.Sublist s.current.content.agents :=
      List.eraseP_sublist.map Prod.snd
    exact h.setSnapshot ((h.snapshots s.live).sublist hsub) fun _ a ha => h.memory a (hsub.subset ha)
  | saves hchange hwritten =>
    exact h.saveSnapshot (wellFormed_of_changes hs h hfits hchange)
      (refersTo_of_changes h hfits hchange (.inr hwritten))

/-- The step lemma. -/
theorem kept_next (hs : s.Sound) (h : KeptConfig s.toConfig) (hfits : KeepsValid s input) :
    KeptConfig (configNext input s).2.toConfig := by
  obtain ⟨base, hbase, houtcome⟩ := outcome_next s input
  refine kept_of_outcome hs h hfits houtcome ?_
  rcases hbase with rfl | ⟨n, rfl⟩ <;> rfl

end Steps

/-! ### Runs -/

/-- The agents stay valid in a run whose steps all give what must be given. -/
theorem agents_stay_valid (file : AgentsFile) (credentials : CredentialsFile)
    (hvalid : ValidAgents credentials.credentials file.agents) (inputs : List ConfigInput)
    (h : ∀ t ∈ trace configNext inputs (.boot file credentials), KeepsValid t.before t.input) :
    ValidConfig (final configNext inputs (.boot file credentials)).toConfig := by
  have hboot : KeptConfig (Config.boot file credentials) := by
    refine ⟨fun ref => ?_, ?_, hvalid⟩
    · rw [Config.boot, agents_load]
      exact hvalid.toWellFormed
    · rw [Config.current, Config.boot, agents_load]
      exact hvalid.credentials
  have hrun := @final_invariant_of _ _ _ configNext (fun s => s.Sound ∧ KeptConfig s.toConfig)
    (fun t => KeepsValid t.before t.input)
    (fun input s hs hfits => ⟨sound_next input s hs.1, kept_next hs.1 hs.2 hfits⟩)
    inputs _ ⟨.boot file credentials, hboot⟩ h
  exact hrun.2.valid

section Runs

def wholeAgent : AgentFields := (utf16 "channels", .array []) :: sampleAgent "a" "m"

def wholeFile : AgentsFile := ⟨[wholeAgent], []⟩

def sampleCredential : StoredCredential where
  id := utf16 "c"
  label := .null
  provider := none
  type := none
  secret := .null
  baseUrl := none
  createdAt := []
  lastTest := none
  cooldownUntil := none
  cooldownReason := none

theorem validAgents_whole (credentials : List StoredCredential) :
    ValidAgents credentials wholeFile.agents := by
  refine ⟨⟨fun a ha => ?_, List.pairwise_singleton _ _⟩, fun a ha htruthy => ?_⟩
  · obtain rfl := List.mem_singleton.mp ha
    refine ⟨rfl, ⟨utf16 "claude-code", rfl, by decide⟩, rfl, rfl, fun h => ?_, fun h => ?_, ?_⟩
    · cases h
    · cases h
    · decide
  · obtain rfl := List.mem_singleton.mp ha
    cases htruthy

/-- An agent gets a credential that is there. -/
theorem agents_stay_valid_one :
    ValidAgents [sampleCredential] wholeFile.agents ∧
      KeepsValid (.boot wholeFile ⟨none, [sampleCredential]⟩)
        (sampleUpdate "a" [(utf16 "credential_id", .string (utf16 "c"))]) ∧
      ValidConfig (final configNext [sampleUpdate "a" [(utf16 "credential_id", .string (utf16 "c"))]]
        (.boot wholeFile ⟨none, [sampleCredential]⟩)).toConfig := by
  have hfits : KeepsValid (.boot wholeFile ⟨none, [sampleCredential]⟩)
      (sampleUpdate "a" [(utf16 "credential_id", .string (utf16 "c"))]) := by
    refine ⟨fun ref tag body hpatch _ => ?_, fun ref tag body hpatch _ e he => ?_,
      fun p health now hput => ?_, fun id w h => ?_⟩
    · cases hpatch with
      | now hfound hbody =>
        obtain rfl := Option.some.inj hbody
        refine ⟨fun v hv => ?_, fun v hv => ?_, fun v hv => ?_⟩ <;> cases hv
    · cases hpatch with
      | now hfound hbody =>
        obtain rfl := Option.some.inj hbody
        obtain rfl := List.mem_singleton.mp he
        obtain rfl := congrArg Prod.fst (Option.some.inj hfound)
        exact fun _ => ⟨sampleCredential, List.mem_singleton_self _, rfl⟩
    · cases hput
    · cases h
  have hvalid := validAgents_whole [sampleCredential]
  refine ⟨hvalid, hfits, agents_stay_valid wholeFile ⟨none, [sampleCredential]⟩ hvalid _ fun t ht => ?_⟩
  rw [List.mem_singleton.mp ht]
  exact hfits

/-- A `PATCH` may give any `enabled`. -/
theorem patch_breaks_agent : ¬ ∀ file credentials,
    ValidAgents (CredentialsFile.credentials credentials) (AgentsFile.agents file) →
      ∀ inputs, ValidConfig (final configNext inputs (.boot file credentials)).toConfig := by
  intro h
  have hvalid := (h wholeFile .empty (validAgents_whole [])
    [sampleUpdate "a" [(utf16 "enabled", .string (utf16 "x"))]]).file
  have henabled : ((final configNext [sampleUpdate "a" [(utf16 "enabled", .string (utf16 "x"))]]
      (.boot wholeFile .empty)).file.agents.all fun a => isBool a.enabled) = false := by
    decide +kernel
  rw [List.all_eq_true.mpr fun a ha => (hvalid.valid a ha).enabled] at henabled
  cases henabled

end Runs

end OsModa.Gateway
