import OsModa.Gateway.ConfigApi

/-!
What a step of the configuration endpoints can do (`outcome_next`), and what holds of the requests
that wait (`sound_next`).
-/

namespace OsModa.Gateway

open OsModa.Js OsModa.Machine ConfigState

/-- What an answer did to the agents. -/
def ConfigOutput.update? : ConfigOutput → Option AgentsUpdate
  | .ok _ update => update
  | _ => none

/-- The files can be written in a step. -/
def ConfigInput.written : ConfigInput → Bool
  | .request _ _ w | .probed _ _ w | .tested _ _ w => w.written
  | .sighup => true

/-- The bindings of other agents. -/
def otherBindings (id : JsString) (bindings : List Value) : List Value :=
  bindings.filter fun b => !(isBindingOf id b).any (· = true)

/-- A `PUT` of which a step has all probes, with what they found, at a time. -/
inductive Puts (s : ConfigState) :
    ConfigInput → PutAgents → List (JsString × DriverHealth) → JsString → Prop
  | now {body fields items agents health w} : Option.bind body Value.fields = some fields →
      fields.get? (utf16 "agents") = some (.array items) → readAgents items = .ok agents →
      probeFrom [] (enabledRuntimes agents []) = .ok (health, []) →
      Puts s (.request true (.putAgents body) w)
        ⟨agents, fields.get? (utf16 "bindings"), s.credentials.credentials⟩ health w.now
  | later {n p found rn rest h health w} :
      JsMap.get? s.pending n = some (.put p found (rn :: rest)) →
      probeFrom ((rn.toText.getD [], h) :: found) rest = .ok (health, []) →
      Puts s (.probed n h w) p health w.now
  | done {n p health h w} : JsMap.get? s.pending n = some (.put p health []) →
      Puts s (.probed n h w) p health w.now

/-- The change that a step may make to a snapshot in memory. -/
inductive Changes (s : ConfigState) : ConfigInput → Nat → AgentsUpdate → Snapshot → Prop
  | patchNow {id v body tag a w} : s.current.findAgent id = some (tag, a) →
      Value.ownFields v = some body → checkPatch body = .ok () → newRuntime body a = none →
      Changes s (.request true (.patchAgent id (some v)) w) s.live (.patch id body w.now)
        (s.current.patchAgent tag body w.now)
  | patchLater {n id body ref tag health w} :
      JsMap.get? s.pending n = some (.patch id body ref tag) → health.available = true →
      Changes s (.probed n health w) ref (.patch id body w.now)
        ((s.snapshots ref).patchAgent tag body w.now)
  | put {input p health now} : Puts s input p health now →
      checkAgents p.credentials health p.agents = .ok () →
      Changes s input s.live (.put p.agents (bindingsOf p.bindings) now)
        (s.current.putAgents (p.agents.map (AgentFields.normalized now))
          ((bindingsOf p.bindings).getD s.current.bindings))
  | delete {id e w} : s.current.findAgent id = some e →
      Changes s (.request true (.deleteAgent id) w) s.live (.delete id)
        ((s.current.spliceAgent id).withBindings (otherBindings id s.current.bindings))

/-- What must hold of a request that waits. -/
def PendingRequest.Fits (c : Config) : PendingRequest → Prop
  | .test _ => True
  | .put p _ _ => ∀ a ∈ p.agents, isMissingFields a = false
  | .patch id body ref tag => ref < c.nextSnapshot ∧ tag < (c.snapshots ref).nextTag ∧
      (∀ e ∈ (c.snapshots ref).entries, e.1 = tag → e.2.hasId id = true) ∧
      checkPatch body = .ok () ∧
      ∃ rn, body.get? (utf16 "runtime") = some rn ∧ getDriver (some rn) = some .driver

/-- The configuration after boot, as every step keeps it. -/
structure ConfigState.Sound (s : ConfigState) : Prop where
  live_lt : s.live < s.nextSnapshot
  pending : ∀ n p, JsMap.get? s.pending n = some p → p.Fits s.toConfig

/-- What a step can do. The credentials that there were stay, but for one that is deleted. -/
inductive Outcome (s : ConfigState) (input : ConfigInput) (base : ConfigState) :
    ConfigOutput × ConfigState → Prop
  | same {o} : o.update? = none → Outcome s input base (o, base)
  | waits {p} : (s.Sound → p.Fits s.toConfig) → Outcome s input base (base.wait p)
  | reloads {o} : o = .quiet ∨ o = .ok 200 none →
      Outcome s input base (o, base.withConfig s.reload)
  | credentials {status credentials reloads} : input.written = true →
      (∀ c ∈ s.credentials.credentials, (∃ c' ∈ CredentialsFile.credentials credentials, c'.id = c.id) ∨
        ∃ w, input = .request true (.deleteCredential c.id) w) →
      Outcome s input base
        (.ok status none, base.withConfig (s.toConfig.saveCredentials credentials reloads))
  | unwritten {e ref update snapshot} : Changes s input ref update snapshot →
      input.written = false →
      Outcome s input base (.error e, base.withConfig (s.setSnapshot ref snapshot))
  | noDriver {e id v body tag a w} : input = .request true (.patchAgent id (some v)) w →
      s.current.findAgent id = some (tag, a) → Value.ownFields v = some body →
      checkPatch body = .ok () → newRuntime body a = none →
      (∀ d, getDriver (a.patched body w.now).runtime = some d → d = .missing) →
      Outcome s input base
        (.error e, base.withConfig (s.setSnapshot s.live (s.current.patchAgent tag body w.now)))
  | splices {e id w a} : input = .request true (.deleteAgent id) w →
      s.current.findAgent id = some a →
      (∃ b ∈ s.current.bindings, isBindingOf id b = none) →
      Outcome s input base
        (.error e, base.withConfig (s.setSnapshot s.live (s.current.spliceAgent id)))
  | saves {status ref update snapshot} : Changes s input ref update snapshot →
      input.written = true →
      Outcome s input base
        (.ok status (some update), base.withConfig (s.toConfig.saveSnapshot ref snapshot))

section Handlers

variable {s base : ConfigState} {input : ConfigInput} {w : ConfigMoment}

theorem outcome_saveCredentials (hbase : base.toConfig = s.toConfig) {credentials : CredentialsFile}
    (h : ∀ c ∈ s.credentials.credentials, (∃ c' ∈ credentials.credentials, c'.id = c.id) ∨
      ∃ w, input = .request true (.deleteCredential c.id) w) (hinput : input.written = w.written)
    (reloads : Bool) (status : Nat) :
    Outcome s input base (base.saveCredentials credentials w reloads status) := by
  rw [ConfigState.saveCredentials]
  split
  · rename_i hwritten
    rw [hbase]
    exact .credentials (hinput.trans hwritten) h
  · exact .same rfl

theorem outcome_saveSnapshot (hbase : base.toConfig = s.toConfig) {ref : Nat}
    {update : AgentsUpdate} {snapshot : Snapshot} (h : Changes s input ref update snapshot)
    (hinput : input.written = w.written) (status : Nat) :
    Outcome s input base (base.saveSnapshot ref snapshot status update w) := by
  rw [ConfigState.saveSnapshot, hbase]
  split
  · rename_i hwritten
    exact .saves h (hinput.trans hwritten)
  · rename_i hunwritten
    exact .unwritten h (hinput.trans (Bool.eq_false_iff.mpr hunwritten))

/-- An update of a credential keeps them all. -/
theorem ids_of_updateMeta {file file' : CredentialsFile} {id : JsString}
    {f : StoredCredential → StoredCredential} (hf : ∀ c, (f c).id = c.id)
    (h : file.updateMeta id f = some file') :
    ∀ c ∈ file.credentials, ∃ c' ∈ file'.credentials, c'.id = c.id := by
  rw [CredentialsFile.updateMeta] at h
  split at h
  · obtain rfl := Option.some.inj h
    intro c hc
    have hmem : c.id ∈ (CredentialsFile.updateFirst id f file.credentials).map StoredCredential.id := by
      rw [CredentialsFile.ids_updateFirst hf]
      exact List.mem_map_of_mem hc
    exact List.mem_map.mp hmem
  · cases h

theorem outcome_recordTest (hbase : base.toConfig = s.toConfig)
    (hinput : input.written = w.written) (id : JsString) (test : CredentialTest) :
    Outcome s input base (base.recordTest id test w) := by
  rw [recordTest]
  split
  · rename_i credentials hupdate
    refine outcome_saveCredentials hbase (fun c hc => .inl ?_) hinput _ _
    rw [hbase] at hupdate
    refine ids_of_updateMeta ?_ hupdate c hc
    intro c
    rfl
  · exact .same rfl

theorem outcome_postCredential (hinput : input.written = w.written) (body : Option Value) :
    Outcome s input s (s.postCredential body w) := by
  rw [postCredential]
  split
  · exact .same rfl
  · split
    · exact .same rfl
    · split
      · exact .same rfl
      · split
        · exact .same rfl
        · refine outcome_saveCredentials rfl (fun c hc => .inl ⟨c, ?_, rfl⟩) hinput _ _
          exact List.mem_append_left _ hc

theorem outcome_testCredential (hinput : input.written = w.written) (id : JsString) :
    Outcome s input s (s.testCredential id w) := by
  rw [testCredential]
  split
  · exact .same rfl
  · split
    · exact .waits fun _ => trivial
    · exact outcome_recordTest rfl hinput _ _

theorem outcome_defaultCredential (hinput : input.written = w.written) (id : JsString) :
    Outcome s input s (s.defaultCredential id w) := by
  rw [defaultCredential]
  split
  · exact .same rfl
  · rename_i credentials hdefault
    refine outcome_saveCredentials rfl (fun c hc => .inl ⟨c, ?_, rfl⟩) hinput _ _
    rw [CredentialsFile.setDefault] at hdefault
    split at hdefault
    · obtain rfl := Option.some.inj hdefault
      exact hc
    · cases hdefault

theorem outcome_deleteCredential (id : JsString) :
    Outcome s (.request true (.deleteCredential id) w) s (s.deleteCredential id w) := by
  rw [deleteCredential]
  split
  · exact .same rfl
  · rename_i credentials hremoved
    refine outcome_saveCredentials rfl (fun c hc => ?_) rfl _ _
    rw [CredentialsFile.removeCredential] at hremoved
    split at hremoved
    · obtain rfl := Option.some.inj hremoved
      by_cases hid : c.id = id
      · exact .inr ⟨w, by rw [hid]⟩
      · refine .inl ⟨c, ?_, rfl⟩
        rwa [List.mem_eraseP_of_neg (by simpa using hid)]
    · cases hremoved

theorem outcome_patchCredential (hinput : input.written = w.written) (id : JsString)
    (body : Option Value) : Outcome s input s (s.patchCredential id body w) := by
  rw [patchCredential]
  split
  · exact .same rfl
  · dsimp only
    split
    · exact .same rfl
    · rename_i hupdate
      refine outcome_saveCredentials rfl (fun c hc => .inl ?_) hinput _ _
      refine ids_of_updateMeta ?_ hupdate c hc
      intro c
      split <;> rfl

theorem outcome_finishPut (hbase : base.toConfig = s.toConfig) {p : PutAgents}
    {health : List (JsString × DriverHealth)} (hput : Puts s input p health w.now)
    (hinput : input.written = w.written) :
    Outcome s input base (base.finishPut p health w) := by
  rw [finishPut]
  split
  · exact .same rfl
  · rename_i hchecked
    rw [hbase]
    exact outcome_saveSnapshot hbase (.put hput hchecked) hinput 200

theorem outcome_probePut (hbase : base.toConfig = s.toConfig) {p : PutAgents}
    {found : List (JsString × DriverHealth)} {todo : List Value}
    (hput : ∀ health, probeFrom found todo = .ok (health, []) → Puts s input p health w.now)
    (hfields : s.Sound → ∀ a ∈ p.agents, isMissingFields a = false)
    (hinput : input.written = w.written) : Outcome s input base (base.probePut p found todo w) := by
  rw [probePut]
  split
  · exact .same rfl
  · rename_i hprobed
    exact outcome_finishPut hbase (hput _ hprobed) hinput
  · exact .waits hfields

/-- The agents of a body that is accepted have the fields that they must have. -/
theorem isMissingFields_of_readAgents {items : List Value} {agents : List AgentFields}
    (h : readAgents items = .ok agents) : ∀ a ∈ agents, isMissingFields a = false := by
  induction items generalizing agents with
  | nil =>
    obtain rfl := Except.ok.inj h
    simp
  | cons v rest ih =>
    rw [readAgents] at h
    split at h
    · cases h
    · split at h
      · cases h
      · rename_i a hcomplete
        cases hrest : readAgents rest with
        | error e =>
          rw [hrest] at h
          cases h
        | ok others =>
          rw [hrest] at h
          obtain rfl := Except.ok.inj h
          exact List.forall_mem_cons.mpr ⟨by simpa using hcomplete, ih hrest⟩

theorem outcome_putAgents (body : Option Value) :
    Outcome s (.request true (.putAgents body) w) s (s.putAgents body w) := by
  rw [ConfigState.putAgents]
  split
  · exact .same rfl
  · rename_i fields hfields
    split
    · rename_i items hitems
      split
      · exact .same rfl
      · rename_i agents hagents
        exact outcome_probePut rfl (fun _ hprobed => .now hfields hitems hagents hprobed)
          (fun _ => isMissingFields_of_readAgents hagents) rfl
    · exact .same rfl

theorem findAgent_eq_some {snapshot : Snapshot} {id : JsString} {tag : Nat} {a : AgentFields}
    (h : snapshot.findAgent id = some (tag, a)) :
    (tag, a) ∈ snapshot.entries ∧ a.hasId id = true :=
  ⟨List.mem_of_find?_eq_some h, List.find?_some (p := fun e : Nat × AgentFields => e.2.hasId id) h⟩

theorem outcome_patchAgent (id : JsString) (body : Option Value) :
    Outcome s (.request true (.patchAgent id body) w) s (s.patchAgent id body w) := by
  cases body with
  | none => exact .same rfl
  | some v =>
    rw [ConfigState.patchAgent]
    split
    · exact .same rfl
    · rename_i tag a hfound
      split
      · exact .same rfl
      · rename_i body hbody
        split
        · exact .same rfl
        · rename_i hchecked
          split
          · rename_i rn hnew
            split
            · exact .same rfl
            · exact .same rfl
            · exact .same rfl
            · rename_i hdriver
              obtain ⟨hmem, hid⟩ := findAgent_eq_some hfound
              obtain ⟨hrn, -⟩ := Option.filter_eq_some_iff.mp hnew
              refine .waits fun hs => ⟨hs.live_lt, s.current.below _ hmem, fun e he htag => ?_,
                hchecked, rn, hrn, hdriver⟩
              rwa [List.inj_on_of_nodup_map s.current.nodup_tags he hmem htag]
          · rename_i hsame
            have hchange := Changes.patchNow (w := w) hfound hbody hchecked hsame
            dsimp only
            split
            · rename_i hthrows
              refine .noDriver rfl hfound hbody hchecked hsame ?_
              intro d hd
              rw [hthrows] at hd
              cases hd
            · rename_i hmissing
              refine .noDriver rfl hfound hbody hchecked hsame ?_
              intro d hd
              rw [hmissing] at hd
              exact (Option.some.inj hd).symm
            · exact outcome_saveSnapshot rfl hchange rfl 200

theorem outcome_deleteAgent (id : JsString) :
    Outcome s (.request true (.deleteAgent id) w) s (s.deleteAgent id w) := by
  rw [deleteAgent]
  split
  · exact .same rfl
  · rename_i e hfound
    dsimp only
    split
    · rename_i hnull
      obtain ⟨b, hb, hnone⟩ := List.any_eq_true.mp hnull
      exact .splices rfl hfound ⟨b, hb, Option.isNone_iff_eq_none.mp hnone⟩
    · exact outcome_saveSnapshot rfl (.delete hfound) rfl 204

end Handlers

/-- The inversion of a step: what it can do, to the state without the request that went on. -/
theorem outcome_next (s : ConfigState) (input : ConfigInput) :
    ∃ base, (base = s ∨ ∃ n, base = s.endWait n) ∧ Outcome s input base (configNext input s) := by
  cases input with
  | request authed request w =>
    refine ⟨s, .inl rfl, ?_⟩
    cases authed with
    | false => exact .same rfl
    | true =>
      cases request with
      | read => exact .same rfl
      | postCredential body => exact outcome_postCredential rfl body
      | testCredential id => exact outcome_testCredential rfl id
      | defaultCredential id => exact outcome_defaultCredential rfl id
      | deleteCredential id => exact outcome_deleteCredential id
      | patchCredential id body => exact outcome_patchCredential rfl id body
      | putAgents body => exact outcome_putAgents body
      | patchAgent id body => exact outcome_patchAgent id body
      | deleteAgent id => exact outcome_deleteAgent id
      | reload => exact .reloads (.inr rfl)
      | unknown => exact .same rfl
  | probed n health w =>
    rw [configNext]
    split
    · rename_i p found todo hpending
      refine ⟨s.endWait n, .inr ⟨n, rfl⟩, ?_⟩
      cases todo with
      | nil => exact outcome_finishPut (s.endWait_toConfig n) (.done hpending) rfl
      | cons rn rest =>
        exact outcome_probePut (s.endWait_toConfig n)
          (fun _ hprobed => .later hpending hprobed) (fun hs => hs.pending n _ hpending) rfl
    · rename_i id body ref tag hpending
      refine ⟨s.endWait n, .inr ⟨n, rfl⟩, ?_⟩
      split
      · rename_i havailable
        exact outcome_saveSnapshot (s.endWait_toConfig n) (.patchLater hpending havailable) rfl 200
      · exact .same rfl
    · exact ⟨s, .inl rfl, .same rfl⟩
  | tested n result w =>
    rw [configNext]
    split
    · refine ⟨s.endWait n, .inr ⟨n, rfl⟩, ?_⟩
      split
      · exact outcome_recordTest (s.endWait_toConfig n) rfl _ _
      · exact .same rfl
    · exact ⟨s, .inl rfl, .same rfl⟩
  | sighup => exact ⟨s, .inl rfl, .reloads (.inl rfl)⟩

/-! ### The requests that wait -/

/-- A configuration later: snapshots stay where they are, and their agents go by the ids that they
went by. -/
structure Config.Evolves (c c' : Config) : Prop where
  nextSnapshot_le : c.nextSnapshot ≤ c'.nextSnapshot
  nextTag_le : ∀ ref < c.nextSnapshot, (c.snapshots ref).nextTag ≤ (c'.snapshots ref).nextTag
  entries : ∀ ref < c.nextSnapshot, ∀ e' ∈ (c'.snapshots ref).entries,
    e'.1 < (c.snapshots ref).nextTag →
      ∃ e ∈ (c.snapshots ref).entries, e.1 = e'.1 ∧ ∀ id, e'.2.hasId id = e.2.hasId id

theorem PendingRequest.Fits.mono {c c' : Config} {p : PendingRequest} (h : p.Fits c)
    (hc : c.Evolves c') : p.Fits c' := by
  cases p with
  | test id => trivial
  | put p health todo => exact h
  | patch id body ref tag =>
    obtain ⟨href, htag, hid, hrest⟩ := h
    refine ⟨Nat.lt_of_lt_of_le href hc.nextSnapshot_le,
      Nat.lt_of_lt_of_le htag (hc.nextTag_le ref href), fun e' he' heq => ?_, hrest⟩
    obtain ⟨e, he, htags, hids⟩ := hc.entries ref href e' he' (heq ▸ htag)
    rw [hids]
    exact hid e he (htags.trans heq)

namespace Config.Evolves

variable {c c' c'' : Config}

theorem refl (c : Config) : c.Evolves c :=
  ⟨Nat.le_refl _, fun _ _ => Nat.le_refl _, fun _ _ e he _ => ⟨e, he, rfl, fun _ => rfl⟩⟩

theorem trans (h : c.Evolves c') (h' : c'.Evolves c'') : c.Evolves c'' := by
  refine ⟨h.nextSnapshot_le.trans h'.nextSnapshot_le, fun ref href => ?_, fun ref href e he htag => ?_⟩
  · exact (h.nextTag_le ref href).trans (h'.nextTag_le ref (href.trans_le h.nextSnapshot_le))
  · obtain ⟨e', he', htag', hid'⟩ := h'.entries ref (href.trans_le h.nextSnapshot_le) e he
      (htag.trans_le (h.nextTag_le ref href))
    obtain ⟨e'', he'', htag'', hid''⟩ := h.entries ref href e' he' (htag' ▸ htag)
    exact ⟨e'', he'', htag''.trans htag', fun id => (hid' id).trans (hid'' id)⟩

theorem reload (c : Config) : c.Evolves c.reload := by
  have hsame : ∀ ref < c.nextSnapshot, c.reload.snapshots ref = c.snapshots ref := fun ref href =>
    c.reload_of_ne (Nat.ne_of_lt href)
  refine ⟨Nat.le_succ _, fun ref href => ?_, fun ref href e he _ => ?_⟩
  · rw [hsame ref href]
  · rw [hsame ref href] at he
    exact ⟨e, he, rfl, fun _ => rfl⟩

/-- A snapshot in memory is changed, and its agents go by the ids that they went by. -/
theorem setSnapshot {ref : Nat} {snapshot : Snapshot}
    (hnext : (c.snapshots ref).nextTag ≤ snapshot.nextTag)
    (hentries : ∀ e' ∈ snapshot.entries, e'.1 < (c.snapshots ref).nextTag →
      ∃ e ∈ (c.snapshots ref).entries, e.1 = e'.1 ∧ ∀ id, e'.2.hasId id = e.2.hasId id) :
    c.Evolves (c.setSnapshot ref snapshot) := by
  refine ⟨Nat.le_refl _, fun ref' _ => ?_, fun ref' _ e he htag => ?_⟩
  · by_cases href : ref' = ref
    · rw [href, c.setSnapshot_self]
      exact hnext
    · rw [c.setSnapshot_of_ne href]
  · by_cases href : ref' = ref
    · subst href
      rw [c.setSnapshot_self] at he
      exact hentries e he htag
    · rw [c.setSnapshot_of_ne href] at he
      exact ⟨e, he, rfl, fun _ => rfl⟩

end Config.Evolves

/-! ### Fields of a patched agent -/

theorem get?_patched (body : Fields) (now : JsString) (a : AgentFields) (k : JsString) :
    (a.patched body now).get? k = if utf16 "updated_at" = k then some (.string now)
      else if k ∈ patchKeys then (body.get? k).or (a.get? k) else a.get? k := by
  rw [AgentFields.patched, Fields.get?_set]
  split
  · rfl
  · generalize patchKeys = keys
    induction keys generalizing a with
    | nil => rfl
    | cons key rest ih =>
      rw [List.foldl_cons, ih]
      cases hbody : body.get? key with
      | none =>
        by_cases hkey : k = key
        · subst hkey
          simp [hbody]
        · simp [hkey]
      | some v =>
        dsimp only
        rw [Fields.get?_set]
        by_cases hkey : k = key
        · subst hkey
          simp [hbody]
        · simp [hkey, Ne.symm hkey]

/-- No `PATCH` changes the id of an agent. -/
theorem hasId_patched (body : Fields) (now : JsString) (a : AgentFields) (id : JsString) :
    (a.patched body now).hasId id = a.hasId id := by
  rw [AgentFields.hasId, AgentFields.id, get?_patched, if_neg (by decide), if_neg (by decide)]
  rfl

theorem evolves_of_changes {s : ConfigState} {input : ConfigInput} {ref : Nat}
    {update : AgentsUpdate} {snapshot : Snapshot} (h : Changes s input ref update snapshot) :
    s.toConfig.Evolves (s.setSnapshot ref snapshot) := by
  have hpatch : ∀ (ref tag : Nat) (body : Fields) (now : JsString),
      s.toConfig.Evolves (s.setSnapshot ref ((s.snapshots ref).patchAgent tag body now)) := by
    intro ref tag body now
    refine Config.Evolves.setSnapshot (Nat.le_refl _) ?_
    intro e he _
    obtain ⟨d, hd, rfl⟩ := List.mem_map.mp he
    refine ⟨d, hd, ?_, fun id => ?_⟩
    · split <;> rfl
    · split
      · exact hasId_patched body now d.2 id
      · rfl
  cases h with
  | patchNow => exact hpatch _ _ _ _
  | patchLater => exact hpatch _ _ _ _
  | put =>
    refine Config.Evolves.setSnapshot (Nat.le_add_right _ _) ?_
    intro e he htag
    have hnew := (mem_tagged he).1
    exact absurd htag (Nat.not_lt.mpr hnew)
  | delete =>
    refine Config.Evolves.setSnapshot (Nat.le_refl _) ?_
    intro e he _
    exact ⟨e, List.mem_of_mem_eraseP he, rfl, fun _ => rfl⟩

theorem evolves_saveSnapshot {c : Config} {ref : Nat} {snapshot : Snapshot}
    (h : c.Evolves (c.setSnapshot ref snapshot)) : c.Evolves (c.saveSnapshot ref snapshot) := by
  have hfile : (c.setSnapshot ref snapshot).Evolves
      { c.setSnapshot ref snapshot with file := snapshot.content.saved } :=
    ⟨Nat.le_refl _, fun _ _ => Nat.le_refl _, fun _ _ e he _ => ⟨e, he, rfl, fun _ => rfl⟩⟩
  exact h.trans (hfile.trans (Config.Evolves.reload _))

theorem evolves_saveCredentials (c : Config) (credentials : CredentialsFile) (reloads : Bool) :
    c.Evolves (c.saveCredentials credentials reloads) := by
  have hsame : c.Evolves { c with credentials } :=
    ⟨Nat.le_refl _, fun _ _ => Nat.le_refl _, fun _ _ e he _ => ⟨e, he, rfl, fun _ => rfl⟩⟩
  cases reloads with
  | true => exact hsame.trans (Config.Evolves.reload _)
  | false => exact hsame

theorem Config.saveSnapshot_live_lt (c : Config) (ref : Nat) (snapshot : Snapshot) :
    (c.saveSnapshot ref snapshot).live < (c.saveSnapshot ref snapshot).nextSnapshot :=
  Nat.lt_succ_self _

/-! ### Soundness -/

namespace ConfigState.Sound

variable {s : ConfigState}

theorem boot (file : AgentsFile) (credentials : CredentialsFile) :
    (ConfigState.boot file credentials).Sound :=
  ⟨Nat.zero_lt_one, fun n p h => by cases h⟩

theorem withConfig (h : s.Sound) {c : Config} (hc : s.toConfig.Evolves c)
    (hlive : c.live < c.nextSnapshot) : (s.withConfig c).Sound :=
  ⟨hlive, fun n p hp => (h.pending n p hp).mono hc⟩

theorem endWait (h : s.Sound) (id : Nat) : (s.endWait id).Sound := by
  refine ⟨h.live_lt, fun n p hp => ?_⟩
  rw [ConfigState.endWait, JsMap.get?_delete] at hp
  split at hp
  · cases hp
  · exact h.pending n p hp

theorem wait (h : s.Sound) {p : PendingRequest} (hp : p.Fits s.toConfig) : (s.wait p).2.Sound := by
  refine ⟨h.live_lt, fun n q hq => ?_⟩
  rw [ConfigState.wait, JsMap.get?_set] at hq
  split at hq
  · rw [← Option.some.inj hq]
    exact hp
  · exact h.pending n q hq

end ConfigState.Sound

theorem sound_of_outcome {s base : ConfigState} {input : ConfigInput}
    {r : ConfigOutput × ConfigState} (h : Outcome s input base r) (hs : s.Sound)
    (hbase : base.Sound) (hconfig : base.toConfig = s.toConfig) : r.2.Sound := by
  have hlive : s.live < s.nextSnapshot := hs.live_lt
  cases h with
  | same => exact hbase
  | waits hp =>
    have hfits := hp hs
    rw [← hconfig] at hfits
    exact hbase.wait hfits
  | reloads =>
    refine hbase.withConfig ?_ (Nat.lt_succ_self _)
    rw [hconfig]
    exact .reload _
  | @credentials _ credentials reloads _ =>
    refine hbase.withConfig ?_ ?_
    · rw [hconfig]
      exact evolves_saveCredentials _ _ _
    · cases reloads with
      | true => exact Nat.lt_succ_self _
      | false => exact hlive
  | unwritten hchange =>
    refine hbase.withConfig ?_ hlive
    rw [hconfig]
    exact evolves_of_changes hchange
  | noDriver _ hfound hbody hchecked hsame =>
    refine hbase.withConfig ?_ hlive
    rw [hconfig]
    exact evolves_of_changes (.patchNow hfound hbody hchecked hsame)
  | splices =>
    refine hbase.withConfig ?_ hlive
    rw [hconfig]
    refine .setSnapshot (Nat.le_refl _) ?_
    intro e he _
    exact ⟨e, List.mem_of_mem_eraseP he, rfl, fun _ => rfl⟩
  | saves hchange =>
    refine hbase.withConfig ?_ (Config.saveSnapshot_live_lt _ _ _)
    rw [hconfig]
    exact evolves_saveSnapshot (evolves_of_changes hchange)

theorem sound_next (input : ConfigInput) (s : ConfigState) (h : s.Sound) :
    (configNext input s).2.Sound := by
  obtain ⟨base, hbase, houtcome⟩ := outcome_next s input
  rcases hbase with rfl | ⟨n, rfl⟩
  · exact sound_of_outcome houtcome h h rfl
  · exact sound_of_outcome houtcome h (h.endWait n) rfl

/-! ### A configuration to run on -/

/-- An agent of a name, with a model. -/
def sampleAgent (id model : String) : AgentFields :=
  [(utf16 "id", .string (utf16 id)), (utf16 "runtime", .string (utf16 "claude-code")),
    (utf16 "model", .string (utf16 model)), (utf16 "enabled", .bool true)]

def sampleFile : AgentsFile := ⟨[sampleAgent "a" "m", sampleAgent "b" "m"], []⟩

/-- A moment in which a write succeeds. -/
def sampleMoment : ConfigMoment := ⟨[], [], true⟩

def sampleUpdate (id : String) (body : Fields) : ConfigInput :=
  .request true (.patchAgent (utf16 id) (some (.object body))) sampleMoment

end OsModa.Gateway
