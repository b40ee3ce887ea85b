import Mathlib.Logic.Function.Basic
import OsModa.Base.JsMap
import OsModa.Base.Machine
import OsModa.Gateway.Credentials

/-!
The REST endpoints of the configuration.

The gateway reads the agents from a snapshot in memory. A reload puts another one, read from the
file, in its place, and a request that waits for a driver's probe keeps the one that it began with.
So snapshots have a number, and the agents in one have tags: what a request changes after its
probe is the agent that it found, in the snapshot where it found it.
-/

namespace OsModa.Gateway

open OsModa.Js OsModa.Machine

/-! ### Drivers -/

/-- The drivers, with the providers and the types of credentials that they support. -/
def allDrivers : List (JsString × List JsString × List JsString) :=
  [(utf16 "claude-code", [utf16 "anthropic"], [utf16 "oauth", utf16 "api_key"]),
    (utf16 "openclaw", [utf16 "anthropic", utf16 "openai"], [utf16 "api_key", utf16 "oauth"]),
    (utf16 "managed-agent", [utf16 "anthropic"], [utf16 "api_key"])]

/-- The properties that every object has. -/
def inheritedNames : List JsString :=
  ["constructor", "hasOwnProperty", "isPrototypeOf", "propertyIsEnumerable", "toLocaleString",
    "toString", "valueOf", "__defineGetter__", "__defineSetter__", "__lookupGetter__",
    "__lookupSetter__", "__proto__"].map utf16

inductive DriverLookup where
  | driver
  /-- What every object has is found, and is no driver. -/
  | inherited
  | missing
  deriving DecidableEq

def lookupDriver (name : JsString) : DriverLookup :=
  if allDrivers.any fun d => d.1 = name then .driver
  else if inheritedNames.any fun n => n = name then .inherited
  else .missing

/-- `allDrivers[name]`, where the name becomes a text; that may throw. -/
def getDriver (name : Option Value) : Option DriverLookup :=
  match name with
  | none => some .missing
  | some v => v.toText.map lookupDriver

/-- What a probe finds. -/
structure DriverHealth where
  available : Bool
  error : Option JsString

/-- What is taken for the health of something that is no driver and has no probe to call. -/
def DriverHealth.threw (name : String) : DriverHealth :=
  ⟨false, utf16 ("healthCheck threw: " ++ name ++ ".healthCheck is not a function")⟩

/-- Some driver supports a credential. -/
def hasDriverFor (c : StoredCredential) : Bool :=
  allDrivers.any fun d =>
    (d.2.1.any fun provider => Value.strictEq (some (.string provider)) c.provider) &&
      d.2.2.any fun type => Value.strictEq (some (.string type)) c.type

/-! ### Errors -/

/-- An answer with an error status. Of an error that was thrown the text is not told. -/
structure ConfigError where
  status : Nat
  code : String
  message : Option JsString

namespace ConfigError

def internal : ConfigError := ⟨500, "internal_error", none⟩
def unauthorized : ConfigError := ⟨401, "unauthorized", utf16 "Missing or invalid bearer token"⟩
def notFound (what : String) : ConfigError := ⟨404, "not_found", utf16 what⟩
def conflict (message : String) : ConfigError := ⟨409, "conflict", utf16 message⟩

/-- The text is built first; where that throws, the error is another. -/
def ofText (status : Nat) (code : String) : Option JsString → ConfigError
  | some message => ⟨status, code, message⟩
  | none => internal

def validation (message : Option JsString) : ConfigError := ofText 400 "validation_failed" message

/-- `${v}` -/
def textOf (v : Option Value) : Option JsString :=
  match v with
  | none => some (utf16 "undefined")
  | some v => v.toText

/-- A text with values in it. -/
def text (parts : List (String × Option Value)) (last : String) : Option JsString :=
  parts.foldr (fun part rest => do return utf16 part.1 ++ (← textOf part.2) ++ (← rest))
    (some (utf16 last))

def unknownRuntime (runtime : Option Value) : ConfigError :=
  validation (text [("unknown runtime ", runtime)] "")

end ConfigError

/-! ### Agents -/

def agentsPrefix : JsString := utf16 "/var/lib/osmoda/"

def isAllowedProfilePath : Option Value → Bool
  | some (.string p) =>
    p ≠ [] && p.length ≤ 512 && !(p.any fun a => a = 0) && agentsPrefix.isPrefixOf p &&
      !(p.splitOn 47).any fun segment => segment = utf16 ".."
  | _ => false

/-- A cap is absent, or a finite number that is not negative. -/
def isAllowedCap : Option Value → Bool
  | none | some .null => true
  | some (.number text) => Value.isFinite text && !Value.isNegative text
  | some _ => false

def isBool : Option Value → Bool
  | some (.bool _) => true
  | _ => false

def isArray : Option Value → Bool
  | some (.array _) => true
  | _ => false

def isNullish : Option Value → Bool
  | none | some .null => true
  | some _ => false

def capKeys : List JsString := [utf16 "dailyTokenCap", utf16 "dailyUsdCap"]

/-- The fields that a `PATCH` may set. -/
def patchKeys : List JsString :=
  ["runtime", "credential_id", "model", "display_name", "enabled", "channels", "profile_dir",
    "system_prompt_file", "dailyTokenCap", "dailyUsdCap"].map utf16

abbrev AgentFields := Fields

namespace AgentFields

def id (a : AgentFields) : Option Value := a.get? (utf16 "id")
def runtime (a : AgentFields) : Option Value := a.get? (utf16 "runtime")
def model (a : AgentFields) : Option Value := a.get? (utf16 "model")
def enabled (a : AgentFields) : Option Value := a.get? (utf16 "enabled")
def credentialId (a : AgentFields) : Option Value := a.get? (utf16 "credential_id")
def channels (a : AgentFields) : Option Value := a.get? (utf16 "channels")
def profileDir (a : AgentFields) : Option Value := a.get? (utf16 "profile_dir")
def systemPromptFile (a : AgentFields) : Option Value := a.get? (utf16 "system_prompt_file")

/-- The agent goes by an id. -/
def hasId (id : JsString) (a : AgentFields) : Bool :=
  Value.strictEq a.id (some (.string id))

/-- What a `PATCH` makes of an agent. -/
def patched (body : Fields) (now : JsString) (a : AgentFields) : AgentFields :=
  Fields.set (utf16 "updated_at") (.string now) <|
    patchKeys.foldl (fun a k => match body.get? k with
      | some v => Fields.set k v a
      | none => a) a

/-- What a `PUT` makes of an agent. -/
def normalized (now : JsString) (a : AgentFields) : AgentFields :=
  Fields.set (utf16 "channels") (match a.channels with
    | some (.array items) => .array items
    | _ => .array []) (Fields.set (utf16 "updated_at") (.string now) a)

end AgentFields

structure AgentsFile where
  agents : List AgentFields
  bindings : List Value

namespace AgentsFile

/-- What is read back of what was written. -/
def saved (f : AgentsFile) : AgentsFile :=
  ⟨f.agents.map Value.savedFields, Value.savedItems f.bindings⟩

end AgentsFile

theorem strictEq_saved (v : Option Value) (s : JsString) :
    Value.strictEq (v.map Value.saved) (some (.string s)) = Value.strictEq v (some (.string s)) := by
  rw [Bool.eq_iff_iff, Value.strictEq_string, Value.strictEq_string]
  cases v with
  | none => simp
  | some v => rw [Option.map_some, Option.some.injEq, Option.some.injEq, Value.saved_eq_string]

theorem hasId_saved (id : JsString) (a : AgentFields) :
    AgentFields.hasId id (Value.savedFields a) = a.hasId id := by
  rw [AgentFields.hasId, AgentFields.id, Value.get?_savedFields, strictEq_saved]
  rfl

/-- The agents of a list, with tags. -/
def tagged (nextTag : Nat) : List AgentFields → List (Nat × AgentFields)
  | [] => []
  | a :: rest => (nextTag, a) :: tagged (nextTag + 1) rest

theorem mem_tagged {n : Nat} {agents : List AgentFields} {e : Nat × AgentFields}
    (h : e ∈ tagged n agents) : n ≤ e.1 ∧ e.1 < n + agents.length := by
  induction agents generalizing n with
  | nil => cases h
  | cons a rest ih =>
    rw [List.length_cons]
    rcases List.mem_cons.mp h with rfl | hrest
    · exact ⟨Nat.le_refl _, by omega⟩
    · have := ih hrest
      omega

theorem nodup_tagged (n : Nat) (agents : List AgentFields) :
    ((tagged n agents).map Prod.fst).Nodup := by
  induction agents generalizing n with
  | nil => exact List.nodup_nil
  | cons a rest ih =>
    rw [tagged, List.map_cons, List.nodup_cons]
    refine ⟨fun hmem => ?_, ih (n + 1)⟩
    obtain ⟨e, he, htag⟩ := List.mem_map.mp hmem
    have hlow := (mem_tagged he).1
    omega

@[simp] theorem map_snd_tagged (n : Nat) (agents : List AgentFields) :
    (tagged n agents).map Prod.snd = agents := by
  induction agents generalizing n with
  | nil => rfl
  | cons a rest ih => rw [tagged, List.map_cons, ih]

/-- A snapshot in memory. Its agents have tags, and no later one of it gets the same. -/
structure Snapshot where
  entries : List (Nat × AgentFields)
  bindings : List Value
  nextTag : Nat
  nodup_tags : (entries.map Prod.fst).Nodup
  below : ∀ e ∈ entries, e.1 < nextTag

namespace Snapshot

def content (s : Snapshot) : AgentsFile := ⟨s.entries.map Prod.snd, s.bindings⟩

/-- `loadAgentsFile` -/
def load (f : AgentsFile) : Snapshot where
  entries := tagged 0 f.agents
  bindings := f.bindings
  nextTag := f.agents.length
  nodup_tags := nodup_tagged 0 f.agents
  below := fun e he => by
    have := (mem_tagged he).2
    omega

/-- `current.agents = normalized; current.bindings = bindings` -/
def putAgents (agents : List AgentFields) (bindings : List Value) (s : Snapshot) : Snapshot where
  entries := tagged s.nextTag agents
  bindings := bindings
  nextTag := s.nextTag + agents.length
  nodup_tags := nodup_tagged s.nextTag agents
  below := fun _ he => (mem_tagged he).2

/-- `agents.find((a) => a.id === id)` -/
def findAgent (id : JsString) (s : Snapshot) : Option (Nat × AgentFields) :=
  s.entries.find? fun e => e.2.hasId id

/-- The agent with a tag is changed, if it is still there. -/
def patchAgent (tag : Nat) (body : Fields) (now : JsString) (s : Snapshot) : Snapshot where
  entries := s.entries.map fun e => if e.1 = tag then (e.1, e.2.patched body now) else e
  bindings := s.bindings
  nextTag := s.nextTag
  nodup_tags := by
    rw [List.map_map]
    convert s.nodup_tags using 2
    funext e
    rw [Function.comp_apply]
    split <;> rfl
  below := fun e he => by
    obtain ⟨d, hd, rfl⟩ := List.mem_map.mp he
    have := s.below d hd
    split <;> exact this

/-- The first agent with an id goes: `splice`. -/
def spliceAgent (id : JsString) (s : Snapshot) : Snapshot where
  entries := s.entries.eraseP fun e => e.2.hasId id
  bindings := s.bindings
  nextTag := s.nextTag
  nodup_tags := s.nodup_tags.sublist (List.eraseP_sublist.map Prod.fst)
  below := fun e he => s.below e (List.mem_of_mem_eraseP he)

/-- Other bindings. -/
def withBindings (bindings : List Value) (s : Snapshot) : Snapshot := { s with bindings }

end Snapshot

/-- The binding is of an agent; `none` where looking throws. -/
def isBindingOf (id : JsString) (b : Value) : Option Bool :=
  b.fields.map fun fields => Value.strictEq (fields.get? (utf16 "agent_id")) (some (.string id))

/-! ### Requests -/

/-- A request, with its body; `none` stands for a body that cannot be read. -/
inductive ConfigRequest where
  /-- `GET`, of anything. -/
  | read
  | postCredential (body : Option Value)
  | testCredential (id : JsString)
  | defaultCredential (id : JsString)
  | deleteCredential (id : JsString)
  | patchCredential (id : JsString) (body : Option Value)
  | putAgents (body : Option Value)
  | patchAgent (id : JsString) (body : Option Value)
  | deleteAgent (id : JsString)
  | reload
  /-- Any other method or path. -/
  | unknown

/-- What a request finds besides: the clock, a fresh id, and whether the write of a file succeeds. -/
structure ConfigMoment where
  now : JsString
  newId : JsString
  written : Bool

/-- A `PUT` that has been validated as far as this. -/
structure PutAgents where
  agents : List AgentFields
  bindings : Option Value
  /-- The credentials there were when it came. -/
  credentials : List StoredCredential

/-- A request that waits. -/
inductive PendingRequest where
  | test (id : JsString)
  /-- For the probe of the first driver of `todo`. -/
  | put (request : PutAgents) (health : List (JsString × DriverHealth)) (todo : List Value)
  | patch (id : JsString) (body : Fields) (snapshot tag : Nat)

/-- The configuration in memory and in the files. -/
structure Config where
  snapshots : Nat → Snapshot
  /-- The snapshot of the cache. -/
  live : Nat
  /-- The next snapshot's number. -/
  nextSnapshot : Nat
  file : AgentsFile
  credentials : CredentialsFile

structure ConfigState extends Config where
  pending : JsMap Nat PendingRequest
  nextRequest : Nat

inductive ConfigInput where
  | request (authed : Bool) (request : ConfigRequest) (w : ConfigMoment)
  /-- A probe is over. -/
  | probed (id : Nat) (health : DriverHealth) (w : ConfigMoment)
  /-- The test of a credential is over; `none` if it threw. -/
  | tested (id : Nat) (result : Option (Bool × Option JsString)) (w : ConfigMoment)
  /-- The signal to reload comes. -/
  | sighup

/-- What a request did to the agents. -/
inductive AgentsUpdate where
  | patch (id : JsString) (body : Fields) (now : JsString)
  | put (agents : List AgentFields) (bindings : Option (List Value)) (now : JsString)
  | delete (id : JsString)

inductive ConfigOutput where
  | waits
  | error (e : ConfigError)
  /-- An answer without an error; `update` is what was done to the agents. -/
  | ok (status : Nat) (update : Option AgentsUpdate)
  | quiet

namespace Config

/-- What the files hold has been loaded. -/
def boot (file : AgentsFile) (credentials : CredentialsFile) : Config where
  snapshots := fun _ => Snapshot.load file
  live := 0
  nextSnapshot := 1
  file := file
  credentials := credentials

variable (c : Config)

/-- `cache.current()` -/
def current : Snapshot := c.snapshots c.live

/-- `cache.reload()` -/
def reload : Config :=
  { c with
    snapshots := Function.update c.snapshots c.nextSnapshot (Snapshot.load c.file)
    live := c.nextSnapshot
    nextSnapshot := c.nextSnapshot + 1 }

/-- A snapshot is changed in memory. -/
def setSnapshot (ref : Nat) (snapshot : Snapshot) : Config :=
  { c with snapshots := Function.update c.snapshots ref snapshot }

/-- A snapshot is changed and saved, and the file is loaded: `saveAgentsFile`, `reloadSelf`. -/
def saveSnapshot (ref : Nat) (snapshot : Snapshot) : Config :=
  reload { c.setSnapshot ref snapshot with file := snapshot.content.saved }

/-- The credential store is saved. -/
def saveCredentials (credentials : CredentialsFile) (reloads : Bool) : Config :=
  if reloads then reload { c with credentials } else { c with credentials }

@[simp] theorem setSnapshot_self (ref : Nat) (snapshot : Snapshot) :
    (c.setSnapshot ref snapshot).snapshots ref = snapshot := by
  simp [setSnapshot]

theorem setSnapshot_of_ne {ref ref' : Nat} (h : ref' ≠ ref) (snapshot : Snapshot) :
    (c.setSnapshot ref snapshot).snapshots ref' = c.snapshots ref' := by
  simp [setSnapshot, h]

@[simp] theorem reload_current : c.reload.current = Snapshot.load c.file := by
  simp [reload, current]

theorem reload_of_ne {ref : Nat} (h : ref ≠ c.nextSnapshot) :
    c.reload.snapshots ref = c.snapshots ref := by
  simp [reload, h]

end Config

namespace ConfigState

/-- The state after boot. -/
def boot (file : AgentsFile) (credentials : CredentialsFile) : ConfigState :=
  { Config.boot file credentials with pending := .empty, nextRequest := 0 }

variable (s : ConfigState)

def withConfig (c : Config) : ConfigState := { s with toConfig := c }

/-- A snapshot is changed in memory and saved, unless that fails. -/
def saveSnapshot (ref : Nat) (snapshot : Snapshot) (status : Nat) (update : AgentsUpdate)
    (w : ConfigMoment) : ConfigOutput × ConfigState :=
  if w.written then (.ok status (some update), s.withConfig (s.toConfig.saveSnapshot ref snapshot))
  else (.error .internal, s.withConfig (s.setSnapshot ref snapshot))

/-- The credential store is saved, unless that fails. -/
def saveCredentials (credentials : CredentialsFile) (w : ConfigMoment) (reloads : Bool)
    (status : Nat) : ConfigOutput × ConfigState :=
  if w.written then (.ok status none, s.withConfig (s.toConfig.saveCredentials credentials reloads))
  else (.error .internal, s)

def wait (p : PendingRequest) : ConfigOutput × ConfigState :=
  (.waits, { s with pending := JsMap.set s.pending s.nextRequest p, nextRequest := s.nextRequest + 1 })

/-! ### Credentials -/

def maxCredentials : Nat := 64

/-- `(typeof body.label === "string" ? body.label : "").slice(0, 60)`, or what else it is. -/
def credentialLabel (body : Fields) : Option Value :=
  let given := match body.get? (utf16 "label") with
    | some (.string label) => label.take 60
    | _ => []
  if given ≠ [] then some (.string given)
  else do return .string ((← ConfigError.textOf (body.get? (utf16 "provider"))) ++ 32 ::
    (← ConfigError.textOf (body.get? (utf16 "type"))))

/-- The checks of a body, with its secret. -/
def checkCredential (body : Fields) : Except ConfigError Value :=
  match body.get? (utf16 "secret") with
  | some (.string secret) =>
    if secret.length < 10 then
      .error (.validation (some (utf16 "secret required, min 10 chars")))
    else if 4096 < secret.length then .error (.validation (some (utf16 "secret too long")))
    else if !Value.truthy (body.get? (utf16 "provider")) then
      .error (.validation (some (utf16 "provider required")))
    else if !Value.truthy (body.get? (utf16 "type")) then
      .error (.validation (some (utf16 "type required")))
    else .ok (.string secret)
  | _ => .error (.validation (some (utf16 "secret required, min 10 chars")))

def postCredential (body : Option Value) (w : ConfigMoment) : ConfigOutput × ConfigState :=
  match body.bind Value.fields with
  | none => (.error .internal, s)
  | some body =>
    match checkCredential body with
    | .error e => (.error e, s)
    | .ok secret =>
      -- Bound the credential store.
      if maxCredentials ≤ s.credentials.credentials.length then
        (.error (.conflict "credential limit reached (64). Remove one first."), s)
      else match credentialLabel body with
        | none => (.error .internal, s)
        | some label =>
          let c : NewCredential := ⟨label, body.get? (utf16 "provider"), body.get? (utf16 "type"),
            secret, body.get? (utf16 "base_url")⟩
          s.saveCredentials (s.credentials.addCredential (c.stored w.newId w.now)) w true 201

def recordTest (id : JsString) (test : CredentialTest) (w : ConfigMoment) :
    ConfigOutput × ConfigState :=
  match s.credentials.updateMeta id fun c => { c with lastTest := some test } with
  | some credentials => s.saveCredentials credentials w false 200
  | none => (.ok 200 none, s)

def testCredential (id : JsString) (w : ConfigMoment) : ConfigOutput × ConfigState :=
  match s.credentials.getCredential id with
  | none => (.error (.notFound "credential not found"), s)
  | some c =>
    if hasDriverFor c then s.wait (.test id)
    else s.recordTest id ⟨w.now, false, utf16 "no driver accepts this provider+type"⟩ w

def defaultCredential (id : JsString) (w : ConfigMoment) : ConfigOutput × ConfigState :=
  match s.credentials.setDefault id with
  | none => (.error (.notFound "credential not found"), s)
  | some credentials => s.saveCredentials credentials w true 200

def deleteCredential (id : JsString) (w : ConfigMoment) : ConfigOutput × ConfigState :=
  match s.credentials.removeCredential id with
  | none => (.error (.notFound "credential not found"), s)
  | some credentials => s.saveCredentials credentials w true 204

def patchCredential (id : JsString) (body : Option Value) (w : ConfigMoment) :
    ConfigOutput × ConfigState :=
  match body.bind Value.fields with
  | none => (.error .internal, s)
  | some body =>
    let relabel (c : StoredCredential) : StoredCredential :=
      match body.get? (utf16 "label") with
      | some (.string label) => { c with label := .string label }
      | _ => c
    match s.credentials.updateMeta id relabel with
    | none => (.error (.notFound "credential not found"), s)
    | some credentials => s.saveCredentials credentials w false 200

/-! ### PUT -/

/-- `!a.id || !a.runtime || !a.model || typeof a.enabled !== "boolean"` -/
def isMissingFields (a : AgentFields) : Bool :=
  !Value.truthy a.id || !Value.truthy a.runtime || !Value.truthy a.model || !isBool a.enabled

/-- The agents of a body, if none of them misses a field. -/
def readAgents : List Value → Except ConfigError (List AgentFields)
  | [] => .ok []
  | v :: rest =>
    match v.fields with
    | none => .error .internal
    | some a =>
      if isMissingFields a then .error (.validation (some (utf16 "agent missing required fields")))
      else (readAgents rest).map (a :: ·)

/-- The runtimes of the agents that are enabled: `new Set`. -/
def enabledRuntimes : List AgentFields → List Value → List Value
  | [], found => found
  | a :: rest, found =>
    match a.runtime with
    | some rn =>
      if Value.truthy a.enabled && !found.any fun v => Value.strictEq (some v) (some rn) then
        enabledRuntimes rest (found ++ [rn])
      else enabledRuntimes rest found
    | none => enabledRuntimes rest found

/-- Probe what needs no waiting for; what is left begins with a driver. -/
def probeFrom : List (JsString × DriverHealth) → List Value →
    Except ConfigError (List (JsString × DriverHealth) × List Value)
  | health, [] => .ok (health, [])
  | health, rn :: rest =>
    match rn.toText with
    | none => .error .internal
    | some name =>
      match lookupDriver name with
      | .missing => .error (.unknownRuntime (some rn))
      | .inherited => probeFrom ((name, .threw "d") :: health) rest
      | .driver => .ok (health, rn :: rest)

/-- What the probes found of a runtime. -/
def healthOf (health : List (JsString × DriverHealth)) (runtime : Option Value) :
    Option DriverHealth :=
  ((ConfigError.textOf runtime).bind fun name => health.find? fun h => h.1 = name).map Prod.snd

/-- The checks of one agent, in their order. -/
def checkAgent (credentials : List StoredCredential) (health : List (JsString × DriverHealth))
    (a : AgentFields) : Except ConfigError Unit :=
  if Value.truthy a.credentialId &&
      !credentials.any fun c => Value.strictEq (some (.string c.id)) a.credentialId then
    .error (.validation (ConfigError.text [("credential ", a.credentialId)] " not found"))
  else match getDriver a.runtime with
    | none => .error .internal
    | some .missing => .error (.unknownRuntime a.runtime)
    | some _ =>
      if Value.truthy a.enabled && (healthOf health a.runtime).any fun h => !h.available then
        .error (.ofText 422 "driver_unavailable" (ConfigError.text [("Agent '", a.id),
          ("' is enabled but runtime '", a.runtime), ("' is unavailable: ",
          (((healthOf health a.runtime).bind DriverHealth.error).map Value.string).getD
            (.string (utf16 "unknown")))] ""))
      else if Value.truthy a.profileDir && !isAllowedProfilePath a.profileDir then
        .error (.validation
          (ConfigError.text [("profile_dir must be under /var/lib/osmoda/ (agent ", a.id)] ")"))
      else if Value.truthy a.systemPromptFile && !isAllowedProfilePath a.systemPromptFile then
        .error (.validation
          (ConfigError.text [("system_prompt_file must be under /var/lib/osmoda/ (agent ", a.id)] ")"))
      else match capKeys.find? fun k => !isAllowedCap (a.get? k) with
        | some k => .error (.validation (ConfigError.text [("", some (.string k)),
            (" must be a non-negative number (agent ", a.id)] ")"))
        | none => .ok ()

def checkAgents (credentials : List StoredCredential) (health : List (JsString × DriverHealth)) :
    List AgentFields → Except ConfigError Unit
  | [] => .ok ()
  | a :: rest => do
    checkAgent credentials health a
    checkAgents credentials health rest

/-- The `bindings` of a body, if they are a list. -/
def bindingsOf : Option Value → Option (List Value)
  | some (.array items) => some items
  | _ => none

/-- The probes are over. -/
def finishPut (p : PutAgents) (health : List (JsString × DriverHealth)) (w : ConfigMoment) :
    ConfigOutput × ConfigState :=
  match checkAgents p.credentials health p.agents with
  | .error e => (.error e, s)
  | .ok () =>
    let bindings := (bindingsOf p.bindings).getD s.current.bindings
    s.saveSnapshot s.live
      (s.current.putAgents (p.agents.map (AgentFields.normalized w.now)) bindings) 200
      (.put p.agents (bindingsOf p.bindings) w.now) w

def probePut (p : PutAgents) (health : List (JsString × DriverHealth)) (todo : List Value)
    (w : ConfigMoment) : ConfigOutput × ConfigState :=
  match probeFrom health todo with
  | .error e => (.error e, s)
  | .ok (health, []) => s.finishPut p health w
  | .ok (health, todo) => s.wait (.put p health todo)

def putAgents (body : Option Value) (w : ConfigMoment) : ConfigOutput × ConfigState :=
  match body.bind Value.fields with
  | none => (.error .internal, s)
  | some fields =>
    match fields.get? (utf16 "agents") with
    | some (.array items) =>
      match readAgents items with
      | .error e => (.error e, s)
      | .ok agents =>
        s.probePut ⟨agents, fields.get? (utf16 "bindings"), s.credentials.credentials⟩ []
          (enabledRuntimes agents []) w
    | _ => (.error (.validation (some (utf16 "agents[] required"))), s)

/-! ### PATCH -/

/-- The checks of a body's fields, in their order. -/
def checkPatch (body : Fields) : Except ConfigError Unit :=
  if (body.get? (utf16 "profile_dir")).isSome &&
      !isAllowedProfilePath (body.get? (utf16 "profile_dir")) then
    .error (.validation (some (utf16 "profile_dir must be under /var/lib/osmoda/")))
  else if !isNullish (body.get? (utf16 "system_prompt_file")) &&
      !isAllowedProfilePath (body.get? (utf16 "system_prompt_file")) then
    .error (.validation (some (utf16 "system_prompt_file must be under /var/lib/osmoda/")))
  else match capKeys.find? fun k => !isAllowedCap (body.get? k) with
    | some k => .error (.validation
        (some (k ++ utf16 " must be a non-negative number (0 or null = unlimited)")))
    | none => .ok ()

/-- The agent is changed in memory, looked at, and saved. -/
def finishPatch (id : JsString) (body : Fields) (ref tag : Nat) (w : ConfigMoment) :
    ConfigOutput × ConfigState :=
  s.saveSnapshot ref ((s.snapshots ref).patchAgent tag body w.now) 200 (.patch id body w.now) w

/-- The runtime that a body asks for, if it is another than the agent's. -/
def newRuntime (body : Fields) (a : AgentFields) : Option Value :=
  (body.get? (utf16 "runtime")).filter fun rn =>
    Value.truthy (some rn) && !Value.strictEq (some rn) a.runtime

def driverUnavailable (id : JsString) (runtime : Value) (health : DriverHealth) : ConfigError :=
  .ofText 422 "driver_unavailable" (ConfigError.text
    [("Cannot switch agent '", some (.string id)), ("' to runtime '", some runtime),
      ("': ", some (.string (health.error.getD (utf16 "driver unhealthy"))))] "")

def patchAgent (id : JsString) (body : Option Value) (w : ConfigMoment) :
    ConfigOutput × ConfigState :=
  match body with
  | none => (.error .internal, s)
  | some v =>
    match s.current.findAgent id with
    | none => (.error (.notFound "agent not found"), s)
    | some (tag, a) =>
      match v.ownFields with
      | none => (.error .internal, s)
      | some body =>
        match checkPatch body with
        | .error e => (.error e, s)
        | .ok () =>
          match newRuntime body a with
          | some rn =>
            match getDriver (some rn) with
            | none => (.error .internal, s)
            | some .missing => (.error (.unknownRuntime (some rn)), s)
            | some .inherited => (.error (driverUnavailable id rn (.threw "targetDriver")), s)
            | some .driver => s.wait (.patch id body s.live tag)
          | none =>
            -- The agent is changed before its runtime is looked up.
            let a := a.patched body w.now
            let changed :=
              s.withConfig (s.setSnapshot s.live (s.current.patchAgent tag body w.now))
            match getDriver a.runtime with
            | none => (.error .internal, changed)
            | some .missing => (.error (.unknownRuntime a.runtime), changed)
            | some _ => s.finishPatch id body s.live tag w

/-! ### DELETE -/

/-- `removeAgent`: the agent goes before the bindings are looked at. -/
def deleteAgent (id : JsString) (w : ConfigMoment) : ConfigOutput × ConfigState :=
  match s.current.findAgent id with
  | none => (.error (.notFound "agent not found"), s)
  | some _ =>
    let spliced := s.current.spliceAgent id
    if s.current.bindings.any fun b => (isBindingOf id b).isNone then
      (.error .internal, s.withConfig (s.setSnapshot s.live spliced))
    else
      let kept := s.current.bindings.filter fun b => !(isBindingOf id b).any (· = true)
      s.saveSnapshot s.live (spliced.withBindings kept) 204 (.delete id) w

/-! ### Steps -/

def handleRequest (w : ConfigMoment) : ConfigRequest → ConfigOutput × ConfigState
  | .read => (.ok 200 none, s)
  | .postCredential body => s.postCredential body w
  | .testCredential id => s.testCredential id w
  | .defaultCredential id => s.defaultCredential id w
  | .deleteCredential id => s.deleteCredential id w
  | .patchCredential id body => s.patchCredential id body w
  | .putAgents body => s.putAgents body w
  | .patchAgent id body => s.patchAgent id body w
  | .deleteAgent id => s.deleteAgent id w
  | .reload => (.ok 200 none, s.withConfig s.reload)
  | .unknown => (.error (.notFound "no config route"), s)

/-- A request that waited goes on. -/
def endWait (id : Nat) : ConfigState := { s with pending := JsMap.delete s.pending id }

@[simp] theorem endWait_toConfig (id : Nat) : (s.endWait id).toConfig = s.toConfig := rfl

/-- The first driver of a `PUT` has been probed. -/
def putProbed (p : PutAgents) (health : List (JsString × DriverHealth)) (todo : List Value)
    (h : DriverHealth) (w : ConfigMoment) : ConfigOutput × ConfigState :=
  match todo with
  | [] => s.finishPut p health w
  | rn :: rest => s.probePut p (((rn.toText.getD []), h) :: health) rest w

end ConfigState

open ConfigState in
def configNext (input : ConfigInput) (s : ConfigState) : ConfigOutput × ConfigState :=
  match input with
  | .request false _ _ => (.error .unauthorized, s)
  | .request true request w => s.handleRequest w request
  | .probed id health w =>
    match JsMap.get? s.pending id with
    | some (.put p found todo) => (s.endWait id).putProbed p found todo health w
    | some (.patch agentId body ref tag) =>
      if health.available then (s.endWait id).finishPatch agentId body ref tag w
      else (.error (driverUnavailable agentId ((body.get? (utf16 "runtime")).getD .null) health),
        s.endWait id)
    | _ => (.quiet, s)
  | .tested id result w =>
    match JsMap.get? s.pending id with
    | some (.test credentialId) =>
      match result with
      | some (ok, error) =>
        (s.endWait id).recordTest credentialId
          ⟨w.now, ok, if ok then none else error.filter (· ≠ [])⟩ w
      | none => (.error .internal, s.endWait id)
    | _ => (.quiet, s)
  | .sighup => (.quiet, s.withConfig s.reload)

abbrev ConfigStep := Step ConfigState ConfigInput ConfigOutput

end OsModa.Gateway
