import OsModa.Gateway.ConfigApi
import OsModa.Gateway.CredentialStore
import OsModa.Gateway.Hook

/-!
The boot of the gateway, with the migration of older layouts, in steps between which it can die.

A step makes at most one change of a file that matters. A process that dies begins again with what
the files hold then, and of what it had found it knows nothing.
-/

namespace OsModa.Gateway

open OsModa.Js

/-! ### Files -/

/-- What the file that the installer left is. -/
inductive BootstrapText where
  | unparsed
  /-- Its `credentials` are no list. -/
  | noList
  | entries (credentials : List Value)

/-- The files that the boot may write; `none` if there is none. -/
structure StoreDisk (E : Type) extends CredentialFiles E where
  /-- `agents.json`; `some none` if that cannot be read as agents. -/
  agents : Option (Option AgentsFile)
  bootstrap : Option BootstrapText

/-- The files of older layouts, which are only read. -/
structure LegacyFiles where
  apiKey : Option JsString
  /-- The agents that OpenClaw has, with what their auth profile is, if there is one. -/
  openClaw : List (JsString × Option (Option Value))
  gatewayUnit : Option JsString

/-- What a step finds besides. -/
structure BootMoment extends StoreMoment where
  /-- Reading a file other than the two of the store fails. -/
  fails : Bool

namespace StoreDisk

variable {E : Type}

def withFiles (d : StoreDisk E) (files : CredentialFiles E) : StoreDisk E :=
  { d with toCredentialFiles := files }

/-- `loadAgentsFile` -/
def loadAgents (fails : Bool) (d : StoreDisk E) : AgentsFile :=
  ((if fails then none else d.agents).bind id).getD ⟨[], []⟩

/-- `saveAgentsFile` -/
def saveAgents (f : AgentsFile) (d : StoreDisk E) : StoreDisk E :=
  { d with agents := some (some f.saved) }

end StoreDisk

/-! ### The bootstrap file -/

/-- `v.slice(0, 16)`: no two arrays are equal, and what has no such method throws. -/
def secretPrefix : Value → Option (Option JsString)
  | .string s => some (some (s.take 16))
  | .array _ => some none
  | _ => none

/-- A stored credential has the label, the provider and the type of an entry. -/
def sameNames (c : Fields) (x : StoredCredential) : Bool :=
  Value.strictEq (some x.label) (c.get? (utf16 "label")) &&
    Value.strictEq x.provider (c.get? (utf16 "provider")) &&
    Value.strictEq x.type (c.get? (utf16 "type"))

/-- There is a duplicate; `none` where looking throws. -/
def hasDupe (c : Fields) (start : Option JsString) : List StoredCredential → Option Bool
  | [] => some false
  | x :: rest =>
    if sameNames c x then
      match secretPrefix x.secret with
      | none => none
      | some found => if found.isSome && found = start then some true else hasDupe c start rest
    else hasDupe c start rest

/-- What is added for an entry; `none` where making its label throws. -/
def bootstrapCredential (c : Fields) (secret : Value) : Option NewCredential := do
  let label ← match c.get? (utf16 "label") with
    | some v => if Value.truthy (some v) then some v else defaultLabel
    | none => defaultLabel
  return ⟨label, c.get? (utf16 "provider"), c.get? (utf16 "type"), secret,
    c.get? (utf16 "base_url")⟩
where
  defaultLabel : Option Value := do
    return .string ((← ConfigError.textOf (c.get? (utf16 "provider"))) ++ 32 ::
      (← ConfigError.textOf (c.get? (utf16 "type"))))

/-- What becomes of an entry. -/
inductive Absorbed where
  | throws
  | skipped
  | added (c : NewCredential)

def absorbEntry (existing : List StoredCredential) (entry : Value) : Absorbed :=
  match entry.fields with
  | none => .throws
  | some c =>
    match (c.get? (utf16 "secret")).filter fun v => Value.truthy (some v) with
    | none => .skipped
    | some secret =>
      match secretPrefix secret with
      | none => .throws
      | some start =>
        match hasDupe c start existing with
        | none => .throws
        | some true => .skipped
        | some false =>
          match bootstrapCredential c secret with
          | none => .throws
          | some new => .added new

/-! ### Older layouts -/

def detectType (secret : JsString) : JsString :=
  utf16 (if (utf16 "sk-ant-oat").isPrefixOf secret then "oauth" else "api_key")

def detectProvider (secret : JsString) : JsString :=
  utf16 (if (utf16 "sk-ant-").isPrefixOf secret then "anthropic" else "openai")

/-- The credential for the file `api-key`. -/
def apiKeyCredential (text : JsString) : Option NewCredential :=
  let secret := trim text
  if secret = [] then none
  else some ⟨.string (utf16 "Migrated Claude Code key"), some (.string (detectProvider secret)),
    some (.string (detectType secret)), .string secret, none⟩

/-- `secret.length < 10` -/
def isShort : Value → Bool
  | .string s => s.length < 10
  | .array items => items.length < 10
  | _ => false

/-- `profile.token || profile.key`, if that is true. -/
def profileSecret (profile : Fields) : Option Value :=
  ((profile.get? (utf16 "token")).filter fun v => Value.truthy (some v)).or
    ((profile.get? (utf16 "key")).filter fun v => Value.truthy (some v))

/-- The credential for an auth profile of OpenClaw; `none` if it is passed over. -/
def profileCredential (agentId : JsString) (auth : Option (Option Value)) :
    Option NewCredential := do
  let profile ← (← (← auth)).fields
  let secret ← (profileSecret profile).filter fun v => !isShort v
  let provider ← match profile.get? (utf16 "provider") with
    | some v => if Value.truthy (some v) then some v else detected secret
    | none => detected secret
  let type := if Value.strictEq (profile.get? (utf16 "type")) (some (.string (utf16 "token")))
    then "oauth" else "api_key"
  return ⟨.string (utf16 "Migrated OpenClaw (" ++ agentId ++ utf16 ")"), some provider,
    some (.string (utf16 type)), secret, none⟩
where
  detected : Value → Option Value
    | .string s => some (.string (detectProvider s))
    | _ => none

/-- `/openclaw\b/i` -/
def openClawPattern : Regex UInt16 := .all [litI "openclaw", .boundary]

def detectedRuntime (gatewayUnit : Option JsString) : JsString :=
  utf16 (if gatewayUnit.any (openClawPattern.test isWord) then "openclaw" else "claude-code")

def mkAgent (id displayName model : String) (channels : List String) (runtime now : JsString)
    (credentialId : Option JsString) : AgentFields :=
  [(utf16 "id", .string (utf16 id)), (utf16 "display_name", .string (utf16 displayName)),
    (utf16 "runtime", .string runtime),
    (utf16 "credential_id", .string (credentialId.getD [])),
    (utf16 "model", .string (utf16 model)),
    (utf16 "channels", .array (channels.map fun c => .string (utf16 c))),
    (utf16 "profile_dir", .string (utf16 ("/var/lib/osmoda/workspace-" ++ id))),
    (utf16 "enabled", .bool (credentialId.any (· ≠ []))),
    (utf16 "updated_at", .string now)]

/-- The agents that are made, by the credentials that the two of them get. -/
def migratedAgents (runtime now : JsString) (osmoda mobile : Option JsString) : AgentsFile where
  agents :=
    [mkAgent "osmoda" "osModa (full access)" "claude-opus-4-8" ["web", "api"] runtime now osmoda,
      mkAgent "mobile" "osModa mobile" "claude-sonnet-4-6" ["telegram", "whatsapp"] runtime now
        mobile]
  bindings := [binding "telegram", binding "whatsapp"]
where
  binding (channel : String) : Value :=
    .object [(utf16 "channel", .string (utf16 channel)), (utf16 "agent_id", .string (utf16 "mobile"))]

/-! ### Steps -/

/-- Where the boot is. -/
inductive BootPhase where
  | start
  /-- The entries that are left; `existing` was read before the first. -/
  | absorb (existing : List StoredCredential) (todo : List Value)
  | check
  | apiKey
  | list (claude : Option JsString)
  /-- The credentials found for agents of OpenClaw, and the agents that are left. -/
  | openClaw (claude : Option JsString) (found : List (JsString × JsString))
      (todo : List (JsString × Option (Option Value)))
  | profiles (claude : Option JsString) (found : List (JsString × JsString))
  | cache
  | running (cache : AgentsFile)

/-- The credential that agents get if they have none of their own. -/
def fallbackCredential (claude : Option JsString) (found : List (JsString × JsString))
    (credentials : List StoredCredential) : Option JsString :=
  (found.lookup (utf16 "osmoda")).or (claude.or (credentials.head?.map StoredCredential.id))

section Boot

variable {E : Type} (p : StorePlatform E) (legacy : LegacyFiles) (w : BootMoment) (d : StoreDisk E)

def addedTo (c : NewCredential) : StoreDisk E :=
  d.withFiles (p.addCredential c w.toStoreMoment d.toCredentialFiles)

def bootStart : BootPhase × StoreDisk E :=
  match if w.fails then none else d.bootstrap with
  | none | some .unparsed => (.check, d)
  | some .noList => (.check, { d with bootstrap := none })
  | some (.entries todo) =>
    let (file, files) := p.loadCredentials w.load d.toCredentialFiles
    (.absorb file.credentials todo, d.withFiles files)

def bootAbsorb (existing : List StoredCredential) : List Value → BootPhase × StoreDisk E
  | [] => (.check, { d with bootstrap := none })
  | entry :: rest =>
    match absorbEntry existing entry with
    | .throws => (.check, d)
    | .skipped => (.absorb existing rest, d)
    | .added c => (.absorb existing rest, addedTo p w d c)

def bootOpenClaw (claude : Option JsString) (found : List (JsString × JsString)) :
    List (JsString × Option (Option Value)) → BootPhase × StoreDisk E
  | [] => (.profiles claude found, d)
  | (agentId, auth) :: rest =>
    match if w.fails then none else profileCredential agentId auth with
    | none => (.openClaw claude found rest, d)
    | some c =>
      (.openClaw claude ((agentId, newCredentialId w.random) :: found) rest, addedTo p w d c)

def bootProfiles (claude : Option JsString) (found : List (JsString × JsString)) :
    BootPhase × StoreDisk E :=
  let (file, files) := p.loadCredentials w.load d.toCredentialFiles
  let fallback := fallbackCredential claude found file.credentials
  let runtime := detectedRuntime (if w.fails then none else legacy.gatewayUnit)
  (.cache, (d.withFiles files).saveAgents (migratedAgents runtime w.now
    ((found.lookup (utf16 "osmoda")).or fallback) ((found.lookup (utf16 "mobile")).or fallback)))

/-- `runMigrationIfNeeded`, and `new ConfigCache` after it. -/
def bootNext : BootPhase → BootPhase × StoreDisk E
  | .start => bootStart p w d
  | .absorb existing todo => bootAbsorb p w d existing todo
  | .check => (if d.loadAgents w.fails |>.agents.isEmpty then .apiKey else .cache, d)
  | .apiKey =>
    match (if w.fails then none else legacy.apiKey).bind apiKeyCredential with
    | none => (.list none, d)
    | some c => (.list (some (newCredentialId w.random)), addedTo p w d c)
  | .list claude => (.openClaw claude [] (if w.fails then [] else legacy.openClaw), d)
  | .openClaw claude found todo => bootOpenClaw p w d claude found todo
  | .profiles claude found => bootProfiles p legacy w d claude found
  | .cache => (.running (d.loadAgents w.fails), d)
  | .running cache => (.running cache, d)

/-- The process dies in a step, before the file that matters is written: a key may have been. -/
def diesIn (phase : BootPhase) : StoreDisk E :=
  { d with key := (bootNext p legacy w d phase).2.key }

end Boot

/-- The files, and where the process is. -/
structure StoreState (E : Type) where
  disk : StoreDisk E
  phase : BootPhase

def StoreState.booted {E : Type} (p : StorePlatform E) (legacy : LegacyFiles) (s : StoreState E)
    (w : BootMoment) : StoreState E :=
  let (phase, disk) := bootNext p legacy w s.disk s.phase
  ⟨disk, phase⟩

end OsModa.Gateway
