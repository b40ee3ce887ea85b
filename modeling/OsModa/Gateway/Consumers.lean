import OsModa.Gateway.Drivers
import OsModa.Gateway.Loop

/-!
What waits for the events of a turn: a web connection, a Telegram chat, an API request or
a loop.

The web handler and the Telegram handler read the driver's events one by one, and bill the
terminal one as it comes. API requests and loops run a whole turn first. Resumed session
ids, tool rows of the transcript, recaps and digests of other chats are left out: a request
carries the message that is sent to the driver.
-/

namespace OsModa.Gateway

open OsModa.Js

/-! ### Effects -/

/-- The fields of a credential that the gateway names. -/
structure Credential where
  id : JsString
  label : JsString
  provider : JsString
  type : JsString

/-- A driver session: those of loops are told by their abort controller. -/
inductive SessionId where
  | gateway (n : Nat)
  | loop (controller : Nat)
  deriving DecidableEq

/-- What a web client is sent. -/
inductive Frame where
  | event (event : AgentEvent)
  | done
  | error (text : JsString) (code : Option String)
  | spendCapExceeded (reason : Option CapReason)
  | credentialCooldown (credential : Credential) (reason : String)
      (fallingBackTo : Option Credential)

inductive ApiBody where
  | error (code : String)
  | spendCapExceeded (reason : Option CapReason)
  | result (result : TurnResult) (sessionKey : JsString)

inductive GatewayEffect where
  | startSession (session : SessionId) (agent : AgentProfile) (message : JsString)
  | spendRecord (session : SessionId) (agent : AgentProfile) (usage : SpendUsage)
  | alert (alert : SpendAlert)
  | send (conn : Nat) (frame : Frame)
  | sendTelegram (chatId text : JsString)
  /-- The reply that the spend cap is reached. -/
  | refuseTelegram (chatId : JsString) (reason : Option CapReason)
  | respond (status : Nat) (body : ApiBody)
  | appendTranscript (agentId : AgentId) (sessionKey : JsString) (role : String) (text : JsString)
      (source : Option String)
  | saveSessionId (sessionKey : JsString) (channel : String) (sessionId : JsString)
  | markCooldown (credentialId : JsString) (reason : String)
  | abort (conn : Nat)
  | loop (effect : LoopEffect)

/-- The session ids that an event carries. -/
def AgentEvent.sessionIds : AgentEvent → List JsString
  | .session sessionId => [sessionId].filter (· ≠ [])
  | .done sessionId _ => sessionId.toList.filter (· ≠ [])
  | _ => []

/-- The usage to bill when an event comes. -/
def AgentEvent.usage? (e : AgentEvent) : Option SpendUsage := e.terminal?.join

/-! ### The web handler -/

/-- A driver error that the credential is to blame for. -/
def classifyCredentialError (tables : CaseTables) (code : Option JsString) (text : JsString) :
    Option String :=
  let blob := tables.toLowerCase (code.getD [] ++ [32] ++ text)
  if includes blob (utf16 "out of extra usage") || includes blob (utf16 "out_of_usage") ||
      includes blob (utf16 "credit balance is too low") ||
      includes blob (utf16 "insufficient_quota") then some "out_of_usage"
  else if code = some (utf16 "http_429") || includes blob (utf16 "rate limit") ||
      includes blob (utf16 "rate_limited") then some "rate_limited"
  else if code = some (utf16 "http_401") || code = some (utf16 "http_403") ||
      includes blob (utf16 "invalid api key") || includes blob (utf16 "unauthorized") then
    some "auth_failed"
  else none

/-- What one pass through the driver has shown so far. -/
structure WebPass where
  sawCredError : Bool
  hadOutput : Bool
  credErrorReason : Option String
  lastErrorText : Option JsString

def WebPass.start : WebPass := ⟨false, false, none, none⟩

/-- Cool the credential down, and try again with another one. -/
def WebPass.Exhausted (pass : WebPass) : Prop := pass.sawCredError = true ∧ pass.hadOutput = false

instance (pass : WebPass) : Decidable pass.Exhausted := inferInstanceAs (Decidable (_ ∧ _))

structure WebTurn where
  conn : Nat
  sessionKey : JsString
  message : JsString
  /-- The credential of the agent, and the one of this pass. -/
  credential : Credential
  active : Credential
  retried : Bool
  pass : WebPass
  turnText : JsString

/-- The accumulated answer goes to the transcript. -/
def WebTurn.flushAssistant (turn : WebTurn) (agent : AgentProfile) : List GatewayEffect :=
  if trim turn.turnText = [] then []
  else [.appendTranscript agent.id turn.sessionKey "assistant" turn.turnText none]

def WebTurn.flushed (turn : WebTurn) : WebTurn :=
  if trim turn.turnText = [] then turn else { turn with turnText := [] }

def WebPass.sawError (tables : CaseTables) (pass : WebPass) (code : Option JsString)
    (text : JsString) : WebPass :=
  let pass := { pass with lastErrorText := if text = [] then pass.lastErrorText else some text }
  match classifyCredentialError tables code text with
  | none => pass
  | some reason => { pass with sawCredError := true, credErrorReason := some reason }

def WebPass.withOutput (pass : WebPass) : WebPass := { pass with hadOutput := true }

/-- What an event changes in the turn. -/
def WebTurn.absorb (tables : CaseTables) (turn : WebTurn) : AgentEvent → WebTurn
  | .text text =>
    if text = [] then turn
    else { turn with turnText := turn.turnText ++ text, pass := turn.pass.withOutput }
  | .textBulk text =>
    if text = [] then turn else { turn with turnText := text, pass := turn.pass.withOutput }
  | .interimText _ | .toolUse .. => { turn with pass := turn.pass.withOutput }
  | .error text code => { turn with pass := turn.pass.sawError tables code text }
  | .done .. => turn.flushed
  | _ => turn

/-- Forward an event to the client. -/
def WebTurn.pipeEvent (turn : WebTurn) (e : AgentEvent) : List GatewayEffect :=
  e.sessionIds.map (.saveSessionId turn.sessionKey "web") ++
  match e with
  | .session _ => []
  | .done .. => [.send turn.conn .done]
  | e => [.send turn.conn (.event e)]

/-- The effects of an event, billing apart. An error that a fallback may mend is not
forwarded. -/
def WebTurn.show (tables : CaseTables) (turn : WebTurn) (agent : AgentProfile) (e : AgentEvent) :
    List GatewayEffect :=
  (if e.terminal?.isSome then turn.flushAssistant agent else []) ++
    if e.isError = true ∧ (turn.absorb tables e).pass.Exhausted then []
    else turn.pipeEvent e

/-! ### The Telegram handler -/

structure TelegramReply where
  chatId : JsString
  fullText : JsString
  turnText : JsString

def TelegramReply.absorb (reply : TelegramReply) : AgentEvent → TelegramReply
  | .textBulk text =>
    if text = [] then reply else { reply with fullText := text, turnText := text }
  | .text text =>
    { reply with fullText := reply.fullText ++ text, turnText := reply.turnText ++ text }
  | .error text _ => if reply.fullText = [] then { reply with fullText := text } else reply
  | _ => reply

/-- The reply, when the turn is over. -/
def TelegramReply.deliver (reply : TelegramReply) (agent : AgentProfile)
    (thrown : Option JsString) : List GatewayEffect :=
  let fullText := thrown.elim reply.fullText (utf16 "Error: " ++ ·)
  (if trim reply.turnText = [] then []
    else [.appendTranscript agent.id reply.chatId "assistant" reply.turnText none]) ++
  (if fullText = [] then [] else [.sendTelegram reply.chatId fullText])

/-! ### API requests -/

/-- A turn of `POST /agent/turn` in flight. -/
structure ApiTurn where
  session : Nat
  agent : AgentProfile
  sessionKey : JsString
  sessionId : Option JsString

/-- The effects of the end of the turn, billing apart. -/
def ApiTurn.answer (turn : ApiTurn) (result : TurnResult) : List GatewayEffect :=
  (result.sessionId.toList.filter (· ≠ [])).map (.saveSessionId turn.sessionKey "api") ++
  (if trim result.text = [] then []
    else [.appendTranscript turn.agent.id turn.sessionKey "assistant" result.text none]) ++
  [.respond (if result.Failed then 502 else 200) (.result result turn.sessionKey)]

end OsModa.Gateway
