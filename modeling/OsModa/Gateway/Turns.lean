import OsModa.Gateway.Consumers

/-!
The gateway's turns, of every source, over one spend meter.

A step is what runs without waiting: a request up to the start of its driver session, one
event of a session with its handling, a whole API or loop turn's end, a timer. In
particular the check of the budget and the start of the session are in one step, on every
path but the web handler's second pass.
-/

namespace OsModa.Gateway

open OsModa.Js

/-! ### State -/

structure Connection where
  id : Nat
  isOpen : Bool
  busy : Bool
  /-- `abortController` is set. -/
  hasController : Bool

inductive Consumer where
  | web (turn : WebTurn)
  | telegram (reply : TelegramReply)

/-- A turn whose events are read one by one, with those still to come. -/
structure Turn where
  session : Nat
  agent : AgentProfile
  rest : DriverStream
  consumer : Consumer

structure GatewayState where
  spend : SpendMeter
  loops : LoopManager
  connections : Table Connection.id
  streaming : Table Turn.session
  requests : Table ApiTurn.session
  nextSession : Nat

/-- The clock readings of a step, and whether its write of the loops succeeds. -/
structure Moment extends World where
  /-- The second reading of a `record`. -/
  checkedAt : Instant

/-- What a handler looks up for a request. -/
structure Lookups where
  agent : Option AgentProfile
  /-- The agent's fields. -/
  credentialId : JsString
  runtime : JsString
  credential : Option Credential
  hasDriver : Bool

/-- A chat frame. The message to the driver is its text with a recap and a digest. -/
structure ChatRequest extends Lookups where
  text : JsString
  sessionKey : JsString
  message : JsString

structure TelegramUpdate extends Lookups where
  chatId : JsString
  text : JsString
  message : JsString
  /-- The sender is among the allowed users. -/
  allowed : Bool

structure ApiRequest extends Lookups where
  message : JsString
  sessionKey : JsString
  sessionId : Option JsString

inductive LoopRequest where
  | create (input : CreateLoopInput) (agent : Option AgentProfile)
  | stop (id : String)
  | pause (id : String)
  | resume (id : String)

def LoopRequest.op (w : World) : LoopRequest → LoopOp
  | .create input agent => .create input agent w
  | .stop id => .stop id w
  | .pause id => .pause id w
  | .resume id => .resume id w

/-- A request, or an event of a connection, a driver, a timer or the process. A session
that starts runs as `run` says, and one that ends ran as it says. -/
inductive GatewayOp where
  | connect (conn : Nat)
  | chat (conn : Nat) (request : ChatRequest) (run : DriverRun)
  | abort (conn : Nat)
  /-- The socket is closing: it is not open any more. -/
  | closing (conn : Nat)
  | close (conn : Nat)
  | telegram (update : TelegramUpdate) (run : DriverRun)
  /-- The next event of a session, or its end; a web turn may go on with a fallback. -/
  | next (session : Nat) (fallback : Option Credential) (run : DriverRun)
  | agentTurn (request : ApiRequest)
  | agentTurnEnds (session : Nat) (run : DriverRun)
  | loopRequest (request : LoopRequest)
  | fire (handle : Nat) (deps : TickDeps)
  | loopTurnEnds (controller : Nat) (run : DriverRun)
  /-- A new process, with the usage file that it finds. -/
  | restart (file : Buckets)

structure GatewayInput where
  op : GatewayOp
  w : Moment

/-- The agent whose budget the tick of a timer checks. -/
def LoopManager.gatedAgent (m : LoopManager) (handle : Nat) (deps : TickDeps) :
    Option AgentProfile :=
  match m.pending.find? (·.handle = handle) with
  | none => none
  | some timer =>
    match m.loops.find? timer.loopId with
    | none => none
    | some loop =>
      if loop.status ≠ .running ∨ loop.maxIterations ≤ loop.iteration then none else deps.agent

namespace GatewayState

variable (table : List (String × Price)) (tables : CaseTables) (maxLoops : Nat)

/-- The gateway of a new process. -/
def boot (usage : Buckets) (loops : Table Loop.id) : GatewayState :=
  ⟨⟨usage, usage⟩, .boot loops, .empty, .empty, .empty, 0⟩

def isOpen (g : GatewayState) (conn : Nat) : Bool := (g.connections.find? conn).any (·.isOpen)

def setConnection (g : GatewayState) (c : Connection) : GatewayState :=
  { g with connections := g.connections.put c }

/-! ### Billing and starting -/

def record (g : GatewayState) (session : SessionId) (agent : AgentProfile) (usage : SpendUsage)
    (w : Moment) : List GatewayEffect × GatewayState :=
  let out := g.spend.record table agent usage w.now w.checkedAt
  (.spendRecord session agent usage :: out.1.map .alert, { g with spend := out.2 })

/-- `if (event.usage) spend.record(agent, event.usage)`. -/
def bill (g : GatewayState) (session : SessionId) (agent : AgentProfile) (usage : Option SpendUsage)
    (w : Moment) : List GatewayEffect × GatewayState :=
  match usage with
  | none => ([], g)
  | some usage => g.record table session agent usage w

/-- Start a driver session whose events are read one by one. -/
def startStreaming (g : GatewayState) (agent : AgentProfile) (message : JsString) (run : DriverRun)
    (consumer : Consumer) : List GatewayEffect × GatewayState :=
  ([.startSession (.gateway g.nextSession) agent message],
    { g with
      streaming := g.streaming.put ⟨g.nextSession, agent, run.stream, consumer⟩
      nextSession := g.nextSession + 1 })

/-- The next event of a turn is read. -/
def advance (g : GatewayState) (turn : Turn) (events : List AgentEvent) (consumer : Consumer) :
    GatewayState :=
  { g with
    streaming := g.streaming.put
      ⟨turn.session, turn.agent, ⟨events, turn.rest.thrown⟩, consumer⟩ }

/-! ### The web handler -/

def chat (g : GatewayState) (conn : Nat) (request : ChatRequest) (run : DriverRun) (w : Moment) :
    List GatewayEffect × GatewayState :=
  let refuse (text : JsString) (code : Option String) : List GatewayEffect × GatewayState :=
    ([.send conn (.error text code)], g)
  match g.connections.find? conn with
  | none => ([], g)
  | some c =>
    if request.text = [] then ([], g)
    else if c.busy then
      refuse (utf16 ("A turn is already running on this server — one at a time. Wait for it to " ++
        "finish, or press Stop.")) (some "turn_in_progress")
    else match request.agent with
    | none => refuse (utf16 "No agent configured") none
    | some agent =>
      if request.credentialId = [] then
        refuse (utf16 "Agent " ++ agent.id ++ utf16 " has no credential configured") none
      else match request.credential with
      | none => refuse (utf16 "Credential " ++ request.credentialId ++ utf16 " not found") none
      | some credential =>
        if request.hasDriver = false then refuse (utf16 "Unknown runtime " ++ request.runtime) none
        else
          let gate := g.spend.check agent w.now
          let g := { g with spend := gate.2 }
          if gate.1.allowed = false then
            ([.send conn (.spendCapExceeded gate.1.reason)], g)
          else
            let turn : WebTurn := ⟨conn, request.sessionKey, request.message, credential, credential,
              false, .start, []⟩
            let out := (g.setConnection { c with busy := true, hasController := true }).startStreaming
              agent request.message run (.web turn)
            (.appendTranscript agent.id request.sessionKey "user" request.text (some "web") :: out.1,
              out.2)

/-- The end of a web turn; `thrown` is the exception that ended it. -/
def closeTurn (g : GatewayState) (turn : Turn) (web : WebTurn) (thrown : Option JsString) :
    List GatewayEffect × GatewayState :=
  let report := match thrown with
    | some message => if g.isOpen web.conn then [.send web.conn (.error message none)] else []
    | none => []
  (web.flushAssistant turn.agent ++ report,
    { g with
      streaming := g.streaming.erase turn.session
      connections := g.connections.updateWhere (fun c => c.id = web.conn)
        (fun c => { c with busy := false, hasController := false }) fun _ => rfl })

/-- A pass is over: a turn whose credential is exhausted goes on with another one, once. -/
def passEnds (g : GatewayState) (turn : Turn) (web : WebTurn) (fallback : Option Credential)
    (run : DriverRun) : List GatewayEffect × GatewayState :=
  if web.retried = false ∧ web.pass.Exhausted then
    let reason := web.pass.credErrorReason.getD "unknown"
    let send frame : List GatewayEffect := if g.isOpen web.conn then [.send web.conn frame] else []
    let cooldown := .markCooldown web.active.id reason ::
      send (.credentialCooldown web.active reason fallback)
    match fallback with
    | some next =>
      if (g.connections.find? web.conn).any (·.hasController) then
        let turn' := { web with active := next, retried := true, pass := .start }
        let out := startStreaming { g with streaming := g.streaming.erase turn.session } turn.agent
          web.message run (.web turn')
        (cooldown ++ out.1, out.2)
      else
        -- `abortController!.signal` throws after an abort.
        let out := g.closeTurn turn web
          (some (utf16 "Cannot read properties of null (reading 'signal')"))
        (cooldown ++ out.1, out.2)
    | none =>
      let exhausted := send (.error (utf16 "All " ++ web.credential.provider ++ utf16 " " ++
        web.credential.type ++ utf16 " credentials are exhausted/cooldowned. " ++
        web.pass.lastErrorText.getD []) (some "credential_exhausted"))
      let out := g.closeTurn turn web none
      (cooldown ++ exhausted ++ out.1, out.2)
  else g.closeTurn turn web none

/-- The next thing that the driver of a web turn does. -/
def webNext (g : GatewayState) (turn : Turn) (web : WebTurn) (fallback : Option Credential)
    (run : DriverRun) (w : Moment) : List GatewayEffect × GatewayState :=
  match turn.rest.events with
  | [] =>
    match turn.rest.thrown with
    | some message => g.closeTurn turn web (some message)
    | none => g.passEnds turn web fallback run
  | e :: events =>
    -- Nobody listens any more.
    if g.isOpen web.conn = false then g.passEnds turn web fallback run
    else
      let out := (g.advance turn events (.web (web.absorb tables e))).bill table
        (.gateway turn.session) turn.agent e.usage? w
      (web.show tables turn.agent e ++ out.1, out.2)

/-! ### The Telegram handler -/

def telegram (g : GatewayState) (update : TelegramUpdate) (run : DriverRun) (w : Moment) :
    List GatewayEffect × GatewayState :=
  let reply (text : JsString) : List GatewayEffect × GatewayState :=
    ([.sendTelegram update.chatId text], g)
  if update.text = [] ∨ update.allowed = false then ([], g)
  else match update.agent.filter fun _ => update.credentialId ≠ [] with
  | none => reply (utf16 ("Telegram agent not configured. Visit the dashboard → Settings → " ++
      "Agents."))
  | some agent =>
    match update.credential with
    | none => reply (utf16 ("Telegram agent's credential is missing. Visit Settings → " ++
        "Credentials."))
    | some _ =>
      if update.hasDriver = false then
        reply (utf16 "Agent runtime " ++ update.runtime ++ utf16 " not available.")
      else
        let gate := g.spend.check agent w.now
        let g := { g with spend := gate.2 }
        if gate.1.allowed = false then
          ([.refuseTelegram update.chatId gate.1.reason], g)
        else
          let out := g.startStreaming agent update.message run (.telegram ⟨update.chatId, [], []⟩)
          (.appendTranscript agent.id update.chatId "user" update.text (some "telegram") :: out.1,
            out.2)

/-- The next thing that the driver of a Telegram turn does. -/
def telegramNext (g : GatewayState) (turn : Turn) (reply : TelegramReply) (w : Moment) :
    List GatewayEffect × GatewayState :=
  match turn.rest.events with
  | [] =>
    (reply.deliver turn.agent turn.rest.thrown,
      { g with streaming := g.streaming.erase turn.session })
  | e :: events =>
    let out := (g.advance turn events (.telegram (reply.absorb e))).bill table
      (.gateway turn.session) turn.agent e.usage? w
    (e.sessionIds.map (.saveSessionId reply.chatId "telegram") ++ out.1, out.2)

def next (g : GatewayState) (session : Nat) (fallback : Option Credential) (run : DriverRun)
    (w : Moment) : List GatewayEffect × GatewayState :=
  match g.streaming.find? session with
  | none => ([], g)
  | some turn =>
    match turn.consumer with
    | .web web => g.webNext table tables turn web fallback run w
    | .telegram reply => g.telegramNext table turn reply w

/-! ### POST /agent/turn -/

def agentTurn (g : GatewayState) (request : ApiRequest) (w : Moment) :
    List GatewayEffect × GatewayState :=
  let refuse (status : Nat) (code : String) : List GatewayEffect × GatewayState :=
    ([.respond status (.error code)], g)
  if request.message = [] then refuse 400 "message_required"
  else match request.agent with
  | none => refuse 404 "no_agent"
  | some agent =>
    match request.credential with
    | none => refuse 400 "no_credential"
    | some _ =>
      if request.hasDriver = false then refuse 400 "no_driver"
      else
        let gate := g.spend.check agent w.now
        let g := { g with spend := gate.2 }
        if gate.1.allowed = false then ([.respond 402 (.spendCapExceeded gate.1.reason)], g)
        else
          ([.appendTranscript agent.id request.sessionKey "user" request.message (some "api"),
              .startSession (.gateway g.nextSession) agent request.message],
            { g with
              requests := g.requests.put
                ⟨g.nextSession, agent, request.sessionKey, request.sessionId⟩
              nextSession := g.nextSession + 1 })

def agentTurnEnds (g : GatewayState) (session : Nat) (run : DriverRun) (w : Moment) :
    List GatewayEffect × GatewayState :=
  match g.requests.find? session with
  | none => ([], g)
  | some turn =>
    let result := runAgentTurn turn.sessionId run.stream
    let out := bill table { g with requests := g.requests.erase session } (.gateway session)
      turn.agent result.usage w
    (out.1 ++ turn.answer result, out.2)

/-! ### Loops -/

/-- The loop manager's turns are started for the agent that its tick checked. -/
def loopEffect (agent : Option AgentProfile) : LoopEffect → List GatewayEffect
  | .startTurn _ controller message =>
    agent.toList.map fun a => .startSession (.loop controller) a message
  | e => [.loop e]

def fire (g : GatewayState) (handle : Nat) (deps : TickDeps) (w : Moment) :
    List GatewayEffect × GatewayState :=
  match g.loops.gatedAgent handle deps with
  | none =>
    let out := g.loops.fire handle deps w.toWorld
    (out.1.flatMap (loopEffect none), { g with loops := out.2 })
  | some agent =>
    let gate := g.spend.check agent w.now
    let out := g.loops.fire handle { deps with allowed := gate.1.allowed } w.toWorld
    (out.1.flatMap (loopEffect (some agent)), { g with spend := gate.2, loops := out.2 })

/-- Run what a loop's turn does outside its manager. -/
def runEffects (g : GatewayState) (session : SessionId) (w : Moment) :
    List LoopEffect → List GatewayEffect × GatewayState
  | [] => ([], g)
  | .spendRecord agent usage :: effects =>
    let out := g.record table session agent usage w
    let rest := runEffects out.2 session w effects
    (out.1 ++ rest.1, rest.2)
  | e :: effects =>
    let rest := runEffects g session w effects
    (.loop e :: rest.1, rest.2)

def loopTurnEnds (g : GatewayState) (controller : Nat) (run : DriverRun) (w : Moment) :
    List GatewayEffect × GatewayState :=
  let out := g.loops.turnEnds tables controller run.stream w.toWorld
  runEffects table { g with loops := out.2 } (.loop controller) w out.1

/-! ### Steps -/

/-- `ws.on("message")`, an abort frame. -/
def abort (g : GatewayState) (conn : Nat) : List GatewayEffect × GatewayState :=
  match g.connections.find? conn with
  | none => ([], g)
  | some c =>
    if c.hasController then ([.abort conn], g.setConnection { c with hasController := false })
    else ([], g)

def close (g : GatewayState) (conn : Nat) : List GatewayEffect × GatewayState :=
  match g.connections.find? conn with
  | none => ([], g)
  | some c =>
    (if c.hasController then [.abort conn] else [], g.setConnection { c with isOpen := false })

def step (input : GatewayInput) (g : GatewayState) : List GatewayEffect × GatewayState :=
  match input.op with
  | .connect conn =>
    if (g.connections.find? conn).isSome then ([], g)
    else ([], g.setConnection ⟨conn, true, false, false⟩)
  | .chat conn request run => g.chat conn request run input.w
  | .abort conn => g.abort conn
  | .closing conn =>
    ([], { g with
      connections := g.connections.updateWhere (fun c => c.id = conn)
        (fun c => { c with isOpen := false }) fun _ => rfl })
  | .close conn => g.close conn
  | .telegram update run => g.telegram update run input.w
  | .next session fallback run => g.next table tables session fallback run input.w
  | .agentTurn request => g.agentTurn request input.w
  | .agentTurnEnds session run => g.agentTurnEnds table session run input.w
  | .loopRequest request =>
    let out := loopStep tables maxLoops (request.op input.w.toWorld) g.loops
    (out.1.map .loop, { g with loops := out.2 })
  | .fire handle deps => g.fire handle deps input.w
  | .loopTurnEnds controller run => g.loopTurnEnds table tables controller run input.w
  | .restart file =>
    ([], { g with
      spend := ⟨file, file⟩
      loops := g.loops.restart
      connections := .empty
      streaming := .empty
      requests := .empty })

end GatewayState

end OsModa.Gateway
