import OsModa.Base.JsMap
import OsModa.Base.Machine
import OsModa.Gateway.Turn
import Mathlib.Data.Nat.Digits.Defs

/-!
The agent loop engine: a scheduler that fires agent turns toward a goal, on a cadence,
until a stop condition is met or an iteration cap is hit.

The manager's maps of loops, timers and abort controllers are kept beside what they stand
for: the timers that the scheduler will still fire, and the turns in flight. A tick
suspends while its turn runs, so it is two steps here: a timer fires, and a turn ends.
Each step reads the clock once and persists at most once. A loop is named by its id, and
a turn in flight holds the id: the steps treat a loop object and its id as one, which they
are as long as no id is drawn twice.
-/

namespace OsModa.Gateway

open OsModa.Js

/-! ### Loops -/

inductive LoopStatus where
  | running
  | paused
  | completed
  | stopped
  deriving DecidableEq

structure LoopHistoryEntry where
  iteration : Nat
  atIso : String
  ok : Bool
  toolCount : Nat
  chars : Nat
  note : Option JsString

structure Loop where
  id : String
  name : JsString
  agentId : AgentId
  goal : JsString
  intervalSeconds : Nat
  maxIterations : Nat
  stopSentinel : JsString
  sessionKey : String
  status : LoopStatus
  /-- Completed iterations. -/
  iteration : Nat
  createdAt : String
  updatedAt : String
  lastResult : Option JsString
  lastError : Option JsString
  /-- Why a non-running loop stopped. -/
  finishedReason : Option String
  /-- Running but the last tick was skipped. -/
  blocked : Option String
  consecutiveErrors : Nat
  history : List LoopHistoryEntry

structure CreateLoopInput where
  agentId : AgentId
  goal : JsString
  /-- Numbers; `none` for what is not finite. -/
  intervalSeconds : Option ℚ
  maxIterations : Option ℚ
  stopSentinel : Option JsString
  name : Option JsString

def maxHistory : Nat := 20
def maxConsecutiveErrors : Nat := 3
/-- Seconds; don't let a loop hammer the API. -/
def minInterval : Nat := 10
def maxInterval : Nat := 86400
/-- Hard ceiling on maxIterations. -/
def maxIterCap : Nat := 1000
def defaultMaxLoops : Nat := 50

def clampInt (v : Option ℚ) (min max : Nat) (name : String) : Except JsString Nat :=
  match v.map Rat.floor with
  | none => .error (utf16 (name ++ " must be a number"))
  | some n =>
    if n < min then .error (utf16 (name ++ " must be ≥ " ++ toString min))
    else if n > max then .error (utf16 (name ++ " must be ≤ " ++ toString max))
    else .ok n.toNat

/-- A digit of `toString(36)`. -/
def digit36 (n : Nat) : Char :=
  if n < 10 then Char.ofNat (48 + n) else Char.ofNat (87 + n)

/-- `n.toString(36)`. -/
def base36 (n : Nat) : List Char :=
  if n = 0 then ['0'] else (Nat.digits 36 n).reverse.map digit36

def base36Int (n : Int) : List Char :=
  if n < 0 then '-' :: base36 n.natAbs else base36 n.natAbs

/-! ### The manager -/

/-- A callback that the scheduler will run. -/
structure LoopTimer where
  handle : Nat
  loopId : String

/-- A turn that a tick waits for, with what the tick holds. -/
structure Flight where
  loopId : String
  controller : Nat
  agent : AgentProfile
  sessionId : Option JsString

structure LoopManager where
  loops : Table Loop.id
  timers : JsMap String Nat
  aborts : JsMap String Nat
  seq : Nat
  file : Table Loop.id
  pending : List LoopTimer
  flights : List Flight
  nextHandle : Nat
  nextController : Nat

/-- What an operation does outside the manager. -/
inductive LoopEffect where
  | reject (message : JsString)
  | registerChat (sessionKey : String) (agentId : AgentId) (name : JsString)
  | appendTranscript (agentId : AgentId) (sessionKey role : String) (text : JsString)
      (source : Option String)
  | startTurn (loopId : String) (controller : Nat) (message : JsString)
  | abort (controller : Nat)
  | spendRecord (agent : AgentProfile) (usage : SpendUsage)
  | saveSessionId (sessionKey : String) (sessionId : JsString)

/-- The clock reading of an operation, and whether its write succeeds. -/
structure World where
  now : Instant
  writes : Bool

/-- What a tick's dependencies answer. -/
structure TickDeps where
  agent : Option AgentProfile
  allowed : Bool
  reason : Option JsString
  hasCredential : Bool
  hasDriver : Bool
  sessionId : Option JsString

namespace LoopManager

/-- No loops, and no file. -/
def new : LoopManager := ⟨.empty, .empty, .empty, 0, .empty, [], [], 0, 0⟩

def setLoop (m : LoopManager) (loop : Loop) : LoopManager := { m with loops := m.loops.put loop }

/-- Cancel the loop's timer, if the map knows one. -/
def clearTimer (m : LoopManager) (id : String) : LoopManager :=
  match m.timers.get? id with
  | none => m
  | some h =>
    { m with pending := m.pending.filter (·.handle ≠ h), timers := JsMap.delete m.timers id }

/-- `this.timers.set(id, this.schedule(() => this.tick(id), …))`. -/
def scheduleTick (m : LoopManager) (id : String) : LoopManager :=
  { m with
    pending := m.pending ++ [⟨m.nextHandle, id⟩]
    timers := JsMap.set m.timers id m.nextHandle
    nextHandle := m.nextHandle + 1 }

def reschedule (m : LoopManager) (id : String) : LoopManager := (m.clearTimer id).scheduleTick id

/-- `this.aborts.get(id)?.abort()`. -/
def abortTurn (m : LoopManager) (id : String) : List LoopEffect :=
  (m.aborts.get? id).toList.map .abort

def persist (m : LoopManager) (w : World) : LoopManager :=
  if w.writes then { m with file := m.loops } else m

def mkId (seq : Nat) (now : Instant) : String :=
  "loop-" ++ String.ofList (base36 seq) ++ "-" ++ String.ofList (base36Int now.ms)

def runningCount (loops : Table Loop.id) : Nat := loops.countWhere fun l => l.status = .running

end LoopManager

/-! ### Ticks: messages and history -/

section Messages

variable (tables : CaseTables)

def Loop.pushHistory (loop : Loop) (w : World) (ok : Bool) (toolCount chars : Nat)
    (note : Option JsString) : Loop :=
  let history := loop.history ++ [⟨loop.iteration, w.now.toISOString, ok, toolCount, chars, note⟩]
  { loop with history := history.drop (history.length - maxHistory) }

def Loop.buildMessage (loop : Loop) : JsString :=
  let n := toString (loop.iteration + 1)
  let stop := utf16 "Reply with the single line \"" ++ loop.stopSentinel ++
    utf16 "\" (on its own line) ONLY when the goal is fully achieved and nothing remains."
  if loop.iteration = 0 then
    utf16 ("[Autonomous loop — iteration " ++ n ++ " of up to " ++ toString loop.maxIterations ++
      ". You are running unattended on a " ++ toString loop.intervalSeconds ++
      "s schedule with full system tools.]\n\nGoal: ") ++ loop.goal ++
    utf16 ("\n\nBegin working toward this goal now. Make concrete progress this iteration, then " ++
      "end with a short status of what you did and what remains. The next iteration resumes " ++
      "automatically.\n") ++ stop
  else
    utf16 ("[Autonomous loop — iteration " ++ n ++ " of up to " ++ toString loop.maxIterations ++
      ". Continuing the same goal; you have your prior context.]\n\n" ++
      "Continue making concrete progress toward the goal, then end with a short status.\n") ++ stop

/-- A line of the answer is the stop sentinel. -/
def sentinelHit (text sentinel : JsString) : Bool :=
  (lines text).any fun line => tables.toUpperCase (trim line) = sentinel

end Messages

/-! ### Operations -/

namespace LoopManager

variable (tables : CaseTables) (maxLoops : Nat)

/-- The loop that `create` makes. -/
def newLoop (id : String) (input : CreateLoopInput) (interval maxIter : Nat) (w : World) : Loop where
  id := id
  name := ((input.name.map trim).filter (· ≠ [])).getD (utf16 ("Loop " ++ id))
  agentId := input.agentId
  goal := trim input.goal
  intervalSeconds := interval
  maxIterations := maxIter
  stopSentinel := tables.toUpperCase (trim ((input.stopSentinel.filter (· ≠ [])).getD
    (utf16 "GOAL_COMPLETE")))
  sessionKey := "loop-" ++ id
  status := .running
  iteration := 0
  createdAt := w.now.toISOString
  updatedAt := w.now.toISOString
  lastResult := none
  lastError := none
  finishedReason := none
  blocked := none
  consecutiveErrors := 0
  history := []

/-- Create a loop and kick off its first tick. `agent` is what `getAgent` answers. -/
def create (m : LoopManager) (input : CreateLoopInput) (agent : Option AgentProfile) (w : World) :
    List LoopEffect × LoopManager :=
  if maxLoops ≤ runningCount m.loops then
    ([.reject (utf16 ("loop limit reached (" ++ toString maxLoops ++ " active)"))], m)
  else match agent with
  | none => ([.reject (utf16 "unknown agent " ++ input.agentId)], m)
  | some agent =>
    if trim input.goal = [] then ([.reject (utf16 "goal is required")], m)
    else match clampInt input.intervalSeconds minInterval maxInterval "intervalSeconds",
        clampInt input.maxIterations 1 maxIterCap "maxIterations" with
    | .error e, _ => ([.reject e], m)
    | .ok _, .error e => ([.reject e], m)
    | .ok interval, .ok maxIter =>
      let id := mkId (m.seq + 1) w.now
      let loop := newLoop tables id input interval maxIter w
      ([.registerChat loop.sessionKey agent.id loop.name],
        ((({ m with seq := m.seq + 1 }).setLoop loop).persist w).scheduleTick id)

/-- What `stop` and `pause` share: a loop leaves the schedule with a new status. -/
def withdraw (m : LoopManager) (loop : Loop) (w : World) : List LoopEffect × LoopManager :=
  (m.abortTurn loop.id, ((m.clearTimer loop.id).setLoop loop).persist w)

def stop (m : LoopManager) (id : String) (w : World) : List LoopEffect × LoopManager :=
  match m.loops.find? id with
  | none => ([], m)
  | some loop =>
    m.withdraw { loop with
      status := .stopped
      finishedReason := some "stopped"
      blocked := none
      updatedAt := w.now.toISOString } w

def pause (m : LoopManager) (id reason : String) (w : World) : List LoopEffect × LoopManager :=
  match m.loops.find? id with
  | none => ([], m)
  | some loop =>
    m.withdraw { loop with
      status := .paused
      finishedReason := some reason
      updatedAt := w.now.toISOString } w

def resume (m : LoopManager) (id : String) (w : World) : List LoopEffect × LoopManager :=
  match m.loops.find? id with
  | none => ([], m)
  | some loop =>
    if loop.status ≠ .paused then ([], m)
    else
      ([], ((m.setLoop { loop with
        status := .running
        finishedReason := none
        consecutiveErrors := 0
        updatedAt := w.now.toISOString }).persist w).reschedule id)

/-- Reschedule any `running` loops. -/
def resumeAll (m : LoopManager) : LoopManager :=
  (m.loops.rows.filter fun l => l.status = .running).foldl (fun m l => m.reschedule l.id) m

def finish (m : LoopManager) (loop : Loop) (reason : String) (w : World) : LoopManager :=
  let loop := { loop with
    status := .completed
    finishedReason := some reason
    blocked := none
    updatedAt := w.now.toISOString }
  ((m.clearTimer loop.id).setLoop
    (loop.pushHistory w true 0 0 (some (utf16 ("done: " ++ reason))))).persist w

/-- The timer's callback, up to where the tick waits for its turn. -/
def tick (m : LoopManager) (id : String) (deps : TickDeps) (w : World) :
    List LoopEffect × LoopManager :=
  match m.loops.find? id with
  | none => ([], m)
  | some loop =>
    if loop.status ≠ .running then ([], m)
    else
      -- This firing consumed its timer.
      let m := { m with timers := JsMap.delete m.timers id }
      if loop.maxIterations ≤ loop.iteration then ([], m.finish loop "max_iterations" w)
      else match deps.agent with
      | none => m.pause id "agent_missing" w
      | some agent =>
        if deps.allowed = false then
          let reason := (deps.reason.filter (· ≠ [])).getD (utf16 "spend_capped")
          let loop := Loop.pushHistory { loop with
            blocked := some "spend_capped"
            lastError := deps.reason
            updatedAt := w.now.toISOString } w false 0 0 (some (utf16 "skipped: " ++ reason))
          ([], ((m.setLoop loop).persist w).reschedule id)
        else if deps.hasCredential = false then m.pause id "credential_missing" w
        else if deps.hasDriver = false then m.pause id "runtime_unavailable" w
        else
          let loop := { loop with blocked := none }
          let message := loop.buildMessage
          ([.appendTranscript agent.id loop.sessionKey "user" message (some "loop"),
              .startTurn id m.nextController message],
            { m.setLoop loop with
              aborts := JsMap.set m.aborts id m.nextController
              flights := m.flights ++ [⟨id, m.nextController, agent, deps.sessionId⟩]
              nextController := m.nextController + 1 })

/-- A pending timer fires. -/
def fire (m : LoopManager) (handle : Nat) (deps : TickDeps) (w : World) :
    List LoopEffect × LoopManager :=
  match m.pending.find? (·.handle = handle) with
  | none => ([], m)
  | some timer => tick { m with pending := m.pending.filter (·.handle ≠ handle) } timer.loopId deps w

/-- The loop after a failed turn. -/
def failedLoop (loop : Loop) (result : TurnResult) (w : World) : Loop :=
  Loop.pushHistory { loop with
    consecutiveErrors := loop.consecutiveErrors + 1
    lastError := result.error
    updatedAt := w.now.toISOString } w false result.toolCount 0
    (some (utf16 "error: " ++ result.error.getD []))

/-- The loop after a successful turn. -/
def advancedLoop (loop : Loop) (result : TurnResult) (w : World) : Loop :=
  Loop.pushHistory { loop with
    consecutiveErrors := 0
    iteration := loop.iteration + 1
    lastResult := some (result.text.take 2000)
    lastError := none
    updatedAt := w.now.toISOString } w true result.toolCount result.text.length none

/-- What a successful turn does outside the manager. -/
def turnEffects (loop : Loop) (agent : AgentProfile) (result : TurnResult) : List LoopEffect :=
  result.usage.toList.map (.spendRecord agent) ++
  (result.sessionId.filter (· ≠ [])).toList.map (.saveSessionId loop.sessionKey) ++
  (if trim result.text = [] then []
    else [.appendTranscript agent.id loop.sessionKey "assistant" result.text none])

/-- The rest of a tick, after its turn. -/
def afterTurn (m : LoopManager) (loop : Loop) (agent : AgentProfile) (result : TurnResult)
    (w : World) : List LoopEffect × LoopManager :=
  if result.Failed then
    let m := m.setLoop (failedLoop loop result w)
    if maxConsecutiveErrors ≤ loop.consecutiveErrors + 1 then m.pause loop.id "repeated_errors" w
    else ([], (m.persist w).reschedule loop.id)
  else
    let loop' := advancedLoop loop result w
    let m := m.setLoop loop'
    if sentinelHit tables result.text loop.stopSentinel then
      (turnEffects loop agent result, m.finish loop' "goal_met" w)
    else if loop.maxIterations ≤ loop.iteration + 1 then
      (turnEffects loop agent result, m.finish loop' "max_iterations" w)
    else (turnEffects loop agent result, (m.persist w).reschedule loop.id)

/-- A turn in flight ends with its driver's stream. -/
def turnEnds (m : LoopManager) (controller : Nat) (stream : DriverStream) (w : World) :
    List LoopEffect × LoopManager :=
  match m.flights.find? (·.controller = controller) with
  | none => ([], m)
  | some flight =>
    let m := { m with
      flights := m.flights.filter (·.controller ≠ controller)
      aborts := JsMap.delete m.aborts flight.loopId }
    match m.loops.find? flight.loopId with
    | none => ([], m)
    | some loop =>
      -- A loop can be stopped or paused mid-turn; if so, don't resurrect it.
      if loop.status ≠ .running then ([], m)
      else m.afterTurn tables loop flight.agent (runAgentTurn flight.sessionId stream) w

/-- A new process: it reads the file, with the transient flag cleared, and reschedules. -/
def restart (m : LoopManager) : LoopManager :=
  resumeAll { m with
    loops := m.file.updateWhere (fun _ => true) (fun l => { l with blocked := none }) fun _ => rfl
    timers := .empty
    aborts := .empty
    seq := 0
    pending := []
    flights := [] }

/-- A new process that finds the loops of a file. -/
def boot (file : Table Loop.id) : LoopManager := restart { new with file := file }

end LoopManager

inductive LoopOp where
  | create (input : CreateLoopInput) (agent : Option AgentProfile) (w : World)
  | stop (id : String) (w : World)
  | pause (id : String) (w : World)
  | resume (id : String) (w : World)
  | resumeAll
  | fire (handle : Nat) (deps : TickDeps) (w : World)
  | turnEnds (controller : Nat) (stream : DriverStream) (w : World)
  | restart

/-- One operation of the manager, or one event of its scheduler, drivers or process. -/
def loopStep (tables : CaseTables) (maxLoops : Nat) (op : LoopOp) (m : LoopManager) :
    List LoopEffect × LoopManager :=
  match op with
  | .create input agent w => m.create tables maxLoops input agent w
  | .stop id w => m.stop id w
  | .pause id w => m.pause id "paused" w
  | .resume id w => m.resume id w
  | .resumeAll => ([], m.resumeAll)
  | .fire handle deps w => m.fire handle deps w
  | .turnEnds controller stream w => m.turnEnds tables controller stream w
  | .restart => ([], m.restart)

abbrev LoopStep := Machine.Step LoopManager LoopOp (List LoopEffect)

/-! ### What the parts of an operation leave alone -/

namespace LoopManager

variable (m : LoopManager) (id : String) (loop : Loop) (w : World)

@[simp] theorem setLoop_loops : (m.setLoop loop).loops = m.loops.put loop := rfl
@[simp] theorem setLoop_timers : (m.setLoop loop).timers = m.timers := rfl
@[simp] theorem setLoop_aborts : (m.setLoop loop).aborts = m.aborts := rfl
@[simp] theorem setLoop_file : (m.setLoop loop).file = m.file := rfl
@[simp] theorem setLoop_pending : (m.setLoop loop).pending = m.pending := rfl
@[simp] theorem setLoop_flights : (m.setLoop loop).flights = m.flights := rfl
@[simp] theorem setLoop_nextHandle : (m.setLoop loop).nextHandle = m.nextHandle := rfl
@[simp] theorem setLoop_nextController : (m.setLoop loop).nextController = m.nextController := rfl

@[simp] theorem clearTimer_loops : (m.clearTimer id).loops = m.loops := by
  unfold clearTimer
  split <;> rfl

@[simp] theorem clearTimer_aborts : (m.clearTimer id).aborts = m.aborts := by
  unfold clearTimer
  split <;> rfl

@[simp] theorem clearTimer_file : (m.clearTimer id).file = m.file := by
  unfold clearTimer
  split <;> rfl

@[simp] theorem clearTimer_flights : (m.clearTimer id).flights = m.flights := by
  unfold clearTimer
  split <;> rfl

@[simp] theorem clearTimer_nextHandle : (m.clearTimer id).nextHandle = m.nextHandle := by
  unfold clearTimer
  split <;> rfl

@[simp] theorem clearTimer_nextController :
    (m.clearTimer id).nextController = m.nextController := by
  unfold clearTimer
  split <;> rfl

@[simp] theorem scheduleTick_loops : (m.scheduleTick id).loops = m.loops := rfl
@[simp] theorem scheduleTick_aborts : (m.scheduleTick id).aborts = m.aborts := rfl
@[simp] theorem scheduleTick_file : (m.scheduleTick id).file = m.file := rfl
@[simp] theorem scheduleTick_flights : (m.scheduleTick id).flights = m.flights := rfl

@[simp] theorem scheduleTick_nextController :
    (m.scheduleTick id).nextController = m.nextController := rfl

@[simp] theorem reschedule_loops : (m.reschedule id).loops = m.loops := by simp [reschedule]
@[simp] theorem reschedule_aborts : (m.reschedule id).aborts = m.aborts := by simp [reschedule]
@[simp] theorem reschedule_file : (m.reschedule id).file = m.file := by simp [reschedule]
@[simp] theorem reschedule_flights : (m.reschedule id).flights = m.flights := by simp [reschedule]

@[simp] theorem reschedule_nextController :
    (m.reschedule id).nextController = m.nextController := by simp [reschedule]

@[simp] theorem persist_loops : (m.persist w).loops = m.loops := by unfold persist; split <;> rfl
@[simp] theorem persist_timers : (m.persist w).timers = m.timers := by unfold persist; split <;> rfl
@[simp] theorem persist_aborts : (m.persist w).aborts = m.aborts := by unfold persist; split <;> rfl
@[simp] theorem persist_pending : (m.persist w).pending = m.pending := by
  unfold persist; split <;> rfl
@[simp] theorem persist_flights : (m.persist w).flights = m.flights := by
  unfold persist; split <;> rfl
@[simp] theorem persist_nextHandle : (m.persist w).nextHandle = m.nextHandle := by
  unfold persist; split <;> rfl
@[simp] theorem persist_nextController : (m.persist w).nextController = m.nextController := by
  unfold persist; split <;> rfl

/-- A write stores the loops, or nothing. -/
theorem persist_file : (m.persist w).file = if w.writes then m.loops else m.file := by
  unfold persist; split <;> rfl

@[simp] theorem withdraw_loops : (m.withdraw loop w).2.loops = m.loops.put loop := by
  simp [withdraw]

@[simp] theorem withdraw_flights : (m.withdraw loop w).2.flights = m.flights := by simp [withdraw]

@[simp] theorem withdraw_nextController :
    (m.withdraw loop w).2.nextController = m.nextController := by simp [withdraw]

/-- The loop that `finish` stores. -/
def finishedLoop (loop : Loop) (reason : String) (w : World) : Loop :=
  Loop.pushHistory { loop with
    status := .completed
    finishedReason := some reason
    blocked := none
    updatedAt := w.now.toISOString } w true 0 0 (some (utf16 ("done: " ++ reason)))

theorem finish_eq (reason : String) : m.finish loop reason w =
    ((m.clearTimer loop.id).setLoop (finishedLoop loop reason w)).persist w := rfl

@[simp] theorem finish_loops (reason : String) :
    (m.finish loop reason w).loops = m.loops.put (finishedLoop loop reason w) := by
  simp [finish_eq]

@[simp] theorem finish_flights (reason : String) :
    (m.finish loop reason w).flights = m.flights := by
  simp [finish_eq]

@[simp] theorem finish_nextController (reason : String) :
    (m.finish loop reason w).nextController = m.nextController := by
  simp [finish_eq]

theorem foldl_reschedule_loops (l : List Loop) :
    (l.foldl (fun m loop => m.reschedule loop.id) m).loops = m.loops := by
  induction l generalizing m with
  | nil => rfl
  | cons loop l ih => rw [List.foldl_cons, ih, reschedule_loops]

theorem foldl_reschedule_flights (l : List Loop) :
    (l.foldl (fun m loop => m.reschedule loop.id) m).flights = m.flights := by
  induction l generalizing m with
  | nil => rfl
  | cons loop l ih => rw [List.foldl_cons, ih, reschedule_flights]

theorem foldl_reschedule_nextController (l : List Loop) :
    (l.foldl (fun m loop => m.reschedule loop.id) m).nextController = m.nextController := by
  induction l generalizing m with
  | nil => rfl
  | cons loop l ih => rw [List.foldl_cons, ih, reschedule_nextController]

theorem foldl_reschedule_file (l : List Loop) :
    (l.foldl (fun m loop => m.reschedule loop.id) m).file = m.file := by
  induction l generalizing m with
  | nil => rfl
  | cons loop l ih => rw [List.foldl_cons, ih, reschedule_file]

@[simp] theorem resumeAll_loops : m.resumeAll.loops = m.loops := foldl_reschedule_loops m _
@[simp] theorem resumeAll_flights : m.resumeAll.flights = m.flights := foldl_reschedule_flights m _
@[simp] theorem resumeAll_nextController : m.resumeAll.nextController = m.nextController :=
  foldl_reschedule_nextController m _

@[simp] theorem resumeAll_file : m.resumeAll.file = m.file := foldl_reschedule_file m _

/-- The loops of a new process. -/
theorem restart_loops : m.restart.loops =
    m.file.updateWhere (fun _ => true) (fun l => { l with blocked := none }) fun _ => rfl := by
  simp [restart]

@[simp] theorem restart_flights : m.restart.flights = [] := by simp [restart]
@[simp] theorem restart_nextController : m.restart.nextController = m.nextController := by
  simp [restart]

@[simp] theorem restart_file : m.restart.file = m.file := by simp [restart]

/-! ### What a request, a tick and the end of a turn can do -/

theorem le_of_clampInt {v : Option ℚ} {min max n : Nat} {name : String}
    (h : clampInt v min max name = .ok n) : min ≤ n := by
  unfold clampInt at h
  split at h
  · cases h
  · rename_i k _
    split at h
    · cases h
    · split at h
      · cases h
      · cases h
        omega

/-- All that `create` can do. -/
inductive CreateOutcome (tables : CaseTables) (maxLoops : Nat) (m : LoopManager)
    (input : CreateLoopInput) (w : World) : List LoopEffect × LoopManager → Prop where
  | rejected (message : JsString) : CreateOutcome tables maxLoops m input w ([.reject message], m)
  | created (agent : AgentProfile) (interval maxIter : Nat)
      (hroom : runningCount m.loops < maxLoops) (hmaxIter : 1 ≤ maxIter) :
      CreateOutcome tables maxLoops m input w
        ([.registerChat ("loop-" ++ mkId (m.seq + 1) w.now) agent.id
            (newLoop tables (mkId (m.seq + 1) w.now) input interval maxIter w).name],
          ((({ m with seq := m.seq + 1 }).setLoop
            (newLoop tables (mkId (m.seq + 1) w.now) input interval maxIter w)).persist
              w).scheduleTick (mkId (m.seq + 1) w.now))

theorem create_outcome (tables : CaseTables) (maxLoops : Nat) (input : CreateLoopInput)
    (agent : Option AgentProfile) :
    CreateOutcome tables maxLoops m input w (m.create tables maxLoops input agent w) := by
  unfold create
  split
  · exact .rejected _
  · rename_i hroom
    split
    · exact .rejected _
    · split
      · exact .rejected _
      · split
        · exact .rejected _
        · exact .rejected _
        · rename_i hmaxIter
          exact .created _ _ _ (Nat.lt_of_not_le hroom) (le_of_clampInt hmaxIter)

/-- The loop that `pause` stores. -/
def pausedLoop (loop : Loop) (reason : String) (w : World) : Loop :=
  { loop with
    status := .paused
    finishedReason := some reason
    updatedAt := w.now.toISOString }

/-- The loop that `stop` stores. -/
def stoppedLoop (loop : Loop) (w : World) : Loop :=
  { loop with
    status := .stopped
    finishedReason := some "stopped"
    blocked := none
    updatedAt := w.now.toISOString }

@[simp] theorem pausedLoop_id (reason : String) : (pausedLoop loop reason w).id = loop.id := rfl

theorem pause_eq {m : LoopManager} {loop : Loop} (hfind : m.loops.find? loop.id = some loop)
    (reason : String) : m.pause loop.id reason w = m.withdraw (pausedLoop loop reason w) w := by
  unfold pause
  rw [hfind]
  rfl

/-- The loop that `resume` stores. -/
def resumedLoop (loop : Loop) (w : World) : Loop :=
  { loop with
    status := .running
    finishedReason := none
    consecutiveErrors := 0
    updatedAt := w.now.toISOString }

theorem resume_eq {m : LoopManager} {loop : Loop} (hfind : m.loops.find? loop.id = some loop)
    (hpaused : loop.status = .paused) : m.resume loop.id w =
      ([], ((m.setLoop (resumedLoop loop w)).persist w).reschedule loop.id) := by
  unfold resume
  rw [hfind]
  exact if_neg (not_not.mpr hpaused)

theorem stop_eq {m : LoopManager} {loop : Loop} (hfind : m.loops.find? loop.id = some loop) :
    m.stop loop.id w = m.withdraw (stoppedLoop loop w) w := by
  unfold stop
  rw [hfind]
  rfl

/-- A loop that the manager knows is withdrawn by `stop`, -/
theorem stop_cases : m.stop id w = ([], m) ∨ ∃ loop, loop.id = id ∧
    m.loops.find? loop.id = some loop ∧ m.stop id w = m.withdraw (stoppedLoop loop w) w := by
  cases hfind : m.loops.find? id with
  | none =>
    left
    unfold stop
    rw [hfind]
  | some loop =>
    obtain rfl : loop.id = id := Table.key_of_find? hfind
    exact .inr ⟨loop, rfl, hfind, stop_eq w hfind⟩

/-- and by `pause`, -/
theorem pause_cases (reason : String) : m.pause id reason w = ([], m) ∨ ∃ loop, loop.id = id ∧
    m.loops.find? loop.id = some loop ∧
      m.pause id reason w = m.withdraw (pausedLoop loop reason w) w := by
  cases hfind : m.loops.find? id with
  | none =>
    left
    unfold pause
    rw [hfind]
  | some loop =>
    obtain rfl : loop.id = id := Table.key_of_find? hfind
    exact .inr ⟨loop, rfl, hfind, pause_eq w hfind reason⟩

/-- and one that is paused is scheduled by `resume`. -/
theorem resume_cases : m.resume id w = ([], m) ∨ ∃ loop, loop.id = id ∧
    m.loops.find? loop.id = some loop ∧ loop.status = .paused ∧
      m.resume id w = ([], ((m.setLoop (resumedLoop loop w)).persist w).reschedule loop.id) := by
  cases hfind : m.loops.find? id with
  | none =>
    left
    unfold resume
    rw [hfind]
  | some loop =>
    obtain rfl : loop.id = id := Table.key_of_find? hfind
    by_cases hpaused : loop.status = .paused
    · exact .inr ⟨loop, rfl, hfind, hpaused, resume_eq w hfind hpaused⟩
    · left
      unfold resume
      rw [hfind]
      exact if_pos hpaused

@[simp] theorem pause_flights (reason : String) : (m.pause id reason w).2.flights = m.flights := by
  rcases m.pause_cases id w reason with h | ⟨loop, -, -, h⟩
  · rw [h]
  · rw [h, withdraw_flights]

@[simp] theorem pause_nextController (reason : String) :
    (m.pause id reason w).2.nextController = m.nextController := by
  rcases m.pause_cases id w reason with h | ⟨loop, -, -, h⟩
  · rw [h]
  · rw [h, withdraw_nextController]

/-- The manager when a tick has found its loop running. -/
def tickStarted (m : LoopManager) (id : String) : LoopManager :=
  { m with timers := JsMap.delete m.timers id }

/-- The loop after a tick that the spend gate skips. -/
def skippedLoop (loop : Loop) (deps : TickDeps) (w : World) : Loop :=
  Loop.pushHistory { loop with
    blocked := some "spend_capped"
    lastError := deps.reason
    updatedAt := w.now.toISOString } w false 0 0
    (some (utf16 "skipped: " ++ (deps.reason.filter (· ≠ [])).getD (utf16 "spend_capped")))

/-- The manager after a tick has started its turn. -/
def launched (m : LoopManager) (loop : Loop) (agent : AgentProfile)
    (sessionId : Option JsString) : LoopManager :=
  { m.setLoop { loop with blocked := none } with
    aborts := JsMap.set m.aborts loop.id m.nextController
    flights := m.flights ++ [⟨loop.id, m.nextController, agent, sessionId⟩]
    nextController := m.nextController + 1 }

/-- All that a tick can do. -/
inductive TickOutcome (m : LoopManager) (id : String) (deps : TickDeps) (w : World) :
    List LoopEffect × LoopManager → Prop where
  | idle (hidle : ∀ loop, m.loops.find? id = some loop → loop.status ≠ .running) :
      TickOutcome m id deps w ([], m)
  | exhausted (loop : Loop) (hfind : m.loops.find? id = some loop) (hrunning : loop.status = .running)
      (hmax : loop.maxIterations ≤ loop.iteration) :
      TickOutcome m id deps w ([], (m.tickStarted id).finish loop "max_iterations" w)
  | withdrawn (loop : Loop) (hfind : m.loops.find? id = some loop) (hrunning : loop.status = .running)
      (reason : String) : TickOutcome m id deps w ((m.tickStarted id).pause id reason w)
  | skipped (loop : Loop) (hfind : m.loops.find? id = some loop) (hrunning : loop.status = .running) :
      TickOutcome m id deps w
        ([], (((m.tickStarted id).setLoop (skippedLoop loop deps w)).persist w).reschedule id)
  | launched (loop : Loop) (hfind : m.loops.find? id = some loop) (hrunning : loop.status = .running)
      (hiteration : loop.iteration < loop.maxIterations) (agent : AgentProfile)
      (hagent : deps.agent = some agent) (hallowed : deps.allowed = true)
      (hcredential : deps.hasCredential = true) (hdriver : deps.hasDriver = true) :
      TickOutcome m id deps w
        ([.appendTranscript agent.id loop.sessionKey "user"
              (Loop.buildMessage { loop with blocked := none }) (some "loop"),
            .startTurn id m.nextController (Loop.buildMessage { loop with blocked := none })],
          (m.tickStarted id).launched loop agent deps.sessionId)

@[simp] theorem finishedLoop_id (reason : String) : (finishedLoop loop reason w).id = loop.id := by
  simp only [finishedLoop, Loop.pushHistory]

@[simp] theorem skippedLoop_id (deps : TickDeps) : (skippedLoop loop deps w).id = loop.id := by
  simp only [skippedLoop, Loop.pushHistory]

@[simp] theorem skippedLoop_status (deps : TickDeps) :
    (skippedLoop loop deps w).status = loop.status := by
  simp only [skippedLoop, Loop.pushHistory]

@[simp] theorem failedLoop_id (result : TurnResult) : (failedLoop loop result w).id = loop.id := by
  simp only [failedLoop, Loop.pushHistory]

@[simp] theorem failedLoop_status (result : TurnResult) :
    (failedLoop loop result w).status = loop.status := by
  simp only [failedLoop, Loop.pushHistory]

@[simp] theorem advancedLoop_id (result : TurnResult) :
    (advancedLoop loop result w).id = loop.id := by
  simp only [advancedLoop, Loop.pushHistory]

@[simp] theorem advancedLoop_status (result : TurnResult) :
    (advancedLoop loop result w).status = loop.status := by
  simp only [advancedLoop, Loop.pushHistory]

theorem tick_outcome (deps : TickDeps) : TickOutcome m id deps w (m.tick id deps w) := by
  unfold tick
  cases hfind : m.loops.find? id with
  | none => exact .idle (by simp [hfind])
  | some loop =>
    obtain rfl : loop.id = id := Table.key_of_find? hfind
    dsimp only
    by_cases hrunning : loop.status = .running
    · rw [if_neg (not_not.mpr hrunning)]
      by_cases hmax : loop.maxIterations ≤ loop.iteration
      · rw [if_pos hmax]
        exact .exhausted loop hfind hrunning hmax
      · rw [if_neg hmax]
        cases hagent : deps.agent with
        | none => exact .withdrawn loop hfind hrunning "agent_missing"
        | some agent =>
          dsimp only
          split
          · exact .skipped loop hfind hrunning
          · rename_i hallowed
            split
            · exact .withdrawn loop hfind hrunning "credential_missing"
            · rename_i hcredential
              split
              · exact .withdrawn loop hfind hrunning "runtime_unavailable"
              · rename_i hdriver
                exact .launched loop hfind hrunning (Nat.lt_of_not_le hmax) agent hagent
                  (by simpa using hallowed) (by simpa using hcredential) (by simpa using hdriver)
    · rw [if_pos hrunning]
      exact .idle fun loop' hloop' => by
        obtain rfl : loop = loop' := Option.some.inj (hfind.symm.trans hloop')
        exact hrunning

/-- The manager when the tick of a turn goes on. -/
def landed (m : LoopManager) (flight : Flight) : LoopManager :=
  { m with
    flights := m.flights.filter (·.controller ≠ flight.controller)
    aborts := JsMap.delete m.aborts flight.loopId }

/-- All that the rest of a tick can do with a running loop. -/
inductive TurnOutcome (tables : CaseTables) (m : LoopManager) (loop : Loop) (agent : AgentProfile)
    (result : TurnResult) (w : World) : List LoopEffect × LoopManager → Prop where
  | gaveUp (hfailed : result.Failed) (herrors : maxConsecutiveErrors ≤ loop.consecutiveErrors + 1) :
      TurnOutcome tables m loop agent result w
        ((m.setLoop (failedLoop loop result w)).pause loop.id "repeated_errors" w)
  | failed (hfailed : result.Failed) (herrors : loop.consecutiveErrors + 1 < maxConsecutiveErrors) :
      TurnOutcome tables m loop agent result w
        ([], ((m.setLoop (failedLoop loop result w)).persist w).reschedule loop.id)
  | goalMet (hok : ¬ result.Failed) (hhit : sentinelHit tables result.text loop.stopSentinel = true) :
      TurnOutcome tables m loop agent result w (turnEffects loop agent result,
        (m.setLoop (advancedLoop loop result w)).finish (advancedLoop loop result w) "goal_met" w)
  | exhausted (hok : ¬ result.Failed)
      (hmiss : sentinelHit tables result.text loop.stopSentinel = false)
      (hmax : loop.maxIterations ≤ loop.iteration + 1) :
      TurnOutcome tables m loop agent result w (turnEffects loop agent result,
        (m.setLoop (advancedLoop loop result w)).finish (advancedLoop loop result w)
          "max_iterations" w)
  | advanced (hok : ¬ result.Failed)
      (hmiss : sentinelHit tables result.text loop.stopSentinel = false)
      (hmore : loop.iteration + 1 < loop.maxIterations) :
      TurnOutcome tables m loop agent result w (turnEffects loop agent result,
        ((m.setLoop (advancedLoop loop result w)).persist w).reschedule loop.id)

theorem afterTurn_outcome (tables : CaseTables) (agent : AgentProfile) (result : TurnResult) :
    TurnOutcome tables m loop agent result w (m.afterTurn tables loop agent result w) := by
  unfold afterTurn
  by_cases hfailed : result.Failed
  · rw [if_pos hfailed]
    by_cases herrors : maxConsecutiveErrors ≤ loop.consecutiveErrors + 1
    · simp only [herrors, if_true]
      exact .gaveUp hfailed herrors
    · simp only [herrors, if_false]
      exact .failed hfailed (Nat.lt_of_not_le herrors)
  · rw [if_neg hfailed]
    cases hhit : sentinelHit tables result.text loop.stopSentinel with
    | true => exact .goalMet hfailed hhit
    | false =>
      by_cases hmax : loop.maxIterations ≤ loop.iteration + 1
      · simp only [hmax, Bool.false_eq_true, if_false, if_true]
        exact .exhausted hfailed hhit hmax
      · simp only [hmax, Bool.false_eq_true, if_false]
        exact .advanced hfailed hhit (Nat.lt_of_not_le hmax)

theorem afterTurn_flights (tables : CaseTables) (agent : AgentProfile) (result : TurnResult) :
    (m.afterTurn tables loop agent result w).2.flights = m.flights := by
  have hout := afterTurn_outcome m loop w tables agent result
  generalize m.afterTurn tables loop agent result w = out at hout ⊢
  cases hout <;> simp

theorem afterTurn_nextController (tables : CaseTables) (agent : AgentProfile)
    (result : TurnResult) :
    (m.afterTurn tables loop agent result w).2.nextController = m.nextController := by
  have hout := afterTurn_outcome m loop w tables agent result
  generalize m.afterTurn tables loop agent result w = out at hout ⊢
  cases hout <;> simp

/-- All that the end of a turn can do. -/
inductive EndOutcome (tables : CaseTables) (m : LoopManager) (controller : Nat)
    (stream : DriverStream) (w : World) : List LoopEffect × LoopManager → Prop where
  | unknown (hnone : m.flights.find? (·.controller = controller) = none) :
      EndOutcome tables m controller stream w ([], m)
  | orphaned (flight : Flight)
      (hflight : m.flights.find? (·.controller = controller) = some flight)
      (hclosed : ∀ loop, m.loops.find? flight.loopId = some loop → loop.status ≠ .running) :
      EndOutcome tables m controller stream w ([], m.landed flight)
  | ended (flight : Flight) (hflight : m.flights.find? (·.controller = controller) = some flight)
      (loop : Loop) (hid : loop.id = flight.loopId) (hfind : m.loops.find? loop.id = some loop)
      (hrunning : loop.status = .running) :
      EndOutcome tables m controller stream w
        ((m.landed flight).afterTurn tables loop flight.agent
          (runAgentTurn flight.sessionId stream) w)

theorem turnEnds_outcome (tables : CaseTables) (controller : Nat) (stream : DriverStream) :
    EndOutcome tables m controller stream w (m.turnEnds tables controller stream w) := by
  unfold turnEnds
  cases hflight : m.flights.find? (·.controller = controller) with
  | none => exact .unknown hflight
  | some flight =>
    obtain rfl : flight.controller = controller := by simpa using List.find?_some hflight
    dsimp only
    cases hfind : m.loops.find? flight.loopId with
    | none =>
      refine .orphaned flight hflight ?_
      intro loop hloop
      rw [hfind] at hloop
      cases hloop
    | some loop =>
      have hid : loop.id = flight.loopId := Table.key_of_find? hfind
      by_cases hrunning : loop.status = .running
      · simp only [hrunning, ne_eq, not_true_eq_false, if_false]
        exact .ended flight hflight loop hid (hid ▸ hfind) hrunning
      · simp only [hrunning, ne_eq, not_false_eq_true, if_true]
        refine .orphaned flight hflight ?_
        intro loop' hloop'
        obtain rfl : loop = loop' := Option.some.inj (hfind.symm.trans hloop')
        exact hrunning

/-! ### Turns started -/

end LoopManager

/-- The effect starts a turn of the loop. -/
def LoopEffect.startsTurn (id : String) : LoopEffect → Bool
  | .startTurn loopId .. => loopId = id
  | _ => false

namespace LoopManager

variable (m : LoopManager) (id : String) (loop : Loop) (w : World)

/-- How many turns of a loop the effects start. -/
def turnsStarted (id : String) (effects : List LoopEffect) : Nat :=
  effects.countP (·.startsTurn id)

@[simp] theorem turnsStarted_nil : turnsStarted id [] = 0 := rfl

theorem turnsStarted_append (effects effects' : List LoopEffect) :
    turnsStarted id (effects ++ effects') = turnsStarted id effects + turnsStarted id effects' :=
  List.countP_append

theorem turnsStarted_withdraw : turnsStarted id (m.withdraw loop w).1 = 0 := by
  change turnsStarted id (m.abortTurn loop.id) = 0
  unfold abortTurn
  cases m.aborts.get? loop.id <;> rfl

theorem turnsStarted_stop (k : String) : turnsStarted id (m.stop k w).1 = 0 := by
  rcases m.stop_cases k w with h | ⟨loop, -, -, h⟩
  · rw [h, turnsStarted_nil]
  · rw [h, turnsStarted_withdraw]

theorem turnsStarted_pause (k reason : String) : turnsStarted id (m.pause k reason w).1 = 0 := by
  rcases m.pause_cases k w reason with h | ⟨loop, -, -, h⟩
  · rw [h, turnsStarted_nil]
  · rw [h, turnsStarted_withdraw]

theorem turnsStarted_resume (k : String) : turnsStarted id (m.resume k w).1 = 0 := by
  rcases m.resume_cases k w with h | ⟨loop, -, -, -, h⟩
  · rw [h, turnsStarted_nil]
  · rw [h, turnsStarted_nil]

theorem turnsStarted_create (tables : CaseTables) (maxLoops : Nat) (input : CreateLoopInput)
    (agent : Option AgentProfile) :
    turnsStarted id (m.create tables maxLoops input agent w).1 = 0 := by
  have hout := create_outcome m w tables maxLoops input agent
  generalize m.create tables maxLoops input agent w = out at hout ⊢
  cases hout with
  | rejected message => rfl
  | created agent interval maxIter hroom hmaxIter => rfl

theorem turnsStarted_turnEffects (agent : AgentProfile) (result : TurnResult) :
    turnsStarted id (turnEffects loop agent result) = 0 := by
  have husage : turnsStarted id (result.usage.toList.map (.spendRecord agent)) = 0 := by
    cases result.usage <;> rfl
  have hsession : turnsStarted id ((result.sessionId.filter (· ≠ [])).toList.map
      (.saveSessionId loop.sessionKey)) = 0 := by
    cases result.sessionId.filter (· ≠ []) <;> rfl
  rw [turnEffects, turnsStarted_append, turnsStarted_append, husage, hsession]
  split <;> rfl

theorem turnsStarted_afterTurn (tables : CaseTables) (agent : AgentProfile) (result : TurnResult) :
    turnsStarted id (m.afterTurn tables loop agent result w).1 = 0 := by
  have hout := afterTurn_outcome m loop w tables agent result
  generalize m.afterTurn tables loop agent result w = out at hout ⊢
  cases hout with
  | gaveUp hfailed herrors => exact turnsStarted_pause ..
  | failed hfailed herrors => rfl
  | goalMet hok hhit => exact turnsStarted_turnEffects ..
  | exhausted hok hmiss hmax => exact turnsStarted_turnEffects ..
  | advanced hok hmiss hmore => exact turnsStarted_turnEffects ..

theorem turnsStarted_turnEnds (tables : CaseTables) (controller : Nat) (stream : DriverStream) :
    turnsStarted id (m.turnEnds tables controller stream w).1 = 0 := by
  have hout := turnEnds_outcome m w tables controller stream
  generalize m.turnEnds tables controller stream w = out at hout ⊢
  cases hout with
  | unknown hnone => rfl
  | orphaned flight hflight hclosed => rfl
  | ended flight hflight loop hid hfind hrunning => exact turnsStarted_afterTurn ..

/-- A tick starts a turn of its own loop only, and only one. -/
theorem turnsStarted_tick (k : String) (deps : TickDeps)
    (h : turnsStarted id (m.tick k deps w).1 ≠ 0) :
    k = id ∧ turnsStarted id (m.tick k deps w).1 = 1 ∧
      ∃ loop, m.loops.find? id = some loop ∧ loop.status = .running ∧
        loop.iteration < loop.maxIterations := by
  have hout := tick_outcome m k w deps
  generalize m.tick k deps w = out at h hout ⊢
  cases hout with
  | idle hidle => exact absurd rfl h
  | exhausted loop hfind hrunning hmax => exact absurd rfl h
  | withdrawn loop hfind hrunning reason => exact absurd (turnsStarted_pause ..) h
  | skipped loop hfind hrunning => exact absurd rfl h
  | launched loop hfind hrunning hiteration agent hagent hallowed hcredential hdriver =>
    by_cases hid : k = id
    · subst hid
      refine ⟨rfl, ?_, loop, hfind, hrunning, hiteration⟩
      simp [turnsStarted, LoopEffect.startsTurn]
    · simp [turnsStarted, LoopEffect.startsTurn, hid] at h

/-- A timer that is pending makes its loop tick; any other does nothing. -/
theorem fire_cases (m : LoopManager) (handle : Nat) (deps : TickDeps) (w : World) :
    m.fire handle deps w = ([], m) ∨ ∃ timer ∈ m.pending, timer.handle = handle ∧
      m.fire handle deps w =
        tick { m with pending := m.pending.filter (·.handle ≠ handle) } timer.loopId deps w := by
  unfold fire
  cases hfind : m.pending.find? (·.handle = handle) with
  | none => exact .inl rfl
  | some timer =>
    have hhandle : timer.handle = handle := by simpa using List.find?_some hfind
    exact .inr ⟨timer, List.mem_of_find?_eq_some hfind, hhandle, rfl⟩

theorem turnsStarted_fire (handle : Nat) (deps : TickDeps)
    (h : turnsStarted id (m.fire handle deps w).1 ≠ 0) :
    (∃ timer ∈ m.pending, timer.handle = handle ∧ timer.loopId = id) ∧
      turnsStarted id (m.fire handle deps w).1 = 1 ∧
      ∃ loop, m.loops.find? id = some loop ∧ loop.status = .running ∧
        loop.iteration < loop.maxIterations := by
  rcases m.fire_cases handle deps w with hfire | ⟨timer, hmem, hhandle, hfire⟩
  · rw [hfire] at h
    exact absurd rfl h
  · rw [hfire] at h ⊢
    obtain ⟨hid, hone, hloop⟩ := turnsStarted_tick _ id w timer.loopId deps h
    exact ⟨⟨timer, hmem, hhandle, hid⟩, hone, hloop⟩

/-- Only a timer that fires starts a turn. -/
theorem turnsStarted_step {tables : CaseTables} {maxLoops : Nat} {op : LoopOp}
    (h : turnsStarted id (loopStep tables maxLoops op m).1 ≠ 0) :
    ∃ handle deps w, op = .fire handle deps w := by
  cases op with
  | create input agent w => exact absurd (turnsStarted_create ..) h
  | stop k w => exact absurd (turnsStarted_stop ..) h
  | pause k w => exact absurd (turnsStarted_pause ..) h
  | resume k w => exact absurd (turnsStarted_resume ..) h
  | resumeAll => exact absurd rfl h
  | fire handle deps w => exact ⟨handle, deps, w, rfl⟩
  | turnEnds controller stream w => exact absurd (turnsStarted_turnEnds ..) h
  | restart => exact absurd rfl h

end LoopManager

end OsModa.Gateway
