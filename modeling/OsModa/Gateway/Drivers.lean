import OsModa.Gateway.ClaudeCode

/-!
The three runtime drivers, each as the events that it makes of one run of its CLI.

OpenClaw's run is a trajectory file that is tailed while the process works, and the reply
that its standard output distils to. A managed agent's run is the lines of its event
stream, read until one is terminal. JSON values are taken as what the drivers' probes find
in them.
-/

namespace OsModa.Gateway

open OsModa.Js

/-! ### OpenClaw -/

namespace OpenClaw

/-- A tool call or result of a snapshot, with its position as the key. -/
inductive SnapshotTool where
  | use (key : Nat × Nat) (name : JsString) (target : Option JsString)
  | result (key : Nat × Nat) (name : Option JsString) (outcome summary : JsString)

inductive TrajectoryEvent where
  | sessionStarted
  | modelCompleted (tools : List SnapshotTool) (text : JsString)
  | other

structure TrajectoryState where
  round : Nat
  emittedInterim : Nat
  seenToolCallIds : List (Nat × Nat)
  seenToolResultIds : List (Nat × Nat)

def newTrajectoryState : TrajectoryState := ⟨0, 0, [], []⟩

/-- Snapshots are cumulative, so an item is shown when its position is new. -/
def mapSnapshotTool (state : TrajectoryState) : SnapshotTool → List AgentEvent × TrajectoryState
  | .use key name target =>
    if key ∈ state.seenToolCallIds then ([], state)
    else ([.toolUse name target (some (state.round - 1))],
      { state with seenToolCallIds := key :: state.seenToolCallIds })
  | .result key name outcome summary =>
    if key ∈ state.seenToolResultIds then ([], state)
    else ([.toolResult name (some outcome) (some summary) none],
      { state with seenToolResultIds := key :: state.seenToolResultIds })

def mapSnapshotTools (state : TrajectoryState) :
    List SnapshotTool → List AgentEvent × TrajectoryState
  | [] => ([], state)
  | tool :: tools =>
    let out := mapSnapshotTool state tool
    let rest := mapSnapshotTools out.2 tools
    (out.1 ++ rest.1, rest.2)

def mapTrajectoryEvent (state : TrajectoryState) :
    TrajectoryEvent → List AgentEvent × TrajectoryState
  | .sessionStarted => ([.status (utf16 "Starting")], state)
  | .modelCompleted tools text =>
    let state := { state with round := state.round + 1 }
    let step := if 1 < state.round then utf16 ("Working · round " ++ toString state.round)
      else utf16 "Thinking"
    let out := mapSnapshotTools state tools
    -- The texts are cumulative too: only what is beyond those streamed is shown.
    if out.2.emittedInterim < text.length then
      (.status step :: out.1 ++ [.interimText (text.drop out.2.emittedInterim)],
        { out.2 with emittedInterim := text.length })
    else (.status step :: out.1, out.2)
  | .other => ([], state)

def mapTrajectory (state : TrajectoryState) :
    List TrajectoryEvent → List AgentEvent × TrajectoryState
  | [] => ([], state)
  | e :: es =>
    let out := mapTrajectoryEvent state e
    let rest := mapTrajectory out.2 es
    (out.1 ++ rest.1, rest.2)

/-- Why the process did not start. -/
inductive StartFailure where
  | noBinary
  | authWriteFailed (message : JsString)
  | workspaceMissing (cwd : JsString)
  | spawnThrown (message : JsString)
  | spawnEnoent (bin cwd : JsString)
  | spawnOther (message : JsString)

def StartFailure.event : StartFailure → AgentEvent
  | .noBinary => .error (utf16 "openclaw binary not found on this host") (some (utf16 "no_binary"))
  | .authWriteFailed message => .error message (some (utf16 "auth_write_failed"))
  | .workspaceMissing cwd =>
    .error (utf16 "Workspace directory '" ++ cwd ++
      utf16 "' does not exist or isn't readable. Create it on the customer box: 'mkdir -p " ++ cwd ++
      utf16 "' and retry.") (some (utf16 "workspace_missing"))
  | .spawnThrown message =>
    .error (utf16 "Failed to spawn openclaw: " ++ message) (some (utf16 "spawn_failed"))
  | .spawnEnoent bin cwd =>
    .error (utf16 "spawn ENOENT: either '" ++ bin ++ utf16 "' or cwd '" ++ cwd ++
      utf16 "' is missing. Verify: 'ls -la " ++ bin ++ utf16 "' and 'ls -la " ++ cwd ++
      utf16 "' on the customer box.") (some (utf16 "spawn_enoent"))
  | .spawnOther message => .error (utf16 "Spawn failed: " ++ message) (some (utf16 "spawn_failed"))

/-- One run of the process. -/
structure Run where
  startFailure : Option StartFailure
  sessionKey : JsString
  trajectory : List TrajectoryEvent
  replyText : Option JsString
  exitCode : Nat
  stderr : JsString
  aborted : Bool

/-- `match(/error="?([^"\n]+)"?/)`, the group. -/
def errorField : JsString → Option JsString
  | [] => none
  | a :: s =>
    let value := ((a :: s).drop (utf16 "error=").length)
    let value := (if value.head? = some 34 then value.tail else value).takeWhile
      fun c => c ≠ 34 ∧ c ≠ 10
    if utf16 "error=" <+: a :: s ∧ value ≠ [] then some value else errorField s

/-- The most informative line of the error stream. -/
def exitError (run : Run) : AgentEvent :=
  .error (((errorField run.stderr).orElse fun _ =>
    ((lines (trim run.stderr)).filter (· ≠ [])).getLast?).getD
      (utf16 ("openclaw exited " ++ toString run.exitCode))) none

def startSession (run : Run) : DriverStream where
  events :=
    match run.startFailure with
    | some failure => [failure.event, .done none none]
    | none =>
      let out := mapTrajectory newTrajectoryState run.trajectory
      let reply := run.replyText.filter (· ≠ [])
      .session run.sessionKey :: out.1 ++
        (reply.elim [] fun text =>
          (if 0 < out.2.emittedInterim then [.interimCommitFinal out.2.emittedInterim] else []) ++
            [.textBulk text, .phase .answering]) ++
        (if run.exitCode ≠ 0 ∧ reply = none ∧ run.aborted = false then [exitError run] else []) ++
        [.done (some run.sessionKey) none]
  thrown := none

end OpenClaw

/-! ### Managed agents -/

namespace ManagedAgent

inductive AntBlock where
  | toolUse (name : JsString) (target : Option JsString)
  | toolResult (isError : Bool) (raw : JsString)
  | text (text : JsString)
  | other

/-- A line of the event stream. It is terminal by its type or its stop reason. -/
structure AntEvent where
  blocks : List AntBlock
  terminal : Bool
  result : Option JsString

structure AntMapState where
  emittedInterim : Nat
  lastText : JsString

def newAntMapState : AntMapState := ⟨0, []⟩

def mapBlock (state : AntMapState) : AntBlock → List AgentEvent × AntMapState
  | .toolUse name target =>
    if name = [] then ([], state) else ([.toolUse name (target.map (·.take 80)) none], state)
  | .toolResult isError raw =>
    ([.toolResult none (some (utf16 (if isError then "error" else "success")))
      (some ((trim (squeeze raw)).take 120)) none], state)
  | .text text =>
    if text = [] then ([], state)
    else ([.interimText text], ⟨state.emittedInterim + text.length, state.lastText ++ text⟩)
  | .other => ([], state)

def mapBlocks (state : AntMapState) : List AntBlock → List AgentEvent × AntMapState
  | [] => ([], state)
  | b :: bs =>
    let out := mapBlock state b
    let rest := mapBlocks out.2 bs
    (out.1 ++ rest.1, rest.2)

def mapAntStreamEvent (ev : AntEvent) (state : AntMapState) : List AgentEvent × AntMapState :=
  let out := mapBlocks state ev.blocks
  if ev.terminal then
    let finalText := (ev.result.filter (trim · ≠ [])).getD out.2.lastText
    (out.1 ++
      (if trim finalText = [] then []
        else (if 0 < out.2.emittedInterim then [.interimCommitFinal out.2.emittedInterim] else []) ++
          [.textBulk finalText, .phase .answering]) ++
      [.done none none], out.2)
  else out

/-- The lines are read up to a terminal one; without one, the driver ends the turn. -/
def readLines (sessionId : JsString) (state : AntMapState) : List AntEvent → List AgentEvent
  | [] => [.done (some sessionId) none]
  | ev :: evs =>
    let out := mapAntStreamEvent ev state
    if ev.terminal then out.1 else out.1 ++ readLines sessionId out.2 evs

inductive Run where
  | provisionFailed (message : JsString)
  | createFailed (message : JsString)
  | sendFailed (sessionId message : JsString)
  | streamed (sessionId : JsString) (events : List AntEvent)

def startSession (run : Run) : DriverStream where
  events :=
    match run with
    | .provisionFailed message =>
      [.error (utf16 "Could not provision the managed agent/environment: " ++ message)
        (some (utf16 "managed_provision_failed"))]
    | .createFailed message => [.error (utf16 "Could not create managed session: " ++ message) none]
    | .sendFailed sessionId message =>
      [.session sessionId, .error (utf16 "Send failed: " ++ message) none]
    | .streamed sessionId events => .session sessionId :: readLines sessionId newAntMapState events
  thrown := none

end ManagedAgent

/-! ### Any driver -/

/-- One run of one of the drivers. -/
inductive DriverRun where
  | claudeCode (run : ClaudeCode.CliRun)
  | openclaw (run : OpenClaw.Run)
  | managedAgent (run : ManagedAgent.Run)

def DriverRun.stream : DriverRun → DriverStream
  | .claudeCode run => ClaudeCode.startSession run
  | .openclaw run => OpenClaw.startSession run
  | .managedAgent run => ManagedAgent.startSession run

/-! ### Terminal events -/

/-- The usage with a terminal event. -/
def AgentEvent.terminal? : AgentEvent → Option (Option SpendUsage)
  | .done _ usage => some usage
  | _ => none

/-- The usages with the terminal events of a stream. -/
def DriverStream.terminals (s : DriverStream) : List (Option SpendUsage) :=
  s.events.filterMap (·.terminal?)

theorem absorb_usage (r : TurnResult) (e : AgentEvent) :
    (r.absorb e).usage = e.terminal?.elim r.usage (·.or r.usage) := by
  cases e with
  | text text => by_cases h : text = [] <;> simp [TurnResult.absorb, AgentEvent.terminal?, h]
  | textBulk text => by_cases h : text = [] <;> simp [TurnResult.absorb, AgentEvent.terminal?, h]
  | session sessionId =>
    by_cases h : sessionId = [] <;> simp [TurnResult.absorb, AgentEvent.terminal?, h]
  | _ => rfl

theorem foldl_absorb_usage (events : List AgentEvent) (r : TurnResult) :
    (events.foldl TurnResult.absorb r).usage =
      (events.filterMap (·.terminal?)).foldl (fun usage last => last.or usage) r.usage := by
  induction events generalizing r with
  | nil => rfl
  | cons e events ih =>
    rw [List.foldl_cons, ih, absorb_usage, List.filterMap_cons]
    cases e.terminal? <;> rfl

/-- A turn's usage is the one of its terminal event. -/
theorem runAgentTurn_usage {stream : DriverStream} (h : stream.terminals.length ≤ 1)
    (sessionId : Option JsString) : ∃ usage : Option (Option SpendUsage),
      stream.terminals = usage.toList ∧ (runAgentTurn sessionId stream).usage = usage.join := by
  have husage : (runAgentTurn sessionId stream).usage =
      stream.terminals.foldl (fun usage last => last.or usage) none :=
    foldl_absorb_usage stream.events (.start sessionId)
  rw [husage]
  match hends : stream.terminals with
  | [] => exact ⟨none, rfl, rfl⟩
  | [usage] => exact ⟨some usage, rfl, Option.or_none⟩
  | _ :: _ :: _ =>
    rw [hends] at h
    simp at h

/-- The line of the CLI is a result with its usage or its cost. -/
def ClaudeCode.CliEvent.reportsUsage (e : ClaudeCode.CliEvent) : Bool :=
  match e.message with
  | .result _ _ _ usage totalCostUsd => usage.isSome || totalCostUsd.isSome
  | _ => false

section ClaudeCode

open ClaudeCode

theorem readBlock_quiet (msgId : JsString) (r : Reader) (b : CliBlock) :
    (readBlock msgId r b).1.filterMap (·.terminal?) = [] ∧
      (readBlock msgId r b).2.turnUsage = r.turnUsage := by
  cases b with
  | toolUse name target =>
    simp only [readBlock]
    split <;> exact ⟨rfl, rfl⟩
  | text full =>
    simp only [readBlock]
    split <;> exact ⟨rfl, rfl⟩
  | toolResult | other => exact ⟨rfl, rfl⟩

theorem readBlocks_quiet (msgId : JsString) (r : Reader) (bs : List CliBlock) :
    (readBlocks msgId r bs).1.filterMap (·.terminal?) = [] ∧
      (readBlocks msgId r bs).2.turnUsage = r.turnUsage := by
  induction bs generalizing r with
  | nil => exact ⟨rfl, rfl⟩
  | cons b bs ih =>
    obtain ⟨hfirst, husage⟩ := readBlock_quiet msgId r b
    obtain ⟨hrest, husage'⟩ := ih (readBlock msgId r b).2
    rw [readBlocks, List.filterMap_append, hfirst, hrest]
    exact ⟨rfl, husage'.trans husage⟩

theorem resultAnswer_quiet (r : Reader) (result : Option JsString) :
    (resultAnswer r result).1.filterMap (·.terminal?) = [] ∧
      (resultAnswer r result).2.turnUsage = r.turnUsage := by
  unfold resultAnswer
  dsimp only
  split
  · exact ⟨rfl, rfl⟩
  · refine ⟨?_, rfl⟩
    split <;> rfl

/-- No line is terminal, and those that report usage set it. -/
theorem readMessage_quiet (r : Reader) (sessionId : Option JsString) (m : CliMessage) :
    (readMessage r sessionId m).1.filterMap (·.terminal?) = [] ∧
      (readMessage r sessionId m).2.turnUsage.isSome =
        (CliEvent.reportsUsage ⟨sessionId, m⟩ || r.turnUsage.isSome) := by
  cases m with
  | assistant msgId content =>
    obtain ⟨hquiet, husage⟩ :=
      readBlocks_quiet ((msgId.filter (· ≠ [])).getD (utf16 "msg-default")) r content
    exact ⟨hquiet, congrArg Option.isSome husage⟩
  | user content =>
    refine ⟨?_, rfl⟩
    rw [List.filterMap_eq_nil_iff]
    intro e he
    obtain ⟨b, -, he⟩ := List.mem_flatMap.mp he
    cases b with
    | toolResult => rw [List.mem_singleton.mp he]; rfl
    | _ => cases he
  | result isError apiErrorStatus result usage totalCostUsd =>
    have husage : ∀ r : Reader, (resultUsage r usage totalCostUsd).isSome =
        ((usage.isSome || totalCostUsd.isSome) || r.turnUsage.isSome) := by
      intro r
      unfold resultUsage
      cases usage <;> cases totalCostUsd <;> rfl
    cases isError with
    | true => exact ⟨rfl, husage r⟩
    | false =>
      obtain ⟨hquiet, hkept⟩ := resultAnswer_quiet r result
      exact ⟨hquiet, (husage (resultAnswer r result).2).trans (by rw [hkept]; rfl)⟩
  | systemInit | other => exact ⟨rfl, rfl⟩

theorem readEvent_quiet (r : Reader) (e : CliEvent) :
    (readEvent r e).1.filterMap (·.terminal?) = [] ∧
      (readEvent r e).2.turnUsage.isSome = (e.reportsUsage || r.turnUsage.isSome) := by
  unfold readEvent
  split
  · exact readMessage_quiet r e.sessionId e.message
  · rename_i sessionId _
    exact readMessage_quiet { r with sessionId := some sessionId, sessionYielded := true }
      e.sessionId e.message

theorem readEvents_quiet (r : Reader) (es : List CliEvent) :
    (readEvents r es).1.filterMap (·.terminal?) = [] ∧
      (readEvents r es).2.turnUsage.isSome = (es.any (·.reportsUsage) || r.turnUsage.isSome) := by
  induction es generalizing r with
  | nil => exact ⟨rfl, rfl⟩
  | cons e es ih =>
    obtain ⟨hfirst, husage⟩ := readEvent_quiet r e
    obtain ⟨hrest, husage'⟩ := ih (readEvent r e).2
    rw [readEvents, List.filterMap_append, hfirst, hrest, List.any_cons]
    refine ⟨rfl, husage'.trans ?_⟩
    rw [husage, Bool.or_left_comm, Bool.or_assoc]

/-- A run of the CLI has one terminal event, at its end, unless the CLI did not start. -/
theorem ClaudeCode.startSession_terminals (run : CliRun) :
    (ClaudeCode.startSession run).terminals =
      if run.spawnFailure.isSome then [] else [(readEvents .start run.events).2.turnUsage] := by
  unfold DriverStream.terminals ClaudeCode.startSession
  cases run.spawnFailure with
  | some failure => cases failure <;> rfl
  | none =>
    dsimp only
    rw [List.filterMap_append, List.filterMap_append, (readEvents_quiet .start run.events).1]
    split <;> rfl

end ClaudeCode

section OpenClaw

open OpenClaw

theorem mapSnapshotTools_quiet (state : TrajectoryState) (tools : List SnapshotTool) :
    (mapSnapshotTools state tools).1.filterMap (·.terminal?) = [] := by
  induction tools generalizing state with
  | nil => rfl
  | cons tool tools ih =>
    have hfirst : (mapSnapshotTool state tool).1.filterMap (·.terminal?) = [] := by
      cases tool <;> simp only [mapSnapshotTool] <;> split <;> rfl
    rw [mapSnapshotTools, List.filterMap_append, hfirst, ih]
    rfl

theorem mapTrajectory_quiet (state : TrajectoryState) (es : List TrajectoryEvent) :
    (mapTrajectory state es).1.filterMap (·.terminal?) = [] := by
  induction es generalizing state with
  | nil => rfl
  | cons e es ih =>
    have hfirst : (mapTrajectoryEvent state e).1.filterMap (·.terminal?) = [] := by
      cases e with
      | modelCompleted tools text =>
        have htools := mapSnapshotTools_quiet { state with round := state.round + 1 } tools
        simp only [mapTrajectoryEvent]
        split
        · rw [List.cons_append, List.filterMap_cons, List.filterMap_append, htools]
          rfl
        · rw [List.filterMap_cons, htools]
          rfl
      | sessionStarted | other => rfl
    rw [mapTrajectory, List.filterMap_append, hfirst, ih]
    rfl

/-- OpenClaw's runs have one terminal event, without usage. -/
theorem OpenClaw.startSession_terminals (run : OpenClaw.Run) :
    (OpenClaw.startSession run).terminals = [none] := by
  unfold DriverStream.terminals OpenClaw.startSession
  cases run.startFailure with
  | some failure => cases failure <;> rfl
  | none =>
    have hreply : ((run.replyText.filter (· ≠ [])).elim [] fun text =>
        (if 0 < (mapTrajectory newTrajectoryState run.trajectory).2.emittedInterim then
          [.interimCommitFinal (mapTrajectory newTrajectoryState run.trajectory).2.emittedInterim]
          else []) ++ [.textBulk text, .phase .answering]).filterMap AgentEvent.terminal? = [] := by
      cases run.replyText.filter (· ≠ []) with
      | none => rfl
      | some text => exact (List.filterMap_append ..).trans (by split <;> rfl)
    have herror : ∀ (p : Prop) [Decidable p],
        (if p then [exitError run] else []).filterMap AgentEvent.terminal? = [] := by
      intro p _
      split <;> rfl
    dsimp only
    rw [List.filterMap_append, List.filterMap_append, herror, List.cons_append,
      List.filterMap_cons_none rfl, List.filterMap_append, mapTrajectory_quiet, hreply]
    rfl

end OpenClaw

section ManagedAgent

open ManagedAgent

theorem mapBlocks_quiet (state : AntMapState) (bs : List AntBlock) :
    (mapBlocks state bs).1.filterMap (·.terminal?) = [] := by
  induction bs generalizing state with
  | nil => rfl
  | cons b bs ih =>
    have hfirst : (mapBlock state b).1.filterMap (·.terminal?) = [] := by
      cases b with
      | toolUse name target => simp only [mapBlock]; split <;> rfl
      | text text => simp only [mapBlock]; split <;> rfl
      | toolResult | other => rfl
    rw [mapBlocks, List.filterMap_append, hfirst, ih]
    rfl

theorem mapAntStreamEvent_terminals (ev : AntEvent) (state : AntMapState) :
    (mapAntStreamEvent ev state).1.filterMap (·.terminal?) =
      if ev.terminal then [none] else [] := by
  unfold mapAntStreamEvent
  dsimp only
  split
  · rw [List.filterMap_append, List.filterMap_append, mapBlocks_quiet]
    split
    · rfl
    · rw [List.filterMap_append]
      split <;> rfl
  · exact mapBlocks_quiet state ev.blocks

theorem readLines_terminals (sessionId : JsString) (state : AntMapState) (evs : List AntEvent) :
    (readLines sessionId state evs).filterMap (·.terminal?) = [none] := by
  induction evs generalizing state with
  | nil => rfl
  | cons ev evs ih =>
    have hfirst := mapAntStreamEvent_terminals ev state
    rw [readLines]
    split
    · rw [hfirst, if_pos ‹_›]
    · rw [List.filterMap_append, hfirst, if_neg ‹_›, ih]
      rfl

/-- A managed agent's terminal events have no usage. -/
theorem ManagedAgent.startSession_terminals (run : ManagedAgent.Run) :
    (ManagedAgent.startSession run).terminals =
      match run with
      | .streamed .. => [none]
      | _ => [] := by
  unfold DriverStream.terminals ManagedAgent.startSession
  cases run with
  | streamed sessionId events =>
    dsimp only
    rw [List.filterMap_cons]
    exact readLines_terminals sessionId newAntMapState events
  | _ => rfl

end ManagedAgent

/-- Every driver ends a session at most once. -/
theorem DriverRun.terminals_length_le (run : DriverRun) : run.stream.terminals.length ≤ 1 := by
  cases run with
  | claudeCode cli =>
    rw [DriverRun.stream, ClaudeCode.startSession_terminals]
    split <;> simp
  | openclaw run => rw [DriverRun.stream, OpenClaw.startSession_terminals]; exact le_rfl
  | managedAgent run =>
    rw [DriverRun.stream, ManagedAgent.startSession_terminals]
    cases run <;> simp

/-- Only the claude-code driver reports usage: when the CLI starts and a result of it has
its usage or its cost. -/
theorem DriverRun.reports_iff (run : DriverRun) : (∃ u, some u ∈ run.stream.terminals) ↔
    ∃ cli, run = .claudeCode cli ∧ cli.spawnFailure = none ∧
      cli.events.any (·.reportsUsage) = true := by
  cases run with
  | claudeCode cli =>
    have husage : (ClaudeCode.readEvents .start cli.events).2.turnUsage.isSome =
        cli.events.any (·.reportsUsage) :=
      (readEvents_quiet .start cli.events).2.trans (Bool.or_false _)
    rw [DriverRun.stream, ClaudeCode.startSession_terminals]
    constructor
    · rintro ⟨u, hu⟩
      split at hu
      · cases hu
      · rename_i hspawn
        refine ⟨cli, rfl, by simpa using hspawn, husage.symm.trans ?_⟩
        rw [← List.mem_singleton.mp hu]
        rfl
    · rintro ⟨cli', hcli, hspawn, hreports⟩
      obtain rfl : cli = cli' := DriverRun.claudeCode.inj hcli
      obtain ⟨u, hu⟩ := Option.isSome_iff_exists.mp (husage.trans hreports)
      refine ⟨u, ?_⟩
      rw [hspawn, hu]
      exact List.mem_singleton_self _
  | openclaw run =>
    rw [DriverRun.stream, OpenClaw.startSession_terminals]
    simp
  | managedAgent run =>
    rw [DriverRun.stream, ManagedAgent.startSession_terminals]
    cases run <;> simp

end OsModa.Gateway
