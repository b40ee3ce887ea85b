import OsModa.Gateway.Drivers

/-!
The tool steps that a session of OpenClaw shows, over all its turns.

Each round writes the whole conversation of the session, and of it those steps are shown whose
position is new. The positions are remembered for one turn only: the first round of the next turn
shows the steps of all earlier turns again (`showsOnce_iff`).
-/

namespace OsModa.Gateway

open OsModa.Js

namespace OpenClaw

/-! ### Snapshots -/

inductive SnapshotRole where
  | assistant
  | toolResult
  | other

/-- An object of the content of a message, as far as it is looked at. -/
structure SnapshotBlock where
  /-- Its type is `toolCall` or `tool_use`. -/
  isCall : Bool
  /-- `b.name || b.toolName` -/
  name : Option JsString
  /-- The hint at the input. -/
  target : Option JsString
  isError : Bool
  /-- The text of a result. -/
  raw : JsString

structure SnapshotMessage where
  role : SnapshotRole
  /-- What is no object is `none`. -/
  content : List (Option SnapshotBlock)

/-- The conversation so far; a message that is no object is `none`. -/
abbrev Snapshot := List (Option SnapshotMessage)

def extractBlock (role : SnapshotRole) (key : Nat × Nat) :
    Option SnapshotBlock → Option SnapshotTool
  | none => none
  | some b =>
    match role with
    | .assistant =>
      if b.isCall then (b.name.filter (· ≠ [])).map fun name => .use key name b.target else none
    | .toolResult =>
      some (.result key b.name (utf16 (if b.isError then "error" else "success"))
        ((trim (squeeze b.raw)).take 120))
    | .other => none

/-- The key is message-index + block-index: one assistant message can carry multiple tool calls. -/
def extractMessage (i : Nat) : Option SnapshotMessage → List SnapshotTool
  | none => []
  | some m => m.content.zipIdx.filterMap fun b => extractBlock m.role (i, b.2) b.1

def extractSnapshotTools (messagesSnapshot : Snapshot) : List SnapshotTool :=
  messagesSnapshot.zipIdx.flatMap fun m => extractMessage m.2 m.1

/-- A line of a trajectory file. -/
inductive TrajectoryLine where
  | sessionStarted
  | modelCompleted (messagesSnapshot : Snapshot) (text : JsString)
  | other

namespace TrajectoryLine

def event : TrajectoryLine → TrajectoryEvent
  | .sessionStarted => .sessionStarted
  | .modelCompleted messagesSnapshot text => .modelCompleted (extractSnapshotTools messagesSnapshot) text
  | .other => .other

def snapshot? : TrajectoryLine → Option Snapshot
  | .modelCompleted messagesSnapshot _ => some messagesSnapshot
  | _ => none

end TrajectoryLine

/-! ### Turns of a session -/

/-- A turn: a run of the driver, and the lines that it appends to the file of the session. The
driver starts to read where the file ended before. -/
structure ResumedTurn where
  run : Run
  lines : List TrajectoryLine
  tailed : run.trajectory = lines.map TrajectoryLine.event
  idle : run.startFailure ≠ none → lines = []

namespace ResumedTurn

def snapshots (t : ResumedTurn) : List Snapshot := t.lines.filterMap TrajectoryLine.snapshot?

end ResumedTurn

/-- All snapshots of a session. -/
def snapshotsOf (turns : List ResumedTurn) : List Snapshot := turns.flatMap ResumedTurn.snapshots

/-- Later snapshots extend earlier ones. -/
def Cumulative (turns : List ResumedTurn) : Prop := (snapshotsOf turns).Pairwise (· <+: ·)

/-- What the last snapshot has. -/
def conversation (turns : List ResumedTurn) : Snapshot := (snapshotsOf turns).getLast?.getD []

/-- A tool call or a tool result, as it is shown. -/
inductive ToolStep where
  | use (name : JsString) (target : Option JsString)
  | result (name outcome summary : Option JsString)

def SnapshotTool.step : SnapshotTool → ToolStep
  | .use _ name target => .use name target
  | .result _ name outcome summary => .result name (some outcome) (some summary)

end OpenClaw

def AgentEvent.toolStep? : AgentEvent → Option OpenClaw.ToolStep
  | .toolUse name target _ => some (.use name target)
  | .toolResult name outcome summary _ => some (.result name outcome summary)
  | _ => none

namespace OpenClaw

/-- The tool steps that the turns show. -/
def shownSteps (turns : List ResumedTurn) : List ToolStep :=
  turns.flatMap fun t => (startSession t.run).events.filterMap AgentEvent.toolStep?

/-- What is shown is the tool steps of the conversation, each once and in their order. -/
def ShowsOnce (turns : List ResumedTurn) : Prop :=
  shownSteps turns = (extractSnapshotTools (conversation turns)).map SnapshotTool.step

/-! ### Positions -/

section Positions

/-- A tool of a snapshot by its kind and its position. -/
def SnapshotTool.id : SnapshotTool → Bool × Nat × Nat
  | .use key .. => (true, key)
  | .result key .. => (false, key)

variable {i : Nat} {tool : SnapshotTool}

theorem extractBlock_key {role : SnapshotRole} {key : Nat × Nat} {b : Option SnapshotBlock}
    (h : extractBlock role key b = some tool) : tool.id.2 = key := by
  unfold extractBlock at h
  split at h
  · cases h
  · split at h
    · split at h
      · obtain ⟨name, -, rfl⟩ := Option.map_eq_some_iff.mp h
        rfl
      · cases h
    · cases h
      rfl
    · cases h

theorem extractMessage_key {m : Option SnapshotMessage} (h : tool ∈ extractMessage i m) :
    tool.id.2.1 = i := by
  cases m with
  | none => cases h
  | some m =>
    obtain ⟨b, -, hb⟩ := List.mem_filterMap.mp h
    rw [extractBlock_key hb]

theorem extractMessage_nodup (i : Nat) (m : Option SnapshotMessage) :
    ((extractMessage i m).map SnapshotTool.id).Nodup := by
  cases m with
  | none => exact List.nodup_nil
  | some m =>
    have hplaces : (m.content.zipIdx.map Prod.snd).Nodup := by
      rw [List.zipIdx_map_snd]
      exact List.nodup_range'
    rw [extractMessage, List.nodup_iff_pairwise_ne, List.pairwise_map, List.pairwise_filterMap]
    refine (List.pairwise_map.mp hplaces).imp fun hne tool htool tool' htool' heq => hne ?_
    have hkey : tool.id.2.2 = tool'.id.2.2 := congrArg (·.2.2) heq
    rwa [extractBlock_key htool, extractBlock_key htool'] at hkey

/-- No two tools of a snapshot are of one kind and have one position. -/
theorem extractSnapshotTools_nodup (messages : Snapshot) :
    ((extractSnapshotTools messages).map SnapshotTool.id).Nodup := by
  have hplaces : (messages.zipIdx.map Prod.snd).Nodup := by
    rw [List.zipIdx_map_snd]
    exact List.nodup_range'
  rw [extractSnapshotTools, List.map_flatMap, List.nodup_flatMap]
  refine ⟨fun m _ => extractMessage_nodup m.2 m.1, (List.pairwise_map.mp hplaces).imp ?_⟩
  intro m m' hne id hid hid'
  obtain ⟨tool, htool, rfl⟩ := List.mem_map.mp hid
  obtain ⟨tool', htool', heq⟩ := List.mem_map.mp hid'
  refine hne ?_
  rw [← extractMessage_key htool, ← extractMessage_key htool', heq]

/-- What extends a snapshot has its tools first. -/
theorem extractSnapshotTools_prefix {messages messages' : Snapshot} (h : messages <+: messages') :
    extractSnapshotTools messages <+: extractSnapshotTools messages' := by
  obtain ⟨more, rfl⟩ := h
  rw [extractSnapshotTools, extractSnapshotTools, List.zipIdx_append, List.flatMap_append]
  exact List.prefix_append _ _

end Positions

/-! ### One turn -/

section Turn

variable {state : TrajectoryState} {tool : SnapshotTool} {seen more tools : List SnapshotTool}

/-- The positions that the driver has seen. -/
def TrajectoryState.Seen (state : TrajectoryState) : Bool × Nat × Nat → Prop
  | (true, key) => key ∈ state.seenToolCallIds
  | (false, key) => key ∈ state.seenToolResultIds

/-- These are the tools that the driver has seen. -/
def TrajectoryState.Knows (state : TrajectoryState) (tools : List SnapshotTool) : Prop :=
  ∀ id, state.Seen id ↔ id ∈ tools.map SnapshotTool.id

def stepsOf (events : List AgentEvent) : List ToolStep := events.filterMap AgentEvent.toolStep?

theorem mapSnapshotTool_seen (h : state.Seen tool.id) : mapSnapshotTool state tool = ([], state) := by
  cases tool <;> exact if_pos h

theorem mapSnapshotTool_new (h : ¬ state.Seen tool.id) :
    stepsOf (mapSnapshotTool state tool).1 = [tool.step] ∧
      ∀ id, (mapSnapshotTool state tool).2.Seen id ↔ id = tool.id ∨ state.Seen id := by
  cases tool with
  | use key name target =>
    rw [show mapSnapshotTool state (.use key name target) = _ from if_neg h]
    refine ⟨rfl, ?_⟩
    rintro ⟨_ | _, key'⟩ <;> simp [TrajectoryState.Seen, SnapshotTool.id]
  | result key name outcome summary =>
    rw [show mapSnapshotTool state (.result key name outcome summary) = _ from if_neg h]
    refine ⟨rfl, ?_⟩
    rintro ⟨_ | _, key'⟩ <;> simp [TrajectoryState.Seen, SnapshotTool.id]

theorem mapSnapshotTools_seen (h : ∀ tool ∈ tools, state.Seen tool.id) :
    mapSnapshotTools state tools = ([], state) := by
  induction tools with
  | nil => rfl
  | cons tool tools ih =>
    rw [List.forall_mem_cons] at h
    rw [mapSnapshotTools, mapSnapshotTool_seen h.1, ih h.2]
    rfl

theorem mapSnapshotTools_new (hknows : state.Knows seen)
    (hnodup : ((seen ++ more).map SnapshotTool.id).Nodup) :
    stepsOf (mapSnapshotTools state more).1 = more.map SnapshotTool.step ∧
      (mapSnapshotTools state more).2.Knows (seen ++ more) := by
  induction more generalizing state seen with
  | nil => exact ⟨rfl, by rwa [List.append_nil]⟩
  | cons tool more ih =>
    have hassoc : seen ++ tool :: more = (seen ++ [tool]) ++ more := by simp
    have hunseen : ¬ state.Seen tool.id := by
      rw [hknows, List.mem_map]
      rintro ⟨tool', htool', heq⟩
      rw [List.map_append, List.map_cons] at hnodup
      exact (List.nodup_append.mp hnodup).2.2 _ (List.mem_map_of_mem htool') _ List.mem_cons_self heq
    obtain ⟨hsteps, hseen⟩ := mapSnapshotTool_new hunseen
    have hknows' : (mapSnapshotTool state tool).2.Knows (seen ++ [tool]) := by
      intro id
      rw [hseen, hknows, List.map_append, List.mem_append, List.map_singleton, List.mem_singleton,
        or_comm]
    rw [hassoc] at hnodup ⊢
    obtain ⟨hrest, hlast⟩ := ih hknows' hnodup
    refine ⟨?_, hlast⟩
    rw [mapSnapshotTools, stepsOf, List.filterMap_append]
    exact congrArg₂ (· ++ ·) hsteps hrest

theorem mapSnapshotTools_append (state : TrajectoryState) (tools more : List SnapshotTool) :
    mapSnapshotTools state (tools ++ more) =
      ((mapSnapshotTools state tools).1 ++
          (mapSnapshotTools (mapSnapshotTools state tools).2 more).1,
        (mapSnapshotTools (mapSnapshotTools state tools).2 more).2) := by
  induction tools generalizing state with
  | nil => rfl
  | cons tool tools ih =>
    rw [List.cons_append, mapSnapshotTools, ih, mapSnapshotTools]
    dsimp only
    rw [List.append_assoc]

/-- Of a snapshot that extends what the driver has seen, the rest is shown. -/
theorem mapSnapshotTools_extends (hknows : state.Knows seen)
    (hnodup : ((seen ++ more).map SnapshotTool.id).Nodup) :
    stepsOf (mapSnapshotTools state (seen ++ more)).1 = more.map SnapshotTool.step ∧
      (mapSnapshotTools state (seen ++ more)).2.Knows (seen ++ more) := by
  have hseen : ∀ tool ∈ seen, state.Seen tool.id := fun tool htool =>
    (hknows tool.id).mpr (List.mem_map_of_mem htool)
  rw [mapSnapshotTools_append, mapSnapshotTools_seen hseen]
  exact mapSnapshotTools_new hknows hnodup

theorem mapTrajectoryEvent_modelCompleted (state : TrajectoryState) (tools : List SnapshotTool)
    (text : JsString) :
    stepsOf (mapTrajectoryEvent state (.modelCompleted tools text)).1 =
        stepsOf (mapSnapshotTools { state with round := state.round + 1 } tools).1 ∧
      ∀ id, (mapTrajectoryEvent state (.modelCompleted tools text)).2.Seen id ↔
        (mapSnapshotTools { state with round := state.round + 1 } tools).2.Seen id := by
  rw [mapTrajectoryEvent]
  dsimp only
  split
  · refine ⟨?_, fun id => Iff.rfl⟩
    rw [stepsOf, List.cons_append, List.filterMap_cons_none rfl, List.filterMap_append]
    exact List.append_nil _
  · exact ⟨List.filterMap_cons_none rfl, fun id => Iff.rfl⟩

/-- The lines of a turn show what the last of its snapshots has more than what was seen. -/
theorem mapTrajectory_steps {prev : Snapshot} {lines : List TrajectoryLine}
    (hknows : state.Knows (extractSnapshotTools prev))
    (hextend : (prev :: lines.filterMap TrajectoryLine.snapshot?).Pairwise (· <+: ·)) :
    (extractSnapshotTools prev).map SnapshotTool.step ++
        stepsOf (mapTrajectory state (lines.map TrajectoryLine.event)).1 =
      (extractSnapshotTools ((lines.filterMap TrajectoryLine.snapshot?).getLast?.getD prev)).map
        SnapshotTool.step := by
  induction lines generalizing state prev with
  | nil => exact List.append_nil _
  | cons line lines ih =>
    rw [List.map_cons, mapTrajectory, stepsOf, List.filterMap_append]
    cases line with
    | sessionStarted | other => exact ih hknows hextend
    | modelCompleted messages text =>
      change (prev :: messages :: lines.filterMap TrajectoryLine.snapshot?).Pairwise _ at hextend
      obtain ⟨hprev, hlater⟩ := List.pairwise_cons.mp hextend
      obtain ⟨more, hmore⟩ := extractSnapshotTools_prefix (hprev messages List.mem_cons_self)
      have hnodup := extractSnapshotTools_nodup messages
      rw [← hmore] at hnodup
      have hround : { state with round := state.round + 1 }.Knows (extractSnapshotTools prev) :=
        hknows
      obtain ⟨hsteps, hknown⟩ := mapSnapshotTools_extends hround hnodup
      rw [hmore] at hsteps hknown
      obtain ⟨hevent, hseen⟩ := mapTrajectoryEvent_modelCompleted state
        (extractSnapshotTools messages) text
      have hrest := ih (fun id => (hseen id).trans (hknown id)) hlater
      rw [List.filterMap_cons, TrajectoryLine.snapshot?]
      dsimp only
      rw [List.getLast?_cons, Option.getD_some, ← hrest, ← List.append_assoc]
      refine congrArg (· ++ _) ?_
      rw [← hmore, List.map_append]
      exact congrArg _ (hevent.trans hsteps)

theorem newTrajectoryState_knows : newTrajectoryState.Knows [] := by
  rintro ⟨_ | _, key⟩ <;> simp [TrajectoryState.Seen, newTrajectoryState]

end Turn

/-! ### All turns -/

section Session

variable {t : ResumedTurn} {turns : List ResumedTurn}

/-- Only the trajectory has tool steps. -/
theorem stepsOf_startSession (t : ResumedTurn) : stepsOf (startSession t.run).events =
    stepsOf (mapTrajectory newTrajectoryState (t.lines.map TrajectoryLine.event)).1 := by
  rw [← t.tailed]
  unfold startSession stepsOf
  cases hfailure : t.run.startFailure with
  | some failure =>
    have hlines : t.lines = [] := t.idle (by simp [hfailure])
    rw [t.tailed, hlines]
    cases failure <;> rfl
  | none =>
    dsimp only
    rw [List.filterMap_append, List.filterMap_append, List.cons_append,
      List.filterMap_cons_none rfl, List.filterMap_append]
    have hreply : ∀ (r : Option JsString) (n : Nat), (r.elim [] fun text =>
        (if 0 < n then [.interimCommitFinal n] else []) ++ [.textBulk text, .phase .answering]).filterMap
          AgentEvent.toolStep? = [] := by
      intro r n
      cases r with
      | none => rfl
      | some text => exact (List.filterMap_append ..).trans (by split <;> rfl)
    have herror : ∀ (p : Prop) [Decidable p],
        (if p then [exitError t.run] else []).filterMap AgentEvent.toolStep? = [] := by
      intro p _
      split <;> rfl
    rw [hreply, herror, List.append_nil, List.append_nil]
    exact List.append_nil _

/-- The last snapshot of a turn. -/
def ResumedTurn.last (t : ResumedTurn) : Snapshot := t.snapshots.getLast?.getD []

/-- A turn shows all tools of its last snapshot, whatever turns were before. -/
theorem stepsOf_turn (h : t.snapshots.Pairwise (· <+: ·)) :
    stepsOf (startSession t.run).events = (extractSnapshotTools t.last).map SnapshotTool.step := by
  rw [stepsOf_startSession]
  have hextend : ([] :: t.snapshots).Pairwise (· <+: ·) :=
    List.pairwise_cons.mpr ⟨fun messages _ => List.nil_prefix, h⟩
  exact mapTrajectory_steps newTrajectoryState_knows hextend

theorem last_of_not_snapshots (h : t.snapshots = []) : t.last = [] := by
  rw [ResumedTurn.last, h]
  rfl

/-- All snapshots of a turn are prefixes of the last. -/
theorem prefix_last (h : t.snapshots.Pairwise (· <+: ·)) {messages : Snapshot}
    (hmem : messages ∈ t.snapshots) : messages <+: t.last := by
  obtain ⟨before, after, hsplit⟩ := List.append_of_mem hmem
  rw [ResumedTurn.last, hsplit, List.getLast?_append, List.getLast?_cons]
  rw [hsplit] at h
  have hafter := (List.pairwise_cons.mp (List.pairwise_append.mp h).2.1).1
  cases hlast : after.getLast? with
  | none => exact List.prefix_rfl
  | some messages' => exact hafter messages' (List.mem_of_getLast? hlast)

theorem conversation_cons (t : ResumedTurn) (turns : List ResumedTurn) :
    conversation (t :: turns) =
      if snapshotsOf turns = [] then t.last else conversation turns := by
  unfold conversation snapshotsOf
  rw [List.flatMap_cons, List.getLast?_append]
  split
  · rename_i hnil
    rw [hnil]
    rfl
  · rename_i hne
    obtain ⟨messages, hmessages⟩ := Option.isSome_iff_exists.mp (List.getLast?_isSome.mpr hne)
    rw [hmessages]
    rfl

theorem shownSteps_cons (t : ResumedTurn) (turns : List ResumedTurn) :
    shownSteps (t :: turns) = stepsOf (startSession t.run).events ++ shownSteps turns :=
  List.flatMap_cons

theorem Cumulative.of_cons (h : Cumulative (t :: turns)) :
    t.snapshots.Pairwise (· <+: ·) ∧ Cumulative turns :=
  ⟨(List.pairwise_append.mp h).1, (List.pairwise_append.mp h).2.1⟩

theorem snapshotsOf_eq_nil_iff : snapshotsOf turns = [] ↔ ∀ u ∈ turns, u.snapshots = [] :=
  List.flatMap_eq_nil_iff

theorem shownSteps_eq_nil (h : snapshotsOf turns = []) : shownSteps turns = [] := by
  refine List.flatMap_eq_nil_iff.mpr fun t ht => ?_
  have hnone : t.snapshots = [] := snapshotsOf_eq_nil_iff.mp h t ht
  have hsteps := stepsOf_turn (t := t) (by rw [hnone]; exact List.Pairwise.nil)
  rw [last_of_not_snapshots hnone] at hsteps
  exact hsteps

/-- The last turn with a round shows all there is to show. -/
theorem conversation_suffix_shownSteps (h : Cumulative turns) :
    (extractSnapshotTools (conversation turns)).map SnapshotTool.step <:+ shownSteps turns := by
  induction turns with
  | nil => exact List.nil_suffix
  | cons t turns ih =>
    obtain ⟨ht, hturns⟩ := h.of_cons
    rw [conversation_cons, shownSteps_cons]
    split
    · rename_i hnone
      rw [shownSteps_eq_nil hnone, List.append_nil, stepsOf_turn ht]
    · exact (ih hturns).trans (List.suffix_append _ _)

/-- A turn has tools just when its last snapshot has. -/
theorem noTools_iff (h : t.snapshots.Pairwise (· <+: ·)) :
    (∀ messages ∈ t.snapshots, extractSnapshotTools messages = []) ↔
      extractSnapshotTools t.last = [] := by
  constructor
  · intro hnone
    by_cases hround : t.snapshots = []
    · rw [last_of_not_snapshots hround]
      rfl
    · refine hnone t.last ?_
      rw [ResumedTurn.last, List.getLast?_eq_some_getLast hround]
      exact List.getLast_mem hround
  · intro hlast messages hmessages
    have hprefix := extractSnapshotTools_prefix (prefix_last h hmessages)
    rwa [hlast, List.prefix_nil] at hprefix

/-- Steps that come before all that there is to show are shown too often. -/
theorem append_eq_iff_of_suffix {earlier shown steps : List ToolStep} (h : steps <:+ shown) :
    earlier ++ shown = steps ↔ earlier = [] ∧ shown = steps := by
  constructor
  · intro heq
    have hlength := congrArg List.length heq
    rw [List.length_append] at hlength
    have hsuffix := h.length_le
    obtain rfl : earlier = [] := List.eq_nil_of_length_eq_zero (by omega)
    exact ⟨rfl, heq⟩
  · rintro ⟨rfl, heq⟩
    exact heq

/-- Each step is shown once just when no turn with a round comes after a snapshot with tools of
another turn. -/
theorem showsOnce_iff (h : Cumulative turns) : ShowsOnce turns ↔
    turns.Pairwise fun t u => u.snapshots ≠ [] →
      ∀ messages ∈ t.snapshots, extractSnapshotTools messages = [] := by
  induction turns with
  | nil => exact iff_of_true rfl List.Pairwise.nil
  | cons t turns ih =>
    obtain ⟨ht, hturns⟩ := h.of_cons
    rw [List.pairwise_cons, ← ih hturns]
    unfold ShowsOnce
    rw [conversation_cons, shownSteps_cons, stepsOf_turn ht]
    split
    · rename_i hnone
      refine iff_of_true (by rw [shownSteps_eq_nil hnone, List.append_nil]) ⟨?_, ?_⟩
      · intro u hu hround
        exact absurd (snapshotsOf_eq_nil_iff.mp hnone u hu) hround
      · rw [shownSteps_eq_nil hnone, conversation, hnone]
        rfl
    · rename_i hround
      rw [append_eq_iff_of_suffix (conversation_suffix_shownSteps hturns), List.map_eq_nil_iff,
        ← noTools_iff ht]
      refine and_congr_left fun _ => ⟨fun hnone _ _ _ => hnone, fun hearlier => ?_⟩
      obtain ⟨u, hu, hu'⟩ : ∃ u ∈ turns, u.snapshots ≠ [] := by
        rw [snapshotsOf_eq_nil_iff] at hround
        simpa using hround
      exact hearlier u hu hu'

end Session

/-! ### A session of two turns -/

/-- A turn of one round. -/
def roundTurn (messages : Snapshot) (text : String) : ResumedTurn where
  run := ⟨none, utf16 "ws-default", [.sessionStarted, .modelCompleted (extractSnapshotTools messages)
    (utf16 text), .other], some (utf16 text), 0, [], false⟩
  lines := [.sessionStarted, .modelCompleted messages (utf16 text), .other]
  tailed := rfl
  idle h := absurd rfl h

def greeting : Snapshot := [some ⟨.other, []⟩, some ⟨.assistant, []⟩]

/-- A tool call and its result. -/
def diskCheck : Snapshot :=
  [some ⟨.other, []⟩,
    some ⟨.assistant, [some ⟨true, some (utf16 "shell_exec"), some (utf16 "df -h /"), false, []⟩]⟩,
    some ⟨.toolResult, [some ⟨false, none, none, false, utf16 "30%"⟩]⟩, some ⟨.assistant, []⟩]

/-- Tools in the last turn alone are shown once. -/
theorem lastTurn_showsOnce :
    ShowsOnce [roundTurn greeting "Hello", roundTurn (greeting ++ diskCheck) "30% used"] := by
  have hcumulative : Cumulative
      [roundTurn greeting "Hello", roundTurn (greeting ++ diskCheck) "30% used"] :=
    List.pairwise_pair.mpr (List.prefix_append greeting diskCheck)
  refine (showsOnce_iff hcumulative).mpr (List.pairwise_pair.mpr fun _ messages hmessages => ?_)
  rw [List.mem_singleton.mp hmessages]
  rfl

/-- Tools in the first turn are shown again in the second. -/
theorem firstTurn_not_showsOnce :
    Cumulative [roundTurn diskCheck "30% used", roundTurn (diskCheck ++ greeting) "Hello"] ∧
      ¬ ShowsOnce [roundTurn diskCheck "30% used", roundTurn (diskCheck ++ greeting) "Hello"] := by
  refine ⟨List.pairwise_pair.mpr (List.prefix_append diskCheck greeting), fun honce => ?_⟩
  have hlength : 4 = 2 := congrArg List.length honce
  cases hlength

end OpenClaw

end OsModa.Gateway
