import OsModa.Gateway.ConsumersAgree

/-!
The contract between drivers and those who show their events.

Planning text and the answer have a channel each. A driver streams what the agent writes on the
first one, and promotes the answer: it trims the first channel and sets the second. This keeps the
answer from being shown twice. The three drivers come by their events in three ways, and each run of
each of them keeps the contract, so that the text that a turn collapses to is what the answer
channel shows (`driver_contract`).

For a managed agent all of a turn is determined: it is never an error once the stream is there, also
if the stream breaks off before it has told the answer (`managed_turn`).
-/

namespace OsModa.Gateway

open OsModa.Js

/-! ### The channels -/

/-- What is shown of a turn. -/
structure Channels where
  interim : JsString
  answer : JsString
  deriving DecidableEq

def Channels.show (c : Channels) : AgentEvent → Channels
  | .text delta => { c with answer := c.answer ++ delta }
  | .textBulk answer => { c with answer := answer }
  | .interimText delta => { c with interim := c.interim ++ delta }
  | .interimCommitFinal length =>
    { c with interim := c.interim.take (c.interim.length - length) }
  | _ => c

/-- What is shown after these events. -/
def shown (events : List AgentEvent) : Channels := events.foldl Channels.show ⟨[], []⟩

/-- What those who show the events rely on. -/
structure Contract (events : List AgentEvent) : Prop where
  /-- An answer comes as a whole. -/
  whole : ∀ delta, .text delta ∉ events
  /-- An answer is shown when no planning text is. -/
  promoted : ∀ before answer after, events = before ++ .textBulk answer :: after →
    (shown before).interim = [] ∧ answer ≠ []
  done : DoneLast events

/-! ### Events that keep it -/

/-- What the contract asks of an event when this is shown. -/
def Channels.Admits (c : Channels) : AgentEvent → Prop
  | .text _ => False
  | .textBulk answer => c.interim = [] ∧ answer ≠ []
  | _ => True

def Channels.AdmitsAll (c : Channels) : List AgentEvent → Prop
  | [] => True
  | e :: es => c.Admits e ∧ (c.show e).AdmitsAll es

/-- The events keep the contract, where at most `n` units of planning text are shown before them,
and at most `n'` after them. -/
def Streams (n : Nat) (events : List AgentEvent) (n' : Nat) : Prop :=
  ∀ c : Channels, c.interim.length ≤ n →
    c.AdmitsAll events ∧ (events.foldl Channels.show c).interim.length ≤ n'

/-- An event that neither channel shows. -/
def AgentEvent.isSilent : AgentEvent → Bool
  | .text _ | .textBulk _ | .interimText _ | .interimCommitFinal _ => false
  | _ => true

theorem Channels.show_of_isSilent {e : AgentEvent} (h : e.isSilent = true) (c : Channels) :
    c.show e = c ∧ c.Admits e := by
  cases e with
  | text | textBulk | interimText | interimCommitFinal => cases h
  | _ => exact ⟨rfl, trivial⟩

theorem Channels.admitsAll_append (c : Channels) (es es' : List AgentEvent) :
    c.AdmitsAll (es ++ es') ↔ c.AdmitsAll es ∧ (es.foldl Channels.show c).AdmitsAll es' := by
  induction es generalizing c with
  | nil => exact (and_iff_right trivial).symm
  | cons e es ih => exact (and_congr_right fun _ => ih (c.show e)).trans and_assoc.symm

section Streams

variable {n n' n'' : Nat} {first second events : List AgentEvent}

theorem Streams.append (h : Streams n first n') (h' : Streams n' second n'') :
    Streams n (first ++ second) n'' := by
  intro c hc
  obtain ⟨hfirst, hlength⟩ := h c hc
  obtain ⟨hsecond, hlength'⟩ := h' _ hlength
  rw [Channels.admitsAll_append, List.foldl_append]
  exact ⟨⟨hfirst, hsecond⟩, hlength'⟩

theorem streams_nil (n : Nat) : Streams n [] n := fun _ hc => ⟨trivial, hc⟩

theorem streams_of_isSilent (h : ∀ e ∈ events, e.isSilent = true) : Streams n events n := by
  induction events with
  | nil => exact streams_nil n
  | cons e es ih =>
    obtain ⟨he, hes⟩ := List.forall_mem_cons.mp h
    intro c hc
    obtain ⟨hshow, hadmits⟩ := Channels.show_of_isSilent he c
    rw [Channels.AdmitsAll, List.foldl_cons, hshow]
    exact ⟨⟨hadmits, (ih hes c hc).1⟩, (ih hes c hc).2⟩

theorem streams_singleton (n : Nat) {e : AgentEvent} (h : e.isSilent = true) : Streams n [e] n :=
  streams_of_isSilent (List.forall_mem_singleton.mpr h)

/-- An error that is yielded if there is a reason to. -/
theorem streams_ite (n : Nat) (p : Prop) [Decidable p] {e : AgentEvent} (h : e.isSilent = true) :
    Streams n (if p then [e] else []) n := by
  split
  · exact streams_singleton n h
  · exact streams_nil _

theorem streams_interim (n : Nat) (delta : JsString) :
    Streams n [.interimText delta] (n + delta.length) := by
  intro c hc
  refine ⟨⟨trivial, trivial⟩, ?_⟩
  change (c.interim ++ delta).length ≤ n + delta.length
  rw [List.length_append]
  exact Nat.add_le_add_right hc _

/-- A promotion that trims all that was streamed. -/
theorem streams_promotion (n : Nat) {answer : JsString} (hanswer : answer ≠ []) :
    Streams n ((if 0 < n then [.interimCommitFinal n] else []) ++
      [.textBulk answer, .phase .answering]) n := by
  intro c hc
  by_cases hn : 0 < n
  · have htrim : c.interim.take (c.interim.length - n) = [] := by
      rw [Nat.sub_eq_zero_of_le hc, List.take_zero]
    rw [if_pos hn]
    refine ⟨⟨trivial, ⟨htrim, hanswer⟩, trivial, trivial⟩, ?_⟩
    change (c.interim.take (c.interim.length - n)).length ≤ n
    rw [htrim]
    exact Nat.zero_le n
  · have hempty : c.interim = [] :=
      List.eq_nil_of_length_eq_zero (Nat.le_zero.mp (hc.trans (Nat.le_of_not_lt hn)))
    rw [if_neg hn]
    exact ⟨⟨⟨hempty, hanswer⟩, trivial, trivial⟩, hc⟩

theorem Streams.contract (h : Streams 0 events n) (hdone : DoneLast events) : Contract events := by
  have hadmits : Channels.AdmitsAll ⟨[], []⟩ events := (h ⟨[], []⟩ (Nat.le_refl 0)).1
  refine ⟨fun delta hmem => ?_, ?_, hdone⟩
  · obtain ⟨before, after, rfl⟩ := List.append_of_mem hmem
    exact ((Channels.admitsAll_append _ _ _).mp hadmits).2.1
  · rintro before answer after rfl
    exact ((Channels.admitsAll_append _ _ _).mp hadmits).2.1

end Streams

theorem doneLast_concat {events : List AgentEvent} (h : events.filterMap (·.terminal?) = [])
    (e : AgentEvent) : DoneLast (events ++ [e]) := by
  refine doneLast_of_dropLast fun e' he' => ?_
  rw [List.dropLast_concat] at he'
  rw [List.filterMap_eq_nil_iff.mp h e' he']
  rfl

/-! ### claude-code -/

section ClaudeCode

open ClaudeCode

theorem streams_readBlock (msgId : JsString) (r : Reader) (b : CliBlock) :
    Streams r.emittedInterim (readBlock msgId r b).1 (readBlock msgId r b).2.emittedInterim := by
  cases b with
  | toolUse name target =>
    simp only [readBlock]
    split
    · exact streams_nil _
    · exact streams_singleton _ rfl
  | text full =>
    simp only [readBlock]
    split
    · exact streams_interim r.emittedInterim _
    · exact streams_nil _
  | toolResult | other => exact streams_nil _

theorem streams_readBlocks (msgId : JsString) (r : Reader) (bs : List CliBlock) :
    Streams r.emittedInterim (readBlocks msgId r bs).1 (readBlocks msgId r bs).2.emittedInterim := by
  induction bs generalizing r with
  | nil => exact streams_nil _
  | cons b bs ih => exact (streams_readBlock msgId r b).append (ih (readBlock msgId r b).2)

theorem streams_resultAnswer (r : Reader) (result : Option JsString) :
    Streams r.emittedInterim (resultAnswer r result).1 (resultAnswer r result).2.emittedInterim := by
  unfold resultAnswer
  dsimp only
  split
  · exact streams_nil _
  · rename_i hanswer
    refine streams_promotion r.emittedInterim fun hnil => hanswer ?_
    rw [hnil]
    rfl

theorem streams_readMessage (r : Reader) (sessionId : Option JsString) (m : CliMessage) :
    Streams r.emittedInterim (readMessage r sessionId m).1
      (readMessage r sessionId m).2.emittedInterim := by
  cases m with
  | assistant id content => exact streams_readBlocks _ r content
  | user content =>
    refine streams_of_isSilent fun e he => ?_
    obtain ⟨b, -, he⟩ := List.mem_flatMap.mp he
    cases b with
    | toolResult => rw [List.mem_singleton.mp he]; rfl
    | _ => cases he
  | result isError apiErrorStatus result usage totalCostUsd =>
    cases isError with
    | true => exact streams_singleton _ rfl
    | false => exact streams_resultAnswer r result
  | systemInit | other => exact streams_nil _

theorem streams_readEvents (r : Reader) (es : List CliEvent) :
    Streams r.emittedInterim (readEvents r es).1 (readEvents r es).2.emittedInterim := by
  induction es generalizing r with
  | nil => exact streams_nil _
  | cons e es ih =>
    have hfirst : Streams r.emittedInterim (readEvent r e).1 (readEvent r e).2.emittedInterim := by
      unfold readEvent
      split
      · exact streams_readMessage r e.sessionId e.message
      · rename_i sessionId _
        have hsession : Streams r.emittedInterim [.session sessionId] r.emittedInterim :=
          streams_singleton _ rfl
        exact hsession.append (streams_readMessage
          { r with sessionId := some sessionId, sessionYielded := true } e.sessionId e.message)
    exact hfirst.append (ih (readEvent r e).2)

theorem ClaudeCode.contract (run : CliRun) : Contract (startSession run).events := by
  unfold startSession
  cases run.spawnFailure with
  | some failure =>
    have hsilent : failure.event.isSilent = true := by cases failure <;> rfl
    exact (streams_singleton 0 hsilent).contract (@doneLast_concat [] rfl _)
  | none =>
    dsimp only
    have hread := streams_readEvents .start run.events
    have hexit : (if run.exitCode ≠ 0 ∧ (readEvents .start run.events).2.hasOutput = false ∧
        run.aborted = false then [exitError run] else []).filterMap AgentEvent.terminal? = [] := by
      split <;> rfl
    refine ((hread.append (streams_ite _ _ rfl)).append (streams_singleton _ rfl)).contract ?_
    refine doneLast_concat ?_ _
    rw [List.filterMap_append, (readEvents_quiet .start run.events).1, hexit]
    rfl

end ClaudeCode

/-! ### OpenClaw -/

section OpenClaw

open OpenClaw

theorem mapSnapshotTools_silent (state : TrajectoryState) (tools : List SnapshotTool) :
    (∀ e ∈ (mapSnapshotTools state tools).1, e.isSilent = true) ∧
      (mapSnapshotTools state tools).2.emittedInterim = state.emittedInterim := by
  induction tools generalizing state with
  | nil => exact ⟨List.forall_mem_nil _, rfl⟩
  | cons tool tools ih =>
    have hfirst : (∀ e ∈ (mapSnapshotTool state tool).1, e.isSilent = true) ∧
        (mapSnapshotTool state tool).2.emittedInterim = state.emittedInterim := by
      cases tool with
      | use key name target =>
        simp only [mapSnapshotTool]
        split
        · exact ⟨List.forall_mem_nil _, rfl⟩
        · exact ⟨List.forall_mem_singleton.mpr rfl, rfl⟩
      | result key name outcome summary =>
        simp only [mapSnapshotTool]
        split
        · exact ⟨List.forall_mem_nil _, rfl⟩
        · exact ⟨List.forall_mem_singleton.mpr rfl, rfl⟩
    obtain ⟨hrest, hemitted⟩ := ih (mapSnapshotTool state tool).2
    exact ⟨List.forall_mem_append.mpr ⟨hfirst.1, hrest⟩, hemitted.trans hfirst.2⟩

theorem streams_mapTrajectoryEvent (state : TrajectoryState) (e : TrajectoryEvent) :
    Streams state.emittedInterim (mapTrajectoryEvent state e).1
      (mapTrajectoryEvent state e).2.emittedInterim := by
  cases e with
  | sessionStarted => exact streams_singleton _ rfl
  | other => exact streams_nil _
  | modelCompleted tools text =>
    obtain ⟨hsilent, hemitted⟩ :=
      mapSnapshotTools_silent { state with round := state.round + 1 } tools
    have hstep : ∀ step, Streams state.emittedInterim (.status step ::
        (mapSnapshotTools { state with round := state.round + 1 } tools).1)
          state.emittedInterim := fun step =>
      streams_of_isSilent (List.forall_mem_cons.mpr ⟨rfl, hsilent⟩)
    simp only [mapTrajectoryEvent]
    rw [hemitted]
    split
    · rename_i hnew
      have htotal : state.emittedInterim + (text.drop state.emittedInterim).length = text.length := by
        rw [List.length_drop]
        exact Nat.add_sub_cancel' (Nat.le_of_lt hnew)
      have htext := streams_interim state.emittedInterim (text.drop state.emittedInterim)
      rw [htotal] at htext
      exact (hstep _).append htext
    · rw [hemitted]
      exact hstep _

theorem streams_mapTrajectory (state : TrajectoryState) (es : List TrajectoryEvent) :
    Streams state.emittedInterim (mapTrajectory state es).1
      (mapTrajectory state es).2.emittedInterim := by
  induction es generalizing state with
  | nil => exact streams_nil _
  | cons e es ih =>
    exact (streams_mapTrajectoryEvent state e).append (ih (mapTrajectoryEvent state e).2)

theorem OpenClaw.contract (run : OpenClaw.Run) : Contract (OpenClaw.startSession run).events := by
  have hterminals := OpenClaw.startSession_terminals run
  unfold DriverStream.terminals at hterminals
  unfold OpenClaw.startSession at hterminals ⊢
  cases hfailure : run.startFailure with
  | some failure =>
    have hsilent : failure.event.isSilent = true := by cases failure <;> rfl
    have hquiet : [failure.event].filterMap AgentEvent.terminal? = [] := by cases failure <;> rfl
    refine (streams_of_isSilent (n := 0)
      (List.forall_mem_cons.mpr ⟨hsilent, List.forall_mem_singleton.mpr rfl⟩)).contract ?_
    exact doneLast_concat hquiet _
  | none =>
    rw [hfailure] at hterminals
    dsimp only at hterminals ⊢
    have hreply : ∀ n, Streams n ((run.replyText.filter (· ≠ [])).elim [] fun text =>
        (if 0 < n then [.interimCommitFinal n] else []) ++ [.textBulk text, .phase .answering]) n := by
      intro n
      cases hfilter : run.replyText.filter (· ≠ []) with
      | none => exact streams_nil _
      | some text =>
        exact streams_promotion n (of_decide_eq_true (Option.filter_eq_some_iff.mp hfilter).2)
    have hread := (streams_singleton 0 (e := .session run.sessionKey) rfl).append
      (streams_mapTrajectory newTrajectoryState run.trajectory)
    refine (((hread.append (hreply _)).append (streams_ite _ _ rfl)).append
      (streams_singleton _ rfl)).contract ?_
    refine doneLast_concat ?_ _
    rw [List.filterMap_append] at hterminals
    exact (List.append_eq_singleton_iff.mp hterminals).elim (·.1) fun h => nomatch h.2

end OpenClaw

/-! ### Managed agents -/

def AgentEvent.isToolUse : AgentEvent → Bool
  | .toolUse .. => true
  | _ => false

namespace ManagedAgent

/-- The text that a block adds. -/
def AntBlock.said : AntBlock → JsString
  | .text added => added
  | .toolUse _ _ | .toolResult _ _ | .other => []

/-- All that the agent wrote. -/
def said (evs : List AntEvent) : JsString := (evs.flatMap (·.blocks)).flatMap AntBlock.said

def AntBlock.isNamedTool : AntBlock → Bool
  | .toolUse name _ => name ≠ []
  | .toolResult _ _ | .text _ | .other => false

/-- The lines that are read: those after a terminal one are not. -/
def readPart : List AntEvent → List AntEvent
  | [] => []
  | ev :: evs => if ev.terminal then [ev] else ev :: readPart evs

/-- The answer that a terminal line tells, of an agent that wrote this; empty if it tells none. -/
def AntEvent.answer (ev : AntEvent) (text : JsString) : JsString :=
  let final := (ev.result.filter (trim · ≠ [])).getD text
  if trim final = [] then [] else final

/-- The answer of a stream, after these lines; empty if there is none. -/
def answerAfter (past evs : List AntEvent) : JsString :=
  ((readPart evs).find? (·.terminal)).elim [] (·.answer (said (past ++ readPart evs)))

section Spec

variable {state : AntMapState} {past evs : List AntEvent}

theorem said_append (evs evs' : List AntEvent) : said (evs ++ evs') = said evs ++ said evs' := by
  simp only [said, List.flatMap_append]

/-- What the state is after lines. -/
def stateAfter (past : List AntEvent) : AntMapState := ⟨(said past).length, said past⟩

theorem foldl_mapBlocks (state : AntMapState) (bs : List AntBlock) (answer : JsString) :
    (mapBlocks state bs).1.foldl Channels.show ⟨state.lastText, answer⟩ =
      ⟨(mapBlocks state bs).2.lastText, answer⟩ := by
  induction bs generalizing state with
  | nil => rfl
  | cons b bs ih =>
    have hfirst : (mapBlock state b).1.foldl Channels.show ⟨state.lastText, answer⟩ =
        ⟨(mapBlock state b).2.lastText, answer⟩ := by
      cases b with
      | toolUse name target =>
        simp only [mapBlock]
        split <;> rfl
      | text text =>
        simp only [mapBlock]
        split <;> rfl
      | toolResult | other => rfl
    rw [mapBlocks, List.foldl_append, hfirst, ih]

theorem mapBlocks_state (past : List AntEvent) (bs : List AntBlock) :
    (mapBlocks (stateAfter past) bs).2 =
      ⟨(said past ++ bs.flatMap AntBlock.said).length, said past ++ bs.flatMap AntBlock.said⟩ := by
  have hall : ∀ (text : JsString), (mapBlocks ⟨text.length, text⟩ bs).2 =
      ⟨(text ++ bs.flatMap AntBlock.said).length, text ++ bs.flatMap AntBlock.said⟩ := by
    induction bs with
    | nil =>
      intro text
      rw [List.flatMap_nil, List.append_nil]
      rfl
    | cons b bs ih =>
      intro text
      have hfirst : (mapBlock ⟨text.length, text⟩ b).2 =
          ⟨(text ++ b.said).length, text ++ b.said⟩ := by
        cases b with
        | toolUse name target =>
          simp only [mapBlock]
          split <;> simp [AntBlock.said]
        | text added =>
          simp only [mapBlock, List.length_append, AntBlock.said]
          split
          · rename_i hnil
            simp [hnil]
          · rfl
        | toolResult | other => simp [mapBlock, AntBlock.said]
      rw [mapBlocks, hfirst, ih, List.flatMap_cons, List.append_assoc]
  exact hall (said past)

/-- A promotion of all that is shown. -/
theorem foldl_promotion (text final : JsString) :
    List.foldl Channels.show ⟨text, []⟩
      ((if 0 < text.length then [.interimCommitFinal text.length] else []) ++
        [.textBulk final, .phase .answering] ++ [.done none none]) = ⟨[], final⟩ := by
  cases text with
  | nil => rfl
  | cons a text =>
    rw [if_pos (show 0 < (a :: text).length from Nat.succ_pos _)]
    change (⟨(a :: text).take ((a :: text).length - (a :: text).length), final⟩ : Channels) = _
    rw [Nat.sub_self, List.take_zero]

theorem stateAfter_mapBlocks (past : List AntEvent) (ev : AntEvent) :
    (mapBlocks (stateAfter past) ev.blocks).2 = stateAfter (past ++ [ev]) := by
  rw [mapBlocks_state, stateAfter, said_append, said, said, List.flatMap_singleton]

/-- What the channels show of a line. -/
theorem foldl_mapAntStreamEvent (past : List AntEvent) (ev : AntEvent) :
    (mapAntStreamEvent ev (stateAfter past)).1.foldl Channels.show ⟨said past, []⟩ =
      if ev.terminal = true ∧ ev.answer (said (past ++ [ev])) ≠ [] then
        ⟨[], ev.answer (said (past ++ [ev]))⟩
      else ⟨said (past ++ [ev]), []⟩ := by
  have hblocks := foldl_mapBlocks (stateAfter past) ev.blocks []
  rw [stateAfter_mapBlocks] at hblocks
  change (mapBlocks (stateAfter past) ev.blocks).1.foldl Channels.show ⟨said past, []⟩ =
    ⟨said (past ++ [ev]), []⟩ at hblocks
  unfold mapAntStreamEvent
  dsimp only
  rw [stateAfter_mapBlocks]
  cases ev.terminal with
  | false =>
    rw [if_neg Bool.false_ne_true, if_neg fun h => Bool.false_ne_true h.1]
    exact hblocks
  | true =>
    rw [if_pos rfl, List.append_assoc, List.foldl_append, hblocks]
    simp only [true_and]
    unfold AntEvent.answer
    dsimp only
    rw [show (stateAfter (past ++ [ev])).lastText = said (past ++ [ev]) from rfl]
    generalize (ev.result.filter (trim · ≠ [])).getD (said (past ++ [ev])) = final
    by_cases hfinal : trim final = []
    · rw [if_pos hfinal, if_pos hfinal, if_neg (not_not.mpr rfl)]
      rfl
    · have hne : final ≠ [] := fun hnil => hfinal (by rw [hnil]; rfl)
      rw [if_neg hfinal, if_neg hfinal, if_pos hne]
      exact foldl_promotion (said (past ++ [ev])) final

/-- The channels after the lines that are read. -/
theorem foldl_readLines (sessionId : JsString) (past evs : List AntEvent) :
    (readLines sessionId (stateAfter past) evs).foldl Channels.show ⟨said past, []⟩ =
      if answerAfter past evs = [] then ⟨said (past ++ readPart evs), []⟩
      else ⟨[], answerAfter past evs⟩ := by
  induction evs generalizing past with
  | nil =>
    rw [readPart, List.append_nil, if_pos (show answerAfter past [] = [] from rfl)]
    rfl
  | cons ev evs ih =>
    have hline := foldl_mapAntStreamEvent past ev
    rw [readLines, readPart]
    by_cases hterminal : ev.terminal = true
    · have hanswer : answerAfter past (ev :: evs) = ev.answer (said (past ++ [ev])) := by
        rw [answerAfter, readPart, if_pos hterminal, List.find?_cons_of_pos hterminal]
        rfl
      rw [if_pos hterminal, if_pos hterminal, hline, hanswer]
      by_cases hnone : ev.answer (said (past ++ [ev])) = []
      · rw [if_pos hnone, if_neg fun h => h.2 hnone]
      · rw [if_neg hnone, if_pos ⟨hterminal, hnone⟩]
    · have hrest : past ++ ev :: readPart evs = past ++ [ev] ++ readPart evs := by
        rw [List.append_assoc, List.singleton_append]
      have hanswer : answerAfter past (ev :: evs) = answerAfter (past ++ [ev]) evs := by
        rw [answerAfter, readPart, if_neg hterminal, List.find?_cons_of_neg hterminal, hrest]
        rfl
      have hstate : (mapAntStreamEvent ev (stateAfter past)).2 = stateAfter (past ++ [ev]) := by
        rw [mapAntStreamEvent, if_neg hterminal, stateAfter_mapBlocks]
      rw [if_neg fun h => hterminal h.1] at hline
      rw [if_neg hterminal, if_neg hterminal, List.foldl_append, hline, hstate, ih, hanswer, hrest]

/-- What a turn counts of blocks, and that they are no errors. -/
theorem mapBlocks_tools (state : AntMapState) (bs : List AntBlock) :
    (mapBlocks state bs).1.countP (·.isToolUse) = bs.countP AntBlock.isNamedTool ∧
      ∀ e ∈ (mapBlocks state bs).1, e.isError = false := by
  induction bs generalizing state with
  | nil => exact ⟨rfl, List.forall_mem_nil _⟩
  | cons b bs ih =>
    have hfirst : (mapBlock state b).1.countP (·.isToolUse) = [b].countP AntBlock.isNamedTool ∧
        ∀ e ∈ (mapBlock state b).1, e.isError = false := by
      cases b with
      | toolUse name target =>
        simp only [mapBlock]
        split
        · rename_i hnil
          exact ⟨by simp [AntBlock.isNamedTool, hnil], List.forall_mem_nil _⟩
        · rename_i hnamed
          exact ⟨by simp [AntBlock.isNamedTool, AgentEvent.isToolUse, hnamed],
            List.forall_mem_singleton.mpr rfl⟩
      | text added =>
        simp only [mapBlock]
        split
        · exact ⟨rfl, List.forall_mem_nil _⟩
        · exact ⟨rfl, List.forall_mem_singleton.mpr rfl⟩
      | toolResult isError raw => exact ⟨rfl, List.forall_mem_singleton.mpr rfl⟩
      | other => exact ⟨rfl, List.forall_mem_nil _⟩
    obtain ⟨hcount, herrors⟩ := ih (mapBlock state b).2
    rw [mapBlocks, List.countP_append, hfirst.1, hcount, ← List.countP_append]
    exact ⟨rfl, List.forall_mem_append.mpr ⟨hfirst.2, herrors⟩⟩

theorem mapAntStreamEvent_tools (ev : AntEvent) (state : AntMapState) :
    (mapAntStreamEvent ev state).1.countP (·.isToolUse) =
        ev.blocks.countP AntBlock.isNamedTool ∧
      ∀ e ∈ (mapAntStreamEvent ev state).1, e.isError = false := by
  obtain ⟨hcount, herrors⟩ := mapBlocks_tools state ev.blocks
  unfold mapAntStreamEvent
  dsimp only
  split
  · have hanswer : ∀ (p q : Prop) [Decidable p] [Decidable q] (n : Nat) (final : JsString),
        List.countP (fun e : AgentEvent => e.isToolUse) (if p then [] else
            (if q then [.interimCommitFinal n] else []) ++ [.textBulk final, .phase .answering]) = 0 ∧
          ∀ e ∈ (if p then [] else
            (if q then [.interimCommitFinal n] else []) ++ [.textBulk final, .phase .answering] :
              List AgentEvent), e.isError = false := by
      intro p q _ _ n final
      split
      · exact ⟨rfl, List.forall_mem_nil _⟩
      · split <;> exact ⟨rfl, by simp [AgentEvent.isError]⟩
    rw [List.countP_append, List.countP_append, hcount, (hanswer _ _ _ _).1]
    refine ⟨rfl, ?_⟩
    rw [List.forall_mem_append, List.forall_mem_append]
    exact ⟨⟨herrors, (hanswer _ _ _ _).2⟩, List.forall_mem_singleton.mpr rfl⟩
  · exact ⟨hcount, herrors⟩

theorem readLines_tools (sessionId : JsString) (state : AntMapState) (evs : List AntEvent) :
    (readLines sessionId state evs).countP (·.isToolUse) =
        ((readPart evs).flatMap (·.blocks)).countP AntBlock.isNamedTool ∧
      ∀ e ∈ readLines sessionId state evs, e.isError = false := by
  induction evs generalizing state with
  | nil => exact ⟨rfl, List.forall_mem_singleton.mpr rfl⟩
  | cons ev evs ih =>
    obtain ⟨hcount, herrors⟩ := mapAntStreamEvent_tools ev state
    rw [readLines, readPart]
    split
    · rw [List.flatMap_singleton]
      exact ⟨hcount, herrors⟩
    · obtain ⟨hcount', herrors'⟩ := ih (mapAntStreamEvent ev state).2
      rw [List.countP_append, List.flatMap_cons, List.countP_append, hcount, hcount']
      exact ⟨rfl, List.forall_mem_append.mpr ⟨herrors, herrors'⟩⟩

end Spec

section Contract

theorem streams_mapBlocks (state : AntMapState) (bs : List AntBlock) :
    Streams state.emittedInterim (mapBlocks state bs).1 (mapBlocks state bs).2.emittedInterim := by
  induction bs generalizing state with
  | nil => exact streams_nil _
  | cons b bs ih =>
    have hfirst : Streams state.emittedInterim (mapBlock state b).1
        (mapBlock state b).2.emittedInterim := by
      cases b with
      | toolUse name target =>
        simp only [mapBlock]
        split
        · exact streams_nil _
        · exact streams_singleton _ rfl
      | text added =>
        simp only [mapBlock]
        split
        · exact streams_nil _
        · exact streams_interim _ added
      | toolResult isError raw => exact streams_singleton _ rfl
      | other => exact streams_nil _
    exact hfirst.append (ih (mapBlock state b).2)

theorem streams_mapAntStreamEvent (ev : AntEvent) (state : AntMapState) :
    Streams state.emittedInterim (mapAntStreamEvent ev state).1
      (mapAntStreamEvent ev state).2.emittedInterim := by
  have hblocks := streams_mapBlocks state ev.blocks
  unfold mapAntStreamEvent
  dsimp only
  split
  · refine (hblocks.append ?_).append (streams_singleton _ rfl)
    split
    · exact streams_nil _
    · rename_i hfinal
      exact streams_promotion _ fun hnil => hfinal (by rw [hnil]; rfl)
  · exact hblocks

theorem streams_readLines (sessionId : JsString) (state : AntMapState) (evs : List AntEvent) :
    ∃ n, Streams state.emittedInterim (readLines sessionId state evs) n := by
  induction evs generalizing state with
  | nil => exact ⟨_, streams_singleton _ rfl⟩
  | cons ev evs ih =>
    have hline := streams_mapAntStreamEvent ev state
    rw [readLines]
    split
    · exact ⟨_, hline⟩
    · obtain ⟨n, hrest⟩ := ih (mapAntStreamEvent ev state).2
      exact ⟨n, hline.append hrest⟩

theorem readLines_concat (sessionId : JsString) (state : AntMapState) (evs : List AntEvent) :
    ∃ events e, readLines sessionId state evs = events ++ [e] ∧ e.terminal?.isSome = true := by
  induction evs generalizing state with
  | nil => exact ⟨[], _, rfl, rfl⟩
  | cons ev evs ih =>
    rw [readLines]
    split
    · rename_i hterminal
      rw [mapAntStreamEvent, if_pos hterminal]
      exact ⟨_, _, rfl, rfl⟩
    · obtain ⟨events, e, hrest, hdone⟩ := ih (mapAntStreamEvent ev state).2
      exact ⟨(mapAntStreamEvent ev state).1 ++ events, e, by rw [hrest, List.append_assoc], hdone⟩

theorem contract (run : Run) : Contract (startSession run).events := by
  have hsilent : ∀ events : List AgentEvent, (∀ e ∈ events, e.isSilent = true) →
      events.filterMap (·.terminal?) = [] → Contract events := by
    intro events hevents hquiet
    refine (streams_of_isSilent (n := 0) hevents).contract (doneLast_of_dropLast fun e he => ?_)
    rw [List.filterMap_eq_nil_iff.mp hquiet e (List.dropLast_subset _ he)]
    rfl
  cases run with
  | provisionFailed message | createFailed message =>
    exact hsilent _ (List.forall_mem_singleton.mpr rfl) rfl
  | sendFailed sessionId message =>
    exact hsilent _ (List.forall_mem_cons.mpr ⟨rfl, List.forall_mem_singleton.mpr rfl⟩) rfl
  | streamed sessionId evs =>
    obtain ⟨n, hread⟩ := streams_readLines sessionId newAntMapState evs
    obtain ⟨events, e, hconcat, hdone⟩ := readLines_concat sessionId newAntMapState evs
    have hterminals := readLines_terminals sessionId newAntMapState evs
    refine ((streams_singleton 0 (e := .session sessionId) rfl).append hread).contract ?_
    rw [hconcat] at hterminals ⊢
    refine @doneLast_concat (.session sessionId :: events) ?_ e
    obtain ⟨usage, husage⟩ := Option.isSome_iff_exists.mp hdone
    rw [List.filterMap_append, List.filterMap_cons_some husage, List.filterMap_nil] at hterminals
    exact (List.append_inj' (show _ ++ [usage] = [] ++ [none] from hterminals) rfl).1

end Contract

end ManagedAgent

/-! ### Any driver -/

/-- Where answers come as wholes that are not empty, collapsing the events gives what the answer
channel shows. -/
theorem answer_eq_shown {events : List AgentEvent} (h : Contract events) (before : List AgentEvent)
    (hinitial : before <+: events) : before.foldl AgentEvent.answer [] = (shown before).answer := by
  induction before using List.reverseRecOn with
  | nil => rfl
  | append_singleton before e ih =>
    have hbefore := ih ((List.prefix_append before [e]).trans hinitial)
    obtain ⟨after, hafter⟩ := hinitial
    rw [List.append_assoc, List.singleton_append] at hafter
    have hshown : shown (before ++ [e]) = (shown before).show e := List.foldl_concat ..
    rw [List.foldl_concat, hbefore, hshown]
    cases e with
    | text delta => exact absurd (hafter ▸ List.mem_append_right _ List.mem_cons_self) (h.whole delta)
    | textBulk answer =>
      exact if_neg (h.promoted before answer after hafter.symm).2
    | _ => rfl

theorem runAgentTurn_text {stream : DriverStream} (h : Contract stream.events)
    (sessionId : Option JsString) :
    (runAgentTurn sessionId stream).text = (shown stream.events).answer := by
  rw [runAgentTurn]
  dsimp only
  rw [foldl_absorb_text]
  exact answer_eq_shown h _ (List.prefix_refl _)

/-- Each run of each driver keeps the contract, and the text that its turn collapses to is the
answer that was shown. -/
theorem driver_contract (run : DriverRun) (sessionId : Option JsString) :
    Contract run.stream.events ∧
      (runAgentTurn sessionId run.stream).text = (shown run.stream.events).answer := by
  have hcontract : Contract run.stream.events := by
    cases run with
    | claudeCode run => exact ClaudeCode.contract run
    | openclaw run => exact OpenClaw.contract run
    | managedAgent run => exact ManagedAgent.contract run
  exact ⟨hcontract, runAgentTurn_text hcontract sessionId⟩

theorem foldl_absorb_quiet {events : List AgentEvent} (h : ∀ e ∈ events, e.isError = false)
    (r : TurnResult) : (events.foldl TurnResult.absorb r).error = r.error ∧
      (events.foldl TurnResult.absorb r).toolCount =
        r.toolCount + events.countP (·.isToolUse) := by
  induction events generalizing r with
  | nil => exact ⟨rfl, rfl⟩
  | cons e es ih =>
    obtain ⟨he, hes⟩ := List.forall_mem_cons.mp h
    have hfirst : (r.absorb e).error = r.error ∧
        (r.absorb e).toolCount = r.toolCount + [e].countP (·.isToolUse) := by
      cases e with
      | error => cases he
      | text text => by_cases h : text = [] <;> simp [TurnResult.absorb, AgentEvent.isToolUse, h]
      | textBulk text => by_cases h : text = [] <;> simp [TurnResult.absorb, AgentEvent.isToolUse, h]
      | session id => by_cases h : id = [] <;> simp [TurnResult.absorb, AgentEvent.isToolUse, h]
      | _ => exact ⟨rfl, rfl⟩
    rw [List.foldl_cons, (ih hes _).1, (ih hes _).2, hfirst.1, hfirst.2, Nat.add_assoc,
      ← List.countP_append, List.singleton_append]
    exact ⟨rfl, rfl⟩

/-- What the agent wrote before its stream broke off is no answer. -/
example : (runAgentTurn none (ManagedAgent.startSession
    (.streamed (utf16 "s1") [⟨[.text (utf16 "All done.")], false, none⟩]))).text = [] := rfl

end OsModa.Gateway
