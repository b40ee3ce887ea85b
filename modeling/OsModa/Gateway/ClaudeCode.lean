import OsModa.Base.JsMap
import OsModa.Gateway.Turn

/-!
The claude-code driver: the events it makes of what the `claude` CLI writes.

The CLI writes one JSON object a line. Lines that are no JSON are skipped; the others are
taken here as the CLI writes them, with the fields that the driver reads. Every text of
the assistant streams on the interim channel, and only the terminal result is the answer.
-/

namespace OsModa.Gateway.ClaudeCode

open OsModa.Js

/-! ### What the CLI writes -/

/-- A block of a message. A tool's target is what its input distils to. -/
inductive CliBlock where
  | toolUse (name : JsString) (target : Option JsString)
  | text (text : JsString)
  | toolResult
  | other

structure CliUsage where
  inputTokens : Option ℚ
  cacheReadInputTokens : Option ℚ
  cacheCreationInputTokens : Option ℚ
  outputTokens : Option ℚ

inductive CliMessage where
  | systemInit
  | assistant (id : Option JsString) (content : List CliBlock)
  | user (content : List CliBlock)
  | result (isError : Bool) (apiErrorStatus : Option Nat) (result : Option JsString)
      (usage : Option CliUsage) (totalCostUsd : Option ℚ)
  | other

structure CliEvent where
  sessionId : Option JsString
  message : CliMessage

/-- Why the CLI did not start. -/
inductive SpawnFailure where
  | workspaceMissing (cwd : JsString)
  | claudeNotFound (claude : JsString)
  | thrown (message : JsString)
  | enoent (claude cwd : JsString)
  | other (message : JsString)

/-- One run of the CLI. -/
structure CliRun where
  spawnFailure : Option SpawnFailure
  events : List CliEvent
  exitCode : Nat
  stderr : JsString
  aborted : Bool

/-! ### The driver -/

/-- What `startSession` keeps while it reads. -/
structure Reader where
  sessionId : Option JsString
  sessionYielded : Bool
  turnUsage : Option SpendUsage
  textLenByMsg : JsMap JsString Nat
  lastTextMsgId : Option JsString
  emittedAnyText : Bool
  hasOutput : Bool
  emittedInterim : Nat
  lastMsgFullText : JsString

def Reader.start : Reader := ⟨none, false, none, .empty, none, false, false, 0, []⟩

/-- A block of an assistant message. -/
def readBlock (msgId : JsString) (r : Reader) : CliBlock → List AgentEvent × Reader
  | .toolUse name target =>
    if name = [] then ([], r) else ([.toolUse name target none], { r with hasOutput := true })
  | .text full =>
    let prev := (JsMap.get? r.textLenByMsg msgId).getD 0
    if prev < full.length then
      let delta := full.drop prev
      let delta := if prev = 0 ∧ r.emittedAnyText ∧ some msgId ≠ r.lastTextMsgId then
        [10, 10] ++ delta else delta
      ([.interimText delta], { r with
        emittedInterim := r.emittedInterim + delta.length
        textLenByMsg := JsMap.set r.textLenByMsg msgId full.length
        lastTextMsgId := some msgId
        lastMsgFullText := full
        emittedAnyText := true
        hasOutput := true })
    else ([], r)
  | .toolResult | .other => ([], r)

def readBlocks (msgId : JsString) (r : Reader) : List CliBlock → List AgentEvent × Reader
  | [] => ([], r)
  | b :: bs =>
    let out := readBlock msgId r b
    let rest := readBlocks msgId out.2 bs
    (out.1 ++ rest.1, rest.2)

/-- The event of a failed run's result. -/
def resultError (apiErrorStatus : Option Nat) (result : Option JsString) : AgentEvent :=
  let status := apiErrorStatus.filter (· ≠ 0)
  let http := (status.map fun n => utf16 (" (HTTP " ++ toString n ++ ")")).getD []
  .error ((result.filter (· ≠ [])).getD (utf16 "claude-code error" ++ http))
    (some ((status.map fun n => utf16 ("http_" ++ toString n)).getD (utf16 "cli_error")))

/-- The events of a successful run's result. -/
def resultAnswer (r : Reader) (result : Option JsString) : List AgentEvent × Reader :=
  let finalText := (result.filter (trim · ≠ [])).getD r.lastMsgFullText
  if trim finalText = [] then ([], r)
  else ((if 0 < r.emittedInterim then [.interimCommitFinal r.emittedInterim] else []) ++
    [.textBulk finalText, .phase .answering], { r with hasOutput := true })

/-- Token usage and cost for the spend meter. -/
def resultUsage (r : Reader) (usage : Option CliUsage) (totalCostUsd : Option ℚ) :
    Option SpendUsage :=
  if usage.isSome ∨ totalCostUsd.isSome then
    some {
      inputTokens := some ((usage.bind (·.inputTokens)).getD 0 +
        (usage.bind (·.cacheReadInputTokens)).getD 0 +
        (usage.bind (·.cacheCreationInputTokens)).getD 0)
      outputTokens := some ((usage.bind (·.outputTokens)).getD 0)
      costUsd := totalCostUsd }
  else r.turnUsage

def readMessage (r : Reader) (sessionId : Option JsString) : CliMessage → List AgentEvent × Reader
  | .systemInit => ([], { r with sessionId := sessionId })
  | .assistant id content =>
    readBlocks ((id.filter (· ≠ [])).getD (utf16 "msg-default")) r content
  | .user content =>
    (content.flatMap fun b =>
      match b with
      | .toolResult => [.toolResult none none none none]
      | _ => [], r)
  | .result isError apiErrorStatus result usage totalCostUsd =>
    let out := if isError then ([resultError apiErrorStatus result], r) else resultAnswer r result
    (out.1, { out.2 with
      sessionId := (sessionId.filter (· ≠ [])).or out.2.sessionId
      turnUsage := resultUsage out.2 usage totalCostUsd })
  | .other => ([], r)

/-- One line. The first session id is yielded. -/
def readEvent (r : Reader) (e : CliEvent) : List AgentEvent × Reader :=
  match e.sessionId.filter (fun s => s ≠ [] ∧ r.sessionYielded = false) with
  | none => readMessage r e.sessionId e.message
  | some sessionId =>
    let out := readMessage { r with sessionId := some sessionId, sessionYielded := true }
      e.sessionId e.message
    (.session sessionId :: out.1, out.2)

def readEvents (r : Reader) : List CliEvent → List AgentEvent × Reader
  | [] => ([], r)
  | e :: es =>
    let out := readEvent r e
    let rest := readEvents out.2 es
    (out.1 ++ rest.1, rest.2)

def SpawnFailure.event : SpawnFailure → AgentEvent
  | .workspaceMissing cwd =>
    .error (utf16 "Workspace directory '" ++ cwd ++
      utf16 "' does not exist or isn't readable. Create it on the customer box: 'mkdir -p " ++ cwd ++
      utf16 ("' and restart osmoda-gateway. (This is a known install.sh regression on " ++
        "pre-v1.3.1 spawns when runtime=claude-code.)")) (some (utf16 "workspace_missing"))
  | .claudeNotFound claude =>
    .error (utf16 "Claude CLI not found or not executable at '" ++ claude ++
      utf16 ("'. Reinstall: 'cd /opt/osmoda/packages/osmoda-gateway && npm install && " ++
        "ln -sf node_modules/.bin/claude /usr/local/bin/claude'.")) (some (utf16 "claude_not_found"))
  | .thrown message =>
    .error (utf16 "Failed to spawn claude: " ++ message) (some (utf16 "spawn_failed"))
  | .enoent claude cwd =>
    .error (utf16 "spawn ENOENT: either the binary '" ++ claude ++ utf16 "' or the cwd '" ++ cwd ++
      utf16 "' is missing/inaccessible. Verify: 'ls -la " ++ claude ++ utf16 "' and 'ls -la " ++
      cwd ++ utf16 "' on the customer box.") (some (utf16 "spawn_enoent"))
  | .other message => .error (utf16 "Spawn failed: " ++ message) (some (utf16 "spawn_failed"))

/-- The last line that the CLI wrote to its error stream. -/
def exitError (run : CliRun) : AgentEvent :=
  .error ((((lines (trim run.stderr)).getLast?).filter (· ≠ [])).getD
    (utf16 ("claude exited with code " ++ toString run.exitCode))) none

/-- The events of a run of the CLI. -/
def startSession (run : CliRun) : DriverStream where
  events :=
    match run.spawnFailure with
    | some failure => [failure.event]
    | none =>
      let out := readEvents .start run.events
      out.1 ++
        (if run.exitCode ≠ 0 ∧ out.2.hasOutput = false ∧ run.aborted = false then [exitError run]
          else []) ++
        [.done out.2.sessionId out.2.turnUsage]
  thrown := none

/-! ### What a run shows -/

/-- The driver shows the block while the CLI works: a named tool call, or text. -/
def CliBlock.shows : CliBlock → Bool
  | .toolUse name _ => name ≠ []
  | .text full => full ≠ []
  | .toolResult | .other => false

/-- The line is an assistant message with a block to show. -/
def CliEvent.shows (e : CliEvent) : Bool :=
  match e.message with
  | .assistant _ content => content.any CliBlock.shows
  | _ => false

/-- The line is a result that is an error. -/
def CliEvent.isErrorResult (e : CliEvent) : Bool :=
  match e.message with
  | .result isError .. => isError
  | _ => false

/-- The line is a result that is none. -/
def CliEvent.isAnswerResult (e : CliEvent) : Bool :=
  match e.message with
  | .result isError .. => !isError
  | _ => false

/-- What reading some lines, or blocks, yields and leaves. -/
structure Reads (r : Reader) (events : List AgentEvent) (shows errors : Bool) (r' : Reader) :
    Prop where
  /-- Texts are counted from the first one on. -/
  fresh : (r.emittedAnyText = false → ∀ id, JsMap.get? r.textLenByMsg id = none) →
    r'.emittedAnyText = false → ∀ id, JsMap.get? r'.textLenByMsg id = none
  emitted : r'.emittedAnyText = true → events.any (·.isWork) = true ∨ r.emittedAnyText = true
  work : (r.emittedAnyText = false → ∀ id, JsMap.get? r.textLenByMsg id = none) →
    (events.any (·.isWork) = true ∨ r.emittedAnyText = true ↔
      shows = true ∨ r.emittedAnyText = true)
  output : r'.hasOutput = (r.hasOutput || events.any (·.isOutput))
  error : events.any (·.isError) = errors

theorem Reads.append {r r₁ r₂ : Reader} {first second : List AgentEvent}
    {shows₁ shows₂ errors₁ errors₂ : Bool} (h₁ : Reads r first shows₁ errors₁ r₁)
    (h₂ : Reads r₁ second shows₂ errors₂ r₂) :
    Reads r (first ++ second) (shows₁ || shows₂) (errors₁ || errors₂) r₂ where
  fresh := fun h => h₂.fresh (h₁.fresh h)
  emitted := by
    intro h
    rw [List.any_append, Bool.or_eq_true]
    rcases h₂.emitted h with h | h
    · exact .inl (.inr h)
    · exact (h₁.emitted h).imp_left .inl
  work := by
    intro h
    have hfirst := h₁.work h
    have hsecond := h₂.work (h₁.fresh h)
    rw [List.any_append, Bool.or_eq_true, Bool.or_eq_true]
    constructor
    · rintro ((hwork | hwork) | hemitted)
      · exact (hfirst.mp (.inl hwork)).imp_left .inl
      · rcases hsecond.mp (.inl hwork) with hshows | hemitted
        · exact .inl (.inr hshows)
        · exact (hfirst.mp (h₁.emitted hemitted)).imp_left .inl
      · exact .inr hemitted
    · rintro ((hshows | hshows) | hemitted)
      · exact (hfirst.mpr (.inl hshows)).imp_left .inl
      · rcases hsecond.mpr (.inl hshows) with hwork | hemitted
        · exact .inl (.inr hwork)
        · exact (h₁.emitted hemitted).imp_left .inl
      · exact .inr hemitted
  output := by rw [h₂.output, h₁.output, List.any_append, Bool.or_assoc]
  error := by rw [List.any_append, h₁.error, h₂.error]

/-- Events that show nothing, with the texts left alone. -/
theorem reads_of_idle {r r' : Reader} {events : List AgentEvent} {errors : Bool}
    (hemitted : r'.emittedAnyText = r.emittedAnyText) (htexts : r'.textLenByMsg = r.textLenByMsg)
    (hwork : events.any (·.isWork) = false)
    (houtput : r'.hasOutput = (r.hasOutput || events.any (·.isOutput)))
    (herror : events.any (·.isError) = errors) : Reads r events false errors r' where
  fresh := by
    intro h
    rwa [hemitted, htexts]
  emitted := by
    intro h
    rw [hemitted] at h
    exact .inr h
  work := by
    intro _
    rw [hwork]
  output := houtput
  error := herror

theorem reads_block (msgId : JsString) (r : Reader) (b : CliBlock) :
    Reads r (readBlock msgId r b).1 b.shows false (readBlock msgId r b).2 := by
  cases b with
  | toolUse name target =>
    by_cases hname : name = []
    · simp only [readBlock, CliBlock.shows, hname, if_true, ne_eq, not_true_eq_false, decide_false]
      exact reads_of_idle rfl rfl rfl (Bool.or_false _).symm rfl
    · simp only [readBlock, CliBlock.shows, hname, if_false, ne_eq, not_false_eq_true, decide_true]
      exact ⟨id, .inr, fun _ => by simp [AgentEvent.isWork], by simp [AgentEvent.isOutput], rfl⟩
  | text full =>
    by_cases hmore : (JsMap.get? r.textLenByMsg msgId).getD 0 < full.length
    · have hfull : full ≠ [] := List.ne_nil_of_length_pos (Nat.zero_lt_of_lt hmore)
      simp only [readBlock, CliBlock.shows, hmore, hfull, if_true, ne_eq, not_false_eq_true,
        decide_true]
      refine ⟨fun _ h => ?_, fun _ => .inl rfl, fun _ => by simp [AgentEvent.isWork],
        by simp [AgentEvent.isOutput], rfl⟩
      cases h
    · simp only [readBlock, CliBlock.shows, hmore, if_false]
      refine ⟨id, .inr, fun hfresh => ?_, (Bool.or_false _).symm, rfl⟩
      -- A text that is not longer than the last one follows a text.
      cases hemitted : r.emittedAnyText with
      | true => simp
      | false =>
        rw [hfresh hemitted msgId, Option.getD_none, Nat.not_lt, Nat.le_zero,
          List.length_eq_zero_iff] at hmore
        simp [hmore]
  | toolResult => exact reads_of_idle rfl rfl rfl (Bool.or_false _).symm rfl
  | other => exact reads_of_idle rfl rfl rfl (Bool.or_false _).symm rfl

theorem reads_blocks (msgId : JsString) (r : Reader) (bs : List CliBlock) :
    Reads r (readBlocks msgId r bs).1 (bs.any CliBlock.shows) false (readBlocks msgId r bs).2 := by
  induction bs generalizing r with
  | nil => exact reads_of_idle rfl rfl rfl (Bool.or_false _).symm rfl
  | cons b bs ih => exact (reads_block msgId r b).append (ih _)

theorem reads_resultAnswer (r : Reader) (result : Option JsString) :
    Reads r (resultAnswer r result).1 false false (resultAnswer r result).2 := by
  unfold resultAnswer
  generalize (result.filter (trim · ≠ [])).getD r.lastMsgFullText = finalText
  dsimp only
  split
  · exact reads_of_idle rfl rfl rfl (Bool.or_false _).symm rfl
  · rename_i htext
    have hne : finalText ≠ [] := by
      rintro rfl
      exact htext rfl
    refine reads_of_idle rfl rfl ?_ ?_ ?_
    · split <;> rfl
    · split <;> simp [AgentEvent.isOutput, hne]
    · split <;> rfl

theorem reads_message (r : Reader) (sessionId : Option JsString) (m : CliMessage) :
    Reads r (readMessage r sessionId m).1 (CliEvent.shows ⟨sessionId, m⟩)
      (CliEvent.isErrorResult ⟨sessionId, m⟩) (readMessage r sessionId m).2 := by
  cases m with
  | systemInit => exact reads_of_idle rfl rfl rfl (Bool.or_false _).symm rfl
  | assistant msgId content => exact reads_blocks _ r content
  | user content =>
    have hquiet : ∀ p : AgentEvent → Bool, p (.toolResult none none none none) = false →
        (readMessage r sessionId (.user content)).1.any p = false := by
      intro p hp
      rw [List.any_eq_false]
      intro e he
      obtain ⟨b, -, he⟩ := List.mem_flatMap.mp he
      cases b with
      | toolResult =>
        rw [List.mem_singleton.mp he, hp]
        exact Bool.false_ne_true
      | _ => cases he
    refine reads_of_idle rfl rfl (hquiet _ rfl) ?_ (hquiet _ rfl)
    rw [hquiet _ rfl, Bool.or_false]
    rfl
  | result isError apiErrorStatus result usage totalCostUsd =>
    cases isError with
    | true => exact reads_of_idle rfl rfl rfl (Bool.or_false _).symm rfl
    | false =>
      have h := reads_resultAnswer r result
      exact ⟨h.fresh, h.emitted, h.work, h.output, h.error⟩
  | other => exact reads_of_idle rfl rfl rfl (Bool.or_false _).symm rfl

theorem reads_event (r : Reader) (e : CliEvent) :
    Reads r (readEvent r e).1 e.shows e.isErrorResult (readEvent r e).2 := by
  unfold readEvent
  split
  · exact reads_message r e.sessionId e.message
  · rename_i sessionId _
    have hsession : Reads r [.session sessionId] false false
        { r with sessionId := some sessionId, sessionYielded := true } :=
      reads_of_idle rfl rfl rfl (Bool.or_false _).symm rfl
    exact hsession.append (reads_message _ e.sessionId e.message)

theorem reads_events (r : Reader) (es : List CliEvent) :
    Reads r (readEvents r es).1 (es.any CliEvent.shows) (es.any CliEvent.isErrorResult)
      (readEvents r es).2 := by
  induction es generalizing r with
  | nil => exact reads_of_idle rfl rfl rfl (Bool.or_false _).symm rfl
  | cons e es ih => exact (reads_event r e).append (ih _)

/-- From the start, something is shown as work exactly when a line has something to show. -/
theorem readEvents_work (es : List CliEvent) :
    (readEvents .start es).1.any (·.isWork) = es.any CliEvent.shows := by
  have h := (reads_events .start es).work fun _ _ => rfl
  have hstart : ¬ Reader.start.emittedAnyText = true := Bool.false_ne_true
  rw [Bool.eq_iff_iff]
  constructor
  · intro hwork
    exact (h.mp (.inl hwork)).resolve_right hstart
  · intro hshows
    exact (h.mpr (.inl hshows)).resolve_right hstart

/-! ### Failed runs -/

theorem readBlocks_isAnswer (msgId : JsString) (r : Reader) (bs : List CliBlock) :
    (readBlocks msgId r bs).1.any (·.isAnswer) = false := by
  induction bs generalizing r with
  | nil => rfl
  | cons b bs ih =>
    have hblock : (readBlock msgId r b).1.any (·.isAnswer) = false := by
      cases b with
      | toolUse name target =>
        simp only [readBlock]
        split <;> rfl
      | text full =>
        simp only [readBlock]
        split <;> rfl
      | _ => rfl
    rw [readBlocks, List.any_append, hblock, ih]
    rfl

/-- Only a result that is no error is an answer. -/
theorem readMessage_isAnswer (r : Reader) (sessionId : Option JsString) (m : CliMessage)
    (h : CliEvent.isAnswerResult ⟨sessionId, m⟩ = false) :
    (readMessage r sessionId m).1.any (·.isAnswer) = false := by
  cases m with
  | assistant msgId content => exact readBlocks_isAnswer _ r content
  | user content =>
    rw [List.any_eq_false]
    intro e he
    obtain ⟨b, -, he⟩ := List.mem_flatMap.mp he
    cases b with
    | toolResult =>
      rw [List.mem_singleton.mp he]
      exact Bool.false_ne_true
    | _ => cases he
  | result isError apiErrorStatus result usage totalCostUsd =>
    cases isError with
    | true => rfl
    | false => cases h
  | _ => rfl

theorem readEvents_isAnswer (r : Reader) (es : List CliEvent)
    (h : ∀ e ∈ es, e.isAnswerResult = false) :
    (readEvents r es).1.any (·.isAnswer) = false := by
  induction es generalizing r with
  | nil => rfl
  | cons e es ih =>
    obtain ⟨he, hes⟩ := List.forall_mem_cons.mp h
    have hevent : (readEvent r e).1.any (·.isAnswer) = false := by
      unfold readEvent
      split
      · exact readMessage_isAnswer r e.sessionId e.message he
      · rw [List.any_cons, readMessage_isAnswer _ e.sessionId e.message he]
        rfl
    rw [readEvents, List.any_append, hevent, ih _ hes]
    rfl

/-- The CLI did not start, or no result is an answer and the failure is reported, by a
result or by an exit with nothing shown. -/
def CliRun.Failed (run : CliRun) : Prop :=
  run.spawnFailure ≠ none ∨
    (∀ e ∈ run.events, e.isAnswerResult = false) ∧
      (run.events.any CliEvent.isErrorResult = true ∨
        run.exitCode ≠ 0 ∧ run.aborted = false ∧ run.events.any CliEvent.shows = false)

/-- The CLI starts, and what it says before it fails is shown. -/
def CliRun.echoes (run : CliRun) : Bool :=
  run.spawnFailure.isNone && run.events.any CliEvent.shows

/-- What follows the lines is neither an answer nor work. -/
theorem startSession_any {run : CliRun} (hspawn : run.spawnFailure = none)
    (p : AgentEvent → Bool) (herror : ∀ m code, p (.error m code) = false)
    (hdone : ∀ sessionId usage, p (.done sessionId usage) = false) :
    (startSession run).events.any p = (readEvents .start run.events).1.any p := by
  unfold startSession
  rw [hspawn]
  dsimp only
  rw [List.any_append, List.any_append, List.any_cons, hdone, List.any_nil, Bool.or_false,
    Bool.or_false]
  split
  · rw [List.any_cons, exitError, herror, List.any_nil, Bool.or_false, Bool.or_false]
  · rw [List.any_nil, Bool.or_false]

/-- A CLI that does not start says so, and nothing else. -/
theorem startSession_events_of_failure {run : CliRun} {failure : SpawnFailure}
    (h : run.spawnFailure = some failure) : (startSession run).events = [failure.event] := by
  unfold startSession
  rw [h]

/-- The stream shows work exactly when the CLI showed something. -/
theorem startSession_works (run : CliRun) : (startSession run).Works ↔ run.echoes = true := by
  unfold DriverStream.Works CliRun.echoes
  cases hspawn : run.spawnFailure with
  | some failure =>
    rw [startSession_events_of_failure hspawn]
    cases failure <;> simp [SpawnFailure.event, AgentEvent.isWork]
  | none =>
    rw [startSession_any hspawn _ (fun _ _ => rfl) (fun _ _ => rfl), readEvents_work]
    rfl

/-- A failed run reports an error and delivers no answer. -/
theorem CliRun.Failed.failsSilently {run : CliRun} (h : run.Failed) :
    (startSession run).FailsSilently := by
  refine ⟨rfl, ?_⟩
  cases hspawn : run.spawnFailure with
  | some failure =>
    rw [startSession_events_of_failure hspawn]
    cases failure <;> exact ⟨rfl, rfl⟩
  | none =>
    obtain ⟨hanswers, hreported⟩ := h.resolve_left (not_not.mpr hspawn)
    have hanswer := readEvents_isAnswer .start run.events hanswers
    refine ⟨?_, ?_⟩
    · have hreads := reads_events .start run.events
      rcases hreported with hresult | ⟨hexit, haborted, hquiet⟩
      · unfold startSession
        rw [hspawn]
        dsimp only
        rw [List.any_append, List.any_append, hreads.error, hresult]
        rfl
      · have houtput : (readEvents .start run.events).2.hasOutput = false := by
          rw [hreads.output, any_isOutput_of_no_answer hanswer, readEvents_work, hquiet]
          rfl
        unfold startSession
        rw [hspawn]
        dsimp only
        rw [if_pos ⟨hexit, houtput, haborted⟩]
        simp [exitError, AgentEvent.isError]
    · rw [startSession_any hspawn _ (fun _ _ => rfl) (fun _ _ => rfl)]
      exact hanswer

end OsModa.Gateway.ClaudeCode
