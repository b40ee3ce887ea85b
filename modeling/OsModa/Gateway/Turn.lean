import OsModa.Gateway.Spend

/-!
One turn of an agent: the events that a driver emits, and what `runAgentTurn` makes of
them.

A driver's stream is its events in order, and the exception that ends it, if one does.
-/

namespace OsModa.Gateway

open OsModa.Js

/-! ### Events -/

inductive Phase where
  | planning
  | answering

/-- The streaming event contract that every driver emits. -/
inductive AgentEvent where
  /-- Delta of the final answer. -/
  | text (text : JsString)
  /-- Replace the final answer wholesale. -/
  | textBulk (text : JsString)
  /-- Delta of planning text. -/
  | interimText (text : JsString)
  /-- Trim characters of interim that were promoted to final. -/
  | interimCommitFinal (length : Nat)
  | toolUse (name : JsString) (target : Option JsString) (round : Option Nat)
  | toolResult (name outcome summary : Option JsString) (round : Option Nat)
  | status (step : JsString)
  | phase (phase : Phase)
  | thinking (text : JsString)
  | session (sessionId : JsString)
  | error (text : JsString) (code : Option JsString)
  | done (sessionId : Option JsString) (usage : Option SpendUsage)

/-- What a driver's generator does: the events it yields and the message of the exception
it throws at the end, if it throws. -/
structure DriverStream where
  events : List AgentEvent
  thrown : Option JsString

/-! ### runAgentTurn -/

structure TurnResult where
  text : JsString
  usage : Option SpendUsage
  sessionId : Option JsString
  toolCount : Nat
  hadOutput : Bool
  error : Option JsString

/-- The result before the first event. -/
def TurnResult.start (sessionId : Option JsString) : TurnResult :=
  ⟨[], none, sessionId, 0, false, none⟩

/-- What an event changes in the result. An empty text counts as none. -/
def TurnResult.absorb (r : TurnResult) : AgentEvent → TurnResult
  | .textBulk text => if text = [] then r else { r with text := text, hadOutput := true }
  | .text text => if text = [] then r else { r with text := r.text ++ text, hadOutput := true }
  | .interimText _ => { r with hadOutput := true }
  | .toolUse .. => { r with toolCount := r.toolCount + 1, hadOutput := true }
  | .session sessionId => if sessionId = [] then r else { r with sessionId := some sessionId }
  | .done sessionId usage =>
    { r with
      sessionId := (sessionId.filter (· ≠ [])).or r.sessionId
      usage := usage.or r.usage }
  | .error text _ => { r with error := some (if text = [] then utf16 "agent error" else text) }
  | .interimCommitFinal .. | .toolResult .. | .status .. | .phase .. | .thinking .. => r

/-- Drive one agent turn to completion and collapse its event stream into a result. -/
def runAgentTurn (sessionId : Option JsString) (stream : DriverStream) : TurnResult :=
  let r := stream.events.foldl TurnResult.absorb (.start sessionId)
  { r with error := stream.thrown.or r.error }

/-- `result.error && !result.hadOutput`. -/
def TurnResult.Failed (r : TurnResult) : Prop :=
  (∃ e, r.error = some e ∧ e ≠ []) ∧ r.hadOutput = false

instance (r : TurnResult) : Decidable r.Failed := by
  unfold TurnResult.Failed
  match r.error with
  | none => exact isFalse (by simp)
  | some e =>
    exact decidable_of_iff (e ≠ [] ∧ r.hadOutput = false) (by simp)

/-! ### What decides a result -/

/-- An event after which a turn counts as having had output. -/
def AgentEvent.isOutput : AgentEvent → Bool
  | .textBulk answer => answer ≠ []
  | .text delta => delta ≠ []
  | .interimText _ | .toolUse .. => true
  | _ => false

def AgentEvent.isError : AgentEvent → Bool
  | .error .. => true
  | _ => false

/-- A piece of the final answer. -/
def AgentEvent.isAnswer : AgentEvent → Bool
  | .text _ | .textBulk _ => true
  | _ => false

/-- Planning text or a tool call. -/
def AgentEvent.isWork : AgentEvent → Bool
  | .interimText _ | .toolUse .. => true
  | _ => false

/-- The stream reports an error and delivers no answer. -/
def DriverStream.FailsSilently (s : DriverStream) : Prop :=
  s.thrown = none ∧ s.events.any (·.isError) = true ∧ s.events.any (·.isAnswer) = false

/-- The stream shows planning text or tool calls. -/
def DriverStream.Works (s : DriverStream) : Prop := s.events.any (·.isWork) = true

instance (s : DriverStream) : Decidable s.Works := inferInstanceAs (Decidable (_ = true))

theorem AgentEvent.isWork_or_isAnswer {e : AgentEvent} (h : e.isOutput = true) :
    e.isWork = true ∨ e.isAnswer = true := by
  cases e with
  | text _ | textBulk _ => exact .inr rfl
  | interimText _ | toolUse _ _ _ => exact .inl rfl
  | _ => cases h

theorem AgentEvent.isOutput_of_isWork {e : AgentEvent} (h : e.isWork = true) :
    e.isOutput = true := by
  cases e with
  | interimText _ | toolUse _ _ _ => rfl
  | _ => cases h

theorem any_isOutput_of_no_answer {events : List AgentEvent}
    (h : events.any (·.isAnswer) = false) :
    events.any (·.isOutput) = events.any (·.isWork) := by
  rw [Bool.eq_iff_iff, List.any_eq_true, List.any_eq_true]
  constructor
  · rintro ⟨e, he, hout⟩
    refine ⟨e, he, (AgentEvent.isWork_or_isAnswer hout).resolve_right fun hanswer => ?_⟩
    exact List.any_eq_false.mp h e he hanswer
  · rintro ⟨e, he, hwork⟩
    exact ⟨e, he, AgentEvent.isOutput_of_isWork hwork⟩

theorem absorb_hadOutput (r : TurnResult) (e : AgentEvent) :
    (r.absorb e).hadOutput = (r.hadOutput || e.isOutput) := by
  cases e with
  | text text => by_cases h : text = [] <;> simp [TurnResult.absorb, AgentEvent.isOutput, h]
  | textBulk text => by_cases h : text = [] <;> simp [TurnResult.absorb, AgentEvent.isOutput, h]
  | session sessionId => by_cases h : sessionId = [] <;> simp [TurnResult.absorb, AgentEvent.isOutput, h]
  | _ => simp [TurnResult.absorb, AgentEvent.isOutput]

theorem foldl_absorb_hadOutput (events : List AgentEvent) (r : TurnResult) :
    (events.foldl TurnResult.absorb r).hadOutput = (r.hadOutput || events.any AgentEvent.isOutput) := by
  induction events generalizing r with
  | nil => simp
  | cons e events ih => rw [List.foldl_cons, ih, absorb_hadOutput, List.any_cons, Bool.or_assoc]

/-- A turn had output exactly when one of its events is output. -/
theorem runAgentTurn_hadOutput (sessionId : Option JsString) (stream : DriverStream) :
    (runAgentTurn sessionId stream).hadOutput = stream.events.any AgentEvent.isOutput := by
  rw [runAgentTurn]
  dsimp only
  rw [foldl_absorb_hadOutput]
  rfl

theorem absorb_error (r : TurnResult) (e : AgentEvent) :
    (∃ m, (r.absorb e).error = some m ∧ m ≠ []) ↔
      (∃ m, r.error = some m ∧ m ≠ []) ∨ e.isError = true := by
  cases e with
  | error m code =>
    by_cases h : m = []
    · simp only [TurnResult.absorb, AgentEvent.isError, h, if_true, or_true, iff_true]
      exact ⟨_, rfl, by decide⟩
    · simp [TurnResult.absorb, AgentEvent.isError, h]
  | text m => by_cases h : m = [] <;> simp [TurnResult.absorb, AgentEvent.isError, h]
  | textBulk m => by_cases h : m = [] <;> simp [TurnResult.absorb, AgentEvent.isError, h]
  | session m => by_cases h : m = [] <;> simp [TurnResult.absorb, AgentEvent.isError, h]
  | _ => simp [TurnResult.absorb, AgentEvent.isError]

theorem foldl_absorb_error (events : List AgentEvent) (r : TurnResult) :
    (∃ m, (events.foldl TurnResult.absorb r).error = some m ∧ m ≠ []) ↔
      (∃ m, r.error = some m ∧ m ≠ []) ∨ events.any AgentEvent.isError = true := by
  induction events generalizing r with
  | nil => simp
  | cons e events ih =>
    rw [List.foldl_cons, ih, absorb_error, List.any_cons, Bool.or_eq_true, or_assoc]

/-- A turn without an answer fails exactly when it shows no work. -/
theorem DriverStream.FailsSilently.failed_iff {s : DriverStream} (h : s.FailsSilently)
    (sessionId : Option JsString) : (runAgentTurn sessionId s).Failed ↔ ¬ s.Works := by
  obtain ⟨hthrown, herror, hanswer⟩ := h
  have hfold := (foldl_absorb_error s.events (.start sessionId)).mpr (.inr herror)
  have hmessage : ∃ m, (runAgentTurn sessionId s).error = some m ∧ m ≠ [] := by
    rw [runAgentTurn, hthrown]
    exact hfold
  rw [TurnResult.Failed, runAgentTurn_hadOutput, any_isOutput_of_no_answer hanswer,
    DriverStream.Works, Bool.not_eq_true]
  exact and_iff_right hmessage

end OsModa.Gateway
