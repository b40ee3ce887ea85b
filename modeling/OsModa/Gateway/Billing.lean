import OsModa.Gateway.Sessions
import OsModa.Gateway.LoopSchedule
import Mathlib.Algebra.Order.BigOperators.Group.List

/-!
Every turn is metered once, or not at all.

A session's terminal event is taken in one step of a run at most, and only that step can
call the meter for it. Whether it does is decided there: the event must carry usage, and its
consumer must still want it (`turn_metered_iff`). Of the three drivers only claude-code
reports usage.
-/

namespace OsModa.Gateway

open OsModa.Js OsModa.Machine LoopManager

abbrev GatewayStep := Step GatewayState GatewayInput (List GatewayEffect)

/-! ### Metering -/

/-- The tokens that a call counts. -/
def SpendUsage.tokens (usage : SpendUsage) : ℚ :=
  max 0 (usage.inputTokens.getD 0) + max 0 (usage.outputTokens.getD 0)

/-- An agent's tally of tokens for the day of a clock reading. -/
def SpendMeter.tokensUsed (m : SpendMeter) (id : AgentId) (now : Instant) : ℚ :=
  (m.buckets.current id now).inputTokens + (m.buckets.current id now).outputTokens

/-- The calls of `spend.record` for a session. -/
def recordsOf (session : SessionId) (run : List GatewayStep) : List Charge :=
  run.flatMap fun t => (charges t.output).filter (·.session = session)

/-- A call that reads the clock within one day raises the agent's tally by its tokens. -/
def Tallied (t : GatewayStep) (c : Charge) : Prop :=
  t.input.w.now.isoDay = t.input.w.checkedAt.isoDay →
    t.after.spend.tokensUsed c.agent.id t.input.w.now =
      t.before.spend.tokensUsed c.agent.id t.input.w.now + c.usage.tokens

/-- The session is recorded exactly once in the run, with the usage of its terminal event or,
where that has none, with some estimate; and the agent's tally counts it. -/
def Metered (run : List GatewayStep) (e : Terminal) : Prop :=
  ∃ usage, recordsOf e.session run = [⟨e.session, e.agent, usage⟩] ∧
    (∀ u, e.usage = some u → usage = u) ∧
    ∀ t ∈ run, ⟨e.session, e.agent, usage⟩ ∈ charges t.output →
      Tallied t ⟨e.session, e.agent, usage⟩

theorem record_tokensUsed (table : List (String × Price)) (m : SpendMeter) (agent : AgentProfile)
    (usage : SpendUsage) {now checkedAt : Instant} (hday : now.isoDay = checkedAt.isoDay) :
    (m.record table agent usage now checkedAt).2.tokensUsed agent.id now =
      m.tokensUsed agent.id now + usage.tokens := by
  have hcurrent := @current_record table m agent usage now checkedAt agent.id now
  have hsame : (recordedBucket m agent usage now checkedAt table).day = now.isoDay := by
    rw [recordedBucket, if_pos hday]
    exact chargedBucket_day m agent usage now table
  rw [if_pos rfl, DayBucket.onDay_of_eq hsame, recordedBucket, if_pos hday] at hcurrent
  unfold SpendMeter.tokensUsed SpendUsage.tokens
  rw [hcurrent]
  simp only [chargedBucket, SpendMeter.addUsage]
  ring

/-! ### One terminal event a session -/

theorem filter_eq_singleton {α : Type} {p : α → Bool} {l : List α} {x : α} (hx : x ∈ l)
    (hp : p x = true) (hcount : l.countP p ≤ 1) : l.filter p = [x] := by
  have hmem : x ∈ l.filter p := List.mem_filter.mpr ⟨hx, hp⟩
  rw [List.countP_eq_length_filter] at hcount
  match hl : l.filter p with
  | [] => rw [hl] at hmem; cases hmem
  | [y] =>
    rw [hl] at hmem
    rw [List.mem_singleton.mp hmem]
  | _ :: _ :: _ => rw [hl] at hcount; simp at hcount

theorem filter_charges (session : SessionId) (ends : List Terminal) :
    (ends.filterMap (·.charge?)).filter (·.session = session) =
      (ends.filter (·.session = session)).filterMap (·.charge?) := by
  rw [List.filter_filterMap, List.filterMap_filter]
  refine List.filterMap_congr ?_
  intro e _
  obtain ⟨s, agent, usage⟩ := e
  cases usage with
  | none => simp [Terminal.charge?]
  | some usage => simp [Terminal.charge?, Option.filter_some]

/-- How many terminal events of a session a step takes. -/
def endings (session : SessionId) (t : GatewayStep) : Nat :=
  (t.before.terminals t.input.op).countP (·.session = session)

section Run

variable (table : List (String × Price)) (tables : CaseTables) (maxLoops : Nat)

/-- What a step bills for a session. -/
theorem step_records (input : GatewayInput) (g : GatewayState) (session : SessionId) :
    (charges (g.step table tables maxLoops input).1).filter (·.session = session) =
      if g.bills input.op then
        ((g.terminals input.op).filter (·.session = session)).filterMap (·.charge?)
      else [] := by
  rw [(g.step_does input).charged]
  split
  · exact filter_charges session _
  · rfl

theorem boot_reserve (usage : Buckets) (loops : Table Loop.id) (s : SessionId) :
    (GatewayState.boot usage loops).reserve s ≤ 1 := by
  cases s with
  | gateway n => exact Nat.le_refl 1
  | loop controller =>
    simp only [GatewayState.boot, GatewayState.reserve, LoopManager.reserve, LoopManager.boot,
      LoopManager.restart_flights, LoopManager.restart_nextController, List.countP_nil]
    split <;> exact Nat.le_of_ble_eq_true rfl

/-- A run takes one terminal event of a session at most. -/
theorem endings_sum_le_one (inputs : List GatewayInput) (usage : Buckets) (loops : Table Loop.id)
    (session : SessionId) :
    ((trace (GatewayState.step table tables maxLoops) inputs (.boot usage loops)).map
      (endings session)).sum ≤ 1 := by
  have hpay : ∀ (input : GatewayInput) (g : GatewayState),
      endings session (stepOf (GatewayState.step table tables maxLoops) input g) +
        (g.step table tables maxLoops input).2.reserve session ≤ g.reserve session :=
    fun input g => (g.step_does input).paid session
  have hsum := @sum_trace_add_le _ _ _ (GatewayState.step table tables maxLoops) (endings session)
    (·.reserve session) hpay inputs (.boot usage loops)
  exact (Nat.le_add_right _ _).trans (hsum.trans (boot_reserve usage loops session))

/-- The calls of the meter for a session are those of the step that takes its terminal
event. -/
theorem recordsOf_eq {inputs : List GatewayInput} {usage : Buckets} {loops : Table Loop.id}
    {t : GatewayStep}
    (ht : t ∈ trace (GatewayState.step table tables maxLoops) inputs (.boot usage loops))
    {e : Terminal} (he : e ∈ t.before.terminals t.input.op) :
    recordsOf e.session (trace (GatewayState.step table tables maxLoops) inputs (.boot usage loops)) =
      if t.before.bills t.input.op then e.charge?.toList else [] := by
  have hsum := endings_sum_le_one table tables maxLoops inputs usage loops e.session
  have hpos : 0 < endings e.session t :=
    List.countP_pos_iff.mpr ⟨e, he, decide_eq_true rfl⟩
  have hrecords : ∀ u ∈ trace (GatewayState.step table tables maxLoops) inputs (.boot usage loops),
      (charges u.output).filter (·.session = e.session) =
        if u.before.bills u.input.op then
          ((u.before.terminals u.input.op).filter (·.session = e.session)).filterMap (·.charge?)
        else [] := by
    intro u hu
    obtain ⟨_, _, _, hstep⟩ := mem_trace_split hu
    rw [hstep]
    exact step_records table tables maxLoops _ _ e.session
  have hone : (t.before.terminals t.input.op).filter (·.session = e.session) = [e] :=
    filter_eq_singleton he (decide_eq_true rfl)
      ((List.le_sum_of_mem (List.mem_map_of_mem (f := endings e.session) ht)).trans hsum)
  rw [recordsOf, flatMap_eq_of_sum_le_one hsum ?_ ht hpos, hrecords t ht, hone, List.filterMap_cons]
  · cases e.charge? <;> rfl
  · intro u hu hzero
    rw [hrecords u hu, List.filter_eq_nil_iff.mpr fun x hx => ?_]
    · split <;> rfl
    · exact List.countP_eq_zero.mp hzero x hx

/-- Whatever a step records, the tally counts it. -/
theorem tallied {inputs : List GatewayInput} {g : GatewayState} {t : GatewayStep}
    (ht : t ∈ trace (GatewayState.step table tables maxLoops) inputs g) {c : Charge}
    (hc : c ∈ charges t.output) : Tallied t c := by
  obtain ⟨pre, _, _, hstep⟩ := mem_trace_split ht
  intro hday
  have hdoes := @GatewayState.step_does table tables maxLoops
    (final (GatewayState.step table tables maxLoops) pre g) t.input
  have hmetered := hdoes.metered c
  rw [hstep] at hc ⊢
  rw [stepOf_after, hmetered hc]
  exact record_tokensUsed table _ c.agent c.usage hday

/-- For every run, a session that came to its terminal event has been metered if and only if
the event carried usage and its consumer was one that bills, which it is while the socket of
a web turn is open, and while the loop of a turn that did not fail is running; and the
drivers that report usage are the claude-code ones whose CLI reports a cost or tokens. -/
theorem turn_metered_iff (inputs : List GatewayInput) (usage : Buckets) (loops : Table Loop.id) :
    (∀ t ∈ trace (GatewayState.step table tables maxLoops) inputs (.boot usage loops),
      ∀ e ∈ t.before.terminals t.input.op,
        (Metered (trace (GatewayState.step table tables maxLoops) inputs (.boot usage loops)) e ↔
          e.usage.isSome = true ∧ t.before.bills t.input.op = true)) ∧
    ∀ run : DriverRun, (∃ u, some u ∈ run.stream.terminals) ↔
      ∃ cli, run = .claudeCode cli ∧ cli.spawnFailure = none ∧
        cli.events.any (·.reportsUsage) = true := by
  refine ⟨fun t ht e he => ?_, DriverRun.reports_iff⟩
  have hrecords := recordsOf_eq table tables maxLoops ht he
  constructor
  · rintro ⟨u, hu, -, -⟩
    rw [hrecords] at hu
    cases hbills : t.before.bills t.input.op with
    | false => simp [hbills] at hu
    | true =>
      cases husage : e.usage with
      | none => simp [hbills, Terminal.charge?, husage] at hu
      | some usage => exact ⟨rfl, rfl⟩
  · rintro ⟨hsome, hbills⟩
    obtain ⟨u, husage⟩ := Option.isSome_iff_exists.mp hsome
    refine ⟨u, ?_, fun u' hu' => Option.some.inj (husage.symm.trans hu'), ?_⟩
    · rw [hrecords, if_pos hbills, Terminal.charge?, husage]
      rfl
    · exact fun t' ht' hc => tallied table tables maxLoops ht' hc

end Run

/-! ### A turn over the API -/

def atEpoch : Moment := ⟨epoch, epoch.now⟩

def subscription : Credential := ⟨utf16 "c1", utf16 "main", utf16 "anthropic", utf16 "api_key"⟩

/-- What is looked up for an agent that can be run. -/
def foundAssistant : Lookups :=
  ⟨some assistant, subscription.id, utf16 "claude-code", some subscription, true⟩

/-- One turn over the API, which runs as given. -/
def oneTurn (run : DriverRun) : List GatewayInput :=
  [⟨.agentTurn ⟨foundAssistant, utf16 "hello", utf16 "api", none⟩, atEpoch⟩,
    ⟨.agentTurnEnds 0 run, atEpoch⟩]

def oneTurnSteps (run : DriverRun) : List GatewayStep :=
  trace (GatewayState.step prices .ascii defaultMaxLoops) (oneTurn run) (.boot .empty .empty)

/-- The CLI answers, and says what it used. -/
def answering : ClaudeCode.CliRun where
  spawnFailure := none
  events := [⟨none, .result false none (some (utf16 "Hello."))
    (some ⟨some 900, none, none, some 100⟩) none⟩]
  exitCode := 0
  stderr := []
  aborted := false

/-- OpenClaw answers the same. -/
def openclawAnswering : OpenClaw.Run where
  startFailure := none
  sessionKey := utf16 "api"
  trajectory := []
  replyText := some (utf16 "Hello.")
  exitCode := 0
  stderr := []
  aborted := false

/-- How the turn ends. -/
def endOfTurn (run : DriverRun) : GatewayStep :=
  stepOf (GatewayState.step prices .ascii defaultMaxLoops) ⟨.agentTurnEnds 0 run, atEpoch⟩
    (GatewayState.step prices .ascii defaultMaxLoops
      ⟨.agentTurn ⟨foundAssistant, utf16 "hello", utf16 "api", none⟩, atEpoch⟩
      (.boot .empty .empty)).2

theorem endOfTurn_mem (run : DriverRun) : endOfTurn run ∈ oneTurnSteps run :=
  List.mem_cons_of_mem _ (List.mem_singleton_self _)

theorem oneTurn_metered : ∃ e ∈ (endOfTurn (.claudeCode answering)).before.terminals
    (.agentTurnEnds 0 (.claudeCode answering)),
    Metered (oneTurnSteps (.claudeCode answering)) e := by
  have hterminals : (endOfTurn (.claudeCode answering)).before.terminals
      (.agentTurnEnds 0 (.claudeCode answering)) ≠ [] := by decide +kernel
  obtain ⟨e, he⟩ := List.exists_mem_of_ne_nil _ hterminals
  have husage : ∀ e ∈ (endOfTurn (.claudeCode answering)).before.terminals
      (.agentTurnEnds 0 (.claudeCode answering)), e.usage.isSome = true := by decide +kernel
  exact ⟨e, he, ((turn_metered_iff prices .ascii defaultMaxLoops _ .empty .empty).1 _
    (endOfTurn_mem _) e he).mpr ⟨husage e he, rfl⟩⟩

/-- The same turn of an OpenClaw agent is not metered at all. -/
theorem openclaw_turn_not_metered :
    ¬ ∀ inputs, ∀ t ∈ trace (GatewayState.step prices .ascii defaultMaxLoops) inputs
        (.boot .empty .empty), ∀ e ∈ t.before.terminals t.input.op,
      Metered (trace (GatewayState.step prices .ascii defaultMaxLoops) inputs
        (.boot .empty .empty)) e := by
  intro h
  have hterminals : (endOfTurn (.openclaw openclawAnswering)).before.terminals
      (.agentTurnEnds 0 (.openclaw openclawAnswering)) ≠ [] := by decide +kernel
  have hnone : ∀ e ∈ (endOfTurn (.openclaw openclawAnswering)).before.terminals
      (.agentTurnEnds 0 (.openclaw openclawAnswering)),
      (recordsOf e.session (oneTurnSteps (.openclaw openclawAnswering))).length = 0 := by
    decide +kernel
  obtain ⟨e, he⟩ := List.exists_mem_of_ne_nil _ hterminals
  obtain ⟨usage, hrecords, -, -⟩ :=
    h (oneTurn (.openclaw openclawAnswering)) _ (endOfTurn_mem _) e he
  have hone := hnone e he
  rw [oneTurnSteps, hrecords] at hone
  cases hone

end OsModa.Gateway
