import OsModa.Gateway.ClaudeCode
import OsModa.Gateway.LoopBound

/-!
Three failing turns in a row.

A turn that reports an error counts as failed only if it showed no output, and planning
text and tool calls are output. Whether a loop whose turns deliver no answer pauses itself
is therefore decided by whether they show any work (`failing_loop_pauses`). The claude-code
driver shows every text of the assistant as planning text, and the CLI echoes its errors as
such texts: these turns are iterations.
-/

namespace OsModa.Gateway

open OsModa.Js OsModa.Machine

namespace LoopManager

/-- The loop's counts of iterations and of failures since the last one. -/
def tally (m : LoopManager) (id : String) : Option (Nat × Nat) :=
  (m.loops.find? id).map fun loop => (loop.iteration, loop.consecutiveErrors)

/-- The operation ends a turn of the running loop with the stream. -/
def EndsTurn (m : LoopManager) (id : String) (op : LoopOp) (stream : DriverStream) : Prop :=
  ∃ controller w flight loop, op = .turnEnds controller stream w ∧
    m.flights.find? (·.controller = controller) = some flight ∧ flight.loopId = id ∧
    m.loops.find? id = some loop ∧ loop.status = .running

/-- The operation is no request for the loop and ends no turn of it, and a restart finds
the loop in the file as it was. -/
def Bystander (id : String) (m : LoopManager) : LoopOp → Prop
  | .create _ _ w => mkId (m.seq + 1) w.now ≠ id
  | .stop k _ | .pause k _ | .resume k _ => k ≠ id
  | .turnEnds controller _ _ => ∀ flight, m.flights.find? (·.controller = controller) =
    some flight → flight.loopId ≠ id
  | .restart => (m.file.find? id).map Loop.unblocked = (m.loops.find? id).map Loop.unblocked
  | .resumeAll | .fire .. => True

/-- A turn of the loop ends with the stream, and then other things happen. -/
def TurnThen (tables : CaseTables) (maxLoops : Nat) (id : String) (stream : DriverStream)
    (m m' : LoopManager) : Prop :=
  ∃ op ops, m.EndsTurn id op stream ∧
    (∀ step ∈ trace (loopStep tables maxLoops) ops (loopStep tables maxLoops op m).2,
      step.before.Bystander id step.input) ∧
    final (loopStep tables maxLoops) ops (loopStep tables maxLoops op m).2 = m'

/-- The loop is paused for its errors, with no iteration more. -/
def GaveUp (id : String) (m m' : LoopManager) : Prop :=
  ∃ loop loop', m.loops.find? id = some loop ∧ m'.loops.find? id = some loop' ∧
    loop'.status = .paused ∧ loop'.finishedReason = some "repeated_errors" ∧
    loop'.iteration = loop.iteration

section Tally

variable {tables : CaseTables} {maxLoops : Nat} {m m' : LoopManager} {id k : String}
  {loop loop' : Loop} {w : World} {op : LoopOp}

theorem tally_of_find? (h : m.loops.find? id = some loop) :
    m.tally id = some (loop.iteration, loop.consecutiveErrors) := by
  rw [tally, h, Option.map_some]

/-! ### Other operations leave the counts alone -/

/-- Storing a loop with the same counts. -/
theorem tally_put (loop' : Loop) (hfind : m.loops.find? loop.id = some loop) (hid : loop'.id = loop.id)
    (hiteration : loop'.iteration = loop.iteration)
    (herrors : loop'.consecutiveErrors = loop.consecutiveErrors)
    (hloops : m'.loops = m.loops.put loop') : m'.tally id = m.tally id := by
  unfold tally
  rw [hloops, Table.find?_put, hid]
  split
  · rename_i hsame
    rw [← hsame, hfind, Option.map_some, Option.map_some, hiteration, herrors]
  · rfl

/-- Storing another loop. -/
theorem tally_put_other (loop : Loop) (hother : k ≠ id) (hloops : m'.loops = m.loops.put loop)
    (hid : loop.id = k) : m'.tally id = m.tally id := by
  unfold tally
  rw [hloops, Table.find?_put_other (hid ▸ hother)]

theorem tally_tick (k : String) (deps : TickDeps) (w : World) :
    (m.tick k deps w).2.tally id = m.tally id := by
  have hout := tick_outcome m k w deps
  generalize m.tick k deps w = out at hout ⊢
  cases hout with
  | idle hidle => rfl
  | exhausted loop hfind hrunning hmax =>
    obtain rfl : loop.id = k := Table.key_of_find? hfind
    refine tally_put (finishedLoop loop "max_iterations" w) hfind
      (finishedLoop_id loop w "max_iterations") ?_ ?_ (finish_loops ..)
    · simp only [finishedLoop, Loop.pushHistory]
    · simp only [finishedLoop, Loop.pushHistory]
  | withdrawn loop hfind hrunning reason =>
    obtain rfl : loop.id = k := Table.key_of_find? hfind
    rw [pause_eq (m := m.tickStarted loop.id) w hfind]
    exact tally_put (m := m) (pausedLoop loop reason w) hfind rfl rfl rfl (withdraw_loops ..)
  | skipped loop hfind hrunning =>
    obtain rfl : loop.id = k := Table.key_of_find? hfind
    refine tally_put (m := m) (skippedLoop loop deps w) hfind (skippedLoop_id loop w deps) ?_ ?_ ?_
    · simp only [skippedLoop, Loop.pushHistory]
    · simp only [skippedLoop, Loop.pushHistory]
    · rw [reschedule_loops, persist_loops, setLoop_loops]
      rfl
  | launched loop hfind hrunning hiteration agent hagent hallowed hcredential hdriver =>
    obtain rfl : loop.id = k := Table.key_of_find? hfind
    exact tally_put { loop with blocked := none } hfind rfl rfl rfl rfl

theorem tally_fire (handle : Nat) (deps : TickDeps) (w : World) :
    (m.fire handle deps w).2.tally id = m.tally id := by
  rcases m.fire_cases handle deps w with hfire | ⟨timer, -, -, hfire⟩
  · rw [hfire]
  · rw [hfire]
    exact tally_tick (m := { m with pending := m.pending.filter (·.handle ≠ handle) }) _ deps w

theorem tally_stop (hother : k ≠ id) : (m.stop k w).2.tally id = m.tally id := by
  rcases m.stop_cases k w with hstop | ⟨loop, rfl, -, hstop⟩ <;> rw [hstop]
  exact tally_put_other (stoppedLoop loop w) hother (withdraw_loops ..) rfl

theorem tally_pause (hother : k ≠ id) (reason : String) :
    (m.pause k reason w).2.tally id = m.tally id := by
  rcases m.pause_cases k w reason with hpause | ⟨loop, rfl, -, hpause⟩ <;> rw [hpause]
  exact tally_put_other (pausedLoop loop reason w) hother (withdraw_loops ..) rfl

theorem tally_resume (hother : k ≠ id) : (m.resume k w).2.tally id = m.tally id := by
  rcases m.resume_cases k w with hresume | ⟨loop, rfl, -, -, hresume⟩ <;> rw [hresume]
  refine tally_put_other (resumedLoop loop w) hother ?_ rfl
  rw [reschedule_loops, persist_loops, setLoop_loops]

theorem tally_create (input : CreateLoopInput) (agent : Option AgentProfile)
    (hother : mkId (m.seq + 1) w.now ≠ id) :
    (m.create tables maxLoops input agent w).2.tally id = m.tally id := by
  have hout := create_outcome m w tables maxLoops input agent
  generalize m.create tables maxLoops input agent w = out at hout ⊢
  cases hout with
  | rejected message => rfl
  | created agent interval maxIter hroom hmaxIter =>
    refine tally_put_other (newLoop tables (mkId (m.seq + 1) w.now) input interval maxIter w)
      hother ?_ rfl
    rw [scheduleTick_loops, persist_loops, setLoop_loops]

theorem tally_turnEnds {controller : Nat} {stream : DriverStream}
    (hother : m.Bystander id (.turnEnds controller stream w)) :
    (m.turnEnds tables controller stream w).2.tally id = m.tally id := by
  have hout := turnEnds_outcome m w tables controller stream
  generalize m.turnEnds tables controller stream w = out at hout ⊢
  cases hout with
  | unknown hnone => rfl
  | orphaned flight hflight hclosed => rfl
  | ended flight hflight loop hid hfind hrunning =>
    obtain ⟨loop', e, -, hfind'⟩ := afterTurn_endsAs (m := m.landed flight) hrunning tables
      flight.agent (runAgentTurn flight.sessionId stream) w
    exact congrArg (Option.map _) ((hfind' id).trans (if_neg (hid ▸ hother flight hflight)))

theorem tally_restart (hfile : m.Bystander id .restart) : m.restart.tally id = m.tally id := by
  have hunblocked : ∀ o : Option Loop, o.map (fun l => (l.iteration, l.consecutiveErrors)) =
      (o.map Loop.unblocked).map fun l => (l.iteration, l.consecutiveErrors) := by
    intro o
    cases o <;> rfl
  unfold tally
  rw [find?_restart, hunblocked (m.loops.find? id), ← hfile]
  rfl

/-- Bystanders leave the counts alone. -/
theorem Bystander.tally (h : m.Bystander id op) :
    (loopStep tables maxLoops op m).2.tally id = m.tally id := by
  cases op with
  | create input agent w => exact tally_create input agent h
  | stop k w => exact tally_stop h
  | pause k w => exact tally_pause h "paused"
  | resume k w => exact tally_resume h
  | resumeAll => exact congrArg (Option.map _) (congrArg (Table.find? · id) (resumeAll_loops m))
  | fire handle deps w => exact tally_fire handle deps w
  | turnEnds controller stream w => exact tally_turnEnds h
  | restart => exact tally_restart h

/-! ### The turns -/

/-- The step that ends a turn of a running loop goes on with the rest of its tick. -/
theorem EndsTurn.afterTurn {stream : DriverStream} (h : m.EndsTurn id op stream)
    (tables : CaseTables) (maxLoops : Nat) :
    ∃ flight loop w, loop.id = id ∧ m.loops.find? id = some loop ∧ loop.status = .running ∧
      (loopStep tables maxLoops op m).2 = ((m.landed flight).afterTurn tables loop flight.agent
        (runAgentTurn flight.sessionId stream) w).2 := by
  obtain ⟨controller, w, flight, loop, rfl, hflight, rfl, hfind, hrunning⟩ := h
  refine ⟨flight, loop, w, Table.key_of_find? hfind, hfind, hrunning, ?_⟩
  change (m.turnEnds tables controller stream w).2 = _
  have hout := turnEnds_outcome m w tables controller stream
  generalize m.turnEnds tables controller stream w = out at hout ⊢
  cases hout with
  | unknown hnone =>
    rw [hnone] at hflight
    cases hflight
  | orphaned flight' hflight' hclosed =>
    obtain rfl : flight' = flight := Option.some.inj (hflight'.symm.trans hflight)
    exact absurd hrunning (hclosed loop hfind)
  | ended flight' hflight' loop' hid hfind' hrunning' =>
    obtain rfl : flight' = flight := Option.some.inj (hflight'.symm.trans hflight)
    rw [hid] at hfind'
    obtain rfl : loop' = loop := Option.some.inj (hfind'.symm.trans hfind)
    rfl

/-- The end of a turn without an answer: one more failure, or, if the turn showed work, one
more iteration. -/
theorem EndsTurn.tally {stream : DriverStream} (h : m.EndsTurn id op stream)
    (hfails : stream.FailsSilently) (tables : CaseTables) (maxLoops : Nat) :
    ∃ i e, m.tally id = some (i, e) ∧ (loopStep tables maxLoops op m).2.tally id =
      some (if stream.Works then (i + 1, 0) else (i, e + 1)) := by
  obtain ⟨flight, loop, w, hid, hfind, hrunning, hstep⟩ := h.afterTurn tables maxLoops
  refine ⟨loop.iteration, loop.consecutiveErrors, tally_of_find? hfind, ?_⟩
  obtain ⟨loop', e, hends, hafter⟩ := afterTurn_endsAs (m := m.landed flight) hrunning tables
    flight.agent (runAgentTurn flight.sessionId stream) w
  rw [hstep, tally_of_find? ((hafter id).trans (if_pos hid))]
  have hlife := hends.life
  rcases hends.event with ⟨rfl, hfailed⟩ | ⟨rfl, hok⟩
  · rw [if_neg ((hfails.failed_iff _).mp hfailed)]
    simp only [Life.next, Life.mk.injEq] at hlife
    rw [hlife.2.1, hlife.2.2.1]
  · rw [if_pos (not_not.mp fun hworks => hok ((hfails.failed_iff _).mpr hworks))]
    simp only [Life.next, Life.mk.injEq] at hlife
    rw [hlife.2.1, hlife.2.2.1]

/-- The third failure in a row pauses the loop. -/
theorem EndsTurn.paused {stream : DriverStream} (h : m.EndsTurn id op stream)
    (hfails : stream.FailsSilently) (hquiet : ¬ stream.Works) {i e : Nat}
    (htally : m.tally id = some (i, e)) (herrors : maxConsecutiveErrors ≤ e + 1)
    (tables : CaseTables) (maxLoops : Nat) :
    ∃ loop', (loopStep tables maxLoops op m).2.loops.find? id = some loop' ∧
      loop'.status = .paused ∧ loop'.finishedReason = some "repeated_errors" ∧
      loop'.iteration = i := by
  obtain ⟨flight, loop, w, hid, hfind, hrunning, hstep⟩ := h.afterTurn tables maxLoops
  obtain ⟨rfl, rfl⟩ : loop.iteration = i ∧ loop.consecutiveErrors = e := by
    simpa [tally_of_find? hfind] using htally
  have hfailed := (hfails.failed_iff flight.sessionId).mpr hquiet
  rw [hstep]
  have hout := afterTurn_outcome (m.landed flight) loop w tables flight.agent
    (runAgentTurn flight.sessionId stream)
  generalize (m.landed flight).afterTurn tables loop flight.agent
    (runAgentTurn flight.sessionId stream) w = out at hout ⊢
  cases hout with
  | gaveUp _ _ =>
    refine ⟨pausedLoop (failedLoop loop (runAgentTurn flight.sessionId stream) w)
      "repeated_errors" w, ?_, rfl, rfl, ?_⟩
    · rw [pause_failedLoop, withdraw_loops, ← hid]
      exact (Table.find?_put _ _ _).trans (if_pos ((pausedLoop_id ..).trans (failedLoop_id ..)))
    · simp only [pausedLoop, failedLoop, Loop.pushHistory]
  | failed _ hfew => exact absurd herrors (Nat.not_le_of_lt hfew)
  | goalMet hok _ => exact absurd hfailed hok
  | exhausted hok _ _ => exact absurd hfailed hok
  | advanced hok _ _ => exact absurd hfailed hok

/-- What a turn without an answer does to the counts, up to the next turn. -/
theorem TurnThen.tally {stream : DriverStream} (h : TurnThen tables maxLoops id stream m m')
    (hfails : stream.FailsSilently) :
    ∃ i e, m.tally id = some (i, e) ∧
      m'.tally id = some (if stream.Works then (i + 1, 0) else (i, e + 1)) := by
  obtain ⟨op, ops, hturn, hbystanders, rfl⟩ := h
  obtain ⟨i, e, hbefore, hafter⟩ := hturn.tally hfails tables maxLoops
  refine ⟨i, e, hbefore, ?_⟩
  exact final_invariant_of (I := fun m => m.tally id = some _)
    (fun op m htally hop => (Bystander.tally hop).trans htally) hafter hbystanders

/-- A turn that works is an iteration more. -/
theorem iteration_le_of_tally {stream : DriverStream} {i e j e' : Nat}
    (h : (if stream.Works then (i + 1, 0) else (i, e + 1)) = (j, e')) :
    i ≤ j ∧ (stream.Works → i < j) := by
  by_cases hworks : stream.Works
  · rw [if_pos hworks] at h
    obtain ⟨rfl, -⟩ := Prod.mk.inj h
    exact ⟨Nat.le_succ i, fun _ => Nat.lt_succ_self i⟩
  · rw [if_neg hworks] at h
    obtain ⟨rfl, -⟩ := Prod.mk.inj h
    exact ⟨le_rfl, fun hnot => absurd hnot hworks⟩

end Tally

/-- **A loop whose turns fail pauses itself**: after three turns in a row that report an
error and deliver no answer it is paused, with no iteration more, exactly when none of them
showed any work. This covers every failed run of the CLI, which shows work exactly when it
says something before it fails. -/
theorem failing_loop_pauses {tables : CaseTables} {maxLoops : Nat} {id : String}
    {m m₁ m₂ : LoopManager} {op : LoopOp} {s₁ s₂ s₃ : DriverStream}
    (h₁ : TurnThen tables maxLoops id s₁ m m₁) (h₂ : TurnThen tables maxLoops id s₂ m₁ m₂)
    (h₃ : m₂.EndsTurn id op s₃) (hs₁ : s₁.FailsSilently) (hs₂ : s₂.FailsSilently)
    (hs₃ : s₃.FailsSilently) :
    (GaveUp id m (loopStep tables maxLoops op m₂).2 ↔ ¬ s₁.Works ∧ ¬ s₂.Works ∧ ¬ s₃.Works) ∧
      ∀ run : ClaudeCode.CliRun, run.Failed → (ClaudeCode.startSession run).FailsSilently ∧
        ((ClaudeCode.startSession run).Works ↔ run.echoes = true) := by
  refine ⟨?_, fun run hrun => ⟨hrun.failsSilently, ClaudeCode.startSession_works run⟩⟩
  obtain ⟨i, e, hbefore, hfirst⟩ := h₁.tally hs₁
  obtain ⟨i₁, e₁, hfirst', hsecond⟩ := h₂.tally hs₂
  obtain ⟨i₂, e₂, hsecond', hthird⟩ := h₃.tally hs₃ tables maxLoops
  have h₁₁ := Option.some.inj (hfirst.symm.trans hfirst')
  have h₂₂ := Option.some.inj (hsecond.symm.trans hsecond')
  constructor
  · rintro ⟨loop, loop', hfind, hfind', -, -, hiteration⟩
    have hi : loop.iteration = i := by
      have htally := (tally_of_find? hfind).symm.trans hbefore
      exact congrArg Prod.fst (Option.some.inj htally)
    have h₃₃ := Option.some.inj (hthird.symm.trans (tally_of_find? hfind'))
    obtain ⟨hle₁, hlt₁⟩ := iteration_le_of_tally h₁₁
    obtain ⟨hle₂, hlt₂⟩ := iteration_le_of_tally h₂₂
    obtain ⟨hle₃, hlt₃⟩ := iteration_le_of_tally h₃₃
    refine ⟨fun hworks => ?_, fun hworks => ?_, fun hworks => ?_⟩
    · have := hlt₁ hworks
      omega
    · have := hlt₂ hworks
      omega
    · have := hlt₃ hworks
      omega
  · rintro ⟨hq₁, hq₂, hq₃⟩
    rw [if_neg hq₁] at h₁₁
    rw [if_neg hq₂] at h₂₂
    obtain ⟨rfl, rfl⟩ := Prod.mk.inj h₁₁
    obtain ⟨rfl, rfl⟩ := Prod.mk.inj h₂₂
    obtain ⟨loop', hfind', hpaused, hreason, hiteration⟩ := h₃.paused hs₃ hq₃ hsecond'
      (Nat.le_add_left 3 e) tables maxLoops
    obtain ⟨loop, hfind, htally⟩ := Option.map_eq_some_iff.mp hbefore
    exact ⟨loop, loop', hfind, hfind', hpaused, hreason,
      hiteration.trans (congrArg Prod.fst htally).symm⟩

/-! Three turns of a loop whose credential is used up. -/

theorem endsTurn_of {m : LoopManager} {id : String} {controller : Nat} (stream : DriverStream)
    (w : World)
    (hturn : (m.flights.find? (·.controller = controller)).any (·.loopId = id) = true)
    (hrunning : (m.loops.find? id).any (·.status = .running) = true) :
    m.EndsTurn id (.turnEnds controller stream w) stream := by
  obtain ⟨flight, hflight, hid⟩ := (Option.any_eq_true ..).mp hturn
  obtain ⟨loop, hfind, hstatus⟩ := (Option.any_eq_true ..).mp hrunning
  exact ⟨controller, w, flight, loop, rfl, hflight, of_decide_eq_true hid, hfind,
    of_decide_eq_true hstatus⟩

/-- The manager when the first of the turns is in flight. -/
def firstTurn : LoopManager :=
  final (loopStep .ascii defaultMaxLoops) [.create tidyUp (some assistant) epoch, .fire 0 ready epoch]
    (boot .empty)

/-- A turn ends with the stream, and the next one starts. -/
def afterTurnAndFire (stream : DriverStream) (n : Nat) (m : LoopManager) : LoopManager :=
  final (loopStep .ascii defaultMaxLoops) [.turnEnds n stream epoch, .fire (n + 1) ready epoch] m

/-- The CLI says that it is out of credit, and that this is an error. -/
def outOfCredit (echo : Bool) : ClaudeCode.CliRun where
  spawnFailure := none
  events := (if echo then
      [⟨none, .assistant (some (utf16 "a1")) [.text (utf16 "Credit balance is too low")]⟩]
    else []) ++
    [⟨none, .result true (some 400) (some (utf16 "Credit balance is too low")) none none⟩]
  exitCode := 1
  stderr := []
  aborted := false

theorem turnThen_fire {stream : DriverStream} {n : Nat} {m : LoopManager}
    (h : m.EndsTurn (mkId 1 epoch.now) (.turnEnds n stream epoch) stream) :
    TurnThen .ascii defaultMaxLoops (mkId 1 epoch.now) stream m (afterTurnAndFire stream n m) := by
  refine ⟨_, [.fire (n + 1) ready epoch], h, fun step hstep => ?_, rfl⟩
  obtain rfl := List.mem_singleton.mp hstep
  trivial

theorem outOfCredit_failed (echo : Bool) : (outOfCredit echo).Failed := by
  refine .inr ⟨?_, .inl ?_⟩
  · cases echo <;> simp [outOfCredit, ClaudeCode.CliEvent.isAnswerResult]
  · cases echo <;> rfl

theorem outOfCredit_gaveUp :
    GaveUp (mkId 1 epoch.now) firstTurn (loopStep .ascii defaultMaxLoops
      (.turnEnds 2 (ClaudeCode.startSession (outOfCredit false)) epoch)
      (afterTurnAndFire (ClaudeCode.startSession (outOfCredit false)) 1
        (afterTurnAndFire (ClaudeCode.startSession (outOfCredit false)) 0 firstTurn))).2 := by
  have hfails := (outOfCredit_failed false).failsSilently
  have hquiet : ¬ (ClaudeCode.startSession (outOfCredit false)).Works := by decide
  refine (failing_loop_pauses (turnThen_fire (endsTurn_of _ _ ?_ ?_))
    (turnThen_fire (endsTurn_of _ _ ?_ ?_)) (endsTurn_of _ _ ?_ ?_) hfails hfails hfails).1.mpr
    ⟨hquiet, hquiet, hquiet⟩
  all_goals decide +kernel

/-- The same error, echoed as the assistant's text: three iterations. -/
theorem echoed_error_not_paused :
    ¬ ∀ {m m₁ m₂ : LoopManager} {op : LoopOp} {s₁ s₂ s₃ : DriverStream},
      TurnThen .ascii defaultMaxLoops (mkId 1 epoch.now) s₁ m m₁ →
      TurnThen .ascii defaultMaxLoops (mkId 1 epoch.now) s₂ m₁ m₂ →
      m₂.EndsTurn (mkId 1 epoch.now) op s₃ →
      s₁.FailsSilently → s₂.FailsSilently → s₃.FailsSilently →
      GaveUp (mkId 1 epoch.now) m (loopStep .ascii defaultMaxLoops op m₂).2 := by
  intro h
  have hfails := (outOfCredit_failed true).failsSilently
  have hfirst : firstTurn.EndsTurn (mkId 1 epoch.now)
      (.turnEnds 0 (ClaudeCode.startSession (outOfCredit true)) epoch)
      (ClaudeCode.startSession (outOfCredit true)) :=
    endsTurn_of _ _ (by decide +kernel) (by decide +kernel)
  have hsecond : (afterTurnAndFire (ClaudeCode.startSession (outOfCredit true)) 0
      firstTurn).EndsTurn (mkId 1 epoch.now)
      (.turnEnds 1 (ClaudeCode.startSession (outOfCredit true)) epoch)
      (ClaudeCode.startSession (outOfCredit true)) :=
    endsTurn_of _ _ (by decide +kernel) (by decide +kernel)
  have hthird : (afterTurnAndFire (ClaudeCode.startSession (outOfCredit true)) 1
      (afterTurnAndFire (ClaudeCode.startSession (outOfCredit true)) 0 firstTurn)).EndsTurn
      (mkId 1 epoch.now) (.turnEnds 2 (ClaudeCode.startSession (outOfCredit true)) epoch)
      (ClaudeCode.startSession (outOfCredit true)) :=
    endsTurn_of _ _ (by decide +kernel) (by decide +kernel)
  have hstatus : ((loopStep .ascii defaultMaxLoops
      (.turnEnds 2 (ClaudeCode.startSession (outOfCredit true)) epoch)
      (afterTurnAndFire (ClaudeCode.startSession (outOfCredit true)) 1
        (afterTurnAndFire (ClaudeCode.startSession (outOfCredit true)) 0 firstTurn))).2.loops.find?
      (mkId 1 epoch.now)).map (·.status) = some .running := by decide +kernel
  obtain ⟨loop, loop', -, hfind', hpaused, -, -⟩ :=
    h (turnThen_fire hfirst) (turnThen_fire hsecond) hthird hfails hfails hfails
  rw [hfind', Option.map_some, hpaused] at hstatus
  exact absurd (Option.some.inj hstatus) (by decide)

end LoopManager

end OsModa.Gateway
