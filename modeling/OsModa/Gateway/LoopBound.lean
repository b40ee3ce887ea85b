import OsModa.Gateway.LoopLife
import OsModa.Gateway.LoopStatus

/-!
How many turns a loop starts.

In a run without pause and resume requests, whose writes succeed and which draws no id
twice, every step of the manager is an event in the life of each of its loops
(`life_step`), so what a life costs bounds what the run costs (`turns_bounded`). A crash
brings back the loop of the last write, which is the loop of the last step but for its
transient flag and the turn in flight.
-/

namespace OsModa.Gateway

open OsModa.Js OsModa.Machine

/-- The loop without its transient flag. -/
def Loop.unblocked (loop : Loop) : Loop := { loop with blocked := none }

/-- The operation is a crash and a new process. -/
def LoopOp.isRestart : LoopOp → Bool
  | .restart => true
  | _ => false

namespace LoopManager

variable (tables : CaseTables)

/-! ### What a run does with one loop -/

def hasTurn (m : LoopManager) (id : String) : Bool := m.flights.any (·.loopId = id)

def lifeOf (m : LoopManager) (loop : Loop) : Life :=
  ⟨loop.status, loop.iteration, loop.consecutiveErrors, m.hasTurn loop.id⟩

/-- The result of the loop's turn that an operation ends. -/
def endedTurn (m : LoopManager) (id : String) : LoopOp → Option TurnResult
  | .turnEnds controller stream _ =>
    ((m.flights.find? (·.controller = controller)).filter (·.loopId = id)).map fun flight =>
      runAgentTurn flight.sessionId stream
  | _ => none

/-- The step ends a turn of the loop, with success. -/
def succeeded (id : String) (step : LoopStep) : Bool :=
  (step.before.endedTurn id step.input).any (¬ ·.Failed)

/-- The successful turn's answer meets the loop's goal. -/
def metGoal (id : String) (step : LoopStep) : Bool :=
  (step.before.endedTurn id step.input).any fun result =>
    ¬ result.Failed ∧ (step.before.loops.find? id).any
      fun loop => sentinelHit tables result.text loop.stopSentinel

/-- The turns that a run starts for a loop. -/
def turnsStartedIn (id : String) (steps : List LoopStep) : Nat :=
  (steps.map fun step => turnsStarted id step.output).sum

/-- No pause or resume is requested, writes succeed, and no id is drawn twice. -/
def Undisturbed (m : LoopManager) : LoopOp → Prop
  | .create _ _ w => w.writes = true ∧ m.loops.find? (mkId (m.seq + 1) w.now) = none
  | .stop _ w | .fire _ _ w | .turnEnds _ _ w => w.writes = true
  | .pause .. | .resume .. | .resumeAll => False
  | .restart => True

theorem Undisturbed.gated {m : LoopManager} {op : LoopOp} (h : m.Undisturbed op) : m.Gated op := by
  cases op with
  | create input agent w => exact h.2
  | resume id w => exact h.elim
  | resumeAll => exact h.elim
  | _ => trivial

/-! ### The file holds the loops -/

/-- The file's loops are the manager's, but for the transient flag. -/
def Stored (m : LoopManager) : Prop :=
  ∀ id, (m.file.find? id).map Loop.unblocked = (m.loops.find? id).map Loop.unblocked

section Stored

variable {tables} {m m' : LoopManager} {id : String} {loop : Loop} {w : World}

theorem stored_of_eq (h : m.file = m.loops) : m.Stored := by
  intro id
  rw [h]

theorem Stored.of_same (h : m.Stored) (hloops : m'.loops = m.loops) (hfile : m'.file = m.file) :
    m'.Stored := by
  intro id
  rw [hloops, hfile]
  exact h id

theorem stored_persist (m : LoopManager) (hw : w.writes = true) : (m.persist w).Stored := by
  refine stored_of_eq ?_
  rw [persist_file, persist_loops, if_pos hw]

theorem stored_stop (h : m.Stored) (hw : w.writes = true) (id : String) :
    (m.stop id w).2.Stored := by
  rcases m.stop_cases id w with hstop | ⟨loop, -, -, hstop⟩ <;> rw [hstop]
  · exact h
  · exact stored_persist _ hw

theorem stored_pause (h : m.Stored) (hw : w.writes = true) (id reason : String) :
    (m.pause id reason w).2.Stored := by
  rcases m.pause_cases id w reason with hpause | ⟨loop, -, -, hpause⟩ <;> rw [hpause]
  · exact h
  · exact stored_persist _ hw

theorem stored_reschedule (h : m.Stored) (id : String) : (m.reschedule id).Stored :=
  h.of_same (reschedule_loops m id) (reschedule_file m id)

theorem Stored.launched (h : m.Stored) (hfind : m.loops.find? loop.id = some loop)
    (agent : AgentProfile) (sessionId : Option JsString) :
    (m.launched loop agent sessionId).Stored := by
  intro id
  change (m.file.find? id).map Loop.unblocked =
    ((m.loops.put { loop with blocked := none }).find? id).map Loop.unblocked
  rw [Table.find?_put, h id]
  split
  · rename_i hid
    change loop.id = id at hid
    rw [← hid, hfind]
    rfl
  · rfl

theorem Stored.tick (h : m.Stored) (hw : w.writes = true) (id : String) (deps : TickDeps) :
    (m.tick id deps w).2.Stored := by
  have hstarted : (m.tickStarted id).Stored := h
  have hout := tick_outcome m id w deps
  generalize m.tick id deps w = out at hout ⊢
  cases hout with
  | idle hidle => exact h
  | exhausted loop hfind hrunning hmax => exact stored_persist _ hw
  | withdrawn loop hfind hrunning reason => exact stored_pause hstarted hw id reason
  | skipped loop hfind hrunning => exact stored_reschedule (stored_persist _ hw) id
  | launched loop hfind hrunning hiteration agent hagent hallowed hcredential hdriver =>
    obtain rfl : loop.id = id := Table.key_of_find? hfind
    exact hstarted.launched hfind agent deps.sessionId

/-- A failed loop is there to be paused. -/
theorem pause_failedLoop (m : LoopManager) (loop : Loop) (result : TurnResult) (w : World) :
    (m.setLoop (failedLoop loop result w)).pause loop.id "repeated_errors" w =
      (m.setLoop (failedLoop loop result w)).withdraw
        (pausedLoop (failedLoop loop result w) "repeated_errors" w) w := by
  have hfind := Table.find?_put_self m.loops (failedLoop loop result w)
  have hpause := pause_eq (m := m.setLoop (failedLoop loop result w)) w hfind "repeated_errors"
  rwa [failedLoop_id] at hpause

theorem Stored.afterTurn (hw : w.writes = true) (tables : CaseTables) (agent : AgentProfile)
    (result : TurnResult) : (m.afterTurn tables loop agent result w).2.Stored := by
  have hout := afterTurn_outcome m loop w tables agent result
  generalize m.afterTurn tables loop agent result w = out at hout ⊢
  cases hout with
  | gaveUp hfailed herrors =>
    rw [pause_failedLoop]
    exact stored_persist _ hw
  | failed hfailed herrors => exact stored_reschedule (stored_persist _ hw) _
  | goalMet hok hhit => exact stored_persist _ hw
  | exhausted hok hmiss hmax => exact stored_persist _ hw
  | advanced hok hmiss hmore => exact stored_reschedule (stored_persist _ hw) _

theorem Stored.turnEnds (h : m.Stored) (hw : w.writes = true) (tables : CaseTables)
    (controller : Nat) (stream : DriverStream) :
    (m.turnEnds tables controller stream w).2.Stored := by
  have hout := turnEnds_outcome m w tables controller stream
  generalize m.turnEnds tables controller stream w = out at hout ⊢
  cases hout with
  | unknown hnone => exact h
  | orphaned flight hflight hclosed => exact h
  | ended flight hflight loop hid hfind hrunning => exact Stored.afterTurn hw tables _ _

theorem Stored.create (h : m.Stored) (hw : w.writes = true) (tables : CaseTables) (maxLoops : Nat)
    (input : CreateLoopInput) (agent : Option AgentProfile) :
    (m.create tables maxLoops input agent w).2.Stored := by
  have hout := create_outcome m w tables maxLoops input agent
  generalize m.create tables maxLoops input agent w = out at hout ⊢
  cases hout with
  | rejected message => exact h
  | created agent interval maxIter hroom hmaxIter =>
    exact (stored_persist _ hw).of_same (scheduleTick_loops _ _) (scheduleTick_file _ _)

theorem stored_restart (m : LoopManager) : m.restart.Stored := by
  intro id
  rw [restart_file, find?_restart, Option.map_map]
  rfl

theorem Stored.step {maxLoops : Nat} {op : LoopOp} (h : m.Stored) (hop : m.Undisturbed op) :
    (loopStep tables maxLoops op m).2.Stored := by
  cases op with
  | create input agent w => exact h.create hop.1 tables maxLoops input agent
  | stop id w => exact stored_stop h hop id
  | pause id w => exact hop.elim
  | resume id w => exact hop.elim
  | resumeAll => exact hop.elim
  | fire handle deps w =>
    unfold loopStep LoopManager.fire
    dsimp only
    split
    · exact h
    · have hfired : ({ m with pending := m.pending.filter (·.handle ≠ handle) } :
          LoopManager).Stored := h
      exact hfired.tick hop _ deps
  | turnEnds controller stream w => exact h.turnEnds hop tables controller stream
  | restart => exact stored_restart m

end Stored

/-! ### Each step is an event in a loop's life -/

/-- What a step shows of an event. -/
structure Shows (id : String) (step : LoopStep) (e : LifeEvent) : Prop where
  starts : turnsStarted id step.output = if e = .start then 1 else 0
  ok : succeeded id step = e.ok
  goal : metGoal tables id step = e.goal
  crash : e = .crash → step.input = .restart
  stop : e = .stop → ∃ w, step.input = .stop id w

/-- The step is an event in the life of the loop that the manager has under the id. -/
def Lives (id : String) (step : LoopStep) : Prop :=
  ∀ loop, step.before.loops.find? id = some loop → ∃ loop' e,
    step.after.loops.find? id = some loop' ∧ loop'.maxIterations = loop.maxIterations ∧
      (step.before.lifeOf loop).Enabled loop.maxIterations e ∧
      step.after.lifeOf loop' =
        (step.before.lifeOf loop).next maxConsecutiveErrors loop.maxIterations e ∧
      Shows tables id step e

section Lives

variable {tables} {m : LoopManager} {id : String} {loop loop' : Loop} {op : LoopOp}
  {effects : List LoopEffect} {m' : LoopManager} {w : World}

/-- A step that ends no turn of the loop. -/
theorem shows_of_endedTurn_none {step : LoopStep} {e : LifeEvent}
    (hended : step.before.endedTurn id step.input = none)
    (hstarts : turnsStarted id step.output = if e = .start then 1 else 0)
    (hok : e.ok = false) (hgoal : e.goal = false) (hcrash : e = .crash → step.input = .restart)
    (hstop : e = .stop → ∃ w, step.input = .stop id w) : Shows tables id step e where
  starts := hstarts
  ok := by rw [succeeded, hended, hok]; rfl
  goal := by rw [metGoal, hended, hgoal]; rfl
  crash := hcrash
  stop := hstop

/-- A step that leaves the loop's life as it is. -/
theorem lives_idle
    (hfind : ∀ loop, m.loops.find? id = some loop → ∃ loop', m'.loops.find? id = some loop' ∧
      loop'.maxIterations = loop.maxIterations ∧ m'.lifeOf loop' = m.lifeOf loop)
    (hstarts : turnsStarted id effects = 0) (hended : m.endedTurn id op = none) :
    Lives tables id ⟨m, op, effects, m'⟩ := by
  intro loop hloop
  obtain ⟨loop', hloop', hmax, hlife⟩ := hfind loop hloop
  refine ⟨loop', .idle, hloop', hmax, trivial, hlife, ?_⟩
  exact shows_of_endedTurn_none hended hstarts rfl rfl (fun h => nomatch h) (fun h => nomatch h)

/-- A step that leaves the loop and its turn alone. -/
theorem lives_other (hfind : m'.loops.find? id = m.loops.find? id)
    (hturn : m'.hasTurn id = m.hasTurn id) (hstarts : turnsStarted id effects = 0)
    (hended : m.endedTurn id op = none) : Lives tables id ⟨m, op, effects, m'⟩ := by
  refine lives_idle (fun loop hloop => ⟨loop, by rw [hfind, hloop], rfl, ?_⟩) hstarts hended
  have hid : loop.id = id := Table.key_of_find? hloop
  rw [lifeOf, lifeOf, hid, hturn]

theorem hasTurn_of_flights (h : m'.flights = m.flights) (id : String) :
    m'.hasTurn id = m.hasTurn id := by
  rw [hasTurn, hasTurn, h]

theorem lifeOf_of_flights (h : m'.flights = m.flights) (loop : Loop) :
    m'.lifeOf loop = m.lifeOf loop := by
  rw [lifeOf, lifeOf, hasTurn_of_flights h]

theorem Landed.hasTurn (h : m.Landed id) : m.hasTurn id = false := by
  simpa [LoopManager.hasTurn, Landed] using h

theorem lives_create (tables : CaseTables) (maxLoops : Nat) (input : CreateLoopInput)
    (agent : Option AgentProfile) (hfresh : m.loops.find? (mkId (m.seq + 1) w.now) = none) :
    Lives tables id (stepOf (loopStep tables maxLoops) (.create input agent w) m) := by
  change Lives tables id ⟨m, .create input agent w, (m.create tables maxLoops input agent w).1,
    (m.create tables maxLoops input agent w).2⟩
  have hout := create_outcome m w tables maxLoops input agent
  generalize m.create tables maxLoops input agent w = out at hout ⊢
  cases hout with
  | rejected message => exact lives_other rfl rfl rfl rfl
  | created agent interval maxIter hroom hmaxIter =>
    refine lives_idle (fun loop hloop => ⟨loop, ?_, rfl, lifeOf_of_flights ?_ loop⟩) rfl rfl
    · rw [scheduleTick_loops, persist_loops, setLoop_loops, Table.find?_put_other]
      · exact hloop
      · intro hid
        rw [← hid] at hloop
        change m.loops.find? (mkId (m.seq + 1) w.now) = some loop at hloop
        rw [hfresh] at hloop
        cases hloop
    · rw [scheduleTick_flights, persist_flights, setLoop_flights]

/-- A step that stores one loop anew, with no turn started or ended: an event for this
loop, and nothing for the others. -/
theorem lives_put (loop' : Loop) (e : LifeEvent) (hfind : m.loops.find? loop.id = some loop)
    (hid : loop'.id = loop.id) (hmax : loop'.maxIterations = loop.maxIterations)
    (hloops : m'.loops = m.loops.put loop')
    (hflights : m'.flights = m.flights)
    (hplain : e = .idle ∨ e = .stop ∨ e = .withdraw ∨ e = .exhaust)
    (henabled : (m.lifeOf loop).Enabled loop.maxIterations e)
    (hnext : m.lifeOf loop' = (m.lifeOf loop).next maxConsecutiveErrors loop.maxIterations e)
    (hstarts : turnsStarted id effects = 0) (hended : m.endedTurn id op = none)
    (hstop : e = .stop → ∃ w, op = .stop loop.id w) : Lives tables id ⟨m, op, effects, m'⟩ := by
  by_cases hsame : loop.id = id
  · subst hsame
    intro old hold
    obtain rfl : loop = old := Option.some.inj (hfind.symm.trans hold)
    refine ⟨loop', e, ?_, hmax, henabled, (lifeOf_of_flights hflights loop').trans hnext, ?_⟩
    · change m'.loops.find? loop.id = some loop'
      rw [hloops, ← hid]
      exact Table.find?_put_self _ _
    · rcases hplain with rfl | rfl | rfl | rfl
      · exact shows_of_endedTurn_none hended hstarts rfl rfl (fun h => nomatch h) hstop
      · exact shows_of_endedTurn_none hended hstarts rfl rfl (fun h => nomatch h) hstop
      · exact shows_of_endedTurn_none hended hstarts rfl rfl (fun h => nomatch h) hstop
      · exact shows_of_endedTurn_none hended hstarts rfl rfl (fun h => nomatch h) hstop
  · refine lives_other ?_ (hasTurn_of_flights hflights id) hstarts hended
    rw [hloops]
    exact Table.find?_put_other (hid ▸ hsame)

theorem lives_stop (tables : CaseTables) (maxLoops : Nat) (k : String) (w : World) :
    Lives tables id (stepOf (loopStep tables maxLoops) (.stop k w) m) := by
  change Lives tables id ⟨m, .stop k w, (m.stop k w).1, (m.stop k w).2⟩
  have hstarts := turnsStarted_stop m id w k
  rcases m.stop_cases k w with hstop | ⟨loop, rfl, hfind, hstop⟩ <;> rw [hstop] at hstarts ⊢
  · exact lives_other rfl rfl rfl rfl
  · exact lives_put (stoppedLoop loop w) .stop hfind rfl rfl (withdraw_loops ..)
      (withdraw_flights ..) (.inr (.inl rfl)) trivial rfl hstarts rfl fun _ => ⟨w, rfl⟩

theorem lives_launched (hfind : m.loops.find? loop.id = some loop)
    (hrunning : loop.status = .running) (hlanded : m.Landed loop.id) (agent : AgentProfile)
    (sessionId : Option JsString) (hended : m.endedTurn id op = none)
    (hstarts : turnsStarted id effects = if loop.id = id then 1 else 0) :
    Lives tables id ⟨m, op, effects, (m.tickStarted loop.id).launched loop agent sessionId⟩ := by
  have hflights : ((m.tickStarted loop.id).launched loop agent sessionId).hasTurn id =
      (m.hasTurn id || decide (loop.id = id)) := by
    change (m.flights ++ [_]).any _ = _
    rw [List.any_append]
    simp [hasTurn]
  by_cases hid : loop.id = id
  · subst hid
    intro old hold
    obtain rfl : loop = old := Option.some.inj (hfind.symm.trans hold)
    refine ⟨{ loop with blocked := none }, .start, Table.find?_put_self _ _, rfl,
      ⟨hrunning, hlanded.hasTurn⟩, ?_, ?_⟩
    · rw [lifeOf]
      change Life.mk _ _ _ (((m.tickStarted loop.id).launched loop agent sessionId).hasTurn
        loop.id) = _
      rw [hflights]
      simp [lifeOf, Life.next]
    · exact shows_of_endedTurn_none hended (by rw [hstarts, if_pos rfl, if_pos rfl]) rfl rfl
        (by rintro ⟨⟩) (by rintro ⟨⟩)
  · refine lives_other (Table.find?_put_other hid) ?_ (by rw [hstarts, if_neg hid]) hended
    rw [hflights, decide_eq_false hid, Bool.or_false]

theorem lives_tick (k : String) (deps : TickDeps) (hlanded : m.Landed k)
    (hended : m.endedTurn id op = none) :
    Lives tables id ⟨m, op, (m.tick k deps w).1, (m.tick k deps w).2⟩ := by
  have hout := tick_outcome m k w deps
  generalize m.tick k deps w = out at hout ⊢
  cases hout with
  | idle hidle => exact lives_other rfl rfl rfl hended
  | exhausted loop hfind hrunning hmax =>
    obtain rfl : loop.id = k := Table.key_of_find? hfind
    refine lives_put (finishedLoop loop "max_iterations" w) .exhaust hfind
      (finishedLoop_id ..) ?_ (finish_loops ..) (finish_flights ..) (.inr (.inr (.inr rfl)))
      ⟨hrunning, hmax⟩ ?_ rfl hended (by rintro ⟨⟩)
    · simp only [finishedLoop, Loop.pushHistory]
    · simp only [lifeOf, finishedLoop, Loop.pushHistory, Life.next]
  | withdrawn loop hfind hrunning reason =>
    obtain rfl : loop.id = k := Table.key_of_find? hfind
    have hstarts := turnsStarted_pause (m.tickStarted loop.id) id w loop.id reason
    rw [pause_eq (m := m.tickStarted loop.id) w hfind] at hstarts ⊢
    exact lives_put (pausedLoop loop reason w) .withdraw hfind rfl rfl
      (withdraw_loops ..) (withdraw_flights ..) (.inr (.inr (.inl rfl)))
      ⟨hrunning, hlanded.hasTurn⟩ rfl hstarts hended (by rintro ⟨⟩)
  | skipped loop hfind hrunning =>
    obtain rfl : loop.id = k := Table.key_of_find? hfind
    refine lives_put (skippedLoop loop deps w) .idle hfind (skippedLoop_id ..) ?_ ?_
      ?_ (.inl rfl) trivial ?_ rfl hended (by rintro ⟨⟩)
    · simp only [skippedLoop, Loop.pushHistory]
    · rw [reschedule_loops, persist_loops, setLoop_loops]
      rfl
    · rw [reschedule_flights, persist_flights, setLoop_flights]
      rfl
    · simp only [lifeOf, skippedLoop, Loop.pushHistory, Life.next]
  | launched loop hfind hrunning hiteration agent hagent hallowed hcredential hdriver =>
    obtain rfl : loop.id = k := Table.key_of_find? hfind
    refine lives_launched hfind hrunning hlanded agent deps.sessionId hended ?_
    by_cases hid : loop.id = id <;> simp [turnsStarted, LoopEffect.startsTurn, hid]

/-- A life depends on the loops and the turns only. -/
theorem Lives.of_before {m₁ : LoopManager} (h : Lives tables id ⟨m₁, op, effects, m'⟩)
    (hloops : m₁.loops = m.loops) (hflights : m₁.flights = m.flights) :
    Lives tables id ⟨m, op, effects, m'⟩ := by
  intro loop hloop
  have hended : m₁.endedTurn id op = m.endedTurn id op := by
    unfold endedTurn
    rw [hflights]
  obtain ⟨loop', e, hfind, hmax, henabled, hnext, hshows⟩ := h loop (by rwa [← hloops] at hloop)
  have hlife : m₁.lifeOf loop = m.lifeOf loop := lifeOf_of_flights hflights loop
  change (m₁.lifeOf loop).Enabled loop.maxIterations e at henabled
  change m'.lifeOf loop' =
    (m₁.lifeOf loop).next maxConsecutiveErrors loop.maxIterations e at hnext
  rw [hlife] at henabled hnext
  refine ⟨loop', e, hfind, hmax, henabled, hnext, hshows.starts, ?_, ?_, hshows.crash, hshows.stop⟩
  · rw [← hshows.ok]
    exact congrArg (Option.any _) hended.symm
  · rw [← hshows.goal]
    simp only [metGoal, hended, hloops]

theorem lives_fire (hapart : m.Apart) (tables : CaseTables) (maxLoops handle : Nat)
    (deps : TickDeps) (w : World) :
    Lives tables id (stepOf (loopStep tables maxLoops) (.fire handle deps w) m) := by
  change Lives tables id ⟨m, .fire handle deps w, (m.fire handle deps w).1,
    (m.fire handle deps w).2⟩
  rcases m.fire_cases handle deps w with hfire | ⟨timer, hmem, -, hfire⟩
  · rw [hfire]
    exact lives_other rfl rfl rfl rfl
  · rw [hfire]
    have hlanded := hapart timer hmem
    have htick : Lives tables id ⟨{ m with pending := m.pending.filter (·.handle ≠ handle) },
        .fire handle deps w, _, _⟩ := lives_tick (w := w) timer.loopId deps hlanded rfl
    exact htick.of_before rfl rfl

/-- A step that ends a turn of the loop. -/
theorem shows_of_endedTurn {step : LoopStep} {e : LifeEvent} {result : TurnResult}
    (hended : step.before.endedTurn id step.input = some result)
    (hfind : step.before.loops.find? id = some loop) (hstarts : turnsStarted id step.output = 0)
    (hstart : e ≠ .start) (hcrash : e ≠ .crash) (hstop : e ≠ .stop)
    (hok : e.ok = decide (¬ result.Failed))
    (hgoal : e.goal = (decide (¬ result.Failed) && sentinelHit tables result.text loop.stopSentinel)) :
    Shows tables id step e where
  starts := by rw [hstarts, if_neg hstart]
  ok := by rw [succeeded, hended, hok]; rfl
  goal := by
    rw [metGoal, hended, hgoal, hfind]
    simp
  crash := fun h => absurd h hcrash
  stop := fun h => absurd h hstop

theorem Sound.hasTurn_landed_other (h : m.Sound) {flight : Flight} (hflight : flight ∈ m.flights)
    (hother : flight.loopId ≠ id) : (m.landed flight).hasTurn id = m.hasTurn id := by
  change (m.flights.filter (·.controller ≠ flight.controller)).any (·.loopId = id) =
    m.flights.any (·.loopId = id)
  rw [Bool.eq_iff_iff, List.any_eq_true, List.any_eq_true]
  constructor
  · rintro ⟨f, hf, hid⟩
    exact ⟨f, List.mem_of_mem_filter hf, hid⟩
  · rintro ⟨f, hf, hid⟩
    refine ⟨f, List.mem_filter.mpr ⟨hf, decide_eq_true fun hsame => ?_⟩, hid⟩
    rw [List.inj_on_of_nodup_map h.controllers hf hflight hsame] at hid
    exact hother (of_decide_eq_true hid)

/-- A running loop's turn ends as an event that leaves `loop'` in its place. -/
structure EndsAs (tables : CaseTables) (loop : Loop) (result : TurnResult) (loop' : Loop)
    (e : LifeEvent) : Prop where
  id : loop'.id = loop.id
  maxIterations : loop'.maxIterations = loop.maxIterations
  event : e = .fail ∧ result.Failed ∨
    e = .succeed (sentinelHit tables result.text loop.stopSentinel) ∧ ¬ result.Failed
  life : (⟨loop'.status, loop'.iteration, loop'.consecutiveErrors, false⟩ : Life) =
    Life.next maxConsecutiveErrors loop.maxIterations
      ⟨loop.status, loop.iteration, loop.consecutiveErrors, true⟩ e

theorem find?_put_put (loops : Table Loop.id) (first second : Loop) (hid : second.id = first.id)
    (k : String) : ((loops.put first).put second).find? k =
      if first.id = k then some second else loops.find? k := by
  rw [Table.find?_put, hid, Table.find?_put]
  split <;> rfl

theorem afterTurn_endsAs (hrunning : loop.status = .running) (tables : CaseTables)
    (agent : AgentProfile) (result : TurnResult) (w : World) :
    ∃ loop' e, EndsAs tables loop result loop' e ∧
      ∀ k, (m.afterTurn tables loop agent result w).2.loops.find? k =
        if loop.id = k then some loop' else m.loops.find? k := by
  have hout := afterTurn_outcome m loop w tables agent result
  generalize m.afterTurn tables loop agent result w = out at hout ⊢
  cases hout with
  | gaveUp hfailed herrors =>
    refine ⟨pausedLoop (failedLoop loop result w) "repeated_errors" w, .fail,
      ⟨?_, ?_, .inl ⟨rfl, hfailed⟩, ?_⟩, fun k => ?_⟩
    · simp only [pausedLoop, failedLoop, Loop.pushHistory]
    · simp only [pausedLoop, failedLoop, Loop.pushHistory]
    · simp only [pausedLoop, failedLoop, Loop.pushHistory, Life.next, if_pos herrors]
    · rw [pause_failedLoop, withdraw_loops, setLoop_loops, 
        find?_put_put _ _ _ (pausedLoop_id ..), failedLoop_id]
  | failed hfailed herrors =>
    refine ⟨failedLoop loop result w, .fail, ⟨failedLoop_id .., ?_, .inl ⟨rfl, hfailed⟩, ?_⟩,
      fun k => ?_⟩
    · simp only [failedLoop, Loop.pushHistory]
    · simp only [failedLoop, Loop.pushHistory, Life.next, if_neg (Nat.not_le_of_lt herrors), hrunning]
    · rw [reschedule_loops, persist_loops, setLoop_loops, Table.find?_put, failedLoop_id]
  | goalMet hok hhit =>
    refine ⟨finishedLoop (advancedLoop loop result w) "goal_met" w, .succeed _,
      ⟨?_, ?_, .inr ⟨rfl, hok⟩, ?_⟩, fun k => ?_⟩
    · rw [finishedLoop_id, advancedLoop_id]
    · simp only [finishedLoop, advancedLoop, Loop.pushHistory]
    · simp only [finishedLoop, advancedLoop, Loop.pushHistory, Life.next, hhit, true_or, if_true]
    · rw [finish_loops, setLoop_loops, find?_put_put _ _ _ (finishedLoop_id ..), advancedLoop_id]
  | exhausted hok hmiss hmax =>
    refine ⟨finishedLoop (advancedLoop loop result w) "max_iterations" w, .succeed _,
      ⟨?_, ?_, .inr ⟨rfl, hok⟩, ?_⟩, fun k => ?_⟩
    · rw [finishedLoop_id, advancedLoop_id]
    · simp only [finishedLoop, advancedLoop, Loop.pushHistory]
    · simp only [finishedLoop, advancedLoop, Loop.pushHistory, Life.next, hmax, or_true, if_true]
    · rw [finish_loops, setLoop_loops, find?_put_put _ _ _ (finishedLoop_id ..), advancedLoop_id]
  | advanced hok hmiss hmore =>
    refine ⟨advancedLoop loop result w, .succeed _, ⟨advancedLoop_id .., ?_, .inr ⟨rfl, hok⟩, ?_⟩,
      fun k => ?_⟩
    · simp only [advancedLoop, Loop.pushHistory]
    · simp only [advancedLoop, Loop.pushHistory, Life.next, hmiss, Bool.false_eq_true, false_or,
        if_neg (Nat.not_le_of_lt hmore), hrunning]
    · rw [reschedule_loops, persist_loops, setLoop_loops, Table.find?_put, advancedLoop_id]

theorem endedTurn_turnEnds (id : String) {controller : Nat} {flight : Flight}
    (hflight : m.flights.find? (·.controller = controller) = some flight) (stream : DriverStream)
    (w : World) :
    m.endedTurn id (.turnEnds controller stream w) =
      if flight.loopId = id then some (runAgentTurn flight.sessionId stream) else none := by
  simp only [endedTurn, hflight]
  by_cases hid : flight.loopId = id <;> simp [hid]

/-- The turn of a loop that no longer runs. -/
theorem lives_orphaned (hsound : m.Sound) {flight : Flight} (hflight : flight ∈ m.flights)
    (hid : flight.loopId = id) (hclosed : ∀ loop, m.loops.find? id = some loop →
      loop.status ≠ .running) {result : TurnResult} (hended : m.endedTurn id op = some result) :
    Lives tables id ⟨m, op, [], m.landed flight⟩ := by
  subst hid
  intro loop hfind
  have hloop : loop.id = flight.loopId := Table.key_of_find? hfind
  have hturn : m.hasTurn flight.loopId = true := List.any_eq_true.mpr ⟨flight, hflight, by simp⟩
  refine ⟨loop, .orphan (decide (¬ result.Failed)) (sentinelHit tables result.text loop.stopSentinel),
    hfind, rfl, ⟨hclosed loop hfind, ?_⟩, ?_, ?_⟩
  · rw [lifeOf, hloop]
    exact hturn
  · rw [lifeOf, hloop]
    exact congrArg (Life.mk _ _ _) (hsound.landed_flight hflight).hasTurn
  · exact shows_of_endedTurn hended hfind rfl (by simp) (by simp) (by simp) rfl rfl

/-- The turn of a running loop. -/
theorem lives_afterTurn (hsound : m.Sound) {flight : Flight} (hflight : flight ∈ m.flights)
    (hfind : m.loops.find? flight.loopId = some loop) (hrunning : loop.status = .running)
    {result : TurnResult} (hended : m.endedTurn flight.loopId op = some result)
    (hstarts : turnsStarted flight.loopId
      ((m.landed flight).afterTurn tables loop flight.agent result w).1 = 0) :
    Lives tables flight.loopId ⟨m, op,
      ((m.landed flight).afterTurn tables loop flight.agent result w).1,
      ((m.landed flight).afterTurn tables loop flight.agent result w).2⟩ := by
  have hloop : loop.id = flight.loopId := Table.key_of_find? hfind
  have hturn : m.lifeOf loop = ⟨loop.status, loop.iteration, loop.consecutiveErrors, true⟩ := by
    have hsome : m.hasTurn flight.loopId = true :=
      List.any_eq_true.mpr ⟨flight, hflight, by simp⟩
    rw [lifeOf, hloop, hsome]
  obtain ⟨loop', e, hends, hfind'⟩ := afterTurn_endsAs (m := m.landed flight) hrunning tables
    flight.agent result w
  have hnoTurn : ((m.landed flight).afterTurn tables loop flight.agent result w).2.hasTurn loop'.id =
      false := by
    rw [hends.id, hloop, hasTurn_of_flights (afterTurn_flights _ _ _ tables _ _)]
    exact (hsound.landed_flight hflight).hasTurn
  intro old hold
  obtain rfl : loop = old := Option.some.inj (hfind.symm.trans hold)
  refine ⟨loop', e, ?_, hends.maxIterations, ?_, ?_, ?_⟩
  · exact (hfind' _).trans (if_pos hloop)
  · change (m.lifeOf loop).Enabled loop.maxIterations e
    rw [hturn]
    rcases hends.event with ⟨rfl, -⟩ | ⟨rfl, -⟩
    · exact ⟨hrunning, rfl⟩
    · exact ⟨hrunning, rfl⟩
  · change _ = (m.lifeOf loop).next maxConsecutiveErrors loop.maxIterations e
    rw [hturn, ← hends.life, lifeOf, hnoTurn]
  · rcases hends.event with ⟨rfl, hfailed⟩ | ⟨rfl, hok⟩
    · exact shows_of_endedTurn hended hfind hstarts (by simp) (by simp) (by simp)
        (by simp [LifeEvent.ok, hfailed]) (by simp [LifeEvent.goal, hfailed])
    · exact shows_of_endedTurn hended hfind hstarts (by simp) (by simp) (by simp)
        (by simp [LifeEvent.ok, hok]) (by simp [LifeEvent.goal, hok])

theorem lives_turnEnds (hsound : m.Sound) (tables : CaseTables) (maxLoops controller : Nat)
    (stream : DriverStream) (w : World) :
    Lives tables id (stepOf (loopStep tables maxLoops) (.turnEnds controller stream w) m) := by
  have hstarts := turnsStarted_turnEnds m id w tables controller stream
  change Lives tables id ⟨m, .turnEnds controller stream w, (m.turnEnds tables controller stream w).1,
    (m.turnEnds tables controller stream w).2⟩
  have hout := turnEnds_outcome m w tables controller stream
  generalize m.turnEnds tables controller stream w = out at hstarts hout ⊢
  cases hout with
  | unknown hnone => exact lives_other rfl rfl rfl (by simp [endedTurn, hnone])
  | orphaned flight hflight hclosed =>
    have hmem : flight ∈ m.flights := List.mem_of_find?_eq_some hflight
    have hended := endedTurn_turnEnds id hflight stream w
    by_cases hother : flight.loopId = id
    · rw [if_pos hother] at hended
      exact lives_orphaned hsound hmem hother (hother ▸ hclosed) hended
    · rw [if_neg hother] at hended
      exact lives_other rfl (hsound.hasTurn_landed_other hmem hother) rfl hended
  | ended flight hflight loop hid hfind hrunning =>
    have hmem : flight ∈ m.flights := List.mem_of_find?_eq_some hflight
    have hended := endedTurn_turnEnds id hflight stream w
    by_cases hother : flight.loopId = id
    · subst hother
      rw [if_pos rfl] at hended
      exact lives_afterTurn hsound hmem (hid ▸ hfind) hrunning hended hstarts
    · rw [if_neg hother] at hended
      obtain ⟨loop', e, -, hfind'⟩ := afterTurn_endsAs (m := m.landed flight) hrunning tables
        flight.agent (runAgentTurn flight.sessionId stream) w
      refine lives_other ((hfind' id).trans (if_neg (hid ▸ hother))) ?_ hstarts hended
      rw [hasTurn_of_flights (afterTurn_flights _ _ _ tables _ _),
        hsound.hasTurn_landed_other hmem hother]

theorem lives_restart (hstored : m.Stored) (tables : CaseTables) (maxLoops : Nat) :
    Lives tables id (stepOf (loopStep tables maxLoops) .restart m) := by
  intro loop hloop
  have hfile : m.restart.loops.find? id = some loop.unblocked := by
    rw [find?_restart]
    have hunblocked := hstored id
    rw [show m.loops.find? id = some loop from hloop] at hunblocked
    exact hunblocked
  refine ⟨loop.unblocked, .crash, hfile, rfl, trivial, ?_, ?_⟩
  · have hnone : m.restart.hasTurn loop.id = false := by
      rw [hasTurn, restart_flights]
      rfl
    change Life.mk _ _ _ (m.restart.hasTurn loop.id) = _
    rw [hnone]
    rfl
  · exact shows_of_endedTurn_none rfl rfl rfl rfl (fun _ => rfl) (fun h => nomatch h)

/-- Every step is an event in the life of each loop. -/
theorem life_step (hquiet : m.Quiet) (hstored : m.Stored) (tables : CaseTables) (maxLoops : Nat)
    (hop : m.Undisturbed op) : Lives tables id (stepOf (loopStep tables maxLoops) op m) := by
  cases op with
  | create input agent w => exact lives_create tables maxLoops input agent hop.2
  | stop k w => exact lives_stop tables maxLoops k w
  | pause k w => exact hop.elim
  | resume k w => exact hop.elim
  | resumeAll => exact hop.elim
  | fire handle deps w => exact lives_fire hquiet.2 tables maxLoops handle deps w
  | turnEnds controller stream w => exact lives_turnEnds hquiet.1 tables maxLoops controller stream w
  | restart => exact lives_restart hstored tables maxLoops

/-! ### Loops that are not there yet -/

theorem ne_of_find?_none (hnone : m.loops.find? id = none) (hfind : m.loops.find? loop.id = some loop) :
    loop.id ≠ id := by
  intro hid
  rw [hid, hnone] at hfind
  cases hfind

theorem tick_absent (hnone : m.loops.find? id = none) (k : String) (deps : TickDeps) (w : World) :
    (m.tick k deps w).2.loops.find? id = none := by
  have hput : ∀ loop loop' : Loop, m.loops.find? k = some loop → loop'.id = loop.id →
      (m.loops.put loop').find? id = none := by
    intro loop loop' hfind hid
    obtain rfl : loop.id = k := Table.key_of_find? hfind
    rw [Table.find?_put_other, hnone]
    rw [hid]
    exact ne_of_find?_none hnone hfind
  have hout := tick_outcome m k w deps
  generalize m.tick k deps w = out at hout ⊢
  cases hout with
  | idle hidle => exact hnone
  | exhausted loop hfind hrunning hmax =>
    rw [finish_loops]
    exact hput loop _ hfind (finishedLoop_id ..)
  | withdrawn loop hfind hrunning reason =>
    obtain rfl : loop.id = k := Table.key_of_find? hfind
    rw [pause_eq (m := m.tickStarted loop.id) w hfind, withdraw_loops]
    exact hput loop _ hfind (pausedLoop_id ..)
  | skipped loop hfind hrunning =>
    rw [reschedule_loops, persist_loops, setLoop_loops]
    exact hput loop _ hfind (skippedLoop_id ..)
  | launched loop hfind hrunning hiteration agent hagent hallowed hcredential hdriver =>
    exact hput loop { loop with blocked := none } hfind rfl

theorem stop_absent (hnone : m.loops.find? id = none) (k : String) (w : World) :
    (m.stop k w).2.loops.find? id = none := by
  rcases m.stop_cases k w with hstop | ⟨loop, rfl, hfind, hstop⟩ <;> rw [hstop]
  · exact hnone
  · rw [withdraw_loops, ← hnone]
    exact Table.find?_put_other (ne_of_find?_none hnone hfind : loop.id ≠ id)

theorem turnEnds_absent (hnone : m.loops.find? id = none) (tables : CaseTables) (controller : Nat)
    (stream : DriverStream) (w : World) :
    (m.turnEnds tables controller stream w).2.loops.find? id = none := by
  have hout := turnEnds_outcome m w tables controller stream
  generalize m.turnEnds tables controller stream w = out at hout ⊢
  cases hout with
  | unknown _ => exact hnone
  | orphaned flight hflight hclosed => exact hnone
  | ended flight hflight loop hid hfind hrunning =>
    obtain ⟨loop', e, -, hfind'⟩ := afterTurn_endsAs (m := m.landed flight) hrunning tables
      flight.agent (runAgentTurn flight.sessionId stream) w
    exact (hfind' id).trans ((if_neg (ne_of_find?_none hnone hfind)).trans hnone)

/-- No timer and no turn of a loop that is not there. -/
theorem Sound.absent (h : m.Sound) (hnone : m.loops.find? id = none) (tables : CaseTables)
    (maxLoops : Nat) (op : LoopOp) :
    turnsStarted id (loopStep tables maxLoops op m).1 = 0 ∧ m.endedTurn id op = none := by
  constructor
  · by_contra hstarts
    obtain ⟨handle, deps, w, rfl⟩ := turnsStarted_step m id hstarts
    obtain ⟨-, -, loop, hfind, -, -⟩ := turnsStarted_fire m id w handle deps hstarts
    rw [hnone] at hfind
    cases hfind
  · cases op with
    | turnEnds controller stream w =>
      cases hflight : m.flights.find? (·.controller = controller) with
      | none => simp [endedTurn, hflight]
      | some flight =>
        rw [endedTurn_turnEnds id hflight, if_neg]
        intro hid
        exact h.known flight (List.mem_of_find?_eq_some hflight) (hid ▸ hnone)
    | _ => rfl

/-- A loop that a step brings is newborn. -/
theorem newborn_step (hquiet : m.Quiet) (hstored : m.Stored) (tables : CaseTables) (maxLoops : Nat)
    (hop : m.Undisturbed op) (hnone : m.loops.find? id = none)
    (hfind : (loopStep tables maxLoops op m).2.loops.find? id = some loop) :
    0 < loop.maxIterations ∧ (loopStep tables maxLoops op m).2.lifeOf loop = Life.newborn := by
  cases op with
  | create input agent w =>
    have hfresh : m.Landed (mkId (m.seq + 1) w.now) := fun f hf heq =>
      hquiet.1.known f hf (heq ▸ hop.2)
    change (m.create tables maxLoops input agent w).2.loops.find? id = some loop at hfind
    change _ ∧ (m.create tables maxLoops input agent w).2.lifeOf loop = Life.newborn
    have hout := create_outcome m w tables maxLoops input agent
    generalize m.create tables maxLoops input agent w = out at hout hfind ⊢
    cases hout with
    | rejected message =>
      rw [hnone] at hfind
      cases hfind
    | created agent interval maxIter hroom hmaxIter =>
      rw [scheduleTick_loops, persist_loops, setLoop_loops, Table.find?_put] at hfind
      split at hfind
      · obtain rfl := Option.some.inj hfind
        refine ⟨hmaxIter, ?_⟩
        rw [lifeOf, hasTurn, scheduleTick_flights, persist_flights, setLoop_flights]
        exact congrArg (Life.mk _ _ _) hfresh.hasTurn
      · change m.loops.find? id = some loop at hfind
        rw [hnone] at hfind
        cases hfind
  | stop k w =>
    rw [loopStep, stop_absent hnone] at hfind
    cases hfind
  | pause k w => exact hop.elim
  | resume k w => exact hop.elim
  | resumeAll => exact hop.elim
  | fire handle deps w =>
    have habsent : (m.fire handle deps w).2.loops.find? id = none := by
      rcases m.fire_cases handle deps w with hfire | ⟨timer, -, -, hfire⟩
      · rw [hfire]
        exact hnone
      · rw [hfire]
        exact tick_absent (m := { m with pending := m.pending.filter (·.handle ≠ handle) }) hnone _
          deps w
    rw [loopStep, habsent] at hfind
    cases hfind
  | turnEnds controller stream w =>
    rw [loopStep, turnEnds_absent hnone] at hfind
    cases hfind
  | restart =>
    have hfile := hstored id
    rw [hnone, Option.map_none, Option.map_eq_none_iff] at hfile
    rw [loopStep, find?_restart, hfile] at hfind
    cases hfind

end Lives

/-! ### Runs -/

/-- What the steps so far show of a loop is what the events say. -/
structure Tells (past : List LoopStep) (id : String) (events : List LifeEvent) : Prop where
  starts : turnsStartedIn id past = events.count .start
  ok : past.countP (succeeded id) = events.countP (·.ok)
  goal : past.any (metGoal tables id) = events.any (·.goal)
  crashes : events.count .crash ≤ past.countP (·.input.isRestart)
  stop : .stop ∈ events → ∃ step ∈ past, ∃ w, step.input = .stop id w

/-- The steps so far are the life of the loop, from its birth on. -/
def Chronicle (past : List LoopStep) (m : LoopManager) (id : String) : Prop :=
  ∃ events, Tells tables past id events ∧
    (m.loops.find? id = none → events = []) ∧
    ∀ loop, m.loops.find? id = some loop → 0 < loop.maxIterations ∧
      Life.Lived maxConsecutiveErrors loop.maxIterations events (m.lifeOf loop)

section Runs

variable {tables} {past : List LoopStep} {t : LoopStep} {id : String} {events : List LifeEvent}
  {e : LifeEvent} {m : LoopManager} {op : LoopOp} {maxLoops : Nat}

theorem turnsStartedIn_append (past : List LoopStep) (step : LoopStep) (id : String) :
    turnsStartedIn id (past ++ [step]) = turnsStartedIn id past + turnsStarted id step.output := by
  simp [turnsStartedIn]

theorem Tells.step (h : Tells tables past id events) (hshows : Shows tables id t e) :
    Tells tables (past ++ [t]) id (events ++ [e]) where
  starts := by
    rw [turnsStartedIn_append, h.starts, hshows.starts, List.count_append, List.count_singleton]
    simp
  ok := by
    rw [List.countP_append, List.countP_append, h.ok, List.countP_singleton, List.countP_singleton,
      hshows.ok]
  goal := by
    rw [List.any_append, List.any_append, h.goal]
    simp [hshows.goal]
  crashes := by
    rw [List.count_append, List.countP_append, List.count_singleton, List.countP_singleton]
    refine Nat.add_le_add h.crashes ?_
    by_cases hcrash : e = .crash
    · rw [hshows.crash hcrash]
      simp [hcrash, LoopOp.isRestart]
    · simp [hcrash]
  stop := by
    intro hstop
    rcases List.mem_append.mp hstop with hstop | hstop
    · obtain ⟨earlier, hmem, hinput⟩ := h.stop hstop
      exact ⟨earlier, List.mem_append_left _ hmem, hinput⟩
    · exact ⟨t, List.mem_append_right _ List.mem_cons_self,
        hshows.stop (List.mem_singleton.mp hstop).symm⟩

/-- A step that the loop does not see. -/
theorem Tells.absent (h : Tells tables past id []) (hstarts : turnsStarted id t.output = 0)
    (hended : t.before.endedTurn id t.input = none) :
    Tells tables (past ++ [t]) id [] where
  starts := by
    rw [turnsStartedIn_append, h.starts, hstarts, Nat.add_zero]
  ok := by
    rw [List.countP_append, h.ok, List.countP_singleton, succeeded, hended]
    rfl
  goal := by
    rw [List.any_append, h.goal]
    simp [metGoal, hended]
  crashes := Nat.zero_le _
  stop := fun hstop => absurd hstop List.not_mem_nil

theorem Chronicle.step (h : Chronicle tables past m id) (hquiet : m.Quiet) (hstored : m.Stored)
    (hop : m.Undisturbed op) :
    Chronicle tables (past ++ [stepOf (loopStep tables maxLoops) op m])
      (loopStep tables maxLoops op m).2 id := by
  obtain ⟨events, htells, hempty, hlived⟩ := h
  cases hfind : m.loops.find? id with
  | none =>
    obtain rfl := hempty hfind
    obtain ⟨hstarts, hended⟩ := hquiet.1.absent hfind tables maxLoops op
    refine ⟨[], htells.absent hstarts hended, fun _ => rfl, fun loop hloop => ?_⟩
    obtain ⟨hlimit, hlife⟩ := newborn_step hquiet hstored tables maxLoops hop hfind hloop
    rw [hlife]
    exact ⟨hlimit, .born⟩
  | some loop =>
    have hlives : Lives tables id (stepOf (loopStep tables maxLoops) op m) :=
      life_step hquiet hstored tables maxLoops hop
    obtain ⟨loop', e, hfind', hmax, henabled, hnext, hshows⟩ := hlives loop hfind
    obtain ⟨hlimit, hlife⟩ := hlived loop hfind
    change (loopStep tables maxLoops op m).2.loops.find? id = some loop' at hfind'
    refine ⟨events ++ [e], htells.step hshows, fun hnone => ?_, fun other hother => ?_⟩
    · rw [hfind'] at hnone
      cases hnone
    · obtain rfl : loop' = other := Option.some.inj (hfind'.symm.trans hother)
      rw [hmax]
      refine ⟨hlimit, ?_⟩
      change Life.Lived _ _ _ ((stepOf (loopStep tables maxLoops) op m).after.lifeOf loop')
      rw [hnext]
      exact hlife.next e henabled

theorem chronicle_boot (tables : CaseTables) (id : String) :
    Chronicle tables [] (boot .empty) id := by
  have hnone : (boot .empty).loops.find? id = none := by
    rw [boot, find?_restart]
    rfl
  refine ⟨[], ⟨rfl, rfl, rfl, Nat.zero_le _, fun hstop => absurd hstop List.not_mem_nil⟩,
    fun _ => rfl, fun loop hloop => ?_⟩
  rw [hnone] at hloop
  cases hloop

end Runs

/-- What holds after steps that meet the condition. -/
def Told (past : List LoopStep) (m : LoopManager) : Prop :=
  (∀ step ∈ past, step.before.Undisturbed step.input) →
    m.Quiet ∧ m.Stored ∧ ∀ id, Chronicle tables past m id

/-- The steps of a run from nothing are the life of each loop. -/
theorem told_run (maxLoops : Nat) (ops : List LoopOp) :
    Told tables (trace (loopStep tables maxLoops) ops (boot .empty))
      (final (loopStep tables maxLoops) ops (boot .empty)) := by
  have hboot : Told tables [] (boot .empty) := fun _ =>
    ⟨quiet_restart _, stored_restart _, chronicle_boot tables⟩
  refine history_invariant (R := Told tables) (fun op past m ih hpast => ?_) ops hboot
  have hop : m.Undisturbed op := hpast (stepOf (loopStep tables maxLoops) op m)
    (List.mem_append_right _ List.mem_cons_self)
  obtain ⟨hquiet, hstored, hchronicle⟩ := ih fun step hstep =>
    hpast step (List.mem_append_left _ hstep)
  exact ⟨hquiet.step hop.gated, hstored.step hop, fun id =>
    (hchronicle id).step hquiet hstored hop⟩

/-- **The turns of a loop are bounded**, in every run from nothing without pause and resume
requests: by three for each iteration and one for each restart. A loop that has had its
iterations, or whose goal is met, is completed, or stopped by a request. -/
theorem turns_bounded (maxLoops : Nat) (ops : List LoopOp)
    (hops : ∀ step ∈ trace (loopStep tables maxLoops) ops (boot .empty),
      step.before.Undisturbed step.input) (id : String) (loop : Loop)
    (hfind : (final (loopStep tables maxLoops) ops (boot .empty)).loops.find? id = some loop) :
    turnsStartedIn id (trace (loopStep tables maxLoops) ops (boot .empty)) ≤
        3 * loop.maxIterations + ops.countP (·.isRestart) ∧
      loop.iteration ≤ loop.maxIterations ∧
      (loop.maxIterations ≤
          (trace (loopStep tables maxLoops) ops (boot .empty)).countP (succeeded id) ∨
        (trace (loopStep tables maxLoops) ops (boot .empty)).any (metGoal tables id) = true →
        loop.status = .completed ∨ loop.status = .stopped ∧ ∃ w, .stop id w ∈ ops) := by
  obtain ⟨events, htells, -, hlived⟩ := (told_run tables maxLoops ops hops).2.2 id
  obtain ⟨hlimit, hlife⟩ := hlived loop hfind
  have haccount := hlife.accounted (by decide) hlimit
  have hinputs := trace_map_input (loopStep tables maxLoops) ops (boot .empty)
  refine ⟨?_, haccount.iteration, fun hdone => ?_⟩
  · have hcrashes := htells.crashes
    have hrestarts : (trace (loopStep tables maxLoops) ops (boot .empty)).countP
        (·.input.isRestart) = ops.countP (·.isRestart) := by
      conv_rhs => rw [← hinputs, List.countP_map]
      rfl
    rw [htells.starts, ← hrestarts]
    exact haccount.starts.trans (Nat.add_le_add_left hcrashes _)
  · rw [htells.ok, htells.goal] at hdone
    refine (haccount.done hdone).imp_right fun hstopped => ⟨hstopped.1, ?_⟩
    obtain ⟨step, hmem, w, hinput⟩ := htells.stop hstopped.2
    exact ⟨w, by rw [← hinputs, ← hinput]; exact List.mem_map_of_mem hmem⟩

/-! A loop that is stopped during the turn that meets its goal. -/

def stoppedMidTurn : List LoopOp :=
  [.create tidyUp (some assistant) epoch, .fire 0 ready epoch, .stop (mkId 1 epoch.now) epoch,
    .turnEnds 0 goalReached epoch]

theorem stoppedMidTurn_undisturbed :
    ∀ step ∈ trace (loopStep .ascii defaultMaxLoops) stoppedMidTurn (boot .empty),
      step.before.Undisturbed step.input := by
  intro step hstep
  simp only [stoppedMidTurn, trace_cons, trace_nil, List.mem_cons, List.not_mem_nil, or_false]
    at hstep
  rcases hstep with rfl | rfl | rfl | rfl
  · exact ⟨rfl, rfl⟩
  · rfl
  · rfl
  · rfl

theorem stoppedMidTurn_status :
    ((final (loopStep .ascii defaultMaxLoops) stoppedMidTurn (boot .empty)).loops.find?
      (mkId 1 epoch.now)).map (·.status) = some .stopped := by
  decide +kernel

theorem stoppedMidTurn_bounded : ∃ loop,
    (final (loopStep .ascii defaultMaxLoops) stoppedMidTurn (boot .empty)).loops.find?
      (mkId 1 epoch.now) = some loop ∧
    turnsStartedIn (mkId 1 epoch.now)
      (trace (loopStep .ascii defaultMaxLoops) stoppedMidTurn (boot .empty)) ≤
        3 * loop.maxIterations ∧ loop.iteration ≤ loop.maxIterations := by
  obtain ⟨loop, hfind, -⟩ := Option.map_eq_some_iff.mp stoppedMidTurn_status
  obtain ⟨hstarts, hiteration, -⟩ := turns_bounded .ascii defaultMaxLoops stoppedMidTurn
    stoppedMidTurn_undisturbed _ loop hfind
  exact ⟨loop, hfind, hstarts, hiteration⟩

/-- The goal is met, and the loop is not completed: the stop holds. -/
theorem stoppedMidTurn_not_completed :
    ¬ ∀ ops : List LoopOp, (∀ step ∈ trace (loopStep .ascii defaultMaxLoops) ops (boot .empty),
        step.before.Undisturbed step.input) → ∀ id loop,
      (final (loopStep .ascii defaultMaxLoops) ops (boot .empty)).loops.find? id = some loop →
      (trace (loopStep .ascii defaultMaxLoops) ops (boot .empty)).any (metGoal .ascii id) = true →
      loop.status = .completed := by
  intro h
  have hmet : (trace (loopStep .ascii defaultMaxLoops) stoppedMidTurn (boot .empty)).any
      (metGoal .ascii (mkId 1 epoch.now)) = true := by decide +kernel
  obtain ⟨loop, hfind, hstopped⟩ := Option.map_eq_some_iff.mp stoppedMidTurn_status
  rw [h stoppedMidTurn stoppedMidTurn_undisturbed _ loop hfind hmet] at hstopped
  cases hstopped

def failing : DriverStream := ⟨[.error (utf16 "401") none], none⟩

/-- The turns of a loop whose id a new process draws again, in the same millisecond: more
than three for its one iteration and one for the restart. -/
theorem redrawn_id_over_bound :
    turnsStartedIn (mkId 1 epoch.now) (trace (loopStep .ascii defaultMaxLoops)
      [.create { tidyUp with maxIterations := some 1 } (some assistant) epoch,
        .fire 0 ready epoch, .turnEnds 0 failing epoch, .fire 1 ready epoch,
        .turnEnds 1 failing epoch, .fire 2 ready epoch, .restart,
        .create { tidyUp with maxIterations := some 1 } (some assistant) epoch,
        .fire 3 ready epoch, .turnEnds 3 failing epoch, .fire 4 ready epoch] (boot .empty)) = 5 := by
  decide +kernel

end LoopManager

end OsModa.Gateway
