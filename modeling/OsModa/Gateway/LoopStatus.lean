import OsModa.Gateway.LoopSchedule

/-!
What becomes of finished loops, and how many loops run.

Ticks and stops keep a finished loop finished and let no further loop run. The requests do
not: a pause takes any loop, a finished one too, and from there a resume sets it running;
a resume does not ask for the limit that `create` asks for; and a new process knows of a
loop what was last written. Each of these has its condition (`Orderly`), and a run that
meets them keeps finished loops finished and the limit (`finished_for_good`).
-/

namespace OsModa.Gateway

open OsModa.Js OsModa.Machine

/-- Completed or stopped. -/
def Loop.Finished (loop : Loop) : Prop := loop.status = .completed ∨ loop.status = .stopped

instance (loop : Loop) : Decidable loop.Finished := inferInstanceAs (Decidable (_ ∨ _))

theorem Loop.Finished.not_running {loop : Loop} (h : loop.Finished) : loop.status ≠ .running := by
  intro hrunning
  rcases h with h | h
  · rw [hrunning] at h
    cases h
  · rw [hrunning] at h
    cases h

namespace LoopManager

/-- The id names a finished loop. -/
def HasFinished (loops : Table Loop.id) (id : String) : Prop :=
  ∃ loop, loops.find? id = some loop ∧ loop.Finished

theorem hasFinished_iff {loops : Table Loop.id} {id : String} :
    HasFinished loops id ↔ (loops.find? id).any (·.Finished) = true := by
  simp [HasFinished, Option.any_eq_true]

instance (loops : Table Loop.id) (id : String) : Decidable (HasFinished loops id) :=
  decidable_of_iff _ hasFinished_iff.symm

theorem HasFinished.not_running {loops : Table Loop.id} {id : String} (h : HasFinished loops id)
    {loop : Loop} (hfind : loops.find? id = some loop) : loop.status ≠ .running := by
  obtain ⟨loop', hfind', hfinished⟩ := h
  obtain rfl : loop' = loop := Option.some.inj (hfind'.symm.trans hfind)
  exact hfinished.not_running

/-- Storing a loop keeps the finished ones, unless it takes the place of one. -/
theorem HasFinished.put {loops : Table Loop.id} {id : String} (h : HasFinished loops id)
    {loop : Loop} (hkeep : loop.Finished ∨ ¬ HasFinished loops loop.id) :
    HasFinished (loops.put loop) id := by
  by_cases hid : loop.id = id
  · subst hid
    exact ⟨loop, Table.find?_put_self _ _, hkeep.resolve_right fun hnone => hnone h⟩
  · obtain ⟨old, hfind, hfinished⟩ := h
    exact ⟨old, by rwa [Table.find?_put_other hid], hfinished⟩

/-! ### How many loops run -/

theorem runningCount_put_le {loops : Table Loop.id} {loop : Loop}
    (h : loop.status ≠ .running ∨
      ∃ old, loops.find? loop.id = some old ∧ old.status = .running) :
    runningCount (loops.put loop) ≤ runningCount loops := by
  rcases h with hstatus | ⟨old, hfind, hrunning⟩
  · cases hfind : loops.find? loop.id with
    | none =>
      have hcount := Table.countWhere_put_of_none hfind fun l => decide (l.status = .running)
      simp only [hstatus, decide_false, Bool.false_eq_true, if_false] at hcount
      exact hcount.le
    | some old =>
      have hcount := Table.countWhere_put_of_some hfind fun l => decide (l.status = .running)
      simp only [hstatus, decide_false, Bool.false_eq_true, if_false] at hcount
      exact le_of_add_le_left hcount.le
  · have hcount := Table.countWhere_put_of_some hfind fun l => decide (l.status = .running)
    simp only [hrunning, decide_true, if_true] at hcount
    unfold runningCount
    split at hcount <;> omega

/-- One loop more at most, whatever is stored. -/
theorem runningCount_put_le_succ (loops : Table Loop.id) (loop : Loop) :
    runningCount (loops.put loop) ≤ runningCount loops + 1 := by
  unfold runningCount
  cases hfind : loops.find? loop.id with
  | none =>
    rw [Table.countWhere_put_of_none hfind]
    split <;> omega
  | some old =>
    have hcount := Table.countWhere_put_of_some hfind fun l => decide (l.status = .running)
    split at hcount <;> split at hcount <;> omega

/-! ### Steps that keep what is finished, and the count -/

/-- What ticks and stops do: finished loops stay finished, no further loop runs, and the
file gets the loops that the manager has, if anything. -/
structure Keeps (m m' : LoopManager) : Prop where
  finished : ∀ id, HasFinished m.loops id → HasFinished m'.loops id
  running : runningCount m'.loops ≤ runningCount m.loops
  file : runningCount m'.file ≤ max (runningCount m.file) (runningCount m.loops)

section Keeps

variable {m m' m'' : LoopManager} {id : String} {loop : Loop} {w : World}

theorem Keeps.of_eq (hloops : m'.loops = m.loops) (hfile : m'.file = m.file) : m.Keeps m' where
  finished := by
    intro id h
    rwa [hloops]
  running := by rw [hloops]
  file := by
    rw [hfile]
    exact le_max_left _ _

theorem Keeps.refl (m : LoopManager) : m.Keeps m := .of_eq rfl rfl

theorem Keeps.trans (h : m.Keeps m') (h' : m'.Keeps m'') : m.Keeps m'' where
  finished := fun id hid => h'.finished id (h.finished id hid)
  running := h'.running.trans h.running
  file := h'.file.trans (max_le h.file (h.running.trans (le_max_right _ _)))

theorem keeps_clearTimer : m.Keeps (m.clearTimer id) :=
  .of_eq (clearTimer_loops m id) (clearTimer_file m id)

theorem keeps_reschedule : m.Keeps (m.reschedule id) :=
  .of_eq (reschedule_loops m id) (reschedule_file m id)

theorem keeps_persist : m.Keeps (m.persist w) where
  finished := by
    intro id h
    rwa [persist_loops]
  running := by rw [persist_loops]
  file := by
    rw [persist_file]
    split
    · exact le_max_right _ _
    · exact le_max_left _ _

theorem keeps_setLoop (hkeep : loop.Finished ∨ ¬ HasFinished m.loops loop.id)
    (hcount : loop.status ≠ .running ∨
      ∃ old, m.loops.find? loop.id = some old ∧ old.status = .running) :
    m.Keeps (m.setLoop loop) where
  finished := fun _ h => h.put hkeep
  running := runningCount_put_le hcount
  file := le_max_left _ _

/-- A running loop is stored, under any status. -/
theorem keeps_setRunning {old : Loop} (hfind : m.loops.find? loop.id = some old)
    (hrunning : old.status = .running) : m.Keeps (m.setLoop loop) :=
  keeps_setLoop (.inr fun h => h.not_running hfind hrunning) (.inr ⟨old, hfind, hrunning⟩)

theorem keeps_withdraw (hkeep : loop.Finished ∨ ¬ HasFinished m.loops loop.id)
    (hstatus : loop.status ≠ .running) : m.Keeps (m.withdraw loop w).2 := by
  refine keeps_clearTimer.trans (.trans (keeps_setLoop ?_ (.inl hstatus)) keeps_persist)
  rwa [clearTimer_loops]

theorem keeps_stop (id : String) (w : World) : m.Keeps (m.stop id w).2 := by
  rcases m.stop_cases id w with hstop | ⟨loop, -, -, hstop⟩ <;> rw [hstop]
  · exact .refl m
  · exact keeps_withdraw (.inl (.inr rfl)) (by simp [stoppedLoop])

theorem keeps_pause (reason : String) (hopen : ¬ HasFinished m.loops id) :
    m.Keeps (m.pause id reason w).2 := by
  rcases m.pause_cases id w reason with hpause | ⟨loop, rfl, -, hpause⟩ <;> rw [hpause]
  · exact .refl m
  · exact keeps_withdraw (.inr hopen) (by simp [pausedLoop])

theorem keeps_finish (reason : String) : m.Keeps (m.finish loop reason w) := by
  rw [finish_eq]
  refine keeps_clearTimer.trans (.trans (keeps_setLoop (.inl (.inl ?_)) (.inl ?_)) keeps_persist)
  · simp only [finishedLoop, Loop.pushHistory]
  · simp [finishedLoop, Loop.pushHistory]

theorem not_hasFinished_of_running (hfind : m.loops.find? id = some loop)
    (hrunning : loop.status = .running) : ¬ HasFinished m.loops id :=
  fun h => h.not_running hfind hrunning

theorem keeps_tick (deps : TickDeps) : m.Keeps (m.tick id deps w).2 := by
  have hstarted : m.Keeps (m.tickStarted id) := .of_eq rfl rfl
  have hout := tick_outcome m id w deps
  generalize m.tick id deps w = out at hout ⊢
  cases hout with
  | idle hidle => exact .refl m
  | exhausted loop hfind hrunning hmax => exact hstarted.trans (keeps_finish _)
  | withdrawn loop hfind hrunning reason =>
    exact hstarted.trans (keeps_pause _ (not_hasFinished_of_running hfind hrunning))
  | skipped loop hfind hrunning =>
    obtain rfl : loop.id = id := Table.key_of_find? hfind
    have hset : (m.tickStarted loop.id).Keeps
        ((m.tickStarted loop.id).setLoop (skippedLoop loop deps w)) := by
      refine keeps_setRunning ?_ hrunning
      rwa [skippedLoop_id]
    exact hstarted.trans (hset.trans (keeps_persist.trans keeps_reschedule))
  | launched loop hfind hrunning hiteration agent hagent hallowed hcredential hdriver =>
    obtain rfl : loop.id = id := Table.key_of_find? hfind
    have hset : (m.tickStarted loop.id).Keeps
        ((m.tickStarted loop.id).setLoop { loop with blocked := none }) :=
      keeps_setRunning hfind hrunning
    exact hstarted.trans (hset.trans (.of_eq rfl rfl))

theorem keeps_fire (handle : Nat) (deps : TickDeps) (w : World) :
    m.Keeps (m.fire handle deps w).2 := by
  rcases m.fire_cases handle deps w with hfire | ⟨timer, -, -, hfire⟩
  · rw [hfire]
    exact .refl m
  · rw [hfire]
    have hfired : m.Keeps { m with pending := m.pending.filter (·.handle ≠ handle) } :=
      .of_eq rfl rfl
    exact hfired.trans (keeps_tick deps)

theorem keeps_afterTurn (tables : CaseTables) (hfind : m.loops.find? loop.id = some loop)
    (hrunning : loop.status = .running) (agent : AgentProfile) (result : TurnResult) :
    m.Keeps (m.afterTurn tables loop agent result w).2 := by
  have hfailed' : m.Keeps (m.setLoop (failedLoop loop result w)) := by
    refine keeps_setRunning ?_ hrunning
    rwa [failedLoop_id]
  have hadvanced : m.Keeps (m.setLoop (advancedLoop loop result w)) := by
    refine keeps_setRunning ?_ hrunning
    rwa [advancedLoop_id]
  have hout := afterTurn_outcome m loop w tables agent result
  generalize m.afterTurn tables loop agent result w = out at hout ⊢
  cases hout with
  | gaveUp hfailed herrors =>
    have hfound : (m.setLoop (failedLoop loop result w)).loops.find? loop.id =
        some (failedLoop loop result w) := by
      rw [setLoop_loops, ← failedLoop_id loop w result, Table.find?_put_self]
    refine hfailed'.trans (keeps_pause _ (not_hasFinished_of_running hfound ?_))
    rw [failedLoop_status, hrunning]
  | failed hfailed herrors => exact hfailed'.trans (keeps_persist.trans keeps_reschedule)
  | goalMet hok hhit => exact hadvanced.trans (keeps_finish _)
  | exhausted hok hmiss hmax => exact hadvanced.trans (keeps_finish _)
  | advanced hok hmiss hmore => exact hadvanced.trans (keeps_persist.trans keeps_reschedule)

theorem keeps_turnEnds (tables : CaseTables) (controller : Nat) (stream : DriverStream)
    (w : World) : m.Keeps (m.turnEnds tables controller stream w).2 := by
  have hout := turnEnds_outcome m w tables controller stream
  generalize m.turnEnds tables controller stream w = out at hout ⊢
  cases hout with
  | unknown hnone => exact .refl m
  | orphaned flight hflight hclosed => exact .of_eq rfl rfl
  | ended flight hflight loop hid hfind hrunning =>
    have hlanded : m.Keeps (m.landed flight) := .of_eq rfl rfl
    exact hlanded.trans (keeps_afterTurn (m := m.landed flight) tables hfind hrunning _ _)

end Keeps

/-! ### Requests and restarts -/

/-- The condition on an operation. -/
def Orderly (maxLoops : Nat) (m : LoopManager) : LoopOp → Prop
  | .create _ _ w => ¬ HasFinished m.loops (mkId (m.seq + 1) w.now)
  | .pause id _ => ¬ HasFinished m.loops id
  | .resume id _ => ∀ loop, m.loops.find? id = some loop → loop.status = .paused →
    runningCount m.loops < maxLoops
  | .restart => ∀ id, HasFinished m.loops id → HasFinished m.file id
  | .stop .. | .resumeAll | .fire .. | .turnEnds .. => True

/-- At most `maxLoops` loops run, here and after a restart. -/
def Within (maxLoops : Nat) (m : LoopManager) : Prop :=
  runningCount m.loops ≤ maxLoops ∧ runningCount m.file ≤ maxLoops

section Requests

variable {maxLoops : Nat} {m m' : LoopManager} {id : String} {w : World}

theorem Within.keeps (h : m.Within maxLoops) (hkeeps : m.Keeps m') : m'.Within maxLoops :=
  ⟨hkeeps.running.trans h.1, hkeeps.file.trans (max_le h.2 h.1)⟩

/-- One more loop runs, where the limit allows it. -/
theorem Within.setLoop_persist (h : m.Within maxLoops) (hroom : runningCount m.loops < maxLoops)
    (loop : Loop) (w : World) : ((m.setLoop loop).persist w).Within maxLoops := by
  have hset : (m.setLoop loop).Within maxLoops :=
    ⟨(runningCount_put_le_succ m.loops loop).trans hroom, h.2⟩
  exact hset.keeps keeps_persist

/-- What a restart makes of a loop keeps its status. -/
theorem find?_restart (m : LoopManager) (id : String) : m.restart.loops.find? id =
    (m.file.find? id).map fun l => { l with blocked := none } := by
  rw [restart_loops, Table.find?_updateWhere]
  rfl

theorem runningCount_restart (m : LoopManager) :
    runningCount m.restart.loops = runningCount m.file := by
  rw [restart_loops]
  unfold runningCount Table.countWhere Table.updateWhere
  rw [List.countP_map]
  rfl

theorem hasFinished_restart (h : HasFinished m.file id) : HasFinished m.restart.loops id := by
  obtain ⟨loop, hfind, hfinished⟩ := h
  exact ⟨{ loop with blocked := none }, by rw [find?_restart, hfind]; rfl, hfinished⟩

theorem Within.restart (h : m.Within maxLoops) : m.restart.Within maxLoops := by
  refine ⟨?_, ?_⟩
  · rw [runningCount_restart]
    exact h.2
  · rw [restart_file]
    exact h.2

theorem Within.create (h : m.Within maxLoops) (tables : CaseTables) (input : CreateLoopInput)
    (agent : Option AgentProfile) (w : World) :
    (m.create tables maxLoops input agent w).2.Within maxLoops := by
  have hout := create_outcome m w tables maxLoops input agent
  generalize m.create tables maxLoops input agent w = out at hout ⊢
  cases hout with
  | rejected message => exact h
  | created agent interval maxIter hroom hmaxIter =>
    have hseq : ({ m with seq := m.seq + 1 } : LoopManager).Within maxLoops := h
    exact hseq.setLoop_persist hroom _ w

theorem Within.resume (h : m.Within maxLoops) (horderly : m.Orderly maxLoops (.resume id w)) :
    (m.resume id w).2.Within maxLoops := by
  rcases m.resume_cases id w with hresume | ⟨loop, rfl, hfind, hpaused, hresume⟩ <;> rw [hresume]
  · exact h
  · have hroom := horderly loop hfind hpaused
    exact (h.setLoop_persist hroom _ w).keeps keeps_reschedule

theorem HasFinished.create (h : HasFinished m.loops id) (tables : CaseTables)
    (input : CreateLoopInput) (agent : Option AgentProfile)
    (horderly : m.Orderly maxLoops (.create input agent w)) :
    HasFinished (m.create tables maxLoops input agent w).2.loops id := by
  have hout := create_outcome m w tables maxLoops input agent
  generalize m.create tables maxLoops input agent w = out at hout ⊢
  cases hout with
  | rejected message => exact h
  | created agent interval maxIter hroom hmaxIter =>
    rw [scheduleTick_loops, persist_loops, setLoop_loops]
    exact h.put (.inr horderly)

theorem HasFinished.resume (h : HasFinished m.loops id) (k : String) (w : World) :
    HasFinished (m.resume k w).2.loops id := by
  rcases m.resume_cases k w with hresume | ⟨loop, rfl, hfind, hpaused, hresume⟩ <;> rw [hresume]
  · exact h
  · rw [reschedule_loops, persist_loops, setLoop_loops]
    refine h.put (.inr ?_)
    rintro ⟨loop', hfind', hfinished⟩
    obtain rfl : loop' = loop := Option.some.inj (hfind'.symm.trans hfind)
    rw [Loop.Finished, hpaused] at hfinished
    simp at hfinished

end Requests

/-! ### Runs -/

variable {tables : CaseTables} {maxLoops : Nat} {op : LoopOp} {m : LoopManager} {id : String}

theorem Within.step (h : m.Within maxLoops) (horderly : m.Orderly maxLoops op) :
    (loopStep tables maxLoops op m).2.Within maxLoops := by
  cases op with
  | create input agent w => exact h.create tables input agent w
  | stop id w => exact h.keeps (keeps_stop id w)
  | pause id w => exact h.keeps (keeps_pause "paused" horderly)
  | resume id w => exact h.resume horderly
  | resumeAll => exact h.keeps (.of_eq (resumeAll_loops m) (resumeAll_file m))
  | fire handle deps w => exact h.keeps (keeps_fire handle deps w)
  | turnEnds controller stream w => exact h.keeps (keeps_turnEnds tables controller stream w)
  | restart => exact h.restart

theorem HasFinished.step (h : HasFinished m.loops id) (horderly : m.Orderly maxLoops op) :
    HasFinished (loopStep tables maxLoops op m).2.loops id := by
  cases op with
  | create input agent w => exact h.create tables input agent horderly
  | stop k w => exact (keeps_stop k w).finished id h
  | pause k w => exact (keeps_pause "paused" horderly).finished id h
  | resume k w => exact h.resume k w
  | resumeAll => exact by rwa [loopStep, resumeAll_loops]
  | fire handle deps w => exact (keeps_fire handle deps w).finished id h
  | turnEnds controller stream w => exact (keeps_turnEnds tables controller stream w).finished id h
  | restart => exact hasFinished_restart (horderly id h)

theorem within_boot : (boot .empty).Within maxLoops :=
  Within.restart ⟨Nat.zero_le _, Nat.zero_le _⟩

/-- No turn of a finished loop is started. -/
theorem HasFinished.turnsStarted (h : HasFinished m.loops id) :
    turnsStarted id (loopStep tables maxLoops op m).1 = 0 := by
  by_contra hstarts
  obtain ⟨handle, deps, w, rfl⟩ := turnsStarted_step m id hstarts
  obtain ⟨-, -, loop, hfind, hrunning, -⟩ := turnsStarted_fire m id w handle deps hstarts
  exact h.not_running hfind hrunning

/-- After a step: the limit holds, and a loop that an earlier step left finished is
finished, without a turn started. -/
def FinishedForGood (maxLoops : Nat) (past : List LoopStep) (step : LoopStep) : Prop :=
  runningCount step.after.loops ≤ maxLoops ∧
    ∀ id, (∃ earlier ∈ past, HasFinished earlier.after.loops id) →
      HasFinished step.after.loops id ∧ turnsStarted id step.output = 0

/-- **Finished loops stay finished, and the limit holds**, in every run whose pauses,
resumes and restarts meet their conditions. -/
theorem finished_for_good (tables : CaseTables) (maxLoops : Nat) (ops : List LoopOp)
    (horderly : ∀ step ∈ trace (loopStep tables maxLoops) ops (boot .empty),
      step.before.Orderly maxLoops step.input)
    {past future : List LoopStep} {step : LoopStep}
    (hsplit : trace (loopStep tables maxLoops) ops (boot .empty) = past ++ step :: future) :
    FinishedForGood maxLoops past step := by
  have hmem : step ∈ trace (loopStep tables maxLoops) ops (boot .empty) := by
    rw [hsplit]
    exact List.mem_append_right _ List.mem_cons_self
  have hwithin := trace_invariant_of (I := Within maxLoops) (fun op m h hop => h.step hop)
    within_boot horderly hmem
  refine ⟨hwithin.2.1, fun id hearlier => ?_⟩
  obtain ⟨earlier, hearlier, hfinished⟩ := hearlier
  obtain ⟨before, between, rfl⟩ := List.append_of_mem hearlier
  rw [List.append_assoc, List.cons_append] at hsplit
  -- The steps after the one that finished the loop are a run from the state it led to.
  obtain ⟨-, hrest⟩ := trace_eq_append hsplit
  obtain ⟨-, hafter⟩ := trace_eq_cons hrest.symm
  have hlater : step ∈ trace (loopStep tables maxLoops)
      ((between ++ step :: future).map Step.input) earlier.after := by
    rw [← hafter]
    exact List.mem_append_right _ List.mem_cons_self
  have hkeep := trace_invariant_of (I := fun m => HasFinished m.loops id)
    (fun op m h hop => h.step hop) hfinished (fun later hmem' => horderly later ?_) hlater
  · obtain ⟨_, _, _, hstep⟩ := mem_trace_split hlater
    rw [hstep] at hkeep ⊢
    exact ⟨hkeep.2, hkeep.1.turnsStarted⟩
  · rw [← hafter] at hmem'
    rw [hsplit]
    exact List.mem_append_right _ (List.mem_cons_of_mem _ hmem')

/-! A loop that meets its goal in the first turn. -/

def goalReached : DriverStream := ⟨[.textBulk (utf16 "GOAL_COMPLETE"), .done none none], none⟩

def metAtOnce : List LoopOp :=
  [.create tidyUp (some assistant) epoch, .fire 0 ready epoch, .turnEnds 0 goalReached epoch]

/-- Stopped afterwards. -/
def metThenStopped : List LoopOp := metAtOnce ++ [.stop (mkId 1 epoch.now) epoch]

/-- Paused and resumed afterwards; the timer fires. -/
def metThenResumed : List LoopOp :=
  metAtOnce ++ [.pause (mkId 1 epoch.now) epoch, .resume (mkId 1 epoch.now) epoch,
    .fire 1 ready epoch]

/-- The steps of a run from nothing. -/
def stepsOf (ops : List LoopOp) : List LoopStep :=
  trace (loopStep .ascii defaultMaxLoops) ops (boot .empty)

theorem metThenStopped_finished :
    FinishedForGood defaultMaxLoops (stepsOf metAtOnce)
      (stepOf (loopStep .ascii defaultMaxLoops) (.stop (mkId 1 epoch.now) epoch)
        (final (loopStep .ascii defaultMaxLoops) metAtOnce (boot .empty))) := by
  refine finished_for_good .ascii defaultMaxLoops metThenStopped (fun step hstep => ?_)
    (trace_append metAtOnce [_] _)
  simp only [metThenStopped, metAtOnce, List.cons_append, List.nil_append, trace_cons, trace_nil,
    List.mem_cons, List.not_mem_nil, or_false] at hstep
  rcases hstep with rfl | rfl | rfl | rfl
  · change ¬ HasFinished _ _
    decide +kernel
  · trivial
  · trivial
  · trivial

/-- The pause takes the completed loop, and the resume starts it again. -/
theorem metThenResumed_restarts :
    ¬ ∀ past step future, stepsOf metThenResumed = past ++ step :: future →
      FinishedForGood defaultMaxLoops past step := by
  intro h
  have hlast := (h (stepsOf (metThenResumed.take 5))
    (stepOf (loopStep .ascii defaultMaxLoops) (.fire 1 ready epoch)
      (final (loopStep .ascii defaultMaxLoops) (metThenResumed.take 5) (boot .empty))) [] rfl).2
    (mkId 1 epoch.now)
  have hmet : ∃ earlier ∈ stepsOf (metThenResumed.take 5),
      HasFinished earlier.after.loops (mkId 1 epoch.now) := by
    refine ⟨stepOf (loopStep .ascii defaultMaxLoops) (.turnEnds 0 goalReached epoch)
      (final (loopStep .ascii defaultMaxLoops) (metAtOnce.take 2) (boot .empty)), ?_, ?_⟩
    · exact List.mem_cons_of_mem _ (List.mem_cons_of_mem _ List.mem_cons_self)
    · decide +kernel
  have hstarted := (hlast hmet).2
  revert hstarted
  decide +kernel

/-- A resume does not ask for the limit: two loops run where one may. -/
theorem resumed_over_limit :
    runningCount (final (loopStep .ascii 1)
      [.create tidyUp (some assistant) epoch, .pause (mkId 1 epoch.now) epoch,
        .create tidyUp (some assistant) epoch, .resume (mkId 1 epoch.now) epoch]
      (boot .empty)).loops = 2 := by
  decide +kernel

end LoopManager

end OsModa.Gateway
