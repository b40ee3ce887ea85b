import Mathlib.Data.List.DropRight
import OsModa.Base.Machine
import OsModa.Base.Time
import OsModa.Watch.Switch

/-!
Watchers: a check that is repeated, and the actions that its failures lead to.

The state of a watcher is a function of the streak of failures that it is in
(`stateOf_streak`), whatever ran before; the action of a failure is found from the length of
the streak alone (`failures_escalate`).
-/

namespace OsModa.Watch

open OsModa.Text OsModa.Machine

inductive WatchAction where
  | restartService (unit : String)
  | rollbackGeneration
  | notify (message : String)
  deriving DecidableEq

inductive WatcherState where
  | healthy
  | degraded (since : String) (retries : UInt32)
  deriving DecidableEq

structure Watcher where
  id : String
  name : String
  check : HealthCheck
  intervalSecs : UInt64
  actions : List WatchAction
  state : WatcherState

def Watcher.isDegraded (w : Watcher) : Bool :=
  match w.state with
  | .degraded .. => true
  | .healthy => false

/-- Validate a watcher action. -/
def validateWatchAction : WatchAction → Except String Unit
  | .restartService unit => validateUnitName unit
  | .rollbackGeneration => .ok ()
  | .notify _ => .ok ()

/-! ### Adding -/

structure AddWatcherRequest where
  name : String
  check : HealthCheck
  intervalSecs : Option UInt64
  actions : List WatchAction

/-- The watcher that a request asks for. -/
def Watcher.ofRequest (id : String) (body : AddWatcherRequest) : Watcher :=
  ⟨id, body.name, body.check, body.intervalSecs.getD 30, body.actions, .healthy⟩

/-- POST /watcher/add — add a new autopilot watcher. -/
def watcherAddHandler (u : Unicode) (id : String) (body : AddWatcherRequest) :
    Except (Nat × String) Watcher :=
  -- Validate health check at registration time
  match validateHealthCheck u body.check with
  | .error e => .error (400, e)
  | .ok () =>
    -- Validate all watcher actions
    match body.actions.forM validateWatchAction with
    | .error e => .error (400, e)
    | .ok () => .ok (.ofRequest id body)

/-! ### Acting -/

/-- What an action does outside the watcher. -/
inductive ActionEffect where
  | systemctl (args : List String)
  | rollback
  | warning (message : String)
  deriving DecidableEq

/-- How `systemctl` ends: it cannot be started, or it fails with a text, or it succeeds. -/
inductive CommandEnd where
  | notStarted (e : String)
  | failed (stderr : String)
  | success
  deriving DecidableEq

/-- What one cycle meets: the clock, the check, and how commands end. -/
structure Cycle where
  now : DateTime
  probe : HealthCheck → Option String
  systemctl : List String → CommandEnd
  commands : RollbackCommands

/-- An executed action: what it did, its text, and the profile that it leaves. -/
structure ActionRun where
  effects : List ActionEffect
  result : Except String String
  profile : Profile

/-- The arguments of `systemctl` that restart a unit. -/
def restartArgs (unit : String) : List String := ["restart", unit]

/-- Execute a single watcher action. -/
def executeAction (nix : NixEnv) (c : Cycle) (action : WatchAction) (p : Profile) : ActionRun :=
  -- Validate before executing (defense-in-depth)
  match validateWatchAction action with
  | .error e => ⟨[], .error e, p⟩
  | .ok () =>
    match action with
    | .restartService unit =>
      let args := restartArgs unit
      match c.systemctl args with
      | .notStarted e => ⟨[], .error ("failed to restart " ++ unit ++ ": " ++ e), p⟩
      | .success => ⟨[.systemctl args], .ok ("restarted " ++ unit), p⟩
      | .failed stderr =>
        ⟨[.systemctl args], .error ("restart " ++ unit ++ " failed: " ++ stderr), p⟩
    | .rollbackGeneration =>
      match rollbackGeneration nix c.commands p with
      | (.ok gen, p) => ⟨[.rollback], .ok ("rolled back to " ++ gen), p⟩
      | (.error e, p) => ⟨[.rollback], .error ("rollback failed: " ++ e), p⟩
    | .notify message => ⟨[.warning message], .ok ("notified: " ++ message), p⟩

/-- The line that a watcher returns about an action. -/
def actionLine (name : String) : Except String String → String
  | .ok msg => name ++ ": " ++ msg
  | .error msg => name ++ ": action failed — " ++ msg

/-! ### Cycles -/

/-- A watcher, and the profile that its actions can change. -/
structure Watched where
  watcher : Watcher
  profile : Profile

/-- What a cycle did, and the lines that it returns. -/
structure CycleOutput where
  effects : List ActionEffect
  actionsTaken : List String

/-- The state after a failed check. -/
def WatcherState.escalate (now : DateTime) : WatcherState → WatcherState
  | .healthy => .degraded now.toRfc3339 0
  | .degraded since retries => .degraded since (retries + 1)

/-- The retries that the action of a failed check is chosen by. -/
def WatcherState.retries : WatcherState → UInt32
  | .healthy => 0
  | .degraded _ retries => retries

/-- Run the watcher check and escalation loop for a single watcher. -/
def runWatcherCycle (u : Unicode) (nix : NixEnv) (c : Cycle) (s : Watched) :
    CycleOutput × Watched :=
  let w := s.watcher
  let (passed, _) := runHealthChecks u c.probe [w.check]
  if passed then
    (⟨[], if w.isDegraded then [w.name ++ ": recovered"] else []⟩,
      { s with watcher := { w with state := .healthy } })
  else
    -- Health check failed — escalate
    let state := w.state.escalate c.now
    let w := { w with state := state }
    -- Execute actions in escalation order (based on retry count)
    let actionIdx := min state.retries.toNat (w.actions.length - 1)
    match w.actions[actionIdx]? with
    | none => (⟨[], []⟩, ⟨w, s.profile⟩)
    | some action =>
      let run := executeAction nix c action s.profile
      (⟨run.effects, [actionLine w.name run.result]⟩, ⟨w, run.profile⟩)

/-! ### Streaks of failures -/

abbrev WatcherStep := Step Watched Cycle CycleOutput

/-- The check of the watcher fails in a step. -/
def checkFails (u : Unicode) (t : WatcherStep) : Bool :=
  !(runHealthChecks u t.input.probe [t.before.watcher.check]).1

/-- The failures since the last success, oldest first. -/
def streak (u : Unicode) (past : List WatcherStep) : List WatcherStep :=
  past.rtakeWhile (checkFails u)

/-- The state that a streak of failures leads to. -/
def stateOf : List WatcherStep → WatcherState
  | [] => .healthy
  | first :: later => .degraded first.input.now.toRfc3339 (.ofNat later.length)

/-- The step runs this action, and no other. -/
def Runs (nix : NixEnv) (t : WatcherStep) (action : WatchAction) : Prop :=
  let run := executeAction nix t.input action t.before.profile
  t.output = ⟨run.effects, [actionLine t.before.watcher.name run.result]⟩ ∧
    t.after.profile = run.profile

/-- What a step does after the steps before it: a success runs no action and leaves the watcher
healthy; the failure that follows `k` others runs the action at `k`, or the last one, and leaves
the watcher degraded since the first of them. -/
structure Escalates (u : Unicode) (nix : NixEnv) (w : Watcher) (past : List WatcherStep)
    (t : WatcherStep) : Prop where
  success : checkFails u t = false →
    t.output.effects = [] ∧ t.after = ⟨{ w with state := .healthy }, t.before.profile⟩
  failure : checkFails u t = true → (streak u past).length < 2 ^ 32 →
    (∃ action, w.actions[min (streak u past).length (w.actions.length - 1)]? = some action ∧
      Runs nix t action) ∧
    ∃ since retries, t.after.watcher = { w with state := .degraded since retries } ∧
      retries.toNat = (streak u past).length ∧
      (streak u past ++ [t]).head?.map (·.input.now.toRfc3339) = some since

section Steps

variable {u : Unicode} {nix : NixEnv}

theorem streak_append (past : List WatcherStep) (t : WatcherStep) :
    streak u (past ++ [t]) = if checkFails u t then streak u past ++ [t] else [] := by
  unfold streak
  split
  · rename_i hfails
    exact List.rtakeWhile_concat_pos _ _ _ hfails
  · rename_i hpasses
    exact List.rtakeWhile_concat_neg _ _ _ hpasses

/-- One more failure. -/
theorem escalate_stateOf (failures : List WatcherStep) (t : WatcherStep) :
    (stateOf failures).escalate t.input.now = stateOf (failures ++ [t]) := by
  cases failures with
  | nil => rfl
  | cons first later =>
    rw [List.cons_append, stateOf, stateOf, WatcherState.escalate, List.length_append,
      List.length_singleton, UInt32.ofNat_add]
    rfl

theorem runWatcherCycle_passed {c : Cycle} {s : Watched}
    (h : checkFails u (stepOf (runWatcherCycle u nix) c s) = false) :
    (runWatcherCycle u nix c s).1.effects = [] ∧
      (runWatcherCycle u nix c s).2 = ⟨{ s.watcher with state := .healthy }, s.profile⟩ := by
  have hpassed : (runHealthChecks u c.probe [s.watcher.check]).1 = true := by
    simpa [checkFails] using h
  simp [runWatcherCycle, hpassed]

theorem runWatcherCycle_failed {c : Cycle} {s : Watched}
    (h : checkFails u (stepOf (runWatcherCycle u nix) c s) = true) :
    (runWatcherCycle u nix c s).2.watcher =
        { s.watcher with state := s.watcher.state.escalate c.now } ∧
      ∀ action, s.watcher.actions[min (s.watcher.state.escalate c.now).retries.toNat
          (s.watcher.actions.length - 1)]? = some action →
        Runs nix (stepOf (runWatcherCycle u nix) c s) action := by
  have hfailed : (runHealthChecks u c.probe [s.watcher.check]).1 = false := by
    simpa [checkFails] using h
  unfold Runs
  simp only [stepOf_before, stepOf_input, stepOf_output, stepOf_after, runWatcherCycle, hfailed,
    Bool.false_eq_true, if_false]
  constructor
  · split <;> rfl
  · intro action haction
    rw [haction]
    exact ⟨rfl, rfl⟩

variable {w : Watcher}

/-- The watcher is the one that was added, but for its state, and this is the one of the
streak. -/
def InStreak (u : Unicode) (w : Watcher) (past : List WatcherStep) (s : Watched) : Prop :=
  s.watcher = { w with state := stateOf (streak u past) }

theorem inStreak_step (c : Cycle) (past : List WatcherStep) (s : Watched)
    (h : InStreak u w past s) :
    InStreak u w (past ++ [stepOf (runWatcherCycle u nix) c s]) (runWatcherCycle u nix c s).2 := by
  unfold InStreak at h ⊢
  rw [streak_append]
  cases hcheck : checkFails u (stepOf (runWatcherCycle u nix) c s) with
  | false =>
    rw [(runWatcherCycle_passed hcheck).2, h]
    rfl
  | true =>
    rw [(runWatcherCycle_failed hcheck).1, h, if_pos rfl, ← escalate_stateOf, stepOf_input]

/-- The counter is the length of the streak before, as long as that fits. -/
theorem retries_stateOf (failures : List WatcherStep) (t : WatcherStep)
    (hlen : failures.length < 2 ^ 32) :
    (stateOf (failures ++ [t])).retries.toNat = failures.length := by
  cases failures with
  | nil => rfl
  | cons first later =>
    have hlater : (later ++ [t]).length = (first :: later).length := by simp
    rw [List.cons_append, stateOf, WatcherState.retries, hlater]
    exact UInt32.toNat_ofNat_of_lt' hlen

theorem escalates_step {past : List WatcherStep} {c : Cycle} {s : Watched}
    (hactions : w.actions ≠ []) (h : InStreak u w past s) :
    Escalates u nix w past (stepOf (runWatcherCycle u nix) c s) := by
  refine ⟨fun hpasses => ?_, fun hfails hlen => ?_⟩
  · obtain ⟨heffects, hafter⟩ := runWatcherCycle_passed hpasses
    refine ⟨heffects, hafter.trans ?_⟩
    rw [h]
    rfl
  · obtain ⟨hafter, hruns⟩ := runWatcherCycle_failed hfails
    have hstate := escalate_stateOf (streak u past) (stepOf (runWatcherCycle u nix) c s)
    have hretries := retries_stateOf (streak u past) (stepOf (runWatcherCycle u nix) c s) hlen
    have hwas : s.watcher.state.escalate c.now =
        stateOf (streak u past ++ [stepOf (runWatcherCycle u nix) c s]) := by
      rw [← hstate, congrArg Watcher.state h, stepOf_input]
    rw [hwas] at hafter hruns
    rw [hretries, congrArg Watcher.actions h] at hruns
    constructor
    · have hindex : min (streak u past).length (w.actions.length - 1) < w.actions.length := by
        have := List.length_pos_of_ne_nil hactions
        omega
      exact ⟨_, List.getElem?_eq_getElem hindex, hruns _ (List.getElem?_eq_getElem hindex)⟩
    · rw [stepOf_after, hafter, h]
      cases hstreak : streak u past with
      | nil => exact ⟨_, _, rfl, rfl, rfl⟩
      | cons first later =>
        rw [hstreak] at hretries
        exact ⟨_, _, rfl, hretries, rfl⟩

end Steps

/-- In every run of a watcher from when it is added, its state is that of the streak. -/
theorem stateOf_streak (u : Unicode) (nix : NixEnv) (id : String) (body : AddWatcherRequest)
    (p : Profile) (cycles : List Cycle) :
    let run := trace (runWatcherCycle u nix) cycles ⟨.ofRequest id body, p⟩
    (final (runWatcherCycle u nix) cycles ⟨.ofRequest id body, p⟩).watcher =
      { Watcher.ofRequest id body with state := stateOf (streak u run) } := by
  have h : InStreak u (.ofRequest id body) [] ⟨.ofRequest id body, p⟩ := rfl
  exact history_invariant (R := InStreak u (.ofRequest id body)) inStreak_step cycles h

theorem failures_escalate (u : Unicode) (nix : NixEnv) (id : String) (body : AddWatcherRequest)
    (p : Profile) (cycles : List Cycle) (hactions : body.actions ≠ []) :
    ∀ past t future,
      trace (runWatcherCycle u nix) cycles ⟨.ofRequest id body, p⟩ = past ++ t :: future →
      Escalates u nix (.ofRequest id body) past t := by
  intro past t future hsplit
  have hstart : InStreak u (.ofRequest id body) [] ⟨.ofRequest id body, p⟩ := rfl
  obtain ⟨hbefore, ht⟩ := history_before_of (R := InStreak u (.ofRequest id body))
    (C := fun _ _ => True) (fun c past s h _ => inStreak_step c past s h) hstart
    (fun _ _ _ _ => trivial) hsplit
  rw [ht]
  exact escalates_step hactions hbefore

/-- A web server is restarted on its first failure, and the system rolled back on later ones. -/
def nginxWatcher : AddWatcherRequest :=
  ⟨"nginx", .systemdUnit "nginx.service", none,
    [.restartService "nginx.service", .rollbackGeneration]⟩

/-- Three failures of it in a row. -/
def threeFailures : List Cycle :=
  List.replicate 3 ⟨midnight, fun _ => some "nginx.service is failed",
    fun _ => .failed "Job for nginx.service failed.", ⟨none, none⟩⟩

theorem threeFailures_escalate :
    nginxWatcher.actions ≠ [] ∧
      (trace (runWatcherCycle .ascii plainNix) threeFailures
        ⟨.ofRequest "w" nginxWatcher, generationsUpTo 3⟩).map (·.output.effects) =
        [[.systemctl ["restart", "nginx.service"]], [.rollback], [.rollback]] ∧
      ∀ past t future, trace (runWatcherCycle .ascii plainNix) threeFailures
          ⟨.ofRequest "w" nginxWatcher, generationsUpTo 3⟩ = past ++ t :: future →
        Escalates .ascii plainNix (.ofRequest "w" nginxWatcher) past t := by
  have hactions : nginxWatcher.actions ≠ [] := by simp [nginxWatcher]
  exact ⟨hactions, rfl, failures_escalate .ascii plainNix "w" nginxWatcher (generationsUpTo 3)
    threeFailures hactions⟩

end OsModa.Watch
