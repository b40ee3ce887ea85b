import Mathlib.Order.Bounds.Basic
import OsModa.Base.Machine
import OsModa.Base.Table
import OsModa.Base.Time
import OsModa.Watch.Checks

/-!
SafeSwitch: sessions that watch a change of the system, and end it or take it back.

The handlers and the probation loop hold the lock of the state over everything they do, so
each is one step here; an iteration of the loop is a row of them (`probationTick_eq`). A
session ends once, and only one that is in probation is rolled back (`sessions_end_once`).
A rollback does not go to the generation that the session has recorded but to the one below
the active one, which may be another (`rollback_returns_iff`).
-/

namespace OsModa.Watch

open OsModa.Text OsModa.Machine

/-! ### Generations -/

/-- The profile `/nix/var/nix/profiles/system`: its generations, and the one it links to. -/
structure Profile where
  generations : List Nat
  current : Option Nat

/-- The generation is the newest one below another. -/
def Profile.IsBelow (p : Profile) (n m : Nat) : Prop :=
  IsGreatest {k | k ∈ p.generations ∧ k < n} m

/-- `nix-env -p … --rollback` switches to the highest-numbered generation lower than the
current one, if it exists. -/
structure NixEnv where
  rollback : Profile → Except String Profile
  rollback_ok : ∀ p p', rollback p = .ok p' ↔
    ∃ n m, p.current = some n ∧ p.IsBelow n m ∧ p' = { p with current := some m }

/-- The target of the link. -/
def generationLink (n : Nat) : String := "system-" ++ toString n ++ "-link"

/-- Get the current NixOS system generation path. -/
def currentGeneration (p : Profile) : String := p.current.elim "unknown" generationLink

/-- What else makes the two commands of a rollback fail, or time out. -/
structure RollbackCommands where
  nixEnv : Option String
  switchToConfiguration : Option String

/-- Both commands run to their end. -/
def RollbackCommands.Run (c : RollbackCommands) : Prop :=
  c.nixEnv = none ∧ c.switchToConfiguration = none

/-- Rollback to the previous NixOS generation. -/
def rollbackGeneration (nix : NixEnv) (c : RollbackCommands) (p : Profile) :
    Except String String × Profile :=
  match c.nixEnv with
  | some e => (.error e, p)
  | none =>
    match nix.rollback p with
    | .error stderr => (.error ("rollback failed: " ++ stderr), p)
    | .ok p =>
      -- Switch to the rolled-back configuration
      match c.switchToConfiguration with
      | some e => (.error e, p)
      | none => (.ok (currentGeneration p), p)

/-! ### Sessions -/

inductive SwitchStatus where
  | probation
  | committed (committedAt : DateTime)
  | rolledBack (reason : String) (rolledBackAt : DateTime)
  deriving DecidableEq

structure SwitchSession where
  id : String
  plan : String
  ttlSecs : UInt64
  healthChecks : List HealthCheck
  startedAt : DateTime
  previousGeneration : String
  status : SwitchStatus
  deriving DecidableEq

def SwitchSession.isActive (s : SwitchSession) : Bool := s.status = .probation

def SwitchSession.isExpired (s : SwitchSession) (now : DateTime) : Bool :=
  s.startedAt.elapsed now s.ttlSecs

structure WatchState where
  switches : Table SwitchSession.id
  profile : Profile

def WatchState.new (p : Profile) : WatchState := ⟨.empty, p⟩

/-- What a step lets the outside see. -/
inductive SwitchEffect where
  | reply (reply : Except (Nat × String) SwitchSession)
  | rollbackTriggered (id reason : String) (failures : List String)
  /-- The commands of a rollback were run for a session. -/
  | rollbackRun (id : String) (result : Except String String)
  | rollbackResult (id : String) (success : Bool) (generation : String)

structure BeginSwitchRequest where
  plan : String
  ttlSecs : UInt64
  healthChecks : List HealthCheck

/-- What the probation loop meets when it comes to a session: the clock, before the checks
and when it ends the session, and how commands run. -/
structure Probe where
  now : DateTime
  check : HealthCheck → Option String
  commands : RollbackCommands
  endedAt : DateTime

namespace WatchState

variable (u : Unicode) (nix : NixEnv) (st : WatchState)

/-- `st.switches.get_mut(&id)`, and a new status. -/
def setStatus (s : SwitchSession) (status : SwitchStatus) : WatchState :=
  { st with switches := st.switches.put { s with status := status } }

/-- POST /switch/begin — start a deploy transaction with health checks + TTL. The link is
read before the lock is taken: `seen` is the profile at that time. -/
def switchBeginHandler (id : String) (body : BeginSwitchRequest) (seen : Profile)
    (now : DateTime) : List SwitchEffect × WatchState :=
  match firstInvalid u body.healthChecks with
  | some e => ([.reply (.error (400, e))], st)
  | none =>
    let session : SwitchSession := ⟨id, body.plan, body.ttlSecs, body.healthChecks, now,
      currentGeneration seen, .probation⟩
    ([.reply (.ok session)], { st with switches := st.switches.put session })

/-- POST /switch/commit/{id} — manually commit a switch session. -/
def switchCommitHandler (id : String) (now : DateTime) : List SwitchEffect × WatchState :=
  match st.switches.find? id with
  | none => ([.reply (.error (404, "switch session not found"))], st)
  | some s =>
    if !s.isActive then ([.reply (.error (409, "switch session is not in probation"))], st)
    else
      let status := .committed now
      ([.reply (.ok { s with status := status })], st.setStatus s status)

/-- POST /switch/rollback/{id} — manually rollback a switch session. -/
def switchRollbackHandler (id : String) (commands : RollbackCommands) (now : DateTime) :
    List SwitchEffect × WatchState :=
  match st.switches.find? id with
  | none => ([.reply (.error (404, "switch session not found"))], st)
  | some s =>
    if !s.isActive then ([.reply (.error (409, "switch session is not in probation"))], st)
    else
      let out := rollbackGeneration nix commands st.profile
      let status := .rolledBack "manual rollback" now
      ([.rollbackRun id out.1, .reply (.ok { s with status := status })],
        { st with profile := out.2 }.setStatus s status)

/-- The loop rolls a session back. -/
def autoRollback (s : SwitchSession) (p : Probe) (reason text : String) (failures : List String) :
    List SwitchEffect × WatchState :=
  let out := rollbackGeneration nix p.commands st.profile
  ([.rollbackTriggered s.id reason failures, .rollbackRun s.id out.1,
      .rollbackResult s.id out.1.isOk s.previousGeneration],
    { st with profile := out.2 }.setStatus s
      (.rolledBack (text ++ "; ".intercalate failures) p.endedAt))

/-- The probation loop comes to a session. -/
def probeSession (id : String) (p : Probe) : List SwitchEffect × WatchState :=
  match st.switches.find? id with
  | none => ([], st)
  | some s =>
    let (passed, failures) := runHealthChecks u p.check s.healthChecks
    if !s.isExpired p.now then
      if !passed then
        st.autoRollback nix s p "health_check_failure" "health check failures: " failures
      else ([], st)
    -- TTL expired — run final health check
    else if passed then ([], st.setStatus s (.committed p.endedAt))
    else st.autoRollback nix s p "ttl_expired_with_failures" "TTL expired with failures: " failures

/-- The rows of a table come in some order when a hash map is walked. -/
structure Walk where
  order : List String → List String
  perm : ∀ ids, (order ids).Perm ids

/-- The loop body of each session of a list. -/
def probeAll (probes : String → Probe) : List String → WatchState → List SwitchEffect × WatchState
  | [], st => ([], st)
  | id :: ids, st =>
    let out := st.probeSession u nix id (probes id)
    let rest := probeAll probes ids out.2
    (out.1 ++ rest.1, rest.2)

/-- One iteration of the loop that checks switch sessions for expiry and
auto-commits/rollbacks. -/
def probationTick (walk : Walk) (probes : String → Probe) : List SwitchEffect × WatchState :=
  let activeIds := walk.order ((st.switches.rows.filter (·.isActive)).map (·.id))
  probeAll u nix probes activeIds st

end WatchState

/-- A request, the loop at a session, or anything else that changes the profile: a switch of
the system, another tool, a command that was given up and still went on. -/
inductive SwitchOp where
  | begin (id : String) (body : BeginSwitchRequest) (seen : Profile) (now : DateTime)
  | commit (id : String) (now : DateTime)
  | rollback (id : String) (commands : RollbackCommands) (now : DateTime)
  | probe (id : String) (p : Probe)
  | profileChanges (p : Profile)

open WatchState

/-- The loop only comes to sessions in probation. -/
def switchNext (u : Unicode) (nix : NixEnv) (op : SwitchOp) (st : WatchState) :
    List SwitchEffect × WatchState :=
  match op with
  | .begin id body seen now => st.switchBeginHandler u id body seen now
  | .commit id now => st.switchCommitHandler id now
  | .rollback id commands now => st.switchRollbackHandler nix id commands now
  | .probe id p =>
    if (st.switches.find? id).any (·.isActive) then st.probeSession u nix id p else ([], st)
  | .profileChanges p => ([], { st with profile := p })

abbrev SwitchStep := Step WatchState SwitchOp (List SwitchEffect)

/-! ### What a step does -/

/-- The rollbacks that were run, and for which sessions. -/
def rollbackRuns (effects : List SwitchEffect) : List (String × Except String String) :=
  effects.filterMap fun
    | .rollbackRun id result => some (id, result)
    | _ => none

/-- The step is not the begin of a session that draws the id again. -/
def SwitchOp.Spares (id : String) : SwitchOp → Prop
  | .begin id' .. => id' ≠ id
  | _ => True

/-- The session that a step rolls back: one in probation, by request or since its checks
fail. -/
def WatchState.rolledBackBy (u : Unicode) (st : WatchState) :
    SwitchOp → Option (SwitchSession × RollbackCommands)
  | .rollback id commands _ => ((st.switches.find? id).filter (·.isActive)).map (·, commands)
  | .probe id p => ((st.switches.find? id).filter fun s =>
      s.isActive && !(runHealthChecks u p.check s.healthChecks).1).map (·, p.commands)
  | _ => none

/-- What a step does to the sessions: nothing, or it ends one that is in probation. -/
inductive SwitchShape (u : Unicode) (nix : NixEnv) (st : WatchState) (op : SwitchOp)
    (out : List SwitchEffect × WatchState) : Prop where
  | nothing (quiet : st.rolledBackBy u op = none) (runs : rollbackRuns out.1 = [])
      (same : ∀ id, op.Spares id → out.2.switches.find? id = st.switches.find? id)
  | commits {s : SwitchSession} {at' : DateTime} (quiet : st.rolledBackBy u op = none)
      (runs : rollbackRuns out.1 = []) (found : st.switches.find? s.id = some s)
      (active : s.isActive = true)
      (ends : out.2.switches = st.switches.put { s with status := .committed at' })
  | rollsBack {s : SwitchSession} {commands : RollbackCommands} {reason : String} {at' : DateTime}
      (rolls : st.rolledBackBy u op = some (s, commands))
      (runs : rollbackRuns out.1 = [(s.id, (rollbackGeneration nix commands st.profile).1)])
      (found : st.switches.find? s.id = some s) (active : s.isActive = true)
      (ends : out.2.switches = st.switches.put { s with status := .rolledBack reason at' })
      (profile : out.2.profile = (rollbackGeneration nix commands st.profile).2)

section Shape

variable (u : Unicode) (nix : NixEnv) (st : WatchState)

theorem begin_shape (id : String) (body : BeginSwitchRequest) (seen : Profile) (now : DateTime) :
    SwitchShape u nix st (.begin id body seen now) (st.switchBeginHandler u id body seen now) := by
  unfold switchBeginHandler
  split
  · exact .nothing rfl rfl fun _ _ => rfl
  · refine .nothing rfl rfl ?_
    intro id' hspares
    exact Table.find?_put_other hspares

theorem commit_shape (id : String) (now : DateTime) :
    SwitchShape u nix st (.commit id now) (st.switchCommitHandler id now) := by
  unfold switchCommitHandler
  split
  · exact .nothing rfl rfl fun _ _ => rfl
  · rename_i s hfind
    cases hactive : s.isActive with
    | false => exact .nothing rfl rfl fun _ _ => rfl
    | true => exact .commits rfl rfl (Table.key_of_find? hfind ▸ hfind) hactive rfl

theorem rollback_shape (id : String) (commands : RollbackCommands) (now : DateTime) :
    SwitchShape u nix st (.rollback id commands now)
      (st.switchRollbackHandler nix id commands now) := by
  have hrolls : st.rolledBackBy u (.rollback id commands now) =
      ((st.switches.find? id).filter (·.isActive)).map (·, commands) := rfl
  unfold switchRollbackHandler
  split
  · rename_i hfind
    rw [hfind] at hrolls
    exact .nothing hrolls rfl fun _ _ => rfl
  · rename_i s hfind
    have hid := Table.key_of_find? hfind
    rw [hfind, Option.filter_some] at hrolls
    cases hactive : s.isActive with
    | false =>
      rw [hactive] at hrolls
      exact .nothing hrolls rfl fun _ _ => rfl
    | true =>
      rw [hactive] at hrolls
      subst hid
      exact .rollsBack hrolls rfl hfind hactive rfl rfl

theorem autoRollback_shape {id : String} {s : SwitchSession} {p : Probe}
    (hfind : st.switches.find? id = some s) (hactive : s.isActive = true)
    (hfails : (runHealthChecks u p.check s.healthChecks).1 = false) (reason text : String)
    (failures : List String) :
    SwitchShape u nix st (.probe id p) (st.autoRollback nix s p reason text failures) := by
  have hid := Table.key_of_find? hfind
  subst hid
  refine .rollsBack ?_ rfl hfind hactive rfl rfl
  rw [rolledBackBy, hfind, Option.filter_some, hactive, hfails]
  rfl

theorem probe_shape (id : String) (p : Probe)
    (h : (st.switches.find? id).any (·.isActive) = true) :
    SwitchShape u nix st (.probe id p) (st.probeSession u nix id p) := by
  obtain ⟨s, hfind, hactive⟩ := (Option.any_eq_true ..).mp h
  unfold probeSession
  rw [hfind]
  dsimp only
  cases hpassed : (runHealthChecks u p.check s.healthChecks).1 with
  | false =>
    simp only [Bool.not_false, if_true, Bool.false_eq_true, if_false]
    split
    · exact autoRollback_shape u nix st hfind hactive hpassed _ _ _
    · exact autoRollback_shape u nix st hfind hactive hpassed _ _ _
  | true =>
    have hquiet : st.rolledBackBy u (.probe id p) = none := by
      rw [rolledBackBy, hfind, Option.filter_some, hactive, hpassed]
      rfl
    simp only [Bool.not_true, Bool.false_eq_true, if_false, if_true]
    split
    · exact .nothing hquiet rfl fun _ _ => rfl
    · exact .commits hquiet rfl (Table.key_of_find? hfind ▸ hfind) hactive rfl

theorem switchNext_shape (op : SwitchOp) : SwitchShape u nix st op (switchNext u nix op st) := by
  cases op with
  | begin id body seen now => exact begin_shape u nix st id body seen now
  | commit id now => exact commit_shape u nix st id now
  | rollback id commands now => exact rollback_shape u nix st id commands now
  | probe id p =>
    rw [switchNext]
    split
    · exact probe_shape u nix st id p ‹_›
    · rename_i h
      refine .nothing ?_ rfl fun _ _ => rfl
      rw [rolledBackBy, Option.map_eq_none_iff, Option.filter_eq_none_iff]
      intro s hfind hs
      rw [hfind, Option.any_some] at h
      exact h ((Bool.and_eq_true ..).mp hs).1
  | profileChanges p => exact .nothing rfl rfl fun _ _ => rfl

end Shape

/-! ### The loop -/

section Loop

variable (u : Unicode) (nix : NixEnv) (st : WatchState)

theorem find?_probeSession (id : String) (p : Probe) {id' : String} (hne : id ≠ id') :
    (st.probeSession u nix id p).2.switches.find? id' = st.switches.find? id' := by
  cases hfind : st.switches.find? id with
  | none =>
    rw [probeSession, hfind]
  | some s =>
    have hid := Table.key_of_find? hfind
    unfold probeSession
    rw [hfind]
    dsimp only
    have hput : ∀ status : SwitchStatus,
        (st.switches.put { s with status := status }).find? id' = st.switches.find? id' :=
      fun status => Table.find?_put_other (by rw [hid]; exact hne)
    split
    · split
      · exact hput _
      · rfl
    · split
      · exact hput _
      · exact hput _

/-- The loop body of sessions in probation is a row of steps: one that the loop comes to later
is still in probation, since each is walked once. -/
theorem probeAll_eq (probes : String → Probe) {ids : List String} (hnodup : ids.Nodup)
    (hactive : ∀ id ∈ ids, (st.switches.find? id).any (·.isActive) = true) :
    probeAll u nix probes ids st =
      ((trace (switchNext u nix) (ids.map fun id => .probe id (probes id)) st).flatMap (·.output),
        final (switchNext u nix) (ids.map fun id => .probe id (probes id)) st) := by
  induction ids generalizing st with
  | nil => rfl
  | cons id ids ih =>
    obtain ⟨hfresh, hrest⟩ := List.nodup_cons.mp hnodup
    have hstep : switchNext u nix (.probe id (probes id)) st = st.probeSession u nix id (probes id) :=
      if_pos (hactive id List.mem_cons_self)
    have hlater : ∀ id' ∈ ids, ((st.probeSession u nix id (probes id)).2.switches.find? id').any
        (·.isActive) = true := by
      intro id' hid'
      rw [find?_probeSession u nix st id _ fun h => hfresh (h ▸ hid')]
      exact hactive id' (List.mem_cons_of_mem _ hid')
    rw [probeAll, List.map_cons, trace_cons, final_cons, List.flatMap_cons, stepOf_output, hstep,
      ih _ hrest hlater]

/-- **An iteration of the loop** is a row of steps, one for each session in probation. -/
theorem probationTick_eq (walk : Walk) (probes : String → Probe) :
    ∃ ids : List String, ids.Perm ((st.switches.rows.filter (·.isActive)).map (·.id)) ∧
      probationTick u nix st walk probes =
        ((trace (switchNext u nix) (ids.map fun id => .probe id (probes id)) st).flatMap (·.output),
          final (switchNext u nix) (ids.map fun id => .probe id (probes id)) st) := by
  have hperm := walk.perm ((st.switches.rows.filter (·.isActive)).map (·.id))
  refine ⟨_, hperm, probeAll_eq u nix st probes ?_ fun id hid => ?_⟩
  · exact hperm.nodup_iff.mpr (st.switches.nodup_keys.sublist (List.filter_sublist.map _))
  · obtain ⟨s, hs, rfl⟩ := List.mem_map.mp (hperm.mem_iff.mp hid)
    obtain ⟨hmem, hactive⟩ := List.mem_filter.mp hs
    rw [Table.mem_rows_iff.mp hmem]
    exact hactive

end Loop

/-! ### How sessions end -/

/-- How many rollbacks a step runs for a session. -/
def rollbacksOf (id : String) (t : SwitchStep) : Nat :=
  (rollbackRuns t.output).countP (·.1 = id)

/-- From a step on: a session that has ended stays as it is and no rollback is run for it, one
rollback is run at most, and none if the session is committed. -/
structure EndsOnce (id : String) (t : SwitchStep) (future : List SwitchStep) : Prop where
  absorbing : ∀ s, t.before.switches.find? id = some s → s.isActive = false →
    ∀ v ∈ t :: future, v.after.switches.find? id = some s ∧ rollbacksOf id v = 0
  once : ((t :: future).map (rollbacksOf id)).sum ≤ 1
  committed : ∀ v ∈ t :: future, ∀ s at', v.after.switches.find? id = some s →
    s.status = .committed at' → ((t :: future).map (rollbacksOf id)).sum = 0

/-- Every session ends once, as long as no other is begun under its id. -/
def SessionsEndOnce (run : List SwitchStep) : Prop :=
  ∀ past t future, run = past ++ t :: future → ∀ id, (∀ v ∈ t :: future, v.input.Spares id) →
    EndsOnce id t future

def SwitchStatus.isRolledBack : SwitchStatus → Bool
  | .rolledBack .. => true
  | _ => false

/-- How many rollbacks a session may still have. -/
def mayRollBack (id : String) (st : WatchState) : Nat :=
  (st.switches.find? id).elim 1 fun s => if s.status.isRolledBack then 0 else 1

theorem mayRollBack_le (id : String) (st : WatchState) : mayRollBack id st ≤ 1 := by
  unfold mayRollBack
  cases st.switches.find? id with
  | none => exact le_rfl
  | some s => rw [Option.elim_some]; split <;> omega

section Ends

variable {u : Unicode} {nix : NixEnv} {st : WatchState} {op : SwitchOp} {id : String}

theorem find?_ended_other {t : Table SwitchSession.id} {s : SwitchSession} {id : String}
    (hne : s.id ≠ id) (status : SwitchStatus) :
    (t.put { s with status := status }).find? id = t.find? id :=
  Table.find?_put_other hne

/-- A session that has ended is left alone. -/
theorem ended_step {s : SwitchSession} (hspares : op.Spares id)
    (hfind : st.switches.find? id = some s) (hended : s.isActive = false) :
    (switchNext u nix op st).2.switches.find? id = some s ∧
      rollbacksOf id (stepOf (switchNext u nix) op st) = 0 := by
  have hother : ∀ s', st.switches.find? s'.id = some s' → s'.isActive = true → s'.id ≠ id := by
    rintro s' hfind' hactive rfl
    obtain rfl := Option.some.inj (hfind'.symm.trans hfind)
    exact absurd (hactive.symm.trans hended) (by decide)
  rw [rollbacksOf, stepOf_output]
  obtain ⟨-, hruns, hsame⟩ | ⟨-, hruns, hfound, hactive, hends⟩ |
    ⟨-, hruns, hfound, hactive, hends, -⟩ := switchNext_shape u nix st op
  · rw [hsame id hspares, hruns]
    exact ⟨hfind, rfl⟩
  · rw [hends, find?_ended_other (hother _ hfound hactive), hruns]
    exact ⟨hfind, rfl⟩
  · rw [hends, find?_ended_other (hother _ hfound hactive), hruns]
    refine ⟨hfind, List.countP_eq_zero.mpr fun run hrun => ?_⟩
    obtain rfl := List.mem_singleton.mp hrun
    simpa using hother _ hfound hactive

/-- A rollback is run only for a session that may still have one, and is its last. -/
theorem rollback_pays (hspares : op.Spares id) :
    rollbacksOf id (stepOf (switchNext u nix) op st) + mayRollBack id (switchNext u nix op st).2 ≤
      mayRollBack id st := by
  have hopen : ∀ s : SwitchSession, st.switches.find? s.id = some s → s.isActive = true →
      mayRollBack s.id st = 1 := by
    intro s hfind hactive
    have hstatus : s.status = .probation := of_decide_eq_true hactive
    rw [mayRollBack, hfind, Option.elim_some, hstatus]
    rfl
  rw [rollbacksOf, stepOf_output]
  obtain ⟨-, hruns, hsame⟩ | ⟨-, hruns, hfound, hactive, hends⟩ |
    ⟨-, hruns, hfound, hactive, hends, -⟩ := switchNext_shape u nix st op
  · rw [hruns, mayRollBack, hsame id hspares, List.countP_nil, Nat.zero_add, mayRollBack]
  · rename_i s at'
    rw [hruns, List.countP_nil, Nat.zero_add]
    by_cases hid : s.id = id
    · rw [← hid, hopen s hfound hactive]
      exact mayRollBack_le _ _
    · rw [mayRollBack, hends, find?_ended_other hid, mayRollBack]
  · rename_i s commands reason at'
    rw [hruns, List.countP_singleton]
    by_cases hid : s.id = id
    · subst hid
      rw [hopen s hfound hactive, mayRollBack, hends, Table.find?_put, if_pos rfl, Option.elim_some]
      simp [SwitchStatus.isRolledBack]
    · rw [mayRollBack, hends, find?_ended_other hid, mayRollBack]
      simp [hid]

end Ends

/-- A session that has ended is left alone by every later step. -/
theorem ended_trace {u : Unicode} {nix : NixEnv} {ops : List SwitchOp} {st : WatchState}
    {s : SwitchSession} (hspares : ∀ v ∈ trace (switchNext u nix) ops st, v.input.Spares s.id)
    (hfind : st.switches.find? s.id = some s) (hended : s.isActive = false) :
    ∀ v ∈ trace (switchNext u nix) ops st,
      v.after.switches.find? s.id = some s ∧ rollbacksOf s.id v = 0 := by
  induction ops generalizing st with
  | nil => exact fun _ hv => absurd hv List.not_mem_nil
  | cons op ops ih =>
    obtain ⟨hfirst, hrest⟩ := List.forall_mem_cons.mp hspares
    have hstep : (switchNext u nix op st).2.switches.find? s.id = some s ∧
        rollbacksOf s.id (stepOf (switchNext u nix) op st) = 0 := ended_step hfirst hfind hended
    exact List.forall_mem_cons.mpr ⟨hstep, ih hrest hstep.1⟩

theorem ended_final {u : Unicode} {nix : NixEnv} {ops : List SwitchOp} {st : WatchState}
    {s : SwitchSession} (hspares : ∀ v ∈ trace (switchNext u nix) ops st, v.input.Spares s.id)
    (hfind : st.switches.find? s.id = some s) (hended : s.isActive = false) :
    (final (switchNext u nix) ops st).switches.find? s.id = some s := by
  refine final_invariant_of (I := fun st : WatchState => st.switches.find? s.id = some s)
    (fun op st hfind hspares => ?_) hfind hspares
  exact (ended_step hspares hfind hended).1

/-- Where a rollback is run and succeeds, the generation that its session has recorded is the
active one. -/
def ReturnsToRecorded (t : SwitchStep) : Prop :=
  ∀ id g, (id, .ok g) ∈ rollbackRuns t.output →
    ∀ s, t.after.switches.find? id = some s →
      currentGeneration t.after.profile = s.previousGeneration

/-- Where a session is rolled back and the commands run, the generation below the active one,
if there is one, is the one that the session has recorded. -/
def PreviousIsBelow (u : Unicode) (t : SwitchStep) : Prop :=
  ∀ s commands, t.before.rolledBackBy u t.input = some (s, commands) → commands.Run →
    ∀ n m, t.before.profile.current = some n → t.before.profile.IsBelow n m →
      s.previousGeneration = generationLink m

/-- A rollback succeeds if its commands run and there is a generation below the active one. -/
theorem rollbackGeneration_eq_ok {nix : NixEnv} {c : RollbackCommands} {p : Profile} {g : String} :
    (rollbackGeneration nix c p).1 = .ok g ↔
      c.Run ∧ ∃ n m, p.current = some n ∧ p.IsBelow n m ∧ g = generationLink m := by
  obtain ⟨nixEnv, switchTo⟩ := c
  unfold RollbackCommands.Run
  cases nixEnv with
  | some e => simp [rollbackGeneration]
  | none =>
    cases hroll : nix.rollback p with
    | error stderr =>
      simp only [rollbackGeneration, hroll, reduceCtorEq, false_iff]
      rintro ⟨-, n, m, hcurrent, hbelow, -⟩
      have hok := (nix.rollback_ok p _).mpr ⟨n, m, hcurrent, hbelow, rfl⟩
      rw [hroll] at hok
      cases hok
    | ok p' =>
      obtain ⟨n, m, hcurrent, hbelow, rfl⟩ := (nix.rollback_ok p p').mp hroll
      cases switchTo with
      | some e => simp [rollbackGeneration, hroll]
      | none =>
        simp only [rollbackGeneration, hroll, true_and, Except.ok.injEq]
        constructor
        · rintro rfl
          exact ⟨n, m, hcurrent, hbelow, rfl⟩
        · rintro ⟨n', m', hcurrent', hbelow', rfl⟩
          obtain rfl := Option.some.inj (hcurrent.symm.trans hcurrent')
          rw [hbelow.unique hbelow']
          rfl

/-- A rollback that succeeds reads the link last. -/
theorem currentGeneration_of_ok {nix : NixEnv} {c : RollbackCommands} {p : Profile} {g : String}
    (h : (rollbackGeneration nix c p).1 = .ok g) :
    currentGeneration (rollbackGeneration nix c p).2 = g := by
  unfold rollbackGeneration at h ⊢
  split at h
  · cases h
  · split at h
    · cases h
    · split at h
      · cases h
      · exact Except.ok.inj h

theorem returnsToRecorded_step_iff {u : Unicode} {nix : NixEnv} (op : SwitchOp) (st : WatchState) :
    ReturnsToRecorded (stepOf (switchNext u nix) op st) ↔
      PreviousIsBelow u (stepOf (switchNext u nix) op st) := by
  unfold ReturnsToRecorded PreviousIsBelow
  simp only [stepOf_before, stepOf_input, stepOf_output, stepOf_after]
  obtain ⟨hquiet, hruns, -⟩ | ⟨hquiet, hruns, -⟩ | ⟨hrolls, hruns, hfound, -, hends, hprofile⟩ :=
    switchNext_shape u nix st op
  · simp [hquiet, hruns]
  · simp [hquiet, hruns]
  · rename_i s commands reason at'
    rw [hrolls, hruns, hends, hprofile]
    constructor
    · intro hreturns s' commands' hsame hrun n m hcurrent hbelow
      obtain ⟨rfl, rfl⟩ := Prod.mk.inj (Option.some.inj hsame)
      have hok : (rollbackGeneration nix commands st.profile).1 = .ok (generationLink m) :=
        rollbackGeneration_eq_ok.mpr ⟨hrun, n, m, hcurrent, hbelow, rfl⟩
      rw [← currentGeneration_of_ok hok]
      exact (hreturns s.id _ (by rw [hok]; exact List.mem_singleton_self _) _
        (Table.find?_put_self _ _)).symm
    · intro hbelow id g hmem s' hs'
      obtain ⟨rfl, hok⟩ := Prod.mk.inj (List.mem_singleton.mp hmem)
      obtain ⟨hrun, n, m, hcurrent, hbelow', rfl⟩ := rollbackGeneration_eq_ok.mp hok.symm
      obtain rfl := Option.some.inj ((Table.find?_put_self _ _).symm.trans hs')
      rw [currentGeneration_of_ok hok.symm]
      exact (hbelow s commands rfl hrun n m hcurrent hbelow').symm

/-- In every run, the rollbacks that succeed return to the recorded generations if and only if
these are the ones below the active generation at the time. -/
theorem rollback_returns_iff (u : Unicode) (nix : NixEnv) (ops : List SwitchOp) (p : Profile) :
    (∀ t ∈ trace (switchNext u nix) ops (.new p), ReturnsToRecorded t) ↔
      ∀ t ∈ trace (switchNext u nix) ops (.new p), PreviousIsBelow u t :=
  all_good_iff (I := fun _ => True) (fun op st _ => returnsToRecorded_step_iff op st)
    (fun _ _ _ _ => trivial) ops trivial

/-! Two sessions that each switch the system once, and the first of them is rolled back. -/

/-- `nix-env --rollback` on generations that are there as files are. -/
def plainNix : NixEnv where
  rollback p :=
    match p.current with
    | none => .error "no current generation"
    | some n =>
      match (p.generations.filter (· < n)).max? with
      | none => .error "no generation older than the current exists"
      | some m => .ok { p with current := some m }
  rollback_ok p p' := by
    have hbelow : ∀ n m, (p.generations.filter (· < n)).max? = some m ↔ p.IsBelow n m := by
      intro n m
      rw [List.max?_eq_some_iff]
      simp [Profile.IsBelow, IsGreatest, upperBounds]
    cases hcurrent : p.current with
    | none => simp
    | some n =>
      simp only [Option.some.injEq, ← hbelow]
      cases hmax : (p.generations.filter (· < n)).max? with
      | none => simp [hmax]
      | some m => simp [hmax, eq_comm]

def midnight : DateTime := ⟨0, DateTime.zero_inRange⟩

/-- The profile with this generation as its newest and active one. -/
def generationsUpTo (n : Nat) : Profile := ⟨List.range' 1 n, some n⟩

def twoSwitches : List SwitchOp :=
  [.begin "a" ⟨"upgrade nginx", 600, []⟩ (generationsUpTo 1) midnight,
    .profileChanges (generationsUpTo 2),
    .begin "b" ⟨"open a port", 600, []⟩ (generationsUpTo 2) midnight,
    .profileChanges (generationsUpTo 3)]

def rollbackFirst : SwitchOp := .rollback "a" ⟨none, none⟩ midnight

/-- The system is then on the second generation, and the session has recorded the first. -/
theorem rollbackFirst_misses_recorded :
    ¬ ∀ u nix ops p, ∀ t ∈ trace (switchNext u nix) ops (.new p), ReturnsToRecorded t := by
  intro h
  have hlast : stepOf (switchNext .ascii plainNix) rollbackFirst
      (final (switchNext .ascii plainNix) twoSwitches (.new (generationsUpTo 1))) ∈
      trace (switchNext .ascii plainNix) (twoSwitches ++ [rollbackFirst])
        (.new (generationsUpTo 1)) := by
    rw [trace_append]
    exact List.mem_append_right _ (List.mem_singleton_self _)
  have hrolls : (final (switchNext .ascii plainNix) twoSwitches
      (.new (generationsUpTo 1))).rolledBackBy .ascii rollbackFirst =
      some (⟨"a", "upgrade nginx", 600, [], midnight, generationLink 1, .probation⟩,
        ⟨none, none⟩) := rfl
  have hbelow : (generationsUpTo 3).IsBelow 3 2 :=
    ⟨by simp [generationsUpTo], fun k hk => Nat.le_of_lt_succ hk.2⟩
  have hrecorded : generationLink 1 = generationLink 2 :=
    (returnsToRecorded_step_iff rollbackFirst _).mp (h _ _ _ _ _ hlast) _ _ hrolls ⟨rfl, rfl⟩
      3 2 rfl hbelow
  exact absurd hrecorded (by decide)

end OsModa.Watch
