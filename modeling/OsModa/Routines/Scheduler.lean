import OsModa.Base.File
import OsModa.Base.Machine
import OsModa.Base.Table
import OsModa.Routines.Routine

/-!
The routines daemon: its requests, and the loop that runs the routines that are due.

A tick takes a snapshot of the due routines under the lock and lets the lock go; each action
is then executed without it, and afterwards the lock is taken again to write `last_run` and
`run_count` back to the position that the routine had in the snapshot. A removal in between
moves the routines behind it, so what is written back reaches the routine that was executed
only while it keeps its position (`recording_faithful_iff`).
-/

namespace OsModa.Routines

open OsModa.Text OsModa.Machine

/-- An entry of `actions`: a position, and the routine that was there when the tick came. The
source keeps its name and its action. -/
structure Job where
  idx : Nat
  routine : Routine

/-- Where the loop stands in its tick. -/
inductive Scheduler where
  | idle
  /-- The action of the job is being executed. -/
  | executing (now : DateTime) (job : Job) (rest : List Job)
  /-- It has been executed, and the lock is waited for. -/
  | recording (now : DateTime) (job : Job) (rest : List Job)

/-- The loop goes on to the next action. -/
def Scheduler.next (now : DateTime) : List Job → Scheduler
  | [] => .idle
  | job :: rest => .executing now job rest

structure RoutinesState where
  routines : Table Routine.id
  /-- What routines.json reads back as. -/
  file : Option (Table Routine.id)
  scheduler : Scheduler
  /-- The UUIDs that have been drawn; none is drawn twice. -/
  drawn : List String

structure AddRoutineRequest where
  name : String
  trigger : Trigger
  action : RoutineAction
  enabled : Bool

inductive RoutinesEvent where
  /-- The interval of the loop ticks. -/
  | tick (now : DateTime)
  /-- `execute_action` returns. -/
  | complete (result : Except String String)
  /-- The loop has the lock and writes the run back. -/
  | record
  | add (id : String) (body : AddRoutineRequest) (write : FileWrite)
  | remove (id : String) (write : FileWrite)
  /-- A manual trigger, whose action is executed after its step. -/
  | trigger (id : String) (now : DateTime) (result : Except String String)

inductive RoutinesEffect where
  | executed (routine : Routine) (now : DateTime)
  | added (reply : Except (Nat × String) Routine)
  | removed (reply : Except Nat String)
  | triggered (reply : Except (Nat × String) (Except String String))

/-- The default routines, under their names. -/
def defaultTable : Table Routine.id := ⟨defaultRoutines, by decide⟩

def loadRoutines (file : Option (Table Routine.id)) : Table Routine.id := file.getD defaultTable

namespace RoutinesState

variable (u : Unicode) (st : RoutinesState)

/-- The daemon starts with what the file reads back as. -/
def start (file : Option (Table Routine.id)) : RoutinesState :=
  ⟨loadRoutines file, file, .idle, (loadRoutines file).rows.map (·.id)⟩

/-- The positions of the routines that should run. -/
def due (now : DateTime) : List Nat :=
  (st.routines.rows.zipIdx.filter fun (r, _) => r.shouldRun u now).map (·.2)

/-- `actions`: what is cloned of the due routines before the lock is released. -/
def actions (now : DateTime) : List Job :=
  (st.due u now).filterMap fun i => st.routines.rows[i]?.map (Job.mk i)

/-- `routines.get_mut(idx)`, and the update of the run fields. -/
def recordRun (idx : Nat) (now : DateTime) : Table Routine.id :=
  st.routines.modifyAt idx (·.ran now) fun r => r.ran_id now

def routineAddHandler (id : String) (body : AddRoutineRequest) (write : FileWrite) :
    List RoutinesEffect × RoutinesState :=
  match validateRoutineAction u body.action with
  | .error e => ([.added (.error (400, e))], st)
  | .ok () =>
    if id ∈ st.drawn then ([], st)
    else
      let routine : Routine := ⟨id, body.name, body.trigger, body.action, body.enabled, none, 0⟩
      let routines := st.routines.put routine
      ([.added (.ok routine)],
        { st with
          routines := routines
          file := write.leaves routines st.file
          drawn := id :: st.drawn })

def routineRemoveHandler (id : String) (write : FileWrite) :
    List RoutinesEffect × RoutinesState :=
  let routines := st.routines.erase id
  if routines.rows.length < st.routines.rows.length then
    ([.removed (.ok id)], { st with routines := routines, file := write.leaves routines st.file })
  else ([.removed (.error 404)], { st with routines := routines })

def routineTriggerHandler (id : String) (now : DateTime) (result : Except String String) :
    List RoutinesEffect × RoutinesState :=
  match st.routines.find? id with
  | none => ([.triggered (.error (404, "routine not found"))], st)
  | some routine =>
    ([.triggered (.ok result)], { st with routines := st.routines.put (routine.ran now) })

end RoutinesState

open RoutinesState

abbrev RoutinesStep := Step RoutinesState RoutinesEvent (List RoutinesEffect)

/-- One step of the daemon: the loop from one point where others may come in to the next, or
a request. An event that does not fit where the loop stands changes nothing. -/
def routinesNext (u : Unicode) (e : RoutinesEvent) (st : RoutinesState) :
    List RoutinesEffect × RoutinesState :=
  match e, st.scheduler with
  | .tick now, .idle => ([], { st with scheduler := .next now (st.actions u now) })
  | .complete _, .executing now job rest =>
    ([.executed job.routine now], { st with scheduler := .recording now job rest })
  | .record, .recording now job rest =>
    ([], { st with routines := st.recordRun job.idx now, scheduler := .next now rest })
  | .add id body write, _ => st.routineAddHandler u id body write
  | .remove id write, _ => st.routineRemoveHandler id write
  | .trigger id now result, _ => st.routineTriggerHandler id now result
  | _, _ => ([], st)


/-! ### What a step does to a routine -/

/-- The routine whose run fields a step writes, and the time it writes. -/
def RoutinesState.written (st : RoutinesState) : RoutinesEvent → Option (String × DateTime)
  | .record =>
    match st.scheduler with
    | .recording now job _ => st.routines.rows[job.idx]?.map fun r => (r.id, now)
    | _ => none
  | .trigger id now _ => some (id, now)
  | _ => none

/-- What it makes of a routine. -/
def RoutinesState.afterStep (st : RoutinesState) (e : RoutinesEvent) (r : Routine) : Routine :=
  match st.written e with
  | some (id, now) => if id = r.id then r.ran now else r
  | none => r

/-- Every stored routine has an id that was drawn. -/
def RoutinesState.Known (st : RoutinesState) : Prop :=
  ∀ r ∈ st.routines.rows, r.id ∈ st.drawn

section

variable {u : Unicode} {st : RoutinesState} {e : RoutinesEvent} {k : String} {r r' : Routine}

@[simp] theorem routinesNext_add (id : String) (body : AddRoutineRequest) (write : FileWrite) :
    routinesNext u (.add id body write) st = st.routineAddHandler u id body write := rfl

@[simp] theorem afterStep_add (id : String) (body : AddRoutineRequest) (write : FileWrite) :
    st.afterStep (.add id body write) r = r := rfl

@[simp] theorem routinesNext_remove (id : String) (write : FileWrite) :
    routinesNext u (.remove id write) st = st.routineRemoveHandler id write := rfl

@[simp] theorem routinesNext_trigger (id : String) (now : DateTime)
    (result : Except String String) :
    routinesNext u (.trigger id now result) st = st.routineTriggerHandler id now result := rfl

theorem routines_routineRemoveHandler (id : String) (write : FileWrite) :
    (st.routineRemoveHandler id write).2.routines = st.routines.erase id := by
  unfold routineRemoveHandler
  dsimp only
  split <;> rfl

theorem RoutinesState.Known.of_find? (h : st.Known) (hr : st.routines.find? k = some r) :
    k ∈ st.drawn := by
  rw [← Table.key_of_find? hr]
  exact h r (List.mem_of_find?_eq_some hr)

/-- A routine that is stored is removed by the step, or is as the step leaves it. -/
theorem find?_step (hknown : st.Known) (hr : st.routines.find? k = some r) :
    (∃ write, e = .remove k write) ∨
      (routinesNext u e st).2.routines.find? k = some (st.afterStep e r) := by
  have hkey : r.id = k := Table.key_of_find? hr
  cases e with
  | tick now =>
    refine .inr ?_
    rcases hs : st.scheduler <;> simpa [routinesNext, hs, afterStep, written] using hr
  | complete result =>
    refine .inr ?_
    rcases hs : st.scheduler <;> simpa [routinesNext, hs, afterStep, written] using hr
  | record =>
    refine .inr ?_
    cases hs : st.scheduler with
    | idle => simpa [routinesNext, hs, afterStep, written] using hr
    | executing now job rest => simpa [routinesNext, hs, afterStep, written] using hr
    | recording now job rest =>
      simp only [routinesNext, hs, afterStep, written, recordRun, Table.find?_modifyAt]
      cases st.routines.rows[job.idx]? with
      | none => simpa using hr
      | some s =>
        rw [Option.map_some, Option.map_some, hr, Option.map_some, hkey]
        simp only [Option.some.injEq]
        split <;> rfl
  | add id body write =>
    refine .inr ?_
    rw [routinesNext_add, afterStep_add, routineAddHandler]
    split
    · exact hr
    · split
      · exact hr
      · rename_i hdrawn
        have hother : id ≠ k := by
          rintro rfl
          exact hdrawn (hknown.of_find? hr)
        exact (Table.find?_put_other hother).trans hr
  | remove id write =>
    by_cases hid : id = k
    · subst hid
      exact .inl ⟨write, rfl⟩
    · refine .inr ?_
      rw [routinesNext_remove, routines_routineRemoveHandler, Table.find?_erase, if_neg hid]
      exact hr
  | trigger id now result =>
    refine .inr ?_
    rw [routinesNext_trigger, routineTriggerHandler, afterStep, written]
    cases hfind : st.routines.find? id with
    | none =>
      have hother : id ≠ k := by
        rintro rfl
        rw [hr] at hfind
        cases hfind
      simpa [hkey, hother] using hr
    | some s =>
      dsimp only
      rw [Table.find?_put_map (f := (·.ran now)) hfind rfl, hr, hkey, Option.map_some]
      split <;> rfl

/-- A routine that a step adds has an id that was not drawn before, and has not run. -/
theorem find?_step_new (hr : st.routines.find? k = none)
    (hr' : (routinesNext u e st).2.routines.find? k = some r') :
    k ∉ st.drawn ∧ k ∈ (routinesNext u e st).2.drawn ∧ r'.lastRun = none := by
  have hsame : (routinesNext u e st).2.routines.find? k ≠ st.routines.find? k := by
    rw [hr, hr']
    exact Option.some_ne_none r'
  cases e with
  | tick now => rcases hs : st.scheduler <;> simp [routinesNext, hs] at hsame
  | complete result => rcases hs : st.scheduler <;> simp [routinesNext, hs] at hsame
  | record =>
    cases hs : st.scheduler with
    | idle => simp [routinesNext, hs] at hsame
    | executing now job rest => simp [routinesNext, hs] at hsame
    | recording now job rest =>
      simp [routinesNext, hs, recordRun, Table.find?_modifyAt, hr] at hsame
  | add id body write =>
    rw [routinesNext_add, routineAddHandler] at hr' hsame ⊢
    split at hr'
    · exact absurd hr' (by rw [hr]; exact nofun)
    · split at hr'
      · exact absurd hr' (by rw [hr]; exact nofun)
      · rename_i hdrawn
        rw [Table.find?_put] at hr'
        split at hr'
        · rename_i hid
          obtain rfl : id = k := hid
          obtain rfl := Option.some.inj hr'
          simp [hdrawn]
        · exact absurd hr' (by rw [hr]; exact nofun)
  | remove id write =>
    rw [routinesNext_remove, routines_routineRemoveHandler, Table.find?_erase, hr] at hr'
    split at hr' <;> cases hr'
  | trigger id now result =>
    rw [routinesNext_trigger, routineTriggerHandler] at hr'
    cases hfind : st.routines.find? id with
    | none => simp [hfind, hr] at hr'
    | some s =>
      rw [hfind] at hr'
      dsimp only at hr'
      rw [Table.find?_put_map (f := (·.ran now)) hfind rfl, hr] at hr'
      split at hr' <;> cases hr'

theorem drawn_step (u : Unicode) (e : RoutinesEvent) (st : RoutinesState) :
    st.drawn ⊆ (routinesNext u e st).2.drawn := by
  cases e with
  | tick now => rcases hs : st.scheduler <;> simp [routinesNext, hs]
  | complete result => rcases hs : st.scheduler <;> simp [routinesNext, hs]
  | record => rcases hs : st.scheduler <;> simp [routinesNext, hs]
  | add id body write =>
    rw [routinesNext_add, routineAddHandler]
    split
    · exact List.Subset.refl _
    · split
      · exact List.Subset.refl _
      · exact List.subset_cons_self _ _
  | remove id write =>
    rw [routinesNext_remove, routineRemoveHandler]
    split <;> exact List.Subset.refl _
  | trigger id now result =>
    rw [routinesNext_trigger, routineTriggerHandler]
    split <;> exact List.Subset.refl _

theorem known_step (u : Unicode) (e : RoutinesEvent) {st : RoutinesState} (h : st.Known) :
    (routinesNext u e st).2.Known := by
  intro r hr
  have hfind := Table.mem_rows_iff.mp hr
  cases hold : st.routines.find? r.id with
  | none => exact (find?_step_new hold hfind).2.1
  | some r₀ => exact drawn_step u e st (h.of_find? hold)

theorem start_known (file : Option (Table Routine.id)) : (start file).Known :=
  fun _ hr => List.mem_map_of_mem hr

end

/-! ### What is recorded of an execution -/

/-- The execution whose run a step records: that of the loop's job, or a manual one. -/
def RoutinesState.execution (st : RoutinesState) : RoutinesEvent → Option (String × DateTime)
  | .record =>
    match st.scheduler with
    | .recording now job _ => some (job.routine.id, now)
    | _ => none
  | .trigger id now _ => some (id, now)
  | _ => none

/-- The run fields of a routine change only as an execution of it is recorded, which adds one
run to them. -/
structure RecordsOwn (t : RoutinesStep) : Prop where
  own : ∀ id r r', t.before.routines.find? id = some r → t.after.routines.find? id = some r' →
    (r'.lastRun ≠ r.lastRun ∨ r'.runCount ≠ r.runCount) →
      ∃ now, t.before.execution t.input = some (id, now)
  recorded : ∀ id now r, t.before.execution t.input = some (id, now) →
    t.before.routines.find? id = some r → t.after.routines.find? id = some (r.ran now)

/-- The position that is written back to holds the routine that was executed, or it lies
behind the last routine and that routine is gone. -/
def RoutinesState.InPlace (st : RoutinesState) (e : RoutinesEvent) : Prop :=
  match e, st.scheduler with
  | .record, .recording _ job _ =>
    match st.routines.rows[job.idx]? with
    | some r => r.id = job.routine.id
    | none => st.routines.find? job.routine.id = none
  | _, _ => True

instance (st : RoutinesState) (e : RoutinesEvent) : Decidable (st.InPlace e) := by
  unfold InPlace
  split
  · split <;> infer_instance
  · infer_instance

/-- The executions that the loop completed, in order. -/
def completed (run : List RoutinesStep) : List (String × DateTime) :=
  (run.flatMap Step.output).filterMap fun
    | .executed r now => some (r.id, now)
    | _ => none

/-- The executions that the loop wrote back, in order. -/
def writtenBack (run : List RoutinesStep) : List (String × DateTime) :=
  run.filterMap fun t => match t.input with
    | .record => t.before.execution .record
    | _ => none

/-- The execution that waits for the lock. -/
def RoutinesState.waiting (st : RoutinesState) : List (String × DateTime) :=
  (st.execution .record).toList

/-- What the loop is to do with the runs of routines: nothing else changes their run fields,
and every completed execution is written back once. -/
structure Faithful (run : List RoutinesStep) (last : RoutinesState) : Prop where
  own : ∀ t ∈ run, RecordsOwn t
  once : completed run = writtenBack run ++ last.waiting

section

variable {u : Unicode} {st : RoutinesState} {e : RoutinesEvent}

/-- A completed execution waits until it is written back. -/
theorem waiting_step (u : Unicode) (e : RoutinesEvent) (st : RoutinesState) :
    st.waiting ++ completed [stepOf (routinesNext u) e st] =
      writtenBack [stepOf (routinesNext u) e st] ++ (routinesNext u e st).2.waiting := by
  cases e with
  | tick now =>
    rcases hs : st.scheduler with _ | _ | _
    · cases hjobs : st.actions u now <;>
        simp [waiting, completed, writtenBack, routinesNext, hs, execution, Scheduler.next, hjobs]
    all_goals simp [waiting, completed, writtenBack, routinesNext, hs, execution]
  | complete result =>
    rcases hs : st.scheduler <;> simp [waiting, completed, writtenBack, routinesNext, hs, execution]
  | record =>
    rcases hs : st.scheduler with _ | _ | ⟨now, job, rest⟩
    case recording =>
      cases rest <;>
        simp [waiting, completed, writtenBack, routinesNext, hs, execution, Scheduler.next]
    all_goals simp [waiting, completed, writtenBack, routinesNext, hs, execution]
  | add id body write =>
    simp only [completed, writtenBack, List.flatMap_cons, List.flatMap_nil, List.filterMap_cons,
      stepOf_output, stepOf_input, routinesNext_add, routineAddHandler]
    split
    · simp
    · split <;> simp [waiting, execution]
  | remove id write =>
    simp only [completed, writtenBack, List.flatMap_cons, List.flatMap_nil, List.filterMap_cons,
      stepOf_output, stepOf_input, routinesNext_remove, routineRemoveHandler]
    split <;> simp [waiting, execution]
  | trigger id now result =>
    simp only [completed, writtenBack, List.flatMap_cons, List.flatMap_nil, List.filterMap_cons,
      stepOf_output, stepOf_input, routinesNext_trigger, routineTriggerHandler]
    split <;> simp [waiting, execution]

theorem completed_eq (u : Unicode) (events : List RoutinesEvent) (file : Option (Table Routine.id)) :
    completed (trace (routinesNext u) events (start file)) =
      writtenBack (trace (routinesNext u) events (start file)) ++
        (final (routinesNext u) events (start file)).waiting := by
  refine history_invariant (h := [])
    (R := fun run s => completed run = writtenBack run ++ s.waiting) ?_ events rfl
  intro e run s hrun
  have hcompleted : completed (run ++ [stepOf (routinesNext u) e s]) =
      completed run ++ completed [stepOf (routinesNext u) e s] := by
    simp only [completed, List.flatMap_append, List.filterMap_append]
  have hwritten : writtenBack (run ++ [stepOf (routinesNext u) e s]) =
      writtenBack run ++ writtenBack [stepOf (routinesNext u) e s] := by
    simp only [writtenBack, List.filterMap_append]
  rw [hcompleted, hwritten, hrun, List.append_assoc, waiting_step, List.append_assoc]

/-- What a routine is after a step, if it is still there. -/
theorem eq_afterStep (hknown : st.Known) {id : String} {r r' : Routine}
    (hr : st.routines.find? id = some r)
    (hr' : (routinesNext u e st).2.routines.find? id = some r') : r' = st.afterStep e r := by
  obtain ⟨write, rfl⟩ | hafter := find?_step (u := u) (e := e) hknown hr
  · rw [routinesNext_remove, routines_routineRemoveHandler, Table.find?_erase, if_pos rfl] at hr'
    cases hr'
  · rw [hafter] at hr'
    exact (Option.some.inj hr').symm

/-- A step that writes to no routine, or to the one whose execution it records. -/
theorem recordsOwn_of_written (hknown : st.Known)
    (hown : ∀ id now, st.written e = some (id, now) → st.execution e = some (id, now))
    (hrecorded : ∀ id now, st.execution e = some (id, now) → st.routines.find? id ≠ none →
      st.written e = some (id, now)) : RecordsOwn (stepOf (routinesNext u) e st) where
  own id r r' hr hr' hchanged := by
    obtain rfl : r.id = id := Table.key_of_find? hr
    have hafter := eq_afterStep hknown hr hr'
    unfold afterStep at hafter
    split at hafter
    · rename_i id' now hwritten
      split at hafter
      · rename_i hid
        subst hid
        exact ⟨now, hown _ _ hwritten⟩
      · rw [hafter] at hchanged
        simp at hchanged
    · rw [hafter] at hchanged
      simp at hchanged
  recorded id now r hexec hr := by
    have hwritten := hrecorded id now hexec (by rw [stepOf_before] at hr; rw [hr]; exact nofun)
    obtain ⟨write, rfl⟩ | hafter := find?_step (u := u) (e := e) hknown hr
    · cases hwritten
    · refine hafter.trans ?_
      rw [afterStep, hwritten, Table.key_of_find? hr]
      simp only [if_pos]

/-- A step records its own execution exactly when what it writes back is in its place. -/
theorem recordsOwn_step_iff (u : Unicode) (e : RoutinesEvent) {st : RoutinesState}
    (hknown : st.Known) :
    RecordsOwn (stepOf (routinesNext u) e st) ↔ st.InPlace e := by
  constructor
  · rintro ⟨hown, hrecorded⟩
    unfold InPlace
    split
    case h_2 => trivial
    rename_i now job rest hs
    have hexec : st.execution .record = some (job.routine.id, now) := by
      rw [execution, hs]
    split
    · -- The routine under the position is written to, so the execution was its own.
      rename_i r hr
      have hfind : st.routines.find? r.id = some r := Table.find?_of_getElem? hr
      have hafter : (routinesNext u .record st).2.routines.find? r.id = some (r.ran now) := by
        simp [routinesNext, hs, recordRun, Table.find?_modifyAt, hr, hfind]
      obtain ⟨now', hnow'⟩ := hown r.id r (r.ran now) hfind hafter (.inr (r.ran_runCount_ne now))
      rw [stepOf_before, stepOf_input, hexec] at hnow'
      exact (congrArg Prod.fst (Option.some.inj hnow')).symm
    · -- Nothing is written to, so there is no routine to record the execution on.
      rename_i hnone
      by_contra hfind
      obtain ⟨r, hr⟩ := Option.ne_none_iff_exists'.mp hfind
      have hafter := hrecorded _ now r hexec hr
      have hsame : (routinesNext u .record st).2.routines.find? job.routine.id = some r := by
        simp [routinesNext, hs, recordRun, Table.find?_modifyAt, hnone, hr]
      rw [stepOf_after, hsame] at hafter
      exact r.ran_ne now (Option.some.inj hafter).symm
  · intro hplace
    cases e with
    | record =>
      cases hs : st.scheduler with
      | recording now job rest =>
        have hjob := hplace
        simp only [InPlace, hs] at hjob
        refine recordsOwn_of_written hknown ?_ ?_
        · intro id now' hwritten
          rw [written, hs] at hwritten
          obtain ⟨r, hr, hpair⟩ := Option.map_eq_some_iff.mp hwritten
          rw [hr] at hjob
          rw [← hpair, show r.id = job.routine.id from hjob, execution, hs]
        · intro id now' hexec hfind
          rw [execution, hs] at hexec
          obtain ⟨rfl, rfl⟩ := Prod.mk.inj (Option.some.inj hexec)
          cases hr : st.routines.rows[job.idx]? with
          | none =>
            rw [hr] at hjob
            exact absurd hjob hfind
          | some r =>
            rw [hr] at hjob
            simp only [written, hs, hr, Option.map_some, show r.id = job.routine.id from hjob]
      | idle | executing =>
        exact recordsOwn_of_written hknown (by simp [written, hs]) (by simp [execution, hs])
    | tick | complete | add | remove =>
      exact recordsOwn_of_written hknown (by simp [written]) (by simp [execution])
    | trigger =>
      exact recordsOwn_of_written hknown (by simp [written, execution]) (by simp [written, execution])

end

/-- **The scheduler updates the routine it ran**, in every run of the daemon, if and only if
every run is written back to a position that holds its routine still, or to none when the
routine is gone. -/
theorem recording_faithful_iff (u : Unicode) (events : List RoutinesEvent)
    (file : Option (Table Routine.id)) :
    Faithful (trace (routinesNext u) events (start file))
        (final (routinesNext u) events (start file)) ↔
      ∀ t ∈ trace (routinesNext u) events (start file), t.before.InPlace t.input := by
  have hsteps : (∀ t ∈ trace (routinesNext u) events (start file), RecordsOwn t) ↔
      ∀ t ∈ trace (routinesNext u) events (start file), t.before.InPlace t.input :=
    all_good_iff (I := RoutinesState.Known) (fun e st hknown => recordsOwn_step_iff u e hknown)
      (fun e st hknown _ => known_step u e hknown) events (start_known file)
  exact ⟨fun h => hsteps.mp h.own, fun h => ⟨hsteps.mpr h, completed_eq u events file⟩⟩

/-! The default routines are due, and the first is removed while it is executed. -/

def epoch : DateTime := ⟨0, DateTime.zero_inRange⟩

def removedMeanwhile : List RoutinesEvent :=
  [.tick epoch, .remove "default-health" .written, .complete (.ok "system status: running"), .record]

/-- The run of the routine that is gone is recorded on the next one. -/
theorem removedMeanwhile_not_faithful :
    ¬ Faithful (trace (routinesNext Unicode.ascii) removedMeanwhile (start none))
      (final (routinesNext Unicode.ascii) removedMeanwhile (start none)) := by
  intro h
  obtain ⟨now, hexec⟩ := (h.own (stepOf (routinesNext Unicode.ascii) .record
      (final (routinesNext Unicode.ascii) (removedMeanwhile.take 3) (start none)))
    (by exact .tail _ (.tail _ (.tail _ (.head _))))).own "default-services" _ _ rfl rfl
      (.inr (by decide +kernel))
  have hid : _ = some "default-services" := congrArg (Option.map Prod.fst) hexec
  revert hid
  decide +kernel

end OsModa.Routines
