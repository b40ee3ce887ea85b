import OsModa.Routines.Scheduler

/-!
How far apart the executions of a routine are, over restarts of the daemon.

`last_run` is written to the file only when a routine is added or removed, so a restart
brings back an older one, or none, and an interval routine runs again at the next tick. A
cron routine is run at every tick in a minute that it matches. In runs where the file is up
to date at each restart and no two ticks share a minute that is matched, both kinds of
routine keep their distance (`schedule_safe`).
-/

namespace OsModa.Routines

open OsModa.Machine RoutinesState

/-- What happens to the daemon: an event of its process, or the process ends and another
starts. -/
inductive LifeEvent where
  | event (e : RoutinesEvent)
  | restart

abbrev LifeStep := Step RoutinesState LifeEvent (List RoutinesEffect)

/-- A new process knows what the file holds. -/
def RoutinesState.restart (st : RoutinesState) : RoutinesState :=
  { start st.file with drawn := (start st.file).drawn ++ st.drawn }

def lifeNext (u : Text.Unicode) (e : LifeEvent) (st : RoutinesState) :
    List RoutinesEffect × RoutinesState :=
  match e with
  | .event e => routinesNext u e st
  | .restart => ([], st.restart)

/-- The executions of the loop, with the routine and the time of the tick. -/
def executions (run : List LifeStep) : List (Routine × DateTime) :=
  (run.flatMap Step.output).filterMap fun
    | .executed r now => some (r, now)
    | _ => none

/-- The calendar minute of a reading. -/
def minute (t : DateTime) : Int := t.nanos / 60000000000

/-- A routine with that trigger may run at both times. -/
def Apart : Trigger → DateTime → DateTime → Prop
  | .interval seconds, before, now => before.nanos + seconds.toNat * 1000000000 ≤ now.nanos
  | .cron _, before, now => minute before ≠ minute now
  | .event _, _, _ => True

/-- An interval routine is executed at tick times at least its seconds apart, and a cron
routine at most once in a calendar minute. -/
def ScheduleSafe (run : List LifeStep) : Prop :=
  (executions run).Pairwise fun a b => a.1.id = b.1.id → Apart b.1.trigger a.2 b.2

/-! ### When it is -/

/-- The clock that an event reads. -/
def LifeEvent.reading : LifeEvent → Option DateTime
  | .event (.tick now) | .event (.trigger _ now _) => some now
  | _ => none

/-- The tick that a step begins. -/
def tickOf (t : LifeStep) : Option DateTime :=
  match t.input, t.before.scheduler with
  | .event (.tick now), .idle => some now
  | _, _ => none

/-- The file holds the interval routines as they are in memory, and every completed execution
is written back. -/
def RoutinesState.UpToDate (st : RoutinesState) : Prop :=
  st.waiting = [] ∧ ∀ r ∈ (loadRoutines st.file).rows, r.trigger.isInterval = true →
    st.routines.find? r.id = some r

instance (st : RoutinesState) : Decidable st.UpToDate := by
  unfold UpToDate
  infer_instance

/-- What a step starts from loses no run. -/
def Lossless (t : LifeStep) : Prop :=
  match t.input with
  | .event e => t.before.InPlace e
  | .restart => t.before.UpToDate

instance (t : LifeStep) : Decidable (Lossless t) := by
  unfold Lossless
  split <;> infer_instance

/-- A run in which nothing is lost and no minute has two ticks that a cron routine matches. -/
structure Regular (u : Text.Unicode) (run : List LifeStep) : Prop where
  /-- The times do not decrease. -/
  clock : (run.filterMap (·.input.reading)).Pairwise (· ≤ ·)
  readable : ∀ t ∈ run, ∀ now ∈ t.input.reading, now.isReadable = true
  lossless : ∀ t ∈ run, Lossless t
  minutes : ∀ past t future now, run = past ++ t :: future → tickOf t = some now →
    (∃ t' ∈ past, ∃ before, tickOf t' = some before ∧ minute before = minute now) →
      ∀ r ∈ t.before.routines.rows, r.trigger.isCron = true → r.shouldRun u now = false

/-- The tick that the loop is in, and the jobs whose actions it has still to execute. -/
def Scheduler.batch : Scheduler → Option (DateTime × List Job)
  | .idle => none
  | .executing now job rest => some (now, job :: rest)
  | .recording now _ rest => some (now, rest)

/-- What holds after a regular run. -/
structure Spaced (run : List LifeStep) (st : RoutinesState) : Prop where
  known : st.Known
  safe : ScheduleSafe run
  drawn : ∀ p ∈ executions run, p.1.id ∈ st.drawn
  ticked : ∀ p ∈ executions run, ∃ t ∈ run, tickOf t = some p.2
  /-- A stored interval routine has run last at its last execution or later. -/
  lastRun : ∀ r ∈ st.routines.rows, r.trigger.isInterval = true →
    ∀ p ∈ executions run, p.1.id = r.id → (r.id, p.2) ∈ st.waiting ∨
      ∃ last, r.lastRun = some last ∧ p.2 ≤ last ∧ ∃ t ∈ run, t.input.reading = some last
  /-- The tick has come, and each of its jobs may still run at it. -/
  batch : ∀ now jobs, st.scheduler.batch = some (now, jobs) →
    (∃ t ∈ run, tickOf t = some now) ∧ (∀ p ∈ executions run, p.2 ≤ now) ∧
      (jobs.map (·.routine.id)).Nodup ∧ ∀ job ∈ jobs, job.routine.id ∈ st.drawn ∧
        ∀ p ∈ executions run, p.1.id = job.routine.id → Apart job.routine.trigger p.2 now
  /-- The job that is being recorded is none of them. -/
  current : ∀ now job rest, st.scheduler = .recording now job rest →
    ∀ job' ∈ rest, job'.routine.id ≠ job.routine.id

/-! ### The jobs of a tick -/

section

variable {u : Text.Unicode} {st : RoutinesState} {now : DateTime}

theorem actions_eq (u : Text.Unicode) (st : RoutinesState) (now : DateTime) :
    st.actions u now = (st.routines.rows.zipIdx.filter fun (r, _) => r.shouldRun u now).map
      fun (r, i) => ⟨i, r⟩ := by
  rw [actions, due, List.filterMap_map, ← List.filterMap_eq_map]
  refine List.filterMap_congr fun (r, i) hmem => ?_
  have hrow : st.routines.rows[i]? = some r :=
    List.mem_zipIdx_iff_getElem?.mp (List.mem_filter.mp hmem).1
  simp [hrow]

theorem mem_actions {job : Job} (h : job ∈ st.actions u now) :
    job.routine ∈ st.routines.rows ∧ job.routine.shouldRun u now = true := by
  rw [actions_eq] at h
  obtain ⟨⟨r, i⟩, hmem, rfl⟩ := List.mem_map.mp h
  obtain ⟨hrow, hrun⟩ := List.mem_filter.mp hmem
  exact ⟨List.mem_of_getElem? (List.mem_zipIdx_iff_getElem?.mp hrow), hrun⟩

/-- A routine is due once. -/
theorem nodup_actions : ((st.actions u now).map (·.routine.id)).Nodup := by
  rw [actions_eq, List.map_map]
  have hsub : ((st.routines.rows.zipIdx.filter fun (r, _) => r.shouldRun u now).map
      fun p => p.1.id).Sublist (st.routines.rows.map (·.id)) := by
    have hmap : st.routines.rows.map (·.id) = st.routines.rows.zipIdx.map fun p => p.1.id := by
      conv_lhs => rw [← List.zipIdx_map_fst 0 st.routines.rows, List.map_map]
      rfl
    rw [hmap]
    exact List.filter_sublist.map _
  exact st.routines.nodup_keys.sublist hsub

/-- An interval routine that is due last ran its seconds ago. -/
theorem apart_of_due {r : Routine} {seconds : UInt64} {last before : DateTime}
    (htrigger : r.trigger = .interval seconds) (hlast : r.lastRun = some last)
    (hreadable : last.isReadable = true) (hbefore : before ≤ last) (hnow : last ≤ now)
    (hdue : r.shouldRun u now = true) : Apart r.trigger before now := by
  have helapsed : last.elapsed now seconds = true := by
    unfold Routine.shouldRun at hdue
    rw [htrigger, hlast] at hdue
    have hboth : r.enabled = true ∧ last.elapsed now seconds = true := by
      simpa [hreadable] using hdue
    exact hboth.2
  have hwhole : (seconds.toNat : Int) ≤ (now.nanos - last.nanos).tdiv 1000000000 % 2 ^ 64 := by
    simpa [DateTime.elapsed, hreadable] using helapsed
  have hle : last.nanos ≤ now.nanos := hnow
  have hle' : before.nanos ≤ last.nanos := hbefore
  rw [Int.tdiv_eq_ediv_of_nonneg (by omega)] at hwhole
  rw [htrigger]
  show before.nanos + (seconds.toNat : Int) * 1000000000 ≤ now.nanos
  omega

end

/-! ### One step of a regular run -/

section

variable {u : Text.Unicode} {run : List LifeStep} {st : RoutinesState} {t : LifeStep}

theorem executions_append (run run' : List LifeStep) :
    executions (run ++ run') = executions run ++ executions run' := by
  simp only [executions, List.flatMap_append, List.filterMap_append]

theorem reading_of_tickOf {now : DateTime} (h : tickOf t = some now) :
    t.input.reading = some now := by
  unfold tickOf at h
  split at h
  · rename_i hinput _
    rw [hinput]
    exact h
  · cases h

theorem Regular.init (h : Regular u (run ++ [t])) : Regular u run where
  clock := (List.pairwise_append.mp (List.filterMap_append ▸ h.clock)).1
  readable t' ht' := h.readable t' (List.mem_append_left _ ht')
  lossless t' ht' := h.lossless t' (List.mem_append_left _ ht')
  minutes past t' future now hsplit :=
    h.minutes past t' (future ++ [t]) now (by rw [hsplit, List.append_assoc, List.cons_append])

/-- No reading is earlier than those before it. -/
theorem Regular.le_last (h : Regular u (run ++ [t])) {before now : DateTime} {t' : LifeStep}
    (ht' : t' ∈ run) (hbefore : t'.input.reading = some before)
    (hnow : t.input.reading = some now) : before ≤ now := by
  refine (List.pairwise_append.mp (List.filterMap_append ▸ h.clock)).2.2 before
    (List.mem_filterMap.mpr ⟨t', ht', hbefore⟩) now ?_
  simp [hnow]

/-- The ticks of the executions so far stay in the run. -/
theorem Spaced.ticked_concat (h : Spaced run st) (t : LifeStep) :
    ∀ p ∈ executions run, ∃ t' ∈ run ++ [t], tickOf t' = some p.2 := by
  intro p hp
  obtain ⟨t', ht', htick⟩ := h.ticked p hp
  exact ⟨t', List.mem_append_left _ ht', htick⟩

/-- A step after which the loop stands where it stood. -/
theorem Spaced.quiet (h : Spaced run st) {st' : RoutinesState} (hexec : executions [t] = [])
    (hsched : st'.scheduler = st.scheduler) (hknown : st'.Known) (hdrawn : st.drawn ⊆ st'.drawn)
    (hlast : ∀ r ∈ st'.routines.rows, r.trigger.isInterval = true →
      ∀ p ∈ executions run, p.1.id = r.id → (r.id, p.2) ∈ st'.waiting ∨
        ∃ last, r.lastRun = some last ∧ p.2 ≤ last ∧
          ∃ t' ∈ run ++ [t], t'.input.reading = some last) : Spaced (run ++ [t]) st' := by
  have hsame : executions (run ++ [t]) = executions run := by
    rw [executions_append, hexec, List.append_nil]
  refine ⟨hknown, by rw [ScheduleSafe, hsame]; exact h.safe, ?_, ?_, by rwa [hsame], ?_, ?_⟩
  · rw [hsame]
    exact fun p hp => hdrawn (h.drawn p hp)
  · rw [hsame]
    exact h.ticked_concat _
  · rw [hsched, hsame]
    intro now jobs hbatch
    obtain ⟨⟨t', ht', htick⟩, hle, hnodup, hjobs⟩ := h.batch now jobs hbatch
    exact ⟨⟨t', List.mem_append_left _ ht', htick⟩, hle, hnodup,
      fun job hjob => ⟨hdrawn (hjobs job hjob).1, (hjobs job hjob).2⟩⟩
  · rw [hsched]
    exact h.current

/-- What a step writes is a time that is no earlier than the executions so far. -/
theorem Spaced.le_written (h : Spaced run st) {e : RoutinesEvent}
    (hreg : Regular u (run ++ [stepOf (lifeNext u) (.event e) st])) {id : String} {now : DateTime}
    (hwritten : st.written e = some (id, now)) : (∀ p ∈ executions run, p.2 ≤ now) ∧
      ∃ t ∈ run ++ [stepOf (lifeNext u) (.event e) st], t.input.reading = some now := by
  cases e with
  | record =>
    cases hs : st.scheduler with
    | idle | executing => simp [written, hs] at hwritten
    | recording tick job rest =>
      rw [written, hs] at hwritten
      obtain ⟨r, -, hpair⟩ := Option.map_eq_some_iff.mp hwritten
      obtain ⟨-, rfl⟩ := Prod.mk.inj hpair
      obtain ⟨⟨t, ht, htick⟩, hle, -⟩ := h.batch tick rest (by rw [hs]; rfl)
      exact ⟨hle, t, List.mem_append_left _ ht, reading_of_tickOf htick⟩
  | trigger id' tick result =>
    obtain ⟨rfl, rfl⟩ := Prod.mk.inj (Option.some.inj hwritten)
    refine ⟨fun p hp => ?_, _, List.mem_append_right _ (List.mem_singleton_self _), rfl⟩
    obtain ⟨t, ht, htick⟩ := h.ticked p hp
    exact hreg.le_last ht (reading_of_tickOf htick) rfl
  | tick | complete | add | remove => cases hwritten

/-- After an event, the last run of a stored routine is no earlier than its executions, but
for one that still waits to be written back. -/
theorem Spaced.lastRun_event (h : Spaced run st) {e : RoutinesEvent}
    (hreg : Regular u (run ++ [stepOf (lifeNext u) (.event e) st])) {r : Routine}
    (hr : r ∈ (routinesNext u e st).2.routines.rows) (htrigger : r.trigger.isInterval = true)
    {p : Routine × DateTime}
    (hp : p ∈ executions run) (hid : p.1.id = r.id) :
    (e ≠ .record ∧ (r.id, p.2) ∈ st.waiting) ∨ ∃ last, r.lastRun = some last ∧ p.2 ≤ last ∧
      ∃ t ∈ run ++ [stepOf (lifeNext u) (.event e) st], t.input.reading = some last := by
  have hfind := Table.mem_rows_iff.mp hr
  cases hold : st.routines.find? r.id with
  | none => exact absurd (hid ▸ h.drawn p hp) (find?_step_new hold hfind).1
  | some r₀ =>
    have hid₀ : r₀.id = r.id := Table.key_of_find? hold
    have hafter : r = st.afterStep e r₀ := eq_afterStep h.known hold hfind
    by_cases hwritten : ∃ now, st.written e = some (r.id, now)
    · obtain ⟨now, hnow⟩ := hwritten
      obtain ⟨hle, ht⟩ := h.le_written hreg hnow
      refine .inr ⟨now, ?_, hle p hp, ht⟩
      rw [hafter, afterStep, hnow]
      simp only [hid₀, if_true, Routine.ran_lastRun]
    · have hsame : r = r₀ := by
        rw [hafter, afterStep]
        split
        · rename_i id now hnow
          rw [if_neg]
          rintro rfl
          exact hwritten ⟨now, hid₀ ▸ hnow⟩
        · rfl
      subst hsame
      obtain hwaits | ⟨last, hlast, hle, t, ht, hread⟩ :=
        h.lastRun r (List.mem_of_find?_eq_some hold) htrigger p hp hid
      · refine .inl ⟨?_, hwaits⟩
        -- What waits is written back in its place, to the routine itself.
        rintro rfl
        have hmem := List.mem_append_right run
          (List.mem_singleton_self (stepOf (lifeNext u) (.event .record) st))
        cases hs : st.scheduler with
        | idle | executing => simp [waiting, execution, hs] at hwaits
        | recording now job rest =>
          have hplace : st.InPlace .record := hreg.lossless _ hmem
          simp only [InPlace, hs] at hplace
          obtain ⟨hjob, -⟩ : r.id = job.routine.id ∧ p.2 = now := by
            simpa [waiting, execution, hs] using hwaits
          cases hrow : st.routines.rows[job.idx]? with
          | none =>
            rw [hrow, ← hjob, hold] at hplace
            cases hplace
          | some r' =>
            rw [hrow] at hplace
            refine hwritten ⟨now, ?_⟩
            simp only [written, hs, hrow, Option.map_some, hjob,
              show r'.id = job.routine.id from hplace]
      · exact .inr ⟨last, hlast, hle, t, List.mem_append_left _ ht, hread⟩

theorem batch_next {now now' : DateTime} {jobs jobs' : List Job}
    (h : (Scheduler.next now jobs).batch = some (now', jobs')) : now' = now ∧ jobs' = jobs := by
  cases jobs with
  | nil => cases h
  | cons job rest =>
    obtain ⟨rfl, rfl⟩ := Prod.mk.inj (Option.some.inj h)
    exact ⟨rfl, rfl⟩

theorem next_ne_recording {now now' : DateTime} {jobs rest : List Job} {job : Job} :
    Scheduler.next now jobs ≠ .recording now' job rest := by
  cases jobs <;> exact nofun

/-- An event that changes neither where the loop stands nor what it has executed. -/
theorem spaced_event_quiet {e : RoutinesEvent} (h : Spaced run st)
    (hreg : Regular u (run ++ [stepOf (lifeNext u) (.event e) st]))
    (hsched : (routinesNext u e st).2.scheduler = st.scheduler)
    (hexec : executions [stepOf (lifeNext u) (.event e) st] = []) :
    Spaced (run ++ [stepOf (lifeNext u) (.event e) st]) (routinesNext u e st).2 := by
  refine h.quiet hexec hsched (known_step u e h.known) (drawn_step u e st) ?_
  intro r hr htrigger p hp hid
  refine (h.lastRun_event hreg hr htrigger hp hid).imp (fun hwaits => ?_) id
  rw [waiting, execution, hsched]
  exact hwaits.2

/-- A tick finds each due routine apart from its executions. -/
theorem spaced_tick (h : Spaced run st) {now : DateTime} (hs : st.scheduler = .idle)
    (hreg : Regular u (run ++ [stepOf (lifeNext u) (.event (.tick now)) st])) :
    Spaced (run ++ [stepOf (lifeNext u) (.event (.tick now)) st])
      { st with scheduler := .next now (st.actions u now) } := by
  set t := stepOf (lifeNext u) (.event (.tick now)) st with ht
  have htick : tickOf t = some now := by
    simp [ht, tickOf, hs]
  have hread : t.input.reading = some now := reading_of_tickOf htick
  have hmem : t ∈ run ++ [t] := List.mem_append_right _ (List.mem_singleton_self t)
  have hsame : executions (run ++ [t]) = executions run := by
    have hnone : executions [t] = [] := by simp [ht, executions, lifeNext, routinesNext, hs]
    rw [executions_append, hnone, List.append_nil]
  have hidle : st.waiting = [] := by simp [waiting, execution, hs]
  have hle : ∀ p ∈ executions run, p.2 ≤ now := by
    intro p hp
    obtain ⟨t', ht', htick'⟩ := h.ticked p hp
    exact hreg.le_last ht' (reading_of_tickOf htick') hread
  refine ⟨h.known, by rw [ScheduleSafe, hsame]; exact h.safe, by rw [hsame]; exact h.drawn, ?_, ?_,
    ?_, fun _ _ _ hrec => absurd hrec next_ne_recording⟩
  · rw [hsame]
    exact h.ticked_concat _
  · rw [hsame]
    intro r hr htrigger p hp hid
    obtain hwaits | ⟨last, hlast, hle', t', ht', hread'⟩ := h.lastRun r hr htrigger p hp hid
    · rw [hidle] at hwaits
      cases hwaits
    · exact .inr ⟨last, hlast, hle', t', List.mem_append_left _ ht', hread'⟩
  · rw [hsame]
    intro now' jobs hbatch
    obtain ⟨rfl, rfl⟩ := batch_next hbatch
    refine ⟨⟨t, hmem, htick⟩, hle, nodup_actions, fun job hjob => ?_⟩
    obtain ⟨hrow, hdue⟩ := mem_actions hjob
    refine ⟨h.known _ hrow, fun p hp hid => ?_⟩
    cases htrigger : job.routine.trigger with
    | interval seconds =>
      obtain hwaits | ⟨last, hlast, hle', t', ht', hread'⟩ :=
        h.lastRun _ hrow (by rw [htrigger]; rfl) p hp hid
      · rw [hidle] at hwaits
        cases hwaits
      · rw [← htrigger]
        exact apart_of_due htrigger hlast (hreg.readable t' (List.mem_append_left _ ht') last hread')
          hle' (hreg.le_last ht' hread' hread) hdue
    | cron expression =>
      -- In the minute of an earlier tick the routine would not be due.
      intro hminute
      obtain ⟨t', ht', htick'⟩ := h.ticked p hp
      have hnot := hreg.minutes run t [] now' rfl htick ⟨t', ht', p.2, htick', hminute⟩ _ hrow
        (by rw [htrigger]; rfl)
      rw [hdue] at hnot
      cases hnot
    | event eventType => trivial

/-- An action returns. -/
theorem spaced_complete (h : Spaced run st) {now : DateTime} {job : Job} {rest : List Job}
    {result : Except String String} (hs : st.scheduler = .executing now job rest) :
    Spaced (run ++ [stepOf (lifeNext u) (.event (.complete result)) st])
      { st with scheduler := .recording now job rest } := by
  set t := stepOf (lifeNext u) (.event (.complete result)) st with ht
  have hnew : executions (run ++ [t]) = executions run ++ [(job.routine, now)] := by
    have hone : executions [t] = [(job.routine, now)] := by
      simp [ht, executions, lifeNext, routinesNext, hs]
    rw [executions_append, hone]
  obtain ⟨⟨t', ht', htick⟩, hle, hnodup, hjobs⟩ := h.batch now (job :: rest) (by rw [hs]; rfl)
  obtain ⟨hfirst, hrest⟩ := List.nodup_cons.mp (List.map_cons ▸ hnodup)
  have hothers : ∀ job' ∈ rest, job'.routine.id ≠ job.routine.id := fun job' hmem heq =>
    hfirst (heq ▸ List.mem_map_of_mem (f := (·.routine.id)) hmem)
  refine ⟨h.known, ?_, ?_, ?_, ?_, ?_, ?_⟩
  · rw [ScheduleSafe, hnew, List.pairwise_append]
    refine ⟨h.safe, List.pairwise_singleton _ _, fun p hp q hq hid => ?_⟩
    obtain rfl := List.mem_singleton.mp hq
    exact (hjobs job List.mem_cons_self).2 p hp hid
  · rw [hnew, List.forall_mem_append]
    refine ⟨h.drawn, fun p hp => ?_⟩
    obtain rfl := List.mem_singleton.mp hp
    exact (hjobs job List.mem_cons_self).1
  · rw [hnew, List.forall_mem_append]
    refine ⟨h.ticked_concat _, fun p hp => ?_⟩
    obtain rfl := List.mem_singleton.mp hp
    exact ⟨t', List.mem_append_left _ ht', htick⟩
  · intro r hr htrigger
    rw [hnew, List.forall_mem_append]
    refine ⟨fun p hp hid => ?_, fun p hp hid => ?_⟩
    · obtain hwaits | ⟨last, hlast, hle', t', ht', hread'⟩ :=
        h.lastRun r hr htrigger p hp hid
      · simp [waiting, execution, hs] at hwaits
      · exact .inr ⟨last, hlast, hle', t', List.mem_append_left _ ht', hread'⟩
    · obtain rfl := List.mem_singleton.mp hp
      refine .inl ?_
      rw [← hid]
      exact List.mem_singleton_self _
  · intro now' jobs hbatch
    obtain ⟨rfl, rfl⟩ := Prod.mk.inj (Option.some.inj hbatch)
    refine ⟨⟨t', List.mem_append_left _ ht', htick⟩, ?_, hrest, fun job' hjob' => ?_⟩
    · rw [hnew, List.forall_mem_append]
      refine ⟨hle, fun p hp => ?_⟩
      obtain rfl := List.mem_singleton.mp hp
      exact Int.le_refl _
    · refine ⟨(hjobs job' (List.mem_cons_of_mem _ hjob')).1, ?_⟩
      rw [hnew, List.forall_mem_append]
      refine ⟨(hjobs job' (List.mem_cons_of_mem _ hjob')).2, fun p hp hid => ?_⟩
      obtain rfl := List.mem_singleton.mp hp
      exact absurd hid.symm (hothers job' hjob')
  · intro now' job' rest' hrec
    obtain ⟨rfl, rfl, rfl⟩ := Scheduler.recording.inj hrec
    exact hothers

/-- A run is written back. -/
theorem spaced_record (h : Spaced run st) {now : DateTime} {job : Job} {rest : List Job}
    (hs : st.scheduler = .recording now job rest)
    (hreg : Regular u (run ++ [stepOf (lifeNext u) (.event .record) st])) :
    Spaced (run ++ [stepOf (lifeNext u) (.event .record) st]) (routinesNext u .record st).2 := by
  have hsame : executions (run ++ [stepOf (lifeNext u) (.event .record) st]) = executions run := by
    have hnone : executions [stepOf (lifeNext u) (.event .record) st] = [] := by
      simp [executions, lifeNext, routinesNext, hs]
    rw [executions_append, hnone, List.append_nil]
  have hsched : (routinesNext u .record st).2.scheduler = .next now rest := by
    simp [routinesNext, hs]
  refine ⟨known_step u .record h.known, by rw [ScheduleSafe, hsame]; exact h.safe, ?_, ?_, ?_, ?_, ?_⟩
  · rw [hsame]
    exact fun p hp => drawn_step u .record st (h.drawn p hp)
  · rw [hsame]
    exact h.ticked_concat _
  · rw [hsame]
    intro r hr htrigger p hp hid
    exact .inr ((h.lastRun_event hreg hr htrigger hp hid).resolve_left fun hwaits => hwaits.1 rfl)
  · rw [hsched, hsame]
    intro now' jobs hbatch
    obtain ⟨rfl, rfl⟩ := batch_next hbatch
    obtain ⟨⟨t', ht', htick⟩, hle, hnodup, hjobs⟩ := h.batch now' jobs (by rw [hs]; rfl)
    exact ⟨⟨t', List.mem_append_left _ ht', htick⟩, hle, hnodup,
      fun job' hjob' => ⟨drawn_step u .record st (hjobs job' hjob').1, (hjobs job' hjob').2⟩⟩
  · rw [hsched]
    exact fun _ _ _ hrec => absurd hrec next_ne_recording

/-- A process starts from an up-to-date file. -/
theorem spaced_restart (h : Spaced run st)
    (hreg : Regular u (run ++ [stepOf (lifeNext u) .restart st])) :
    Spaced (run ++ [stepOf (lifeNext u) .restart st]) st.restart := by
  obtain ⟨hwaiting, hfile⟩ : st.UpToDate :=
    hreg.lossless _ (List.mem_append_right _ (List.mem_singleton_self _))
  have hsame : executions (run ++ [stepOf (lifeNext u) .restart st]) = executions run := by
    have hnone : executions [stepOf (lifeNext u) .restart st] = [] := rfl
    rw [executions_append, hnone, List.append_nil]
  have hdrawn : st.drawn ⊆ st.restart.drawn := List.subset_append_right _ _
  have hidle : st.restart.scheduler = .idle := rfl
  refine ⟨fun r hr => List.mem_append_left _ (start_known st.file r hr),
    by rw [ScheduleSafe, hsame]; exact h.safe, ?_, ?_, ?_, ?_, ?_⟩
  · rw [hsame]
    exact fun p hp => hdrawn (h.drawn p hp)
  · rw [hsame]
    exact h.ticked_concat _
  · rw [hsame]
    intro r hr htrigger p hp hid
    have hmemory := Table.mem_rows_iff.mpr (hfile r hr htrigger)
    obtain hwaits | ⟨last, hlast, hle, t', ht', hread⟩ :=
      h.lastRun r hmemory htrigger p hp hid
    · rw [hwaiting] at hwaits
      cases hwaits
    · exact .inr ⟨last, hlast, hle, t', List.mem_append_left _ ht', hread⟩
  · intro now jobs hbatch
    rw [hidle] at hbatch
    cases hbatch
  · intro now job rest hrec
    rw [hidle] at hrec
    cases hrec

theorem spaced_step (e : LifeEvent) (h : Spaced run st)
    (hreg : Regular u (run ++ [stepOf (lifeNext u) e st])) :
    Spaced (run ++ [stepOf (lifeNext u) e st]) (lifeNext u e st).2 := by
  cases e with
  | restart => exact spaced_restart h hreg
  | event e =>
    cases e with
    | tick now =>
      cases hs : st.scheduler with
      | idle =>
        have hnext : lifeNext u (.event (.tick now)) st =
            ([], { st with scheduler := .next now (st.actions u now) }) := by
          simp only [lifeNext, routinesNext, hs]
        rw [hnext]
        exact spaced_tick h hs hreg
      | executing | recording =>
        refine spaced_event_quiet h hreg ?_ ?_ <;> simp [executions, lifeNext, routinesNext, hs]
    | complete result =>
      cases hs : st.scheduler with
      | executing now job rest =>
        have hnext : lifeNext u (.event (.complete result)) st =
            ([.executed job.routine now], { st with scheduler := .recording now job rest }) := by
          simp only [lifeNext, routinesNext, hs]
        rw [hnext]
        exact spaced_complete h hs
      | idle | recording =>
        refine spaced_event_quiet h hreg ?_ ?_ <;> simp [executions, lifeNext, routinesNext, hs]
    | record =>
      cases hs : st.scheduler with
      | recording now job rest => exact spaced_record h hs hreg
      | idle | executing =>
        refine spaced_event_quiet h hreg ?_ ?_ <;> simp [executions, lifeNext, routinesNext, hs]
    | add id body write =>
      refine spaced_event_quiet h hreg ?_ ?_
      · rw [routinesNext_add, routineAddHandler]
        split
        · rfl
        · split <;> rfl
      · simp only [executions, List.flatMap_cons, List.flatMap_nil, stepOf_output, lifeNext,
          routinesNext_add, routineAddHandler]
        split
        · rfl
        · split <;> rfl
    | remove id write =>
      refine spaced_event_quiet h hreg ?_ ?_
      · rw [routinesNext_remove, routineRemoveHandler]
        split <;> rfl
      · simp only [executions, List.flatMap_cons, List.flatMap_nil, stepOf_output, lifeNext,
          routinesNext_remove, routineRemoveHandler]
        split <;> rfl
    | trigger id now result =>
      refine spaced_event_quiet h hreg ?_ ?_
      · rw [routinesNext_trigger, routineTriggerHandler]
        split <;> rfl
      · simp only [executions, List.flatMap_cons, List.flatMap_nil, stepOf_output, lifeNext,
          routinesNext_trigger, routineTriggerHandler]
        split <;> rfl

end

/-- **Schedule safety.** In a regular run of the daemon, with requests and restarts at any
point, interval routines keep their distance and cron routines run once a minute. -/
theorem schedule_safe (u : Text.Unicode) (events : List LifeEvent)
    (file : Option (Table Routine.id))
    (h : Regular u (trace (lifeNext u) events (start file))) :
    ScheduleSafe (trace (lifeNext u) events (start file)) := by
  have hidle : (start file).scheduler = .idle := rfl
  have hstart : Spaced [] (start file) := by
    refine ⟨start_known file, .nil, by simp [executions], by simp [executions],
      by simp [executions], ?_, ?_⟩
    · intro now jobs hbatch
      rw [hidle] at hbatch
      cases hbatch
    · intro now job rest hrec
      rw [hidle] at hrec
      cases hrec
  have hrun := history_invariant (h := [])
    (R := fun run st => Regular u run → Spaced run st)
    (fun e run st hrun hreg => spaced_step e (hrun hreg.init) hreg) events fun _ => hstart
  exact (hrun h).safe

/-! ### A health check every five minutes -/

def healthCheck : Routine :=
  ⟨"r-1", "Health Check", .interval 300, .healthCheck, true, none, 0⟩

def healthFile : Option (Table Routine.id) := some ⟨[healthCheck], by decide⟩

def afterSeconds (n : Fin 1000) : DateTime :=
  ⟨n.val * 1000000000, by have := n.isLt; unfold minNanos maxNanos; omega⟩

/-- A tick, and the execution of its only job. -/
def ranAt (now : DateTime) : List LifeEvent :=
  [.event (.tick now), .event (.complete (.ok "system status: running")), .event .record]

/-- A routine is added after the run, which writes the file, and the daemon restarts. -/
def savedRun : List LifeEvent :=
  ranAt (afterSeconds 0) ++
    [.event (.add "r-2" ⟨"Deploy", .event "deploy", .healthCheck, true⟩ .written), .restart] ++
    ranAt (afterSeconds 300)

theorem savedRun_safe :
    ScheduleSafe (trace (lifeNext Text.Unicode.ascii) savedRun (start healthFile)) := by
  refine schedule_safe Text.Unicode.ascii savedRun healthFile ⟨by decide +kernel,
    by decide +kernel, by decide +kernel, fun past t future now hsplit _ _ r hr hcron => ?_⟩
  have hnone : ∀ t ∈ trace (lifeNext Text.Unicode.ascii) savedRun (start healthFile),
      ∀ r ∈ t.before.routines.rows, r.trigger.isCron = false := by decide +kernel
  rw [hnone t (hsplit ▸ List.mem_append_right _ List.mem_cons_self) r hr] at hcron
  cases hcron

/-- The daemon restarts after the run, and the check comes again a minute later. -/
def lostRun : List LifeEvent :=
  ranAt (afterSeconds 0) ++ [.restart] ++ ranAt (afterSeconds 60)

instance (trigger : Trigger) (before now : DateTime) : Decidable (Apart trigger before now) := by
  unfold Apart
  split <;> infer_instance

theorem lostRun_not_safe :
    (lostRun.filterMap LifeEvent.reading).Pairwise (· ≤ ·) ∧
      ¬ ScheduleSafe (trace (lifeNext Text.Unicode.ascii) lostRun (start healthFile)) := by
  unfold ScheduleSafe
  decide +kernel

/-- A cron routine runs at both ticks of a minute that it matches. -/
example : ¬ ScheduleSafe (trace (lifeNext Text.Unicode.ascii)
    (ranAt (afterSeconds 0) ++ ranAt (afterSeconds 30))
    (start (some ⟨[{ healthCheck with trigger := .cron "* * * * *" }], by decide⟩))) := by
  unfold ScheduleSafe
  decide +kernel

end OsModa.Routines
