import OsModa.Gateway.Loop

/-!
One turn and one timer for each loop.

A tick does not ask whether a turn of its loop is still in flight. Pausing takes the timer
away and leaves the turn, which may go on for long after it is aborted; resuming then adds
a timer, and the next tick starts a second turn over the first. Apart from such a tick, and
from an id that is drawn twice, every operation keeps what the manager's maps are for
(`one_turn_and_timer`). Where no loop is set going again during its turn, there is no such
tick (`gated_turn_and_timer`).
-/

namespace OsModa.Gateway

open OsModa.Js OsModa.Machine

namespace LoopManager

/-- Each loop has at most one turn in flight and at most one pending timer, a loop that is
not running has no timer, and the abort table holds the controller of every turn in
flight, which no other turn has. -/
structure OneEach (m : LoopManager) : Prop where
  one_turn : (m.flights.map (·.loopId)).Nodup
  one_timer : (m.pending.map (·.loopId)).Nodup
  timer_running : ∀ t ∈ m.pending, ∀ loop, m.loops.find? t.loopId = some loop →
    loop.status = .running
  abortable : ∀ f ∈ m.flights, m.aborts.get? f.loopId = some f.controller
  own_controller : (m.flights.map (·.controller)).Nodup

/-- No turn of the loop is in flight. -/
def Landed (m : LoopManager) (id : String) : Prop := ∀ f ∈ m.flights, f.loopId ≠ id

/-- No timer of the loop is pending. -/
def Unscheduled (m : LoopManager) (id : String) : Prop := ∀ t ∈ m.pending, t.loopId ≠ id

/-- A tick of the loop gets as far as its turn. -/
def Starts (m : LoopManager) (id : String) (deps : TickDeps) : Prop :=
  (∃ loop, m.loops.find? id = some loop ∧ loop.status = .running ∧
    loop.iteration < loop.maxIterations) ∧
  (∃ agent, deps.agent = some agent) ∧ deps.allowed = true ∧ deps.hasCredential = true ∧
    deps.hasDriver = true

/-- The condition on an operation: a loop whose tick starts a turn has none in flight, and
no id is drawn twice. -/
def Calm (m : LoopManager) : LoopOp → Prop
  | .create _ _ w => m.loops.find? (mkId (m.seq + 1) w.now) = none
  | .fire handle deps _ => ∀ t ∈ m.pending, t.handle = handle → m.Starts t.loopId deps →
    m.Landed t.loopId
  | .stop .. | .pause .. | .resume .. | .resumeAll | .turnEnds .. | .restart => True

/-- What the maps are for: they know every pending timer and every turn in flight. -/
structure Sound (m : LoopManager) : Prop where
  one_timer : (m.pending.map (·.loopId)).Nodup
  one_turn : (m.flights.map (·.loopId)).Nodup
  timer : ∀ t ∈ m.pending, m.timers.get? t.loopId = some t.handle
  timer_only : ∀ t ∈ m.pending, ∀ id, m.timers.get? id = some t.handle → t.loopId = id
  timers_lt : ∀ id h, m.timers.get? id = some h → h < m.nextHandle
  running : ∀ t ∈ m.pending, ∃ loop, m.loops.find? t.loopId = some loop ∧ loop.status = .running
  controller : ∀ f ∈ m.flights, m.aborts.get? f.loopId = some f.controller
  known : ∀ f ∈ m.flights, m.loops.find? f.loopId ≠ none
  controllers : (m.flights.map (·.controller)).Nodup
  controller_lt : ∀ f ∈ m.flights, f.controller < m.nextController

theorem Sound.oneEach {m : LoopManager} (h : m.Sound) : m.OneEach where
  one_turn := h.one_turn
  one_timer := h.one_timer
  timer_running := by
    intro t ht loop hloop
    obtain ⟨loop', hloop', hrunning⟩ := h.running t ht
    obtain rfl : loop' = loop := Option.some.inj (hloop'.symm.trans hloop)
    exact hrunning
  abortable := h.controller
  own_controller := h.controllers

/-! ### How the parts of an operation keep the invariant -/

section Parts

variable {m : LoopManager} {id : String} {loop : Loop} {w : World}

/-- A handle names a loop's timer exactly when the map says so. -/
theorem Sound.handle_iff (h : m.Sound) {t : LoopTimer} (ht : t ∈ m.pending) {handle : Nat}
    (hid : m.timers.get? id = some handle) : t.handle = handle ↔ t.loopId = id := by
  constructor
  · intro heq
    exact h.timer_only t ht id (heq ▸ hid)
  · intro heq
    have htimer := h.timer t ht
    rw [heq, hid] at htimer
    exact (Option.some.inj htimer).symm

/-- Clearing a timer takes exactly the loop's timer out of the schedule. -/
theorem Sound.mem_clearTimer (h : m.Sound) {t : LoopTimer} :
    t ∈ (m.clearTimer id).pending ↔ t ∈ m.pending ∧ t.loopId ≠ id := by
  unfold clearTimer
  cases hid : m.timers.get? id with
  | none =>
    dsimp only
    constructor
    · intro ht
      refine ⟨ht, fun heq => ?_⟩
      rw [← heq, h.timer t ht] at hid
      cases hid
    · exact And.left
  | some handle =>
    simp only [List.mem_filter, decide_eq_true_eq]
    exact and_congr_right fun ht => not_congr (h.handle_iff ht hid)

theorem Sound.unscheduled_clearTimer (h : m.Sound) : (m.clearTimer id).Unscheduled id := by
  intro t ht
  exact (h.mem_clearTimer.mp ht).2

theorem get?_clearTimer (k : String) :
    (m.clearTimer id).timers.get? k = if id = k then none else m.timers.get? k := by
  unfold clearTimer
  cases hid : m.timers.get? id with
  | none =>
    dsimp only
    split
    · rename_i heq
      rw [← heq, hid]
    · rfl
  | some handle => exact JsMap.get?_delete m.timers id k

theorem clearTimer_pending_sublist : (m.clearTimer id).pending.Sublist m.pending := by
  unfold clearTimer
  split
  · exact List.Sublist.refl _
  · exact List.filter_sublist

theorem Sound.clearTimer (h : m.Sound) (id : String) : (m.clearTimer id).Sound where
  one_timer := h.one_timer.sublist (clearTimer_pending_sublist.map _)
  one_turn := by
    rw [clearTimer_flights]
    exact h.one_turn
  timer := by
    intro t ht
    obtain ⟨hmem, hother⟩ := h.mem_clearTimer.mp ht
    rw [get?_clearTimer, if_neg (Ne.symm hother)]
    exact h.timer t hmem
  timer_only := by
    intro t ht k hk
    rw [get?_clearTimer] at hk
    split at hk
    · cases hk
    · exact h.timer_only t (h.mem_clearTimer.mp ht).1 k hk
  timers_lt := by
    intro k handle hk
    rw [get?_clearTimer] at hk
    rw [clearTimer_nextHandle]
    split at hk
    · cases hk
    · exact h.timers_lt k handle hk
  running := by
    intro t ht
    rw [clearTimer_loops]
    exact h.running t (h.mem_clearTimer.mp ht).1
  controller := by
    rw [clearTimer_flights, clearTimer_aborts]
    exact h.controller
  known := by
    rw [clearTimer_flights, clearTimer_loops]
    exact h.known
  controllers := by
    rw [clearTimer_flights]
    exact h.controllers
  controller_lt := by
    rw [clearTimer_flights, clearTimer_nextController]
    exact h.controller_lt

/-- A loop may be stored with any status once it has no timer. -/
theorem Sound.setLoop (h : m.Sound)
    (hkeep : loop.status = .running ∨ m.Unscheduled loop.id) : (m.setLoop loop).Sound where
  one_timer := h.one_timer
  one_turn := h.one_turn
  timer := h.timer
  timer_only := h.timer_only
  timers_lt := h.timers_lt
  running := by
    intro t ht
    rw [setLoop_loops]
    by_cases hid : loop.id = t.loopId
    · refine ⟨loop, by rw [← hid, Table.find?_put_self], ?_⟩
      exact hkeep.resolve_right fun hnone => hnone t ht hid.symm
    · rw [Table.find?_put_other hid]
      exact h.running t ht
  controller := h.controller
  known := by
    intro f hf
    rw [setLoop_loops, Table.find?_put]
    split
    · exact Option.some_ne_none _
    · exact h.known f hf
  controllers := h.controllers
  controller_lt := h.controller_lt

theorem Sound.persist (h : m.Sound) (w : World) : (m.persist w).Sound := by
  unfold LoopManager.persist
  split
  · exact ⟨h.one_timer, h.one_turn, h.timer, h.timer_only, h.timers_lt, h.running, h.controller, h.known,
      h.controllers, h.controller_lt⟩
  · exact h

/-- A running loop without a timer gets one. -/
theorem Sound.scheduleTick (h : m.Sound)
    (hrunning : ∃ loop, m.loops.find? id = some loop ∧ loop.status = .running)
    (hfree : m.Unscheduled id) : (m.scheduleTick id).Sound where
  one_timer := by
    simp only [LoopManager.scheduleTick, List.map_append, List.map_cons, List.map_nil]
    refine List.nodup_append.mpr ⟨h.one_timer, List.nodup_singleton _, ?_⟩
    rintro a ha b hb
    obtain ⟨t, ht, rfl⟩ := List.mem_map.mp ha
    obtain rfl := List.mem_singleton.mp hb
    exact hfree t ht
  one_turn := h.one_turn
  timer := by
    intro t ht
    change JsMap.get? (JsMap.set m.timers id m.nextHandle) t.loopId = some t.handle
    rw [JsMap.get?_set]
    rcases List.mem_append.mp ht with ht | ht
    · rw [if_neg (Ne.symm (hfree t ht))]
      exact h.timer t ht
    · obtain rfl := List.mem_singleton.mp ht
      rw [if_pos rfl]
  timer_only := by
    intro t ht k hk
    change JsMap.get? (JsMap.set m.timers id m.nextHandle) k = some t.handle at hk
    rw [JsMap.get?_set] at hk
    rcases List.mem_append.mp ht with ht | ht
    · split at hk
      · have hlt := h.timers_lt t.loopId t.handle (h.timer t ht)
        rw [Option.some.inj hk] at hlt
        exact absurd hlt (Nat.lt_irrefl _)
      · exact h.timer_only t ht k hk
    · obtain rfl := List.mem_singleton.mp ht
      split at hk
      · assumption
      · exact absurd (h.timers_lt k _ hk) (Nat.lt_irrefl _)
  timers_lt := by
    intro k handle hk
    change JsMap.get? (JsMap.set m.timers id m.nextHandle) k = some handle at hk
    change handle < m.nextHandle + 1
    rw [JsMap.get?_set] at hk
    split at hk
    · rw [← Option.some.inj hk]
      exact Nat.lt_succ_self _
    · exact Nat.lt_succ_of_lt (h.timers_lt k handle hk)
  running := by
    intro t ht
    rcases List.mem_append.mp ht with ht | ht
    · exact h.running t ht
    · obtain rfl := List.mem_singleton.mp ht
      exact hrunning
  controller := h.controller
  known := h.known
  controllers := h.controllers
  controller_lt := h.controller_lt

theorem Sound.reschedule (h : m.Sound)
    (hrunning : ∃ loop, m.loops.find? id = some loop ∧ loop.status = .running) :
    (m.reschedule id).Sound :=
  (h.clearTimer id).scheduleTick (by rwa [clearTimer_loops]) h.unscheduled_clearTimer

/-- A timer leaves the schedule to fire; the map still knows it. -/
theorem Sound.fired (h : m.Sound) (handle : Nat) :
    ({ m with pending := m.pending.filter (·.handle ≠ handle) } : LoopManager).Sound where
  one_timer := h.one_timer.sublist (List.filter_sublist.map _)
  one_turn := h.one_turn
  timer := fun t ht => h.timer t (List.mem_of_mem_filter ht)
  timer_only := fun t ht => h.timer_only t (List.mem_of_mem_filter ht)
  timers_lt := h.timers_lt
  running := fun t ht => h.running t (List.mem_of_mem_filter ht)
  controller := h.controller
  known := h.known
  controllers := h.controllers
  controller_lt := h.controller_lt

theorem Sound.tickStarted (h : m.Sound) (hfree : m.Unscheduled id) : (m.tickStarted id).Sound where
  one_timer := h.one_timer
  one_turn := h.one_turn
  timer := by
    intro t ht
    change JsMap.get? (JsMap.delete m.timers id) t.loopId = some t.handle
    rw [JsMap.get?_delete, if_neg (Ne.symm (hfree t ht))]
    exact h.timer t ht
  timer_only := by
    intro t ht k hk
    change JsMap.get? (JsMap.delete m.timers id) k = some t.handle at hk
    rw [JsMap.get?_delete] at hk
    split at hk
    · cases hk
    · exact h.timer_only t ht k hk
  timers_lt := by
    intro k handle hk
    change JsMap.get? (JsMap.delete m.timers id) k = some handle at hk
    rw [JsMap.get?_delete] at hk
    split at hk
    · cases hk
    · exact h.timers_lt k handle hk
  running := h.running
  controller := h.controller
  known := h.known
  controllers := h.controllers
  controller_lt := h.controller_lt

/-- A loop without a turn starts one. -/
theorem Sound.launched (h : m.Sound) (hrunning : loop.status = .running)
    (hlanded : m.Landed loop.id) (agent : AgentProfile) (sessionId : Option JsString) :
    (m.launched loop agent sessionId).Sound where
  one_timer := h.one_timer
  one_turn := by
    simp only [LoopManager.launched, List.map_append, List.map_cons, List.map_nil]
    refine List.nodup_append.mpr ⟨h.one_turn, List.nodup_singleton _, ?_⟩
    rintro a ha b hb
    obtain ⟨f, hf, rfl⟩ := List.mem_map.mp ha
    obtain rfl := List.mem_singleton.mp hb
    exact hlanded f hf
  timer := h.timer
  timer_only := h.timer_only
  timers_lt := h.timers_lt
  running := by
    have hset : (m.setLoop { loop with blocked := none }).Sound := h.setLoop (.inl hrunning)
    exact hset.running
  controller := by
    intro f hf
    change JsMap.get? (JsMap.set m.aborts loop.id m.nextController) f.loopId = some f.controller
    rw [JsMap.get?_set]
    rcases List.mem_append.mp hf with hf | hf
    · rw [if_neg (Ne.symm (hlanded f hf))]
      exact h.controller f hf
    · obtain rfl := List.mem_singleton.mp hf
      rw [if_pos rfl]
  known := by
    intro f hf
    change (m.loops.put { loop with blocked := none }).find? f.loopId ≠ none
    rw [Table.find?_put]
    split
    · exact Option.some_ne_none _
    · rename_i hother
      rcases List.mem_append.mp hf with hf | hf
      · exact h.known f hf
      · obtain rfl := List.mem_singleton.mp hf
        exact absurd rfl hother
  controllers := by
    simp only [LoopManager.launched, List.map_append, List.map_cons, List.map_nil]
    refine List.nodup_append.mpr ⟨h.controllers, List.nodup_singleton _, ?_⟩
    rintro a ha b hb
    obtain ⟨f, hf, rfl⟩ := List.mem_map.mp ha
    obtain rfl := List.mem_singleton.mp hb
    exact Nat.ne_of_lt (h.controller_lt f hf)
  controller_lt := by
    intro f hf
    change f.controller < m.nextController + 1
    rcases List.mem_append.mp hf with hf | hf
    · exact Nat.lt_succ_of_lt (h.controller_lt f hf)
    · obtain rfl := List.mem_singleton.mp hf
      exact Nat.lt_succ_self _

/-- A turn that ends leaves its loop without a turn. -/
theorem Sound.landed_flight (h : m.Sound) {flight : Flight} (hflight : flight ∈ m.flights) :
    (m.landed flight).Landed flight.loopId := by
  intro f hf heq
  have hmem := List.mem_of_mem_filter hf
  have hsame : some f.controller = some flight.controller := by
    rw [← h.controller f hmem, ← h.controller flight hflight, heq]
  have hother := (List.mem_filter.mp hf).2
  rw [Option.some.inj hsame] at hother
  simp at hother

theorem Sound.landed (h : m.Sound) {flight : Flight} (hflight : flight ∈ m.flights) :
    (m.landed flight).Sound where
  one_timer := h.one_timer
  one_turn := h.one_turn.sublist (List.filter_sublist.map _)
  timer := h.timer
  timer_only := h.timer_only
  timers_lt := h.timers_lt
  running := h.running
  controller := by
    intro f hf
    change JsMap.get? (JsMap.delete m.aborts flight.loopId) f.loopId = some f.controller
    rw [JsMap.get?_delete, if_neg (Ne.symm (h.landed_flight hflight f hf))]
    exact h.controller f (List.mem_of_mem_filter hf)
  known := fun f hf => h.known f (List.mem_of_mem_filter hf)
  controllers := h.controllers.sublist (List.filter_sublist.map _)
  controller_lt := fun f hf => h.controller_lt f (List.mem_of_mem_filter hf)

/-! ### The operations -/

theorem Sound.withdraw (h : m.Sound) (loop : Loop) (w : World) : (m.withdraw loop w).2.Sound :=
  ((h.clearTimer loop.id).setLoop (.inr h.unscheduled_clearTimer)).persist w

theorem Sound.stop (h : m.Sound) (id : String) (w : World) : (m.stop id w).2.Sound := by
  rcases m.stop_cases id w with hstop | ⟨loop, -, -, hstop⟩ <;> rw [hstop]
  · exact h
  · exact h.withdraw _ w

theorem Sound.pause (h : m.Sound) (id reason : String) (w : World) :
    (m.pause id reason w).2.Sound := by
  rcases m.pause_cases id w reason with hpause | ⟨loop, -, -, hpause⟩ <;> rw [hpause]
  · exact h
  · exact h.withdraw _ w

theorem Sound.finish (h : m.Sound) (loop : Loop) (reason : String) (w : World) :
    (m.finish loop reason w).Sound := by
  rw [finish_eq]
  have hset : ((m.clearTimer loop.id).setLoop (finishedLoop loop reason w)).Sound :=
    (h.clearTimer loop.id).setLoop (.inr h.unscheduled_clearTimer)
  exact hset.persist w

theorem Sound.resume (h : m.Sound) (id : String) (w : World) : (m.resume id w).2.Sound := by
  rcases m.resume_cases id w with hresume | ⟨loop, rfl, -, -, hresume⟩ <;> rw [hresume]
  · exact h
  · refine Sound.reschedule ((h.setLoop (.inl rfl)).persist w) ?_
    rw [persist_loops, setLoop_loops]
    exact ⟨_, Table.find?_put_self _ _, rfl⟩

/-- Rescheduling running loops, one after the other. -/
theorem Sound.foldl_reschedule (l : List Loop) (h : m.Sound)
    (hl : ∀ loop ∈ l, m.loops.find? loop.id = some loop ∧ loop.status = .running) :
    (l.foldl (fun m loop => m.reschedule loop.id) m).Sound := by
  induction l generalizing m with
  | nil => exact h
  | cons loop l ih =>
    refine ih (h.reschedule ⟨loop, hl loop List.mem_cons_self⟩) ?_
    intro loop' hloop'
    rw [reschedule_loops]
    exact hl loop' (List.mem_cons_of_mem _ hloop')

theorem Sound.resumeAll (h : m.Sound) : m.resumeAll.Sound := by
  refine h.foldl_reschedule _ ?_
  intro loop hloop
  obtain ⟨hmem, hrunning⟩ := List.mem_filter.mp hloop
  exact ⟨Table.mem_rows_iff.mp hmem, of_decide_eq_true hrunning⟩

/-- A manager without timers and turns. -/
theorem sound_of_quiet (hp : m.pending = []) (hf : m.flights = []) (ht : m.timers = .empty) :
    m.Sound := by
  constructor <;> simp [hp, hf, ht]

theorem sound_restart (m : LoopManager) : m.restart.Sound := by
  unfold LoopManager.restart
  exact Sound.resumeAll (sound_of_quiet rfl rfl rfl)

/-- A running loop is stored and gets its next timer. -/
theorem Sound.stored (h : m.Sound) (hid : loop.id = id) (hrunning : loop.status = .running)
    (w : World) : (((m.setLoop loop).persist w).reschedule id).Sound := by
  have hset : (m.setLoop loop).Sound := h.setLoop (.inl hrunning)
  refine (hset.persist w).reschedule ?_
  rw [persist_loops, setLoop_loops, ← hid]
  exact ⟨loop, Table.find?_put_self _ _, hrunning⟩

theorem Sound.tick (h : m.Sound) (hfree : m.Unscheduled id) {deps : TickDeps}
    (hlanded : m.Starts id deps → m.Landed id) (w : World) : (m.tick id deps w).2.Sound := by
  have hstarted := h.tickStarted hfree
  have hout := tick_outcome m id w deps
  generalize m.tick id deps w = out at hout ⊢
  cases hout with
  | idle hidle => exact h
  | exhausted loop hfind hrunning hmax => exact hstarted.finish loop "max_iterations" w
  | withdrawn loop hfind hrunning reason => exact hstarted.pause id reason w
  | skipped loop hfind hrunning =>
    obtain rfl : loop.id = id := Table.key_of_find? hfind
    exact hstarted.stored (skippedLoop_id loop w deps)
      ((skippedLoop_status loop w deps).trans hrunning) w
  | launched loop hfind hrunning hiteration agent hagent hallowed hcredential hdriver =>
    obtain rfl : loop.id = id := Table.key_of_find? hfind
    have hfreeTurn := hlanded ⟨⟨loop, hfind, hrunning, hiteration⟩, ⟨agent, hagent⟩, hallowed,
      hcredential, hdriver⟩
    exact hstarted.launched hrunning hfreeTurn agent deps.sessionId

/-- No other timer of the loop is pending when one fires. -/
theorem Sound.unscheduled_fired (h : m.Sound) {timer : LoopTimer} (hmem : timer ∈ m.pending) :
    ∀ t ∈ m.pending.filter (·.handle ≠ timer.handle), t.loopId ≠ timer.loopId := by
  intro t ht heq
  have hsame := (h.handle_iff (List.mem_of_mem_filter ht) (h.timer timer hmem)).mpr heq
  have hother := (List.mem_filter.mp ht).2
  rw [hsame] at hother
  simp at hother

theorem Sound.fire (h : m.Sound) {handle : Nat} {deps : TickDeps}
    (hcalm : m.Calm (.fire handle deps w)) : (m.fire handle deps w).2.Sound := by
  rcases m.fire_cases handle deps w with hfire | ⟨timer, hmem, rfl, hfire⟩
  · rw [hfire]
    exact h
  · rw [hfire]
    exact (h.fired timer.handle).tick (h.unscheduled_fired hmem) (hcalm timer hmem rfl) w

theorem Sound.afterTurn (h : m.Sound) (tables : CaseTables) (hrunning : loop.status = .running)
    (agent : AgentProfile) (result : TurnResult) (w : World) :
    (m.afterTurn tables loop agent result w).2.Sound := by
  have hfailed' : (m.setLoop (failedLoop loop result w)).Sound :=
    h.setLoop (.inl ((failedLoop_status loop w result).trans hrunning))
  have hadvanced : (m.setLoop (advancedLoop loop result w)).Sound :=
    h.setLoop (.inl ((advancedLoop_status loop w result).trans hrunning))
  have hout := afterTurn_outcome m loop w tables agent result
  generalize m.afterTurn tables loop agent result w = out at hout ⊢
  cases hout with
  | gaveUp hfailed herrors => exact hfailed'.pause _ _ w
  | failed hfailed herrors =>
    exact h.stored (failedLoop_id loop w result) ((failedLoop_status loop w result).trans hrunning) w
  | goalMet hok hhit => exact hadvanced.finish _ _ w
  | exhausted hok hmiss hmax => exact hadvanced.finish _ _ w
  | advanced hok hmiss hmore =>
    exact h.stored (advancedLoop_id loop w result)
      ((advancedLoop_status loop w result).trans hrunning) w

theorem Sound.turnEnds (h : m.Sound) (tables : CaseTables) (controller : Nat)
    (stream : DriverStream) (w : World) : (m.turnEnds tables controller stream w).2.Sound := by
  have hout := turnEnds_outcome m w tables controller stream
  generalize m.turnEnds tables controller stream w = out at hout ⊢
  cases hout with
  | unknown hnone => exact h
  | orphaned flight hflight hclosed => exact h.landed (List.mem_of_find?_eq_some hflight)
  | ended flight hflight loop hid hfind hrunning =>
    exact (h.landed (List.mem_of_find?_eq_some hflight)).afterTurn tables hrunning _ _ w

theorem Sound.create (h : m.Sound) (tables : CaseTables) (maxLoops : Nat) (input : CreateLoopInput)
    (agent : Option AgentProfile) (hfresh : m.loops.find? (mkId (m.seq + 1) w.now) = none) :
    (m.create tables maxLoops input agent w).2.Sound := by
  have hout := create_outcome m w tables maxLoops input agent
  generalize m.create tables maxLoops input agent w = out at hout ⊢
  cases hout with
  | rejected message => exact h
  | created agent interval maxIter hroom hmaxIter =>
    -- A fresh id has no timer.
    have hseq : ({ m with seq := m.seq + 1 } : LoopManager).Sound :=
      ⟨h.one_timer, h.one_turn, h.timer, h.timer_only, h.timers_lt, h.running, h.controller,
        h.known, h.controllers, h.controller_lt⟩
    refine Sound.scheduleTick ((hseq.setLoop (.inl rfl)).persist w) ?_ ?_
    · rw [persist_loops, setLoop_loops]
      exact ⟨_, Table.find?_put_self _ _, rfl⟩
    · intro t ht heq
      rw [persist_pending, setLoop_pending] at ht
      obtain ⟨loop, hloop, -⟩ := h.running t ht
      rw [heq, hfresh] at hloop
      cases hloop

end Parts

/-- Each operation that meets the condition keeps the invariant. -/
theorem Sound.step {tables : CaseTables} {maxLoops : Nat} {op : LoopOp} {m : LoopManager}
    (h : m.Sound) (hcalm : m.Calm op) : (loopStep tables maxLoops op m).2.Sound := by
  cases op with
  | create input agent w => exact h.create tables maxLoops input agent hcalm
  | stop id w => exact h.stop id w
  | pause id w => exact h.pause id "paused" w
  | resume id w => exact h.resume id w
  | resumeAll => exact h.resumeAll
  | fire handle deps w => exact h.fire hcalm
  | turnEnds controller stream w => exact h.turnEnds tables controller stream w
  | restart => exact sound_restart m

/-! ### Runs -/

/-- **One turn and one timer for each loop** in every state of a run, from any file, in
which no tick starts a turn over a turn of its loop. -/
theorem one_turn_and_timer (tables : CaseTables) (maxLoops : Nat) (file : Table Loop.id)
    (ops : List LoopOp)
    (hcalm : ∀ step ∈ trace (loopStep tables maxLoops) ops (boot file), step.before.Calm step.input) :
    ∀ step ∈ trace (loopStep tables maxLoops) ops (boot file),
      step.before.OneEach ∧ step.after.OneEach := by
  intro step hstep
  have hsound := trace_invariant_of (I := Sound) (fun op m h hop => h.step hop)
    (sound_restart _) hcalm hstep
  exact ⟨hsound.1.oneEach, hsound.2.oneEach⟩

/-! A loop that is paused and resumed during its turn. -/

def epoch : World := ⟨⟨0, by decide⟩, true⟩

def assistant : AgentProfile := ⟨utf16 "osmoda", utf16 "claude-opus-4-8", none, none⟩

def tidyUp : CreateLoopInput := ⟨utf16 "osmoda", utf16 "tidy up", some 60, some 5, none, none⟩

/-- The agent is there and within its budget. -/
def ready : TickDeps := ⟨some assistant, true, none, true, true, none⟩

def pausedMidTurn : List LoopOp :=
  [.create tidyUp (some assistant) epoch, .fire 0 ready epoch, .pause (mkId 1 epoch.now) epoch,
    .resume (mkId 1 epoch.now) epoch]

theorem one_turn_pausedMidTurn :
    (trace (loopStep .ascii defaultMaxLoops) pausedMidTurn (boot .empty)).Forall fun step =>
      step.before.OneEach ∧ step.after.OneEach := by
  refine List.forall_iff_forall_mem.mpr
    (one_turn_and_timer .ascii defaultMaxLoops .empty pausedMidTurn fun step hstep => ?_)
  simp only [pausedMidTurn, trace_cons, trace_nil, List.mem_cons, List.not_mem_nil, or_false]
    at hstep
  rcases hstep with rfl | rfl | rfl | rfl
  · rfl
  · intro t _ _ _ f hf
    cases hf
  · trivial
  · trivial

/-- The resumed loop's timer fires before the turn has ended: two turns. -/
theorem second_turn_started :
    ¬ ∀ step ∈ trace (loopStep .ascii defaultMaxLoops) (pausedMidTurn ++ [.fire 1 ready epoch])
        (boot .empty), step.before.OneEach ∧ step.after.OneEach := by
  intro h
  rw [trace_append] at h
  have hlast := (h _ (List.mem_append_right _ List.mem_cons_self)).2.one_turn
  revert hlast
  decide +kernel

/-! ### Loops that are not set going during their turn -/

/-- No loop has both a timer and a turn. -/
def Apart (m : LoopManager) : Prop := ∀ t ∈ m.pending, m.Landed t.loopId

/-- The condition on the requests alone: a loop that is set going again has no turn in
flight, and no id is drawn twice. -/
def Gated (m : LoopManager) : LoopOp → Prop
  | .create _ _ w => m.loops.find? (mkId (m.seq + 1) w.now) = none
  | .resume id _ => ∀ loop, m.loops.find? id = some loop → loop.status = .paused → m.Landed id
  | .resumeAll => ∀ loop ∈ m.loops.rows, loop.status = .running → m.Landed loop.id
  | .stop .. | .pause .. | .fire .. | .turnEnds .. | .restart => True

section Tokens

variable {m m' : LoopManager} {id : String} {loop : Loop} {w : World}

theorem Apart.calm (h : m.Apart) {op : LoopOp} (hgated : m.Gated op) : m.Calm op := by
  cases op with
  | create input agent w => exact hgated
  | fire handle deps w =>
    intro t ht _ _
    exact h t ht
  | _ => trivial

theorem Landed.mono (h : m.Landed id) (hf : m'.flights ⊆ m.flights) : m'.Landed id :=
  fun f hmem => h f (hf hmem)

theorem Apart.mono (h : m.Apart) (hp : m'.pending ⊆ m.pending) (hf : m'.flights ⊆ m.flights) :
    m'.Apart :=
  fun t ht => (h t (hp ht)).mono hf

theorem Apart.scheduleTick (h : m.Apart) (hlanded : m.Landed id) : (m.scheduleTick id).Apart := by
  intro t ht
  rcases List.mem_append.mp ht with ht | ht
  · exact h t ht
  · obtain rfl := List.mem_singleton.mp ht
    exact hlanded

theorem Apart.clearTimer (h : m.Apart) (id : String) : (m.clearTimer id).Apart :=
  h.mono clearTimer_pending_sublist.subset (by rw [clearTimer_flights]; exact List.Subset.refl _)

theorem Apart.setLoop (h : m.Apart) (loop : Loop) : (m.setLoop loop).Apart := h

theorem Apart.persist (h : m.Apart) (w : World) : (m.persist w).Apart := by
  unfold LoopManager.persist
  split
  · exact h
  · exact h

theorem Apart.reschedule (h : m.Apart) (hlanded : m.Landed id) : (m.reschedule id).Apart :=
  (h.clearTimer id).scheduleTick (by rwa [Landed, clearTimer_flights])

theorem Apart.launched (h : m.Apart) (hfree : m.Unscheduled loop.id) (agent : AgentProfile)
    (sessionId : Option JsString) : (m.launched loop agent sessionId).Apart := by
  intro t ht f hf
  rcases List.mem_append.mp hf with hf | hf
  · exact h t ht f hf
  · obtain rfl := List.mem_singleton.mp hf
    exact Ne.symm (hfree t ht)

theorem Apart.landed (h : m.Apart) (flight : Flight) : (m.landed flight).Apart :=
  h.mono (List.Subset.refl _) (List.filter_subset_self _)

theorem Apart.withdraw (h : m.Apart) (loop : Loop) (w : World) : (m.withdraw loop w).2.Apart :=
  ((h.clearTimer loop.id).setLoop loop).persist w

theorem Apart.stop (h : m.Apart) (id : String) (w : World) : (m.stop id w).2.Apart := by
  rcases m.stop_cases id w with hstop | ⟨loop, -, -, hstop⟩ <;> rw [hstop]
  · exact h
  · exact h.withdraw _ w

theorem Apart.pause (h : m.Apart) (id reason : String) (w : World) :
    (m.pause id reason w).2.Apart := by
  rcases m.pause_cases id w reason with hpause | ⟨loop, -, -, hpause⟩ <;> rw [hpause]
  · exact h
  · exact h.withdraw _ w

theorem Apart.finish (h : m.Apart) (loop : Loop) (reason : String) (w : World) :
    (m.finish loop reason w).Apart :=
  ((h.clearTimer loop.id).setLoop (finishedLoop loop reason w)).persist w

theorem Apart.stored (h : m.Apart) (loop : Loop) (hlanded : m.Landed id) (w : World) :
    (((m.setLoop loop).persist w).reschedule id).Apart :=
  ((h.setLoop loop).persist w).reschedule (by rwa [Landed, persist_flights, setLoop_flights])

theorem Apart.resume (h : m.Apart) (hgated : m.Gated (.resume id w)) : (m.resume id w).2.Apart := by
  rcases m.resume_cases id w with hresume | ⟨loop, rfl, hfind, hpaused, hresume⟩ <;> rw [hresume]
  · exact h
  · exact h.stored _ (hgated loop hfind hpaused) w

theorem Apart.foldl_reschedule (l : List Loop) (h : m.Apart) (hl : ∀ loop ∈ l, m.Landed loop.id) :
    (l.foldl (fun m loop => m.reschedule loop.id) m).Apart := by
  induction l generalizing m with
  | nil => exact h
  | cons loop l ih =>
    refine ih (h.reschedule (hl loop List.mem_cons_self)) ?_
    intro loop' hloop'
    rw [Landed, reschedule_flights]
    exact hl loop' (List.mem_cons_of_mem _ hloop')

theorem Apart.resumeAll (h : m.Apart) (hgated : m.Gated .resumeAll) : m.resumeAll.Apart := by
  refine h.foldl_reschedule _ ?_
  intro loop hloop
  obtain ⟨hmem, hrunning⟩ := List.mem_filter.mp hloop
  exact hgated loop hmem (of_decide_eq_true hrunning)

theorem apart_restart (m : LoopManager) : m.restart.Apart := by
  intro t _ f hf
  rw [restart_flights] at hf
  cases hf

theorem Apart.tick (h : m.Apart) (hfree : m.Unscheduled id) (hlanded : m.Landed id)
    (deps : TickDeps) (w : World) : (m.tick id deps w).2.Apart := by
  have hstarted : (m.tickStarted id).Apart := h
  have hout := tick_outcome m id w deps
  generalize m.tick id deps w = out at hout ⊢
  cases hout with
  | idle hidle => exact h
  | exhausted loop hfind hrunning hmax => exact hstarted.finish loop "max_iterations" w
  | withdrawn loop hfind hrunning reason => exact hstarted.pause id reason w
  | skipped loop hfind hrunning => exact hstarted.stored _ hlanded w
  | launched loop hfind hrunning hiteration agent hagent hallowed hcredential hdriver =>
    obtain rfl : loop.id = id := Table.key_of_find? hfind
    exact hstarted.launched hfree agent deps.sessionId

theorem Apart.fire (h : m.Apart) (hsound : m.Sound) (handle : Nat) (deps : TickDeps) (w : World) :
    (m.fire handle deps w).2.Apart := by
  rcases m.fire_cases handle deps w with hfire | ⟨timer, hmem, rfl, hfire⟩
  · rw [hfire]
    exact h
  · rw [hfire]
    have hfired : ({ m with pending := m.pending.filter (·.handle ≠ timer.handle) } :
        LoopManager).Apart := h.mono (List.filter_subset_self _) (List.Subset.refl _)
    exact hfired.tick (hsound.unscheduled_fired hmem) (h timer hmem) deps w

theorem Apart.afterTurn (h : m.Apart) (tables : CaseTables) (hlanded : m.Landed loop.id)
    (agent : AgentProfile) (result : TurnResult) (w : World) :
    (m.afterTurn tables loop agent result w).2.Apart := by
  have hout := afterTurn_outcome m loop w tables agent result
  generalize m.afterTurn tables loop agent result w = out at hout ⊢
  cases hout with
  | gaveUp hfailed herrors => exact (h.setLoop _).pause _ _ w
  | failed hfailed herrors => exact h.stored _ hlanded w
  | goalMet hok hhit => exact (h.setLoop _).finish _ _ w
  | exhausted hok hmiss hmax => exact (h.setLoop _).finish _ _ w
  | advanced hok hmiss hmore => exact h.stored _ hlanded w

theorem Apart.turnEnds (h : m.Apart) (hsound : m.Sound) (tables : CaseTables) (controller : Nat)
    (stream : DriverStream) (w : World) : (m.turnEnds tables controller stream w).2.Apart := by
  have hout := turnEnds_outcome m w tables controller stream
  generalize m.turnEnds tables controller stream w = out at hout ⊢
  cases hout with
  | unknown hnone => exact h
  | orphaned flight hflight hclosed => exact h.landed flight
  | ended flight hflight loop hid hfind hrunning =>
    have hfree := hsound.landed_flight (List.mem_of_find?_eq_some hflight)
    rw [← hid] at hfree
    exact (h.landed flight).afterTurn tables hfree _ _ w

theorem Apart.create (h : m.Apart) (hsound : m.Sound) (tables : CaseTables) (maxLoops : Nat)
    (input : CreateLoopInput) (agent : Option AgentProfile)
    (hfresh : m.loops.find? (mkId (m.seq + 1) w.now) = none) :
    (m.create tables maxLoops input agent w).2.Apart := by
  have hout := create_outcome m w tables maxLoops input agent
  generalize m.create tables maxLoops input agent w = out at hout ⊢
  cases hout with
  | rejected message => exact h
  | created agent interval maxIter hroom hmaxIter =>
    -- A fresh id has no turn.
    have hseq : ({ m with seq := m.seq + 1 } : LoopManager).Apart := h
    refine ((hseq.setLoop _).persist w).scheduleTick ?_
    intro f hf heq
    rw [persist_flights, setLoop_flights] at hf
    exact hsound.known f hf (heq ▸ hfresh)

end Tokens

theorem Apart.step {tables : CaseTables} {maxLoops : Nat} {op : LoopOp} {m : LoopManager}
    (h : m.Apart) (hsound : m.Sound) (hgated : m.Gated op) :
    (loopStep tables maxLoops op m).2.Apart := by
  cases op with
  | create input agent w => exact h.create hsound tables maxLoops input agent hgated
  | stop id w => exact h.stop id w
  | pause id w => exact h.pause id "paused" w
  | resume id w => exact h.resume hgated
  | resumeAll => exact h.resumeAll hgated
  | fire handle deps w => exact h.fire hsound handle deps w
  | turnEnds controller stream w => exact h.turnEnds hsound tables controller stream w
  | restart => exact apart_restart m

/-- The maps are right, and no loop has both a timer and a turn. -/
def Quiet (m : LoopManager) : Prop := m.Sound ∧ m.Apart

theorem Quiet.step {tables : CaseTables} {maxLoops : Nat} {op : LoopOp} {m : LoopManager}
    (h : m.Quiet) (hgated : m.Gated op) : (loopStep tables maxLoops op m).2.Quiet :=
  ⟨h.1.step (h.2.calm hgated), h.2.step h.1 hgated⟩

theorem quiet_restart (m : LoopManager) : m.restart.Quiet := ⟨sound_restart m, apart_restart m⟩

/-- In a run that sets no loop going during its turn, each loop has one token at most, its
timer or its turn, in every state. -/
theorem gated_turn_and_timer (tables : CaseTables) (maxLoops : Nat) (file : Table Loop.id)
    (ops : List LoopOp)
    (hgated : ∀ step ∈ trace (loopStep tables maxLoops) ops (boot file),
      step.before.Gated step.input) :
    ∀ step ∈ trace (loopStep tables maxLoops) ops (boot file),
      step.after.OneEach ∧ step.after.Apart := by
  intro step hstep
  have hquiet := trace_invariant_of (I := Quiet) (fun op m h hop => h.step hop)
    (quiet_restart _) hgated hstep
  exact ⟨hquiet.2.1.oneEach, hquiet.2.2⟩

end LoopManager

end OsModa.Gateway
