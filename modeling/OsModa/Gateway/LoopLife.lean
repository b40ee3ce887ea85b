import OsModa.Gateway.Loop

/-!
The life of one loop, apart from the manager that keeps it.

A loop is born running and lives through events: turns start and end, requests and the
scheduler take it away, processes crash. What the loop may cost follows from this alone:
each iteration takes `patience` turns at most, since the failure that would make it one
more pauses the loop, and a crash loses at most the turn in flight.
-/

namespace OsModa.Gateway

inductive LifeEvent where
  /-- Nothing that the loop's life depends on. -/
  | idle
  | stop
  /-- A tick pauses the loop. -/
  | withdraw
  /-- A tick finds the iterations used up. -/
  | exhaust
  | start
  /-- A turn ends when the loop is no longer running. -/
  | orphan (ok goal : Bool)
  | fail
  | succeed (goal : Bool)
  | crash
  deriving DecidableEq

namespace LifeEvent

/-- The turn that ends was successful. -/
def ok : LifeEvent → Bool
  | .succeed _ => true
  | .orphan ok _ => ok
  | _ => false

/-- The turn that ends was successful, and its answer met the goal. -/
def goal : LifeEvent → Bool
  | .succeed goal => goal
  | .orphan ok goal => ok && goal
  | _ => false

end LifeEvent

structure Life where
  status : LoopStatus
  iteration : Nat
  errors : Nat
  /-- A turn is in flight. -/
  turn : Bool

namespace Life

variable {patience limit : Nat} {events : List LifeEvent} {l : Life}

def newborn : Life := ⟨.running, 0, 0, false⟩

/-- When an event can happen. -/
def Enabled (limit : Nat) (l : Life) : LifeEvent → Prop
  | .idle | .stop | .crash => True
  | .withdraw => l.status = .running ∧ l.turn = false
  | .exhaust => l.status = .running ∧ limit ≤ l.iteration
  | .start => l.status = .running ∧ l.turn = false
  | .orphan .. => l.status ≠ .running ∧ l.turn = true
  | .fail | .succeed _ => l.status = .running ∧ l.turn = true

def next (patience limit : Nat) (l : Life) : LifeEvent → Life
  | .idle => l
  | .stop => { l with status := .stopped }
  | .withdraw => { l with status := .paused }
  | .exhaust => { l with status := .completed }
  | .start => { l with turn := true }
  | .orphan .. => { l with turn := false }
  | .fail =>
    { l with
      status := if patience ≤ l.errors + 1 then .paused else .running
      errors := l.errors + 1
      turn := false }
  | .succeed goal =>
    { status := if goal ∨ limit ≤ l.iteration + 1 then .completed else .running
      iteration := l.iteration + 1
      errors := 0
      turn := false }
  | .crash => { l with turn := false }

/-- The events that a loop can have had. -/
inductive Lived (patience limit : Nat) : List LifeEvent → Life → Prop where
  | born : Lived patience limit [] newborn
  | next {events : List LifeEvent} {l : Life} (h : Lived patience limit events l) (e : LifeEvent)
      (he : l.Enabled limit e) : Lived patience limit (events ++ [e]) (l.next patience limit e)

/-- What the events say about the loop's state. While it runs, the turns started are paid
for by iterations, failures since the last one, the turn in flight and crashes. -/
structure Accounted (patience limit : Nat) (events : List LifeEvent) (l : Life) : Prop where
  starts : events.count .start ≤ patience * limit + events.count .crash
  iteration : l.iteration ≤ limit
  running : l.status = .running → l.iteration < limit ∧ l.errors < patience ∧
    events.count .start ≤ patience * l.iteration + l.errors + (if l.turn then 1 else 0) +
      events.count .crash
  open_successes : l.status = .running ∨ l.status = .paused →
    events.countP (·.ok) = l.iteration ∧ l.iteration < limit ∧ events.any (·.goal) = false
  waiting : l.status = .paused ∨ l.status = .completed → l.turn = false
  stopped : l.status = .stopped → .stop ∈ events

theorem accounted_newborn (hpatience : 0 < patience) (hlimit : 0 < limit) :
    Accounted patience limit [] newborn where
  starts := Nat.zero_le _
  iteration := Nat.zero_le _
  running := fun _ => ⟨hlimit, hpatience, Nat.zero_le _⟩
  open_successes := fun _ => ⟨rfl, hlimit, rfl⟩
  waiting := fun _ => rfl
  stopped := fun h => nomatch h

/-- The turns that a running loop with one more turn in flight can have had. -/
theorem starts_le_of_running {i e n c : Nat} (hi : i < limit) (he : e < patience)
    (hn : n ≤ patience * i + e + 1 + c) : n ≤ patience * limit + c := by
  have hmul : patience * (i + 1) ≤ patience * limit := Nat.mul_le_mul_left _ hi
  rw [Nat.mul_add, Nat.mul_one] at hmul
  omega

theorem Accounted.starts_of_running (h : Accounted patience limit events l)
    (hrunning : l.status = .running) :
    events.count .start ≤ patience * l.iteration + l.errors + 1 + events.count .crash := by
  obtain ⟨-, -, hstarts⟩ := h.running hrunning
  split at hstarts <;> omega

/-- An event that leaves every count alone. -/
theorem Accounted.of_quiet (h : Accounted patience limit events l) {e : LifeEvent}
    (hstart : e ≠ .start) (hcrash : e ≠ .crash) (hok : e.ok = false) (hgoal : e.goal = false)
    {l' : Life} (hiteration : l'.iteration = l.iteration)
    (hrunning : l'.status = .running → l.status = .running ∧ l'.errors < patience ∧
      (if l.turn then 1 else 0) + l.errors ≤ (if l'.turn then 1 else 0) + l'.errors)
    (hopen : l'.status = .paused → l.status = .running ∨ l.status = .paused)
    (hwaiting : l'.status = .paused ∨ l'.status = .completed → l'.turn = false)
    (hstopped : l'.status = .stopped → .stop ∈ events ++ [e]) :
    Accounted patience limit (events ++ [e]) l' := by
  have hstarts : (events ++ [e]).count .start = events.count .start := by
    simp [List.count_append, hstart]
  have hcrashes : (events ++ [e]).count .crash = events.count .crash := by
    simp [List.count_append, hcrash]
  have hsuccesses : (events ++ [e]).countP (·.ok) = events.countP (·.ok) := by
    simp [List.countP_append, hok]
  have hgoals : (events ++ [e]).any (·.goal) = events.any (·.goal) := by
    simp [List.any_append, hgoal]
  refine ⟨?_, ?_, ?_, ?_, hwaiting, hstopped⟩
  · rw [hstarts, hcrashes]
    exact h.starts
  · rw [hiteration]
    exact h.iteration
  · intro hstatus
    obtain ⟨hbefore, herrors, htokens⟩ := hrunning hstatus
    obtain ⟨hlt, -, hcount⟩ := h.running hbefore
    rw [hstarts, hcrashes, hiteration]
    exact ⟨hlt, herrors, by omega⟩
  · intro hstatus
    rw [hsuccesses, hgoals, hiteration]
    rcases hstatus with hstatus | hstatus
    · exact h.open_successes (.inl (hrunning hstatus).1)
    · exact h.open_successes (hopen hstatus)

theorem Accounted.start (h : Accounted patience limit events l) (hrunning : l.status = .running)
    (hfree : l.turn = false) :
    Accounted patience limit (events ++ [.start]) { l with turn := true } := by
  obtain ⟨hlt, herrors, hcount⟩ := h.running hrunning
  rw [hfree] at hcount
  have hone : (events ++ [LifeEvent.start]).count .start ≤
      patience * l.iteration + l.errors + 1 + (events ++ [LifeEvent.start]).count .crash := by
    simp only [List.count_append, List.count_singleton, beq_self_eq_true, if_true,
      Bool.false_eq_true, if_false] at hcount ⊢
    omega
  refine ⟨starts_le_of_running hlt herrors hone, h.iteration, ?_, ?_, ?_, ?_⟩
  · intro _
    exact ⟨hlt, herrors, hone⟩
  · intro _
    obtain ⟨hsuccesses, -, hgoals⟩ := h.open_successes (.inl hrunning)
    refine ⟨?_, hlt, ?_⟩
    · simpa [List.countP_append, LifeEvent.ok] using hsuccesses
    · simpa [List.any_append, LifeEvent.goal] using hgoals
  · intro hstatus
    rw [hrunning] at hstatus
    simp at hstatus
  · intro hstatus
    rw [hrunning] at hstatus
    cases hstatus

theorem Accounted.succeed (h : Accounted patience limit events l) (hpatience : 0 < patience)
    (hrunning : l.status = .running) (hturn : l.turn = true) (goal : Bool) :
    Accounted patience limit (events ++ [.succeed goal]) (l.next patience limit (.succeed goal)) := by
  obtain ⟨hlt, herrors, hcount⟩ := h.running hrunning
  obtain ⟨hsuccesses, -, hgoals⟩ := h.open_successes (.inl hrunning)
  rw [hturn, if_pos rfl] at hcount
  have hstarts : (events ++ [LifeEvent.succeed goal]).count .start = events.count .start := by
    simp [List.count_append]
  have hcrashes : (events ++ [LifeEvent.succeed goal]).count .crash = events.count .crash := by
    simp [List.count_append]
  refine ⟨?_, hlt, ?_, ?_, fun _ => rfl, ?_⟩
  · rw [hstarts, hcrashes]
    exact h.starts
  · intro hstatus
    rw [hstarts, hcrashes]
    simp only [Life.next] at hstatus ⊢
    split at hstatus
    · cases hstatus
    · rename_i hmore
      rw [not_or] at hmore
      refine ⟨Nat.lt_of_not_le hmore.2, hpatience, ?_⟩
      rw [Nat.mul_add, Nat.mul_one]
      simp only [Bool.false_eq_true, if_false]
      omega
  · intro hstatus
    simp only [Life.next] at hstatus ⊢
    split at hstatus
    · simp at hstatus
    · rename_i hmore
      rw [not_or] at hmore
      refine ⟨?_, Nat.lt_of_not_le hmore.2, ?_⟩
      · rw [List.countP_append, hsuccesses]
        rfl
      · simpa [List.any_append, LifeEvent.goal, hmore.1] using hgoals
  · intro hstatus
    simp only [Life.next] at hstatus
    split at hstatus <;> cases hstatus

/-- A turn that outlives its loop: the loop is stopped. -/
theorem Accounted.orphan (h : Accounted patience limit events l) (hrunning : l.status ≠ .running)
    (hturn : l.turn = true) (ok goal : Bool) :
    Accounted patience limit (events ++ [.orphan ok goal]) { l with turn := false } := by
  have hwaiting : ¬ (l.status = .paused ∨ l.status = .completed) := by
    intro hstatus
    rw [h.waiting hstatus] at hturn
    cases hturn
  rw [not_or] at hwaiting
  refine ⟨?_, h.iteration, ?_, ?_, fun _ => rfl, ?_⟩
  · simpa [List.count_append] using h.starts
  · intro hstatus
    exact absurd hstatus hrunning
  · intro hstatus
    rcases hstatus with hstatus | hstatus
    · exact absurd hstatus hrunning
    · exact absurd hstatus hwaiting.1
  · intro hstatus
    exact List.mem_append_left _ (h.stopped hstatus)

/-- A crash costs the turn in flight, if there is one. -/
theorem Accounted.crash (h : Accounted patience limit events l) :
    Accounted patience limit (events ++ [.crash]) { l with turn := false } := by
  have hstarts : (events ++ [LifeEvent.crash]).count .start = events.count .start := by
    simp [List.count_append]
  have hcrashes : (events ++ [LifeEvent.crash]).count .crash = events.count .crash + 1 := by
    simp [List.count_append]
  refine ⟨?_, h.iteration, ?_, ?_, fun _ => rfl, ?_⟩
  · rw [hstarts, hcrashes]
    exact h.starts.trans (Nat.le_succ _)
  · intro hstatus
    obtain ⟨hlt, herrors, -⟩ := h.running hstatus
    have hcount := h.starts_of_running hstatus
    rw [hstarts, hcrashes]
    refine ⟨hlt, herrors, ?_⟩
    simp only [Bool.false_eq_true, if_false]
    omega
  · intro hstatus
    obtain ⟨hsuccesses, hlt, hgoals⟩ := h.open_successes hstatus
    refine ⟨?_, hlt, ?_⟩
    · simpa [List.countP_append, LifeEvent.ok] using hsuccesses
    · simpa [List.any_append, LifeEvent.goal] using hgoals
  · intro hstatus
    exact List.mem_append_left _ (h.stopped hstatus)

/-- Each event keeps the account. -/
theorem Accounted.next (h : Accounted patience limit events l) (hpatience : 0 < patience)
    {e : LifeEvent} (he : l.Enabled limit e) :
    Accounted patience limit (events ++ [e]) (l.next patience limit e) := by
  cases e with
  | idle =>
    refine h.of_quiet (by simp) (by simp) rfl rfl rfl ?_ .inr h.waiting ?_
    · intro hstatus
      exact ⟨hstatus, (h.running hstatus).2.1, le_rfl⟩
    · intro hstatus
      exact List.mem_append_left _ (h.stopped hstatus)
  | stop =>
    refine h.of_quiet (by simp) (by simp) rfl rfl rfl (fun hstatus => nomatch hstatus)
      (fun hstatus => nomatch hstatus) ?_ ?_
    · rintro (hstatus | hstatus) <;> cases hstatus
    · intro _
      exact List.mem_append_right _ List.mem_cons_self
  | withdraw =>
    exact h.of_quiet (by simp) (by simp) rfl rfl rfl (fun hstatus => nomatch hstatus)
      (fun _ => .inl he.1) (fun _ => he.2) (fun hstatus => nomatch hstatus)
  | exhaust => exact absurd he.2 (Nat.not_le_of_lt (h.running he.1).1)
  | start => exact h.start he.1 he.2
  | orphan ok goal => exact h.orphan he.1 he.2 ok goal
  | fail =>
    refine h.of_quiet (by simp) (by simp) rfl rfl rfl ?_ (fun _ => .inl he.1) (fun _ => rfl) ?_
    · intro hstatus
      simp only [Life.next] at hstatus ⊢
      split at hstatus
      · cases hstatus
      · rename_i hmore
        refine ⟨he.1, Nat.lt_of_not_le hmore, ?_⟩
        simp only [he.2, if_true, Bool.false_eq_true, if_false]
        omega
    · intro hstatus
      simp only [Life.next] at hstatus
      split at hstatus <;> cases hstatus
  | succeed goal => exact h.succeed hpatience he.1 he.2 goal
  | crash => exact h.crash

theorem Lived.accounted (h : Lived patience limit events l) (hpatience : 0 < patience)
    (hlimit : 0 < limit) : Accounted patience limit events l := by
  induction h with
  | born => exact accounted_newborn hpatience hlimit
  | next h e he ih => exact ih.next hpatience he

/-- A loop that has had all its successful turns, or met its goal, is completed, or stopped
by a request. -/
theorem Accounted.done (h : Accounted patience limit events l)
    (hdone : limit ≤ events.countP (·.ok) ∨ events.any (·.goal) = true) :
    l.status = .completed ∨ l.status = .stopped ∧ .stop ∈ events := by
  have hclosed : ¬ (l.status = .running ∨ l.status = .paused) := by
    intro hstatus
    obtain ⟨hsuccesses, hlt, hgoals⟩ := h.open_successes hstatus
    rcases hdone with hdone | hdone
    · exact absurd (hsuccesses ▸ hdone) (Nat.not_le_of_lt hlt)
    · rw [hgoals] at hdone
      cases hdone
  rw [not_or] at hclosed
  cases hstatus : l.status with
  | running => exact absurd hstatus hclosed.1
  | paused => exact absurd hstatus hclosed.2
  | completed => exact .inl rfl
  | stopped => exact .inr ⟨rfl, h.stopped hstatus⟩

end Life

end OsModa.Gateway
