import OsModa.Routines.Routine
import OsModa.Watch.Fleet
import OsModa.Watch.Switch

/-!
The three tests of elapsed time: whether a session has expired, a fleet switch has timed out and
a routine is due.

Each compares the whole seconds since a start with a limit, as unsigned numbers. The seconds of
a clock that has been set back behind the start wrap around to almost `2 ^ 64`, which is more
than any limit in use: the session is over, the switch has timed out and the routine runs
(`answer_of_behind`). Otherwise the tests are right (`answer_right_iff`).
-/

namespace OsModa

open OsModa.Text OsModa.Watch OsModa.Routines

/-! ### Seconds between two readings -/

namespace DateTime

variable {since now : DateTime} {secs : UInt64}

/-- At least that many seconds have passed. -/
def HavePassed (since now : DateTime) (secs : UInt64) : Prop :=
  (secs.toNat : Int) * 1000000000 ≤ now.nanos - since.nanos

/-- The clock is not behind the start, or not so that a limit counts as reached: by part of a
second, which is none, or by seconds that still wrap around to fewer than the limit. -/
def InOrder (since now : DateTime) (secs : UInt64) : Prop :=
  since ≤ now ∨
    if since.nanos - now.nanos < 1000000000 then 0 < secs.toNat
    else (2 : Int) ^ 64 < secs.toNat + (since.nanos - now.nanos) / 1000000000

/-- All readings are within two numbers of seconds that take less than 45 bits. -/
theorem nanos_sub_lt (since now : DateTime) :
    now.nanos - since.nanos < 2 ^ 44 * 1000000000 := by
  have hsince := since.inRange.1
  have hnow := now.inRange.2
  unfold minNanos at hsince
  unfold maxNanos at hnow
  omega

theorem wholeSeconds_of_le (h : since ≤ now) :
    (now.nanos - since.nanos).tdiv 1000000000 % 2 ^ 64 = (now.nanos - since.nanos) / 1000000000 := by
  have hle : since.nanos ≤ now.nanos := h
  have hlt := nanos_sub_lt since now
  rw [Int.tdiv_eq_ediv_of_nonneg (by omega)]
  exact Int.emod_eq_of_lt (by omega) (by omega)

/-- Part of a second is none, and whole ones wrap around. -/
theorem wholeSeconds_of_lt (h : now < since) :
    (now.nanos - since.nanos).tdiv 1000000000 % 2 ^ 64 =
      if since.nanos - now.nanos < 1000000000 then 0
      else 2 ^ 64 - (since.nanos - now.nanos) / 1000000000 := by
  have hlt : now.nanos < since.nanos := h
  have hbound := nanos_sub_lt now since
  have hneg : (now.nanos - since.nanos).tdiv 1000000000 =
      -((since.nanos - now.nanos) / 1000000000) := by
    rw [← Int.neg_sub, Int.neg_tdiv, Int.tdiv_eq_ediv_of_nonneg (by omega)]
  rw [hneg]
  split <;> omega

/-- A test of a start that is read back is right exactly where the clock is in order. -/
theorem elapsed_right_iff (hread : since.isReadable = true) :
    (since.elapsed now secs = true ↔ since.HavePassed now secs) ↔ since.InOrder now secs := by
  unfold elapsed HavePassed InOrder
  rw [hread, Bool.true_and, decide_eq_true_eq]
  by_cases horder : since ≤ now
  · rw [wholeSeconds_of_le horder]
    refine iff_of_true ?_ (.inl horder)
    omega
  · have hbehind := not_le.mp horder
    have hlt : now.nanos < since.nanos := hbehind
    rw [wholeSeconds_of_lt hbehind, or_iff_right horder]
    split <;> omega

/-- A clock that is behind by a second counts as one that is on by centuries. -/
theorem elapsed_of_behind (hread : since.isReadable = true)
    (hbehind : now.nanos + 1000000000 ≤ since.nanos) (hsecs : secs.toNat ≤ 2 ^ 63) :
    since.elapsed now secs = true := by
  have hlt : now < since := show now.nanos < since.nanos by omega
  have hbound := nanos_sub_lt now since
  unfold elapsed
  rw [hread, Bool.true_and, decide_eq_true_eq, wholeSeconds_of_lt hlt, if_neg (by omega)]
  omega

end DateTime

/-! ### The tests -/

/-- A test, with what it is made on. -/
inductive ElapsedTest where
  | isExpired (s : SwitchSession)
  | isTimedOut (fs : FleetSwitch)
  /-- Of a routine with an interval that is enabled and has run before. -/
  | shouldRun (r : Routine) (seconds : UInt64) (lastRun : DateTime)

namespace ElapsedTest

def start : ElapsedTest → DateTime
  | isExpired s => s.startedAt
  | isTimedOut fs => fs.createdAt
  | shouldRun _ _ lastRun => lastRun

def limit : ElapsedTest → UInt64
  | isExpired s => s.ttlSecs
  | isTimedOut fs => fs.timeoutSecs
  | shouldRun _ seconds _ => seconds

/-- What the test answers. -/
def answer (u : Unicode) (now : DateTime) : ElapsedTest → Bool
  | isExpired s => s.isExpired now
  | isTimedOut fs => fs.isTimedOut now
  | shouldRun r seconds lastRun =>
    { r with enabled := true, trigger := .interval seconds, lastRun := some lastRun }.shouldRun u now

/-- What it answers where the text of the start is not read back. -/
def unread : ElapsedTest → Bool
  | isExpired _ | isTimedOut _ => false
  | shouldRun .. => true

/-- What makes the answer right: a clock in order, if the start is read back. -/
def AnswersRight (test : ElapsedTest) (now : DateTime) : Prop :=
  if test.start.isReadable then test.start.InOrder now test.limit
  else (test.unread = true ↔ test.start.HavePassed now test.limit)

theorem answer_eq (u : Unicode) (now : DateTime) (test : ElapsedTest) :
    test.answer u now =
      if test.start.isReadable then test.start.elapsed now test.limit else test.unread := by
  have hunread : ∀ (since : DateTime) secs, since.elapsed now secs =
      if since.isReadable then since.elapsed now secs else false := by
    intro since secs
    cases hread : since.isReadable with
    | true => rfl
    | false => rw [DateTime.elapsed, hread, Bool.false_and]; rfl
  cases test with
  | isExpired s => exact hunread s.startedAt s.ttlSecs
  | isTimedOut fs => exact hunread fs.createdAt fs.timeoutSecs
  | shouldRun r seconds lastRun => rfl

/-- **Each test** answers whether at least so many seconds have passed exactly where its start is
read back and the clock is in order, or its answer without a start happens to be right. -/
theorem answer_right_iff (u : Unicode) (now : DateTime) (test : ElapsedTest) :
    (test.answer u now = true ↔ test.start.HavePassed now test.limit) ↔ test.AnswersRight now := by
  rw [answer_eq, AnswersRight]
  cases hread : test.start.isReadable with
  | true => exact DateTime.elapsed_right_iff hread
  | false => exact Iff.rfl

theorem answer_of_behind (u : Unicode) {now : DateTime} {test : ElapsedTest}
    (hread : test.start.isReadable = true)
    (hbehind : now.nanos + 1000000000 ≤ test.start.nanos) (hlimit : test.limit.toNat ≤ 2 ^ 63) :
    test.answer u now = true := by
  rw [answer_eq, hread, if_pos rfl]
  exact DateTime.elapsed_of_behind hread hbehind hlimit

end ElapsedTest

/-- A session of ten minutes that starts an hour after midnight. -/
def oneOClock : SwitchSession :=
  ⟨"a", "upgrade nginx", 600, [], ⟨3600 * 1000000000, DateTime.hour_inRange⟩, generationLink 1,
    .probation⟩

/-- When the clock is set back by the hour, it has expired. -/
theorem oneOClock_expires_early :
    ¬ ∀ u now (test : ElapsedTest),
      test.answer u now = true ↔ test.start.HavePassed now test.limit := by
  intro h
  have hanswer : (ElapsedTest.isExpired oneOClock).answer .ascii midnight = true :=
    ElapsedTest.answer_of_behind .ascii (by decide) (by decide) (by decide)
  have hpassed := (h _ _ _).mp hanswer
  unfold DateTime.HavePassed at hpassed
  exact absurd hpassed (by decide)

end OsModa
