import Mathlib.Algebra.Group.Int.Defs
import Mathlib.Algebra.Group.Nat.Defs
import Mathlib.Order.Basic
import Mathlib.Data.Int.Order.Basic

/-!
`chrono::DateTime<Utc>` as the daemons use it: readings of the clock, adding a
number of seconds, and the text form that is stored in SQLite.

A reading is the number of nanoseconds since the Unix epoch. `DateTime` carries
the bounds of the representable years, so a value outside them cannot be built
and `addSeconds` fails where `chrono` would panic.

`toRfc3339` is the proleptic Gregorian calendar date of the reading with as many
sub-second digits as it needs (none, three, six or nine). A year outside 0 to
9999 is written with its sign.
-/

namespace OsModa

/-- 1 January of the year -262143. -/
def minNanos : Int := -8334601228800 * 1000000000

/-- The last nanosecond of the year 262142. -/
def maxNanos : Int := 8210266876799 * 1000000000 + 999999999

structure DateTime where
  nanos : Int
  inRange : minNanos ≤ nanos ∧ nanos ≤ maxNanos
  deriving DecidableEq

namespace DateTime

instance : LE DateTime := ⟨fun a b => a.nanos ≤ b.nanos⟩
instance : LT DateTime := ⟨fun a b => a.nanos < b.nanos⟩

instance (a b : DateTime) : Decidable (a ≤ b) := inferInstanceAs (Decidable (a.nanos ≤ b.nanos))
instance (a b : DateTime) : Decidable (a < b) := inferInstanceAs (Decidable (a.nanos < b.nanos))

theorem zero_inRange : minNanos ≤ 0 ∧ 0 ≤ maxNanos := by decide

theorem hour_inRange : minNanos ≤ 3600 * 1000000000 ∧ 3600 * 1000000000 ≤ maxNanos := by decide

theorem not_le {a b : DateTime} : ¬ a ≤ b ↔ b < a := Int.not_le

/-- A reading that many nanoseconds away, when the calendar reaches it. -/
def ofNanos? (n : Int) : Option DateTime :=
  if h : minNanos ≤ n ∧ n ≤ maxNanos then some ⟨n, h⟩ else none

/-- The seconds that `chrono::Duration::seconds` accepts; it panics on others. -/
def durationSeconds? (secs : Int) : Option Int :=
  if -9223372036854775 ≤ secs ∧ secs ≤ 9223372036854775 then some secs else none

/-- `now + chrono::Duration::seconds(secs)`; `none` where either half panics. -/
def addSeconds (now : DateTime) (secs : Int) : Option DateTime :=
  (durationSeconds? secs).bind fun s => ofNanos? (now.nanos + s * 1000000000)

theorem addSeconds_eq_some_iff {now t : DateTime} {secs : Int} :
    now.addSeconds secs = some t ↔
      (-9223372036854775 ≤ secs ∧ secs ≤ 9223372036854775) ∧
        t.nanos = now.nanos + secs * 1000000000 := by
  unfold addSeconds durationSeconds?
  split
  · rename_i hsecs
    simp only [Option.bind_some, ofNanos?]
    constructor
    · intro h
      split at h
      · exact ⟨hsecs, by rw [← Option.some.inj h]⟩
      · cases h
    · rintro ⟨-, hnanos⟩
      rw [dif_pos (hnanos ▸ t.inRange)]
      cases t
      cases hnanos
      rfl
  · rename_i hsecs
    exact iff_of_false nofun fun h => hsecs h.1

/-! ### The text form -/

/-- Year, month and day of a number of days since the epoch. The year starts in
March here, so that a leap day ends it. -/
def civilFromDays (days : Int) : Int × Int × Int :=
  let z := days + 719468
  let era := z / 146097
  let doe := z - era * 146097
  let yoe := (doe - doe / 1460 + doe / 36524 - doe / 146096) / 365
  let doy := doe - (365 * yoe + yoe / 4 - yoe / 100)
  let mp := (5 * doy + 2) / 153
  let month := if mp < 10 then mp + 3 else mp - 9
  (yoe + era * 400 + (if month ≤ 2 then 1 else 0), month, doy - (153 * mp + 2) / 5 + 1)

/-- Decimal digits of `n`, padded with zeros on the left to `width`. -/
def padded (width : Nat) (n : Nat) : String :=
  let digits := Nat.repr n
  String.ofList (List.replicate (width - digits.length) '0') ++ digits

/-- The year, signed outside 0 to 9999. -/
def yearText (year : Int) : String :=
  if 0 ≤ year ∧ year ≤ 9999 then padded 4 year.toNat
  else (if 0 ≤ year then "+" else "-") ++ padded 4 year.natAbs

/-- The sub-second digits, with the shortest of the four precisions. -/
def subsecText (nano : Nat) : String :=
  if nano = 0 then ""
  else if nano % 1000000 = 0 then "." ++ padded 3 (nano / 1000000)
  else if nano % 1000 = 0 then "." ++ padded 6 (nano / 1000)
  else "." ++ padded 9 nano

/-- `DateTime::<Utc>::to_rfc3339`. -/
def toRfc3339 (t : DateTime) : String :=
  let secs := t.nanos / 1000000000
  let nano := (t.nanos % 1000000000).toNat
  let (year, month, day) := civilFromDays (secs / 86400)
  let sod := (secs % 86400).toNat
  yearText year ++ "-" ++ padded 2 month.toNat ++ "-" ++ padded 2 day.toNat ++ "T" ++
    padded 2 (sod / 3600) ++ ":" ++ padded 2 (sod / 60 % 60) ++ ":" ++ padded 2 (sod % 60) ++
    subsecText nano ++ "+00:00"

/-- `Display`. -/
def display (t : DateTime) : String :=
  let secs := t.nanos / 1000000000
  let (year, month, day) := civilFromDays (secs / 86400)
  let sod := (secs % 86400).toNat
  yearText year ++ "-" ++ padded 2 month.toNat ++ "-" ++ padded 2 day.toNat ++ " " ++
    padded 2 (sod / 3600) ++ ":" ++ padded 2 (sod / 60 % 60) ++ ":" ++ padded 2 (sod % 60) ++
    subsecText (t.nanos % 1000000000).toNat ++ " UTC"

/-- `parse_from_rfc3339` reads the text back, if its year has four digits. -/
def isReadable (t : DateTime) : Bool :=
  let year := (civilFromDays (t.nanos / 1000000000 / 86400)).1
  0 ≤ year ∧ year ≤ 9999

/-- Counted from March, the 400 years of an era end on a last day of February, and the last
of them reaches into January after 146037 days. -/
theorem year_of_era {doe yoe doy mp : Int} (hlo : 0 ≤ doe) (hhi : doe < 146097)
    (hyoe : yoe = (doe - doe / 1460 + doe / 36524 - doe / 146096) / 365)
    (hdoy : doy = doe - (365 * yoe + yoe / 4 - yoe / 100)) (hmp : mp = (5 * doy + 2) / 153) :
    0 ≤ yoe ∧ yoe ≤ 399 ∧ 0 ≤ mp ∧ mp ≤ 11 ∧ (yoe = 399 ∧ 10 ≤ mp ↔ 146037 ≤ doe) := by
  have hyear : 0 ≤ yoe ∧ yoe ≤ 399 := by omega
  have hday : 0 ≤ doy ∧ doy ≤ 365 := by
    have hcentury : yoe / 100 = 0 ∨ yoe / 100 = 1 ∨ yoe / 100 = 2 ∨ yoe / 100 = 3 := by omega
    rcases hcentury with h | h | h | h <;> rw [h] at hdoy <;> omega
  refine ⟨hyear.1, hyear.2, by omega, by omega, ?_⟩
  constructor
  · rintro ⟨rfl, h⟩
    omega
  · intro h
    have h2 : yoe = 399 := by omega
    subst h2
    omega

/-- The years before a multiple of 400 end 60 days before the eras do. -/
theorem civilFromDays_year_lt (k days : Int) :
    (civilFromDays days).1 < 400 * k ↔ days < 146097 * k - 719528 := by
  obtain ⟨era, hera⟩ : ∃ era, era = (days + 719468) / 146097 := ⟨_, rfl⟩
  obtain ⟨doe, hdoe⟩ : ∃ doe, doe = days + 719468 - era * 146097 := ⟨_, rfl⟩
  obtain ⟨hlo, hhi, hmarch, hmonths, hlast⟩ :=
    @year_of_era doe _ _ _ (by omega) (by omega) rfl rfl rfl
  unfold civilFromDays
  dsimp only
  rw [← hera, ← hdoe]
  generalize (doe - doe / 1460 + doe / 36524 - doe / 146096) / 365 = yoe at *
  generalize (5 * (doe - (365 * yoe + yoe / 4 - yoe / 100)) + 2) / 153 = mp at *
  split <;> split <;> omega

theorem isReadable_iff {t : DateTime} :
    t.isReadable = true ↔ -62167219200 * 1000000000 ≤ t.nanos ∧
      t.nanos < 253402300800 * 1000000000 := by
  have hbefore := civilFromDays_year_lt 0 (t.nanos / 1000000000 / 86400)
  have hafter := civilFromDays_year_lt 25 (t.nanos / 1000000000 / 86400)
  simp only [isReadable, decide_eq_true_eq]
  generalize (civilFromDays (t.nanos / 1000000000 / 86400)).1 = year at *
  omega

/-- The text of a start is read back, and `elapsed.num_seconds() as u64 >= secs`: whole
seconds, rounded towards zero, of which a negative number wraps around. -/
def elapsed (since now : DateTime) (secs : UInt64) : Bool :=
  since.isReadable &&
    (secs.toNat : Int) ≤ (now.nanos - since.nanos).tdiv 1000000000 % 2 ^ 64

example : ((ofNanos? 1767225600500000000).map toRfc3339) = some "2026-01-01T00:00:00.500+00:00" := by
  decide

end DateTime

end OsModa
