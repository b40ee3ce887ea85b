import OsModa.Base.Time
import Std.Data.String.ToNat

/-!
JavaScript's `Date`, as far as the gateway reads it: milliseconds since the epoch, and
the first ten characters of `toISOString()`, which it takes for the UTC day.

For the years 0 to 9999 these characters are the day (`isoDay_eq_iff`). Other years are
written with a sign and six digits, and the day is cut off.
-/

namespace OsModa

open DateTime

/-- A time value of `Date`. -/
structure Instant where
  ms : Int
  valid : -8640000000000000 ≤ ms ∧ ms ≤ 8640000000000000

namespace Instant

instance : LE Instant := ⟨fun a b => a.ms ≤ b.ms⟩

instance (a b : Instant) : Decidable (a ≤ b) := inferInstanceAs (Decidable (a.ms ≤ b.ms))

/-- The number of the UTC day. -/
def day (t : Instant) : Int := t.ms / 86400000

theorem day_mono {a b : Instant} (h : a ≤ b) : a.day ≤ b.day := by
  have hms : a.ms ≤ b.ms := h
  unfold day
  omega

def year (t : Instant) : Int := (civilFromDays t.day).1

/-- The year, with a sign and six digits outside 0 to 9999. -/
def isoYear (year : Int) : String :=
  if 0 ≤ year ∧ year ≤ 9999 then padded 4 year.toNat
  else (if 0 ≤ year then "+" else "-") ++ padded 6 year.natAbs

/-- `toISOString()`. -/
def toISOString (t : Instant) : String :=
  let (year, month, day) := civilFromDays t.day
  let ms := (t.ms % 86400000).toNat
  isoYear year ++ "-" ++ padded 2 month.toNat ++ "-" ++ padded 2 day.toNat ++ "T" ++
    padded 2 (ms / 3600000) ++ ":" ++ padded 2 (ms / 60000 % 60) ++ ":" ++
    padded 2 (ms / 1000 % 60) ++ "." ++ padded 3 (ms % 1000) ++ "Z"

/-- `toISOString().slice(0, 10)`. -/
def isoDay (t : Instant) : List Char := t.toISOString.toList.take 10

end Instant

/-! ### The calendar -/

namespace DateTime

section Era

/-! A day of the era of 400 years, with the quotients that correct for leap days. -/

variable {doe a d e y : Int} (h : 0 ≤ doe ∧ doe < 146097) (ha : a = doe / 1460)
  (hd : d = doe / 36524) (he : e = doe / 146096) (hy : y = (doe - a + d - e) / 365)

include h ha hd he hy

theorem century_bounds : y / 100 ≤ d ∧ d ≤ y / 100 + 1 := by
  omega

theorem dayOfYear_bounds :
    0 ≤ doe - (365 * y + y / 4 - y / 100) ∧ doe - (365 * y + y / 4 - y / 100) < 366 := by
  obtain ⟨hlow, hhigh⟩ := century_bounds h ha hd he hy
  have hquad : y / 100 = y / 4 / 25 := by omega
  have hcentury : d = y / 100 ∨ d = y / 100 + 1 := by omega
  generalize y / 100 = c at *
  constructor
  · rcases hcentury with hsame | hnext
    · omega
    · omega
  · rcases hcentury with hsame | hnext
    · omega
    · omega

end Era

/-- Year of the era, day of the year and month, counted from March, of a day. -/
structure MarchDate (days : Int) where
  era : Int
  yoe : Int
  doy : Int
  mp : Int
  yoe_bounds : 0 ≤ yoe ∧ yoe < 400
  doy_bounds : 0 ≤ doy ∧ doy < 366
  mp_eq : mp = (5 * doy + 2) / 153
  days_eq : days + 719468 = era * 146097 + (365 * yoe + yoe / 4 - yoe / 100) + doy
  civil_eq : civilFromDays days =
    (yoe + era * 400 + (if (if mp < 10 then mp + 3 else mp - 9) ≤ 2 then 1 else 0),
      (if mp < 10 then mp + 3 else mp - 9), doy - (153 * mp + 2) / 5 + 1)

def marchDate (days : Int) : MarchDate days :=
  let doe := (days + 719468) - (days + 719468) / 146097 * 146097
  have hdoe : 0 ≤ doe ∧ doe < 146097 := by
    unfold doe
    omega
  let yoe := (doe - doe / 1460 + doe / 36524 - doe / 146096) / 365
  let doy := doe - (365 * yoe + yoe / 4 - yoe / 100)
  { era := (days + 719468) / 146097
    yoe := yoe
    doy := doy
    mp := (5 * doy + 2) / 153
    yoe_bounds := by
      unfold yoe
      generalize doe = n at hdoe
      omega
    doy_bounds := dayOfYear_bounds hdoe rfl rfl rfl rfl
    mp_eq := rfl
    days_eq := by
      unfold doy doe
      omega
    civil_eq := rfl }

theorem civilFromDays_bounds (days : Int) :
    1 ≤ (civilFromDays days).2.1 ∧ (civilFromDays days).2.1 ≤ 12 ∧
      1 ≤ (civilFromDays days).2.2 ∧ (civilFromDays days).2.2 ≤ 31 := by
  obtain ⟨era, yoe, doy, mp, hyoe, hdoy, hmp, -, hcivil⟩ := marchDate days
  rw [hcivil]
  dsimp only
  split <;> omega

/-- The calendar date determines the day. -/
theorem civilFromDays_injective {a b : Int} (h : civilFromDays a = civilFromDays b) : a = b := by
  obtain ⟨era, yoe, doy, mp, hyoe, hdoy, hmp, hdays, hcivil⟩ := marchDate a
  obtain ⟨era', yoe', doy', mp', hyoe', hdoy', hmp', hdays', hcivil'⟩ := marchDate b
  rw [hcivil, hcivil', Prod.mk.injEq, Prod.mk.injEq] at h
  obtain ⟨hyear, hmonth, hday⟩ := h
  have hmp12 : 0 ≤ mp ∧ mp < 12 := by omega
  have hmp12' : 0 ≤ mp' ∧ mp' < 12 := by omega
  have hmpeq : mp = mp' := by
    clear hyear hday hmp hmp' hdays hdays'
    split at hmonth <;> split at hmonth <;> omega
  subst hmpeq
  have hdoyeq : doy = doy' := by
    clear hyear hmonth
    omega
  have hyears : yoe + era * 400 = yoe' + era' * 400 := by
    clear hmonth hday hdays hdays' hmp hmp'
    omega
  have hera : era = era' := by
    clear hyear hmonth hday hdays hdays' hmp hmp'
    omega
  have hyoeeq : yoe = yoe' := by
    clear hyear hmonth hday hdays hdays' hmp hmp'
    omega
  subst hera hyoeeq
  omega

/-! ### Padded numbers -/

theorem toList_padded (width n : Nat) : (padded width n).toList =
    List.replicate (width - (Nat.repr n).length) '0' ++ Nat.toDigits 10 n := by
  simp [padded, Nat.repr]

theorem length_padded {width n : Nat} (hwidth : 0 < width) (h : n < 10 ^ width) :
    (padded width n).toList.length = width := by
  have hlen : (Nat.toDigits 10 n).length ≤ width :=
    (Nat.length_toDigits_le_iff (by decide) hwidth).mpr h
  rw [toList_padded]
  simp [Nat.repr]
  omega

theorem padded_injective {width n m : Nat} (h : (padded width n).toList = (padded width m).toList) :
    n = m := by
  rw [toList_padded, toList_padded] at h
  have hvalue := congrArg (Nat.ofDigitChars 10 · 0) h
  simpa [Nat.ofDigitChars_append, Nat.ofDigitChars_replicate_zero, Nat.ofDigitChars_ten_toDigits]
    using hvalue

end DateTime

/-! ### Days as texts -/

namespace Instant

/-- The years that `toISOString` writes with four digits. -/
def FourDigitYear (t : Instant) : Prop := 0 ≤ t.year ∧ t.year ≤ 9999

instance (t : Instant) : Decidable t.FourDigitYear := by
  unfold FourDigitYear
  infer_instance

theorem yearDigits_length {t : Instant} (h : t.FourDigitYear) :
    (padded 4 (civilFromDays t.day).1.toNat).toList.length = 4 := by
  refine length_padded (by decide) ?_
  have hyear := h.2
  unfold year at hyear
  omega

theorem monthDigits_length (days : Int) :
    (padded 2 (civilFromDays days).2.1.toNat).toList.length = 2 := by
  have hbounds := civilFromDays_bounds days
  exact length_padded (by decide) (by omega)

theorem dayDigits_length (days : Int) :
    (padded 2 (civilFromDays days).2.2.toNat).toList.length = 2 := by
  have hbounds := civilFromDays_bounds days
  exact length_padded (by decide) (by omega)

/-- Ten characters hold the date. -/
theorem isoDay_eq {t : Instant} (h : t.FourDigitYear) :
    t.isoDay = (padded 4 (civilFromDays t.day).1.toNat).toList ++ '-' ::
      ((padded 2 (civilFromDays t.day).2.1.toNat).toList ++ '-' ::
        (padded 2 (civilFromDays t.day).2.2.toNat).toList) := by
  have hyear : isoYear (civilFromDays t.day).1 = padded 4 (civilFromDays t.day).1.toNat :=
    if_pos h
  unfold isoDay toISOString
  simp only [hyear, String.toList_append, List.append_assoc]
  rw [← List.append_assoc, ← List.append_assoc, ← List.append_assoc, ← List.append_assoc,
    List.take_left' (by simp [yearDigits_length h, monthDigits_length, dayDigits_length])]
  simp

/-- In years of four digits, two readings have the same ten characters exactly on the
same UTC day. -/
theorem isoDay_eq_iff {a b : Instant} (ha : a.FourDigitYear) (hb : b.FourDigitYear) :
    a.isoDay = b.isoDay ↔ a.day = b.day := by
  rw [isoDay_eq ha, isoDay_eq hb]
  constructor
  · intro h
    obtain ⟨hy, hrest⟩ := List.append_inj h ((yearDigits_length ha).trans (yearDigits_length hb).symm)
    obtain ⟨hm, hrest⟩ := List.append_inj (List.cons.inj hrest).2
      ((monthDigits_length _).trans (monthDigits_length _).symm)
    have hd := (List.cons.inj hrest).2
    have hbounds := civilFromDays_bounds a.day
    have hbounds' := civilFromDays_bounds b.day
    have hyears : 0 ≤ (civilFromDays a.day).1 ∧ 0 ≤ (civilFromDays b.day).1 := ⟨ha.1, hb.1⟩
    refine civilFromDays_injective (Prod.ext ?_ (Prod.ext ?_ ?_))
    · have := padded_injective hy
      omega
    · have := padded_injective hm
      omega
    · have := padded_injective hd
      omega
  · intro h
    rw [h]

example : (⟨1767225600500, by decide⟩ : Instant).isoDay = "2026-01-01".toList := by decide

end Instant

end OsModa
