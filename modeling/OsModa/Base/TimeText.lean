import Mathlib.Data.Prod.Lex
import Mathlib.Data.String.Basic
import Mathlib.Order.Monotone.Basic
import OsModa.Base.IsoDay

/-!
The order of times as texts.

Where times are stored as texts, it is the texts that a query compares. In the years 0 to 9999
every field has its width, and more sub-second digits after the same ones are a later time, so
that the texts are in the order of the times (`toRfc3339_lt_iff`). Other years begin with a
sign, and come before all of these; `toRfc3339_lt_iff_lt` says which times have texts in order.
-/

namespace OsModa

/-! ### Decimal numbers of one width -/

/-- Beginnings of one length decide. -/
theorem append_lt_append {α : Type} [LT α] {xs ys : List α} (us vs : List α)
    (hlength : xs.length = ys.length) (h : xs < ys) : xs ++ us < ys ++ vs := by
  induction xs generalizing ys with
  | nil =>
    rw [List.eq_nil_of_length_eq_zero hlength.symm] at h
    exact absurd h (List.not_lt_nil _)
  | cons x xs ih =>
    cases ys with
    | nil => exact absurd h (List.not_lt_nil _)
    | cons y ys =>
      rcases List.cons_lt_cons_iff.mp h with hlt | ⟨heq, htail⟩
      · exact List.cons_lt_cons_iff.mpr (.inl hlt)
      · exact List.cons_lt_cons_iff.mpr (.inr ⟨heq, ih (Nat.succ.inj hlength) htail⟩)

/-- A number, written with that many digits. -/
structure IsDecimal (width n : Nat) (text : List Char) : Prop where
  length : text.length = width
  digits : ∀ c ∈ text, c.isDigit = true
  value : Nat.ofDigitChars 10 text 0 = n

namespace IsDecimal

variable {w v n m : Nat} {xs ys us vs : List Char} {c : Char}

theorem toNat_bounds (h : c.isDigit = true) : 48 ≤ c.toNat ∧ c.toNat ≤ 57 :=
  Char.isDigit_iff_toNat.mp h

theorem value_cons : Nat.ofDigitChars 10 (c :: xs) 0 =
    10 ^ xs.length * (c.toNat - 48) + Nat.ofDigitChars 10 xs 0 := by
  rw [Nat.ofDigitChars_cons, Nat.ofDigitChars_eq_ofDigitChars_zero, Nat.mul_zero, Nat.zero_add]
  rfl

theorem value_lt (digits : ∀ c ∈ xs, c.isDigit = true) :
    Nat.ofDigitChars 10 xs 0 < 10 ^ xs.length := by
  induction xs with
  | nil => simp
  | cons x xs ih =>
    have hx := toNat_bounds (digits x List.mem_cons_self)
    have hrest := ih fun c hc => digits c (List.mem_cons_of_mem x hc)
    rw [value_cons, List.length_cons, Nat.pow_succ]
    calc 10 ^ xs.length * (x.toNat - 48) + Nat.ofDigitChars 10 xs 0
        < 10 ^ xs.length * (x.toNat - 48) + 10 ^ xs.length := Nat.add_lt_add_left hrest _
      _ = 10 ^ xs.length * (x.toNat - 48 + 1) := (Nat.mul_succ _ _).symm
      _ ≤ 10 ^ xs.length * 10 := Nat.mul_le_mul_left _ (by omega)

theorem value_lt_of_lt (hx : ∀ c ∈ xs, c.isDigit = true) (hy : ∀ c ∈ ys, c.isDigit = true)
    (hlength : xs.length = ys.length) (h : xs < ys) :
    Nat.ofDigitChars 10 xs 0 < Nat.ofDigitChars 10 ys 0 := by
  induction xs generalizing ys with
  | nil =>
    rw [List.eq_nil_of_length_eq_zero hlength.symm] at h
    exact absurd h (List.not_lt_nil _)
  | cons x xs ih =>
    cases ys with
    | nil => exact absurd h (List.not_lt_nil _)
    | cons y ys =>
      have hxs := fun c hc => hx c (List.mem_cons_of_mem x hc)
      have hys := fun c hc => hy c (List.mem_cons_of_mem y hc)
      have htails : xs.length = ys.length := Nat.succ.inj hlength
      rw [value_cons, value_cons, ← htails]
      rcases List.cons_lt_cons_iff.mp h with hlt | ⟨rfl, htail⟩
      · have hxdigit := toNat_bounds (hx x List.mem_cons_self)
        have hless : x.toNat < y.toNat := hlt
        calc 10 ^ xs.length * (x.toNat - 48) + Nat.ofDigitChars 10 xs 0
            < 10 ^ xs.length * (x.toNat - 48) + 10 ^ xs.length :=
              Nat.add_lt_add_left (value_lt hxs) _
          _ = 10 ^ xs.length * (x.toNat - 48 + 1) := (Nat.mul_succ _ _).symm
          _ ≤ 10 ^ xs.length * (y.toNat - 48) := Nat.mul_le_mul_left _ (by omega)
          _ ≤ 10 ^ xs.length * (y.toNat - 48) + Nat.ofDigitChars 10 ys 0 := Nat.le_add_right _ _
      · exact Nat.add_lt_add_left (ih hxs hys htails htail) _

/-- The texts of one width are in the order of their numbers. -/
theorem lt_of_lt (hx : IsDecimal w n xs) (hy : IsDecimal w m ys) (h : n < m) : xs < ys := by
  rcases lt_trichotomy xs ys with hlt | rfl | hgt
  · exact hlt
  · exact absurd (hx.value.symm.trans hy.value) h.ne
  · have hmore := value_lt_of_lt hy.digits hx.digits (hy.length.trans hx.length.symm) hgt
    rw [hx.value, hy.value] at hmore
    omega

theorem unique (hx : IsDecimal w n xs) (hy : IsDecimal w n ys) : xs = ys := by
  have hvalue := hx.value.trans hy.value.symm
  rcases lt_trichotomy xs ys with hlt | heq | hgt
  · exact absurd hvalue
      (value_lt_of_lt hx.digits hy.digits (hx.length.trans hy.length.symm) hlt).ne
  · exact heq
  · exact absurd hvalue.symm
      (value_lt_of_lt hy.digits hx.digits (hy.length.trans hx.length.symm) hgt).ne

theorem append (hx : IsDecimal w n xs) (hy : IsDecimal v m ys) :
    IsDecimal (w + v) (n * 10 ^ v + m) (xs ++ ys) where
  length := by rw [List.length_append, hx.length, hy.length]
  digits c hc := (List.mem_append.mp hc).elim (hx.digits c) (hy.digits c)
  value := by
    rw [Nat.ofDigitChars_append, Nat.ofDigitChars_eq_ofDigitChars_zero, hx.value, hy.value,
      hy.length, Nat.mul_comm]

/-- A field decides, or what comes after it. -/
theorem append_lt (hx : IsDecimal w n xs) (hy : IsDecimal w m ys) (h : n < m ∨ n = m ∧ us < vs) :
    xs ++ us < ys ++ vs := by
  rcases h with hlt | ⟨rfl, htail⟩
  · exact append_lt_append us vs (hx.length.trans hy.length.symm) (hx.lt_of_lt hy hlt)
  · rw [hx.unique hy]
    exact List.append_left_lt htail

end IsDecimal

namespace DateTime

theorem isDigit_of_mem_padded {width n : Nat} {c : Char} (h : c ∈ (padded width n).toList) :
    c.isDigit = true := by
  rw [toList_padded, List.mem_append] at h
  rcases h with hzero | hdigit
  · rw [List.eq_of_mem_replicate hzero]
    rfl
  · exact Nat.isDigit_of_mem_toDigits (by decide) (by decide) hdigit

theorem ofDigitChars_padded (width n : Nat) :
    Nat.ofDigitChars 10 (padded width n).toList 0 = n := by
  rw [toList_padded, Nat.ofDigitChars_append, Nat.ofDigitChars_replicate_zero, Nat.mul_zero,
    Nat.ofDigitChars_ten_toDigits]

theorem padded_inj {width n m : Nat} (h : padded width n = padded width m) : n = m := by
  rw [← ofDigitChars_padded width n, h, ofDigitChars_padded]

theorem isDecimal_padded {width n : Nat} (hwidth : 0 < width) (h : n < 10 ^ width) :
    IsDecimal width n (padded width n).toList where
  length := length_padded hwidth h
  digits _ hc := isDigit_of_mem_padded hc
  value := ofDigitChars_padded width n

theorem ten_pow_pos (k : Nat) : 0 < 10 ^ k := Nat.pow_pos (by decide)

/-- A field of two digits decides, or what comes after it. -/
theorem twoDigits_lt {n m : Nat} {us vs : List Char} (hn : n < 100) (hm : m < 100)
    (h : n < m ∨ n = m ∧ us < vs) :
    (padded 2 n).toList ++ us < (padded 2 m).toList ++ vs :=
  (isDecimal_padded Nat.two_pos hn).append_lt (isDecimal_padded Nat.two_pos hm) h

/-- The first digits and the last ones. -/
theorem padded_add {first last n : Nat} (hfirst : 0 < first) (hlast : 0 < last)
    (h : n < 10 ^ (first + last)) : (padded (first + last) n).toList =
      (padded first (n / 10 ^ last)).toList ++ (padded last (n % 10 ^ last)).toList := by
  have hhigh : n / 10 ^ last < 10 ^ first := by
    rw [Nat.div_lt_iff_lt_mul (ten_pow_pos _), ← Nat.pow_add]
    exact h
  have hlow : n % 10 ^ last < 10 ^ last := Nat.mod_lt _ (ten_pow_pos _)
  refine (isDecimal_padded (by omega) h).unique ?_
  have hboth := (isDecimal_padded hfirst hhigh).append (isDecimal_padded hlast hlow)
  rwa [Nat.div_add_mod' n (10 ^ last)] at hboth

/-! ### The calendar -/

/-- Year, month and day, the first that differs deciding. -/
def civilKey (days : Int) : Int ×ₗ Int ×ₗ Int :=
  toLex ((civilFromDays days).1, toLex (civilFromDays days).2)

/-- A later year begins at least 365 days later. -/
theorem year_begins {era yoe era' yoe' : Int} (hyoe : 0 ≤ yoe ∧ yoe < 400)
    (hyoe' : 0 ≤ yoe' ∧ yoe' < 400) (h : yoe + era * 400 < yoe' + era' * 400) :
    era * 146097 + (365 * yoe + yoe / 4 - yoe / 100) + 365 ≤
      era' * 146097 + (365 * yoe' + yoe' / 4 - yoe' / 100) := by
  have hcenturies : yoe / 100 = yoe / 4 / 25 := by omega
  have hcenturies' : yoe' / 100 = yoe' / 4 / 25 := by omega
  rcases lt_or_ge era era' with hera | hera
  · omega
  · have hsame : era = era' := by omega
    have hyears : yoe / 4 ≤ yoe' / 4 := by omega
    rw [hcenturies, hcenturies', hsame]
    generalize yoe / 4 = leaps at *
    generalize yoe' / 4 = leaps' at *
    omega

/-- The next day has a later date. -/
theorem civilKey_lt_succ (days : Int) : civilKey days < civilKey (days + 1) := by
  obtain ⟨era, yoe, doy, mp, hyoe, hdoy, hmp, hdays, hcivil⟩ := marchDate days
  obtain ⟨era', yoe', doy', mp', hyoe', hdoy', hmp', hdays', hcivil'⟩ := marchDate (days + 1)
  unfold civilKey
  rw [hcivil, hcivil', Prod.Lex.toLex_lt_toLex, Prod.Lex.toLex_lt_toLex]
  dsimp only
  have hmonth : 0 ≤ mp ∧ mp ≤ 11 := by omega
  have hmonth' : 0 ≤ mp' ∧ mp' ≤ 11 := by omega
  rcases lt_trichotomy (yoe + era * 400) (yoe' + era' * 400) with hnext | hsame | hback
  · -- The last days of February are followed by the first of March.
    have hbegins := year_begins hyoe hyoe' hnext
    have hlast : 364 ≤ doy ∧ doy' ≤ 1 := by omega
    have hfeb : mp = 11 := by omega
    have hmar : mp' = 0 := by omega
    subst hfeb hmar
    omega
  · have hera : era = era' := by omega
    have hyear : yoe = yoe' := by omega
    subst hera hyear
    have hnext : doy' = doy + 1 := by omega
    clear hdays hdays' hcivil hcivil' hyoe hyoe'
    omega
  · have hbegins := year_begins hyoe' hyoe hback
    omega

theorem civilKey_lt {x y : Int} (h : x < y) : civilKey x < civilKey y :=
  strictMono_int_of_lt_succ civilKey_lt_succ h

theorem civilFromDays_lt {x y : Int} (h : x < y) : (civilFromDays x).1 < (civilFromDays y).1 ∨
    (civilFromDays x).1 = (civilFromDays y).1 ∧ ((civilFromDays x).2.1 < (civilFromDays y).2.1 ∨
      (civilFromDays x).2.1 = (civilFromDays y).2.1 ∧
        (civilFromDays x).2.2 < (civilFromDays y).2.2) := by
  have hkey := civilKey_lt h
  unfold civilKey at hkey
  rwa [Prod.Lex.toLex_lt_toLex, Prod.Lex.toLex_lt_toLex] at hkey

/-! ### Sub-second digits -/

theorem padded_cons {width n : Nat} (hwidth : 0 < width) (h : n < 10 ^ width) :
    ∃ c digits, (padded width n).toList = c :: digits ∧ c.isDigit = true := by
  have hdecimal := isDecimal_padded hwidth h
  cases htext : (padded width n).toList with
  | nil =>
    rw [htext] at hdecimal
    exact absurd hdecimal.length.symm hwidth.ne'
  | cons c digits => exact ⟨c, digits, rfl, hdecimal.digits c (htext ▸ List.mem_cons_self)⟩

theorem lt_padded {width n : Nat} {c : Char} (hwidth : 0 < width) (h : n < 10 ^ width)
    (hc : c.toNat < 48) (rest rest' : List Char) : c :: rest < (padded width n).toList ++ rest' := by
  obtain ⟨d, digits, hcons, hd⟩ := padded_cons hwidth h
  have hdigit := IsDecimal.toNat_bounds hd
  have hlt : c < d := by
    change c.toNat < d.toNat
    omega
  rw [hcons]
  exact List.cons_lt_cons_iff.mpr (.inl hlt)

/-- Fractions of a second are in the order of their numbers, whatever their precisions are. -/
theorem fraction_lt {p q n m : Nat} (hp : 0 < p ∧ p ≤ 9) (hq : 0 < q ∧ q ≤ 9)
    (hdvd : 10 ^ (9 - q) ∣ m) (hm : m < 10 ^ 9) (h : n < m) (rest rest' : List Char) :
    (padded p (n / 10 ^ (9 - p))).toList ++ '+' :: rest <
      (padded q (m / 10 ^ (9 - q))).toList ++ '+' :: rest' := by
  have hbound : ∀ {width k : Nat}, width ≤ 9 → k < 10 ^ 9 → k / 10 ^ (9 - width) < 10 ^ width := by
    intro width k hwidth hk
    rw [Nat.div_lt_iff_lt_mul (ten_pow_pos _), ← Nat.pow_add,
      Nat.add_sub_cancel' hwidth]
    exact hk
  have hn : n < 10 ^ 9 := h.trans hm
  have hless : n / 10 ^ (9 - q) < m / 10 ^ (9 - q) := Nat.div_lt_div_of_lt_of_dvd hdvd h
  have hq' := isDecimal_padded hq.1 (hbound hq.2 hm)
  rcases lt_trichotomy p q with hlt | rfl | hgt
  · obtain ⟨r, hr, rfl⟩ : ∃ r, 0 < r ∧ q = p + r := ⟨q - p, by omega, by omega⟩
    have hsame : m / 10 ^ (9 - (p + r)) / 10 ^ r = m / 10 ^ (9 - p) := by
      rw [Nat.div_div_eq_div_mul, ← Nat.pow_add]
      congr 2
      omega
    rw [padded_add hp.1 hr (hbound hq.2 hm), hsame, List.append_assoc]
    refine (isDecimal_padded hp.1 (hbound hp.2 hn)).append_lt
      (isDecimal_padded hp.1 (hbound hp.2 hm)) ?_
    rcases (Nat.div_le_div_right h.le : n / 10 ^ (9 - p) ≤ m / 10 ^ (9 - p)).lt_or_eq with
      hlt | heq
    · exact .inl hlt
    · exact .inr ⟨heq, lt_padded hr (Nat.mod_lt _ (ten_pow_pos _)) (by decide) _ _⟩
  · exact (isDecimal_padded hp.1 (hbound hp.2 hn)).append_lt hq' (.inl hless)
  · obtain ⟨r, hr, rfl⟩ : ∃ r, 0 < r ∧ p = q + r := ⟨p - q, by omega, by omega⟩
    have hsame : n / 10 ^ (9 - (q + r)) / 10 ^ r = n / 10 ^ (9 - q) := by
      rw [Nat.div_div_eq_div_mul, ← Nat.pow_add]
      congr 2
      omega
    rw [padded_add hq.1 hr (hbound hp.2 hn), hsame, List.append_assoc]
    exact (isDecimal_padded hq.1 (hbound hq.2 hn)).append_lt hq' (.inl hless)

/-- The precision that is chosen leaves nothing out. -/
theorem subsecText_eq {nano : Nat} (h : 0 < nano) :
    ∃ p, (0 < p ∧ p ≤ 9) ∧ 10 ^ (9 - p) ∣ nano ∧
      (subsecText nano).toList = '.' :: (padded p (nano / 10 ^ (9 - p))).toList := by
  unfold subsecText
  rw [if_neg h.ne']
  split
  · rename_i hmilli
    exact ⟨3, by decide, Nat.dvd_of_mod_eq_zero hmilli, by rw [String.toList_append]; rfl⟩
  · split
    · rename_i hmicro
      exact ⟨6, by decide, Nat.dvd_of_mod_eq_zero hmicro, by rw [String.toList_append]; rfl⟩
    · refine ⟨9, by decide, Nat.one_dvd _, ?_⟩
      rw [String.toList_append, Nat.sub_self, Nat.pow_zero, Nat.div_one]
      rfl

theorem subsecText_lt {n m : Nat} (hm : m < 10 ^ 9) (h : n < m) (rest rest' : List Char) :
    (subsecText n).toList ++ '+' :: rest < (subsecText m).toList ++ '+' :: rest' := by
  obtain ⟨q, hq, hdvd, hlate⟩ := subsecText_eq (Nat.zero_lt_of_lt h)
  rw [hlate]
  rcases Nat.eq_zero_or_pos n with rfl | hn
  · exact List.cons_lt_cons_iff.mpr (.inl (by decide))
  · obtain ⟨p, hp, -, hearly⟩ := subsecText_eq hn
    rw [hearly]
    exact List.cons_lt_cons_iff.mpr (.inr ⟨rfl, fraction_lt hp hq hdvd hm h rest rest'⟩)

/-! ### Texts -/

section Texts

variable {a b t : DateTime}

/-- The seconds of the day. -/
def secondOfDay (t : DateTime) : Nat := (t.nanos / 1000000000 % 86400).toNat

/-- The nanoseconds of the second. -/
def subsecond (t : DateTime) : Nat := (t.nanos % 1000000000).toNat

def epochDay (t : DateTime) : Int := t.nanos / 1000000000 / 86400

/-- What comes after the date. -/
def clockText (t : DateTime) : List Char :=
  (padded 2 (t.secondOfDay / 3600)).toList ++
    ':' :: ((padded 2 (t.secondOfDay / 60 % 60)).toList ++
    ':' :: ((padded 2 (t.secondOfDay % 60)).toList ++
    ((subsecText t.subsecond).toList ++ '+' :: "00:00".toList)))

def year (t : DateTime) : Int := (civilFromDays t.epochDay).1

/-- What comes after the year and its dash. -/
def afterYear (t : DateTime) : List Char :=
  (padded 2 (civilFromDays t.epochDay).2.1.toNat).toList ++
    '-' :: ((padded 2 (civilFromDays t.epochDay).2.2.toNat).toList ++ 'T' :: t.clockText)

theorem isReadable_iff_year : t.isReadable = true ↔ 0 ≤ t.year ∧ t.year ≤ 9999 :=
  decide_eq_true_iff

theorem toList_toRfc3339 : t.toRfc3339.toList = (yearText t.year).toList ++ '-' :: t.afterYear := by
  have hdash : "-".toList = ['-'] := rfl
  have htee : "T".toList = ['T'] := rfl
  have hcolon : ":".toList = [':'] := rfl
  have hutc : "+00:00".toList = '+' :: "00:00".toList := rfl
  unfold toRfc3339 afterYear year clockText epochDay secondOfDay subsecond
  simp only [String.toList_append, hdash, htee, hcolon, hutc, List.append_assoc,
    List.cons_append, List.nil_append]

theorem cons_lt_cons_same {c : Char} {xs ys : List Char} (h : xs < ys) : c :: xs < c :: ys :=
  List.cons_lt_cons_iff.mpr (.inr ⟨rfl, h⟩)

theorem clockText_lt (h : a.secondOfDay < b.secondOfDay ∨
    a.secondOfDay = b.secondOfDay ∧ a.subsecond < b.subsecond) : a.clockText < b.clockText := by
  have hfields : ∀ t : DateTime, t.secondOfDay / 3600 < 100 ∧
      t.secondOfDay / 60 % 60 < 100 ∧ t.secondOfDay % 60 < 100 ∧ t.subsecond < 10 ^ 9 := by
    intro t
    unfold secondOfDay subsecond
    omega
  obtain ⟨hhour, hminute, hsecond, -⟩ := hfields a
  obtain ⟨hhour', hminute', hsecond', hnano'⟩ := hfields b
  refine twoDigits_lt hhour hhour' ?_
  rcases lt_or_ge (a.secondOfDay / 3600) (b.secondOfDay / 3600) with hlt | hge
  · exact .inl hlt
  refine .inr ⟨by omega, cons_lt_cons_same ?_⟩
  refine twoDigits_lt hminute hminute' ?_
  rcases lt_or_ge (a.secondOfDay / 60 % 60) (b.secondOfDay / 60 % 60) with hlt | hge'
  · exact .inl hlt
  refine .inr ⟨by omega, cons_lt_cons_same ?_⟩
  refine twoDigits_lt hsecond hsecond' ?_
  rcases h with hlt | ⟨heq, hlt⟩
  · exact .inl (by omega)
  · exact .inr ⟨by rw [heq], subsecText_lt hnano' hlt _ _⟩

theorem ext_nanos (h : a.nanos = b.nanos) : a = b := by
  cases a
  cases h
  rfl

/-- Later times are in a later year, or have a later text after the year. -/
theorem year_lt_or (h : a < b) : a.year < b.year ∨ a.year = b.year ∧ a.afterYear < b.afterYear := by
  have hnanos : a.nanos < b.nanos := h
  have hclock : a.epochDay < b.epochDay ∨ a.epochDay = b.epochDay ∧ a.clockText < b.clockText := by
    have hfields : a.epochDay < b.epochDay ∨ a.epochDay = b.epochDay ∧
        (a.secondOfDay < b.secondOfDay ∨
          a.secondOfDay = b.secondOfDay ∧ a.subsecond < b.subsecond) := by
      unfold epochDay secondOfDay subsecond
      omega
    exact hfields.imp_right fun ⟨hday, hlater⟩ => ⟨hday, clockText_lt hlater⟩
  have hbounds := civilFromDays_bounds a.epochDay
  have hbounds' := civilFromDays_bounds b.epochDay
  have hdate : (civilFromDays a.epochDay).1 < (civilFromDays b.epochDay).1 ∨
      (civilFromDays a.epochDay).1 = (civilFromDays b.epochDay).1 ∧
        ((civilFromDays a.epochDay).2.1 < (civilFromDays b.epochDay).2.1 ∨
          (civilFromDays a.epochDay).2.1 = (civilFromDays b.epochDay).2.1 ∧
            ((civilFromDays a.epochDay).2.2 < (civilFromDays b.epochDay).2.2 ∨
              (civilFromDays a.epochDay).2.2 = (civilFromDays b.epochDay).2.2 ∧
                a.clockText < b.clockText)) := by
    rcases hclock with hday | ⟨hday, htail⟩
    · rcases civilFromDays_lt hday with hlt | ⟨heq, hlt | ⟨heq', hlt⟩⟩
      · exact .inl hlt
      · exact .inr ⟨heq, .inl hlt⟩
      · exact .inr ⟨heq, .inr ⟨heq', .inl hlt⟩⟩
    · rw [hday]
      exact .inr ⟨rfl, .inr ⟨rfl, .inr ⟨rfl, htail⟩⟩⟩
  unfold year afterYear
  generalize civilFromDays a.epochDay = date at *
  generalize civilFromDays b.epochDay = date' at *
  refine hdate.imp_right fun ⟨heq, hdate⟩ => ⟨heq, twoDigits_lt (by omega) (by omega) ?_⟩
  rcases hdate with hlt | ⟨heq, hdate⟩
  · exact .inl (by omega)
  refine .inr ⟨by rw [heq], cons_lt_cons_same (twoDigits_lt (by omega) (by omega) ?_)⟩
  rcases hdate with hlt | ⟨heq, hdate⟩
  · exact .inl (by omega)
  · exact .inr ⟨by rw [heq], cons_lt_cons_same hdate⟩

/-- The times are in the order of their years, and within a year of the texts after it. -/
theorem lt_iff_year : a < b ↔ a.year < b.year ∨ a.year = b.year ∧ a.afterYear < b.afterYear := by
  refine ⟨year_lt_or, fun h => ?_⟩
  rcases lt_trichotomy a.nanos b.nanos with hlt | heq | hgt
  · exact hlt
  · obtain rfl := ext_nanos heq
    exact absurd h (by simp)
  · rcases h with hyear | ⟨hyear, hafter⟩ <;> rcases year_lt_or hgt with hback | ⟨hsame, hback⟩
    · omega
    · omega
    · omega
    · exact absurd hafter hback.asymm

/-! ### Years of any width -/

/-- A year within four digits, or one with a sign. -/
theorem yearText_cases (y : Int) :
    (0 ≤ y ∧ y ≤ 9999 ∧ (yearText y).toList = (padded 4 y.toNat).toList) ∨
      (9999 < y ∧ (yearText y).toList = '+' :: (padded 4 y.natAbs).toList) ∨
        y < 0 ∧ (yearText y).toList = '-' :: (padded 4 y.natAbs).toList := by
  unfold yearText
  split
  · rename_i hyear
    exact .inl ⟨hyear.1, hyear.2, rfl⟩
  · split
    · exact .inr (.inl ⟨by omega, String.toList_append⟩)
    · exact .inr (.inr ⟨by omega, String.toList_append⟩)

/-- Every character of a year text but its first one is a digit. -/
theorem yearText_cons (y : Int) : ∃ c digits, (yearText y).toList = c :: digits ∧
    ∀ d ∈ digits, d.isDigit = true := by
  rcases yearText_cases y with ⟨hlo, hhi, htext⟩ | ⟨-, htext⟩ | ⟨-, htext⟩
  · obtain ⟨c, digits, hcons, -⟩ := padded_cons (Nat.succ_pos 3) (n := y.toNat) (by omega)
    exact ⟨c, digits, htext.trans hcons, fun d hd =>
      isDigit_of_mem_padded (hcons ▸ List.mem_cons_of_mem c hd)⟩
  · exact ⟨'+', _, htext, fun _ => isDigit_of_mem_padded⟩
  · exact ⟨'-', _, htext, fun _ => isDigit_of_mem_padded⟩

theorem yearText_inj {y z : Int} (h : yearText y = yearText z) : y = z := by
  have hlist : (yearText y).toList = (yearText z).toList := congrArg String.toList h
  have hinj : ∀ {n m : Nat}, (padded 4 n).toList = (padded 4 m).toList → n = m :=
    fun hpad => padded_inj (String.toList_inj.mp hpad)
  have hsign : ∀ {n : Nat} {c : Char} {text : List Char}, n ≤ 9999 → c.isDigit = false →
      (padded 4 n).toList ≠ c :: text := by
    intro n c text hn hc heq
    have hmem : c ∈ (padded 4 n).toList := heq ▸ List.mem_cons_self
    have hdigit : c.isDigit = true := isDigit_of_mem_padded hmem
    rw [hc] at hdigit
    cases hdigit
  rcases yearText_cases y with ⟨hylo, hyhi, hy⟩ | ⟨hyear, hy⟩ | ⟨hyear, hy⟩ <;>
    rcases yearText_cases z with ⟨hzlo, hzhi, hz⟩ | ⟨hyear', hz⟩ | ⟨hyear', hz⟩ <;>
      rw [hy, hz] at hlist
  · have hn := hinj hlist
    omega
  · exact absurd hlist (hsign (by omega) rfl)
  · exact absurd hlist (hsign (by omega) rfl)
  · exact absurd hlist.symm (hsign (by omega) rfl)
  · have hn := hinj (List.cons.inj hlist).2
    omega
  · exact absurd (List.cons.inj hlist).1 (by decide)
  · exact absurd hlist.symm (hsign (by omega) rfl)
  · exact absurd (List.cons.inj hlist).1 (by decide)
  · have hn := hinj (List.cons.inj hlist).2
    omega

/-- What ends in a dash keeps the order of what has only larger characters. -/
theorem dash_lt_dash {xs ys : List Char} (us vs : List Char) (hys : ∀ c ∈ ys, '-' < c)
    (h : xs < ys) : xs ++ '-' :: us < ys ++ '-' :: vs := by
  induction xs generalizing ys with
  | nil =>
    cases ys with
    | nil => exact absurd h (List.not_lt_nil _)
    | cons y ys => exact List.cons_lt_cons_iff.mpr (.inl (hys y List.mem_cons_self))
  | cons x xs ih =>
    cases ys with
    | nil => exact absurd h (List.not_lt_nil _)
    | cons y ys =>
      rcases List.cons_lt_cons_iff.mp h with hlt | ⟨heq, htail⟩
      · exact List.cons_lt_cons_iff.mpr (.inl hlt)
      · exact List.cons_lt_cons_iff.mpr
          (.inr ⟨heq, ih (fun c hc => hys c (List.mem_cons_of_mem y hc)) htail⟩)

theorem yearText_lt {y z : Int} (us vs : List Char) (h : yearText y < yearText z) :
    (yearText y).toList ++ '-' :: us < (yearText z).toList ++ '-' :: vs := by
  obtain ⟨c, digits, hy, -⟩ := yearText_cons y
  obtain ⟨c', digits', hz, hdigits⟩ := yearText_cons z
  rw [String.lt_iff_toList_lt, hy, hz] at h
  rw [hy, hz]
  rcases List.cons_lt_cons_iff.mp h with hlt | ⟨rfl, htail⟩
  · exact List.cons_lt_cons_iff.mpr (.inl hlt)
  · refine cons_lt_cons_same (dash_lt_dash us vs (fun d hd => ?_) htail)
    have hdigit := IsDecimal.toNat_bounds (hdigits d hd)
    change 45 < d.toNat
    omega

/-- The year texts decide, or what comes after them. -/
theorem toRfc3339_lt_iff_yearText : a.toRfc3339 < b.toRfc3339 ↔
    yearText a.year < yearText b.year ∨ a.year = b.year ∧ a.afterYear < b.afterYear := by
  rw [String.lt_iff_toList_lt, toList_toRfc3339, toList_toRfc3339]
  have hsame : ∀ {xs ys zs : List Char}, xs ++ '-' :: ys < xs ++ '-' :: zs ↔ ys < zs := by
    intro xs ys zs
    induction xs with
    | nil => simp
    | cons x xs ih => simpa [List.cons_lt_cons_iff] using ih
  rcases lt_trichotomy (yearText a.year) (yearText b.year) with hlt | heq | hgt
  · exact iff_of_true (yearText_lt _ _ hlt) (.inl hlt)
  · have hyear := yearText_inj heq
    rw [hyear, hsame]
    simp
  · refine iff_of_false (yearText_lt _ _ hgt).asymm ?_
    rintro (hlt | ⟨heq, -⟩)
    · exact hlt.asymm hgt
    · rw [heq] at hgt
      exact absurd hgt (lt_irrefl _)

/-- The texts of the years are in the order of the years. -/
def TextsInOrder (a b : DateTime) : Prop :=
  a.year = b.year ∨ (yearText a.year < yearText b.year ↔ a.year < b.year)

/-- **Texts compare as times do** if and only if the texts of the years are in order. -/
theorem toRfc3339_lt_iff_lt : (a.toRfc3339 < b.toRfc3339 ↔ a < b) ↔ TextsInOrder a b := by
  rw [toRfc3339_lt_iff_yearText, lt_iff_year, TextsInOrder]
  by_cases hyear : a.year = b.year
  · simp [hyear]
  · simp [hyear]

/-- Seen from a readable year the texts are in order up to the year 9999. -/
theorem textsInOrder_iff (hb : b.isReadable = true) : TextsInOrder a b ↔ a.year ≤ 9999 := by
  obtain ⟨hlo, hhi⟩ := isReadable_iff_year.mp hb
  have hbtext : (yearText b.year).toList = (padded 4 b.year.toNat).toList :=
    congrArg String.toList (if_pos ⟨hlo, hhi⟩)
  have hbwidth : b.year.toNat < 10 ^ 4 := by omega
  unfold TextsInOrder
  rw [String.lt_iff_toList_lt, hbtext]
  rcases yearText_cases a.year with ⟨halo, hahi, ha⟩ | ⟨hyear, ha⟩ | ⟨hyear, ha⟩
  · refine iff_of_true (or_iff_not_imp_left.mpr fun hne => ?_) hahi
    have hdecimal : ∀ {y : Int}, 0 ≤ y → y ≤ 9999 →
        IsDecimal 4 y.toNat (padded 4 y.toNat).toList :=
      fun _ _ => isDecimal_padded (Nat.succ_pos 3) (by omega)
    rw [ha]
    constructor
    · intro hlt
      by_contra hge
      exact hlt.asymm ((hdecimal hlo hhi).lt_of_lt (hdecimal halo hahi) (by omega))
    · intro hlt
      exact (hdecimal halo hahi).lt_of_lt (hdecimal hlo hhi) (by omega)
  · have hlt := lt_padded (c := '+') (Nat.succ_pos 3) hbwidth (by decide)
      (padded 4 a.year.natAbs).toList []
    rw [List.append_nil] at hlt
    rw [ha]
    constructor
    · rintro (heq | hiff)
      · omega
      · exact absurd (hiff.mp hlt) (by omega)
    · intro h
      omega
  · have hlt := lt_padded (c := '-') (Nat.succ_pos 3) hbwidth (by decide)
      (padded 4 a.year.natAbs).toList []
    rw [List.append_nil] at hlt
    rw [ha]
    exact iff_of_true (.inr (iff_of_true hlt (by omega))) (by omega)

/-- In the years 0 to 9999 the texts are in the order of the times. -/
theorem toRfc3339_lt_iff (ha : a.isReadable = true) (hb : b.isReadable = true) :
    a.toRfc3339 < b.toRfc3339 ↔ a < b :=
  toRfc3339_lt_iff_lt.mpr ((textsInOrder_iff hb).mpr (isReadable_iff_year.mp ha).2)

theorem toRfc3339_le_iff (ha : a.isReadable = true) (hb : b.isReadable = true) :
    a.toRfc3339 ≤ b.toRfc3339 ↔ a ≤ b := by
  rw [← not_lt, toRfc3339_lt_iff hb ha]
  exact Int.not_lt

theorem toRfc3339_inj (ha : a.isReadable = true) (hb : b.isReadable = true) :
    a.toRfc3339 = b.toRfc3339 ↔ a = b := by
  refine ⟨fun h => ?_, fun h => h ▸ rfl⟩
  have hle : a.nanos ≤ b.nanos := (toRfc3339_le_iff ha hb).mp h.le
  have hge : b.nanos ≤ a.nanos := (toRfc3339_le_iff hb ha).mp h.ge
  exact ext_nanos (le_antisymm hle hge)

end Texts

end DateTime

end OsModa
