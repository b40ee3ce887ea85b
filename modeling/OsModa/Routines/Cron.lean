import Mathlib.Data.List.Infix
import OsModa.Base.IsoDay
import OsModa.Routines.Routine

/-!
Cron expressions: what the daemon matches, and what crontab(5) defines.

An expression is five fields, each a list of items. The daemon reads the text of an item
without knowing the field that it stands in (`itemMatches_text`): a step counts from zero in
every field, seven is no day of the week, and the five fields must all match
(`cronMatches_iff`).
-/

namespace OsModa.Routines

open OsModa.Text OsModa.Encoding

/-! ### Expressions -/

/-- A number of an expression, in decimal digits. -/
structure Numeral where
  digits : List Char
  wellFormed : digits ≠ [] ∧ digits.all Char.isDigit = true

def Numeral.value (n : Numeral) : Nat := Nat.ofDigitChars 10 n.digits 0

inductive CronItem where
  | every
  | step (n : Numeral)
  | value (n : Numeral)
  | range (first last : Numeral)

def CronItem.text : CronItem → List Char
  | every => ['*']
  | step n => '*' :: '/' :: n.digits
  | value n => n.digits
  | range first last => first.digits ++ '-' :: last.digits

/-- A comma list. -/
structure CronField where
  items : List CronItem
  nonempty : items ≠ []

def CronField.text (f : CronField) : List Char := [','].intercalate (f.items.map CronItem.text)

structure CronExpression where
  minute : CronField
  hour : CronField
  dayOfMonth : CronField
  month : CronField
  dayOfWeek : CronField

/-- The words of a text are the fields of the expression. -/
def CronExpression.SpelledBy (u : Unicode) (e : CronExpression) (text : String) : Prop :=
  splitWhitespace u text.toList =
    [e.minute.text, e.hour.text, e.dayOfMonth.text, e.month.text, e.dayOfWeek.text]

/-- The calendar minute of a reading. -/
structure CalendarMinute where
  minute : Nat
  hour : Nat
  dayOfMonth : Nat
  month : Nat
  /-- From Sunday. -/
  dayOfWeek : Nat

def CalendarMinute.of (now : DateTime) : CalendarMinute :=
  let secs := now.nanos / 1000000000
  let date := DateTime.civilFromDays (secs / 86400)
  ⟨(secs / 60 % 60).toNat, (secs / 3600 % 24).toNat, date.2.2.toNat, date.2.1.toNat,
    ((secs / 86400 + 4) % 7).toNat⟩

/-! ### What crontab(5) defines -/

/-- The values of an item, in a field whose values start at `low`. -/
def CronItem.Denotes (low : Nat) : CronItem → Nat → Prop
  | every, _ => True
  | step n, v => ∃ k, v = low + k * n.value
  | value n, v => v = n.value
  | range first last, v => first.value ≤ v ∧ v ≤ last.value

def CronField.Denotes (low : Nat) (f : CronField) (v : Nat) : Prop :=
  ∃ i ∈ f.items, i.Denotes low v

/-- Sunday is 0 or 7. -/
def CronField.DenotesWeekday (f : CronField) (v : Nat) : Prop :=
  f.Denotes 0 v ∨ v = 0 ∧ f.Denotes 0 7

/-- The item has no `*`. -/
def CronItem.isStarless : CronItem → Bool
  | every | step _ => false
  | value _ | range .. => true

def CronField.Restricted (f : CronField) : Prop := ∀ i ∈ f.items, i.isStarless = true

open Classical in
/-- The command is run when minute, hour and month match and the day does; if both day fields
are restricted, one of them is enough. -/
def CronExpression.Crontab (e : CronExpression) (t : CalendarMinute) : Prop :=
  e.minute.Denotes 0 t.minute ∧ e.hour.Denotes 0 t.hour ∧ e.month.Denotes 1 t.month ∧
    if e.dayOfMonth.Restricted ∧ e.dayOfWeek.Restricted then
      e.dayOfMonth.Denotes 1 t.dayOfMonth ∨ e.dayOfWeek.DenotesWeekday t.dayOfWeek
    else e.dayOfMonth.Denotes 1 t.dayOfMonth ∧ e.dayOfWeek.DenotesWeekday t.dayOfWeek

/-! ### What the daemon matches -/

/-- The values that an item matches, in every field. A number that does not fit in 32 bits
is not read. -/
def CronItem.Matches : CronItem → Nat → Prop
  | every, _ => True
  | step n, v => 0 < n.value ∧ n.value < 2 ^ 32 ∧ n.value ∣ v
  | value n, v => v = n.value
  | range first last, v => first.value ≤ v ∧ v ≤ last.value ∧ last.value < 2 ^ 32

def CronField.Matches (f : CronField) (v : Nat) : Prop := ∃ i ∈ f.items, i.Matches v

def CronExpression.Matches (e : CronExpression) (t : CalendarMinute) : Prop :=
  e.minute.Matches t.minute ∧ e.hour.Matches t.hour ∧ e.dayOfMonth.Matches t.dayOfMonth ∧
    e.month.Matches t.month ∧ e.dayOfWeek.Matches t.dayOfWeek

/-! ### Reading the text -/

section Items

variable {n : Numeral} {i : CronItem} {v : Nat}

theorem Numeral.isDigit_of_mem {c : Char} (h : c ∈ n.digits) : c.isDigit = true :=
  List.all_eq_true.mp n.wellFormed.2 c h

theorem Numeral.not_mem {c : Char} (h : c.isDigit = false) : c ∉ n.digits := fun hmem =>
  absurd ((n.isDigit_of_mem hmem).symm.trans h) (by decide)

theorem Numeral.star_not_mem (n : Numeral) : '*' ∉ n.digits := n.not_mem rfl

theorem Numeral.dash_not_mem (n : Numeral) : '-' ∉ n.digits := n.not_mem rfl

theorem parseUnsigned_numeral (bits : Nat) :
    parseUnsigned bits n.digits = (some n.value).filter (· < 2 ^ bits) := by
  have hplus : n.digits.head? ≠ some '+' := fun h =>
    n.not_mem rfl (List.mem_of_head? h)
  rw [parseUnsigned, if_neg hplus, parseDigits, if_pos n.wellFormed, Numeral.value]

/-- A numeral is read as its value, if this fits. -/
theorem parseUnsigned_of_lt {bits : Nat} (h : n.value < 2 ^ bits) :
    parseUnsigned bits n.digits = some n.value := by
  rw [parseUnsigned_numeral]
  exact Option.filter_eq_some_iff.mpr ⟨rfl, decide_eq_true h⟩

theorem parseUnsigned_of_not_lt {bits : Nat} (h : ¬ n.value < 2 ^ bits) :
    parseUnsigned bits n.digits = none := by
  rw [parseUnsigned_numeral]
  simpa [Option.filter] using h

/-- A text with another character than a digit or a leading plus is no number. -/
theorem parseUnsigned_eq_none {bits : Nat} {s : List Char} {c : Char} (hc : c ∈ s)
    (hdigit : c.isDigit = false) (hplus : c ≠ '+') : parseUnsigned bits s = none := by
  rw [Option.eq_none_iff_forall_ne_some]
  intro m hm
  rcases (parseUnsigned_chars hm).2 c hc with h | h
  · exact absurd (h.symm.trans hdigit) (by decide)
  · exact hplus h

theorem Numeral.ne_star (n : Numeral) : n.digits ≠ ['*'] := fun h =>
  n.star_not_mem (by simp [h])

/-- An item without a star is no step. -/
theorem no_star_slash {s : List Char} (h : '*' ∉ s) : ¬ ['*', '/'] <+: s := fun hstart =>
  h (hstart.subset List.mem_cons_self)

theorem itemMatches_every : itemMatches CronItem.every.text v = true := by
  simp [CronItem.text, itemMatches]

theorem itemMatches_step :
    itemMatches (CronItem.step n).text v = true ↔ (CronItem.step n).Matches v := by
  have hstar : '*' :: '/' :: n.digits ≠ ['*'] := by simp
  have hpre : ['*', '/'] <+: '*' :: '/' :: n.digits := ⟨n.digits, rfl⟩
  have hdrop : ('*' :: '/' :: n.digits).drop 2 = n.digits := rfl
  rw [CronItem.text, itemMatches, if_neg hstar, if_pos hpre, hdrop, CronItem.Matches]
  by_cases hlt : n.value < 2 ^ 32
  · rw [parseUnsigned_of_lt hlt]
    by_cases hzero : n.value = 0
    · simp [hzero]
    · rw [and_iff_right hlt, and_iff_right (Nat.pos_of_ne_zero hzero)]
      simp [hzero, Nat.dvd_iff_mod_eq_zero]
  · -- A step that does not fit is then taken for a number, which it is not.
    have hdash : '-' ∉ '*' :: '/' :: n.digits := by
      simpa using n.dash_not_mem
    have hnone : parseUnsigned 32 ('*' :: '/' :: n.digits) = none :=
      parseUnsigned_eq_none List.mem_cons_self rfl (by decide)
    rw [parseUnsigned_of_not_lt hlt, List.splitOn_eq_singleton hdash, hnone]
    exact iff_of_false (by simp) fun h => hlt h.2.1

theorem itemMatches_value (hv : v < 2 ^ 32) :
    itemMatches (CronItem.value n).text v = true ↔ (CronItem.value n).Matches v := by
  have hpre : ¬ ['*', '/'] <+: n.digits := no_star_slash n.star_not_mem
  rw [CronItem.text, itemMatches, if_neg n.ne_star, if_neg hpre,
    List.splitOn_eq_singleton n.dash_not_mem, CronItem.Matches]
  by_cases hlt : n.value < 2 ^ 32
  · rw [parseUnsigned_of_lt hlt]
    simp [eq_comm]
  · rw [parseUnsigned_of_not_lt hlt]
    exact iff_of_false (by simp) fun h => hlt (h ▸ hv)

theorem itemMatches_range {first last : Numeral} (hv : v < 2 ^ 32) :
    itemMatches (CronItem.range first last).text v = true ↔
      (CronItem.range first last).Matches v := by
  have hnostar : '*' ∉ first.digits ++ '-' :: last.digits := by
    simp [first.star_not_mem, last.star_not_mem]
  have hstar : first.digits ++ '-' :: last.digits ≠ ['*'] := fun h => hnostar (by simp [h])
  have hsplit : (first.digits ++ '-' :: last.digits).splitOn '-' =
      [first.digits, last.digits] := by
    rw [List.splitOn_append_cons_self_of_not_mem first.dash_not_mem,
      List.splitOn_eq_singleton last.dash_not_mem]
  have hnone : parseUnsigned 32 (first.digits ++ '-' :: last.digits) = none :=
    parseUnsigned_eq_none (c := '-') (by simp) rfl (by decide)
  rw [CronItem.text, itemMatches, if_neg hstar, if_neg (no_star_slash hnostar), hsplit, hnone,
    CronItem.Matches]
  dsimp only
  by_cases hlast : last.value < 2 ^ 32
  · rw [parseUnsigned_of_lt hlast, and_iff_left hlast]
    by_cases hfirst : first.value < 2 ^ 32
    · rw [parseUnsigned_of_lt hfirst]
      simp
    · rw [parseUnsigned_of_not_lt hfirst]
      exact iff_of_false (by simp) fun h => hfirst (h.1.trans_lt hv)
  · rw [parseUnsigned_of_not_lt hlast]
    refine iff_of_false ?_ fun h => hlast h.2.2
    cases parseUnsigned 32 first.digits <;> simp

/-- An item is matched against a value of any field. -/
theorem itemMatches_text (i : CronItem) (hv : v < 2 ^ 32) :
    itemMatches i.text v = true ↔ i.Matches v := by
  cases i with
  | every => exact iff_of_true itemMatches_every trivial
  | step n => exact itemMatches_step
  | value n => exact itemMatches_value hv
  | range first last => exact itemMatches_range hv

theorem CronItem.mem_text {c : Char} (h : c ∈ i.text) : c.isDigit = true ∨ c ∈ ['*', '/', '-'] := by
  cases i with
  | every =>
    obtain rfl := List.mem_singleton.mp h
    exact .inr (by decide)
  | step n =>
    rcases List.mem_cons.mp h with rfl | h
    · exact .inr (by decide)
    · rcases List.mem_cons.mp h with rfl | h
      · exact .inr (by decide)
      · exact .inl (n.isDigit_of_mem h)
  | value n => exact .inl (n.isDigit_of_mem h)
  | range first last =>
    rcases List.mem_append.mp h with h | h
    · exact .inl (first.isDigit_of_mem h)
    · rcases List.mem_cons.mp h with rfl | h
      · exact .inr (by decide)
      · exact .inl (last.isDigit_of_mem h)

theorem CronItem.comma_not_mem (i : CronItem) : ',' ∉ i.text := by
  intro h
  rcases i.mem_text h with h | h <;> exact absurd h (by decide)

theorem CronItem.not_blank (u : Unicode) (i : CronItem) :
    ∀ c ∈ i.text, u.isWhitespace c = false := by
  intro c hc
  rcases i.mem_text hc with h | h
  · obtain ⟨hlow, hhigh⟩ := Char.isDigit_iff_toNat.mp h
    have hzero : '0'.toNat = 48 := rfl
    have hnine : '9'.toNat = 57 := rfl
    have hspace : c ≠ ' ' := by
      rintro rfl
      exact absurd h (by decide)
    rw [u.isWhitespace_ascii c (by omega), asciiWhitespace]
    simp only [hspace, decide_false, Bool.false_or]
    simp
    omega
  · simp only [List.mem_cons, List.not_mem_nil, or_false] at h
    rcases h with rfl | rfl | rfl <;> exact u.isWhitespace_ascii _ (by decide)

theorem CronItem.trim_text (u : Unicode) (i : CronItem) : trim u i.text = i.text :=
  trim_eq_self u (i.not_blank u)

theorem CronItem.text_ne_nil (i : CronItem) : i.text ≠ [] := by
  cases i with
  | every => exact List.cons_ne_nil _ _
  | step n => exact List.cons_ne_nil _ _
  | value n => exact n.wellFormed.1
  | range first last => exact List.append_ne_nil_of_right_ne_nil _ (List.cons_ne_nil _ _)

end Items

/-! ### Fields -/

theorem CronField.splitOn_text (f : CronField) :
    f.text.splitOn ',' = f.items.map CronItem.text := by
  refine List.splitOn_intercalate ',' (fun s hs => ?_) (by simpa using f.nonempty)
  obtain ⟨i, -, rfl⟩ := List.mem_map.mp hs
  exact i.comma_not_mem

theorem fieldMatches_text (u : Unicode) (f : CronField) {v : Nat} (hv : v < 2 ^ 32) :
    fieldMatches u f.text v = true ↔ f.Matches v := by
  have hitems : ((f.items.map CronItem.text).any fun s => itemMatches (trim u s) v) = true ↔
      f.Matches v := by
    simp [CronField.Matches, CronItem.trim_text, itemMatches_text _ hv]
  rw [← hitems, ← f.splitOn_text, fieldMatches]
  split
  · rfl
  · -- Without a comma there is one item, and it is the whole text.
    rename_i hcomma
    have hone := List.splitOn_eq_singleton hcomma
    obtain ⟨i, hi⟩ : ∃ i : CronItem, f.text = i.text := by
      rw [f.splitOn_text] at hone
      obtain ⟨i, -, hi⟩ := List.mem_map.mp (hone ▸ List.mem_singleton_self f.text)
      exact ⟨i, hi.symm⟩
    rw [hone, List.any_cons, List.any_nil, Bool.or_false, hi, i.trim_text]

/-! ### Expressions as words -/

section Words

variable (u : Unicode)

theorem scanWords_word {w : List Char} (hw : ∀ c ∈ w, u.isWhitespace c = false) (s : List Char) :
    scanWords u (w ++ s) = (w ++ (scanWords u s).1, (scanWords u s).2) := by
  induction w with
  | nil => rfl
  | cons c w ih =>
    obtain ⟨hc, hw⟩ := List.forall_mem_cons.mp hw
    rw [List.cons_append, scanWords, ih hw, hc]
    rfl

/-- The first word ends at a blank. -/
theorem splitWhitespace_word {w : List Char} (hw : ∀ c ∈ w, u.isWhitespace c = false)
    (hne : w ≠ []) (s : List Char) :
    splitWhitespace u (w ++ ' ' :: s) = w :: splitWhitespace u s := by
  have hblank : scanWords u (' ' :: s) = ([], splitWhitespace u s) := by
    rw [scanWords, u.isWhitespace_space]
    rfl
  rw [splitWhitespace, scanWords_word u hw, hblank, List.append_nil]
  exact if_neg hne

theorem splitWhitespace_last {w : List Char} (hw : ∀ c ∈ w, u.isWhitespace c = false)
    (hne : w ≠ []) : splitWhitespace u w = [w] := by
  have hscan := scanWords_word u hw []
  rw [List.append_nil] at hscan
  rw [splitWhitespace, hscan, scanWords, List.append_nil]
  exact if_neg hne

theorem forall_mem_intercalate {P : Char → Prop} {sep : List Char} (hsep : ∀ c ∈ sep, P c)
    {ws : List (List Char)} (hws : ∀ w ∈ ws, ∀ c ∈ w, P c) : ∀ c ∈ sep.intercalate ws, P c := by
  induction ws with
  | nil => simp
  | cons w ws ih =>
    obtain ⟨hw, hrest⟩ := List.forall_mem_cons.mp hws
    cases ws with
    | nil => simpa using hw
    | cons v vs =>
      rw [List.intercalate_cons_cons, List.forall_mem_append, List.forall_mem_append]
      exact ⟨⟨hw, hsep⟩, ih hrest⟩

theorem CronField.not_blank (f : CronField) : ∀ c ∈ f.text, u.isWhitespace c = false := by
  refine forall_mem_intercalate (fun c hc => ?_) (fun w hw => ?_)
  · obtain rfl := List.mem_singleton.mp hc
    exact u.isWhitespace_ascii _ (by decide)
  · obtain ⟨i, -, rfl⟩ := List.mem_map.mp hw
    exact i.not_blank u

theorem CronField.text_ne_nil (f : CronField) : f.text ≠ [] := by
  intro hnil
  have hparts := f.splitOn_text
  rw [hnil, List.splitOn_nil] at hparts
  obtain ⟨i, -, hi⟩ := List.mem_map.mp (hparts ▸ List.mem_singleton_self [])
  exact i.text_ne_nil hi

/-- The fields with a blank between each two. -/
def CronExpression.text (e : CronExpression) : String :=
  .ofList (e.minute.text ++ ' ' :: e.hour.text ++ ' ' :: e.dayOfMonth.text ++ ' ' ::
    e.month.text ++ ' ' :: e.dayOfWeek.text)

theorem CronExpression.spelledBy_text (e : CronExpression) : e.SpelledBy u e.text := by
  have hword := fun f : CronField => splitWhitespace_word u (f.not_blank u) f.text_ne_nil
  have hlast := fun f : CronField => splitWhitespace_last u (f.not_blank u) f.text_ne_nil
  simp only [SpelledBy, text, String.toList_ofList, List.append_assoc, List.cons_append, hword,
    hlast]

end Words

/-! ### Expressions -/

theorem calendarFields_eq (now : DateTime) : calendarFields now =
    [(CalendarMinute.of now).minute, (CalendarMinute.of now).hour,
      (CalendarMinute.of now).dayOfMonth, (CalendarMinute.of now).month,
      (CalendarMinute.of now).dayOfWeek] := rfl

/-- The fields of a calendar minute are in their ranges. -/
theorem CalendarMinute.of_bounds (now : DateTime) :
    (CalendarMinute.of now).minute < 60 ∧ (CalendarMinute.of now).hour < 24 ∧
      (1 ≤ (CalendarMinute.of now).dayOfMonth ∧ (CalendarMinute.of now).dayOfMonth ≤ 31) ∧
      (1 ≤ (CalendarMinute.of now).month ∧ (CalendarMinute.of now).month ≤ 12) ∧
      (CalendarMinute.of now).dayOfWeek < 7 := by
  have hdate := DateTime.civilFromDays_bounds (now.nanos / 1000000000 / 86400)
  simp only [CalendarMinute.of]
  omega

theorem cronMatches_iff_matches {u : Unicode} {e : CronExpression} {text : String}
    (htext : e.SpelledBy u text) (now : DateTime) :
    cronMatches u text now = true ↔ e.Matches (.of now) := by
  obtain ⟨hminute, hhour, hday, hmonth, hweekday⟩ := CalendarMinute.of_bounds now
  unfold CronExpression.SpelledBy at htext
  rw [cronMatches, htext, calendarFields_eq]
  simp only [List.length_cons, List.length_nil, ne_eq, not_true_eq_false, if_false,
    List.zip_cons_cons, List.zip_nil_right, List.all_cons, List.all_nil, Bool.and_true,
    Bool.and_eq_true, CronExpression.Matches]
  rw [fieldMatches_text u e.minute (by omega), fieldMatches_text u e.hour (by omega),
    fieldMatches_text u e.dayOfMonth (by omega), fieldMatches_text u e.month (by omega),
    fieldMatches_text u e.dayOfWeek (by omega)]

/-! ### Where the two agree -/

/-- The numbers fit in 32 bits, and the steps are positive. -/
def CronItem.Readable : CronItem → Prop
  | every => True
  | step n => 0 < n.value ∧ n.value < 2 ^ 32
  | value n => n.value < 2 ^ 32
  | range first last => first.value < 2 ^ 32 ∧ last.value < 2 ^ 32

/-- The item has no step above one. -/
def CronItem.Unstepped : CronItem → Prop
  | step n => n.value = 1
  | _ => True

/-- The expression means the same to both: its numbers are read, the days of the month and the
months have no steps, not both day fields are restricted, and seven is a day of the week only
where zero is. -/
structure CronExpression.Common (e : CronExpression) : Prop where
  readable : ∀ f ∈ [e.minute, e.hour, e.dayOfMonth, e.month, e.dayOfWeek],
    ∀ i ∈ f.items, i.Readable
  unstepped : ∀ f ∈ [e.dayOfMonth, e.month], ∀ i ∈ f.items, i.Unstepped
  oneDay : ¬ (e.dayOfMonth.Restricted ∧ e.dayOfWeek.Restricted)
  sunday : e.dayOfWeek.Denotes 0 7 → e.dayOfWeek.Denotes 0 0

section Common

variable {i : CronItem} {f : CronField} {v : Nat}

/-- In a field that starts at zero, an item that is read means what it says. -/
theorem CronItem.matches_iff_denotes_zero (h : i.Readable) : i.Matches v ↔ i.Denotes 0 v := by
  cases i with
  | every => exact Iff.rfl
  | step n =>
    rw [Matches, Denotes, and_iff_right h.1, and_iff_right h.2]
    simp [Dvd.dvd, Nat.mul_comm]
  | value n => exact Iff.rfl
  | range first last => rw [Matches, Denotes, and_iff_left h.2]

/-- Elsewhere, if it has no steps. -/
theorem CronItem.matches_iff_denotes_one (h : i.Readable) (hstep : i.Unstepped) (hv : 1 ≤ v) :
    i.Matches v ↔ i.Denotes 1 v := by
  cases i with
  | every => exact Iff.rfl
  | step n =>
    have hone : n.value = 1 := hstep
    rw [Matches, Denotes, hone]
    exact iff_of_true ⟨by decide, by decide, Nat.one_dvd v⟩ ⟨v - 1, by omega⟩
  | value n => exact Iff.rfl
  | range first last => rw [Matches, Denotes, and_iff_left h.2]

theorem CronField.matches_iff_denotes_zero (h : ∀ i ∈ f.items, i.Readable) :
    f.Matches v ↔ f.Denotes 0 v :=
  exists_congr fun i => and_congr_right fun hi => i.matches_iff_denotes_zero (h i hi)

theorem CronField.matches_iff_denotes_one (h : ∀ i ∈ f.items, i.Readable)
    (hstep : ∀ i ∈ f.items, i.Unstepped) (hv : 1 ≤ v) : f.Matches v ↔ f.Denotes 1 v :=
  exists_congr fun i => and_congr_right fun hi =>
    i.matches_iff_denotes_one (h i hi) (hstep i hi) hv

theorem CronExpression.matches_iff_crontab {e : CronExpression} (h : e.Common) (now : DateTime) :
    e.Matches (.of now) ↔ e.Crontab (.of now) := by
  obtain ⟨hreadable, hunstepped, hone, hsunday⟩ := h
  simp only [List.forall_mem_cons, List.not_mem_nil, false_implies, implies_true,
    and_true] at hreadable hunstepped
  obtain ⟨hminute, hhour, hday, hmonth, hweekday⟩ := hreadable
  obtain ⟨-, -, ⟨hdayLow, -⟩, ⟨hmonthLow, -⟩, -⟩ := CalendarMinute.of_bounds now
  have hseven : e.dayOfWeek.DenotesWeekday (CalendarMinute.of now).dayOfWeek ↔
      e.dayOfWeek.Denotes 0 (CalendarMinute.of now).dayOfWeek :=
    or_iff_left_of_imp fun h => h.1 ▸ hsunday h.2
  rw [Crontab, if_neg hone, hseven, Matches, CronField.matches_iff_denotes_zero hminute,
    CronField.matches_iff_denotes_zero hhour,
    CronField.matches_iff_denotes_one hday hunstepped.1 hdayLow,
    CronField.matches_iff_denotes_one hmonth hunstepped.2 hmonthLow,
    CronField.matches_iff_denotes_zero hweekday]
  tauto

end Common

/-- The daemon matches an expression if all five fields match, each with steps from zero and
days of the week from zero to six; that is what crontab(5) defines, on the expressions that mean
the same to both. -/
theorem cronMatches_iff (u : Unicode) (e : CronExpression) (text : String)
    (htext : e.SpelledBy u text) (now : DateTime) :
    (cronMatches u text now = true ↔ e.Matches (.of now)) ∧
      (e.Common → (cronMatches u text now = true ↔ e.Crontab (.of now))) :=
  ⟨cronMatches_iff_matches htext now, fun hcommon =>
    (cronMatches_iff_matches htext now).trans (e.matches_iff_crontab hcommon now)⟩

/-! ### Where they differ -/

def Numeral.ofNat (n : Nat) : Numeral :=
  ⟨decimal n, Nat.toDigits_ne_nil, List.all_eq_true.mpr fun _ hc => isDigit_of_mem_decimal hc⟩

def CronField.single (i : CronItem) : CronField := ⟨[i], List.cons_ne_nil i []⟩

/-- At midnight, on the days that these two fields leave. -/
def midnightOn (dayOfMonth dayOfWeek : CronItem) : CronExpression where
  minute := .single (.value (.ofNat 0))
  hour := .single (.value (.ofNat 0))
  dayOfMonth := .single dayOfMonth
  month := .single .every
  dayOfWeek := .single dayOfWeek

/-- On working days. -/
def onWorkingDays : CronExpression := midnightOn .every (.range (.ofNat 1) (.ofNat 5))

/-- Every second day of the month. -/
def everySecondDay : CronExpression := midnightOn (.step (.ofNat 2)) .every

/-- On the thirteenth, and on Mondays. -/
def thirteenthAndMondays : CronExpression := midnightOn (.value (.ofNat 13)) (.value (.ofNat 1))

/-- On Sundays, written as the end of the week. -/
def sundays : CronExpression := midnightOn .every (.value (.ofNat 7))

/-- 2024-01-01, a Monday. -/
def newYear : DateTime := ⟨1704067200000000000, by decide⟩

/-- The Sunday before. -/
def newYearsEve : DateTime := ⟨1703980800000000000, by decide⟩

theorem onWorkingDays_matches : onWorkingDays.SpelledBy .ascii "0 0 * * 1-5" ∧
    (cronMatches .ascii "0 0 * * 1-5" newYear = true ↔ onWorkingDays.Matches (.of newYear)) ∧
      (onWorkingDays.Common →
        (cronMatches .ascii "0 0 * * 1-5" newYear = true ↔ onWorkingDays.Crontab (.of newYear))) :=
  ⟨rfl, cronMatches_iff .ascii onWorkingDays "0 0 * * 1-5" rfl newYear⟩

/-- A step counts from the first day for crontab(5), and from zero here; of two restricted day
fields one is enough there, and both must match here; seven is a Sunday there, and no day
here. -/
theorem crontab_differs :
    (everySecondDay.SpelledBy .ascii "0 0 */2 * *" ∧
      everySecondDay.Crontab (.of newYear) ∧
      cronMatches .ascii "0 0 */2 * *" newYear = false) ∧
    (thirteenthAndMondays.SpelledBy .ascii "0 0 13 * 1" ∧
      thirteenthAndMondays.Crontab (.of newYear) ∧
      cronMatches .ascii "0 0 13 * 1" newYear = false) ∧
    sundays.SpelledBy .ascii "0 0 * * 7" ∧
      sundays.Crontab (.of newYearsEve) ∧
      cronMatches .ascii "0 0 * * 7" newYearsEve = false := by
  have hmonday : CalendarMinute.of newYear = ⟨0, 0, 1, 1, 1⟩ := rfl
  have hsunday : CalendarMinute.of newYearsEve = ⟨0, 0, 31, 12, 0⟩ := rfl
  have hone : Numeral.value (.ofNat 1) = 1 := rfl
  have hseven : Numeral.value (.ofNat 7) = 7 := rfl
  have hzero : Numeral.value (.ofNat 0) = 0 := rfl
  refine ⟨⟨rfl, ?_, rfl⟩, ⟨rfl, ?_, rfl⟩, rfl, ?_, rfl⟩
  · simp [everySecondDay, midnightOn, CronExpression.Crontab, CronField.Restricted,
      CronField.single, CronField.Denotes, CronField.DenotesWeekday, CronItem.Denotes,
      CronItem.isStarless, hmonday, hzero]
  · simp [thirteenthAndMondays, midnightOn, CronExpression.Crontab, CronField.Restricted,
      CronField.single, CronField.Denotes, CronField.DenotesWeekday, CronItem.Denotes,
      CronItem.isStarless, hmonday, hzero, hone]
  · simp [sundays, midnightOn, CronExpression.Crontab, CronField.Restricted,
      CronField.single, CronField.Denotes, CronField.DenotesWeekday, CronItem.Denotes,
      CronItem.isStarless, hsunday, hzero, hseven]

end OsModa.Routines
