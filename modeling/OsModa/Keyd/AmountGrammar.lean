import OsModa.Keyd.FixedAmount

/-!
Which texts are amounts, and of how much.

An amount is digits, and after a point up to eighteen more (`IsAmount`). The parser is
made of two parsers of `u128`, each of which takes a plus sign, and it counts the
decimals in a `u32`; so it reads some more texts (`ReadsAs`). Apart from those it reads
amounts and nothing else (`fromStr_grammar_iff`), and it reads back what is displayed.
-/

namespace OsModa.Keyd

open OsModa.Text OsModa.Encoding

namespace FixedAmount

/-! ### The grammar -/

/-- Nothing but ASCII digits. -/
def AllDigits (s : List Char) : Prop := ∀ c ∈ s, c.isDigit = true

def digitsValue (s : List Char) : Nat := Nat.ofDigitChars 10 s 0

/-- The text is an amount, of `n` units of the last decimal place. -/
def IsAmount (t : List Char) (n : Nat) : Prop :=
  ∃ integer fraction, (t = integer ∧ fraction = [] ∨ t = integer ++ '.' :: fraction) ∧
    integer ≠ [] ∧ AllDigits integer ∧ AllDigits fraction ∧ fraction.length ≤ decimals ∧
    n = digitsValue integer * 10 ^ decimals +
      digitsValue fraction * 10 ^ (decimals - fraction.length)

/-- The text without a plus sign in front. -/
def dropPlus (s : List Char) : List Char := if s.head? = some '+' then s.tail else s

/-- What the parser reads: digits behind an optional plus sign on either side of the point,
with the decimals counted modulo `2 ^ 32`. -/
structure ReadsAs (t : List Char) (n : Nat) : Prop where
  integer_ne : dropPlus (splitPoint t).1 ≠ []
  integer : AllDigits (dropPlus (splitPoint t).1)
  fraction_ne : (splitPoint t).2 ≠ [] → dropPlus (splitPoint t).2 ≠ []
  fraction : AllDigits (dropPlus (splitPoint t).2)
  places : (splitPoint t).2.length % 2 ^ 32 ≤ decimals
  value : n = digitsValue (dropPlus (splitPoint t).1) * 10 ^ decimals +
    digitsValue (dropPlus (splitPoint t).2) *
      10 ^ (decimals - (splitPoint t).2.length % 2 ^ 32)

/-- A sign before the integer part or the decimals, or so many decimals that their count
wraps around. -/
def Irregular (t : List Char) : Prop :=
  (splitPoint t).1.head? = some '+' ∨ (splitPoint t).2.head? = some '+' ∨
    2 ^ 32 ≤ (splitPoint t).2.length

/-! ### The parsers -/

theorem parseDigits_eq_some_iff {s : List Char} {n : Nat} :
    parseDigits s = some n ↔ s ≠ [] ∧ AllDigits s ∧ n = digitsValue s := by
  unfold parseDigits
  split
  · rename_i h
    rw [Option.some.injEq]
    constructor
    · rintro rfl
      exact ⟨h.1, List.all_eq_true.mp h.2, rfl⟩
    · rintro ⟨-, -, rfl⟩
      rfl
  · rename_i h
    refine iff_of_false nofun ?_
    rintro ⟨hne, hall, -⟩
    exact h ⟨hne, List.all_eq_true.mpr hall⟩

theorem parseUnsigned_eq_some_iff {bits n : Nat} {s : List Char} :
    parseUnsigned bits s = some n ↔
      (dropPlus s ≠ [] ∧ AllDigits (dropPlus s) ∧ n = digitsValue (dropPlus s)) ∧ n < 2 ^ bits := by
  rw [parseUnsigned, Option.filter_eq_some_iff, decide_eq_true_iff]
  exact and_congr_left fun _ => parseDigits_eq_some_iff

/-- Digits and plus signs are single bytes. -/
theorem byteLen_of_dropPlus {s : List Char} (h : AllDigits (dropPlus s)) :
    byteLen s = s.length := by
  have hascii : ∀ {t : List Char}, AllDigits t → byteLen t = t.length := by
    intro t ht
    induction t with
    | nil => rfl
    | cons c t ih =>
      obtain ⟨hc, ht⟩ := List.forall_mem_cons.mp ht
      have hsize : c.utf8Size = 1 := by
        have hrange : 48 ≤ c.toNat ∧ c.toNat ≤ 57 := Char.isDigit_iff_toNat.mp hc
        rw [Char.utf8Size_eq_one_iff, UInt32.le_iff_toNat_le]
        exact le_trans hrange.2 (by decide)
      have hrest := ih ht
      unfold byteLen at hrest ⊢
      rw [List.map_cons, List.sum_cons, hrest, hsize, List.length_cons, Nat.add_comm]
  unfold dropPlus at h
  split at h
  · rename_i hplus
    obtain ⟨t, rfl⟩ := List.head?_eq_some_iff.mp hplus
    have htail : byteLen t = t.length := hascii h
    unfold byteLen at htail ⊢
    rw [List.map_cons, List.sum_cons, htail, List.length_cons, Nat.add_comm]
    rfl
  · exact hascii h

/-- The decimals are read as scaled to eighteen places. -/
theorem parseFraction_eq_some_iff {f : List Char} {a : FixedAmount} :
    parseFraction f = some a ↔
      (f ≠ [] → dropPlus f ≠ []) ∧ AllDigits (dropPlus f) ∧ f.length % 2 ^ 32 ≤ decimals ∧
        a.val = digitsValue (dropPlus f) * 10 ^ (decimals - f.length % 2 ^ 32) := by
  unfold parseFraction
  split
  · rename_i hnil
    subst hnil
    constructor
    · intro h
      obtain rfl := Option.some.inj h
      exact ⟨fun h => absurd rfl h, nofun, by decide, rfl⟩
    · rintro ⟨-, -, -, hval⟩
      have hzero : a.val = zero.val := hval.trans (Nat.zero_mul _)
      rw [show a = zero from by cases a; cases hzero; rfl]
  · rename_i hne
    dsimp only
    constructor
    · intro h
      split at h
      · cases h
      · rename_i hplaces
        obtain ⟨n, hparse, hscaled⟩ := Option.bind_eq_some_iff.mp h
        obtain ⟨⟨hdigits, hall, rfl⟩, -⟩ := parseUnsigned_eq_some_iff.mp hparse
        rw [byteLen_of_dropPlus hall] at hplaces hscaled
        exact ⟨fun _ => hdigits, hall, Nat.not_lt.mp hplaces, (checked_eq_some.mp hscaled).symm⟩
    · rintro ⟨hdigits, hall, hplaces, hval⟩
      have hlt : digitsValue (dropPlus f) < 2 ^ 128 := by
        refine lt_of_le_of_lt ?_ a.lt
        rw [hval]
        exact Nat.le_mul_of_pos_right _ (Nat.pow_pos (by decide))
      rw [byteLen_of_dropPlus hall, if_neg (Nat.not_lt.mpr hplaces),
        parseUnsigned_eq_some_iff.mpr ⟨⟨hdigits hne, hall, rfl⟩, hlt⟩, Option.bind_some,
        checked_eq_some, hval]

/-- What is read is a text that `ReadsAs` describes, as long as it fits. -/
theorem fromStr_eq_some_iff {u : Unicode} {str : String} {a : FixedAmount} :
    fromStr u str = some a ↔ ReadsAs (trim u str.toList) a.val := by
  unfold fromStr
  dsimp only
  constructor
  · intro h
    split at h
    · cases h
    · obtain ⟨integer, hinteger, h⟩ := Option.bind_eq_some_iff.mp h
      obtain ⟨fraction, hfraction, h⟩ := Option.bind_eq_some_iff.mp h
      obtain ⟨whole, hwhole, hsum⟩ := Option.bind_eq_some_iff.mp h
      obtain ⟨⟨hne, hall, rfl⟩, -⟩ := parseUnsigned_eq_some_iff.mp hinteger
      obtain ⟨hfne, hfall, hplaces, hval⟩ := parseFraction_eq_some_iff.mp hfraction
      refine ⟨hne, hall, hfne, hfall, hplaces, ?_⟩
      rw [← checked_eq_some.mp hsum, ← checked_eq_some.mp hwhole, hval]
  · rintro ⟨hne, hall, hfne, hfall, hplaces, hval⟩
    have hlt := a.lt
    have hnonempty : trim u str.toList ≠ [] := by
      intro hnil
      rw [hnil] at hne
      exact hne rfl
    have hinteger : digitsValue (dropPlus (splitPoint (trim u str.toList)).1) < 2 ^ 128 := by
      refine lt_of_le_of_lt ?_ hlt
      rw [hval]
      exact le_trans (Nat.le_mul_of_pos_right _ (Nat.pow_pos (by decide))) (Nat.le_add_right _ _)
    rw [if_neg hnonempty, parseUnsigned_eq_some_iff.mpr ⟨⟨hne, hall, rfl⟩, hinteger⟩,
      Option.bind_some]
    have hfraction : parseFraction (splitPoint (trim u str.toList)).2 = some
        ⟨_, lt_of_le_of_lt (Nat.le_add_left _ _) (hval ▸ hlt)⟩ :=
      parseFraction_eq_some_iff.mpr ⟨hfne, hfall, hplaces, rfl⟩
    have hwhole : checked (digitsValue (dropPlus (splitPoint (trim u str.toList)).1) *
        10 ^ decimals) = some ⟨_, lt_of_le_of_lt (Nat.le_add_right _ _) (hval ▸ hlt)⟩ :=
      checked_eq_some.mpr rfl
    rw [hfraction, Option.bind_some, hwhole, Option.bind_some, checkedAdd, checked_eq_some]
    exact hval.symm

/-! ### Amounts among the texts that are read -/

theorem AllDigits.not_mem {s : List Char} (h : AllDigits s) {c : Char} (hc : c.isDigit = false) :
    c ∉ s := by
  intro hmem
  rw [h c hmem] at hc
  cases hc

theorem AllDigits.head?_ne {s : List Char} (h : AllDigits s) : s.head? ≠ some '+' :=
  fun hplus => h.not_mem (by decide) (List.mem_of_head? hplus)

theorem splitPoint_append {i f : List Char} (h : '.' ∉ i) : splitPoint (i ++ '.' :: f) = (i, f) := by
  induction i with
  | nil => rfl
  | cons c i ih =>
    rw [List.mem_cons, not_or] at h
    rw [List.cons_append, splitPoint, if_neg (Ne.symm h.1), ih h.2]

theorem splitPoint_cases (t : List Char) :
    t = (splitPoint t).1 ∧ (splitPoint t).2 = [] ∨
      t = (splitPoint t).1 ++ '.' :: (splitPoint t).2 := by
  induction t with
  | nil => exact Or.inl ⟨rfl, rfl⟩
  | cons c t ih =>
    unfold splitPoint
    split
    · rename_i hc
      exact Or.inr (by rw [hc]; rfl)
    · rcases ih with ⟨hone, htwo⟩ | hboth
      · exact Or.inl ⟨congrArg (c :: ·) hone, htwo⟩
      · exact Or.inr (congrArg (c :: ·) hboth)

/-- An amount is a text without irregularities that is read as the same number. -/
theorem isAmount_iff {t : List Char} {n : Nat} :
    IsAmount t n ↔ ReadsAs t n ∧ ¬Irregular t := by
  constructor
  · rintro ⟨i, f, hsplit, hne, hi, hf, hplaces, rfl⟩
    have hparts : splitPoint t = (i, f) := by
      rcases hsplit with ⟨rfl, rfl⟩ | rfl
      · exact splitPoint_of_not_mem (hi.not_mem (by decide))
      · exact splitPoint_append (hi.not_mem (by decide))
    have hiplus : dropPlus i = i := if_neg hi.head?_ne
    have hfplus : dropPlus f = f := if_neg hf.head?_ne
    have hsmall : f.length < 2 ^ 32 := lt_of_le_of_lt hplaces (by decide)
    constructor
    · constructor <;> rw [hparts]
      · rwa [hiplus]
      · rwa [hiplus]
      · rw [hfplus]
        exact id
      · rwa [hfplus]
      · rwa [Nat.mod_eq_of_lt hsmall]
      · rw [hiplus, hfplus, Nat.mod_eq_of_lt hsmall]
    · unfold Irregular
      rw [hparts]
      rintro (hplus | hplus | hlong)
      · exact hi.head?_ne hplus
      · exact hf.head?_ne hplus
      · exact absurd hlong (Nat.not_le.mpr hsmall)
  · rintro ⟨h, hregular⟩
    unfold Irregular at hregular
    rw [not_or, not_or, Nat.not_le] at hregular
    obtain ⟨hiplus, hfplus, hsmall⟩ := hregular
    obtain ⟨hne, hi, -, hf, hplaces, hval⟩ := h
    have hi' : dropPlus (splitPoint t).1 = (splitPoint t).1 := if_neg hiplus
    have hf' : dropPlus (splitPoint t).2 = (splitPoint t).2 := if_neg hfplus
    rw [hi'] at hne hi hval
    rw [hf'] at hf hval
    rw [Nat.mod_eq_of_lt hsmall] at hplaces hval
    exact ⟨_, _, splitPoint_cases t, hne, hi, hf, hplaces, hval⟩

/-! ### What is displayed -/

theorem AllDigits.trim_point {u : Unicode} {i f : List Char} (hi : AllDigits i)
    (hf : AllDigits f) : trim u (i ++ '.' :: f) = i ++ '.' :: f := by
  have hdigit : ∀ c : Char, c.isDigit = true → u.isWhitespace c = false := by
    intro c hc
    have hrange : 48 ≤ c.toNat ∧ c.toNat ≤ 57 := Char.isDigit_iff_toNat.mp hc
    rw [u.isWhitespace_ascii c (by omega)]
    have hspace : c ≠ ' ' := by
      rintro rfl
      revert hc
      decide
    simp only [asciiWhitespace, hspace, decide_false, Bool.false_or, Bool.and_eq_false_iff,
      decide_eq_false_iff_not]
    omega
  apply trim_eq_self
  intro c hc
  rcases List.mem_append.mp hc with hmem | hmem
  · exact hdigit c (hi c hmem)
  · rcases List.mem_cons.mp hmem with rfl | hmem
    · rw [u.isWhitespace_ascii '.' (by decide)]
      decide
    · exact hdigit c (hf c hmem)

theorem allDigits_decimal (n : Nat) : AllDigits (Encoding.decimal n) :=
  fun _ hc => isDigit_of_mem_decimal hc

/-- Digits without their trailing zeros count the same at their places. -/
theorem digitsValue_rdropWhile (s : List Char) :
    (s.rdropWhile (· = '0')).length ≤ s.length ∧
      digitsValue s = digitsValue (s.rdropWhile (· = '0')) *
        10 ^ (s.length - (s.rdropWhile (· = '0')).length) := by
  induction s using List.reverseRecOn with
  | nil => exact ⟨Nat.le_refl 0, rfl⟩
  | append_singleton s c ih =>
    obtain ⟨hle, hval⟩ := ih
    by_cases hc : c = '0'
    · subst hc
      have hzero : digitsValue (s ++ ['0']) = 10 * digitsValue s := by
        unfold digitsValue
        rw [Nat.ofDigitChars_append, Nat.ofDigitChars_cons, Nat.ofDigitChars_nil]
        rfl
      have hdrop : (s ++ ['0']).rdropWhile (· = '0') = s.rdropWhile (· = '0') :=
        List.rdropWhile_concat_pos _ s '0' (decide_eq_true rfl)
      rw [hdrop, List.length_append, List.length_singleton, hzero, Nat.sub_add_comm hle,
        Nat.pow_succ, ← Nat.mul_assoc, ← hval, Nat.mul_comm]
      exact ⟨Nat.le_succ_of_le hle, rfl⟩
    · have hkeep : (s ++ [c]).rdropWhile (· = '0') = s ++ [c] :=
        List.rdropWhile_concat_neg _ s c (by simpa using hc)
      rw [hkeep, Nat.sub_self]
      exact ⟨Nat.le_refl _, (Nat.mul_one _).symm⟩

theorem digitsValue_decimal (n : Nat) : digitsValue (Encoding.decimal n) = n :=
  Nat.ofDigitChars_ten_toDigits

/-- The decimals with zeros up to eighteen places. -/
theorem padded_digits {n : Nat} (h : n < 10 ^ decimals) :
    (List.replicate (decimals - (Encoding.decimal n).length) '0' ++
        Encoding.decimal n).length = decimals ∧
      digitsValue (List.replicate (decimals - (Encoding.decimal n).length) '0' ++
        Encoding.decimal n) = n := by
  have hle : (Encoding.decimal n).length ≤ decimals :=
    (Nat.length_toDigits_le_iff (by decide) (by decide)).mpr h
  constructor
  · rw [List.length_append, List.length_replicate, Nat.sub_add_cancel hle]
  · unfold digitsValue
    rw [Nat.ofDigitChars_append, Nat.ofDigitChars_replicate_zero]
    exact digitsValue_decimal n

/-- What is displayed is an amount of the displayed units. -/
theorem isAmount_display (u : Unicode) (a : FixedAmount) :
    IsAmount (trim u a.display.toList) a.val := by
  have hsplit : a.val = a.val / 10 ^ decimals * 10 ^ decimals + a.val % 10 ^ decimals := by
    rw [Nat.mul_comm, Nat.div_add_mod]
  have hinteger := allDigits_decimal (a.val / 10 ^ decimals)
  have hne : Encoding.decimal (a.val / 10 ^ decimals) ≠ [] := Nat.toDigits_ne_nil
  unfold display
  dsimp only
  split
  · rename_i hzero
    have hfraction : AllDigits ['0'] := by
      intro c hc
      rw [List.mem_singleton.mp hc]
      rfl
    rw [String.toList_append, String.toList_ofList]
    change IsAmount (trim u (Encoding.decimal (a.val / 10 ^ decimals) ++ '.' :: ['0'])) a.val
    rw [hinteger.trim_point hfraction]
    refine ⟨_, _, Or.inr rfl, hne, hinteger, hfraction, by decide, ?_⟩
    rw [digitsValue_decimal]
    rw [hzero] at hsplit
    exact hsplit
  · have hlt : a.val % 10 ^ decimals < 10 ^ decimals := Nat.mod_lt _ (by decide)
    obtain ⟨hlen, hpadded⟩ := padded_digits hlt
    generalize hp : List.replicate (decimals - (Encoding.decimal (a.val % 10 ^ decimals)).length)
      '0' ++ Encoding.decimal (a.val % 10 ^ decimals) = padded at hlen hpadded ⊢
    obtain ⟨hplaces, hval⟩ := digitsValue_rdropWhile padded
    have hfraction : AllDigits (padded.rdropWhile (· = '0')) := by
      intro c hc
      have hmem : c ∈ padded := (List.rdropWhile_prefix _ padded).subset hc
      rw [← hp] at hmem
      rcases List.mem_append.mp hmem with hmem | hmem
      · rw [(List.mem_replicate.mp hmem).2]
        rfl
      · exact isDigit_of_mem_decimal hmem
    rw [String.toList_ofList, hinteger.trim_point hfraction]
    refine ⟨_, _, Or.inr rfl, hne, hinteger, hfraction, hlen ▸ hplaces, ?_⟩
    rw [digitsValue_decimal, ← hlen, ← hval, hpadded, hlen]
    exact hsplit

/-- **What is parsed is an amount, and as much as it says, unless the text is irregular** and
would be a number without that. What is displayed is always read back. -/
theorem fromStr_grammar_iff (u : Unicode) :
    (∀ str : String, (∀ a, fromStr u str = some a ↔ IsAmount (trim u str.toList) a.val) ↔
      ¬(Irregular (trim u str.toList) ∧ ∃ n < 2 ^ 128, ReadsAs (trim u str.toList) n)) ∧
    ∀ a : FixedAmount, fromStr u a.display = some a := by
  constructor
  · intro str
    constructor
    · rintro h ⟨hirregular, n, hlt, hreads⟩
      have hamount := (h ⟨n, hlt⟩).mp (fromStr_eq_some_iff.mpr hreads)
      exact (isAmount_iff.mp hamount).2 hirregular
    · intro hregular a
      rw [isAmount_iff, fromStr_eq_some_iff]
      refine ⟨fun hreads => ⟨hreads, fun hirregular => ?_⟩, And.left⟩
      exact hregular ⟨hirregular, a.val, a.lt, hreads⟩
  · intro a
    exact fromStr_eq_some_iff.mpr (isAmount_iff.mp (isAmount_display u a)).1

/-- A sign is accepted after the point, and takes up a decimal place. -/
theorem fromStr_signed :
    ¬∀ a, fromStr Unicode.ascii "1.+5" = some a ↔
      IsAmount (trim Unicode.ascii "1.+5".toList) a.val := by
  intro h
  have hread : fromStr Unicode.ascii "1.+5" = some ⟨105 * 10 ^ 16, by decide⟩ := by
    decide +kernel
  have hirregular : Irregular (trim Unicode.ascii "1.+5".toList) := Or.inr (Or.inl (by decide))
  exact (isAmount_iff.mp ((h _).mp hread)).2 hirregular

end FixedAmount

end OsModa.Keyd
