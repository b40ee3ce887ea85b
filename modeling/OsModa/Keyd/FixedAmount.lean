import OsModa.Base.Encoding
import OsModa.Base.Text

/-!
keyd's fixed-point amounts: 18 decimal places in a `u128`.

`fromStr` parses the decimal text of a request or of a policy limit. The text that
it accepts is made of digits, plus signs and one point after trimming, so it never
contains a colon (`colon_not_mem_of_fromStr`); and the text of a whole number is
read as that many coins (`fromStr_of_parseUnsigned`).
-/

namespace OsModa.Keyd

open OsModa.Text OsModa.Encoding

/-- Fixed-point amount with 18 decimal places. -/
structure FixedAmount where
  val : Nat
  lt : val < 2 ^ 128
  deriving DecidableEq

namespace FixedAmount

def decimals : Nat := 18

def zero : FixedAmount := ⟨0, by decide⟩

/-- The result of a `u128` operation, when it does not overflow. -/
def checked (n : Nat) : Option FixedAmount := if h : n < 2 ^ 128 then some ⟨n, h⟩ else none

@[simp] theorem checked_eq_some {n : Nat} {a : FixedAmount} : checked n = some a ↔ n = a.val := by
  unfold checked
  split
  · rename_i h
    constructor
    · rintro ⟨⟩
      rfl
    · rintro rfl
      rfl
  · rename_i h
    constructor
    · rintro ⟨⟩
    · rintro rfl
      exact absurd a.lt h

theorem checked_eq_none {n : Nat} : checked n = none ↔ 2 ^ 128 ≤ n := by
  unfold checked
  split <;> simp <;> omega

def checkedAdd (a b : FixedAmount) : Option FixedAmount := checked (a.val + b.val)

theorem checkedAdd_zero (a : FixedAmount) : checkedAdd a zero = some a := by
  rw [checkedAdd, checked_eq_some]
  exact Nat.add_zero _

/-- The parts before and after the first point. -/
def splitPoint : List Char → List Char × List Char
  | [] => ([], [])
  | c :: s => if c = '.' then ([], s) else (c :: (splitPoint s).1, (splitPoint s).2)

/-- The decimal part scaled to 18 places; no digits read as zero. -/
def parseFraction (decimalPart : List Char) : Option FixedAmount :=
  if decimalPart = [] then some zero
  else
    let decimalDigits := byteLen decimalPart % 2 ^ 32
    if decimalDigits > decimals then none
    else (parseUnsigned 128 decimalPart).bind fun decimal =>
      checked (decimal * 10 ^ (decimals - decimalDigits))

/-- Parse a decimal string into fixed-point representation. -/
def fromStr (u : Unicode) (str : String) : Option FixedAmount :=
  let s := trim u str.toList
  if s = [] then none
  else
    (parseUnsigned 128 (splitPoint s).1).bind fun integer =>
      (parseFraction (splitPoint s).2).bind fun fraction =>
        (checked (integer * 10 ^ decimals)).bind fun whole => checkedAdd whole fraction

/-- `Display`. -/
def display (a : FixedAmount) : String :=
  let integer := a.val / 10 ^ decimals
  let decimal := a.val % 10 ^ decimals
  if decimal = 0 then String.ofList (Encoding.decimal integer) ++ ".0"
  else
    let digits := Encoding.decimal decimal
    let padded := List.replicate (decimals - digits.length) '0' ++ digits
    String.ofList (Encoding.decimal integer ++ '.' :: padded.rdropWhile (· = '0'))

example : (fromStr Unicode.ascii " 1.50 ").map display = some "1.5" := by
  decide +kernel

/-! ### The texts that are accepted -/

theorem mem_splitPoint {s : List Char} {c : Char} (h : c ∈ s) (hc : c ≠ '.') :
    c ∈ (splitPoint s).1 ∨ c ∈ (splitPoint s).2 := by
  induction s with
  | nil => cases h
  | cons d s ih =>
    unfold splitPoint
    split
    · rename_i hd
      rcases List.mem_cons.mp h with rfl | hmem
      · exact absurd hd hc
      · exact Or.inr hmem
    · rcases List.mem_cons.mp h with rfl | hmem
      · exact Or.inl List.mem_cons_self
      · exact (ih hmem).imp (List.mem_cons_of_mem _) id

theorem splitPoint_of_not_mem {s : List Char} (h : '.' ∉ s) : splitPoint s = (s, []) := by
  induction s with
  | nil => rfl
  | cons c s ih =>
    rw [List.mem_cons, not_or] at h
    rw [splitPoint, if_neg (Ne.symm h.1), ih h.2]

section

variable (u : Unicode)

/-- An accepted text contains no colon. -/
theorem colon_not_mem_of_fromStr {str : String} {a : FixedAmount} (h : fromStr u str = some a) :
    ':' ∉ str.toList := by
  have hcolon : ∀ {s : List Char} {n : Nat}, parseUnsigned 128 s = some n → ':' ∉ s := by
    intro s n hs hmem
    rcases (parseUnsigned_chars hs).2 _ hmem with hdigit | hplus
    · revert hdigit
      decide
    · revert hplus
      decide
  intro hmem
  have htrim : ':' ∈ trim u str.toList := by
    refine (mem_trim_or u hmem).resolve_right ?_
    intro hblank
    rw [u.isWhitespace_ascii ':' (by decide)] at hblank
    revert hblank
    decide
  unfold fromStr at h
  dsimp only at h
  split at h
  · cases h
  · obtain ⟨integer, hint, h⟩ := Option.bind_eq_some_iff.mp h
    obtain ⟨fraction, hfrac, -⟩ := Option.bind_eq_some_iff.mp h
    rcases mem_splitPoint htrim (by decide) with hleft | hright
    · exact hcolon hint hleft
    · unfold parseFraction at hfrac
      rw [if_neg (List.ne_nil_of_mem hright)] at hfrac
      dsimp only at hfrac
      split at hfrac
      · cases hfrac
      · obtain ⟨decimal, hdec, -⟩ := Option.bind_eq_some_iff.mp hfrac
        exact hcolon hdec hright

/-- The text of a whole number is read as that many coins. -/
theorem fromStr_of_parseUnsigned {str : String} {n : Nat}
    (h : parseUnsigned 128 str.toList = some n) :
    fromStr u str = checked (n * 10 ^ decimals) := by
  obtain ⟨hne, hchars⟩ := parseUnsigned_chars h
  have hplain : ∀ c ∈ str.toList, u.isWhitespace c = false ∧ c ≠ '.' := by
    intro c hc
    have hascii : c.toNat < 128 ∧ asciiWhitespace c = false ∧ c ≠ '.' := by
      rcases hchars c hc with hdigit | rfl
      · have hrange : 48 ≤ c.toNat ∧ c.toNat ≤ 57 := Char.isDigit_iff_toNat.mp hdigit
        refine ⟨by omega, ?_, ?_⟩
        · have : c ≠ ' ' := by
            rintro rfl
            revert hdigit
            decide
          simp only [asciiWhitespace, this, decide_false, Bool.false_or, Bool.and_eq_false_iff,
            decide_eq_false_iff_not]
          omega
        · rintro rfl
          revert hdigit
          decide
      · decide
    exact ⟨(u.isWhitespace_ascii c hascii.1).trans hascii.2.1, hascii.2.2⟩
  have htrim : trim u str.toList = str.toList := trim_eq_self u fun c hc => (hplain c hc).1
  have hsplit : splitPoint str.toList = (str.toList, []) :=
    splitPoint_of_not_mem fun hmem => (hplain _ hmem).2 rfl
  have hfraction : parseFraction [] = some zero := if_pos rfl
  unfold fromStr
  rw [htrim, if_neg hne, hsplit, h, Option.bind_some, hfraction, Option.bind_some]
  cases checked (n * 10 ^ decimals) with
  | none => rfl
  | some whole => rw [Option.bind_some, checkedAdd_zero]

end

end FixedAmount

end OsModa.Keyd
