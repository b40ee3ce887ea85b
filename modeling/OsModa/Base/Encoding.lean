import Mathlib.Algebra.GroupWithZero.Nat
import Mathlib.Data.List.Basic
import Mathlib.Data.Fintype.Basic

/-!
Encodings of values as bytes and characters: UTF-8, hexadecimal, decimal,
little and big endian, and fields joined by a separator.

Each encoder comes with the fact its users rest on, that it is injective, or for a
separator with the condition under which it is: two joined pairs with the same
text are the same pair as soon as their left (`append_sep_inj`) or their right
halves (`append_sep_inj_right`) contain the separator equally often.
-/

namespace OsModa.Encoding

/-! ### UTF-8 -/

/-- The bytes of a string. -/
def utf8 (s : List Char) : List UInt8 := s.flatMap String.utf8EncodeChar

theorem utf8_injective : Function.Injective utf8 := by
  intro s t h
  have hbytes : (String.ofList s).toByteArray = (String.ofList t).toByteArray := by
    simpa [utf8, List.utf8Encode] using congrArg List.toByteArray h
  simpa using congrArg String.toList (String.toByteArray_inj.mp hbytes)

@[simp] theorem utf8_append (s t : List Char) : utf8 (s ++ t) = utf8 s ++ utf8 t :=
  List.flatMap_append

@[simp] theorem utf8_cons (c : Char) (s : List Char) :
    utf8 (c :: s) = String.utf8EncodeChar c ++ utf8 s := rfl

/-! ### Hexadecimal -/

/-- Two lowercase hexadecimal digits. -/
def hexByte (b : UInt8) : List Char := [(b.toNat / 16).digitChar, (b.toNat % 16).digitChar]

/-- Lowercase hexadecimal. -/
def hexEncode (bytes : List UInt8) : List Char := bytes.flatMap hexByte

/-- The value of a hexadecimal digit of either case. -/
def hexValue (c : Char) : Option Nat :=
  if '0' ≤ c ∧ c ≤ '9' then some (c.toNat - '0'.toNat)
  else if 'a' ≤ c ∧ c ≤ 'f' then some (c.toNat - 'a'.toNat + 10)
  else if 'A' ≤ c ∧ c ≤ 'F' then some (c.toNat - 'A'.toNat + 10)
  else none

/-- Decode pairs of hexadecimal digits. -/
def hexDecode? : List Char → Option (List UInt8)
  | [] => some []
  | [_] => none
  | c :: d :: rest =>
    (hexValue c).bind fun hi => (hexValue d).bind fun lo =>
      (hexDecode? rest).map (UInt8.ofNat (hi * 16 + lo) :: ·)

theorem hexValue_digitChar : ∀ n < 16, hexValue n.digitChar = some n := by
  decide

theorem isAlphanum_digitChar : ∀ n < 16, n.digitChar.isAlphanum = true := by
  decide

theorem nibbles_lt (b : UInt8) : b.toNat / 16 < 16 ∧ b.toNat % 16 < 16 := by
  have := b.toNat_lt
  omega

/-- Decoding inverts encoding. -/
@[simp] theorem hexDecode?_hexEncode (bytes : List UInt8) :
    hexDecode? (hexEncode bytes) = some bytes := by
  induction bytes with
  | nil => rfl
  | cons b bytes ih =>
    obtain ⟨hhi, hlo⟩ := nibbles_lt b
    have hb : UInt8.ofNat (b.toNat / 16 * 16 + b.toNat % 16) = b := by
      rw [Nat.mul_comm, Nat.div_add_mod, UInt8.ofNat_toNat]
    rw [hexEncode, List.flatMap_cons, hexByte, List.cons_append, List.cons_append, List.nil_append,
      hexDecode?, hexValue_digitChar _ hhi, hexValue_digitChar _ hlo]
    simp only [Option.bind_some]
    rw [show hexDecode? (bytes.flatMap hexByte) = some bytes from ih, hb, Option.map_some]

theorem hexEncode_injective : Function.Injective hexEncode := by
  intro a b h
  have := congrArg hexDecode? h
  rw [hexDecode?_hexEncode, hexDecode?_hexEncode] at this
  exact Option.some.inj this

theorem isAlphanum_of_mem_hexEncode {bytes : List UInt8} {c : Char} (h : c ∈ hexEncode bytes) :
    c.isAlphanum = true := by
  obtain ⟨b, -, hc⟩ := List.mem_flatMap.mp h
  rcases List.mem_pair.mp hc with rfl | rfl
  · exact isAlphanum_digitChar _ (nibbles_lt b).1
  · exact isAlphanum_digitChar _ (nibbles_lt b).2

/-- A string of 32 bytes: a key, a hash or an address. -/
abbrev Bytes32 := { bytes : List UInt8 // bytes.length = 32 }

/-- A slice as an array of 32 bytes, when it has that many. -/
def toBytes32 (bytes : List UInt8) : Option Bytes32 :=
  if h : bytes.length = 32 then some ⟨bytes, h⟩ else none

@[simp] theorem toBytes32_val (b : Bytes32) : toBytes32 b.val = some b := dif_pos b.property

/-! ### JSON strings -/

/-- One character of a JSON string as `serde_json` escapes it. -/
def jsonEscape (c : Char) : List Char :=
  if c = '"' then ['\\', '"']
  else if c = '\\' then ['\\', '\\']
  else if c = '\n' then ['\\', 'n']
  else if c = '\r' then ['\\', 'r']
  else if c = '\t' then ['\\', 't']
  else if c.toNat = 8 then ['\\', 'b']
  else if c.toNat = 12 then ['\\', 'f']
  else if c.toNat < 32 then ['\\', 'u', '0', '0'] ++ hexByte (UInt8.ofNat c.toNat)
  else [c]

def jsonString (s : List Char) : List Char := '"' :: s.flatMap jsonEscape ++ ['"']

/-! ### Decimal -/

/-- The value of a string of ASCII digits, at least one. -/
def parseDigits (s : List Char) : Option Nat :=
  if s ≠ [] ∧ s.all Char.isDigit then some (Nat.ofDigitChars 10 s 0) else none

/-- Rust's `FromStr` for an unsigned integer type of `bits` bits: an optional `+`
and digits, without overflow. -/
def parseUnsigned (bits : Nat) (s : List Char) : Option Nat :=
  (parseDigits (if s.head? = some '+' then s.tail else s)).filter (· < 2 ^ bits)

/-- What is accepted as an unsigned number is made of digits and `+`. -/
theorem parseUnsigned_chars {bits n : Nat} {s : List Char} (h : parseUnsigned bits s = some n) :
    s ≠ [] ∧ ∀ c ∈ s, c.isDigit = true ∨ c = '+' := by
  have hdigits : ∀ {t : List Char} {m : Nat}, parseDigits t = some m →
      t ≠ [] ∧ ∀ c ∈ t, c.isDigit = true := by
    intro t m ht
    unfold parseDigits at ht
    split at ht
    · rename_i hall
      exact ⟨hall.1, List.all_eq_true.mp hall.2⟩
    · cases ht
  obtain ⟨hparse, -⟩ := Option.filter_eq_some_iff.mp h
  split at hparse
  · rename_i hplus
    obtain ⟨t, rfl⟩ := List.head?_eq_some_iff.mp hplus
    refine ⟨List.cons_ne_nil _ _, fun c hc => ?_⟩
    rcases List.mem_cons.mp hc with rfl | hc
    · exact Or.inr rfl
    · exact Or.inl ((hdigits hparse).2 c hc)
  · exact ⟨(hdigits hparse).1, fun c hc => Or.inl ((hdigits hparse).2 c hc)⟩

theorem parseUnsigned_lt {bits n : Nat} {s : List Char} (h : parseUnsigned bits s = some n) :
    n < 2 ^ bits := by
  simpa using (Option.filter_eq_some_iff.mp h).2

/-- A wider type reads the same number. -/
theorem parseUnsigned_mono {bits bits' n : Nat} {s : List Char} (hle : bits ≤ bits')
    (h : parseUnsigned bits s = some n) : parseUnsigned bits' s = some n := by
  obtain ⟨hparse, hlt⟩ := Option.filter_eq_some_iff.mp h
  refine Option.filter_eq_some_iff.mpr ⟨hparse, ?_⟩
  have hpow : 2 ^ bits ≤ 2 ^ bits' := Nat.pow_le_pow_right (by decide) hle
  have hn : n < 2 ^ bits := by simpa using hlt
  simpa using lt_of_lt_of_le hn hpow

/-- The decimal digits of a number. -/
def decimal (n : Nat) : List Char := Nat.toDigits 10 n

theorem isDigit_of_mem_decimal {n : Nat} {c : Char} (h : c ∈ decimal n) : c.isDigit = true :=
  Nat.isDigit_of_mem_toDigits (by decide) (by decide) h

@[simp] theorem parseDigits_decimal (n : Nat) : parseDigits (decimal n) = some n := by
  have hall : (decimal n).all Char.isDigit = true :=
    List.all_eq_true.mpr fun c hc => isDigit_of_mem_decimal hc
  rw [parseDigits, if_pos ⟨Nat.toDigits_ne_nil, hall⟩, decimal, Nat.ofDigitChars_ten_toDigits]

theorem decimal_injective : Function.Injective decimal := by
  intro m n h
  have := congrArg parseDigits h
  rw [parseDigits_decimal, parseDigits_decimal] at this
  exact Option.some.inj this

/-- `Display` of a signed integer. -/
def decimalInt : Int → List Char
  | .ofNat n => decimal n
  | .negSucc n => '-' :: decimal (n + 1)

theorem decimalInt_injective : Function.Injective decimalInt := by
  have hsign : ∀ m n : Nat, decimal m ≠ '-' :: decimal n := by
    intro m n h
    have := isDigit_of_mem_decimal (h ▸ List.mem_cons_self : '-' ∈ decimal m)
    revert this
    decide
  intro a b h
  match a, b with
  | .ofNat m, .ofNat n => exact congrArg Int.ofNat (decimal_injective h)
  | .ofNat m, .negSucc n => exact absurd h (hsign _ _)
  | .negSucc m, .ofNat n => exact absurd h.symm (hsign _ _)
  | .negSucc m, .negSucc n =>
    have := decimal_injective (List.cons.inj h).2
    rw [Nat.succ.inj this]

theorem mem_decimalInt {i : Int} {c : Char} (h : c ∈ decimalInt i) : c.isDigit = true ∨ c = '-' := by
  cases i with
  | ofNat n => exact Or.inl (isDigit_of_mem_decimal h)
  | negSucc n =>
    rcases List.mem_cons.mp h with rfl | hd
    · exact Or.inr rfl
    · exact Or.inl (isDigit_of_mem_decimal hd)

/-! ### Little and big endian -/

/-- The low `n` bytes of a number, least significant first. -/
def littleEndian : Nat → Nat → List UInt8
  | 0, _ => []
  | n + 1, k => UInt8.ofNat k :: littleEndian n (k / 256)

@[simp] theorem length_littleEndian (n k : Nat) : (littleEndian n k).length = n := by
  induction n generalizing k with
  | zero => rfl
  | succ n ih => simp [littleEndian, ih]

/-- The bytes determine the number up to their width. -/
theorem littleEndian_eq_iff (n j k : Nat) :
    littleEndian n j = littleEndian n k ↔ j % 256 ^ n = k % 256 ^ n := by
  induction n generalizing j k with
  | zero => simp [littleEndian, Nat.mod_one]
  | succ n ih =>
    have hbyte : UInt8.ofNat j = UInt8.ofNat k ↔ j % 256 = k % 256 := by
      rw [← UInt8.toNat_inj, UInt8.toNat_ofNat', UInt8.toNat_ofNat']
    rw [littleEndian, littleEndian, List.cons.injEq, hbyte, ih, Nat.pow_succ, Nat.mul_comm,
      Nat.mod_mul, Nat.mod_mul]
    have hj := Nat.mod_lt j (show 0 < 256 by decide)
    have hk := Nat.mod_lt k (show 0 < 256 by decide)
    constructor
    · rintro ⟨h1, h2⟩
      rw [h1, h2]
    · intro h
      omega

/-- The number of a string of bytes, least significant first. -/
def littleValue : List UInt8 → Nat
  | [] => 0
  | b :: bytes => b.toNat + 256 * littleValue bytes

@[simp] theorem littleValue_littleEndian (n k : Nat) :
    littleValue (littleEndian n k) = k % 256 ^ n := by
  induction n generalizing k with
  | zero => simp [littleEndian, littleValue, Nat.mod_one]
  | succ n ih =>
    have hpow : 256 ^ (n + 1) = 256 * 256 ^ n := by rw [Nat.pow_succ, Nat.mul_comm]
    rw [littleEndian, littleValue, ih, UInt8.toNat_ofNat', hpow, Nat.mod_mul]

/-- The low `n` bytes of a number, most significant first. -/
def bigEndian (n k : Nat) : List UInt8 := (littleEndian n k).reverse

/-- The number of a string of bytes, most significant first. -/
def bigValue (bytes : List UInt8) : Nat := littleValue bytes.reverse

@[simp] theorem length_bigEndian (n k : Nat) : (bigEndian n k).length = n := by
  simp [bigEndian]

@[simp] theorem bigValue_bigEndian (n k : Nat) : bigValue (bigEndian n k) = k % 256 ^ n := by
  simp [bigValue, bigEndian]

/-! ### Fields joined by a separator -/

section Separator

variable {α : Type} [DecidableEq α] {sep : α}

/-- Halves of two equal joined texts agree when the left halves contain the
separator equally often. -/
theorem append_sep_inj {a a' b b' : List α} (hcount : a.count sep = a'.count sep)
    (h : a ++ sep :: b = a' ++ sep :: b') : a = a' ∧ b = b' := by
  induction a generalizing a' with
  | nil =>
    cases a' with
    | nil => exact ⟨rfl, (List.cons.inj h).2⟩
    | cons x a' =>
      obtain ⟨rfl, -⟩ := List.cons.inj h
      simp at hcount
  | cons x a ih =>
    cases a' with
    | nil =>
      obtain ⟨rfl, -⟩ := List.cons.inj h
      simp at hcount
    | cons y a' =>
      obtain ⟨rfl, hrest⟩ := List.cons.inj h
      have hcount' : a.count sep = a'.count sep := by
        simp only [List.count_cons] at hcount
        omega
      obtain ⟨rfl, rfl⟩ := ih hcount' hrest
      exact ⟨rfl, rfl⟩

/-- The same, when it is the right halves that contain it equally often. -/
theorem append_sep_inj_right {a a' b b' : List α} (hcount : b.count sep = b'.count sep)
    (h : a ++ sep :: b = a' ++ sep :: b') : a = a' ∧ b = b' := by
  have htotal := congrArg (List.count sep) h
  simp only [List.count_append, List.count_cons_self] at htotal
  exact append_sep_inj (by omega) h

/-- Words without the first character of the separator are read back from their joined text. -/
theorem intercalate_inj {rest : List α} {words words' : List (List α)}
    (hwords : ∀ w ∈ words, sep ∉ w) (hwords' : ∀ w ∈ words', sep ∉ w) (hne : words ≠ [])
    (hne' : words' ≠ []) (h : (sep :: rest).intercalate words = (sep :: rest).intercalate words') :
    words = words' := by
  induction words generalizing words' with
  | nil => exact absurd rfl hne
  | cons w words ih =>
    obtain ⟨w', words', rfl⟩ := List.exists_cons_of_ne_nil hne'
    obtain ⟨hw, hwords⟩ := List.forall_mem_cons.mp hwords
    obtain ⟨hw', hfree⟩ := List.forall_mem_cons.mp hwords'
    cases words with
    | nil =>
      cases words' with
      | nil => simpa using h
      | cons v' words' =>
        rw [List.intercalate_singleton, List.intercalate_cons_cons] at h
        exact absurd (by simp [h]) hw
    | cons v words =>
      cases words' with
      | nil =>
        rw [List.intercalate_singleton, List.intercalate_cons_cons] at h
        exact absurd (by simp [← h]) hw'
      | cons v' words' =>
        rw [List.intercalate_cons_cons, List.intercalate_cons_cons, List.append_assoc,
          List.append_assoc, List.cons_append, List.cons_append] at h
        obtain ⟨rfl, hrest⟩ := append_sep_inj
          ((List.count_eq_zero.mpr hw).trans (List.count_eq_zero.mpr hw').symm) h
        have htail : v :: words = v' :: words' := ih hwords hfree (List.cons_ne_nil _ _)
          (List.cons_ne_nil _ _) (List.append_cancel_left hrest)
        rw [htail]

end Separator

end OsModa.Encoding
