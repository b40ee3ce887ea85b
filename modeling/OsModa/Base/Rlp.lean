import Mathlib.Data.Nat.Digits.Lemmas
import OsModa.Base.Reader

/-!
Recursive length prefix encoding: byte strings and lists, nested, behind headers
that carry their lengths.

Every item has one encoding. `decode` accepts that one and no other: a length that
would fit a shorter header, a length with a leading zero and a single small byte
behind a header are all refused (`encode_of_decode`). An encoding that is shorter
than `2 ^ 64` bytes, the most a header can announce, is read back
(`decode_encode`).
-/

namespace OsModa.Rlp

open OsModa.Encoding OsModa.Reader

/-! ### Integers -/

/-- An integer, most significant byte first, without a leading zero. -/
def integerBytes (n : Nat) : List UInt8 := ((Nat.digits 256 n).map UInt8.ofNat).reverse

/-- No leading zero. -/
def Minimal (bytes : List UInt8) : Prop := bytes.head? ≠ some 0

instance (bytes : List UInt8) : Decidable (Minimal bytes) :=
  inferInstanceAs (Decidable (bytes.head? ≠ some 0))

theorem littleValue_append (a b : List UInt8) :
    littleValue (a ++ b) = littleValue a + 256 ^ a.length * littleValue b := by
  induction a with
  | nil => simp [littleValue]
  | cons x a ih =>
    have hpow : 256 ^ (x :: a).length = 256 * 256 ^ a.length := by
      rw [List.length_cons, Nat.pow_succ, Nat.mul_comm]
    rw [List.cons_append, littleValue, littleValue, ih, hpow, Nat.mul_add, Nat.mul_assoc]
    omega

theorem bigValue_cons (b : UInt8) (bytes : List UInt8) :
    bigValue (b :: bytes) = b.toNat * 256 ^ bytes.length + bigValue bytes := by
  rw [bigValue, bigValue, List.reverse_cons, littleValue_append, List.length_reverse, littleValue,
    littleValue]
  rw [Nat.mul_zero, Nat.add_zero, Nat.mul_comm, Nat.add_comm]

theorem bigValue_lt (bytes : List UInt8) : bigValue bytes < 256 ^ bytes.length := by
  induction bytes with
  | nil => decide
  | cons b bytes ih =>
    have hb := b.toNat_lt
    have hmul : (b.toNat + 1) * 256 ^ bytes.length ≤ 256 * 256 ^ bytes.length :=
      Nat.mul_le_mul_right _ (by omega)
    rw [Nat.add_mul, Nat.one_mul] at hmul
    rw [bigValue_cons, List.length_cons, Nat.pow_succ, Nat.mul_comm (256 ^ bytes.length)]
    omega

/-- The first byte of a minimal string counts. -/
theorem le_bigValue {b : UInt8} {bytes : List UInt8} (h : Minimal (b :: bytes)) :
    256 ^ bytes.length ≤ bigValue (b :: bytes) := by
  have hb : b ≠ 0 := fun hzero => h (by rw [hzero]; rfl)
  have hpos : 1 ≤ b.toNat := by
    have := UInt8.toNat_inj.not.mpr hb
    have : (0 : UInt8).toNat = 0 := rfl
    omega
  rw [bigValue_cons]
  exact le_trans (Nat.le_mul_of_pos_left _ hpos) (Nat.le_add_right _ _)

theorem littleEndian_littleValue (bytes : List UInt8) :
    littleEndian bytes.length (littleValue bytes) = bytes := by
  induction bytes with
  | nil => rfl
  | cons b bytes ih =>
    have hb := b.toNat_lt
    have hlow : UInt8.ofNat (littleValue (b :: bytes)) = b := by
      rw [← UInt8.toNat_inj, UInt8.toNat_ofNat', littleValue]
      omega
    have hhigh : littleValue (b :: bytes) / 256 = littleValue bytes := by
      rw [littleValue]
      omega
    rw [List.length_cons, littleEndian, hlow, hhigh, ih]

theorem bigValue_inj {a b : List UInt8} (hlen : a.length = b.length)
    (h : bigValue a = bigValue b) : a = b := by
  have ha := littleEndian_littleValue a.reverse
  have hb := littleEndian_littleValue b.reverse
  rw [List.length_reverse] at ha hb
  apply List.reverse_injective
  rw [← ha, ← hb, hlen]
  exact congrArg (littleEndian b.length) h

/-- A number has one minimal string. -/
theorem eq_of_minimal {a b : List UInt8} (ha : Minimal a) (hb : Minimal b)
    (h : bigValue a = bigValue b) : a = b := by
  -- a longer minimal string would be the greater number
  have hlen : ∀ {a b : List UInt8}, Minimal a → bigValue a = bigValue b → a.length ≤ b.length := by
    intro a b ha h
    cases a with
    | nil => exact Nat.zero_le _
    | cons x a =>
      have hle := le_bigValue ha
      rw [h] at hle
      have hlt := lt_of_le_of_lt hle (bigValue_lt b)
      exact (Nat.pow_lt_pow_iff_right (by decide)).mp hlt
  exact bigValue_inj (le_antisymm (hlen ha h) (hlen hb h.symm)) h

theorem littleValue_digits {digits : List Nat} (h : ∀ d ∈ digits, d < 256) :
    littleValue (digits.map UInt8.ofNat) = Nat.ofDigits 256 digits := by
  induction digits with
  | nil => rfl
  | cons d digits ih =>
    obtain ⟨hd, hdigits⟩ := List.forall_mem_cons.mp h
    rw [List.map_cons, littleValue, Nat.ofDigits_cons, ih hdigits, UInt8.toNat_ofNat',
      Nat.mod_eq_of_lt hd]

@[simp] theorem bigValue_integerBytes (n : Nat) : bigValue (integerBytes n) = n := by
  have hdigits : ∀ d ∈ Nat.digits 256 n, d < 256 := fun d hd => Nat.digits_lt_base (by decide) hd
  rw [bigValue, integerBytes, List.reverse_reverse, littleValue_digits hdigits,
    Nat.ofDigits_digits]

theorem minimal_integerBytes (n : Nat) : Minimal (integerBytes n) := by
  intro h
  rw [integerBytes, List.head?_reverse, List.getLast?_map] at h
  obtain ⟨d, hd, hzero⟩ := Option.map_eq_some_iff.mp h
  have hmem := List.mem_of_getLast? hd
  have hlt : d < 256 := Nat.digits_lt_base (by decide) hmem
  have hne : Nat.digits 256 n ≠ [] := List.ne_nil_of_mem hmem
  have hn : n ≠ 0 := Nat.digits_ne_nil_iff_ne_zero.mp hne
  have hlast : d ≠ 0 := by
    rw [List.getLast?_eq_some_getLast hne] at hd
    rw [← Option.some.inj hd]
    exact Nat.getLast_digit_ne_zero 256 hn
  apply hlast
  have := congrArg UInt8.toNat hzero
  rwa [UInt8.toNat_ofNat', Nat.mod_eq_of_lt hlt] at this

/-- The bytes of an integer are the minimal string with its value. -/
theorem eq_integerBytes {bytes : List UInt8} (h : Minimal bytes) :
    bytes = integerBytes (bigValue bytes) :=
  eq_of_minimal h (minimal_integerBytes _) (bigValue_integerBytes _).symm

theorem length_integerBytes_le {n k : Nat} (h : n < 256 ^ k) : (integerBytes n).length ≤ k := by
  cases hbytes : integerBytes n with
  | nil => exact Nat.zero_le _
  | cons b bytes =>
    have hmin : Minimal (b :: bytes) := hbytes ▸ minimal_integerBytes n
    have hle := le_bigValue hmin
    rw [← hbytes, bigValue_integerBytes] at hle
    exact (Nat.pow_lt_pow_iff_right (by decide)).mp (lt_of_le_of_lt hle h)

theorem length_integerBytes_pos {n : Nat} (h : 0 < n) : 0 < (integerBytes n).length := by
  apply List.length_pos_of_ne_nil
  intro hnil
  have := bigValue_integerBytes n
  rw [hnil] at this
  exact absurd this.symm (Nat.ne_of_gt h)

/-- Leading zeros add nothing. -/
theorem dropWhile_zero (bytes : List UInt8) :
    bytes.dropWhile (· = 0) = integerBytes (bigValue bytes) := by
  have hmin : Minimal (bytes.dropWhile (· = 0)) := by
    intro h
    have := List.head?_dropWhile_not (fun b : UInt8 => decide (b = 0)) bytes
    rw [h] at this
    simp at this
  have hvalue : bigValue (bytes.dropWhile (· = 0)) = bigValue bytes := by
    clear hmin
    induction bytes with
    | nil => rfl
    | cons b bytes ih =>
      rw [List.dropWhile_cons]
      split
      · rename_i hb
        rw [ih, bigValue_cons, of_decide_eq_true hb]
        simp
      · rfl
  rw [eq_integerBytes hmin, hvalue]

/-! ### Items -/

inductive Item where
  | bytes (data : List UInt8)
  | list (items : List Item)

/-- An integer as an item. -/
def Item.integer (n : Nat) : Item := .bytes (integerBytes n)

/-- The integer that an item is, in its minimal form only. -/
def Item.toInteger : Item → Option Nat
  | .bytes data => if Minimal data then some (bigValue data) else none
  | .list _ => none

def Item.toBytes : Item → Option (List UInt8)
  | .bytes data => some data
  | .list _ => none

@[simp] theorem Item.toInteger_integer (n : Nat) : (Item.integer n).toInteger = some n := by
  rw [Item.integer, Item.toInteger, if_pos (minimal_integerBytes n), bigValue_integerBytes]

/-- A payload behind its header. Headers of one kind start at `base`; up to 55 the
length is in the header byte, from 56 on it follows. -/
def withHeader (base : Nat) (payload : List UInt8) : List UInt8 :=
  if payload.length ≤ 55 then UInt8.ofNat (base + payload.length) :: payload
  else
    UInt8.ofNat (base + 55 + (integerBytes payload.length).length) ::
      (integerBytes payload.length ++ payload)

/-- A single byte below 128, which is its own encoding. -/
def IsSmall : List UInt8 → Prop
  | [b] => b < 0x80
  | _ => False

instance : DecidablePred IsSmall
  | [] => isFalse id
  | [b] => inferInstanceAs (Decidable (b < 0x80))
  | _ :: _ :: _ => isFalse id

def encodeBytes (data : List UInt8) : List UInt8 :=
  if IsSmall data then data else withHeader 0x80 data

mutual

def Item.encode : Item → List UInt8
  | .bytes data => encodeBytes data
  | .list items => withHeader 0xc0 (encodeAll items)

def encodeAll : List Item → List UInt8
  | [] => []
  | item :: items => item.encode ++ encodeAll items

end

theorem encodeAll_eq_flatten (items : List Item) :
    encodeAll items = (items.map Item.encode).flatten := by
  induction items with
  | nil => rfl
  | cons item items ih => rw [encodeAll, ih, List.map_cons, List.flatten_cons]

theorem encodeAll_append (items items' : List Item) :
    encodeAll (items ++ items') = encodeAll items ++ encodeAll items' := by
  simp only [encodeAll_eq_flatten, List.map_append, List.flatten_append]

/-! ### Decoding -/

/-- The payload that a header announces, `tag` above the first header of its kind. A
length after the header byte is minimal and above 55. -/
def takePayload (tag : Nat) (bytes : List UInt8) : Option (List UInt8 × List UInt8) :=
  if tag ≤ 55 then takeExactly tag bytes
  else (takeExactly (tag - 55) bytes).bind fun (len, rest) =>
    if Minimal len ∧ 55 < bigValue len then takeExactly (bigValue len) rest else none

mutual

/-- The item at the front of some bytes, and the bytes after it. -/
def decodeItem : Nat → List UInt8 → Option (Item × List UInt8)
  | 0, _ => none
  | _ + 1, [] => none
  | fuel + 1, b :: rest =>
    if b < 0x80 then some (.bytes [b], rest)
    else if b < 0xc0 then
      (takePayload (b.toNat - 0x80) rest).bind fun (data, rest) =>
        if IsSmall data then none else some (.bytes data, rest)
    else
      (takePayload (b.toNat - 0xc0) rest).bind fun (payload, rest) =>
        (decodeAll fuel payload).map fun items => (.list items, rest)

/-- The items that some bytes are made of. -/
def decodeAll : Nat → List UInt8 → Option (List Item)
  | _, [] => some []
  | 0, _ :: _ => none
  | fuel + 1, b :: rest =>
    (decodeItem fuel (b :: rest)).bind fun (item, rest) =>
      (decodeAll fuel rest).map (item :: ·)

end

/-- The item that some bytes are the encoding of. An item or a list takes at most two
calls a byte. -/
def decode (bytes : List UInt8) : Option Item :=
  match decodeItem (2 * bytes.length) bytes with
  | some (item, []) => some item
  | _ => none

/-! ### Reading back what was encoded -/

/-- The header of a payload: one byte of the right range, after which the payload is
found. -/
theorem withHeader_eq (base : Nat) {payload : List UInt8} (hlen : payload.length < 256 ^ 8) :
    ∃ tag rest, tag < 64 ∧ withHeader base payload = UInt8.ofNat (base + tag) :: rest ∧
      ∀ after, takePayload tag (rest ++ after) = some (payload, after) := by
  unfold withHeader
  by_cases hshort : payload.length ≤ 55
  · rw [if_pos hshort]
    refine ⟨payload.length, payload, by omega, rfl, fun after => ?_⟩
    rw [takePayload, if_pos hshort, takeExactly_append]
  · rw [if_neg hshort]
    have hle := length_integerBytes_le hlen
    have hpos : 0 < (integerBytes payload.length).length := length_integerBytes_pos (by omega)
    refine ⟨55 + (integerBytes payload.length).length, _, by omega, by rw [Nat.add_assoc],
      fun after => ?_⟩
    have hlong : ¬55 + (integerBytes payload.length).length ≤ 55 := by omega
    have hlength : 55 < bigValue (integerBytes payload.length) := by
      rw [bigValue_integerBytes]
      omega
    rw [takePayload, if_neg hlong, Nat.add_sub_cancel_left, List.append_assoc, takeExactly_append,
      Option.bind_some]
    dsimp only
    rw [if_pos ⟨minimal_integerBytes _, hlength⟩, bigValue_integerBytes, takeExactly_append]

/-- A payload that was found is behind its own header. -/
theorem eq_withHeader {base tag : Nat} {bytes payload rest : List UInt8}
    (h : takePayload tag bytes = some (payload, rest)) :
    UInt8.ofNat (base + tag) :: bytes = withHeader base payload ++ rest := by
  unfold takePayload at h
  split at h
  · rename_i htag
    obtain ⟨rfl, hlen⟩ := takeExactly_eq_some h
    rw [withHeader, if_pos (by omega), hlen]
    rfl
  · rename_i htag
    obtain ⟨⟨len, tail⟩, hlen, htail⟩ := Option.bind_eq_some_iff.mp h
    obtain ⟨rfl, hcount⟩ := takeExactly_eq_some hlen
    dsimp only at htail
    split at htail
    · rename_i hmin
      obtain ⟨rfl, hpayload⟩ := takeExactly_eq_some htail
      have hbytes : integerBytes payload.length = len := by
        rw [hpayload]
        exact (eq_integerBytes hmin.1).symm
      rw [withHeader, if_neg (by omega), hbytes, hcount]
      have hbase : base + 55 + (tag - 55) = base + tag := by omega
      rw [hbase, List.cons_append, List.append_assoc]
    · cases htail

theorem length_withHeader (base : Nat) (payload : List UInt8) :
    payload.length < (withHeader base payload).length := by
  unfold withHeader
  split
  · simp
  · simp only [List.length_cons, List.length_append]
    omega

theorem length_withHeader_le (base : Nat) {payload : List UInt8}
    (hlen : payload.length < 256 ^ 8) : (withHeader base payload).length ≤ payload.length + 9 := by
  have hle := length_integerBytes_le hlen
  unfold withHeader
  split
  · simp
  · simp only [List.length_cons, List.length_append]
    omega

/-- Headers of strings, and of lists, are bytes of their own range. -/
theorem toNat_header {base tag : Nat} (hbase : base + 64 ≤ 256) (htag : tag < 64) :
    (UInt8.ofNat (base + tag)).toNat = base + tag := by
  rw [UInt8.toNat_ofNat', Nat.mod_eq_of_lt (by omega)]

theorem decodeItem_bytes {data : List UInt8} (hlen : data.length < 256 ^ 8) (fuel : Nat)
    (rest : List UInt8) :
    decodeItem (fuel + 1) (encodeBytes data ++ rest) = some (.bytes data, rest) := by
  unfold encodeBytes
  split
  · rename_i hsmall
    obtain ⟨b, rfl, hb⟩ : ∃ b, data = [b] ∧ b < 0x80 := by
      match data, hsmall with
      | [b], h => exact ⟨b, rfl, h⟩
    rw [List.singleton_append, decodeItem, if_pos hb]
  · rename_i hsmall
    obtain ⟨tag, bytes, htag, heq, htake⟩ := withHeader_eq 0x80 hlen
    have hbyte : (UInt8.ofNat (0x80 + tag)).toNat = 0x80 + tag := toNat_header (by decide) htag
    have hlow : ¬UInt8.ofNat (0x80 + tag) < 0x80 := by
      rw [UInt8.lt_iff_toNat_lt, hbyte]
      exact Nat.not_lt.mpr (Nat.le_add_right _ _)
    have hkind : UInt8.ofNat (0x80 + tag) < 0xc0 := by
      rw [UInt8.lt_iff_toNat_lt, hbyte]
      exact Nat.add_lt_add_left htag _
    rw [heq, List.cons_append, decodeItem, if_neg hlow, if_pos hkind, hbyte,
      Nat.add_sub_cancel_left, htake, Option.bind_some]
    dsimp only
    rw [if_neg hsmall]

theorem encodeBytes_ne_nil (data : List UInt8) : encodeBytes data ≠ [] := by
  unfold encodeBytes
  split
  · rintro rfl
    assumption
  · exact List.ne_nil_of_length_pos (by have := length_withHeader 0x80 data; omega)

theorem Item.length_encode_pos (item : Item) : 0 < item.encode.length := by
  cases item with
  | bytes data =>
    rw [Item.encode]
    exact List.length_pos_of_ne_nil (encodeBytes_ne_nil data)
  | list items =>
    rw [Item.encode]
    exact Nat.zero_lt_of_lt (length_withHeader 0xc0 _)

theorem length_le_encodeBytes (data : List UInt8) : data.length ≤ (encodeBytes data).length := by
  unfold encodeBytes
  split
  · exact Nat.le_refl _
  · exact Nat.le_of_lt (length_withHeader 0x80 data)

theorem length_encodeBytes_le {data : List UInt8} (hlen : data.length < 256 ^ 8) :
    (encodeBytes data).length ≤ data.length + 9 := by
  unfold encodeBytes
  split
  · exact Nat.le_add_right _ _
  · exact length_withHeader_le 0x80 hlen

mutual

theorem decodeItem_encode : ∀ (item : Item) (fuel : Nat) (rest : List UInt8),
    item.encode.length < 256 ^ 8 → 2 * item.encode.length ≤ fuel + 1 →
    decodeItem fuel (item.encode ++ rest) = some (item, rest)
  | .bytes data, fuel, rest, hlen, hfuel => by
    have hpos := (Item.bytes data).length_encode_pos
    obtain ⟨fuel, rfl⟩ := Nat.exists_eq_add_of_le' (show 1 ≤ fuel by omega)
    rw [Item.encode] at hlen ⊢
    exact decodeItem_bytes (lt_of_le_of_lt (length_le_encodeBytes data) hlen) fuel rest
  | .list items, fuel, rest, hlen, hfuel => by
    have hpos := (Item.list items).length_encode_pos
    obtain ⟨fuel, rfl⟩ := Nat.exists_eq_add_of_le' (show 1 ≤ fuel by omega)
    rw [Item.encode] at hlen hfuel ⊢
    have hshorter := length_withHeader 0xc0 (encodeAll items)
    have hitems := decodeAll_encodeAll items fuel (by omega) (by omega)
    obtain ⟨tag, bytes, htag, heq, htake⟩ :=
      @withHeader_eq 0xc0 (encodeAll items) (by omega)
    have hbyte : (UInt8.ofNat (0xc0 + tag)).toNat = 0xc0 + tag := toNat_header (by decide) htag
    have hlow : ¬UInt8.ofNat (0xc0 + tag) < 0x80 := by
      rw [UInt8.lt_iff_toNat_lt, hbyte]
      exact Nat.not_lt.mpr (le_trans (by decide) (Nat.le_add_right 0xc0 tag))
    have hkind : ¬UInt8.ofNat (0xc0 + tag) < 0xc0 := by
      rw [UInt8.lt_iff_toNat_lt, hbyte]
      exact Nat.not_lt.mpr (Nat.le_add_right _ _)
    rw [heq, List.cons_append, decodeItem, if_neg hlow, if_neg hkind, hbyte,
      Nat.add_sub_cancel_left, htake, Option.bind_some]
    dsimp only
    rw [hitems, Option.map_some]

theorem decodeAll_encodeAll : ∀ (items : List Item) (fuel : Nat),
    (encodeAll items).length < 256 ^ 8 → 2 * (encodeAll items).length ≤ fuel →
    decodeAll fuel (encodeAll items) = some items
  | [], fuel, _, _ => by rw [encodeAll, decodeAll]
  | item :: items, fuel, hlen, hfuel => by
    have hpos := item.length_encode_pos
    rw [encodeAll, List.length_append] at hlen hfuel
    obtain ⟨fuel, rfl⟩ := Nat.exists_eq_add_of_le' (show 1 ≤ fuel by omega)
    have hitem := decodeItem_encode item fuel (encodeAll items) (by omega) (by omega)
    have hitems := decodeAll_encodeAll items fuel (by omega) (by omega)
    rw [encodeAll]
    obtain ⟨b, bytes, hbytes⟩ := List.exists_cons_of_length_pos hpos
    rw [hbytes, List.cons_append] at hitem ⊢
    rw [decodeAll, hitem, Option.bind_some]
    dsimp only
    rw [hitems, Option.map_some]

end

/-- An encoding is read back. -/
theorem decode_encode {item : Item} (h : item.encode.length < 2 ^ 64) :
    decode item.encode = some item := by
  have hitem := decodeItem_encode item (2 * item.encode.length) [] h (Nat.le_succ _)
  rw [List.append_nil] at hitem
  rw [decode, hitem]

/-! ### Only encodings are read -/

theorem encodeBytes_of_not_small {data : List UInt8} (h : ¬IsSmall data) :
    encodeBytes data = withHeader 0x80 data := if_neg h

theorem ofNat_header (base : Nat) {b : UInt8} (hbase : base < 256) (h : ¬b < UInt8.ofNat base) :
    UInt8.ofNat (base + (b.toNat - base)) = b := by
  rw [UInt8.lt_iff_toNat_lt, UInt8.toNat_ofNat', Nat.mod_eq_of_lt hbase, Nat.not_lt] at h
  rw [Nat.add_sub_of_le h, UInt8.ofNat_toNat]

/-- What was read is the encoding of the item, and nothing else. -/
theorem encode_of_decodeItem (fuel : Nat) :
    (∀ bytes item rest, decodeItem fuel bytes = some (item, rest) → bytes = item.encode ++ rest) ∧
      ∀ bytes items, decodeAll fuel bytes = some items → bytes = encodeAll items := by
  induction fuel with
  | zero =>
    refine ⟨fun bytes item rest h => ?_, fun bytes items h => ?_⟩
    · rw [decodeItem] at h
      cases h
    · cases bytes with
      | nil =>
        rw [decodeAll] at h
        obtain rfl := Option.some.inj h
        rfl
      | cons b bytes =>
        rw [decodeAll] at h
        cases h
  | succ fuel ih =>
    obtain ⟨ihitem, ihall⟩ := ih
    constructor
    · intro bytes item rest h
      cases bytes with
      | nil =>
        rw [decodeItem] at h
        cases h
      | cons b bytes =>
        rw [decodeItem] at h
        split at h
        · rename_i hsmall
          obtain ⟨rfl, rfl⟩ := Prod.mk.inj (Option.some.inj h)
          rw [Item.encode, encodeBytes, if_pos (show IsSmall [b] from hsmall)]
          rfl
        · rename_i hlow
          split at h
          · rename_i hkind
            obtain ⟨⟨data, tail⟩, htake, hdata⟩ := Option.bind_eq_some_iff.mp h
            dsimp only at hdata
            split at hdata
            · cases hdata
            · rename_i hsmall
              obtain ⟨rfl, rfl⟩ := Prod.mk.inj (Option.some.inj hdata)
              have hbyte : UInt8.ofNat (0x80 + (b.toNat - 0x80)) = b :=
                ofNat_header 0x80 (by decide) hlow
              rw [Item.encode, encodeBytes_of_not_small hsmall, ← eq_withHeader htake, hbyte]
          · rename_i hkind
            obtain ⟨⟨payload, tail⟩, htake, hpayload⟩ := Option.bind_eq_some_iff.mp h
            obtain ⟨items, hitems, heq⟩ := Option.map_eq_some_iff.mp hpayload
            obtain ⟨rfl, rfl⟩ := Prod.mk.inj heq
            have hbyte : UInt8.ofNat (0xc0 + (b.toNat - 0xc0)) = b :=
              ofNat_header 0xc0 (by decide) hkind
            rw [Item.encode, ← ihall _ _ hitems, ← eq_withHeader htake, hbyte]
    · intro bytes items h
      cases bytes with
      | nil =>
        rw [decodeAll] at h
        obtain rfl := Option.some.inj h
        rfl
      | cons b bytes =>
        rw [decodeAll] at h
        obtain ⟨⟨item, rest⟩, hitem, hmap⟩ := Option.bind_eq_some_iff.mp h
        obtain ⟨tail, htail, rfl⟩ := Option.map_eq_some_iff.mp hmap
        rw [encodeAll, ihitem _ _ _ hitem, ← ihall _ _ htail]

/-- An item has one encoding that `decode` accepts. -/
theorem encode_of_decode {bytes : List UInt8} {item : Item} (h : decode bytes = some item) :
    bytes = item.encode := by
  unfold decode at h
  split at h
  · rename_i found hitem
    obtain rfl := Option.some.inj h
    rw [(encode_of_decodeItem _).1 _ _ _ hitem, List.append_nil]
  · cases h

end OsModa.Rlp
