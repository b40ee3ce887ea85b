import OsModa.Base.Rlp
import OsModa.Keyd.Transactions

/-!
The bytes of an EIP-1559 transaction, read back.

A reader takes the type byte and the list after it, and from the list the fields in
the order of the transaction type. It accepts lengths and integers in their minimal
form only. `signedBytes_round_trip` shows that it finds in the bytes that keyd
produces what went into them, and that what is signed is the same list without the
signature.
-/

namespace OsModa.Keyd

open OsModa.Encoding OsModa.Rlp

/-! ### The reader -/

/-- What the nine unsigned fields of the transaction type say. -/
structure Eip1559Fields where
  chainId : Nat
  nonce : Nat
  maxPriorityFeePerGas : Nat
  maxFeePerGas : Nat
  gasLimit : Nat
  recipient : List UInt8
  value : Nat
  data : List UInt8
  accessList : List Item

/-- The type byte of a transaction, and the items of the list after it. -/
def readTyped : List UInt8 → Option (UInt8 × List Item)
  | [] => none
  | type :: body =>
    match decode body with
    | some (.list items) => some (type, items)
    | _ => none

def readFields : List Item → Option Eip1559Fields
  | [chainId, nonce, maxPriorityFee, maxFee, gasLimit, recipient, value, data, .list accessList] =>
    do
      let chainId ← chainId.toInteger
      let nonce ← nonce.toInteger
      let maxPriorityFee ← maxPriorityFee.toInteger
      let maxFee ← maxFee.toInteger
      let gasLimit ← gasLimit.toInteger
      let recipient ← recipient.toBytes
      let value ← value.toInteger
      let data ← data.toBytes
      some ⟨chainId, nonce, maxPriorityFee, maxFee, gasLimit, recipient, value, data, accessList⟩
  | _ => none

/-- The parity, `r` and `s`. -/
def readSignature : List Item → Option (Nat × Nat × Nat)
  | [v, r, s] => do
    let v ← v.toInteger
    let r ← r.toInteger
    let s ← s.toInteger
    some (v, r, s)
  | _ => none

/-- A type byte before a list that is short enough. -/
theorem readTyped_encode (type : UInt8) {items : List Item}
    (h : (encodeAll items).length + 9 < 2 ^ 64) :
    readTyped (type :: (Item.list items).encode) = some (type, items) := by
  have hpayload : (encodeAll items).length < 256 ^ 8 := by
    norm_num at h ⊢
    omega
  have hlen : (Item.list items).encode.length ≤ (encodeAll items).length + 9 := by
    rw [Item.encode]
    exact length_withHeader_le 0xc0 hpayload
  rw [readTyped, decode_encode (lt_of_le_of_lt hlen h)]

/-- The reader refuses every other spelling of the same items. -/
theorem eq_encode_of_readTyped {bytes : List UInt8} {type : UInt8} {items : List Item}
    (h : readTyped bytes = some (type, items)) : bytes = type :: (Item.list items).encode := by
  cases bytes with
  | nil => cases h
  | cons b body =>
    rw [readTyped] at h
    split at h
    · rename_i found hdecode
      obtain ⟨rfl, rfl⟩ := Prod.mk.inj (Option.some.inj h)
      rw [encode_of_decode hdecode]
    · cases h

/-! ### The encoders against the library -/

theorem encodeLengthBytes_eq {len : Nat} (h : len < 256 ^ 8) :
    encodeLengthBytes len = integerBytes len := by
  rw [encodeLengthBytes, dropWhile_zero, bigValue_bigEndian, Nat.mod_eq_of_lt h]

theorem rlpEncodeBytes_eq {data : List UInt8} (h : data.length < 256 ^ 8) :
    rlpEncodeBytes data = (Item.bytes data).encode := by
  rw [Item.encode]
  match data with
  | [] => rfl
  | [b] => rfl
  | b :: c :: rest =>
    have hsmall : ¬IsSmall (b :: c :: rest) := id
    rw [encodeBytes_of_not_small hsmall, rlpEncodeBytes, withHeader]
    · simp only [encodeLengthBytes_eq h]
    · rintro ⟨⟩
    · rintro b' ⟨⟩

theorem rlpEncodeUint_eq {width v : Nat} (hwidth : width < 256 ^ 8) (h : v < 256 ^ width) :
    rlpEncodeUint width v = (Item.integer v).encode := by
  unfold rlpEncodeUint
  split
  · rename_i hzero
    subst hzero
    rw [Item.integer, integerBytes, Nat.digits_zero]
    rfl
  · have hlen := length_integerBytes_le h
    rw [dropWhile_zero, bigValue_bigEndian, Nat.mod_eq_of_lt h]
    exact rlpEncodeBytes_eq (lt_of_le_of_lt hlen hwidth)

theorem rlpEncodeU64_eq (v : UInt64) : rlpEncodeU64 v = (Item.integer v.toNat).encode :=
  rlpEncodeUint_eq (by decide) v.toNat_lt

theorem rlpEncodeList_eq {items : List Item} (h : (encodeAll items).length < 256 ^ 8) :
    rlpEncodeList (items.map Item.encode) = (Item.list items).encode := by
  rw [encodeAll_eq_flatten] at h
  rw [Item.encode, encodeAll_eq_flatten, rlpEncodeList, withHeader]
  simp only [encodeLengthBytes_eq h]

theorem stripLeadingZeros_eq {bytes : List UInt8} (h : bigValue bytes ≠ 0) :
    stripLeadingZeros bytes = integerBytes (bigValue bytes) := by
  have hpos := length_integerBytes_pos (Nat.pos_of_ne_zero h)
  rw [stripLeadingZeros, dropWhile_zero]
  split
  · rename_i hnil
    rw [hnil] at hpos
    exact absurd hpos (Nat.lt_irrefl 0)
  · rfl

/-! ### The items of a transaction -/

namespace EthTx

/-- What the transaction is meant to say. -/
def contents (tx : EthTx) : Eip1559Fields where
  chainId := tx.chainId.toNat
  nonce := tx.nonce.toNat
  maxPriorityFeePerGas := tx.maxPriorityFeePerGas.toNat
  maxFeePerGas := tx.maxFeePerGas.toNat
  gasLimit := tx.gasLimit.toNat
  recipient := tx.recipient
  value := tx.value
  data := tx.data
  accessList := []

def rlpItems (tx : EthTx) : List Item :=
  [.integer tx.chainId.toNat, .integer tx.nonce.toNat, .integer tx.maxPriorityFeePerGas.toNat,
   .integer tx.maxFeePerGas.toNat, .integer tx.gasLimit.toNat, .bytes tx.recipient,
   .integer tx.value, .bytes tx.data, .list []]

def signatureItems (v : UInt8) (r s : List UInt8) : List Item :=
  [.integer v.toNat, .integer (bigValue r), .integer (bigValue s)]

theorem readFields_rlpItems (tx : EthTx) : readFields tx.rlpItems = some tx.contents := by
  simp only [rlpItems, readFields, Item.toInteger_integer]
  rfl

theorem readSignature_signatureItems (v : UInt8) (r s : List UInt8) :
    readSignature (signatureItems v r s) = some (v.toNat, bigValue r, bigValue s) := by
  simp only [signatureItems, readSignature, Item.toInteger_integer]
  rfl

theorem length_integer_le {n k : Nat} (hn : n < 256 ^ k) (hk : k ≤ 32) :
    (Item.integer n).encode.length ≤ k + 9 := by
  have hle := length_integerBytes_le hn
  have hshort : (integerBytes n).length < 256 ^ 8 :=
    lt_of_le_of_lt (le_trans hle hk) (by decide)
  exact le_trans (length_encodeBytes_le hshort) (Nat.add_le_add_right hle 9)

section

variable {tx : EthTx} (hto : tx.recipient.length = 20) (hvalue : tx.value < 2 ^ 128)
  (hdata : tx.data.length < 2 ^ 63)

include hto hvalue hdata

theorem items_eq : tx.items = tx.rlpItems.map Item.encode := by
  have hrecipient : rlpEncodeBytes tx.recipient = (Item.bytes tx.recipient).encode :=
    rlpEncodeBytes_eq (hto ▸ by decide)
  have hcalldata : rlpEncodeBytes tx.data = (Item.bytes tx.data).encode :=
    rlpEncodeBytes_eq (lt_trans hdata (by decide))
  have hamount : rlpEncodeU128 tx.value = (Item.integer tx.value).encode :=
    rlpEncodeUint_eq (by decide) hvalue
  rw [items, hrecipient, hcalldata, hamount]
  simp only [rlpEncodeU64_eq]
  rfl

/-- Next to the calldata a transaction is short. -/
theorem length_rlpItems_le : (encodeAll tx.rlpItems).length ≤ tx.data.length + 200 := by
  have hu64 : ∀ v : UInt64, (Item.integer v.toNat).encode.length ≤ 17 := fun v =>
    length_integer_le (k := 8) v.toNat_lt (by decide)
  have hchain := hu64 tx.chainId
  have hnonce := hu64 tx.nonce
  have hpriority := hu64 tx.maxPriorityFeePerGas
  have hfee := hu64 tx.maxFeePerGas
  have hgas := hu64 tx.gasLimit
  have hamount : (Item.integer tx.value).encode.length ≤ 25 :=
    length_integer_le (k := 16) hvalue (by decide)
  have hrecipient : (Item.bytes tx.recipient).encode.length ≤ tx.recipient.length + 9 :=
    length_encodeBytes_le (hto ▸ by decide)
  have hcalldata : (Item.bytes tx.data).encode.length ≤ tx.data.length + 9 :=
    length_encodeBytes_le (lt_trans hdata (by decide))
  have haccess : (Item.list []).encode.length = 1 := rfl
  simp only [rlpItems, encodeAll, List.length_append, List.length_nil]
  omega

/-- The list that is signed. -/
theorem signingInput_eq : tx.signingInput = 0x02 :: (Item.list tx.rlpItems).encode := by
  have hlen := length_rlpItems_le hto hvalue hdata
  have hfits : (encodeAll tx.rlpItems).length < 256 ^ 8 := by
    norm_num at hdata ⊢
    omega
  rw [signingInput, items_eq hto hvalue hdata, rlpEncodeList_eq hfits]

section

variable {v : UInt8} {r s : List UInt8} (hr : r.length = 32) (hs : s.length = 32)
  (hrpos : bigValue r ≠ 0) (hspos : bigValue s ≠ 0)

include hr hs

omit hto hvalue hdata in
theorem length_signatureItems_le : (encodeAll (signatureItems v r s)).length ≤ 100 := by
  have hv : (Item.integer v.toNat).encode.length ≤ 10 :=
    length_integer_le (k := 1) v.toNat_lt (by decide)
  have hr : (Item.integer (bigValue r)).encode.length ≤ 41 :=
    length_integer_le (hr ▸ bigValue_lt r) (by decide)
  have hs : (Item.integer (bigValue s)).encode.length ≤ 41 :=
    length_integer_le (hs ▸ bigValue_lt s) (by decide)
  simp only [signatureItems, encodeAll, List.length_append, List.length_nil]
  omega

theorem length_signed_le :
    (encodeAll (tx.rlpItems ++ signatureItems v r s)).length ≤ tx.data.length + 300 := by
  have hfields := length_rlpItems_le hto hvalue hdata
  have hsignature : (encodeAll (signatureItems v r s)).length ≤ 100 :=
    length_signatureItems_le hr hs
  rw [encodeAll_append, List.length_append]
  omega

include hrpos hspos

/-- The list with the signature. -/
theorem signedBytes_eq :
    tx.signedBytes v r s = 0x02 :: (Item.list (tx.rlpItems ++ signatureItems v r s)).encode := by
  have hlen := length_signed_le (v := v) hto hvalue hdata hr hs
  have hfits : (encodeAll (tx.rlpItems ++ signatureItems v r s)).length < 256 ^ 8 := by
    norm_num at hdata ⊢
    omega
  have hv : rlpEncodeUint 8 v.toNat = (Item.integer v.toNat).encode :=
    rlpEncodeUint_eq (by decide) (lt_trans v.toNat_lt (by decide))
  have hstripped : ∀ bytes : List UInt8, bytes.length = 32 → bigValue bytes ≠ 0 →
      rlpEncodeBytes (stripLeadingZeros bytes) = (Item.integer (bigValue bytes)).encode := by
    intro bytes hbytes hpos
    have hle : (integerBytes (bigValue bytes)).length ≤ 32 :=
      length_integerBytes_le (hbytes ▸ bigValue_lt bytes)
    rw [stripLeadingZeros_eq hpos]
    exact rlpEncodeBytes_eq (lt_of_le_of_lt hle (by decide))
  rw [← rlpEncodeList_eq hfits, signedBytes, items_eq hto hvalue hdata, List.map_append, hv,
    hstripped r hr hrpos, hstripped s hs hspos]
  rfl

end

end

/-- The signed bytes of a transaction read back as the twelve items that were put in,
each in its only form; what is hashed for the signature is the list of the first nine. -/
theorem signedBytes_round_trip (tx : EthTx) (v : UInt8) (r s : List UInt8)
    (hto : tx.recipient.length = 20) (hvalue : tx.value < 2 ^ 128)
    (hdata : tx.data.length < 2 ^ 63) (hr : r.length = 32) (hs : s.length = 32)
    (hrpos : bigValue r ≠ 0) (hspos : bigValue s ≠ 0) :
    ∃ fields signature : List Item,
      readTyped (tx.signedBytes v r s) = some (0x02, fields ++ signature) ∧
      tx.signedBytes v r s = 0x02 :: (Item.list (fields ++ signature)).encode ∧
      (fields ++ signature).length = 12 ∧ readFields fields = some tx.contents ∧
      readSignature signature = some (v.toNat, bigValue r, bigValue s) ∧
      tx.signingInput = 0x02 :: (Item.list fields).encode ∧
      readTyped tx.signingInput = some (0x02, fields) := by
  have hfields := length_rlpItems_le hto hvalue hdata
  have hsigned := length_signed_le (v := v) hto hvalue hdata hr hs
  have hread : readTyped (tx.signedBytes v r s) =
      some (0x02, tx.rlpItems ++ signatureItems v r s) := by
    rw [signedBytes_eq hto hvalue hdata hr hs hrpos hspos]
    apply readTyped_encode
    norm_num at hdata ⊢
    omega
  have hreadInput : readTyped tx.signingInput = some (0x02, tx.rlpItems) := by
    rw [signingInput_eq hto hvalue hdata]
    apply readTyped_encode
    norm_num at hdata ⊢
    omega
  exact ⟨tx.rlpItems, signatureItems v r s, hread, eq_encode_of_readTyped hread, rfl,
    readFields_rlpItems tx, readSignature_signatureItems v r s,
    eq_encode_of_readTyped hreadInput, hreadInput⟩

theorem signedBytes_round_trip_short :
    ∃ fields signature : List Item,
      readTyped (EthTx.signedBytes ⟨1, 0, 2, 3, 21000, List.replicate 20 1, 10 ^ 18, [0]⟩ 1
        (List.replicate 32 5) (0 :: List.replicate 31 6)) = some (0x02, fields ++ signature) :=
  have h := signedBytes_round_trip ⟨1, 0, 2, 3, 21000, List.replicate 20 1, 10 ^ 18, [0]⟩ 1
    (List.replicate 32 5) (0 :: List.replicate 31 6) (by decide) (by decide) (by decide) (by decide)
    (by decide) (by decide +kernel) (by decide +kernel)
  h.imp fun _ h => h.imp fun _ h => h.1

end EthTx

/-- What is returned is the transaction with a signature of the hash of its signing input. -/
theorem signedTx_of_buildAndSignEip1559 {K : WalletCrypto} {key : List UInt8}
    {params : EthTxParams} {result : EthTxResult} {tx : EthTx}
    (h : buildAndSignEip1559 K key params = .ok (result, tx)) :
    ∃ sig recid, K.ecdsaSignPrehash key (K.keccak256 tx.signingInput) = .ok (sig, recid) ∧
      result.signedTx = prefixedHex (tx.signedBytes recid (sig.take 32) (sig.drop 32)) := by
  unfold buildAndSignEip1559 at h
  obtain ⟨publicKey, -, h⟩ := bind_eq_ok.mp h
  obtain ⟨recipient, -, h⟩ := bind_eq_ok.mp h
  obtain ⟨value, -, h⟩ := bind_eq_ok.mp h
  obtain ⟨data, -, h⟩ := bind_eq_ok.mp h
  obtain ⟨⟨sig, recid⟩, hsig, h⟩ := bind_eq_ok.mp h
  obtain ⟨rfl, rfl⟩ := Prod.mk.inj (Except.ok.inj h)
  exact ⟨sig, recid, mapError_eq_ok.mp hsig, rfl⟩

end OsModa.Keyd
