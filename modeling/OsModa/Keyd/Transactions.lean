import OsModa.Base.Encoding
import OsModa.Base.Outcome

/-!
The transactions that keyd builds: the RLP encoding of an EIP-1559 transaction, and
the legacy message of a Solana transfer.

The primitives of the cryptography and base58 libraries are the fields of
`WalletCrypto`. A transaction is kept as a value next to its bytes, so that what was
signed can be read without decoding it.
-/

namespace OsModa.Keyd

open OsModa.Encoding

/-- What keyd uses of the libraries for secp256k1, Ed25519, Keccak, AES-GCM, base58
and hexadecimal. -/
structure WalletCrypto where
  keccak256 : List UInt8 → List UInt8
  /-- The uncompressed public key, or why the bytes are no secp256k1 key. -/
  ecdsaPublicKey : List UInt8 → Except String (List UInt8)
  /-- The signature of a message under a valid key, `r` and `s` of 32 bytes each. -/
  ecdsaSign : List UInt8 → List UInt8 → List UInt8
  /-- The signature of a hash, with its recovery id. -/
  ecdsaSignPrehash : List UInt8 → List UInt8 → Except String (List UInt8 × UInt8)
  ed25519PublicKey : Bytes32 → Bytes32
  ed25519Sign : Bytes32 → List UInt8 → List UInt8
  base58Encode : List UInt8 → String
  base58Decode : String → Option (List UInt8)
  /-- AES-256-GCM under the master key: the nonce and the ciphertext. -/
  aesDecrypt : List UInt8 → List UInt8 → Except String (List UInt8)
  /-- The text of the error for a string that is not hexadecimal. -/
  hexError : String → String

/-! ### RLP -/

def encodeLengthBytes (len : Nat) : List UInt8 := (bigEndian 8 len).dropWhile (· = 0)

def rlpEncodeBytes (data : List UInt8) : List UInt8 :=
  match data with
  | [] => [0x80]
  | [b] => if b < 0x80 then [b] else [0x81, b]
  | _ =>
    if data.length ≤ 55 then UInt8.ofNat (0x80 + data.length) :: data
    else
      let lenBytes := encodeLengthBytes data.length
      UInt8.ofNat (0xb7 + lenBytes.length) :: (lenBytes ++ data)

/-- An unsigned integer without leading zeros. -/
def rlpEncodeUint (width v : Nat) : List UInt8 :=
  if v = 0 then [0x80] else rlpEncodeBytes ((bigEndian width v).dropWhile (· = 0))

def rlpEncodeU64 (v : UInt64) : List UInt8 := rlpEncodeUint 8 v.toNat

def rlpEncodeU128 (v : Nat) : List UInt8 := rlpEncodeUint 16 v

def rlpEncodeList (items : List (List UInt8)) : List UInt8 :=
  let payload := items.flatten
  if payload.length ≤ 55 then UInt8.ofNat (0xc0 + payload.length) :: payload
  else
    let lenBytes := encodeLengthBytes payload.length
    UInt8.ofNat (0xf7 + lenBytes.length) :: (lenBytes ++ payload)

/-- Strip leading zeros, but keep at least one byte. -/
def stripLeadingZeros (data : List UInt8) : List UInt8 :=
  match data.dropWhile (· = 0) with
  | [] => data.drop (data.length - 1)
  | rest => rest

/-! ### EIP-1559 -/

structure EthTxParams where
  chainId : UInt64
  nonce : UInt64
  recipient : String
  value : String
  maxFeePerGas : UInt64
  maxPriorityFeePerGas : UInt64
  gasLimit : UInt64
  data : Option String
  deriving DecidableEq

/-- The fields of a transaction; `value` is in wei. -/
structure EthTx where
  chainId : UInt64
  nonce : UInt64
  maxPriorityFeePerGas : UInt64
  maxFeePerGas : UInt64
  gasLimit : UInt64
  recipient : List UInt8
  value : Nat
  data : List UInt8
  deriving DecidableEq

structure EthTxResult where
  signedTx : String
  txHash : String
  sender : String
  recipient : String
  value : String
  chainId : UInt64
  deriving DecidableEq

namespace EthTx

/-- The items of the list that is signed. -/
def items (tx : EthTx) : List (List UInt8) :=
  [rlpEncodeU64 tx.chainId, rlpEncodeU64 tx.nonce, rlpEncodeU64 tx.maxPriorityFeePerGas,
   rlpEncodeU64 tx.maxFeePerGas, rlpEncodeU64 tx.gasLimit, rlpEncodeBytes tx.recipient,
   rlpEncodeU128 tx.value, rlpEncodeBytes tx.data, rlpEncodeList []]

/-- The bytes whose hash is signed. -/
def signingInput (tx : EthTx) : List UInt8 := 0x02 :: rlpEncodeList tx.items

/-- The transaction with its signature. -/
def signedBytes (tx : EthTx) (v : UInt8) (r s : List UInt8) : List UInt8 :=
  0x02 :: rlpEncodeList (tx.items ++
    [rlpEncodeUint 8 v.toNat, rlpEncodeBytes (stripLeadingZeros r),
     rlpEncodeBytes (stripLeadingZeros s)])

end EthTx

/-- Bytes in hexadecimal with the prefix `0x`. -/
def prefixedHex (bytes : List UInt8) : String := "0x" ++ String.ofList (hexEncode bytes)

/-- Parse an Ethereum address (0x-prefixed hex) into 20 bytes. -/
def parseAddress (addr : String) : Option (List UInt8) :=
  let hexStr := if ['0', 'x'].isPrefixOf addr.toList then addr.toList.drop 2 else addr.toList
  if (utf8 hexStr).length ≠ 40 then none else hexDecode? hexStr

section

variable (K : WalletCrypto)

/-- Build and sign an EIP-1559 transaction. Returns the transaction next to the
texts of the result. -/
def buildAndSignEip1559 (key : List UInt8) (params : EthTxParams) :
    Except String (EthTxResult × EthTx) :=
  ((K.ecdsaPublicKey key).mapError ("invalid ETH key: " ++ ·)).bind fun publicKey =>
  (orError (parseAddress params.recipient) "invalid 'to' address").bind fun recipient =>
  (orError (parseUnsigned 128 params.value.toList)
    "invalid value — must be decimal wei string").bind fun value =>
  (match params.data with
    | some d => orError (hexDecode? d.toList) "invalid calldata hex"
    | none => .ok []).bind fun data =>
  let tx : EthTx := ⟨params.chainId, params.nonce, params.maxPriorityFeePerGas,
    params.maxFeePerGas, params.gasLimit, recipient, value, data⟩
  ((K.ecdsaSignPrehash key (K.keccak256 tx.signingInput)).mapError
    ("signing failed: " ++ ·)).bind fun (sig, recid) =>
  let signedTx := tx.signedBytes recid (sig.take 32) (sig.drop 32)
  .ok (⟨prefixedHex signedTx, prefixedHex (K.keccak256 signedTx),
    prefixedHex ((K.keccak256 (publicKey.drop 1)).drop 12), params.recipient, params.value,
    params.chainId⟩, tx)

/-- The value that is signed is the parsed text of the request. -/
theorem value_of_buildAndSignEip1559 {key : List UInt8} {params : EthTxParams}
    {result : EthTxResult} {tx : EthTx}
    (h : buildAndSignEip1559 K key params = .ok (result, tx)) :
    parseUnsigned 128 params.value.toList = some tx.value := by
  unfold buildAndSignEip1559 at h
  obtain ⟨publicKey, -, h⟩ := bind_eq_ok.mp h
  obtain ⟨recipient, -, h⟩ := bind_eq_ok.mp h
  obtain ⟨value, hvalue, h⟩ := bind_eq_ok.mp h
  obtain ⟨data, -, h⟩ := bind_eq_ok.mp h
  obtain ⟨⟨sig, recid⟩, -, h⟩ := bind_eq_ok.mp h
  obtain ⟨-, rfl⟩ := Prod.mk.inj (Except.ok.inj h)
  exact orError_eq_ok.mp hvalue

end

/-! ### Solana -/

structure SolTxParams where
  recipient : String
  lamports : UInt64
  recentBlockhash : String
  deriving DecidableEq

/-- The fields of a transfer. -/
structure SolTransfer where
  sender : Bytes32
  recipient : Bytes32
  lamports : UInt64
  recentBlockhash : Bytes32
  deriving DecidableEq

structure SolTxResult where
  signedTx : String
  signature : String
  sender : String
  recipient : String
  lamports : UInt64
  deriving DecidableEq

/-- The System Program's id. -/
def systemProgramId : List UInt8 := List.replicate 32 0

/-- The index of the transfer instruction. -/
def transferInstructionIndex : Nat := 2

/-- The legacy message of a System Program transfer. -/
def buildTransferMessage (t : SolTransfer) : List UInt8 :=
  let data := littleEndian 4 transferInstructionIndex ++ littleEndian 8 t.lamports.toNat
  [1, 0, 1, 3] ++ (t.sender.val ++ (t.recipient.val ++ (systemProgramId ++ (t.recentBlockhash.val ++
    ([1, 2, 2, 0, 1, UInt8.ofNat data.length] ++ data)))))

/-- The message determines the transfer. -/
theorem buildTransferMessage_injective : Function.Injective buildTransferMessage := by
  intro ⟨s, t, l, b⟩ ⟨s', t', l', b'⟩ h
  simp only [buildTransferMessage, List.append_cancel_left_eq] at h
  obtain ⟨hs, h⟩ := List.append_inj h (by rw [s.property, s'.property])
  obtain ⟨ht, h⟩ := List.append_inj h (by rw [t.property, t'.property])
  obtain ⟨hb, h⟩ := List.append_inj (List.append_cancel_left h) (by rw [b.property, b'.property])
  have hdata := List.append_cancel_left (List.append_inj h (by simp)).2
  rw [littleEndian_eq_iff] at hdata
  have hl : l.toNat = l'.toNat := by
    have := l.toNat_lt
    have := l'.toNat_lt
    omega
  rw [Subtype.ext hs, Subtype.ext ht, Subtype.ext hb, UInt64.toNat_inj.mp hl]

variable (K : WalletCrypto)

/-- Build and sign a Solana transfer transaction. Returns the transfer next to the
texts of the result. -/
def buildAndSignTransfer (key : List UInt8) (params : SolTxParams) :
    Except String (SolTxResult × SolTransfer) :=
  (orError (toBytes32 (key.take 32))
    ("invalid SOL key: expected 32 bytes, got " ++ toString key.length)).bind fun secret =>
  (orError (K.base58Decode params.recipient)
    "invalid recipient address (must be base58)").bind fun toBytes =>
  (orError (toBytes32 toBytes)
    ("recipient pubkey must be 32 bytes, got " ++ toString toBytes.length)).bind fun recipient =>
  (orError (K.base58Decode params.recentBlockhash)
    "invalid recent_blockhash (must be base58)").bind fun blockhashBytes =>
  (orError (toBytes32 blockhashBytes)
    ("recent_blockhash must be 32 bytes, got " ++ toString blockhashBytes.length)).bind
    fun blockhash =>
  let transfer : SolTransfer := ⟨K.ed25519PublicKey secret, recipient, params.lamports, blockhash⟩
  let message := buildTransferMessage transfer
  let sig := K.ed25519Sign secret message
  .ok (⟨K.base58Encode (1 :: (sig ++ message)), K.base58Encode sig,
    K.base58Encode transfer.sender.val, params.recipient, params.lamports⟩, transfer)

/-- The transfer that is signed is the one of the request. -/
theorem transfer_of_buildAndSignTransfer {key : List UInt8} {params : SolTxParams}
    {result : SolTxResult} {transfer : SolTransfer}
    (h : buildAndSignTransfer K key params = .ok (result, transfer)) :
    K.base58Decode params.recipient = some transfer.recipient.val ∧ transfer.lamports = params.lamports := by
  unfold buildAndSignTransfer at h
  obtain ⟨secret, -, h⟩ := bind_eq_ok.mp h
  obtain ⟨toBytes, hto, h⟩ := bind_eq_ok.mp h
  obtain ⟨recipient, hto32, h⟩ := bind_eq_ok.mp h
  obtain ⟨blockhashBytes, -, h⟩ := bind_eq_ok.mp h
  obtain ⟨blockhash, -, h⟩ := bind_eq_ok.mp h
  obtain ⟨-, rfl⟩ := Prod.mk.inj (Except.ok.inj h)
  rw [orError_eq_ok] at hto hto32
  refine ⟨?_, rfl⟩
  rw [hto]
  unfold toBytes32 at hto32
  split at hto32
  · obtain rfl := Option.some.inj hto32
    rfl
  · cases hto32

end OsModa.Keyd
