import OsModa.Base.Reader
import OsModa.Keyd.Transactions

/-!
The legacy message of a Solana transaction, read back.

The format has a header of three counts, the account keys, a recent blockhash and the
instructions, which name accounts by their index. The counts of the header give every
account its role. The runtime loads each account once, so it refuses a message that
lists a key twice.
-/

namespace OsModa.Keyd

open OsModa.Encoding OsModa.Reader

/-! ### The format -/

structure SolInstruction where
  programIdIndex : UInt8
  accounts : List UInt8
  data : List UInt8

structure SolMessage where
  numRequiredSignatures : UInt8
  numReadonlySigned : UInt8
  numReadonlyUnsigned : UInt8
  accountKeys : List Bytes32
  recentBlockhash : Bytes32
  instructions : List SolInstruction

/-- A length of at most sixteen bits, seven bits a byte, in its shortest form. -/
def readCompactU16 : List UInt8 → Option (Nat × List UInt8)
  | [] => none
  | a :: rest =>
    if a < 0x80 then some (a.toNat, rest)
    else match rest with
      | [] => none
      | b :: rest =>
        if b = 0 then none
        else if b < 0x80 then some (a.toNat - 0x80 + 0x80 * b.toNat, rest)
        else match rest with
          | [] => none
          | c :: rest =>
            if c = 0 ∨ 3 < c then none
            else some (a.toNat - 0x80 + 0x80 * (b.toNat - 0x80) + 0x4000 * c.toNat, rest)

/-- A vector: its length, and as many values. -/
def readVector {α : Type} (read : List UInt8 → Option (α × List UInt8)) (bytes : List UInt8) :
    Option (List α × List UInt8) :=
  (readCompactU16 bytes).bind fun (n, rest) => readMany read n rest

def readBytes32 (bytes : List UInt8) : Option (Bytes32 × List UInt8) :=
  (takeExactly 32 bytes).bind fun (key, rest) => (toBytes32 key).map fun key => (key, rest)

def readInstruction (bytes : List UInt8) : Option (SolInstruction × List UInt8) :=
  (readByte bytes).bind fun (programIdIndex, rest) =>
  (readVector readByte rest).bind fun (accounts, rest) =>
  (readVector readByte rest).map fun (data, rest) => (⟨programIdIndex, accounts, data⟩, rest)

/-- A whole message, with nothing after it. -/
def readMessage : List UInt8 → Option SolMessage
  | required :: readonlySigned :: readonlyUnsigned :: rest =>
    (readVector readBytes32 rest).bind fun (keys, rest) =>
    (readBytes32 rest).bind fun (blockhash, rest) =>
    (readVector readInstruction rest).bind fun (instructions, rest) =>
    if rest = [] then
      some ⟨required, readonlySigned, readonlyUnsigned, keys, blockhash, instructions⟩
    else none
  | _ => none

/-! ### What a message says -/

/-- How a transaction uses an account. -/
structure SolAccount where
  key : Bytes32
  signer : Bool
  writable : Bool
  deriving DecidableEq

/-- The System Program's account. -/
def systemProgram : Bytes32 := ⟨systemProgramId, by decide⟩

namespace SolMessage

/-- The header counts accounts that are there, and the first, which pays, is writable. -/
def HeaderFits (m : SolMessage) : Prop :=
  m.numRequiredSignatures.toNat + m.numReadonlyUnsigned.toNat ≤ m.accountKeys.length ∧
  m.numReadonlySigned < m.numRequiredSignatures

/-- The accounts with the roles that the header gives them: those that sign come first,
and the read-only ones of either kind come last. -/
def accounts (m : SolMessage) : List SolAccount :=
  m.accountKeys.mapIdx fun i key =>
    let signer := i < m.numRequiredSignatures.toNat
    ⟨key, signer,
      if signer then i < m.numRequiredSignatures.toNat - m.numReadonlySigned.toNat
      else i < m.accountKeys.length - m.numReadonlyUnsigned.toNat⟩

/-- The transfer that the message is, if it is one instruction for the System Program
that is a transfer. -/
def transfer (m : SolMessage) : Option SolTransfer :=
  match m.instructions with
  | [instruction] =>
    match instruction.accounts with
    | [sender, recipient] =>
      m.accountKeys[instruction.programIdIndex.toNat]?.bind fun program =>
      m.accountKeys[sender.toNat]?.bind fun sender =>
      m.accountKeys[recipient.toNat]?.bind fun recipient =>
      if program = systemProgram ∧ instruction.data.length = 12 ∧
          littleValue (instruction.data.take 4) = 2 then
        some ⟨sender, recipient, UInt64.ofNat (littleValue (instruction.data.drop 4)),
          m.recentBlockhash⟩
      else none
    | _ => none
  | _ => none

end SolMessage

/-- The bytes are the message of a transfer that the runtime accepts. -/
def IsTransferMessage (bytes : List UInt8) (t : SolTransfer) : Prop :=
  ∃ m, readMessage bytes = some m ∧ m.HeaderFits ∧
    m.accounts = [⟨t.sender, true, true⟩, ⟨t.recipient, false, true⟩, ⟨systemProgram, false, false⟩] ∧
    m.transfer = some t ∧ m.accountKeys.Nodup

/-! ### The message that keyd builds -/

theorem readBytes32_append (key : Bytes32) (rest : List UInt8) :
    readBytes32 (key.val ++ rest) = some (key, rest) := by
  have htake := takeExactly_append key.val rest
  rw [key.property] at htake
  rw [readBytes32, htake, Option.bind_some]
  dsimp only
  rw [toBytes32_val, Option.map_some]

/-- A vector of fewer than 128 values has its length in one byte. -/
theorem readVector_cons {α : Type} {read : List UInt8 → Option (α × List UInt8)} {n : UInt8}
    (hn : n < 0x80) (rest : List UInt8) :
    readVector read (n :: rest) = readMany read n.toNat rest := by
  have hlen : readCompactU16 (n :: rest) = some (n.toNat, rest) := by
    rw [readCompactU16.eq_def]
    exact if_pos hn
  rw [readVector, hlen, Option.bind_some]

/-- The data of the transfer instruction. -/
def transferData (lamports : UInt64) : List UInt8 :=
  littleEndian 4 transferInstructionIndex ++ littleEndian 8 lamports.toNat

/-- The message that the bytes are of. -/
def transferMessage (t : SolTransfer) : SolMessage where
  numRequiredSignatures := 1
  numReadonlySigned := 0
  numReadonlyUnsigned := 1
  accountKeys := [t.sender, t.recipient, systemProgram]
  recentBlockhash := t.recentBlockhash
  instructions := [⟨2, [0, 1], transferData t.lamports⟩]

theorem readMessage_buildTransferMessage (t : SolTransfer) :
    readMessage (buildTransferMessage t) = some (transferMessage t) := by
  have hkeys := fun rest =>
    readMany_flatMap readBytes32_append [t.sender, t.recipient, systemProgram] rest
  simp only [List.flatMap_cons, List.flatMap_nil, List.append_assoc, List.append_nil,
    List.length_cons, List.length_nil] at hkeys
  have hdata := readMany_readByte (transferData t.lamports) []
  rw [List.append_nil] at hdata
  have hinstruction : readInstruction (2 :: 2 :: 0 :: 1 :: 12 :: transferData t.lamports) =
      some (⟨2, [0, 1], transferData t.lamports⟩, []) := by
    have haccounts : readVector readByte (2 :: 0 :: 1 :: 12 :: transferData t.lamports) =
        some ([0, 1], 12 :: transferData t.lamports) := readVector_cons (by decide) _
    have hbytes : readVector readByte (12 :: transferData t.lamports) =
        some (transferData t.lamports, []) := (readVector_cons (by decide) _).trans hdata
    rw [readInstruction, readByte, Option.bind_some]
    dsimp only
    rw [haccounts, Option.bind_some]
    dsimp only
    rw [hbytes, Option.map_some]
  have hvector : readVector readInstruction (1 :: 2 :: 2 :: 0 :: 1 :: 12 :: transferData t.lamports) =
      some ([⟨2, [0, 1], transferData t.lamports⟩], []) := by
    rw [readVector_cons (by decide)]
    change (readInstruction _).bind _ = _
    rw [hinstruction]
    rfl
  change (readVector readBytes32 (3 :: (t.sender.val ++ (t.recipient.val ++ (systemProgram.val ++
    (t.recentBlockhash.val ++ (1 :: 2 :: 2 :: 0 :: 1 :: 12 :: transferData t.lamports))))))).bind _ = _
  rw [readVector_cons (by decide)]
  change (readMany readBytes32 (0 + 1 + 1 + 1) _).bind _ = _
  rw [hkeys, Option.bind_some]
  dsimp only
  rw [readBytes32_append, Option.bind_some]
  dsimp only
  rw [hvector]
  rfl

theorem headerFits_transferMessage (t : SolTransfer) : (transferMessage t).HeaderFits :=
  ⟨show 1 + 1 ≤ 3 by decide, show (0 : UInt8) < 1 by decide⟩

theorem transfer_transferMessage (t : SolTransfer) : (transferMessage t).transfer = some t := by
  have hlen : (littleEndian 4 transferInstructionIndex).length = 4 := length_littleEndian 4 _
  have hindex : littleValue ((transferData t.lamports).take 4) = 2 := by
    rw [transferData, List.take_left' hlen]
    rfl
  have hfits : t.lamports.toNat < 256 ^ 8 := t.lamports.toNat_lt
  have hlamports : UInt64.ofNat (littleValue ((transferData t.lamports).drop 4)) = t.lamports := by
    rw [transferData, List.drop_left' hlen, littleValue_littleEndian,
      Nat.mod_eq_of_lt hfits, UInt64.ofNat_toNat]
  have hdata : (transferData t.lamports).length = 12 := by simp [transferData]
  change (if systemProgram = systemProgram ∧ (transferData t.lamports).length = 12 ∧
    littleValue ((transferData t.lamports).take 4) = 2 then
      some (SolTransfer.mk t.sender t.recipient
        (UInt64.ofNat (littleValue ((transferData t.lamports).drop 4))) t.recentBlockhash)
    else none) = some t
  rw [if_pos ⟨rfl, hdata, hindex⟩, hlamports]

/-- The keys of the message differ when the three parties do. -/
theorem nodup_accountKeys_iff (t : SolTransfer) :
    (transferMessage t).accountKeys.Nodup ↔
      t.sender ≠ t.recipient ∧ t.sender ≠ systemProgram ∧ t.recipient ≠ systemProgram := by
  simp [transferMessage, and_assoc]

/-- Every transfer becomes a message that says the same, and it is one that the runtime
accepts when no party is listed twice. -/
theorem buildTransferMessage_accepted_iff (t : SolTransfer) :
    IsTransferMessage (buildTransferMessage t) t ↔
      t.sender ≠ t.recipient ∧ t.sender ≠ systemProgram ∧ t.recipient ≠ systemProgram := by
  rw [← nodup_accountKeys_iff]
  constructor
  · rintro ⟨m, hread, -, -, -, hnodup⟩
    rw [readMessage_buildTransferMessage] at hread
    rwa [Option.some.inj hread]
  · intro hnodup
    exact ⟨transferMessage t, readMessage_buildTransferMessage t, headerFits_transferMessage t,
      rfl, transfer_transferMessage t, hnodup⟩

/-- A transfer to oneself lists one key twice. -/
theorem buildTransferMessage_to_self :
    ¬IsTransferMessage
      (buildTransferMessage ⟨⟨List.replicate 32 1, by decide⟩, ⟨List.replicate 32 1, by decide⟩, 42,
        ⟨List.replicate 32 3, by decide⟩⟩)
      ⟨⟨List.replicate 32 1, by decide⟩, ⟨List.replicate 32 1, by decide⟩, 42,
        ⟨List.replicate 32 3, by decide⟩⟩ := by
  rintro ⟨m, hread, -, -, -, hnodup⟩
  rw [readMessage_buildTransferMessage] at hread
  obtain rfl := Option.some.inj hread
  exact ((nodup_accountKeys_iff _).mp hnodup).1 rfl

/-- What is returned is that message behind its one signature. -/
theorem signedTx_of_buildAndSignTransfer {K : WalletCrypto} {key : List UInt8}
    {params : SolTxParams} {result : SolTxResult} {transfer : SolTransfer}
    (h : buildAndSignTransfer K key params = .ok (result, transfer)) :
    ∃ secret, toBytes32 (key.take 32) = some secret ∧
      transfer.sender = K.ed25519PublicKey secret ∧
      result.signedTx = K.base58Encode
        (1 :: (K.ed25519Sign secret (buildTransferMessage transfer) ++
          buildTransferMessage transfer)) := by
  unfold buildAndSignTransfer at h
  obtain ⟨secret, hsecret, h⟩ := bind_eq_ok.mp h
  obtain ⟨toBytes, -, h⟩ := bind_eq_ok.mp h
  obtain ⟨recipient, -, h⟩ := bind_eq_ok.mp h
  obtain ⟨blockhashBytes, -, h⟩ := bind_eq_ok.mp h
  obtain ⟨blockhash, -, h⟩ := bind_eq_ok.mp h
  obtain ⟨rfl, rfl⟩ := Prod.mk.inj (Except.ok.inj h)
  exact ⟨secret, orError_eq_ok.mp hsecret, rfl, rfl⟩

end OsModa.Keyd
