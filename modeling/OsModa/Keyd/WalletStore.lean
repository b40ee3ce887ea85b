import OsModa.Base.File
import OsModa.Base.Machine
import OsModa.Keyd.Api

/-!
The wallets that keyd keeps: in memory, in the index file wallets.json, and with one file
for each encrypted key.

`create_wallet` writes the key file, then the index in memory, then the index file;
`delete_wallet` goes in the same order. Each may fail between two of them, and nothing is
undone. So the stores agree, and a failed request leaves no trace, exactly as long as each
request either fails before the first store or reaches the last (`atomic_iff`).
-/

namespace OsModa.Keyd

open OsModa.Machine OsModa.Encoding

/-- A wallet as wallets.json lists it. -/
structure StoredWallet extends WalletInfo where
  label : String
  createdAt : String
  deriving DecidableEq

structure WalletStore where
  index : List StoredWallet
  /-- What `load_index` reads: nothing is listed when the file is missing, and the file does
  not parse when it was torn. -/
  indexFile : Option (List StoredWallet)
  /-- The encrypted key files, by the wallet's id. -/
  keyFiles : String → Option (List UInt8)
  cachedKeys : String → Option (List UInt8 × Nat)

/-- A key as the libraries draw it. -/
inductive FreshKey where
  /-- A secp256k1 key with its uncompressed public key. -/
  | ethereum (secret publicKey : List UInt8)
  | solana (secret : Bytes32)

def FreshKey.chain : FreshKey → Chain
  | ethereum .. => .ethereum
  | solana .. => .solana

/-- The bytes that are encrypted. -/
def FreshKey.bytes : FreshKey → List UInt8
  | ethereum secret _ => secret
  | solana secret => secret.val

def FreshKey.address (K : WalletCrypto) : FreshKey → String
  | ethereum _ publicKey => prefixedHex ((K.keccak256 (publicKey.drop 1)).drop 12)
  | solana secret => K.base58Encode (K.ed25519PublicKey secret).val

/-- How the write of a key file ends, and what the path holds if it fails. -/
inductive KeyFileWrite where
  | written
  | failed (left : Option (List UInt8))

/-- How the index is saved: the write, and whether the permissions are set after it. -/
structure IndexSave where
  write : FileWrite
  permissions : Bool
  deriving DecidableEq

/-- A call of `create_wallet` with what it draws and reads, and how its calls of the operating
system end. -/
structure CreateCall where
  label : String
  key : FreshKey
  walletId : String
  now : String
  nonce : List UInt8
  keyFile : KeyFileWrite
  keyPermissions : Bool
  save : IndexSave
  /-- The text of the error of the call that fails. -/
  osError : String

/-- The entry of the new wallet. -/
def CreateCall.info (K : WalletCrypto) (call : CreateCall) : StoredWallet :=
  ⟨⟨call.walletId, call.key.chain, call.key.address K⟩, call.label, call.now⟩

/-- A call of `delete_wallet`. -/
structure DeleteCall where
  walletId : String
  /-- Whether the key file is removed. -/
  removed : Bool
  save : IndexSave
  osError : String

namespace WalletStore

/-- The wallets and keys as the signing requests use them. -/
def backend (s : WalletStore) : LocalKeyBackend :=
  ⟨s.index.map (·.toWalletInfo), s.cachedKeys, s.keyFiles⟩

/-- Before the first wallet. -/
def empty : WalletStore := ⟨[], some [], fun _ => none, fun _ => none⟩

def saveIndex (save : IndexSave) (osError : String) (s : WalletStore) :
    Except String Unit × WalletStore :=
  let s := { s with indexFile := save.write.leaves s.index s.indexFile }
  if save.write = .written ∧ save.permissions then (.ok (), s) else (.error osError, s)

/-- AES-256-GCM under the master key, with the nonce in front. -/
def encrypt (aesEncrypt : List UInt8 → List UInt8 → Except String (List UInt8))
    (nonce plaintext : List UInt8) : Except String (List UInt8) :=
  ((aesEncrypt nonce plaintext).mapError ("encryption failed: " ++ ·)).map (nonce ++ ·)

def putKeyFile (walletId : String) (left : Option (List UInt8)) (s : WalletStore) : WalletStore :=
  { s with keyFiles := Function.update s.keyFiles walletId left }

section

variable (K : WalletCrypto) (aesEncrypt : List UInt8 → List UInt8 → Except String (List UInt8))

def createWallet (call : CreateCall) (s : WalletStore) : Except String StoredWallet × WalletStore :=
  if 128 < call.label.utf8ByteSize then (.error "wallet label too long (max 128 chars)", s)
  else
    match encrypt aesEncrypt call.nonce call.key.bytes with
    | .error e => (.error e, s)
    | .ok encrypted =>
      match call.keyFile with
      | .failed left => (.error call.osError, s.putKeyFile call.walletId left)
      | .written =>
        let s := s.putKeyFile call.walletId (some encrypted)
        if call.keyPermissions then
          let (saved, s) := saveIndex call.save call.osError
            { s with index := s.index ++ [call.info K] }
          (saved.map fun _ => call.info K, s)
        else (.error call.osError, s)

end

/-- The key file, the cached key and the entries of a wallet are removed. -/
def without (walletId : String) (s : WalletStore) : WalletStore :=
  { s with
    keyFiles := Function.update s.keyFiles walletId none
    cachedKeys := Function.update s.cachedKeys walletId none
    index := s.index.filter fun w => w.id ≠ walletId }

def deleteWallet (call : DeleteCall) (s : WalletStore) : Except String Unit × WalletStore :=
  match s.backend.findWallet call.walletId with
  | none => (.error ("wallet not found: " ++ call.walletId), s)
  | some _ =>
    if (s.keyFiles call.walletId).isSome ∧ ¬ call.removed then
      (.error "failed to remove encrypted key file", s)
    else
      saveIndex call.save call.osError (s.without call.walletId)

end WalletStore

inductive WalletEvent where
  | create (call : CreateCall)
  | delete (call : DeleteCall)

abbrev WalletStep := Step WalletStore WalletEvent (Except String (Option StoredWallet))

section

variable (K : WalletCrypto) (aesEncrypt : List UInt8 → List UInt8 → Except String (List UInt8))

def walletNext (e : WalletEvent) (s : WalletStore) : Except String (Option StoredWallet) × WalletStore :=
  match e with
  | .create call => ((s.createWallet K aesEncrypt call).1.map some, (s.createWallet K aesEncrypt call).2)
  | .delete call => ((s.deleteWallet call).1.map fun _ => none, (s.deleteWallet call).2)

/-! ### What is promised of a request -/

/-- The three stores agree. -/
structure WalletStore.Consistent (s : WalletStore) : Prop where
  same : s.indexFile = some s.index
  keyed : ∀ w ∈ s.indexFile.getD [], s.keyFiles w.id ≠ none

/-- A request leaves the stores in agreement, and as they were if it fails. -/
structure Atomic (t : WalletStep) : Prop where
  consistent : t.after.Consistent
  undone : t.output.isOk = false → t.after.index = t.before.index ∧
    t.after.indexFile = t.before.indexFile ∧ t.after.keyFiles = t.before.keyFiles

/-! ### Requests that stop nowhere in between -/

/-- The index file is written, permissions and all. -/
def IndexSave.Done (save : IndexSave) : Prop := save.write = .written ∧ save.permissions

/-- A creation fails before it has changed a store, or does not fail. (A key file that is
left with what it held has not changed.) -/
def CreateCall.Whole (call : CreateCall) (s : WalletStore) : Prop :=
  128 < call.label.utf8ByteSize ∨
    match WalletStore.encrypt aesEncrypt call.nonce call.key.bytes with
    | .error _ => True
    | .ok encrypted =>
      match call.keyFile, call.keyPermissions with
      | .failed left, _ => left = s.keyFiles call.walletId
      | .written, false => some encrypted = s.keyFiles call.walletId
      | .written, true => call.save.Done

/-- A deletion fails before it has removed the key file, or does not fail. -/
def DeleteCall.Whole (call : DeleteCall) (s : WalletStore) : Prop :=
  call.walletId ∉ s.index.map (·.id) ∨ call.removed = false ∨ call.save.Done

/-- A request does not stop between two stores. -/
def Whole (t : WalletStep) : Prop :=
  match t.input with
  | .create call => call.Whole aesEncrypt t.before
  | .delete call => call.Whole t.before

/-! ### One request -/

section

variable {K} {aesEncrypt} {s : WalletStore} {save : IndexSave} {osError : String}

@[simp] theorem saveIndex_index : (s.saveIndex save osError).2.index = s.index := by
  simp only [WalletStore.saveIndex]
  split <;> rfl

@[simp] theorem saveIndex_keyFiles : (s.saveIndex save osError).2.keyFiles = s.keyFiles := by
  simp only [WalletStore.saveIndex]
  split <;> rfl

theorem saveIndex_isOk : (s.saveIndex save osError).1.isOk = true ↔ save.Done := by
  simp only [WalletStore.saveIndex, IndexSave.Done]
  split
  · exact iff_of_true rfl ‹_›
  · exact iff_of_false nofun ‹_›

theorem saveIndex_indexFile (h : save.Done) :
    (s.saveIndex save osError).2.indexFile = some s.index := by
  simp only [WalletStore.saveIndex, h.1, FileWrite.leaves]
  split <;> rfl

theorem putKeyFile_eq_self (walletId : String) : s.putKeyFile walletId (s.keyFiles walletId) = s := by
  simp [WalletStore.putKeyFile]

/-- A mapped result fails with the original. -/
theorem isOk_map {ε α β : Type} (x : Except ε α) (f : α → β) : (x.map f).isOk = x.isOk := by
  cases x <;> rfl

/-- A step that changes nothing is atomic. -/
theorem atomic_of_unchanged {t : WalletStep} (hs : t.before.Consistent)
    (hsame : t.after = t.before) : Atomic t :=
  ⟨hsame ▸ hs, fun _ => by rw [hsame]; exact ⟨rfl, rfl, rfl⟩⟩

/-- A creation that stops at the key file is atomic if it leaves the file as it was. -/
theorem atomic_of_keyFile {t : WalletStep} (hs : t.before.Consistent) {walletId : String}
    {left : Option (List UInt8)} (hfails : t.output.isOk = false)
    (hafter : t.after = t.before.putKeyFile walletId left) :
    Atomic t ↔ left = t.before.keyFiles walletId := by
  constructor
  · intro h
    obtain ⟨-, -, hkeys⟩ := h.undone hfails
    rw [hafter] at hkeys
    exact Function.update_eq_self_iff.mp hkeys
  · rintro rfl
    exact atomic_of_unchanged hs (hafter.trans (putKeyFile_eq_self walletId))

/-- A request that reaches the index is atomic if the index file is written, as long as every
wallet that it lists has its key. -/
theorem atomic_of_saved {t : WalletStep} (s' : WalletStore) (osError : String)
    (hout : t.output.isOk = (s'.saveIndex save osError).1.isOk)
    (hafter : t.after = (s'.saveIndex save osError).2) (hmoved : s'.index ≠ t.before.index)
    (hkeyed : ∀ w ∈ s'.index, s'.keyFiles w.id ≠ none) : Atomic t ↔ save.Done := by
  constructor
  · intro h
    have hok : (s'.saveIndex save osError).1.isOk = true ↔ save.Done := saveIndex_isOk
    rw [← hok, ← hout]
    by_contra hfails
    obtain ⟨hindex, -, -⟩ := h.undone (by simpa using hfails)
    rw [hafter, saveIndex_index] at hindex
    exact hmoved hindex
  · intro hdone
    have hfile : t.after.indexFile = some s'.index := by rw [hafter, saveIndex_indexFile hdone]
    refine ⟨⟨?_, ?_⟩, fun hfails => ?_⟩
    · rw [hfile, hafter, saveIndex_index]
    · rw [hfile, hafter, saveIndex_keyFiles]
      exact hkeyed
    · rw [hout, saveIndex_isOk.mpr hdone] at hfails
      cases hfails

theorem create_atomic_iff (hs : s.Consistent) (call : CreateCall) :
    Atomic (stepOf (walletNext K aesEncrypt) (.create call) s) ↔ call.Whole aesEncrypt s := by
  have hlisted : ∀ w ∈ s.index, s.keyFiles w.id ≠ none := by simpa [hs.same] using hs.keyed
  by_cases hlabel : 128 < call.label.utf8ByteSize
  · refine iff_of_true (atomic_of_unchanged hs ?_) (.inl hlabel)
    simp [walletNext, WalletStore.createWallet, hlabel]
  cases hencrypt : WalletStore.encrypt aesEncrypt call.nonce call.key.bytes with
  | error e =>
    refine iff_of_true (atomic_of_unchanged hs ?_) (.inr (by rw [hencrypt]; trivial))
    simp [walletNext, WalletStore.createWallet, hlabel, hencrypt]
  | ok encrypted =>
    simp only [CreateCall.Whole, hlabel, false_or, hencrypt]
    cases hwrite : call.keyFile with
    | failed left =>
      refine atomic_of_keyFile hs ?_ ?_ <;>
        simp [walletNext, WalletStore.createWallet, hlabel, hencrypt, hwrite, Except.map,
          Except.isOk, Except.toBool]
    | written =>
      cases hperm : call.keyPermissions with
      | false =>
        refine atomic_of_keyFile hs ?_ ?_ <;>
          simp [walletNext, WalletStore.createWallet, hlabel, hencrypt, hwrite, hperm, Except.map,
            Except.isOk, Except.toBool]
      | true =>
        refine atomic_of_saved { s.putKeyFile call.walletId (some encrypted) with
            index := s.index ++ [call.info K] } call.osError ?_ ?_ (by simp) ?_
        · simp [walletNext, WalletStore.createWallet, hlabel, hencrypt, hwrite, hperm, isOk_map,
            WalletStore.putKeyFile]
        · simp [walletNext, WalletStore.createWallet, hlabel, hencrypt, hwrite, hperm,
            WalletStore.putKeyFile]
        · intro w hw
          simp only [WalletStore.putKeyFile]
          by_cases hid : w.id = call.walletId
          · simp [hid]
          · rw [Function.update_of_ne hid]
            rcases List.mem_append.mp hw with hold | hnew
            · exact hlisted w hold
            · exact absurd (congrArg (·.id) (List.mem_singleton.mp hnew)) hid

theorem delete_atomic_iff (hs : s.Consistent) (call : DeleteCall) :
    Atomic (stepOf (walletNext K aesEncrypt) (.delete call) s) ↔ call.Whole s := by
  have hlisted : ∀ w ∈ s.index, s.keyFiles w.id ≠ none := by simpa [hs.same] using hs.keyed
  by_cases hid : call.walletId ∈ s.index.map (·.id)
  · obtain ⟨wallet, hmem, hwallet⟩ := List.mem_map.mp hid
    have hkey : (s.keyFiles call.walletId).isSome := by
      rw [← hwallet]
      exact Option.isSome_iff_ne_none.mpr (hlisted wallet hmem)
    obtain ⟨found, hfind⟩ : ∃ found, s.backend.findWallet call.walletId = some found := by
      rw [← Option.isSome_iff_exists, LocalKeyBackend.findWallet, List.find?_isSome]
      exact ⟨wallet.toWalletInfo, List.mem_map_of_mem hmem, by simpa using hwallet⟩
    cases hremoved : call.removed with
    | false =>
      refine iff_of_true (atomic_of_unchanged hs ?_) (.inr (.inl hremoved))
      simp [walletNext, WalletStore.deleteWallet, hfind, hkey, hremoved]
    | true =>
      have hwhole : call.Whole s ↔ call.save.Done := by
        simp only [DeleteCall.Whole, hid, hremoved, not_true, false_or, Bool.true_eq_false]
      rw [hwhole]
      refine atomic_of_saved (s.without call.walletId) call.osError ?_ ?_ ?_ ?_
      · simp [walletNext, WalletStore.deleteWallet, hfind, hremoved, isOk_map]
      · simp [walletNext, WalletStore.deleteWallet, hfind, hremoved]
      · intro hsame
        have := List.filter_eq_self.mp hsame wallet hmem
        simp [hwallet] at this
      · intro w hw
        obtain ⟨hold, hother⟩ := List.mem_filter.mp hw
        simp only [WalletStore.without]
        rw [Function.update_of_ne (by simpa using hother)]
        exact hlisted w hold
  · refine iff_of_true (atomic_of_unchanged hs ?_) (.inl hid)
    have hfind : s.backend.findWallet call.walletId = none := by
      rw [LocalKeyBackend.findWallet, List.find?_eq_none]
      intro w hw hwid
      obtain ⟨stored, hstored, rfl⟩ := List.mem_map.mp hw
      exact hid (List.mem_map.mpr ⟨stored, hstored, by simpa using hwid⟩)
    simp [walletNext, WalletStore.deleteWallet, hfind]

end

/-- **The wallet store is atomic as long as no request stops in between.** In a run of creations
and deletions, each leaves the stores in agreement, and unchanged if it fails, exactly when
none stops between two stores. -/
theorem atomic_iff (events : List WalletEvent) (s : WalletStore) (hs : s.Consistent) :
    (∀ t ∈ trace (walletNext K aesEncrypt) events s, Atomic t) ↔
      ∀ t ∈ trace (walletNext K aesEncrypt) events s, Whole aesEncrypt t := by
  refine all_good_iff (I := WalletStore.Consistent) (fun e s hs => ?_)
    (fun e s _ hgood => hgood.consistent) events hs
  cases e with
  | create call => exact create_atomic_iff hs call
  | delete call => exact delete_atomic_iff hs call

end

/-! ### An index that is not written -/

/-- A wallet is asked for, and the index ends as given. -/
def firstCall (save : IndexSave) : CreateCall :=
  ⟨"savings", .solana ⟨oneKey, by decide +kernel⟩, "w1", "2026-01-01T00:00:00+00:00",
    List.replicate 12 0, .written, true, save, "No space left on device (os error 28)"⟩

/-- A cipher that changes nothing. -/
def plainCipher (_ plaintext : List UInt8) : Except String (List UInt8) := .ok plaintext

def firstSteps (save : IndexSave) : List WalletStep :=
  trace (walletNext (oneWalletCrypto "") plainCipher) [.create (firstCall save)] .empty

theorem savedIndex_atomic :
    Atomic (stepOf (walletNext (oneWalletCrypto "") plainCipher)
      (.create (firstCall ⟨.written, true⟩)) .empty) := by
  have hsteps : ∀ t ∈ firstSteps ⟨.written, true⟩, Atomic t := by
    refine (atomic_iff _ _ _ .empty ⟨rfl, by simp [WalletStore.empty]⟩).mpr ?_
    intro t ht
    obtain rfl := List.mem_singleton.mp ht
    exact .inr ⟨rfl, rfl⟩
  exact hsteps _ List.mem_cons_self

/-- The write of the index fails, and the key file and the wallet in memory stay. -/
theorem unsavedIndex_not_atomic : ¬ ∀ t ∈ firstSteps ⟨.torn, true⟩, Atomic t := by
  intro h
  have hconsistent := (h _ List.mem_cons_self).consistent.same
  revert hconsistent
  exact nofun

end OsModa.Keyd
