import Mathlib.Data.Nat.Digits.Defs
import OsModa.Keyd.Policy
import OsModa.Keyd.Transactions

/-!
keyd's signing requests: `wallet_sign`, `wallet_send` and `wallet_build_tx`.

A request is served on the state of the daemon, with the date and the monotonic
clock it reads. Besides its reply it leaves a list of events: each decision of the
policy engine, and each signature with the wallet and what was signed. The receipts
that the handlers post to agentd are not part of the model.
-/

namespace OsModa.Keyd

open OsModa.Text OsModa.Encoding

/-! ### Wallets and their keys -/

inductive Chain where
  | ethereum
  | solana
  deriving DecidableEq, Repr

/-- `Display`. -/
def Chain.text : Chain → String
  | ethereum => "ethereum"
  | solana => "solana"

structure WalletInfo where
  id : String
  chain : Chain
  address : String
  deriving DecidableEq

/-- How long decrypted keys stay in cache before eviction, in nanoseconds. -/
def keyCacheTtl : Nat := 300 * 1000000000

structure LocalKeyBackend where
  wallets : List WalletInfo
  /-- Decrypted key bytes with the instant of the last access. -/
  cachedKeys : String → Option (List UInt8 × Nat)
  /-- The encrypted key files. -/
  keyFiles : String → Option (List UInt8)

/-- What a wallet's key has signed. -/
inductive Signed where
  | message (bytes : List UInt8)
  | ethTx (tx : EthTx)
  | solTransfer (transfer : SolTransfer)
  deriving DecidableEq

/-- The bytes that the signature is over. -/
def Signed.bytes : Signed → List UInt8
  | message bytes => bytes
  | ethTx tx => tx.signingInput
  | solTransfer transfer => buildTransferMessage transfer

namespace LocalKeyBackend

variable (K : WalletCrypto)

/-- Remove cached keys that have not been accessed within the TTL. -/
def evictStaleKeys (b : LocalKeyBackend) (now : Nat) : LocalKeyBackend :=
  { b with cachedKeys := fun id => (b.cachedKeys id).filter fun entry => now - entry.2 ≤ keyCacheTtl }

def decrypt (data : List UInt8) : Except String (List UInt8) :=
  if data.length < 12 then .error "encrypted data too short"
  else (K.aesDecrypt (data.take 12) (data.drop 12)).mapError ("decryption failed: " ++ ·)

/-- The key of a wallet, from the cache or from its file. -/
def loadKeyBytes (b : LocalKeyBackend) (now : Nat) (walletId : String) :
    Except String (List UInt8) × LocalKeyBackend :=
  let b := b.evictStaleKeys now
  match b.cachedKeys walletId with
  | some (bytes, _) =>
    (.ok bytes, { b with cachedKeys := Function.update b.cachedKeys walletId (some (bytes, now)) })
  | none =>
    match (orError (b.keyFiles walletId) "failed to read encrypted key").bind (decrypt K) with
    | .error e => (.error e, b)
    | .ok bytes =>
      (.ok bytes, { b with cachedKeys := Function.update b.cachedKeys walletId (some (bytes, now)) })

def findWallet (b : LocalKeyBackend) (walletId : String) : Option WalletInfo :=
  b.wallets.find? fun w => w.id = walletId

/-- The signature of a message under loaded key bytes. -/
def signWith (chain : Chain) (key message : List UInt8) : Except String (List UInt8) :=
  match chain with
  | .ethereum =>
    ((K.ecdsaPublicKey key).mapError ("invalid ETH key: " ++ ·)).bind fun _ =>
      .ok (K.ecdsaSign key message)
  | .solana =>
    (orError (toBytes32 (key.take 32))
      ("invalid SOL key length: expected 32, got " ++ toString key.length)).bind fun secret =>
      .ok (K.ed25519Sign secret message)

def signMessage (b : LocalKeyBackend) (now : Nat) (walletId : String) (message : List UInt8) :
    Except String (List UInt8) × LocalKeyBackend :=
  match b.findWallet walletId with
  | none => (.error ("wallet not found: " ++ walletId), b)
  | some wallet =>
    match b.loadKeyBytes K now walletId with
    | (.error e, b) => (.error e, b)
    | (.ok key, b) => (signWith K wallet.chain key message, b)

end LocalKeyBackend

/-! ### Requests -/

structure SignRequest where
  walletId : String
  /-- hex-encoded bytes -/
  payload : String
  deriving DecidableEq

structure SendRequest where
  walletId : String
  recipient : String
  amount : String
  deriving DecidableEq

/-- The members of `chain_params`, as far as they have the expected type. -/
structure ChainParams where
  chainId : Option UInt64 := none
  nonce : Option UInt64 := none
  maxFeePerGas : Option UInt64 := none
  maxPriorityFeePerGas : Option UInt64 := none
  gasLimit : Option UInt64 := none
  data : Option String := none
  recentBlockhash : Option String := none
  deriving DecidableEq

structure BuildTxRequest where
  walletId : String
  recipient : String
  amount : String
  chainParams : ChainParams := {}
  deriving DecidableEq

inductive KeydRequest where
  | sign (body : SignRequest)
  | send (body : SendRequest)
  | buildTx (body : BuildTxRequest)
  deriving DecidableEq

inductive KeydResponse where
  | signature (signature walletId policyDecision : String)
  | signedIntent (signedTx walletId policyDecision note : String)
  | signedTx (signedTx : String) (txHash : Option String)
      (sender recipient amount chain policyDecision : String)
  deriving DecidableEq

/-- The body of an error: a text, or the JSON object `policy_denied` with a reason. -/
inductive ErrorBody where
  | text (text : String)
  | policyDenied (reason : String)
  deriving DecidableEq

structure ApiError where
  status : Nat
  body : ErrorBody
  deriving DecidableEq

def walletNotFound : ApiError := ⟨404, .text "wallet not found"⟩

inductive KeydEvent where
  | checkedSend (chain amount recipient : String) (decision : PolicyDecision)
  | checkedSign (decision : PolicyDecision)
  | signed (wallet : WalletInfo) (payload : Signed)
  deriving DecidableEq

structure KeydState where
  policy : PolicyEngine
  signer : LocalKeyBackend

/-- The clocks that a request reads. -/
structure Clock where
  today : String
  instant : Nat
  deriving DecidableEq

/-- What serving a request leaves: its reply and its events. -/
structure Served where
  reply : Except ApiError KeydResponse
  events : List KeydEvent

/-! ### Handlers -/

section

variable (u : Unicode) (K : WalletCrypto)

/-- `wallet_sign`: sign any bytes, under the sign policy. -/
def walletSign (clock : Clock) (body : SignRequest) (s : KeydState) : Served × KeydState :=
  match s.signer.findWallet body.walletId with
  | none => (⟨.error walletNotFound, []⟩, s)
  | some wallet =>
    let (decision, policy) := s.policy.checkSign clock.today
    let s := { s with policy := policy }
    match decision with
    | .denied reason =>
      (⟨.error ⟨403, .policyDenied reason⟩, [.checkedSign (.denied reason)]⟩, s)
    | .allowed =>
      match hexDecode? body.payload.toList with
      | none =>
        (⟨.error ⟨400, .text ("invalid hex payload: " ++ K.hexError body.payload)⟩,
          [.checkedSign .allowed]⟩, s)
      | some message =>
        let (result, signer) := s.signer.signMessage K clock.instant body.walletId message
        let s := { s with signer := signer }
        match result with
        | .error e => (⟨.error ⟨500, .text ("sign failed: " ++ e)⟩, [.checkedSign .allowed]⟩, s)
        | .ok signature =>
          (⟨.ok (.signature (String.ofList (hexEncode signature)) body.walletId "allowed"),
            [.checkedSign .allowed, .signed wallet (.message message)]⟩, s)

/-- The text that `wallet_send` signs. -/
def txIntent (chain recipient amount : String) : String :=
  "send:" ++ chain ++ ":" ++ recipient ++ ":" ++ amount

/-- `wallet_send`: sign the intent of a send, under the send policy. -/
def walletSend (clock : Clock) (body : SendRequest) (s : KeydState) : Served × KeydState :=
  match s.signer.findWallet body.walletId with
  | none => (⟨.error walletNotFound, []⟩, s)
  | some wallet =>
    let chain := wallet.chain.text
    let (decision, policy) :=
      s.policy.checkSend u clock.today chain body.amount body.recipient
    let s := { s with policy := policy }
    let checked := KeydEvent.checkedSend chain body.amount body.recipient decision
    match decision with
    | .denied reason => (⟨.error ⟨403, .policyDenied reason⟩, [checked]⟩, s)
    | .allowed =>
      let message := utf8 (txIntent chain body.recipient body.amount).toList
      let (result, signer) := s.signer.signMessage K clock.instant body.walletId message
      let s := { s with signer := signer }
      match result with
      | .error e => (⟨.error ⟨500, .text ("sign failed: " ++ e)⟩, [checked]⟩, s)
      | .ok signature =>
        (⟨.ok (.signedIntent (String.ofList (hexEncode signature)) body.walletId "allowed"
            "keyd has no network access — signed tx returned for external broadcast"),
          [checked, .signed wallet (.message message)]⟩, s)

/-- The transaction parameters of a request, with their defaults. -/
def ethTxParams (body : BuildTxRequest) : EthTxParams where
  chainId := body.chainParams.chainId.getD 1
  nonce := body.chainParams.nonce.getD 0
  recipient := body.recipient
  value := body.amount
  maxFeePerGas := body.chainParams.maxFeePerGas.getD 30000000000
  maxPriorityFeePerGas := body.chainParams.maxPriorityFeePerGas.getD 1000000000
  gasLimit := body.chainParams.gasLimit.getD 21000
  data := body.chainParams.data

/-- Build and sign the transaction of a request for the wallet's chain. -/
def buildFor (chain : Chain) (key : List UInt8) (body : BuildTxRequest) :
    Except ApiError (KeydResponse × Signed) :=
  match chain with
  | .ethereum =>
    ((buildAndSignEip1559 K key (ethTxParams body)).mapError fun e =>
      ⟨400, .text ("ETH tx build failed: " ++ e)⟩).bind fun (result, tx) =>
      .ok (.signedTx result.signedTx (some result.txHash) result.sender result.recipient
        result.value "ethereum" "allowed", .ethTx tx)
  | .solana =>
    (orError body.chainParams.recentBlockhash
      ⟨400, .text "Solana tx requires chain_params.recent_blockhash"⟩).bind fun blockhash =>
    (orError (parseUnsigned 64 body.amount.toList)
      ⟨400, .text "amount must be integer lamports for Solana"⟩).bind fun lamports =>
    ((buildAndSignTransfer K key ⟨body.recipient, UInt64.ofNat lamports, blockhash⟩).mapError
      fun e => ⟨400, .text ("SOL tx build failed: " ++ e)⟩).bind fun (result, transfer) =>
      .ok (.signedTx result.signedTx (some result.signature) result.sender result.recipient
        (toString result.lamports.toNat) "solana" "allowed", .solTransfer transfer)

/-- `wallet_build_tx`: build and sign a transaction, under the send policy. -/
def walletBuildTx (clock : Clock) (body : BuildTxRequest) (s : KeydState) : Served × KeydState :=
  match s.signer.findWallet body.walletId with
  | none => (⟨.error walletNotFound, []⟩, s)
  | some wallet =>
    let chain := wallet.chain.text
    let (decision, policy) :=
      s.policy.checkSend u clock.today chain body.amount body.recipient
    let s := { s with policy := policy }
    let checked := KeydEvent.checkedSend chain body.amount body.recipient decision
    match decision with
    | .denied reason => (⟨.error ⟨403, .policyDenied reason⟩, [checked]⟩, s)
    | .allowed =>
      let (key, signer) := s.signer.loadKeyBytes K clock.instant body.walletId
      let s := { s with signer := signer }
      match key with
      | .error e => (⟨.error ⟨500, .text ("failed to load key: " ++ e)⟩, [checked]⟩, s)
      | .ok key =>
        match buildFor K wallet.chain key body with
        | .error e => (⟨.error e, [checked]⟩, s)
        | .ok (response, payload) => (⟨.ok response, [checked, .signed wallet payload]⟩, s)

/-- Serve one request. -/
def serve (call : Clock × KeydRequest) (s : KeydState) : Served × KeydState :=
  match call.2 with
  | .sign body => walletSign K call.1 body s
  | .send body => walletSend u K call.1 body s
  | .buildTx body => walletBuildTx u K call.1 body s

@[simp] theorem serve_sign (clock : Clock) (body : SignRequest) (s : KeydState) :
    serve u K (clock, .sign body) s = walletSign K clock body s := rfl

@[simp] theorem serve_send (clock : Clock) (body : SendRequest) (s : KeydState) :
    serve u K (clock, .send body) s = walletSend u K clock body s := rfl

@[simp] theorem serve_buildTx (clock : Clock) (body : BuildTxRequest) (s : KeydState) :
    serve u K (clock, .buildTx body) s = walletBuildTx u K clock body s := rfl

/-! ### What a request leaves

A request either fails and leaves no signature, or succeeds and leaves exactly the
events of one allowed check and one signature. -/

/-- The request failed, and nothing was signed. -/
structure Served.Refused (served : Served) : Prop where
  failed : ∃ e, served.reply = .error e
  unsigned : ∀ wallet payload, KeydEvent.signed wallet payload ∉ served.events

variable (clock : Clock) (s : KeydState)

theorem walletSign_cases (body : SignRequest) : (walletSign K clock body s).1.Refused ∨
    ∃ wallet message response signer,
      s.signer.findWallet body.walletId = some wallet ∧
      (s.policy.checkSign clock.today).1 = .allowed ∧
      hexDecode? body.payload.toList = some message ∧
      walletSign K clock body s =
        (⟨.ok response, [.checkedSign .allowed, .signed wallet (.message message)]⟩,
          ⟨(s.policy.checkSign clock.today).2, signer⟩) := by
  unfold walletSign
  cases hwallet : s.signer.findWallet body.walletId with
  | none => exact Or.inl ⟨⟨_, rfl⟩, by simp⟩
  | some wallet =>
    dsimp only
    cases hdecision : (s.policy.checkSign clock.today).1 with
    | denied reason => exact Or.inl ⟨⟨_, rfl⟩, by simp⟩
    | allowed =>
      dsimp only
      cases hpayload : hexDecode? body.payload.toList with
      | none => exact Or.inl ⟨⟨_, rfl⟩, by simp⟩
      | some message =>
        dsimp only
        split
        · exact Or.inl ⟨⟨_, rfl⟩, by simp⟩
        · exact Or.inr ⟨wallet, message, _, _, rfl, rfl, rfl, rfl⟩

theorem walletSend_cases (body : SendRequest) : (walletSend u K clock body s).1.Refused ∨
    ∃ wallet response signer,
      s.signer.findWallet body.walletId = some wallet ∧
      (s.policy.checkSend u clock.today wallet.chain.text body.amount body.recipient).1 = .allowed ∧
      walletSend u K clock body s =
        (⟨.ok response, [.checkedSend wallet.chain.text body.amount body.recipient .allowed,
            .signed wallet (.message
              (utf8 (txIntent wallet.chain.text body.recipient body.amount).toList))]⟩,
          ⟨(s.policy.checkSend u clock.today wallet.chain.text body.amount body.recipient).2,
            signer⟩) := by
  unfold walletSend
  cases hwallet : s.signer.findWallet body.walletId with
  | none => exact Or.inl ⟨⟨_, rfl⟩, by simp⟩
  | some wallet =>
    dsimp only
    cases hdecision :
        (s.policy.checkSend u clock.today wallet.chain.text body.amount body.recipient).1 with
    | denied reason => exact Or.inl ⟨⟨_, rfl⟩, by simp⟩
    | allowed =>
      dsimp only
      split
      · exact Or.inl ⟨⟨_, rfl⟩, by simp⟩
      · exact Or.inr ⟨wallet, _, _, rfl, hdecision, rfl⟩

/-- What is signed for a request that is built. -/
inductive BuiltFor (K : WalletCrypto) (body : BuildTxRequest) : Chain → Signed → Prop where
  | ethereum (tx : EthTx) (hvalue : parseUnsigned 128 body.amount.toList = some tx.value) :
      BuiltFor K body .ethereum (.ethTx tx)
  | solana (transfer : SolTransfer)
      (hrecipient : K.base58Decode body.recipient = some transfer.recipient.val)
      (hlamports : parseUnsigned 64 body.amount.toList = some transfer.lamports.toNat) :
      BuiltFor K body .solana (.solTransfer transfer)

theorem builtFor_of_buildFor {chain : Chain} {key : List UInt8} {body : BuildTxRequest}
    {response : KeydResponse} {payload : Signed}
    (h : buildFor K chain key body = .ok (response, payload)) : BuiltFor K body chain payload := by
  unfold buildFor at h
  cases chain with
  | ethereum =>
    obtain ⟨⟨result, tx⟩, htx, h⟩ := bind_eq_ok.mp h
    obtain ⟨-, rfl⟩ := Prod.mk.inj (Except.ok.inj h)
    exact .ethereum tx (value_of_buildAndSignEip1559 K (mapError_eq_ok.mp htx))
  | solana =>
    obtain ⟨blockhash, -, h⟩ := bind_eq_ok.mp h
    obtain ⟨lamports, hparse, h⟩ := bind_eq_ok.mp h
    obtain ⟨⟨result, transfer⟩, htransfer, h⟩ := bind_eq_ok.mp h
    obtain ⟨-, rfl⟩ := Prod.mk.inj (Except.ok.inj h)
    rw [orError_eq_ok] at hparse
    obtain ⟨hrecipient, hlamports⟩ := transfer_of_buildAndSignTransfer K (mapError_eq_ok.mp htransfer)
    refine .solana transfer hrecipient ?_
    rw [hlamports, UInt64.toNat_ofNat_of_lt' (parseUnsigned_lt hparse)]
    exact hparse

theorem walletBuildTx_cases (body : BuildTxRequest) :
    (walletBuildTx u K clock body s).1.Refused ∨
    ∃ wallet key response payload signer,
      s.signer.findWallet body.walletId = some wallet ∧
      (s.policy.checkSend u clock.today wallet.chain.text body.amount body.recipient).1 = .allowed ∧
      buildFor K wallet.chain key body = .ok (response, payload) ∧
      walletBuildTx u K clock body s =
        (⟨.ok response, [.checkedSend wallet.chain.text body.amount body.recipient .allowed,
            .signed wallet payload]⟩,
          ⟨(s.policy.checkSend u clock.today wallet.chain.text body.amount body.recipient).2,
            signer⟩) := by
  unfold walletBuildTx
  cases hwallet : s.signer.findWallet body.walletId with
  | none => exact Or.inl ⟨⟨_, rfl⟩, by simp⟩
  | some wallet =>
    dsimp only
    cases hdecision :
        (s.policy.checkSend u clock.today wallet.chain.text body.amount body.recipient).1 with
    | denied reason => exact Or.inl ⟨⟨_, rfl⟩, by simp⟩
    | allowed =>
      dsimp only
      split
      · exact Or.inl ⟨⟨_, rfl⟩, by simp⟩
      · rename_i key hkey
        cases hbuild : buildFor K wallet.chain key body with
        | error e => exact Or.inl ⟨⟨_, rfl⟩, by simp⟩
        | ok result =>
          exact Or.inr ⟨wallet, key, result.1, result.2, _, rfl, hdecision, hbuild, rfl⟩

end

/-! ### A daemon with one Solana wallet -/

/-- The bytes of a hexadecimal text. -/
def hexBytes (hex : String) : List UInt8 := (hexDecode? hex.toList).getD []

def base58Alphabet : List Char :=
  "123456789ABCDEFGHJKLMNPQRSTUVWXYZabcdefghijkmnopqrstuvwxyz".toList

/-- Base58: a `1` for each leading zero byte, then the number in base 58. -/
def base58Encode (bytes : List UInt8) : String :=
  let number := Nat.ofDigits 256 (bytes.reverse.map UInt8.toNat)
  String.ofList ((bytes.takeWhile (· = 0)).map (fun _ => '1') ++
    (Nat.digits 58 number).reverse.map fun d => base58Alphabet.getD d '1')

/-- An Ed25519 key with its address. -/
def oneKey : List UInt8 :=
  hexBytes "9d61b19deffd5a60ba844af492ec2cc44449c5697b326919703bac031cae7f60"

def oneWallet : WalletInfo := ⟨"w1", .solana, "FVen3X669xLzsi6N2V91DoiyzHzg1uAgqiT8jZ9nS96Z"⟩

/-- The libraries as they act on that key and on texts of ones, where the key's
signature of the message is given. -/
def oneWalletCrypto (signature : String) : WalletCrypto where
  keccak256 _ := []
  ecdsaPublicKey _ := .error "signature error"
  ecdsaSign _ _ := []
  ecdsaSignPrehash _ _ := .error "signature error"
  ed25519PublicKey _ :=
    ⟨hexBytes "d75a980182b10ab7d54bfed3c964073a0ee172f3daa62325af021a68f707511a", by decide +kernel⟩
  ed25519Sign _ _ := hexBytes signature
  base58Encode := base58Encode
  base58Decode text :=
    if text.toList.all (· = '1') then some (List.replicate text.toList.length 0) else none
  aesDecrypt _ _ := .error "aead::Error"
  hexError _ := "Invalid character"

/-- The default policy, nothing spent, and the wallet's key in the cache. -/
def oneWalletState : KeydState where
  policy := ⟨.default, ⟨"2026-01-01", fun _ => 0, fun _ => .zero, 0⟩⟩
  signer := ⟨[oneWallet], fun id => if id = "w1" then some (oneKey, 0) else none, fun _ => none⟩

def newYear : Clock := ⟨"2026-01-01", 0⟩

end OsModa.Keyd
