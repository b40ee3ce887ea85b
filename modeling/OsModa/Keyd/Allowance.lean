import OsModa.Keyd.Api

/-!
What a failed request leaves of the daily allowance.

The policy check of a request counts it before the rest of the request is read: the
payload, the key, the destination, the amount in the chain's own units. Nothing takes
the count back. So a failed request leaves the counters alone when it fails in the
check or before it, and a check on a new day also clears them
(`failed_unchanged_iff`).
-/

namespace OsModa.Keyd

open OsModa.Text OsModa.Encoding PolicyEngine

def KeydRequest.walletId : KeydRequest → String
  | sign body => body.walletId
  | send body => body.walletId
  | buildTx body => body.walletId

section

variable (u : Unicode) (K : WalletCrypto)

/-- The policy check of a request for a wallet. -/
def policyCheck (clock : Clock) (wallet : WalletInfo) (request : KeydRequest) (e : PolicyEngine) :
    PolicyDecision × PolicyEngine :=
  match request with
  | .sign _ => e.checkSign clock.today
  | .send body => e.checkSend u clock.today wallet.chain.text body.amount body.recipient
  | .buildTx body => e.checkSend u clock.today wallet.chain.text body.amount body.recipient

/-! ### What a request needs after its check -/

/-- The bytes are a key of the chain. -/
def ValidKey (chain : Chain) (key : List UInt8) : Prop :=
  match chain with
  | .ethereum => (K.ecdsaPublicKey key).isOk = true
  | .solana => 32 ≤ key.length

/-- The calldata of a request; there may be none. -/
def callData (body : BuildTxRequest) : Option (List UInt8) :=
  match body.chainParams.data with
  | some text => hexDecode? text.toList
  | none => some []

/-- The transaction that a request asks for. -/
def requestedTx (body : BuildTxRequest) (recipient : List UInt8) (value : Nat)
    (data : List UInt8) : EthTx :=
  let params := ethTxParams body
  ⟨params.chainId, params.nonce, params.maxPriorityFeePerGas, params.maxFeePerGas,
    params.gasLimit, recipient, value, data⟩

/-- A base58 text of 32 bytes. -/
def IsBase58Key (text : String) : Prop :=
  ∃ bytes, K.base58Decode text = some bytes ∧ bytes.length = 32

/-- The members of the request are those of a transaction of the chain. -/
def Buildable (chain : Chain) (key : List UInt8) (body : BuildTxRequest) : Prop :=
  match chain with
  | .ethereum =>
    ∃ recipient value data, parseAddress body.recipient = some recipient ∧
      parseUnsigned 128 body.amount.toList = some value ∧
      callData body = some data ∧
      (K.ecdsaSignPrehash key
        (K.keccak256 (requestedTx body recipient value data).signingInput)).isOk = true
  | .solana =>
    IsBase58Key K body.recipient ∧ (parseUnsigned 64 body.amount.toList).isSome ∧
      ∃ blockhash, body.chainParams.recentBlockhash = some blockhash ∧ IsBase58Key K blockhash

/-- The wallet's key is there and valid, and the request itself is well formed. -/
def Feasible (clock : Clock) (wallet : WalletInfo) (request : KeydRequest) (s : KeydState) : Prop :=
  ∃ key, (s.signer.loadKeyBytes K clock.instant request.walletId).1 = .ok key ∧
    ValidKey K wallet.chain key ∧
    match request with
    | .sign body => (hexDecode? body.payload.toList).isSome
    | .send _ => True
    | .buildTx body => Buildable K wallet.chain key body

/-! ### When the rest of a request succeeds -/

variable {K}

theorem exists_toBytes32_iff {bytes : List UInt8} :
    (∃ b, toBytes32 bytes = some b) ↔ bytes.length = 32 := by
  constructor
  · rintro ⟨b, h⟩
    unfold toBytes32 at h
    split at h
    · assumption
    · cases h
  · exact fun h => ⟨⟨bytes, h⟩, dif_pos h⟩

theorem exists_secret_iff {key : List UInt8} :
    (∃ secret, toBytes32 (key.take 32) = some secret) ↔ 32 ≤ key.length := by
  rw [exists_toBytes32_iff, List.length_take, min_eq_left_iff]

/-- What is returned of a value is there if the value is. -/
theorem exists_result_iff {α β ε : Type} {P : α → Prop} (f : α → β) :
    (∃ result a, P a ∧ (.ok (f a) : Except ε β) = .ok result) ↔ ∃ a, P a := by
  constructor
  · rintro ⟨_, a, ha, -⟩
    exact ⟨a, ha⟩
  · rintro ⟨a, ha⟩
    exact ⟨_, a, ha, rfl⟩

theorem signWith_isOk {chain : Chain} {key message : List UInt8} :
    (LocalKeyBackend.signWith K chain key message).isOk = true ↔ ValidKey K chain key := by
  cases chain with
  | ethereum =>
    simp only [LocalKeyBackend.signWith, ValidKey, isOk_iff_exists, bind_eq_ok, mapError_eq_ok]
    exact exists_result_iff _
  | solana =>
    simp only [LocalKeyBackend.signWith, ValidKey, isOk_iff_exists, bind_eq_ok, orError_eq_ok,
      ← exists_secret_iff]
    exact exists_result_iff _

theorem signMessage_isOk {b : LocalKeyBackend} {now : Nat} {walletId : String}
    {wallet : WalletInfo} {message : List UInt8} (hwallet : b.findWallet walletId = some wallet) :
    (b.signMessage K now walletId message).1.isOk = true ↔
      ∃ key, (b.loadKeyBytes K now walletId).1 = .ok key ∧ ValidKey K wallet.chain key := by
  unfold LocalKeyBackend.signMessage
  rw [hwallet]
  cases hload : b.loadKeyBytes K now walletId with
  | mk result b' =>
    cases result with
    | error e => exact ⟨nofun, nofun⟩
    | ok key =>
      dsimp only
      rw [signWith_isOk]
      constructor
      · exact fun h => ⟨key, rfl, h⟩
      · rintro ⟨key', hkey, h⟩
        rwa [Except.ok.inj hkey]

theorem buildAndSignEip1559_isOk {key : List UInt8} {body : BuildTxRequest} :
    (buildAndSignEip1559 K key (ethTxParams body)).isOk = true ↔
      ValidKey K .ethereum key ∧ Buildable K .ethereum key body := by
  have hdata : ∀ data, (match (ethTxParams body).data with
      | some d => orError (hexDecode? d.toList) "invalid calldata hex"
      | none => .ok []) = .ok data ↔ callData body = some data := by
    intro data
    unfold callData ethTxParams
    cases body.chainParams.data with
    | none => simp
    | some text => exact orError_eq_ok
  simp only [buildAndSignEip1559, isOk_iff_exists, bind_eq_ok, mapError_eq_ok, orError_eq_ok,
    ValidKey, Buildable]
  constructor
  · rintro ⟨_, publicKey, hkey, recipient, hto, value, hvalue, data, hcall, signature, hsign, -⟩
    exact ⟨⟨publicKey, hkey⟩, recipient, value, data, hto, hvalue, (hdata data).mp hcall,
      signature, hsign⟩
  · rintro ⟨⟨publicKey, hkey⟩, recipient, value, data, hto, hvalue, hcall, signature, hsign⟩
    exact ⟨_, publicKey, hkey, recipient, hto, value, hvalue, data, (hdata data).mpr hcall,
      signature, hsign, rfl⟩

theorem buildAndSignTransfer_isOk {key : List UInt8} {params : SolTxParams} :
    (buildAndSignTransfer K key params).isOk = true ↔
      32 ≤ key.length ∧ IsBase58Key K params.recipient ∧ IsBase58Key K params.recentBlockhash := by
  simp only [buildAndSignTransfer, isOk_iff_exists, bind_eq_ok, orError_eq_ok, IsBase58Key,
    ← exists_toBytes32_iff, ← exists_secret_iff]
  constructor
  · rintro ⟨_, secret, hsecret, toBytes, hto, recipient, hrecipient, hashBytes, hhash, blockhash,
      hblockhash, -⟩
    exact ⟨⟨secret, hsecret⟩, ⟨toBytes, hto, recipient, hrecipient⟩, hashBytes, hhash, blockhash,
      hblockhash⟩
  · rintro ⟨⟨secret, hsecret⟩, ⟨toBytes, hto, recipient, hrecipient⟩, hashBytes, hhash, blockhash,
      hblockhash⟩
    exact ⟨_, secret, hsecret, toBytes, hto, recipient, hrecipient, hashBytes, hhash, blockhash,
      hblockhash, rfl⟩

theorem buildFor_isOk {chain : Chain} {key : List UInt8} {body : BuildTxRequest} :
    (buildFor K chain key body).isOk = true ↔
      ValidKey K chain key ∧ Buildable K chain key body := by
  cases chain with
  | ethereum =>
    rw [← buildAndSignEip1559_isOk]
    simp only [buildFor, isOk_iff_exists, bind_eq_ok, mapError_eq_ok]
    exact exists_result_iff _
  | solana =>
    have hbuild : ∀ lamports blockhash, (∃ result, buildAndSignTransfer K key
        ⟨body.recipient, UInt64.ofNat lamports, blockhash⟩ = .ok result) ↔
          32 ≤ key.length ∧ IsBase58Key K body.recipient ∧ IsBase58Key K blockhash := by
      intro lamports blockhash
      rw [← isOk_iff_exists, buildAndSignTransfer_isOk]
    simp only [buildFor, isOk_iff_exists, bind_eq_ok, mapError_eq_ok, orError_eq_ok, ValidKey,
      Buildable, Option.isSome_iff_exists]
    constructor
    · rintro ⟨_, blockhash, hblockhash, lamports, hlamports, result, hresult, -⟩
      obtain ⟨hkey, hto, hhash⟩ := (hbuild lamports blockhash).mp ⟨result, hresult⟩
      exact ⟨hkey, hto, ⟨lamports, hlamports⟩, blockhash, hblockhash, hhash⟩
    · rintro ⟨hkey, hto, ⟨lamports, hlamports⟩, blockhash, hblockhash, hhash⟩
      obtain ⟨result, hresult⟩ := (hbuild lamports blockhash).mpr ⟨hkey, hto, hhash⟩
      exact ⟨_, blockhash, hblockhash, lamports, hlamports, result, hresult, rfl⟩

/-! ### The check and the rest -/

variable (clock : Clock) {request : KeydRequest} {s : KeydState}

theorem serve_of_unknown (hwallet : s.signer.findWallet request.walletId = none) :
    serve u K (clock, request) s = (⟨.error walletNotFound, []⟩, s) := by
  cases request with
  | sign body =>
    rw [serve_sign, walletSign, show s.signer.findWallet body.walletId = none from hwallet]
  | send body =>
    rw [serve_send, walletSend, show s.signer.findWallet body.walletId = none from hwallet]
  | buildTx body =>
    rw [serve_buildTx, walletBuildTx, show s.signer.findWallet body.walletId = none from hwallet]

theorem walletSign_isOk {body : SignRequest} {wallet : WalletInfo}
    (hwallet : s.signer.findWallet body.walletId = some wallet) :
    (walletSign K clock body s).2.policy = (s.policy.checkSign clock.today).2 ∧
      ((walletSign K clock body s).1.reply.isOk = true ↔
        (s.policy.checkSign clock.today).1 = .allowed ∧ (hexDecode? body.payload.toList).isSome ∧
          ∃ key, (s.signer.loadKeyBytes K clock.instant body.walletId).1 = .ok key ∧
            ValidKey K wallet.chain key) := by
  rw [walletSign, hwallet]
  dsimp only
  cases (s.policy.checkSign clock.today).1 with
  | denied reason => exact ⟨rfl, nofun, nofun⟩
  | allowed =>
    dsimp only
    cases hexDecode? body.payload.toList with
    | none => exact ⟨rfl, nofun, nofun⟩
    | some message =>
      dsimp only
      have hsign := @signMessage_isOk K s.signer clock.instant body.walletId wallet message hwallet
      rw [← hsign]
      cases (s.signer.signMessage K clock.instant body.walletId message).1 with
      | error e => exact ⟨rfl, nofun, nofun⟩
      | ok signature => exact ⟨rfl, iff_of_true rfl ⟨rfl, rfl, rfl⟩⟩

theorem walletSend_isOk {body : SendRequest} {wallet : WalletInfo}
    (hwallet : s.signer.findWallet body.walletId = some wallet) :
    (walletSend u K clock body s).2.policy =
        (s.policy.checkSend u clock.today wallet.chain.text body.amount body.recipient).2 ∧
      ((walletSend u K clock body s).1.reply.isOk = true ↔
        (s.policy.checkSend u clock.today wallet.chain.text body.amount body.recipient).1 =
            .allowed ∧
          ∃ key, (s.signer.loadKeyBytes K clock.instant body.walletId).1 = .ok key ∧
            ValidKey K wallet.chain key) := by
  rw [walletSend, hwallet]
  dsimp only
  cases (s.policy.checkSend u clock.today wallet.chain.text body.amount body.recipient).1 with
  | denied reason => exact ⟨rfl, nofun, nofun⟩
  | allowed =>
    dsimp only
    have hsign := @signMessage_isOk K s.signer clock.instant body.walletId wallet
      (utf8 (txIntent wallet.chain.text body.recipient body.amount).toList) hwallet
    rw [← hsign]
    cases (s.signer.signMessage K clock.instant body.walletId
      (utf8 (txIntent wallet.chain.text body.recipient body.amount).toList)).1 with
    | error e => exact ⟨rfl, nofun, nofun⟩
    | ok signature => exact ⟨rfl, iff_of_true rfl ⟨rfl, rfl⟩⟩

theorem walletBuildTx_isOk {body : BuildTxRequest} {wallet : WalletInfo}
    (hwallet : s.signer.findWallet body.walletId = some wallet) :
    (walletBuildTx u K clock body s).2.policy =
        (s.policy.checkSend u clock.today wallet.chain.text body.amount body.recipient).2 ∧
      ((walletBuildTx u K clock body s).1.reply.isOk = true ↔
        (s.policy.checkSend u clock.today wallet.chain.text body.amount body.recipient).1 =
            .allowed ∧
          ∃ key, (s.signer.loadKeyBytes K clock.instant body.walletId).1 = .ok key ∧
            ValidKey K wallet.chain key ∧ Buildable K wallet.chain key body) := by
  rw [walletBuildTx, hwallet]
  dsimp only
  cases (s.policy.checkSend u clock.today wallet.chain.text body.amount body.recipient).1 with
  | denied reason => exact ⟨rfl, nofun, nofun⟩
  | allowed =>
    dsimp only
    cases (s.signer.loadKeyBytes K clock.instant body.walletId).1 with
    | error e => exact ⟨rfl, nofun, nofun⟩
    | ok key =>
      dsimp only
      have hbuild := @buildFor_isOk K wallet.chain key body
      cases hresult : buildFor K wallet.chain key body with
      | error e =>
        refine ⟨rfl, nofun, ?_⟩
        rintro ⟨-, key', hkey, h⟩
        obtain rfl := Except.ok.inj hkey
        rw [hresult] at hbuild
        exact absurd (hbuild.mpr h) nofun
      | ok result =>
        rw [hresult] at hbuild
        exact ⟨rfl, iff_of_true rfl ⟨rfl, key, rfl, hbuild.mp rfl⟩⟩

/-- The engine is left as the check leaves it, and the request succeeds when it is allowed
and the rest can be done. -/
theorem serve_of_wallet {wallet : WalletInfo}
    (hwallet : s.signer.findWallet request.walletId = some wallet) :
    (serve u K (clock, request) s).2.policy = (policyCheck u clock wallet request s.policy).2 ∧
      ((serve u K (clock, request) s).1.reply.isOk = true ↔
        (policyCheck u clock wallet request s.policy).1 = .allowed ∧
          Feasible K clock wallet request s) := by
  cases request with
  | sign body =>
    obtain ⟨hpolicy, hok⟩ := walletSign_isOk (K := K) clock hwallet
    refine ⟨hpolicy, hok.trans (and_congr_right fun _ => ?_)⟩
    constructor
    · rintro ⟨hhex, key, hload, hkey⟩
      exact ⟨key, hload, hkey, hhex⟩
    · rintro ⟨key, hload, hkey, hhex⟩
      exact ⟨hhex, key, hload, hkey⟩
  | send body =>
    obtain ⟨hpolicy, hok⟩ := walletSend_isOk u (K := K) clock hwallet
    refine ⟨hpolicy, hok.trans (and_congr_right fun _ => ?_)⟩
    constructor
    · rintro ⟨key, hload, hkey⟩
      exact ⟨key, hload, hkey, trivial⟩
    · rintro ⟨key, hload, hkey, -⟩
      exact ⟨key, hload, hkey⟩
  | buildTx body => exact walletBuildTx_isOk u clock hwallet

/-! ### The counters -/

theorem add_one_ne_self (n : UInt32) : n + 1 ≠ n := by
  intro h
  have hsum : (n.toNat + 1) % 2 ^ 32 = n.toNat := congrArg UInt32.toNat h
  have hlt := n.toNat_lt
  omega

/-- A check that denies leaves the counters of the day, and one that allows adds to them. -/
theorem policyCheck_cases (wallet : WalletInfo) (request : KeydRequest) (e : PolicyEngine) :
    (∃ reason, (policyCheck u clock wallet request e).1 = .denied reason ∧
        (policyCheck u clock wallet request e).2.counters =
          e.counters.resetIfNewDay clock.today) ∨
      (policyCheck u clock wallet request e).1 = .allowed ∧
        (policyCheck u clock wallet request e).2.counters.date = clock.today ∧
        (policyCheck u clock wallet request e).2.counters ≠
          e.counters.resetIfNewDay clock.today := by
  have hsend : ∀ chain amount destination, (∃ reason,
      (e.checkSend u clock.today chain amount destination).1 = .denied reason ∧
        (e.checkSend u clock.today chain amount destination).2.counters =
          e.counters.resetIfNewDay clock.today) ∨
      (e.checkSend u clock.today chain amount destination).1 = .allowed ∧
        (e.checkSend u clock.today chain amount destination).2.counters.date = clock.today ∧
        (e.checkSend u clock.today chain amount destination).2.counters ≠
          e.counters.resetIfNewDay clock.today := by
    intro chain amount destination
    rcases checkSend_cases u e clock.today chain amount destination with
      ⟨reason, h⟩ | ⟨coins, -, -, h⟩
    · exact Or.inl ⟨reason, by rw [h], by rw [h]⟩
    · rw [h]
      refine Or.inr ⟨rfl, resetIfNewDay_date, fun hsame => ?_⟩
      have := congrFun (congrArg DailyCounters.sendCounts hsame) chain
      rw [record_sendCounts_self] at this
      exact add_one_ne_self _ this
  cases request with
  | sign body =>
    dsimp only [policyCheck, checkSign]
    split
    · exact Or.inl ⟨_, rfl, rfl⟩
    · refine Or.inr ⟨rfl, resetIfNewDay_date, fun hsame => ?_⟩
      exact add_one_ne_self _ (congrArg DailyCounters.signCount hsame)
  | send body => exact hsend _ _ _
  | buildTx body => exact hsend _ _ _

theorem resetIfNewDay_eq_self_iff {today : String} {c : DailyCounters} :
    c.resetIfNewDay today = c ↔ c.date = today := by
  constructor
  · intro h
    rw [← h, resetIfNewDay_date]
  · exact resetIfNewDay_of_date

variable (K)

/-- A failed request leaves the counters as they were, as the request's day reads them,
exactly when it fails by the check or before it: it is not one that the policy allows and
that cannot be done. To the letter they are as they were if also no denial meets the
counters of another day. -/
theorem failed_unchanged_iff (clock : Clock) (request : KeydRequest) (s : KeydState) :
    ((((serve u K (clock, request) s).1.reply.isOk = false →
        (serve u K (clock, request) s).2.policy.counters.resetIfNewDay clock.today =
          s.policy.counters.resetIfNewDay clock.today) ↔
      ∀ wallet, s.signer.findWallet request.walletId = some wallet →
        (policyCheck u clock wallet request s.policy).1 = .allowed →
          Feasible K clock wallet request s)) ∧
    (((serve u K (clock, request) s).1.reply.isOk = false →
        (serve u K (clock, request) s).2.policy.counters = s.policy.counters) ↔
      ∀ wallet, s.signer.findWallet request.walletId = some wallet →
        if (policyCheck u clock wallet request s.policy).1 = .allowed then
          Feasible K clock wallet request s
        else s.policy.counters.date = clock.today) := by
  cases hwallet : s.signer.findWallet request.walletId with
  | none =>
    rw [serve_of_unknown u clock hwallet]
    exact ⟨iff_of_true (fun _ => rfl) nofun, iff_of_true (fun _ => rfl) nofun⟩
  | some wallet =>
    obtain ⟨hpolicy, hok⟩ := serve_of_wallet u (K := K) clock hwallet
    rw [hpolicy, ← Bool.not_eq_true, hok]
    simp only [Option.some.injEq, forall_eq']
    rcases policyCheck_cases u clock wallet request s.policy with
      ⟨reason, hdecision, hcounters⟩ | ⟨hdecision, hdate, hcounters⟩
    · -- a denial leaves the counters of the day
      rw [hdecision, hcounters]
      simp [resetIfNewDay_eq_self_iff, resetIfNewDay_of_date resetIfNewDay_date]
    · -- what was allowed was counted, so it must not fail
      have hchanged : (policyCheck u clock wallet request s.policy).2.counters ≠
          s.policy.counters := by
        intro hsame
        rw [hsame] at hdate hcounters
        exact hcounters (resetIfNewDay_of_date hdate).symm
      rw [hdecision, resetIfNewDay_of_date hdate]
      simp [hcounters, hchanged]

end

/-! ### Ten coins without a blockhash -/

/-- A transfer that lacks the blockhash. -/
def tenCoinsUnhashed : BuildTxRequest where
  walletId := "w1"
  recipient := "11111111111111111111111111111111"
  amount := "10"

/-- The request fails, and the ten coins of the day are spent. -/
theorem tenCoins_charged :
    (serve Unicode.ascii (oneWalletCrypto "") (newYear, .buildTx tenCoinsUnhashed)
        oneWalletState).1.reply =
      .error ⟨400, .text "Solana tx requires chain_params.recent_blockhash"⟩ ∧
    (serve Unicode.ascii (oneWalletCrypto "") (newYear, .buildTx tenCoinsUnhashed)
        oneWalletState).2.policy.counters ≠ oneWalletState.policy.counters := by
  constructor
  · decide +kernel
  · intro hsame
    have hspent : (serve Unicode.ascii (oneWalletCrypto "") (newYear, .buildTx tenCoinsUnhashed)
        oneWalletState).2.policy.counters.sendAmounts "solana" = ⟨10 * 10 ^ 18, by decide⟩ := by
      decide +kernel
    rw [hsame] at hspent
    revert hspent
    decide +kernel

end OsModa.Keyd
