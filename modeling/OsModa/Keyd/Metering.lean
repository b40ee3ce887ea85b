import Mathlib.Algebra.Order.Field.Rat
import Mathlib.Tactic.FieldSimp
import Mathlib.Tactic.Positivity
import OsModa.Keyd.Api

/-!
What the policy meters for a request against what the request signs.

The policy engine reads an amount as a decimal number of coins, with 18 places. The
transaction builders read the same text as an integer number of wei or lamports. So
the text of a `wallet_build_tx` request stands for one amount on the daily total and
for another one on the chain, and the two agree on zero only
(`build_metered_iff_zero`).
-/

namespace OsModa.Keyd

open OsModa.Text OsModa.Encoding PolicyEngine

/-! ### Amounts in coins -/

/-- The smallest units of one coin: wei in an ether, lamports in a SOL. -/
def Chain.unitsPerCoin : Chain → Nat
  | ethereum => 10 ^ 18
  | solana => 10 ^ 9

/-- The coins that a metered amount denotes. -/
def FixedAmount.coins (a : FixedAmount) : ℚ := a.val / 10 ^ FixedAmount.decimals

/-- The coins that a number of units denotes on a chain. -/
def Chain.coins (chain : Chain) (units : Nat) : ℚ := units / chain.unitsPerCoin

theorem FixedAmount.coins_eq_zero {a : FixedAmount} : a.coins = 0 ↔ a.val = 0 := by
  simp [FixedAmount.coins]

theorem FixedAmount.coins_of_whole {a : FixedAmount} {n : Nat} (h : a.val = n * 10 ^ decimals) :
    a.coins = n := by
  rw [FixedAmount.coins, h]
  push_cast
  field_simp

theorem Chain.unitsPerCoin_gt_one (chain : Chain) : 1 < chain.unitsPerCoin := by
  cases chain <;> decide

/-- Reading units as coins leaves zero only unchanged. -/
theorem Chain.eq_coins_iff (chain : Chain) (n : Nat) : (n : ℚ) = chain.coins n ↔ n = 0 := by
  have hunits : (1 : ℚ) < chain.unitsPerCoin := by exact_mod_cast chain.unitsPerCoin_gt_one
  have hpos : (0 : ℚ) < chain.unitsPerCoin := lt_trans one_pos hunits
  rw [Chain.coins, eq_div_iff hpos.ne']
  constructor
  · intro h
    by_contra hn
    have hn' : (n : ℚ) ≠ 0 := by exact_mod_cast hn
    have hone := mul_left_cancel₀ hn' (h.trans (mul_one _).symm)
    exact hunits.ne' hone
  · rintro rfl
    simp

theorem Chain.coins_eq_zero {chain : Chain} {n : Nat} : chain.coins n = 0 ↔ n = 0 := by
  have : chain.unitsPerCoin ≠ 0 := by
    have := chain.unitsPerCoin_gt_one
    omega
  simp [Chain.coins, this]

/-! ### What is signed -/

/-- The units that a signed transaction moves: wei or lamports. -/
def Signed.units : Signed → Option Nat
  | message _ => none
  | ethTx tx => some tx.value
  | solTransfer transfer => some transfer.lamports.toNat

/-- The chain and the units of the transaction that a request signed. -/
def Served.signedTx (served : Served) : Option (Chain × Nat) :=
  served.events.findSome? fun
    | .signed wallet payload => payload.units.map fun units => (wallet.chain, units)
    | _ => none

section

variable {u : Unicode} {K : WalletCrypto}

/-- Both builders sign the integer that the amount text denotes. -/
theorem units_of_buildFor {chain : Chain} {key : List UInt8} {body : BuildTxRequest}
    {response : KeydResponse} {payload : Signed}
    (h : buildFor K chain key body = .ok (response, payload)) :
    ∃ n, parseUnsigned 128 body.amount.toList = some n ∧ payload.units = some n := by
  cases builtFor_of_buildFor K h with
  | ethereum tx hvalue => exact ⟨tx.value, hvalue, rfl⟩
  | solana transfer hrecipient hlamports =>
    exact ⟨transfer.lamports.toNat, parseUnsigned_mono (by decide) hlamports, rfl⟩

/-! ### What is metered -/

/-- The coins that a request added to the daily total of a chain. -/
def metered (u : Unicode) (K : WalletCrypto) (clock : Clock) (request : KeydRequest) (chain : Chain)
    (s : KeydState) : ℚ :=
  ((serve u K (clock, request) s).2.policy.counters.sendAmounts chain.text).coins -
    ((s.policy.counters.resetIfNewDay clock.today).sendAmounts chain.text).coins

/-- An allowed call for this amount leaves the daily total as it is: the amount is
zero, or the total would overflow. -/
def AddsNothing (u : Unicode) (clock : Clock) (chain : Chain) (amountStr : String)
    (s : KeydState) : Prop :=
  ∃ amount, FixedAmount.fromStr u amountStr = some amount ∧
    (amount.val = 0 ∨ 2 ^ 128 ≤
      ((s.policy.counters.resetIfNewDay clock.today).sendAmounts chain.text).val + amount.val)

/-- What an allowed check adds to the daily total. -/
theorem metered_of_allowed {clock : Clock} {request : KeydRequest} {chain : Chain} {s : KeydState}
    {amountStr recipient : String} {amount : FixedAmount}
    (hparse : FixedAmount.fromStr u amountStr = some amount)
    (hallowed : (s.policy.checkSend u clock.today chain.text amountStr recipient).1 = .allowed)
    (hpolicy : (serve u K (clock, request) s).2.policy =
      (s.policy.checkSend u clock.today chain.text amountStr recipient).2) :
    (AddsNothing u clock chain amountStr s ∧ metered u K clock request chain s = 0) ∨
      (¬ AddsNothing u clock chain amountStr s ∧ amount.val ≠ 0 ∧
        metered u K clock request chain s = amount.coins) := by
  have hafter : (serve u K (clock, request) s).2.policy.counters =
      record (s.policy.counters.resetIfNewDay clock.today) chain.text amount := by
    rw [hpolicy]
    rcases checkSend_cases u s.policy clock.today chain.text amountStr recipient with
      ⟨reason, hdenied⟩ | ⟨amount', hparse', -, hrecord⟩
    · rw [hdenied] at hallowed
      cases hallowed
    · obtain rfl := Option.some.inj (hparse.symm.trans hparse')
      rw [hrecord]
  unfold metered
  rw [hafter, record_sendAmounts_self]
  set current := (s.policy.counters.resetIfNewDay clock.today).sendAmounts chain.text with hcurrent
  have hnothing : AddsNothing u clock chain amountStr s ↔
      amount.val = 0 ∨ 2 ^ 128 ≤ current.val + amount.val := by
    constructor
    · rintro ⟨amount', hparse', h⟩
      obtain rfl := Option.some.inj (hparse.symm.trans hparse')
      exact h
    · intro h
      exact ⟨amount, hparse, h⟩
  rw [hnothing]
  cases hadd : current.checkedAdd amount with
  | none =>
    refine Or.inl ⟨Or.inr (FixedAmount.checked_eq_none.mp hadd), ?_⟩
    rw [Option.getD_none, sub_self]
  | some total =>
    have htotal : current.val + amount.val = total.val := FixedAmount.checked_eq_some.mp hadd
    have hsum : total.coins = current.coins + amount.coins := by
      rw [FixedAmount.coins, ← htotal, FixedAmount.coins, FixedAmount.coins]
      push_cast
      rw [add_div]
    rw [Option.getD_some, hsum, add_sub_cancel_left]
    by_cases hzero : amount.val = 0
    · exact Or.inl ⟨Or.inl hzero, FixedAmount.coins_eq_zero.mpr hzero⟩
    · have hlt := total.lt
      rw [← htotal] at hlt
      exact Or.inr ⟨not_or.mpr ⟨hzero, not_le.mpr hlt⟩, hzero, rfl⟩

/-! ### Metered against signed -/

/-- How an amount text was metered on a chain: nothing was added, or the coins it denotes. -/
structure MeteredAs (u : Unicode) (K : WalletCrypto) (clock : Clock) (request : KeydRequest)
    (chain : Chain) (amountStr : String) (amount : FixedAmount) (s : KeydState) : Prop where
  parsed : FixedAmount.fromStr u amountStr = some amount
  added : (AddsNothing u clock chain amountStr s ∧ metered u K clock request chain s = 0) ∨
    (¬ AddsNothing u clock chain amountStr s ∧ amount.val ≠ 0 ∧
      metered u K clock request chain s = amount.coins)

/-- A successful build signs the integer of its amount text and meters that many coins. -/
theorem build_meters {clock : Clock} {body : BuildTxRequest} {s : KeydState}
    (h : ∃ response, (walletBuildTx u K clock body s).1.reply = .ok response) :
    ∃ chain n amount, (walletBuildTx u K clock body s).1.signedTx = some (chain, n) ∧
      parseUnsigned 128 body.amount.toList = some n ∧ amount.val = n * 10 ^ FixedAmount.decimals ∧
      MeteredAs u K clock (.buildTx body) chain body.amount amount s := by
  rcases walletBuildTx_cases u K clock s body with
    hrefused | ⟨wallet, key, response, payload, signer, -, hallowed, hbuild, heq⟩
  · obtain ⟨response, hok⟩ := h
    obtain ⟨e, herr⟩ := hrefused.failed
    rw [hok] at herr
    cases herr
  · obtain ⟨n, hparse, hunits⟩ := units_of_buildFor hbuild
    obtain ⟨amount, hamount⟩ := parsed_of_allowed hallowed
    have hwhole := FixedAmount.fromStr_of_parseUnsigned u hparse
    rw [hamount, eq_comm, FixedAmount.checked_eq_some] at hwhole
    refine ⟨wallet.chain, n, amount, ?_, hparse, hwhole.symm, hamount, ?_⟩
    · rw [heq]
      simp [Served.signedTx, hunits]
    · refine metered_of_allowed hamount hallowed ?_
      rw [serve_buildTx, heq]

/-- An allowed intent meters the coins of its amount text. -/
theorem send_meters {clock : Clock} {body : SendRequest} {wallet : WalletInfo} {s : KeydState}
    (hwallet : s.signer.findWallet body.walletId = some wallet)
    (h : ∃ response, (walletSend u K clock body s).1.reply = .ok response) :
    ∃ amount, MeteredAs u K clock (.send body) wallet.chain body.amount amount s := by
  rcases walletSend_cases u K clock s body with
    hrefused | ⟨wallet', response, signer, hwallet', hallowed, heq⟩
  · obtain ⟨response, hok⟩ := h
    obtain ⟨e, herr⟩ := hrefused.failed
    rw [hok] at herr
    cases herr
  · obtain rfl := Option.some.inj (hwallet.symm.trans hwallet')
    obtain ⟨amount, hamount⟩ := parsed_of_allowed hallowed
    refine ⟨amount, hamount, metered_of_allowed hamount hallowed ?_⟩
    rw [serve_send, heq]

/-- Two requests are metered equally when both add nothing, or both add the same. -/
theorem MeteredAs.eq_iff {clock clock' : Clock} {request request' : KeydRequest}
    {chain chain' : Chain} {amountStr amountStr' : String} {amount amount' : FixedAmount}
    {s s' : KeydState} (h : MeteredAs u K clock request chain amountStr amount s)
    (h' : MeteredAs u K clock' request' chain' amountStr' amount' s') :
    metered u K clock request chain s = metered u K clock' request' chain' s' ↔
      (AddsNothing u clock chain amountStr s ∧ AddsNothing u clock' chain' amountStr' s') ∨
        (¬ AddsNothing u clock chain amountStr s ∧ ¬ AddsNothing u clock' chain' amountStr' s' ∧
          amount.coins = amount'.coins) := by
  rcases h.added with ⟨hn, hm⟩ | ⟨hn, hne, hm⟩ <;>
    rcases h'.added with ⟨hn', hm'⟩ | ⟨hn', hne', hm'⟩ <;>
      rw [hm, hm'] <;> simp only [hn, hn', true_and, false_and, and_false, not_true, not_false_iff,
        or_false, false_or]
  · rw [eq_comm, FixedAmount.coins_eq_zero]
    exact iff_false_intro hne'
  · rw [FixedAmount.coins_eq_zero]
    exact iff_false_intro hne

/-- When the amount that a build meters is the one that it signs. -/
structure MeteringExact (u : Unicode) (K : WalletCrypto) (clock : Clock) (body : BuildTxRequest)
    (s : KeydState) (chain : Chain) (units : Nat) : Prop where
  /-- The build signed these units, -/
  signed : (walletBuildTx u K clock body s).1.signedTx = some (chain, units)
  /-- and metered the coins that they denote exactly when its amount text is zero. -/
  denotes : metered u K clock (.buildTx body) chain s = chain.coins units ↔
    parseUnsigned 128 body.amount.toList = some 0
  /-- Against another build on the chain, equal metering means equal units exactly
  when an addition that adds nothing does not blur the two. -/
  builds : ∀ clock' body' s' units',
    (walletBuildTx u K clock' body' s').1.signedTx = some (chain, units') →
    (∃ response, (walletBuildTx u K clock' body' s').1.reply = .ok response) →
    ((metered u K clock (.buildTx body) chain s = metered u K clock' (.buildTx body') chain s' ↔
        units = units') ↔
      if parseUnsigned 128 body.amount.toList = parseUnsigned 128 body'.amount.toList then
        (AddsNothing u clock chain body.amount s ↔ AddsNothing u clock' chain body'.amount s')
      else ¬ (AddsNothing u clock chain body.amount s ∧
        AddsNothing u clock' chain body'.amount s'))
  /-- An intent for the same coins is metered equally exactly when both add nothing. -/
  sends : ∀ clock' body' s' wallet amount, s'.signer.findWallet body'.walletId = some wallet →
    wallet.chain = chain → (∃ response, (walletSend u K clock' body' s').1.reply = .ok response) →
    FixedAmount.fromStr u body'.amount = some amount → amount.coins = chain.coins units →
    (metered u K clock (.buildTx body) chain s = metered u K clock' (.send body') chain s' ↔
      AddsNothing u clock chain body.amount s ∧ AddsNothing u clock' chain body'.amount s')

/-- **Builds are metered in the wrong unit.** A successful build meters what it
signs exactly when its amount is zero. -/
theorem build_metered_iff_zero (u : Unicode) (K : WalletCrypto) (clock : Clock)
    (body : BuildTxRequest) (s : KeydState)
    (h : ∃ response, (walletBuildTx u K clock body s).1.reply = .ok response) :
    ∃ chain units, MeteringExact u K clock body s chain units := by
  obtain ⟨chain, n, amount, hsigned, hparse, hval, hmetered⟩ := build_meters h
  have hcoins : amount.coins = n := FixedAmount.coins_of_whole hval
  have hzero : amount.val ≠ 0 → n ≠ 0 := by
    rintro hne rfl
    simp [hval] at hne
  refine ⟨chain, n, hsigned, ?_, ?_, ?_⟩
  · rw [hparse, Option.some.injEq]
    rcases hmetered.added with ⟨-, hm⟩ | ⟨-, -, hm⟩
    · rw [hm, eq_comm, Chain.coins_eq_zero]
    · rw [hm, hcoins, Chain.eq_coins_iff]
  · intro clock' body' s' units' hsigned' h'
    obtain ⟨chain', n', amount', hsigned'', hparse', hval', hmetered'⟩ := build_meters h'
    obtain ⟨rfl, rfl⟩ := Prod.mk.inj (Option.some.inj (hsigned'.symm.trans hsigned''))
    have hcoins' : amount'.coins = units' := FixedAmount.coins_of_whole hval'
    rw [hmetered.eq_iff hmetered', hcoins, hcoins', hparse, hparse', Nat.cast_inj]
    by_cases hn : n = units'
    · rw [if_pos (congrArg some hn)]
      tauto
    · rw [if_neg (mt Option.some.inj hn)]
      tauto
  · rintro clock' body' s' wallet amount'' hwallet rfl h' hamount' hsame
    obtain ⟨amount', hmetered'⟩ := send_meters hwallet h'
    obtain rfl := Option.some.inj (hamount'.symm.trans hmetered'.parsed)
    rw [hmetered.eq_iff hmetered', hcoins, hsame, Chain.eq_coins_iff]
    rcases hmetered.added with ⟨hn, -⟩ | ⟨hn, hne, -⟩
    · simp [hn]
    · simp [hn, hzero hne]

end

/-! ### One lamport -/

/-- A transfer of one lamport. -/
def oneLamport : BuildTxRequest where
  walletId := "w1"
  recipient := "11111111111111111111111111111111"
  amount := "1"
  chainParams := { recentBlockhash := some "11111111111111111111111111111111" }

def oneLamportCrypto : WalletCrypto := oneWalletCrypto
  "96c136cd6e0e9db572192d078998a6b48e993a294827a989621afc0adbcdcc81d9893c634a27d28202fa9598bc5884cf6b733a8c175998c9edc5c088c44fb80c"

theorem oneLamport_metered_iff :
    ∃ chain units, MeteringExact Unicode.ascii oneLamportCrypto newYear oneLamport oneWalletState
      chain units :=
  build_metered_iff_zero Unicode.ascii oneLamportCrypto newYear oneLamport oneWalletState ⟨_, rfl⟩

/-- The transfer of one lamport is signed, and metered as one SOL. -/
theorem oneLamport_metered_as_one_coin :
    (walletBuildTx Unicode.ascii oneLamportCrypto newYear oneLamport oneWalletState).1.signedTx =
        some (.solana, 1) ∧
      metered Unicode.ascii oneLamportCrypto newYear (.buildTx oneLamport) .solana oneWalletState ≠
        Chain.solana.coins 1 := by
  have hsigned : (walletBuildTx Unicode.ascii oneLamportCrypto newYear oneLamport
      oneWalletState).1.signedTx = some (.solana, 1) := by
    decide +kernel
  have htotal : (serve Unicode.ascii oneLamportCrypto (newYear, .buildTx oneLamport)
      oneWalletState).2.policy.counters.sendAmounts Chain.solana.text = ⟨10 ^ 18, by decide⟩ := by
    decide +kernel
  refine ⟨hsigned, ?_⟩
  rw [metered, htotal]
  norm_num [FixedAmount.coins, FixedAmount.decimals, Chain.coins, Chain.unitsPerCoin,
    oneWalletState, newYear, resetIfNewDay_of_date, FixedAmount.zero]

end OsModa.Keyd
