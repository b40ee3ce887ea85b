import OsModa.Base.Machine
import OsModa.Keyd.Api

/-!
Which signatures over payments keyd can make.

`wallet_send` signs the text of an intent and `wallet_build_tx` a transaction, both
after `check_send` allowed the chain, the recipient and the amount. `wallet_sign`
signs any bytes of the caller under `check_sign` alone, and these bytes may be an
intent or a transfer message. So a signature over a payment comes from a request
whose send was allowed, or from a `wallet_sign` request for exactly these bytes
(`payments_gated`): the encodings of the three handlers never meet otherwise.
-/

namespace OsModa.Keyd

open OsModa.Text OsModa.Encoding

/-! ### The encodings -/

structure SendIntent where
  chain : Chain
  recipient : String
  amount : String
  deriving DecidableEq

def SendIntent.bytes (i : SendIntent) : List UInt8 :=
  utf8 (txIntent i.chain.text i.recipient i.amount).toList

theorem Chain.text_injective : Function.Injective Chain.text := by
  intro a b h
  cases a <;> cases b <;> first | rfl | exact absurd h (by decide)

theorem Chain.colon_not_mem_text (chain : Chain) : ':' ∉ chain.text.toList := by
  cases chain <;> decide

/-- Intents with the same text are the same, as no amount contains a colon. -/
theorem SendIntent.bytes_injective {u : Unicode} {i j : SendIntent}
    (hi : (FixedAmount.fromStr u i.amount).isSome = true)
    (hj : (FixedAmount.fromStr u j.amount).isSome = true) (h : i.bytes = j.bytes) : i = j := by
  obtain ⟨chain, recipient, amount⟩ := i
  obtain ⟨chain', recipient', amount'⟩ := j
  have hnone : ∀ {text : String}, (FixedAmount.fromStr u text).isSome = true →
      text.toList.count ':' = 0 := by
    intro text htext
    obtain ⟨a, ha⟩ := Option.isSome_iff_exists.mp htext
    exact List.count_eq_zero.mpr (FixedAmount.colon_not_mem_of_fromStr u ha)
  have htext := utf8_injective h
  simp only [txIntent, String.toList_append, List.append_assoc, List.append_cancel_left_eq] at htext
  have hcolons : chain.text.toList.count ':' = chain'.text.toList.count ':' := by
    rw [List.count_eq_zero.mpr chain.colon_not_mem_text,
      List.count_eq_zero.mpr chain'.colon_not_mem_text]
  obtain ⟨hchain, hrest⟩ := append_sep_inj hcolons htext
  have hcount : amount.toList.count ':' = amount'.toList.count ':' :=
    (hnone hi).trans (hnone hj).symm
  obtain ⟨hrecipient, hamount⟩ := append_sep_inj_right hcount hrest
  obtain rfl := Chain.text_injective (String.toList_inj.mp hchain)
  obtain rfl := String.toList_inj.mp hrecipient
  obtain rfl := String.toList_inj.mp hamount
  rfl

/-- The first byte tells the three encodings apart. -/
theorem SendIntent.head?_bytes (i : SendIntent) : i.bytes.head? = some 0x73 := by
  have : (txIntent i.chain.text i.recipient i.amount).toList =
      's' :: ("end:" ++ i.chain.text ++ ":" ++ i.recipient ++ ":" ++ i.amount).toList := by
    simp [txIntent]
  rw [SendIntent.bytes, this, utf8_cons]
  rfl

theorem head?_buildTransferMessage (t : SolTransfer) :
    (buildTransferMessage t).head? = some 1 := rfl

theorem EthTx.head?_signingInput (tx : EthTx) : tx.signingInput.head? = some 2 := rfl

/-- A built transaction starts with no letter, and a built transfer is the request's. -/
theorem payload_of_buildFor {K : WalletCrypto} {chain : Chain} {key : List UInt8}
    {body : BuildTxRequest} {response : KeydResponse} {payload : Signed}
    (h : buildFor K chain key body = .ok (response, payload)) :
    payload.bytes.head? ≠ some 0x73 ∧ (chain = .solana → ∀ transfer,
      payload.bytes = buildTransferMessage transfer →
      K.base58Decode body.recipient = some transfer.recipient.val ∧
        parseUnsigned 64 body.amount.toList = some transfer.lamports.toNat) := by
  cases builtFor_of_buildFor K h with
  | ethereum tx hvalue =>
    refine ⟨?_, nofun⟩
    rw [Signed.bytes, tx.head?_signingInput]
    decide
  | solana transfer hrecipient hlamports =>
    refine ⟨?_, fun _ transfer' hbytes => ?_⟩
    · rw [Signed.bytes, head?_buildTransferMessage]
      decide
    · obtain rfl := buildTransferMessage_injective hbytes
      exact ⟨hrecipient, hlamports⟩

/-! ### Payments -/

section

variable {u : Unicode} {K : WalletCrypto} {clock : Clock} {s : KeydState}

/-- A `wallet_sign` request named exactly these bytes, and the sign policy allowed it. -/
def AskedToSign (request : KeydRequest) (events : List KeydEvent) (bytes : List UInt8) : Prop :=
  ∃ body, request = .sign body ∧ hexDecode? body.payload.toList = some bytes ∧
    .checkedSign .allowed ∈ events

/-- What stands behind a signature over a payment. -/
structure PaymentsGated (u : Unicode) (K : WalletCrypto) (request : KeydRequest)
    (events : List KeydEvent) : Prop where
  /-- A signed intent: the send policy allowed this send, or the caller named the bytes. -/
  intent : ∀ wallet payload, .signed wallet payload ∈ events → ∀ intent : SendIntent,
    (FixedAmount.fromStr u intent.amount).isSome = true → payload.bytes = intent.bytes →
    .checkedSend intent.chain.text intent.amount intent.recipient .allowed ∈ events ∨
      AskedToSign request events payload.bytes
  /-- A signed transfer of a Solana wallet: the send policy allowed texts that denote
  its recipient and its lamports, or the caller named the bytes. -/
  transfer : ∀ wallet payload, .signed wallet payload ∈ events → wallet.chain = .solana →
    ∀ transfer, payload.bytes = buildTransferMessage transfer →
    (∃ amount recipient, .checkedSend Chain.solana.text amount recipient .allowed ∈ events ∧
      K.base58Decode recipient = some transfer.recipient.val ∧
      parseUnsigned 64 amount.toList = some transfer.lamports.toNat) ∨
      AskedToSign request events payload.bytes

theorem paymentsGated_of_refused {request : KeydRequest} {served : Served}
    (h : served.Refused) : PaymentsGated u K request served.events where
  intent wallet payload hmem := absurd hmem (h.unsigned wallet payload)
  transfer wallet payload hmem := absurd hmem (h.unsigned wallet payload)

/-- The signature of a list of one check and one signature. -/
theorem signed_mem_pair {check : KeydEvent} {wallet wallet' : WalletInfo}
    {payload payload' : Signed} (hcheck : ∀ w p, check ≠ .signed w p)
    (h : KeydEvent.signed wallet payload ∈ [check, .signed wallet' payload']) :
    wallet = wallet' ∧ payload = payload' := by
  rcases List.mem_pair.mp h with heq | heq
  · exact absurd heq.symm (hcheck _ _)
  · exact KeydEvent.signed.inj heq

theorem walletSign_gated (body : SignRequest) :
    PaymentsGated u K (.sign body) (walletSign K clock body s).1.events := by
  rcases walletSign_cases K clock s body with
    hrefused | ⟨wallet, message, response, signer, -, -, hpayload, heq⟩
  · exact paymentsGated_of_refused hrefused
  · rw [heq]
    have hasked : ∀ wallet' payload, KeydEvent.signed wallet' payload ∈
        [.checkedSign .allowed, .signed wallet (.message message)] →
        AskedToSign (.sign body) [.checkedSign .allowed, .signed wallet (.message message)]
          payload.bytes := by
      intro wallet' payload hmem
      obtain ⟨-, rfl⟩ := signed_mem_pair (by simp) hmem
      exact ⟨body, rfl, hpayload, List.mem_cons_self⟩
    exact ⟨fun w p hmem _ _ _ => Or.inr (hasked w p hmem),
      fun w p hmem _ _ _ => Or.inr (hasked w p hmem)⟩

theorem walletSend_gated (body : SendRequest) :
    PaymentsGated u K (.send body) (walletSend u K clock body s).1.events := by
  rcases walletSend_cases u K clock s body with
    hrefused | ⟨wallet, response, signer, -, hallowed, heq⟩
  · exact paymentsGated_of_refused hrefused
  · rw [heq]
    set own : SendIntent := ⟨wallet.chain, body.recipient, body.amount⟩
    have hown : (FixedAmount.fromStr u own.amount).isSome = true := by
      obtain ⟨amount, hamount⟩ := PolicyEngine.parsed_of_allowed hallowed
      exact Option.isSome_iff_exists.mpr ⟨amount, hamount⟩
    refine ⟨?_, ?_⟩
    · intro wallet' payload hmem intent hintent hbytes
      obtain ⟨-, rfl⟩ := signed_mem_pair (by simp) hmem
      obtain rfl : own = intent := SendIntent.bytes_injective hown hintent hbytes
      exact Or.inl List.mem_cons_self
    · intro wallet' payload hmem _ transfer hbytes
      obtain ⟨-, rfl⟩ := signed_mem_pair (by simp) hmem
      -- An intent starts with a letter, a transfer message with the number one.
      have hhead := own.head?_bytes
      rw [show own.bytes = buildTransferMessage transfer from hbytes,
        head?_buildTransferMessage] at hhead
      cases hhead

theorem walletBuildTx_gated (body : BuildTxRequest) :
    PaymentsGated u K (.buildTx body) (walletBuildTx u K clock body s).1.events := by
  rcases walletBuildTx_cases u K clock s body with
    hrefused | ⟨wallet, key, response, payload, signer, -, hallowed, hbuild, heq⟩
  · exact paymentsGated_of_refused hrefused
  · rw [heq]
    obtain ⟨hhead, htransfer⟩ := payload_of_buildFor hbuild
    refine ⟨?_, ?_⟩
    · intro wallet' payload' hmem intent _ hbytes
      obtain ⟨-, rfl⟩ := signed_mem_pair (by simp) hmem
      rw [hbytes, intent.head?_bytes] at hhead
      exact absurd rfl hhead
    · intro wallet' payload' hmem hsolana transfer hbytes
      obtain ⟨rfl, rfl⟩ := signed_mem_pair (by simp) hmem
      obtain ⟨hrecipient, hlamports⟩ := htransfer hsolana transfer hbytes
      refine Or.inl ⟨body.amount, body.recipient, ?_, hrecipient, hlamports⟩
      rw [hsolana]
      exact List.mem_cons_self

end

/-- **No payment outside the policy.** In every run, a signature over a payment comes
from a request whose send was allowed, or that named the bytes to `wallet_sign`. -/
theorem payments_gated (u : Unicode) (K : WalletCrypto) (calls : List (Clock × KeydRequest))
    (s : KeydState) : ∀ t ∈ Machine.trace (serve u K) calls s,
      PaymentsGated u K t.input.2 t.output.events := by
  intro t ht
  obtain ⟨pre, post, -, hstep⟩ := Machine.mem_trace_split ht
  rw [hstep]
  obtain ⟨clock, request⟩ := t.input
  cases request with
  | sign body => exact walletSign_gated body
  | send body => exact walletSend_gated body
  | buildTx body => exact walletBuildTx_gated body

/-! ### An intent through `wallet_sign` -/

/-- One SOL to the System Program's address. -/
def oneCoinIntent : SendIntent := ⟨.solana, "11111111111111111111111111111111", "1"⟩

/-- The request to sign the bytes of that intent. -/
def signOneCoinIntent : SignRequest where
  walletId := "w1"
  payload := "73656e643a736f6c616e613a31313131313131313131313131313131313131313131313131313131313131313a31"

def signIntentCrypto : WalletCrypto := oneWalletCrypto
  "9002f8f7c4c040b7e5663e9ced05e79aefa17a7be974859ee2a3d7eba8787db3ba35e401919464151c8ae2c6e020440c675f1785c7896ee38ccc2a539092160e"

theorem sendOneCoin_gated :
    PaymentsGated Unicode.ascii signIntentCrypto (.send ⟨"w1", oneCoinIntent.recipient, "1"⟩)
      (walletSend Unicode.ascii signIntentCrypto newYear ⟨"w1", oneCoinIntent.recipient, "1"⟩
        oneWalletState).1.events :=
  payments_gated Unicode.ascii signIntentCrypto
    [(newYear, .send ⟨"w1", oneCoinIntent.recipient, "1"⟩)] oneWalletState _ List.mem_cons_self

/-- The daemon signs the intent of a send that `check_send` was never asked about. -/
theorem intent_signed_unchecked : ¬ ∀ t ∈ Machine.trace (serve Unicode.ascii signIntentCrypto)
    [(newYear, .sign signOneCoinIntent)] oneWalletState,
    ∀ wallet payload, .signed wallet payload ∈ t.output.events →
      payload.bytes = oneCoinIntent.bytes →
      .checkedSend oneCoinIntent.chain.text oneCoinIntent.amount oneCoinIntent.recipient .allowed ∈
        t.output.events := by
  have hevents : (walletSign signIntentCrypto newYear signOneCoinIntent oneWalletState).1.events =
      [.checkedSign .allowed, .signed oneWallet (.message oneCoinIntent.bytes)] := by
    decide +kernel
  intro h
  have hchecked := h _ List.mem_cons_self oneWallet (.message oneCoinIntent.bytes)
    (by simp [hevents]) rfl
  rw [Machine.stepOf_output, serve_sign, hevents] at hchecked
  simp at hchecked

end OsModa.Keyd
