import Mathlib.Logic.Function.Basic
import OsModa.Keyd.FixedAmount

/-!
keyd's policy engine: the rules, the daily counters, and the two checks that stand
before every signature.

The counters are kept per chain. A chain that has no entry reads as zero, so they
are functions from chain names here. The date of the day is given to each check.
Counters are also written to disk after each allowed call; a failure to write is
logged and ignored, and the file is read only when the daemon starts.
-/

namespace OsModa.Keyd

open OsModa.Text

structure PolicyRule where
  action : String
  maxAmount : Option String
  allowedDestinations : Option (List String)
  chain : Option String
  maxPerDay : Option UInt32
  deriving DecidableEq

structure PolicyFile where
  rules : List PolicyRule
  deriving DecidableEq

/-- The policy that is written when there is none. -/
def PolicyFile.default : PolicyFile where
  rules :=
    [⟨"send", some "1.0", none, some "ethereum", some 10⟩,
     ⟨"send", some "10.0", none, some "solana", some 20⟩,
     ⟨"sign", none, none, none, some 100⟩]

inductive PolicyDecision where
  | allowed
  | denied (reason : String)
  deriving DecidableEq, Repr

/-- Tracks daily usage counters for policy enforcement. -/
structure DailyCounters where
  date : String
  sendCounts : String → UInt32
  sendAmounts : String → FixedAmount
  signCount : UInt32

def DailyCounters.resetIfNewDay (today : String) (c : DailyCounters) : DailyCounters :=
  if today ≠ c.date then ⟨today, fun _ => 0, fun _ => .zero, 0⟩ else c

structure PolicyEngine where
  policy : PolicyFile
  counters : DailyCounters

namespace PolicyEngine

variable (u : Unicode)

/-- The rule is a send rule for the chain. -/
def AppliesTo (rule : PolicyRule) (chain : String) : Prop :=
  rule.action = "send" ∧ (rule.chain = none ∨ rule.chain = some chain)

instance (rule : PolicyRule) (chain : String) : Decidable (AppliesTo rule chain) := by
  unfold AppliesTo
  infer_instance

/-- The amount a rule allows for one day. A text that does not parse is no limit. -/
def limit (rule : PolicyRule) : Option FixedAmount := rule.maxAmount.bind (FixedAmount.fromStr u)

/-- Why a rule's amount limit refuses the call, if it does. -/
def amountDenial (c : DailyCounters) (chain amountStr : String) (amount : FixedAmount)
    (rule : PolicyRule) : Option String :=
  match limit u rule with
  | none => none
  | some maxAmount =>
    let current := c.sendAmounts chain
    match current.checkedAdd amount with
    | some total =>
      if total.val > maxAmount.val then
        some ("daily amount limit exceeded: " ++ current.display ++ " + " ++ amountStr ++ " > " ++
          maxAmount.display ++ " " ++ chain)
      else none
    | none => some "amount overflow"

/-- Why a rule's daily count refuses the call, if it does. -/
def countDenial (c : DailyCounters) (chain : String) (rule : PolicyRule) : Option String :=
  match rule.maxPerDay with
  | none => none
  | some max =>
    if c.sendCounts chain ≥ max then
      some ("daily send limit reached (" ++ toString max.toNat ++ ") for " ++ chain)
    else none

/-- Why a rule's allowlist refuses the call, if it does. -/
def destinationDenial (destination : String) (rule : PolicyRule) : Option String :=
  match rule.allowedDestinations with
  | none => none
  | some allowed =>
    if destination ∈ allowed then none
    else some ("destination " ++ destination ++ " not in allowlist")

/-- Why a rule refuses the call, if it does. -/
def ruleDenial (c : DailyCounters) (chain amountStr destination : String) (amount : FixedAmount)
    (rule : PolicyRule) : Option String :=
  if AppliesTo rule chain then
    (destinationDenial destination rule).or
      ((countDenial c chain rule).or (amountDenial u c chain amountStr amount rule))
  else none

/-- Count the call, and add its amount unless the sum overflows. -/
def record (c : DailyCounters) (chain : String) (amount : FixedAmount) : DailyCounters :=
  { c with
    sendCounts := Function.update c.sendCounts chain (c.sendCounts chain + 1)
    sendAmounts := Function.update c.sendAmounts chain
      (((c.sendAmounts chain).checkedAdd amount).getD (c.sendAmounts chain)) }

@[simp] theorem record_date (c : DailyCounters) (chain : String) (amount : FixedAmount) :
    (record c chain amount).date = c.date := rfl

@[simp] theorem record_sendCounts_self (c : DailyCounters) (chain : String)
    (amount : FixedAmount) :
    (record c chain amount).sendCounts chain = c.sendCounts chain + 1 :=
  Function.update_self ..

@[simp] theorem record_sendCounts_of_ne (c : DailyCounters) {chain other : String}
    (amount : FixedAmount) (h : other ≠ chain) :
    (record c chain amount).sendCounts other = c.sendCounts other :=
  Function.update_of_ne h ..

@[simp] theorem record_sendAmounts_self (c : DailyCounters) (chain : String)
    (amount : FixedAmount) :
    (record c chain amount).sendAmounts chain =
      ((c.sendAmounts chain).checkedAdd amount).getD (c.sendAmounts chain) :=
  Function.update_self ..

@[simp] theorem record_sendAmounts_of_ne (c : DailyCounters) {chain other : String}
    (amount : FixedAmount) (h : other ≠ chain) :
    (record c chain amount).sendAmounts other = c.sendAmounts other :=
  Function.update_of_ne h ..

/-- Check whether a send operation is allowed by policy. -/
def checkSend (e : PolicyEngine) (today chain amountStr destination : String) :
    PolicyDecision × PolicyEngine :=
  let c := e.counters.resetIfNewDay today
  match FixedAmount.fromStr u amountStr with
  | none => (.denied ("invalid amount: " ++ amountStr), { e with counters := c })
  | some amount =>
    match e.policy.rules.findSome? (ruleDenial u c chain amountStr destination amount) with
    | some reason => (.denied reason, { e with counters := c })
    | none => (.allowed, { e with counters := record c chain amount })

/-- Why a rule refuses a signature, if it does. -/
def signDenial (c : DailyCounters) (rule : PolicyRule) : Option String :=
  if rule.action = "sign" then
    match rule.maxPerDay with
    | none => none
    | some max =>
      if c.signCount ≥ max then some ("daily sign limit reached (" ++ toString max.toNat ++ ")")
      else none
  else none

def checkSign (e : PolicyEngine) (today : String) : PolicyDecision × PolicyEngine :=
  let c := e.counters.resetIfNewDay today
  match e.policy.rules.findSome? (signDenial c) with
  | some reason => (.denied reason, { e with counters := c })
  | none => (.allowed, { e with counters := { c with signCount := c.signCount + 1 } })

/-! ### What the checks decide -/

variable {u} {c : DailyCounters} {chain amountStr destination today : String}
  {amount : FixedAmount} {rule : PolicyRule} {e : PolicyEngine}

theorem ruleDenial_eq_none_iff : ruleDenial u c chain amountStr destination amount rule = none ↔
    (AppliesTo rule chain → destinationDenial destination rule = none ∧
      countDenial c chain rule = none ∧ amountDenial u c chain amountStr amount rule = none) := by
  unfold ruleDenial
  split <;> simp [*]

theorem destinationDenial_eq_none_iff : destinationDenial destination rule = none ↔
    ∀ allowed, rule.allowedDestinations = some allowed → destination ∈ allowed := by
  unfold destinationDenial
  split <;> simp [*]

theorem countDenial_eq_none_iff : countDenial c chain rule = none ↔
    ∀ max, rule.maxPerDay = some max → c.sendCounts chain < max := by
  unfold countDenial
  split <;> simp [*]

theorem amountDenial_eq_none_iff : amountDenial u c chain amountStr amount rule = none ↔
    ∀ max, limit u rule = some max → (c.sendAmounts chain).val + amount.val ≤ max.val := by
  unfold amountDenial
  cases hlimit : limit u rule with
  | none => simp
  | some max =>
    dsimp only
    cases hadd : (c.sendAmounts chain).checkedAdd amount with
    | none =>
      have := FixedAmount.checked_eq_none.mp hadd
      have := max.lt
      simp only [reduceCtorEq, Option.some.injEq, forall_eq', false_iff]
      omega
    | some total =>
      have htotal := FixedAmount.checked_eq_some.mp hadd
      simp [htotal]

/-- The counters of a new day read zero; those of the same day are kept. -/
theorem resetIfNewDay_date : (c.resetIfNewDay today).date = today := by
  unfold DailyCounters.resetIfNewDay
  split
  · rfl
  · rename_i h
    exact (not_not.mp h).symm

theorem resetIfNewDay_of_date (h : c.date = today) : c.resetIfNewDay today = c := by
  rw [DailyCounters.resetIfNewDay, if_neg (by simp [h])]

/-- What `check_send` does: it denies and changes no counter of the day, or it
allows a call that no rule refuses and records it. -/
theorem checkSend_cases (u : Unicode) (e : PolicyEngine)
    (today chain amountStr destination : String) :
    (∃ reason, checkSend u e today chain amountStr destination =
        (.denied reason, { e with counters := e.counters.resetIfNewDay today })) ∨
      ∃ amount, FixedAmount.fromStr u amountStr = some amount ∧
        (∀ rule ∈ e.policy.rules, ruleDenial u (e.counters.resetIfNewDay today) chain amountStr
          destination amount rule = none) ∧
        checkSend u e today chain amountStr destination =
          (.allowed, { e with counters := record (e.counters.resetIfNewDay today) chain amount }) := by
  unfold checkSend
  cases hparse : FixedAmount.fromStr u amountStr with
  | none => exact Or.inl ⟨_, rfl⟩
  | some amount =>
    cases hdenial : e.policy.rules.findSome?
        (ruleDenial u (e.counters.resetIfNewDay today) chain amountStr destination amount) with
    | some reason => exact Or.inl ⟨reason, by simp only [hdenial]⟩
    | none =>
      refine Or.inr ⟨amount, rfl, List.findSome?_eq_none_iff.mp hdenial, ?_⟩
      simp only [hdenial]

@[simp] theorem checkSend_policy (u : Unicode) (e : PolicyEngine)
    (today chain amountStr destination : String) :
    (checkSend u e today chain amountStr destination).2.policy = e.policy := by
  rcases checkSend_cases u e today chain amountStr destination with ⟨_, h⟩ | ⟨_, _, _, h⟩ <;> rw [h]

/-- The amount of an allowed check is one that parses. -/
theorem parsed_of_allowed
    (h : (checkSend u e today chain amountStr destination).1 = .allowed) :
    ∃ amount, FixedAmount.fromStr u amountStr = some amount := by
  rcases checkSend_cases u e today chain amountStr destination with
    ⟨reason, hdenied⟩ | ⟨amount, hparse, -, -⟩
  · rw [hdenied] at h
    cases h
  · exact ⟨amount, hparse⟩

end PolicyEngine

end OsModa.Keyd
