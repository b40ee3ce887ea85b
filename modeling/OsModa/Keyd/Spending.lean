import Mathlib.Algebra.BigOperators.Group.List.Basic
import OsModa.Base.Machine
import OsModa.Keyd.Policy

/-!
What the policy bounds over a run of `check_send` calls within one UTC day.

The counters are kept per chain, so a rule bounds each chain that it applies to on
its own: on every such chain the allowed calls stay within the rule's count, within
its amount, and at its destinations (`spending_within_rule`). A rule that names no
chain therefore allows its limit once for each chain (`chainless_rule_spent_twice`).
-/

namespace OsModa.Keyd

open OsModa.Text PolicyEngine

structure SendCall where
  chain : String
  amount : String
  destination : String
  deriving DecidableEq

abbrev SendStep := Machine.Step PolicyEngine SendCall PolicyDecision

section

variable (u : Unicode) (today : String)

def serveSend (call : SendCall) (e : PolicyEngine) : PolicyDecision × PolicyEngine :=
  checkSend u e today call.chain call.amount call.destination

/-- The steps of a sequence of `check_send` calls on one date. -/
def sendRun (calls : List SendCall) (e : PolicyEngine) : List SendStep :=
  Machine.trace (serveSend u today) calls e

/-- The exact amount of a call. -/
def amountOf (call : SendCall) : Nat :=
  ((FixedAmount.fromStr u call.amount).map FixedAmount.val).getD 0

/-- The calls of a run that were allowed on chains of a kind. -/
def allowedOn (onChain : String → Bool) (run : List SendStep) : List SendCall :=
  (run.filter fun t => t.output = .allowed && onChain t.input.chain).map Machine.Step.input

/-- The allowed calls stay within the limits of a rule. -/
structure WithinRule (rule : PolicyRule) (calls : List SendCall) : Prop where
  amount : ∀ max, limit u rule = some max → (calls.map (amountOf u)).sum ≤ max.val
  count : ∀ max, rule.maxPerDay = some max → calls.length ≤ max.toNat
  destination : ∀ allowed, rule.allowedDestinations = some allowed →
    ∀ call ∈ calls, call.destination ∈ allowed

/-- What the counters of a chain say about the calls allowed on it since: they count
at least these calls, and stand within the rule once there is one. -/
structure Accounted (rule : PolicyRule) (chain : String) (calls : List SendCall)
    (e : PolicyEngine) : Prop where
  date : e.counters.date = today
  destination : ∀ allowed, rule.allowedDestinations = some allowed →
    ∀ call ∈ calls, call.destination ∈ allowed
  count : ∀ max, rule.maxPerDay = some max →
    calls.length ≤ (e.counters.sendCounts chain).toNat ∧
      (calls = [] ∨ e.counters.sendCounts chain ≤ max)
  amount : ∀ max, limit u rule = some max →
    (calls.map (amountOf u)).sum ≤ (e.counters.sendAmounts chain).val ∧
      (calls = [] ∨ (e.counters.sendAmounts chain).val ≤ max.val)

variable {u today} {rule : PolicyRule} {chain : String} {calls : List SendCall} {e : PolicyEngine}

theorem Accounted.withinRule (h : Accounted u today rule chain calls e) :
    WithinRule u rule calls where
  amount max hmax := by
    obtain ⟨hsum, hcalls | hle⟩ := h.amount max hmax
    · simp [hcalls]
    · omega
  count max hmax := by
    obtain ⟨hlen, hcalls | hle⟩ := h.count max hmax
    · simp [hcalls]
    · have := UInt32.le_iff_toNat_le.mp hle
      omega
  destination := h.destination

/-- A check starts by making the counters those of the day. -/
theorem checkSend_reset (u : Unicode) (e : PolicyEngine)
    (today chain amountStr destination : String) :
    checkSend u e today chain amountStr destination =
      checkSend u { e with counters := e.counters.resetIfNewDay today } today chain amountStr
        destination := by
  unfold checkSend
  rw [resetIfNewDay_of_date resetIfNewDay_date]

/-- **One check.** It leaves the calls of a rule and a chain accounted for, with
itself among them if it was allowed on that chain. -/
theorem accounted_step (call : SendCall) (hrule : rule ∈ e.policy.rules)
    (happlies : AppliesTo rule chain) (h : Accounted u today rule chain calls e) :
    Accounted u today rule chain
      (calls ++ allowedOn (· = chain) [Machine.stepOf (serveSend u today) call e])
      (serveSend u today call e).2 := by
  have hcases := checkSend_cases u e today call.chain call.amount call.destination
  rw [resetIfNewDay_of_date h.date] at hcases
  rcases hcases with ⟨reason, hout⟩ | ⟨amount, hparse, hnone, hout⟩
  · simpa [allowedOn, serveSend, hout] using h
  · by_cases hchain : call.chain = chain
    · subst hchain
      obtain ⟨hdest, hcount, hamount⟩ := ruleDenial_eq_none_iff.mp (hnone rule hrule) happlies
      rw [destinationDenial_eq_none_iff] at hdest
      rw [countDenial_eq_none_iff] at hcount
      rw [amountDenial_eq_none_iff] at hamount
      have hnew : allowedOn (· = call.chain) [Machine.stepOf (serveSend u today) call e] = [call] := by
        simp [allowedOn, serveSend, hout]
      rw [hnew]
      simp only [serveSend, hout]
      refine ⟨h.date, ?_, ?_, ?_⟩
      · intro allowed hallowed other hother
        rcases List.mem_append.mp hother with hmem | hmem
        · exact h.destination allowed hallowed other hmem
        · rw [List.mem_singleton.mp hmem]
          exact hdest allowed hallowed
      · -- The count was below the maximum, so adding one neither wraps nor passes it.
        intro max hmax
        have hlt := UInt32.lt_iff_toNat_lt.mp (hcount max hmax)
        have hsucc : (e.counters.sendCounts call.chain + 1).toNat =
            (e.counters.sendCounts call.chain).toNat + 1 := by
          have := max.toNat_lt
          rw [UInt32.toNat_add]
          exact Nat.mod_eq_of_lt (by simp; omega)
        have hlen := (h.count max hmax).1
        rw [record_sendCounts_self, List.length_append, List.length_singleton, hsucc,
          UInt32.le_iff_toNat_le, hsucc]
        exact ⟨by omega, Or.inr hlt⟩
      · intro max hmax
        have hle := hamount max hmax
        have hsum := (h.amount max hmax).1
        have hadd : (e.counters.sendAmounts call.chain).checkedAdd amount =
            some ⟨(e.counters.sendAmounts call.chain).val + amount.val,
              lt_of_le_of_lt hle max.lt⟩ := by
          rw [FixedAmount.checkedAdd, FixedAmount.checked_eq_some]
        have hthis : amountOf u call = amount.val := by simp [amountOf, hparse]
        rw [record_sendAmounts_self, hadd, Option.getD_some, List.map_append, List.sum_append,
          List.map_singleton, List.sum_singleton, hthis]
        exact ⟨Nat.add_le_add_right hsum _, Or.inr hle⟩
    · have hnew : allowedOn (· = chain) [Machine.stepOf (serveSend u today) call e] = [] := by
        simp [allowedOn, hchain]
      rw [hnew, List.append_nil]
      simp only [serveSend, hout]
      refine ⟨h.date, h.destination, ?_, ?_⟩
      · rw [record_sendCounts_of_ne _ _ (Ne.symm hchain)]
        exact h.count
      · rw [record_sendAmounts_of_ne _ _ (Ne.symm hchain)]
        exact h.amount

theorem allowedOn_append (onChain : String → Bool) (run run' : List SendStep) :
    allowedOn onChain (run ++ run') = allowedOn onChain run ++ allowedOn onChain run' := by
  simp [allowedOn]

theorem allowedOn_cons (onChain : String → Bool) (t : SendStep) (run : List SendStep) :
    allowedOn onChain (t :: run) =
      (if t.output = .allowed ∧ onChain t.input.chain = true then [t.input] else []) ++
        allowedOn onChain run := by
  unfold allowedOn
  rw [List.filter_cons]
  by_cases h : t.output = .allowed ∧ onChain t.input.chain = true
  · rw [if_pos (by simpa using h), if_pos h]
    rfl
  · rw [if_neg (by simpa using h), if_neg h]
    rfl

/-- What the counters of another day hold is not seen by a run. -/
theorem allowedOn_sendRun_reset (onChain : String → Bool) (calls : List SendCall)
    (e : PolicyEngine) :
    allowedOn onChain (sendRun u today calls e) = allowedOn onChain
      (sendRun u today calls { e with counters := e.counters.resetIfNewDay today }) := by
  cases calls with
  | nil => rfl
  | cons call calls =>
    have hstep : serveSend u today call e = serveSend u today call
        { e with counters := e.counters.resetIfNewDay today } := checkSend_reset ..
    rw [sendRun, sendRun, Machine.trace_cons, Machine.trace_cons, allowedOn_cons, allowedOn_cons,
      ← hstep]
    simp only [Machine.stepOf_output, Machine.stepOf_input, hstep]
    rfl

/-- What a rule guarantees on a chain that it applies to. -/
structure SpendingBounded (u : Unicode) (today : String) (rule : PolicyRule) (chain : String)
    (run : List SendStep) : Prop where
  /-- The allowed calls on the chain stay within the rule. -/
  within : WithinRule u rule (allowedOn (· = chain) run)
  /-- With an amount limit, a call whose amount would overflow the total is denied. -/
  overflow : ∀ t ∈ run, t.input.chain = chain → (limit u rule).isSome = true →
    2 ^ 128 ≤ ((t.before.counters.resetIfNewDay today).sendAmounts chain).val +
      amountOf u t.input → t.output ≠ .allowed
  /-- A call whose amount does not parse is denied. -/
  invalid : ∀ t ∈ run, FixedAmount.fromStr u t.input.amount = none → t.output ≠ .allowed

/-- **The policy bounds each chain.** Over every sequence of calls on one date, from
any policy and any counters, every send rule bounds every chain that it applies to. -/
theorem spending_within_rule (u : Unicode) (today : String) (calls : List SendCall)
    (e : PolicyEngine) :
    ∀ rule ∈ e.policy.rules, ∀ chain, AppliesTo rule chain →
      SpendingBounded u today rule chain (sendRun u today calls e) := by
  intro rule hrule chain happlies
  have hstep : ∀ t ∈ sendRun u today calls e, rule ∈ t.before.policy.rules ∧
      t = Machine.stepOf (serveSend u today) t.input t.before := by
    intro t ht
    have hkeep := Machine.trace_invariant (I := fun e' => rule ∈ e'.policy.rules)
      (fun call e' he' => by simpa [serveSend] using he') hrule ht
    obtain ⟨_, _, _, ht'⟩ := Machine.mem_trace_split ht
    exact ⟨hkeep.1, by rw [ht']; rfl⟩
  refine ⟨?_, ?_, ?_⟩
  · rw [allowedOn_sendRun_reset]
    set start : PolicyEngine := { e with counters := e.counters.resetIfNewDay today }
    have hstart : rule ∈ start.policy.rules ∧
        Accounted u today rule chain (allowedOn (· = chain) []) start :=
      ⟨hrule, resetIfNewDay_date, by simp [allowedOn], by simp [allowedOn], by simp [allowedOn]⟩
    have hkeep : ∀ call history e', (rule ∈ e'.policy.rules ∧
        Accounted u today rule chain (allowedOn (· = chain) history) e') →
        rule ∈ (serveSend u today call e').2.policy.rules ∧ Accounted u today rule chain
          (allowedOn (· = chain) (history ++ [Machine.stepOf (serveSend u today) call e']))
          (serveSend u today call e').2 := by
      rintro call history e' ⟨hmem, hacc⟩
      rw [allowedOn_append]
      exact ⟨by simpa [serveSend] using hmem, accounted_step call hmem happlies hacc⟩
    have hrun := Machine.history_invariant (R := fun history e' => rule ∈ e'.policy.rules ∧
      Accounted u today rule chain (allowedOn (· = chain) history) e') hkeep calls hstart
    exact hrun.2.withinRule
  · intro t ht hchain hlimit hoverflow hallowed
    obtain ⟨max, hmax⟩ := Option.isSome_iff_exists.mp hlimit
    obtain ⟨hin, hout⟩ := hstep t ht
    rw [hout] at hallowed
    rcases checkSend_cases u t.before today t.input.chain t.input.amount t.input.destination with
      ⟨reason, hdenied⟩ | ⟨amount, hparse, hnone, -⟩
    · rw [Machine.stepOf_output, serveSend, hdenied] at hallowed
      cases hallowed
    · have hamount : amountOf u t.input = amount.val := by simp [amountOf, hparse]
      have hle := amountDenial_eq_none_iff.mp
        (ruleDenial_eq_none_iff.mp (hnone rule hin) (hchain ▸ happlies)).2.2 max hmax
      have := max.lt
      rw [hchain] at hle
      omega
  · intro t ht hparse hallowed
    obtain ⟨-, hout⟩ := hstep t ht
    rw [hout] at hallowed
    rcases checkSend_cases u t.before today t.input.chain t.input.amount t.input.destination with
      ⟨reason, hdenied⟩ | ⟨amount, hsome, -, -⟩
    · rw [Machine.stepOf_output, serveSend, hdenied] at hallowed
      cases hallowed
    · rw [hparse] at hsome
      cases hsome

end

/-! ### A day of sends -/

/-- An engine that starts the day with nothing spent. -/
def freshEngine (rules : List PolicyRule) : PolicyEngine :=
  ⟨⟨rules⟩, ⟨"2026-01-01", fun _ => 0, fun _ => .zero, 0⟩⟩

/-- Half a coin, twice, and a third time too many, under the default policy. -/
theorem default_spending_within_rule :
    SpendingBounded Unicode.ascii "2026-01-01" ⟨"send", some "1.0", none, some "ethereum", some 10⟩
      "ethereum" (sendRun Unicode.ascii "2026-01-01"
        [⟨"ethereum", "0.5", "0xa"⟩, ⟨"ethereum", "0.5", "0xb"⟩, ⟨"ethereum", "0.5", "0xc"⟩]
        (freshEngine PolicyFile.default.rules)) :=
  spending_within_rule Unicode.ascii "2026-01-01" _ (freshEngine PolicyFile.default.rules) _
    (by decide) "ethereum" (by decide)

/-- A send rule for every chain: one coin and one call a day. -/
def chainlessRule : PolicyRule := ⟨"send", some "1", none, none, some 1⟩

/-- The rule applies to both calls, and both are allowed. -/
theorem chainlessRule_spent_twice :
    ¬ WithinRule Unicode.ascii chainlessRule
      (allowedOn (fun chain => AppliesTo chainlessRule chain)
        (sendRun Unicode.ascii "2026-01-01" [⟨"ethereum", "1", "0xa"⟩, ⟨"solana", "1", "A"⟩]
          (freshEngine [chainlessRule]))) := by
  intro h
  have hcount := h.count 1 rfl
  revert hcount
  decide +kernel

end OsModa.Keyd
