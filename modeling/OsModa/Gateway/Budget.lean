import OsModa.Gateway.Billing
import OsModa.Gateway.SpendHistory

/-!
No session is started over budget, but for the second pass of a web turn.

A turn's check and its start are in one step, so no usage that other turns record can come
between them. A web turn whose credential is exhausted goes on with another one in a later
step, after its first pass has been billed, and that start is not checked
(`starts_within_caps_iff`).
-/

namespace OsModa.Gateway

open OsModa.Js OsModa.Machine LoopManager

/-- The agent's usage, on the day of a clock reading, is below each of its positive caps. -/
def WithinCaps (m : SpendMeter) (agent : AgentProfile) (now : Instant) : Prop :=
  (∀ cap, agent.dailyTokenCap = some cap → 0 < cap → m.tokensUsed agent.id now < cap) ∧
    ∀ cap, agent.dailyUsdCap = some cap → 0 < cap → (m.buckets.current agent.id now).costUsd < cap

/-- Every session that the step starts is for an agent within its caps. -/
def StartsWithinCaps (t : GatewayStep) : Prop :=
  ∀ s a, (s, a) ∈ starts t.output → WithinCaps t.after.spend a t.input.w.now

/-- Where the step takes a turn up again, its agent's budget would still allow a new one. -/
def RetriesAllowed (t : GatewayStep) : Prop :=
  ∀ a, t.before.retries t.input.op = some a →
    (t.before.spend.check a t.input.w.now).1.allowed = true

/-- The check refuses exactly the agents that are not within their caps. -/
theorem withinCaps_iff_allowed (m : SpendMeter) (agent : AgentProfile) (now : Instant) :
    WithinCaps m agent now ↔ (m.check agent now).1.allowed = true := by
  have hrefused := @checkBucket_allowed_iff agent (m.buckets.current agent.id now)
  unfold WithinCaps SpendMeter.check SpendMeter.tokensUsed
  rw [bucket_fst, ← Bool.not_eq_false, hrefused]
  push Not
  exact Iff.rfl

/-- The check itself leaves the agent's usage as it is. -/
theorem withinCaps_check (m : SpendMeter) (agent : AgentProfile) (now : Instant) :
    WithinCaps (m.check agent now).2 agent now ↔ WithinCaps m agent now := by
  have hsame : ((m.check agent now).2.buckets.current agent.id now) =
      m.buckets.current agent.id now := by
    rw [current_check, if_pos rfl]
    exact DayBucket.onDay_of_eq (Buckets.current_day ..)
  unfold WithinCaps SpendMeter.tokensUsed
  rw [hsame]

section Run

variable (table : List (String × Price)) (tables : CaseTables) (maxLoops : Nat)

theorem step_starts_within_iff (input : GatewayInput) (g : GatewayState) :
    StartsWithinCaps (stepOf (GatewayState.step table tables maxLoops) input g) ↔
      RetriesAllowed (stepOf (GatewayState.step table tables maxLoops) input g) := by
  have hdoes := @GatewayState.step_does table tables maxLoops g input
  constructor
  · intro hstarts a hretry
    obtain ⟨hspend, s, hs⟩ := hdoes.retried a hretry
    have hwithin := hstarts s a hs
    rw [stepOf_after, hspend] at hwithin
    exact (withinCaps_iff_allowed ..).mp hwithin
  · intro hretries s a hs
    rw [stepOf_after]
    obtain ⟨hretry, hspend⟩ | ⟨hallowed, hspend⟩ := hdoes.started s a hs
    · rw [hspend]
      exact (withinCaps_iff_allowed ..).mpr (hretries a hretry)
    · rw [hspend]
      exact (withinCaps_check ..).mpr ((withinCaps_iff_allowed ..).mpr hallowed)

end Run

/-! ### A turn that runs out of credit -/

/-- The assistant may use 100 tokens a day. -/
def capped : AgentProfile := { assistant with dailyTokenCap := some 100 }

/-- The CLI uses 1000 tokens before it says that it is out of credit. -/
def exhausting : ClaudeCode.CliRun where
  spawnFailure := none
  events := [⟨none, .result true (some 400) (some (utf16 "Credit balance is too low"))
    (some ⟨some 900, none, none, some 100⟩) none⟩]
  exitCode := 1
  stderr := []
  aborted := false

def spare : Credential := ⟨utf16 "c2", utf16 "spare", utf16 "anthropic", utf16 "api_key"⟩

/-- A chat whose first pass runs out of credit and goes on with another credential. -/
def secondPass : List GatewayInput :=
  [⟨.connect 0, atEpoch⟩,
    ⟨.chat 0 ⟨{ foundAssistant with agent := some capped }, utf16 "hello", utf16 "main",
      utf16 "hello"⟩ (.claudeCode exhausting), atEpoch⟩] ++
    List.replicate 3 ⟨.next 0 none (.claudeCode answering), atEpoch⟩

def afterFirstPass : GatewayState :=
  final (GatewayState.step prices .ascii defaultMaxLoops) secondPass (.boot .empty .empty)

def startOfSecondPass : GatewayInput := ⟨.next 0 (some spare) (.claudeCode answering), atEpoch⟩

end OsModa.Gateway
