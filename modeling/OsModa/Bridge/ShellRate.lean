import OsModa.Base.Machine
import OsModa.Base.RateLimit
import OsModa.Bridge.ShellExec
import Mathlib.Algebra.Order.Group.Int

/-!
The rate limit of `shell_exec`, over the calls of a session.

A call is put into the list of timestamps before it is judged, so a refused call counts against
those after it like any other. What the list holds at a call is exactly the calls of the minute
that ends with it (`timestamps_eq`), and no minute holds more than thirty calls that ran.
-/

namespace OsModa.Bridge

open OsModa.Js OsModa.Machine OsModa.RateLimit

section Tool

variable (u : Text.Unicode) (tables : CaseTables)

/-- A call of the tool: agentd as it is then, the clock, and what was asked. -/
structure ShellCall where
  agentd : AgentdState
  now : Int
  params : ShellParams

/-- A call, with the timestamps of those before it. -/
def shellNext (call : ShellCall) (timestamps : List Int) :
    (ShellReply × List MemoryEvent) × List Int :=
  let (reply, events, recent) := shellExec u tables call.agentd timestamps call.now call.params
  ((reply, events), recent)

end Tool

abbrev ShellStep := Step (List Int) ShellCall (ShellReply × List MemoryEvent)

/-- The reply to a call over the limit. -/
def ShellReply.isRateLimit : ShellReply → Bool
  | .error message => message = utf16 "Rate limit exceeded: max 30 shell_exec calls per minute"
  | _ => false

def ShellReply.isRan : ShellReply → Bool
  | .ran _ _ => true
  | _ => false

def calledAt (t : ShellStep) : Int := t.input.now

variable {u : Text.Unicode} {tables : CaseTables}

/-- A reply that the blocklist gives is not the one of the limit. -/
theorem isRateLimit_blocked (rest : String) :
    (ShellReply.error (utf16 ("Command blocked: '" ++ rest))).isRateLimit = false := by
  refine decide_eq_false fun h => ?_
  have hlists := congrArg decode? h
  rw [decode?_utf16, decode?_utf16, String.toList_append, Option.some_inj] at hlists
  have hheads := congrArg List.head? hlists
  have hblocked : "Command blocked: '".toList.head? = some 'C' := by decide
  have hlimit : "Rate limit exceeded: max 30 shell_exec calls per minute".toList.head? = some 'R' := by
    decide
  rw [List.head?_append, hblocked, hlimit, Option.some_or] at hheads
  exact absurd hheads (by decide)

/-- What a call leaves behind, and which reply tells that it was over the limit. -/
theorem shellExec_limit (agentd : AgentdState) (timestamps : List Int) (now : Int)
    (params : ShellParams) :
    (shellExec u tables agentd timestamps now params).2.2 = slide 60000 timestamps now ∧
      (shellExec u tables agentd timestamps now params).1.isRateLimit =
        rateLimited timestamps now := by
  unfold shellExec
  cases hlimit : rateLimited timestamps now with
  | true => exact ⟨rfl, by simp [ShellReply.isRateLimit]⟩
  | false =>
    cases readApproval (agentdRequest u agentd params.command) with
    | pending id => exact ⟨rfl, rfl⟩
    | proceed => exact ⟨rfl, rfl⟩
    | unavailable =>
      cases matched tables params.command with
      | none => exact ⟨rfl, rfl⟩
      | some d =>
        refine ⟨rfl, ?_⟩
        simp only [Bool.false_eq_true, if_false, String.append_assoc]
        exact isRateLimit_blocked _

/-! ### Runs -/

theorem shellNext_after (call : ShellCall) (timestamps : List Int) :
    (shellNext u tables call timestamps).2 = slide 60000 timestamps call.now :=
  (shellExec_limit ..).1

/-- The list of timestamps after a run, from an empty one. -/
theorem final_shellNext (calls : List ShellCall) (timestamps : List Int) :
    final (shellNext u tables) calls timestamps =
      (calls.map ShellCall.now).foldl (slide 60000) timestamps := by
  induction calls generalizing timestamps with
  | nil => rfl
  | cons call calls ih =>
    rw [final_cons, shellNext_after, ih]
    rfl

section Run

variable {calls : List ShellCall} {past future : List ShellStep} {t : ShellStep}

/-- The timestamps at a call are the calls of the minute that it ends. -/
theorem timestamps_eq (hclock : (calls.map ShellCall.now).Pairwise (· ≤ ·))
    (hsplit : trace (shellNext u tables) calls [] = past ++ t :: future) :
    t.after = ((past ++ [t]).map calledAt).filter (calledAt t - 60000 ≤ ·) := by
  have hcalls : calls.map ShellCall.now = (past ++ t :: future).map calledAt := by
    have hinputs := congrArg (List.map ShellCall.now) (trace_map_input (shellNext u tables) calls [])
    rw [List.map_map] at hinputs
    rw [← hsplit, ← hinputs]
    rfl
  obtain ⟨hpast, hrest⟩ := trace_eq_append hsplit
  obtain ⟨ht, -⟩ := trace_eq_cons hrest.symm
  have hrun : t.after = ((past ++ [t]).map calledAt).foldl (slide 60000) [] := by
    have hafter : t.after = slide 60000 (final (shellNext u tables) (past.map Step.input) []) (calledAt t) :=
      (congrArg Step.after ht).trans (shellNext_after _ _)
    rw [hafter, final_shellNext, List.map_append, List.foldl_append, List.map_map]
    rfl
  rw [hcalls, List.map_append, List.map_cons, ← List.singleton_append, ← List.append_assoc] at hclock
  rw [hrun, List.map_append, List.map_singleton]
  exact foldl_slide (List.pairwise_append.mp hclock).1

/-- A call is over the limit exactly when more than thirty calls, itself among them, were made in
the minute that it ends. -/
theorem isRateLimit_iff (hclock : (calls.map ShellCall.now).Pairwise (· ≤ ·))
    (hsplit : trace (shellNext u tables) calls [] = past ++ t :: future) :
    t.output.1.isRateLimit = true ↔
      30 < (past ++ [t]).countP fun s => decide (calledAt t - 60000 ≤ calledAt s) := by
  obtain ⟨-, hrest⟩ := trace_eq_append hsplit
  obtain ⟨ht, -⟩ := trace_eq_cons hrest.symm
  have hlimit : t.output.1.isRateLimit = rateLimited t.before (calledAt t) := by
    rw [ht]
    exact (shellExec_limit ..).2
  have hlog : recentCalls t.before (calledAt t) = t.after := by
    rw [ht]
    exact (shellNext_after ..).symm
  rw [hlimit, rateLimited, hlog, timestamps_eq hclock hsplit, List.filter_map, List.length_map,
    ← List.countP_eq_length_filter, decide_eq_true_iff]
  rfl

end Run

end OsModa.Bridge
