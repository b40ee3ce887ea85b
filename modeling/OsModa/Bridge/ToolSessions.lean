import Mathlib.Data.List.Chain
import OsModa.Base.Encoding
import OsModa.Base.JsValue
import OsModa.Base.Machine

/-!
What the bridge tells teachd of the tools, and under which sessions.

Each tool is wrapped: when it is over, an observation goes to teachd, under a session that the bridge
makes up. There is no message that ends a session; one that was quiet for half an hour is over.
teachd looks for sequences of tools in sessions, so what it learns depends on where they are cut:
two observations are in one session exactly if no pause of more than half an hour lies between them
(`same_session_iff`).
-/

namespace OsModa.Bridge

open OsModa.Js OsModa.Machine OsModa.Encoding

/-! ### Sessions -/

/-- New session after 30 minutes of inactivity. -/
def sessionTimeoutMs : Nat := 30 * 60 * 1000

/-- `session-${now}-${suffix}` -/
def newSessionId (now : Nat) (suffix : JsString) : JsString :=
  utf16 "session-" ++ (utf16 (toString now) ++ utf16 "-" ++ suffix)

structure Sessions where
  currentSessionId : JsString
  lastToolTime : Nat

/-- When the bridge is loaded. -/
def Sessions.start (now : Nat) (suffix : JsString) : Sessions := ⟨newSessionId now suffix, now⟩

/-- The session of an action, and the state after it. -/
def getSessionId (now : Nat) (suffix : JsString) (s : Sessions) : JsString × Sessions :=
  let currentSessionId :=
    if sessionTimeoutMs < now - s.lastToolTime then newSessionId now suffix else s.currentSessionId
  (currentSessionId, ⟨currentSessionId, now⟩)

/-! ### Observations -/

/-- Tools that are not logged. -/
def teachdSkipTools : List JsString :=
  ["teach_observe_action", "teach_skill_execution", "teach_skill_detect", "teach_skill_verify",
    "teach_status", "teach_observations", "teach_patterns", "teach_knowledge",
    "teach_knowledge_create", "teach_context", "teach_optimize_suggest", "teach_optimize_apply",
    "teach_skill_candidates", "teach_skill_generate", "teach_skill_promote"].map utf16

inductive ToolOutcome where
  | returned (output : Option JsString)
  | thrown (message : JsString)

/-- The end of a tool: what it was called with, what came of it, the clock, and what is drawn for a
session that starts with it. -/
structure ToolEnd where
  tool : JsString
  params : Fields
  outcome : ToolOutcome
  now : Nat
  suffix : JsString

structure Observation where
  tool : JsString
  params : Fields
  resultSummary : JsString
  sessionId : JsString
  success : Bool

variable (parse : JsString → Option Value)

/-- The output is no JSON object with an error. -/
def reportsNoError (output : JsString) : Bool :=
  match parse output with
  | some (.object fields) => (Fields.get? fields (utf16 "error")).isNone
  | _ => true

/-- The output that is logged, and whether it counts as a success. -/
def ToolOutcome.result : ToolOutcome → JsString × Bool
  | .returned none | .returned (some []) => ([], true)
  | .returned (some output) => (output, reportsNoError parse output)
  | .thrown message => (if message = [] then utf16 "exception" else message, false)

def logToolExecution (e : ToolEnd) (s : Sessions) : Option Observation × Sessions :=
  if teachdSkipTools.contains e.tool then (none, s)
  else
    let (output, success) := e.outcome.result parse
    let (sessionId, s') := getSessionId e.now e.suffix s
    (some ⟨e.tool, e.params, output.take 200, sessionId, success⟩, s')

/-- What teachd is told, with the times. -/
def observations (events : List ToolEnd) (s : Sessions) : List (Nat × Observation) :=
  (trace (logToolExecution parse) events s).filterMap fun t => t.output.map (t.input.now, ·)

/-- Two times without a timeout between them. -/
def Near (time time' : Nat) : Prop := time' - time ≤ sessionTimeoutMs

/-! ### Identifiers -/

theorem toList_toString (n : Nat) : (toString n).toList = decimal n := Nat.toList_repr

theorem mem_utf16_toString {n : Nat} {a : UInt16} (h : a ∈ utf16 (toString n)) : a ≠ 45 := by
  obtain ⟨c, hc, ha⟩ := List.mem_flatMap.mp h
  rw [toList_toString] at hc
  obtain ⟨hlow, hhigh⟩ : 48 ≤ c.toNat ∧ c.toNat ≤ 57 :=
    Char.isDigit_iff_toNat.mp (isDigit_of_mem_decimal hc)
  have hsmall : c.toNat < 0x10000 := by omega
  rw [utf16Char, if_pos hsmall] at ha
  obtain rfl := List.mem_singleton.mp ha
  intro heq
  have hvalue := congrArg UInt16.toNat heq
  rw [UInt16.toNat_ofNat_of_lt' hsmall] at hvalue
  exact absurd (hvalue ▸ hlow) (by decide)

/-- Sessions that start at different times have different identifiers. -/
theorem newSessionId_inj {now now' : Nat} {suffix suffix' : JsString}
    (h : newSessionId now suffix = newSessionId now' suffix') : now = now' := by
  have hdigits : ∀ (n : Nat) (rest : JsString),
      (utf16 (toString n) ++ utf16 "-" ++ rest).takeWhile (· ≠ 45) = utf16 (toString n) := by
    intro n rest
    rw [List.append_assoc, List.takeWhile_append_of_pos fun a ha =>
      decide_eq_true (mem_utf16_toString ha)]
    exact (congrArg (utf16 (toString n) ++ ·) (List.takeWhile_cons_of_neg (by decide))).trans
      (List.append_nil _)
  have htimes := congrArg (List.takeWhile (· ≠ 45)) (List.append_cancel_left h)
  rw [hdigits, hdigits] at htimes
  have hlists := congrArg decode? htimes
  rw [decode?_utf16, decode?_utf16, toList_toString, toList_toString, Option.some_inj] at hlists
  exact decimal_injective hlists

/-! ### Where the sessions are cut -/

section Runs

variable {parse : JsString → Option Value} {s : Sessions}

theorem observations_skipped {e : ToolEnd} (h : teachdSkipTools.contains e.tool = true)
    (events : List ToolEnd) :
    observations parse (e :: events) s = observations parse events s := by
  have hstep : logToolExecution parse e s = (none, s) := if_pos h
  unfold observations
  rw [trace_cons, hstep, List.filterMap_cons_none]
  rw [stepOf_output, hstep]
  rfl

/-- The first observation, and those after it. -/
theorem observations_logged {e : ToolEnd} (h : ¬ teachdSkipTools.contains e.tool = true)
    (events : List ToolEnd) :
    ∃ o : Observation, o.sessionId = (getSessionId e.now e.suffix s).1 ∧
      observations parse (e :: events) s =
        (e.now, o) :: observations parse events (getSessionId e.now e.suffix s).2 := by
  obtain ⟨o, ho, hstep⟩ : ∃ o : Observation, o.sessionId = (getSessionId e.now e.suffix s).1 ∧
      logToolExecution parse e s = (some o, (getSessionId e.now e.suffix s).2) :=
    ⟨_, rfl, if_neg h⟩
  refine ⟨o, ho, ?_⟩
  unfold observations
  rw [trace_cons, hstep, List.filterMap_cons_some]
  rw [stepOf_output, stepOf_input, hstep]
  rfl

/-- The session is one that started at some time of the past. -/
def Sessions.Started (s : Sessions) : Prop :=
  ∃ now suffix, s.currentSessionId = newSessionId now suffix ∧ now ≤ s.lastToolTime

theorem getSessionId_cases (now : Nat) (suffix : JsString) (s : Sessions) :
    (getSessionId now suffix s).2 = ⟨(getSessionId now suffix s).1, now⟩ ∧
      (Near s.lastToolTime now ∧ (getSessionId now suffix s).1 = s.currentSessionId ∨
        s.lastToolTime + sessionTimeoutMs < now ∧
          (getSessionId now suffix s).1 = newSessionId now suffix) := by
  refine ⟨rfl, ?_⟩
  unfold getSessionId Near
  dsimp only
  split
  · rename_i hlate
    exact .inr ⟨by omega, rfl⟩
  · rename_i hnear
    exact .inl ⟨Nat.le_of_not_lt hnear, rfl⟩

theorem Sessions.Started.next (h : s.Started) {now : Nat} (hclock : s.lastToolTime ≤ now)
    (suffix : JsString) : (getSessionId now suffix s).2.Started := by
  obtain ⟨hafter, ⟨-, hid⟩ | ⟨-, hid⟩⟩ := getSessionId_cases now suffix s
  · obtain ⟨started, first, hstarted, hpast⟩ := h
    rw [hafter, hid]
    exact ⟨started, first, hstarted, hpast.trans hclock⟩
  · rw [hafter, hid]
    exact ⟨now, suffix, rfl, Nat.le_refl now⟩

/-- A later observation is in the session of the state, or in one that started later than all that
the state knows of. -/
theorem later_session {events : List ToolEnd}
    (hclock : (s.lastToolTime :: events.map (·.now)).Pairwise (· ≤ ·))
    {between after : List (Nat × Observation)} {b : Nat × Observation}
    (h : observations parse events s = between ++ b :: after) :
    List.IsChain Near (s.lastToolTime :: (between ++ [b]).map Prod.fst) ∧
        b.2.sessionId = s.currentSessionId ∨
      ¬ List.IsChain Near (s.lastToolTime :: (between ++ [b]).map Prod.fst) ∧
        ∃ now suffix, b.2.sessionId = newSessionId now suffix ∧ s.lastToolTime < now := by
  induction events generalizing s between with
  | nil => exact absurd h (by cases between <;> exact nofun)
  | cons e events ih =>
    obtain ⟨hfirst, hrest⟩ := List.pairwise_cons.mp hclock
    obtain ⟨hnow, hlater⟩ := List.forall_mem_cons.mp hfirst
    by_cases hskip : teachdSkipTools.contains e.tool = true
    · rw [observations_skipped hskip] at h
      exact ih (List.pairwise_cons.mpr ⟨hlater, (List.pairwise_cons.mp hrest).2⟩) h
    · obtain ⟨o, ho, hlogged⟩ := @observations_logged parse s e hskip events
      rw [hlogged] at h
      obtain ⟨hafter, hcases⟩ := getSessionId_cases e.now e.suffix s
      cases between with
      | nil =>
        obtain ⟨rfl, -⟩ := List.cons.inj h
        rw [List.nil_append, List.map_singleton, List.isChain_cons_cons, ho]
        rcases hcases with ⟨hnear, hid⟩ | ⟨hlate, hid⟩
        · exact .inl ⟨⟨hnear, List.isChain_singleton _⟩, hid⟩
        · refine .inr ⟨fun hchain => ?_, e.now, e.suffix, hid, by omega⟩
          have hnear : e.now - s.lastToolTime ≤ sessionTimeoutMs := hchain.1
          omega
      | cons x between =>
        obtain ⟨rfl, htail⟩ := List.cons.inj h
        rw [hafter] at htail
        have hih := ih (s := ⟨(getSessionId e.now e.suffix s).1, e.now⟩) hrest htail
        rw [List.cons_append, List.map_cons, List.isChain_cons_cons]
        rcases hih with ⟨hchain, hsame⟩ | ⟨hbroken, now, suffix, hid', hpast⟩
        · rcases hcases with ⟨hnear, hid⟩ | ⟨hlate, hid⟩
          · exact .inl ⟨⟨hnear, hchain⟩, hsame.trans hid⟩
          · refine .inr ⟨fun hall => ?_, e.now, e.suffix, hsame.trans hid, by omega⟩
            have hnear : e.now - s.lastToolTime ≤ sessionTimeoutMs := hall.1
            omega
        · exact .inr ⟨fun hall => hbroken hall.2, now, suffix, hid', hnow.trans_lt hpast⟩

/-- The same from an observation on. -/
theorem same_session_of_started {events : List ToolEnd} (hstarted : s.Started)
    (hclock : (s.lastToolTime :: events.map (·.now)).Pairwise (· ≤ ·))
    {before between after : List (Nat × Observation)} {a b : Nat × Observation}
    (h : observations parse events s = before ++ a :: (between ++ b :: after)) :
    a.2.sessionId = b.2.sessionId ↔ List.IsChain Near ((a :: between ++ [b]).map Prod.fst) := by
  induction events generalizing s before with
  | nil => exact absurd h (by cases before <;> exact nofun)
  | cons e events ih =>
    obtain ⟨hfirst, hrest⟩ := List.pairwise_cons.mp hclock
    obtain ⟨hnow, hlater⟩ := List.forall_mem_cons.mp hfirst
    by_cases hskip : teachdSkipTools.contains e.tool = true
    · rw [observations_skipped hskip] at h
      exact ih hstarted (List.pairwise_cons.mpr ⟨hlater, (List.pairwise_cons.mp hrest).2⟩) h
    · obtain ⟨o, ho, hlogged⟩ := @observations_logged parse s e hskip events
      have hnext := hstarted.next hnow e.suffix
      obtain ⟨hafter, -⟩ := getSessionId_cases e.now e.suffix s
      rw [hlogged] at h
      rw [hafter] at h hnext
      cases before with
      | nil =>
        obtain ⟨rfl, htail⟩ := List.cons.inj h
        rw [ho, List.cons_append, List.map_cons]
        rcases later_session (s := ⟨(getSessionId e.now e.suffix s).1, e.now⟩) hrest htail with
          ⟨hchain, hsame⟩ | ⟨hbroken, now, suffix, hid, hpast⟩
        · exact iff_of_true hsame.symm hchain
        · refine iff_of_false (fun heq => ?_) hbroken
          obtain ⟨now', suffix', hid', hpast'⟩ := hnext
          have hsame := newSessionId_inj (hid'.symm.trans (heq.trans hid))
          exact absurd (hsame ▸ hpast) (Nat.not_lt.mpr hpast')
      | cons x before =>
        obtain ⟨rfl, htail⟩ := List.cons.inj h
        exact ih hnext hrest htail

end Runs

/-- Two observations are in one session just when each observation between them, and the later of
them, comes within half an hour of the one before it. A tool that is not logged bridges no pause. -/
theorem same_session_iff (parse : JsString → Option Value) {loaded : Nat} {suffix : JsString}
    {events : List ToolEnd} (hclock : (loaded :: events.map (·.now)).Pairwise (· ≤ ·))
    {before between after : List (Nat × Observation)} {a b : Nat × Observation}
    (h : observations parse events (.start loaded suffix) =
      before ++ a :: (between ++ b :: after)) :
    a.2.sessionId = b.2.sessionId ↔ List.IsChain Near ((a :: between ++ [b]).map Prod.fst) :=
  same_session_of_started ⟨loaded, suffix, rfl, Nat.le_refl loaded⟩ hclock h

/-- A tool that ends, and what it was. -/
def readLogs (now : Nat) : ToolEnd :=
  ⟨utf16 "read_logs", [], .returned (some (utf16 "ok")), now, utf16 "k3x9q1"⟩

/-- A pause of 35 minutes, with a call of one of teachd's own tools in it. -/
def pausedAgent : List ToolEnd :=
  [readLogs 1000, { readLogs 1000000 with tool := utf16 "teach_status" }, readLogs 2101000]

theorem pause_cuts_session : ∃ a b : Nat × Observation,
    observations (fun _ => none) pausedAgent (.start 0 []) = [a, b] ∧
      a.2.sessionId ≠ b.2.sessionId := by
  obtain ⟨a, b, hlogged, ha, hb⟩ : ∃ a b : Nat × Observation,
      observations (fun _ => none) pausedAgent (.start 0 []) = [] ++ a :: ([] ++ b :: []) ∧
        a.1 = 1000 ∧ b.1 = 2101000 := ⟨_, _, rfl, rfl, rfl⟩
  refine ⟨a, b, hlogged, fun hsame => ?_⟩
  have hclock : (0 :: pausedAgent.map (·.now)).Pairwise (· ≤ ·) := by decide
  have hchain := (same_session_iff (fun _ => none) hclock hlogged).mp hsame
  have hnear : b.1 - a.1 ≤ sessionTimeoutMs := (List.isChain_cons_cons.mp hchain).1
  rw [ha, hb] at hnear
  exact absurd hnear (by decide)

end OsModa.Bridge
