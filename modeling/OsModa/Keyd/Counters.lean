import OsModa.Base.File
import OsModa.Keyd.Spending

/-!
The daily counters over restarts of keyd, and the file that carries them.

An allowed call is counted in memory and then written to counters.json, and a failure of the
write is ignored. A new process takes the counters from the file if it reads back and is of
the day, and starts from nothing otherwise; and a check whose date is not that of the
counters sets them to nothing as well. So the limits of a day hold as long as neither of the
two forgets sends that were allowed on the date (`limits_survive`).
-/

namespace OsModa.Keyd

open OsModa.Text OsModa.Machine PolicyEngine

/-- keyd's policy engine with its file. -/
structure CountersState where
  engine : PolicyEngine
  /-- What counters.json reads back as. -/
  file : Option DailyCounters

inductive CountersEvent where
  /-- A call of `check_send` at a date of the clock, and how the write of the counters ends. -/
  | send (today : String) (call : SendCall) (write : FileWrite)
  | sign (today : String) (write : FileWrite)
  /-- The process ends and another starts, which reads the clock for the date of the file and,
  if it starts from nothing, once more. -/
  | restart (loadToday newToday : String)

/-- Load counters from disk if the file exists and the date matches today. -/
def DailyCounters.load (today : String) (file : Option DailyCounters) : Option DailyCounters :=
  file.filter (·.date = today)

def DailyCounters.new (today : String) : DailyCounters := ⟨today, fun _ => 0, fun _ => .zero, 0⟩

/-- `PolicyEngine::new` over the policy that the file holds. -/
def PolicyEngine.boot (policy : PolicyFile) (file : Option DailyCounters)
    (loadToday newToday : String) : PolicyEngine :=
  ⟨policy, (DailyCounters.load loadToday file).getD (.new newToday)⟩

namespace CountersState

variable (u : Unicode) (st : CountersState)

def start (policy : PolicyFile) (file : Option DailyCounters) (loadToday newToday : String) :
    CountersState :=
  ⟨.boot policy file loadToday newToday, file⟩

/-- Persist current counters to disk, when a call was allowed. -/
def persist (write : FileWrite) (out : PolicyDecision × PolicyEngine) :
    PolicyDecision × CountersState :=
  match out.1 with
  | .allowed => (.allowed, ⟨out.2, write.leaves out.2.counters st.file⟩)
  | .denied reason => (.denied reason, ⟨out.2, st.file⟩)

end CountersState

abbrev CountersStep := Step CountersState CountersEvent (Option PolicyDecision)

def countersNext (u : Unicode) (e : CountersEvent) (st : CountersState) :
    Option PolicyDecision × CountersState :=
  match e with
  | .send today call write =>
    let out := st.persist write (serveSend u today call st.engine)
    (some out.1, out.2)
  | .sign today write =>
    let out := st.persist write (checkSign st.engine today)
    (some out.1, out.2)
  | .restart loadToday newToday => (none, .start st.engine.policy st.file loadToday newToday)

/-- The send that a step allows, if it does so on the date. -/
def allowedSend (date : String) (t : CountersStep) : Option SendCall :=
  match t.input, t.output with
  | .send today call _, some .allowed => if today = date then some call else none
  | _, _ => none

/-- The sends of a run that were allowed on a date, on chains of a kind. -/
def allowedOnDate (date : String) (onChain : String → Bool) (run : List CountersStep) :
    List SendCall :=
  (run.filterMap (allowedSend date)).filter fun call => onChain call.chain

/-- A rule's limits hold for a date: on each chain that it applies to, and so, for a rule that
names its chain, altogether. -/
structure DayBounded (u : Unicode) (run : List CountersStep) (rule : PolicyRule) (date : String) :
    Prop where
  chain : ∀ chain, AppliesTo rule chain →
    WithinRule u rule (allowedOnDate date (· = chain) run)
  total : rule.chain ≠ none → WithinRule u rule (allowedOnDate date (AppliesTo rule ·) run)

/-! ### What is not to be forgotten -/

/-- A step does not turn the counters from the sends that were allowed on a date: a check
comes on the date of the counters, and a new process finds the counters of the day in the
file, or else no send has been allowed on the date that is turned to. -/
def Remembers (past : List CountersStep) (t : CountersStep) : Prop :=
  match t.input with
  | .send today _ _ | .sign today _ =>
    today = t.before.engine.counters.date ∨ past.filterMap (allowedSend today) = []
  | .restart loadToday newToday =>
    (t.before.file = some t.before.engine.counters ∧ t.before.engine.counters.date = loadToday) ∨
      (past.filterMap (allowedSend loadToday) = [] ∧ past.filterMap (allowedSend newToday) = [])

/-- Every step of a run remembers the sends before it. -/
def Remembering (run : List CountersStep) : Prop :=
  ∀ past t future, run = past ++ t :: future → Remembers past t

/-- What the counters say about the sends of a run, for a rule and a chain that it applies to:
those of their own date are accounted for, and those of other dates are within the rule. -/
structure Counted (u : Unicode) (rule : PolicyRule) (chain : String) (run : List CountersStep)
    (st : CountersState) : Prop where
  rule_mem : rule ∈ st.engine.policy.rules
  today : Accounted u st.engine.counters.date rule chain
    (allowedOnDate st.engine.counters.date (· = chain) run) st.engine
  other : ∀ date, WithinRule u rule (allowedOnDate date (· = chain) run)

section

variable {u : Unicode} {rule : PolicyRule} {chain : String} {run : List CountersStep}
  {st : CountersState} {e : CountersEvent} {date : String}

theorem allowedOnDate_append (date : String) (onChain : String → Bool)
    (run run' : List CountersStep) : allowedOnDate date onChain (run ++ run') =
      allowedOnDate date onChain run ++ allowedOnDate date onChain run' := by
  simp only [allowedOnDate, List.filterMap_append, List.filter_append]

theorem allowedOnDate_of_nil (run : List CountersStep) {onChain : String → Bool}
    (h : run.filterMap (allowedSend date) = []) : allowedOnDate date onChain run = [] := by
  rw [allowedOnDate, h, List.filter_nil]

/-- No send is within every rule. -/
theorem accounted_nil (engine : PolicyEngine) :
    Accounted u engine.counters.date rule chain [] engine :=
  ⟨rfl, by simp, by simp, by simp⟩

/-- What another engine counts in the same way. -/
theorem Accounted.congr {calls : List SendCall} {engine engine' : PolicyEngine} {date : String}
    (h : Accounted u date rule chain calls engine)
    (hdate : engine'.counters.date = engine.counters.date)
    (hcounts : engine'.counters.sendCounts = engine.counters.sendCounts)
    (hamounts : engine'.counters.sendAmounts = engine.counters.sendAmounts) :
    Accounted u date rule chain calls engine' :=
  ⟨hdate.trans h.date, h.destination, by rw [hcounts]; exact h.count,
    by rw [hamounts]; exact h.amount⟩

/-- The counters that a check goes by account for the sends of its date. -/
theorem Counted.reset (h : Counted u rule chain run st) {today : String}
    (hremembers : today = st.engine.counters.date ∨ run.filterMap (allowedSend today) = []) :
    Accounted u today rule chain (allowedOnDate today (· = chain) run)
      { st.engine with counters := st.engine.counters.resetIfNewDay today } := by
  by_cases hsame : today = st.engine.counters.date
  · rw [resetIfNewDay_of_date hsame.symm, hsame]
    exact h.today
  · rw [allowedOnDate_of_nil run (hremembers.resolve_left hsame)]
    have hdate : (st.engine.counters.resetIfNewDay today).date = today := resetIfNewDay_date
    have hnil : Accounted u _ rule chain [] { st.engine with
        counters := st.engine.counters.resetIfNewDay today } := accounted_nil _
    rwa [hdate] at hnil

@[simp] theorem persist_decision (write : FileWrite) (out : PolicyDecision × PolicyEngine) :
    (st.persist write out).1 = out.1 := by
  unfold CountersState.persist
  split <;> simp [*]

@[simp] theorem persist_engine (write : FileWrite) (out : PolicyDecision × PolicyEngine) :
    (st.persist write out).2.engine = out.2 := by
  unfold CountersState.persist
  split <;> rfl

/-- A signature changes none of the counters of sends, but for a new day. -/
theorem checkSign_counters (engine : PolicyEngine) (today : String) :
    (checkSign engine today).2.policy = engine.policy ∧
      (checkSign engine today).2.counters.date = today ∧
      (checkSign engine today).2.counters.sendCounts =
        (engine.counters.resetIfNewDay today).sendCounts ∧
      (checkSign engine today).2.counters.sendAmounts =
        (engine.counters.resetIfNewDay today).sendAmounts := by
  unfold checkSign
  dsimp only
  split <;> exact ⟨rfl, resetIfNewDay_date, rfl, rfl⟩

theorem allowedSend_other {today : String} {call : SendCall} {write : FileWrite}
    (hdate : date ≠ today) :
    allowedSend date (stepOf (countersNext u) (.send today call write) st) = none := by
  unfold allowedSend
  split
  · rename_i hinput _
    obtain ⟨rfl, -, -⟩ := CountersEvent.send.inj hinput
    exact if_neg (Ne.symm hdate)
  · rfl

/-- What a check allows on its date, as a step of the engine. -/
theorem allowedOnDate_send (today : String) (call : SendCall) (write : FileWrite) :
    allowedOnDate today (· = chain) [stepOf (countersNext u) (.send today call write) st] =
      allowedOn (· = chain) [stepOf (serveSend u today) call
        { st.engine with counters := st.engine.counters.resetIfNewDay today }] := by
  have hreset : serveSend u today call
      { st.engine with counters := st.engine.counters.resetIfNewDay today } =
        serveSend u today call st.engine := (checkSend_reset ..).symm
  cases hout : (serveSend u today call st.engine).1 with
  | allowed =>
    by_cases hchain : call.chain = chain <;>
      simp [allowedOnDate, allowedSend, countersNext, allowedOn, hreset, hout, hchain]
  | denied reason =>
    simp [allowedOnDate, allowedSend, countersNext, allowedOn, hreset, hout]

/-- Where no send is allowed, only what the counters account for their date is to be seen. -/
theorem Counted.of_silent (h : Counted u rule chain run st) {st' : CountersState}
    {t : CountersStep} (hsilent : ∀ date, allowedSend date t = none)
    (hpolicy : st'.engine.policy = st.engine.policy)
    (htoday : Accounted u st'.engine.counters.date rule chain
      (allowedOnDate st'.engine.counters.date (· = chain) run) st'.engine) :
    Counted u rule chain (run ++ [t]) st' := by
  have hsame : ∀ date, allowedOnDate date (· = chain) (run ++ [t]) =
      allowedOnDate date (· = chain) run := by
    intro date
    rw [allowedOnDate_append, allowedOnDate_of_nil [t] (by simp [hsilent]),
      List.append_nil]
  exact ⟨hpolicy ▸ h.rule_mem, by rw [hsame]; exact htoday, fun date => by rw [hsame]; exact h.other date⟩

/-- One step that remembers keeps the count of a rule and a chain. -/
theorem counted_step (happlies : AppliesTo rule chain) (h : Counted u rule chain run st)
    (hremembers : Remembers run (stepOf (countersNext u) e st)) :
    Counted u rule chain (run ++ [stepOf (countersNext u) e st]) (countersNext u e st).2 := by
  cases e with
  | send today call write =>
    have hstep := accounted_step call (e := { st.engine with
      counters := st.engine.counters.resetIfNewDay today }) h.rule_mem happlies (h.reset hremembers)
    have hengine : (countersNext u (.send today call write) st).2.engine =
        (serveSend u today call
          { st.engine with counters := st.engine.counters.resetIfNewDay today }).2 := by
      rw [countersNext, persist_engine]
      exact congrArg Prod.snd (checkSend_reset ..)
    rw [← hengine, ← allowedOnDate_send today call write, ← allowedOnDate_append] at hstep
    refine ⟨?_, by rw [hstep.date]; exact hstep, fun date => ?_⟩
    · rw [hengine]
      simpa [serveSend] using h.rule_mem
    · by_cases hdate : date = today
      · rw [hdate]
        exact hstep.withinRule
      · rw [allowedOnDate_append, allowedOnDate_of_nil [_]
          (by simp [allowedSend_other hdate]), List.append_nil]
        exact h.other date
  | sign today write =>
    obtain ⟨hpolicy, hdate, hcounts, hamounts⟩ := checkSign_counters st.engine today
    have hengine : (countersNext u (.sign today write) st).2.engine = (checkSign st.engine today).2 := by
      rw [countersNext, persist_engine]
    refine h.of_silent (fun date => rfl) (by rw [hengine, hpolicy]) ?_
    rw [hengine, hdate]
    exact (h.reset hremembers).congr (hdate.trans resetIfNewDay_date.symm) hcounts hamounts
  | restart loadToday newToday =>
    refine h.of_silent (fun date => rfl) rfl ?_
    have hengine : (countersNext u (.restart loadToday newToday) st).2.engine =
        .boot st.engine.policy st.file loadToday newToday := rfl
    rw [hengine]
    obtain ⟨hfile, hdate⟩ | ⟨hload, hnew⟩ := hremembers
    · -- The file holds what was in memory.
      rw [stepOf_before] at hfile hdate
      have hboot : PolicyEngine.boot st.engine.policy st.file loadToday newToday = st.engine := by
        rw [PolicyEngine.boot, hfile, DailyCounters.load, Option.filter_some,
          if_pos (by simpa using hdate), Option.getD_some]
      rw [hboot]
      exact h.today
    · have hboot : run.filterMap (allowedSend (PolicyEngine.boot st.engine.policy st.file loadToday
          newToday).counters.date) = [] := by
        rw [PolicyEngine.boot]
        cases hfile : DailyCounters.load loadToday st.file with
        | none => exact hnew
        | some c =>
          have hdate : c.date = loadToday := by
            simpa using (Option.filter_eq_some_iff.mp hfile).2
          rw [Option.getD_some, hdate]
          exact hload
      rw [allowedOnDate_of_nil run hboot]
      exact accounted_nil _

/-- Of a rule that names its chain, the calls it applies to are those on the chain. -/
theorem appliesTo_iff_of_chain {named other : String} (hchain : rule.chain = some named)
    (haction : rule.action = "send") : AppliesTo rule other ↔ other = named := by
  simp [AppliesTo, hchain, haction, eq_comm]

end

/-- **The limits of a day survive the process.** In every run of keyd whose steps remember the
sends before them, every send rule bounds every date: each chain that it applies to, and, if
it names its chain, all that it applies to. -/
theorem limits_survive (u : Unicode) (policy : PolicyFile) (file : Option DailyCounters)
    (loadToday newToday : String) (events : List CountersEvent)
    (h : Remembering (trace (countersNext u) events (.start policy file loadToday newToday))) :
    ∀ rule ∈ policy.rules, rule.action = "send" → ∀ date,
      DayBounded u (trace (countersNext u) events (.start policy file loadToday newToday)) rule
        date := by
  intro rule hrule haction date
  have hchain : ∀ chain, AppliesTo rule chain → WithinRule u rule (allowedOnDate date (· = chain)
      (trace (countersNext u) events (.start policy file loadToday newToday))) := by
    intro chain happlies
    have hstart : Counted u rule chain [] (.start policy file loadToday newToday) :=
      ⟨hrule, accounted_nil _, fun _ => ⟨by simp [allowedOnDate], by simp [allowedOnDate],
        by simp [allowedOnDate]⟩⟩
    exact (history_invariant_of (h := []) (R := Counted u rule chain)
      (fun _ _ _ hcounted hremembers => counted_step happlies hcounted hremembers) events hstart
      h).other date
  refine ⟨hchain, fun hnamed => ?_⟩
  obtain ⟨named, hnamed⟩ := Option.ne_none_iff_exists'.mp hnamed
  have honChain : (fun chain => decide (AppliesTo rule chain)) = fun chain => decide (chain = named) :=
    funext fun other => decide_eq_decide.mpr (appliesTo_iff_of_chain hnamed haction)
  rw [honChain]
  exact hchain named ((appliesTo_iff_of_chain hnamed haction).mpr rfl)

/-! ### One coin a day -/

def today : String := "2026-01-01"

def oneCoinCall : SendCall := ⟨"ethereum", "1.0", "0xa"⟩

/-- The daemon restarts after the day's coin, and is asked for another. -/
def restartedRun (write : FileWrite) : List CountersEvent :=
  [.send today oneCoinCall write, .restart today today, .send today oneCoinCall write]

abbrev restarted (write : FileWrite) : List CountersStep :=
  trace (countersNext Unicode.ascii) (restartedRun write) (.start .default none today today)

def ethereumRule : PolicyRule := ⟨"send", some "1.0", none, some "ethereum", some 10⟩

/-- The counters were written. -/
theorem restarted_bounded : DayBounded Unicode.ascii (restarted .written) ethereumRule today := by
  refine limits_survive Unicode.ascii .default none today today (restartedRun .written) ?_
    ethereumRule (by decide) rfl today
  intro past t future hsplit
  obtain _ | ⟨sent, _ | ⟨turned, _ | ⟨refused, past⟩⟩⟩ := past <;>
    simp only [restartedRun, trace_cons, trace_nil, List.nil_append, List.cons_append,
      List.cons.injEq] at hsplit
  · obtain ⟨rfl, -⟩ := hsplit
    exact .inl rfl
  · obtain ⟨rfl, rfl, -⟩ := hsplit
    exact .inl ⟨rfl, rfl⟩
  · obtain ⟨rfl, rfl, rfl, -⟩ := hsplit
    exact .inl rfl
  · simp at hsplit

/-- The write was torn, so two coins are sent on a day that allows one. -/
theorem torn_not_bounded :
    ¬ DayBounded Unicode.ascii (restarted .torn) ethereumRule today := by
  intro h
  have hamount := (h.chain "ethereum" (by decide)).amount ⟨10 ^ 18, by decide⟩ (by decide +kernel)
  revert hamount
  decide +kernel

end OsModa.Keyd
