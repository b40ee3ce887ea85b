import OsModa.Gateway.Spend
import Mathlib.Algebra.BigOperators.Group.List.Basic
import Mathlib.Tactic.Linarith
import Mathlib.Tactic.Ring

/-!
The spend meter against the history of its calls.

The history of a run says what an agent was charged on a UTC day: a sum over the
`record` calls. The meter knows one bucket per agent, reset lazily, persisted and
reloaded. The two agree in every run in which the calls carry non-decreasing times of
years with four digits, and no agent is called `__proto__` (`spendMeter_refines`).
-/

namespace OsModa.Gateway

open OsModa.Js OsModa.Machine

abbrev SpendStep := Step SpendMeter SpendCall SpendReply

/-! ### What the history says -/

section History

variable (table : List (String × Price)) (caps : Caps)

/-- Tokens that a call charges to an agent on a day. -/
def tokensCharged (a : AgentId) (d : Int) : SpendCall → ℚ
  | .record id _ usage now _ =>
    if id = a ∧ now.day = d then
      max 0 (usage.inputTokens.getD 0) + max 0 (usage.outputTokens.getD 0)
    else 0
  | .check .. => 0
  | .restart => 0

/-- USD that a call charges to an agent on a day. -/
def usdCharged (a : AgentId) (d : Int) : SpendCall → ℚ
  | .record id model usage now _ =>
    if id = a ∧ now.day = d then max 0 (estimateCostUsd model usage table) else 0
  | .check .. => 0
  | .restart => 0

/-- The alerts that a step fires for an agent on a day. -/
def alertsFired (a : AgentId) (d : Int) (step : SpendStep) : List AlertLevel :=
  match step.input, step.output with
  | .record _ _ _ _ checkedAt, .recorded alerts =>
    if checkedAt.day = d then (alerts.filter (·.agentId = a)).map (·.level) else []
  | _, _ => []

def tokensOn (a : AgentId) (d : Int) (h : List SpendStep) : ℚ :=
  (h.map fun step => tokensCharged a d step.input).sum

def usdOn (a : AgentId) (d : Int) (h : List SpendStep) : ℚ :=
  (h.map fun step => usdCharged table a d step.input).sum

def alertsOn (a : AgentId) (d : Int) (h : List SpendStep) : List AlertLevel :=
  h.flatMap (alertsFired a d)

/-- The agent's charges of the day have reached a share of one of its positive caps. -/
def Reaches (share : ℚ) (a : AgentId) (d : Int) (h : List SpendStep) : Prop :=
  (∃ cap, (caps a).1 = some cap ∧ 0 < cap ∧ share * cap ≤ tokensOn a d h) ∨
    ∃ cap, (caps a).2 = some cap ∧ 0 < cap ∧ share * cap ≤ usdOn table a d h

/-- A step does what the history before it asks for: a check refuses exactly an agent
that has reached a cap; each alert is fired at most once per agent and day, the warning
not after the halt; after a record at four fifths of a cap, one has been fired. -/
structure Refines (past : List SpendStep) (step : SpendStep) : Prop where
  check : ∀ a model now result, step.input = .check a model now → step.output = .checked result →
    (result.allowed = false ↔ Reaches table caps 1 a now.day past)
  alerts_once : ∀ a d, (alertsOn a d (past ++ [step])).Sublist [.warn, .halt]
  alert_fired : ∀ a model usage now checkedAt, step.input = .record a model usage now checkedAt →
    Reaches table caps (4 / 5) a checkedAt.day (past ++ [step]) →
    alertsOn a checkedAt.day (past ++ [step]) ≠ []

end History

/-! ### The condition on a run -/

/-- The clock readings of a call. -/
def SpendCall.readings : SpendCall → List Instant
  | .record _ _ _ now checkedAt => [now, checkedAt]
  | .check _ _ now => [now]
  | .restart => []

def NonDecreasing (calls : List SpendCall) : Prop :=
  (calls.flatMap SpendCall.readings).Pairwise (· ≤ ·)

/-- The clock is in a year of four digits, and usage is not recorded for an agent that
an object cannot hold under its name. -/
def SpendCall.Ordinary (call : SpendCall) : Prop :=
  (∀ t ∈ call.readings, t.FourDigitYear) ∧
    ∀ id model usage now checkedAt, call = .record id model usage now checkedAt →
      id ≠ utf16 "__proto__"

/-! ### Buckets and caps -/

section Buckets

variable {agent : AgentProfile} {b : DayBucket}

theorem checkBucket_allowed_iff : (SpendMeter.checkBucket agent b).allowed = false ↔
    (∃ cap, agent.dailyTokenCap = some cap ∧ 0 < cap ∧ cap ≤ b.inputTokens + b.outputTokens) ∨
      ∃ cap, agent.dailyUsdCap = some cap ∧ 0 < cap ∧ cap ≤ b.costUsd := by
  simp only [SpendMeter.checkBucket, Bool.not_eq_false', Bool.or_eq_true, Option.isSome_iff_exists,
    Option.filter_eq_some_iff, decide_eq_true_eq]
  simp only [and_assoc]

theorem le_capShare_iff {share used : ℚ} (hshare : 0 < share) (cap : Option ℚ) :
    share ≤ (cap.filter (0 < ·)).elim 0 (used / ·) ↔
      ∃ c, cap = some c ∧ 0 < c ∧ share * c ≤ used := by
  cases cap with
  | none => simpa using hshare
  | some c =>
    by_cases hc : 0 < c
    · simp [Option.filter, hc, le_div_iff₀ hc]
    · simp [Option.filter, hc, hshare]

/-- A positive share is at most the reported utilisation exactly when one of the caps
is used that far. -/
theorem le_pct_iff {share : ℚ} (hshare : 0 < share) :
    share ≤ (SpendMeter.checkBucket agent b).pct ↔
      (∃ c, agent.dailyTokenCap = some c ∧ 0 < c ∧ share * c ≤ b.inputTokens + b.outputTokens) ∨
        ∃ c, agent.dailyUsdCap = some c ∧ 0 < c ∧ share * c ≤ b.costUsd := by
  rw [SpendMeter.checkBucket, le_max_iff, le_capShare_iff hshare, le_capShare_iff hshare]

end Buckets

/-! ### Alert flags -/

/-- The flags of a bucket, and the alerts that were fired for it. -/
inductive Fired : Alerted → List AlertLevel → Prop where
  | none : Fired ⟨false, false⟩ []
  | warn : Fired ⟨true, false⟩ [.warn]
  | halt : Fired ⟨true, true⟩ [.halt]
  | both : Fired ⟨true, true⟩ [.warn, .halt]

theorem Fired.sublist {flags : Alerted} {levels : List AlertLevel} (h : Fired flags levels) :
    levels.Sublist [.warn, .halt] := by
  cases h <;> decide

/-- The flags follow the alert that a utilisation calls for. -/
theorem Fired.alertFor {flags : Alerted} {levels : List AlertLevel} (h : Fired flags levels)
    (pct : ℚ) :
    Fired (SpendMeter.alertFor pct flags).2 (levels ++ (SpendMeter.alertFor pct flags).1.toList) := by
  unfold SpendMeter.alertFor
  cases h <;> split_ifs with hhalt hwarn <;> simp_all <;> constructor

theorem Fired.ne_nil {pct : ℚ} (hpct : 4 / 5 ≤ pct) {flags : Alerted} {levels : List AlertLevel}
    (h : Fired (SpendMeter.alertFor pct flags).2 levels) : levels ≠ [] := by
  have hwarn : (SpendMeter.alertFor pct flags).2.warn = true := by
    unfold SpendMeter.alertFor
    split_ifs with hhalt hwarn
    · rfl
    · rfl
    · simpa [hpct] using hwarn
  rintro rfl
  generalize (SpendMeter.alertFor pct flags).2 = after at h hwarn
  cases h
  cases hwarn

/-! ### The simulation -/

section Simulation

variable {table : List (String × Price)} {caps : Caps}

/-- A step that charges nothing to an agent on a day, and fires no alert for it. -/
structure Silent (table : List (String × Price)) (a : AgentId) (d : Int) (step : SpendStep) :
    Prop where
  tokens : tokensCharged a d step.input = 0
  usd : usdCharged table a d step.input = 0
  alerts : alertsFired a d step = []

/-- A bucket agrees with the history of an agent's day. -/
structure Agrees (table : List (String × Price)) (h : List SpendStep) (a : AgentId) (d : Int)
    (b : DayBucket) : Prop where
  tokens : b.inputTokens + b.outputTokens = tokensOn a d h
  usd : b.costUsd = usdOn table a d h
  alerts : Fired b.alerted (alertsOn a d h)

/-- From the last clock reading on, the bucket in the map and the one in the file agree
with the history. -/
structure Sim (table : List (String × Price)) (h : List SpendStep) (m : SpendMeter) : Prop where
  agrees : ∀ (a : AgentId) (t : Instant), t.FourDigitYear →
    (∀ step ∈ h, ∀ r ∈ step.input.readings, r ≤ t) →
    Agrees table h a t.day (m.buckets.current a t) ∧ Agrees table h a t.day (m.file.current a t)
  file_proto : m.file.find? (utf16 "__proto__") = none

theorem silent_of_other_day {a : AgentId} {d : Int} {step : SpendStep}
    (h : ∀ r ∈ step.input.readings, r.day ≠ d) : Silent table a d step := by
  obtain ⟨before, call, reply, after⟩ := step
  cases call with
  | record id model usage now checkedAt =>
    have hnow : now.day ≠ d := h now (by simp [SpendCall.readings])
    have hchecked : checkedAt.day ≠ d := h checkedAt (by simp [SpendCall.readings])
    constructor
    · simp [tokensCharged, hnow]
    · simp [usdCharged, hnow]
    · cases reply <;> simp [alertsFired, hchecked]
  | check id model now => exact ⟨rfl, rfl, rfl⟩
  | restart => exact ⟨rfl, rfl, rfl⟩

theorem silent_of_not_record {a : AgentId} {d : Int} {step : SpendStep}
    (h : ∀ id model usage now checkedAt, step.input ≠ .record id model usage now checkedAt) :
    Silent table a d step := by
  obtain ⟨before, call, reply, after⟩ := step
  cases call with
  | record id model usage now checkedAt => exact absurd rfl (h id model usage now checkedAt)
  | check id model now => exact ⟨rfl, rfl, rfl⟩
  | restart => exact ⟨rfl, rfl, rfl⟩

/-- A `record` is silent for the other agents. -/
theorem silent_of_other_agent {a id : AgentId} {d : Int} {model : JsString} {usage : SpendUsage}
    {now checkedAt : Instant} {m : SpendMeter} (h : id ≠ a) :
    Silent table a d (stepOf (spendCall table caps) (.record id model usage now checkedAt) m) := by
  constructor
  · simp [tokensCharged, h]
  · simp [usdCharged, h]
  · simp only [alertsFired, stepOf, spendCall]
    split
    · rw [List.map_eq_nil_iff, List.filter_eq_nil_iff]
      intro alert halert
      rw [record_agentId m _ usage now checkedAt alert halert]
      exact fun hself => h (of_decide_eq_true hself)
    · rfl

theorem agrees_new {h : List SpendStep} {a : AgentId} {d : Int} (now : Instant)
    (hsilent : ∀ step ∈ h, Silent table a d step) : Agrees table h a d (.new now) := by
  have hnew : DayBucket.new now = ⟨now.isoDay, 0, 0, 0, ⟨false, false⟩⟩ := by
    simp only [DayBucket.new]
  rw [hnew]
  constructor
  · rw [tokensOn, List.map_congr_left fun step hstep => (hsilent step hstep).tokens]
    simp
  · rw [usdOn, List.map_congr_left fun step hstep => (hsilent step hstep).usd]
    simp
  · have hnone : alertsOn a d h = [] :=
      List.flatMap_eq_nil_iff.mpr fun step hstep => (hsilent step hstep).alerts
    rw [hnone]
    exact .none

/-- Nothing happened on a day after all readings. -/
theorem agrees_later {h : List SpendStep} {a : AgentId} {t : Instant}
    (hlater : ∀ step ∈ h, ∀ r ∈ step.input.readings, r.day < t.day) :
    Agrees table h a t.day (.new t) :=
  agrees_new t fun step hstep => silent_of_other_day fun r hr => ne_of_lt (hlater step hstep r hr)

theorem Agrees.append_silent {h : List SpendStep} {a : AgentId} {d : Int} {b : DayBucket}
    {step : SpendStep} (hagrees : Agrees table h a d b) (hsilent : Silent table a d step) :
    Agrees table (h ++ [step]) a d b := by
  constructor
  · simpa [tokensOn, hsilent.tokens] using hagrees.tokens
  · simpa [usdOn, hsilent.usd] using hagrees.usd
  · simpa [alertsOn, hsilent.alerts] using hagrees.alerts

/-- A `record` within one day adds its charges and alert to both. -/
theorem Agrees.append_record {h : List SpendStep} {id : AgentId} {model : JsString}
    {usage : SpendUsage} {now checkedAt : Instant} {m : SpendMeter}
    (hagrees : Agrees table h id now.day (m.buckets.current id now))
    (hiso : now.isoDay = checkedAt.isoDay) (hday : now.day = checkedAt.day) :
    Agrees table
      (h ++ [stepOf (spendCall table caps) (.record id model usage now checkedAt) m]) id now.day
      (recordedBucket m (caps.profile id model) usage now checkedAt table) := by
  have hb : recordedBucket m (caps.profile id model) usage now checkedAt table =
      { chargedBucket m (caps.profile id model) usage now table with
        alerted := (recordAlert m (caps.profile id model) usage now table).2 } := if_pos hiso
  have hfired : alertsFired id now.day
      (stepOf (spendCall table caps) (.record id model usage now checkedAt) m) =
      (recordAlert m (caps.profile id model) usage now table).1.toList := by
    have hall : ∀ alert ∈ (m.record table (caps.profile id model) usage now checkedAt).1,
        decide (alert.agentId = id) = true := by
      intro alert halert
      rw [record_agentId m _ usage now checkedAt alert halert]
      simp [Caps.profile]
    simp only [alertsFired, stepOf, spendCall, if_pos hday.symm]
    rw [List.filter_eq_self.mpr hall, record_alerts, if_pos hiso]
  rw [hb]
  constructor
  · simp only [chargedBucket, SpendMeter.addUsage, tokensOn, List.map_append, List.sum_append]
    have htokens := hagrees.tokens
    rw [tokensOn] at htokens
    rw [← htokens]
    simp [tokensCharged, Caps.profile]
    ring
  · simp only [chargedBucket, SpendMeter.addUsage, usdOn, List.map_append, List.sum_append]
    have husd := hagrees.usd
    rw [usdOn] at husd
    rw [← husd]
    simp [usdCharged, Caps.profile]
  · have halerts := hagrees.alerts.alertFor
      (SpendMeter.checkBucket (caps.profile id model)
        (chargedBucket m (caps.profile id model) usage now table)).pct
    rw [alertsOn, List.flatMap_append, List.flatMap_singleton, hfired]
    exact halerts

/-- The calls of a history meet the condition. -/
structure Fair (h : List SpendStep) : Prop where
  nonDecreasing : NonDecreasing (h.map Step.input)
  ordinary : ∀ step ∈ h, step.input.Ordinary

theorem Fair.init {h : List SpendStep} {step : SpendStep} (hfair : Fair (h ++ [step])) : Fair h := by
  constructor
  · have hnd := hfair.nonDecreasing
    rw [NonDecreasing, List.map_append, List.flatMap_append] at hnd
    exact (List.pairwise_append.mp hnd).1
  · intro s hs
    exact hfair.ordinary s (List.mem_append_left _ hs)

/-- The readings of the last call come after all others. -/
theorem Fair.le_last {h : List SpendStep} {step : SpendStep} (hfair : Fair (h ++ [step]))
    {s : SpendStep} (hs : s ∈ h) {r r' : Instant} (hr : r ∈ s.input.readings)
    (hr' : r' ∈ step.input.readings) : r ≤ r' := by
  have hnd := hfair.nonDecreasing
  rw [NonDecreasing, List.map_append, List.flatMap_append] at hnd
  refine (List.pairwise_append.mp hnd).2.2 r ?_ r' ?_
  · exact List.mem_flatMap.mpr ⟨s.input, List.mem_map_of_mem hs, hr⟩
  · simpa using hr'

theorem Fair.last_sorted {h : List SpendStep} {step : SpendStep} (hfair : Fair (h ++ [step])) :
    step.input.readings.Pairwise (· ≤ ·) := by
  have hnd := hfair.nonDecreasing
  rw [NonDecreasing, List.map_append, List.flatMap_append] at hnd
  simpa using (List.pairwise_append.mp hnd).2.1

theorem Fair.last_ordinary {h : List SpendStep} {step : SpendStep} (hfair : Fair (h ++ [step])) :
    step.input.Ordinary :=
  hfair.ordinary step (by simp)

/-- After a check the agent's bucket is current; that changes nothing for later days. -/
theorem sim_check {id : AgentId} {model : JsString} {now : Instant} {h : List SpendStep}
    {m : SpendMeter} (hsim : Sim table h m)
    (hfair : Fair (h ++ [stepOf (spendCall table caps) (.check id model now) m])) :
    Sim table (h ++ [stepOf (spendCall table caps) (.check id model now) m])
      (spendCall table caps (.check id model now) m).2 := by
  have hsilent : ∀ a d, Silent table a d
      (stepOf (spendCall table caps) (.check id model now) m) := by
    intro a d
    exact silent_of_not_record (by simp)
  refine ⟨fun a t ht hlast => ?_, hsim.file_proto⟩
  have hpast : ∀ step ∈ h, ∀ r ∈ step.input.readings, r ≤ t := fun step hstep =>
    hlast step (List.mem_append_left _ hstep)
  have hnow : now ≤ t :=
    hlast _ (List.mem_append_right _ (List.mem_singleton_self _)) now (List.mem_singleton_self now)
  obtain ⟨hbuckets, hfile⟩ := hsim.agrees a t ht hpast
  refine ⟨?_, hfile.append_silent (hsilent a t.day)⟩
  change Agrees table _ a t.day ((m.check (caps.profile id model) now).2.buckets.current a t)
  rw [current_check]
  split
  · rename_i hself
    obtain rfl : id = a := hself
    by_cases hday : now.day = t.day
    · -- The same day: the bucket was current already.
      have hnowFour : now.FourDigitYear := hfair.last_ordinary.1 now (by simp [SpendCall.readings])
      have hiso : now.isoDay = t.isoDay := (Instant.isoDay_eq_iff hnowFour ht).mpr hday
      have hnowPast : ∀ step ∈ h, ∀ r ∈ step.input.readings, r ≤ now := by
        intro step hstep r hr
        exact hfair.le_last hstep hr (by simp [SpendCall.readings])
      have hcurrent := (hsim.agrees id now hnowFour hnowPast).1
      rw [hday] at hcurrent
      rw [DayBucket.onDay_of_eq (by rw [← hiso]; exact Buckets.current_day m.buckets id now)]
      exact hcurrent.append_silent (hsilent id t.day)
    · -- A later day: nothing happened on it.
      have hlater : now.day < t.day := lt_of_le_of_ne (Instant.day_mono hnow) hday
      have hother : now.isoDay ≠ t.isoDay := fun hiso => hday ((Instant.isoDay_eq_iff
        (hfair.last_ordinary.1 now (by simp [SpendCall.readings])) ht).mp hiso)
      rw [DayBucket.onDay_of_ne (by
        rw [show (caps.profile id model).id = id from rfl, Buckets.current_day]
        exact hother)]
      refine agrees_later ?_
      intro step hstep r hr
      obtain hstep | hstep := List.mem_append.mp hstep
      · exact lt_of_le_of_lt (Instant.day_mono (hfair.le_last hstep hr (List.mem_singleton_self now)))
          hlater
      · obtain rfl := List.mem_singleton.mp hstep
        obtain rfl : r = now := List.mem_singleton.mp hr
        exact hlater
  · exact hbuckets.append_silent (hsilent a t.day)

/-- A restart replaces the map by the file. -/
theorem sim_restart {h : List SpendStep} {m : SpendMeter} (hsim : Sim table h m) :
    Sim table (h ++ [stepOf (spendCall table caps) .restart m])
      (spendCall table caps .restart m).2 := by
  refine ⟨fun a t ht hlast => ?_, hsim.file_proto⟩
  have hfile := (hsim.agrees a t ht fun step hstep => hlast step (List.mem_append_left _ hstep)).2
  have hsilent : Silent table a t.day (stepOf (spendCall table caps) .restart m) :=
    silent_of_not_record (by simp)
  exact ⟨hfile.append_silent hsilent, hfile.append_silent hsilent⟩

/-- The bucket after a record, as later calls find it. -/
theorem agrees_recorded (id : AgentId) (model : JsString) (usage : SpendUsage)
    {now checkedAt t : Instant} {h : List SpendStep} {m : SpendMeter} (hsim : Sim table h m)
    (hnow : now.FourDigitYear) (hchecked : checkedAt.FourDigitYear) (ht : t.FourDigitYear)
    (hpast : ∀ step ∈ h, ∀ r ∈ step.input.readings, r ≤ now) (hordered : now ≤ checkedAt)
    (hlast : checkedAt ≤ t) :
    Agrees table (h ++ [stepOf (spendCall table caps) (.record id model usage now checkedAt) m]) id
      t.day ((recordedBucket m (caps.profile id model) usage now checkedAt table).onDay t) := by
  have hbefore : ∀ step ∈ h, ∀ r ∈ step.input.readings, r.day ≤ now.day := fun step hstep r hr =>
    Instant.day_mono (hpast step hstep r hr)
  have hdays : now.day ≤ checkedAt.day := Instant.day_mono hordered
  have hdays' : checkedAt.day ≤ t.day := Instant.day_mono hlast
  by_cases hiso : now.isoDay = checkedAt.isoDay
  · have hday : now.day = checkedAt.day := (Instant.isoDay_eq_iff hnow hchecked).mp hiso
    have hbucket : (recordedBucket m (caps.profile id model) usage now checkedAt table).day =
        now.isoDay := by
      rw [recordedBucket, if_pos hiso]
      exact chargedBucket_day m (caps.profile id model) usage now table
    by_cases hsame : now.day = t.day
    · rw [DayBucket.onDay_of_eq (hbucket.trans ((Instant.isoDay_eq_iff hnow ht).mpr hsame)), ← hsame]
      exact (hsim.agrees id now hnow hpast).1.append_record hiso hday
    · rw [DayBucket.onDay_of_ne (by
        rw [hbucket]
        exact fun heq => hsame ((Instant.isoDay_eq_iff hnow ht).mp heq))]
      refine agrees_later ?_
      intro step hstep r hr
      obtain hstep | hstep := List.mem_append.mp hstep
      · have := hbefore step hstep r hr
        omega
      · obtain rfl := List.mem_singleton.mp hstep
        obtain rfl | rfl : r = now ∨ r = checkedAt := by simpa [SpendCall.readings] using hr
        · omega
        · omega
  · -- The day changed within the call: its charges are for the day before.
    have hday : now.day ≠ checkedAt.day := fun heq => hiso ((Instant.isoDay_eq_iff hnow hchecked).mpr heq)
    rw [recordedBucket, if_neg hiso, DayBucket.new_onDay]
    refine agrees_new t ?_
    intro step hstep
    obtain hstep | hstep := List.mem_append.mp hstep
    · refine silent_of_other_day ?_
      intro r hr
      have := hbefore step hstep r hr
      omega
    · obtain rfl := List.mem_singleton.mp hstep
      have hnever : now.day ≠ t.day := by omega
      constructor
      · simp [tokensCharged, hnever]
      · simp [usdCharged, hnever]
      · have hnone : (m.record table (caps.profile id model) usage now checkedAt).1 = [] := by
          rw [← List.map_eq_nil_iff (f := (·.level)), record_alerts, if_neg hiso]
        simp [alertsFired, stepOf, spendCall, hnone]

/-- After a record the agent's bucket holds its charges, and the file all buckets. -/
theorem sim_record {id : AgentId} {model : JsString} {usage : SpendUsage} {now checkedAt : Instant}
    {h : List SpendStep} {m : SpendMeter} (hsim : Sim table h m)
    (hfair : Fair (h ++ [stepOf (spendCall table caps) (.record id model usage now checkedAt) m])) :
    Sim table (h ++ [stepOf (spendCall table caps) (.record id model usage now checkedAt) m])
      (spendCall table caps (.record id model usage now checkedAt) m).2 := by
  obtain ⟨hfour, hname⟩ := hfair.last_ordinary
  have hnowFour : now.FourDigitYear := hfour now (by simp [SpendCall.readings])
  have hcheckedFour : checkedAt.FourDigitYear := hfour checkedAt (by simp [SpendCall.readings])
  have hid : id ≠ utf16 "__proto__" := hname id model usage now checkedAt rfl
  have hordered : now ≤ checkedAt := by simpa [SpendCall.readings] using hfair.last_sorted
  have hnowPast : ∀ step ∈ h, ∀ r ∈ step.input.readings, r ≤ now := by
    intro step hstep r hr
    exact hfair.le_last hstep hr (by simp [SpendCall.readings])
  -- The map after the call, at any later reading.
  have hmap : ∀ (a : AgentId) (t : Instant), t.FourDigitYear → checkedAt ≤ t →
      Agrees table (h ++ [stepOf (spendCall table caps) (.record id model usage now checkedAt) m])
        a t.day ((spendCall table caps (.record id model usage now checkedAt) m).2.buckets.current a
          t) := by
    intro a t ht hchecked
    change Agrees table _ a t.day
      ((m.record table (caps.profile id model) usage now checkedAt).2.buckets.current a t)
    rw [current_record]
    split
    · rename_i hself
      obtain rfl : id = a := hself
      exact agrees_recorded id model usage hsim hnowFour hcheckedFour ht hnowPast hordered hchecked
    · rename_i hother
      have hpast : ∀ step ∈ h, ∀ r ∈ step.input.readings, r ≤ t := fun step hstep r hr =>
        Int.le_trans (hnowPast step hstep r hr) (Int.le_trans hordered hchecked)
      exact (hsim.agrees a t ht hpast).1.append_silent (silent_of_other_agent hother)
  refine ⟨fun a t ht hlast => ?_, ?_⟩
  · have hchecked : checkedAt ≤ t := hlast _ (List.mem_append_right _ (List.mem_singleton_self _))
      checkedAt (by simp [SpendCall.readings, stepOf])
    refine ⟨hmap a t ht hchecked, ?_⟩
    have hcurrent : (spendCall table caps (.record id model usage now checkedAt) m).2.file.current a t =
        if utf16 "__proto__" = a then .new t else
          (spendCall table caps (.record id model usage now checkedAt) m).2.buckets.current a t :=
      Buckets.current_erase _ _ _ _
    rw [hcurrent]
    split
    · rename_i hproto
      subst hproto
      have hfile := (hsim.agrees (utf16 "__proto__") t ht fun step hstep =>
        hlast step (List.mem_append_left _ hstep)).2
      unfold Buckets.current at hfile
      rw [hsim.file_proto] at hfile
      exact hfile.append_silent (silent_of_other_agent hid)
    · exact hmap a t ht hchecked
  · change Table.find? (Table.erase _ _) _ = none
    rw [Table.find?_erase, if_pos rfl]

theorem sim_new : Sim table [] .new := by
  refine ⟨fun a t _ _ => ?_, rfl⟩
  have hempty : Agrees table [] a t.day (.new t) := agrees_new t (by simp)
  exact ⟨hempty, hempty⟩

/-- Each call keeps the agreement. -/
theorem sim_step (call : SpendCall) (h : List SpendStep) (m : SpendMeter)
    (hsim : Fair h → Sim table h m) (hfair : Fair (h ++ [stepOf (spendCall table caps) call m])) :
    Sim table (h ++ [stepOf (spendCall table caps) call m]) (spendCall table caps call m).2 := by
  cases call with
  | record id model usage now checkedAt => exact sim_record (hsim hfair.init) hfair
  | check id model now => exact sim_check (hsim hfair.init) hfair
  | restart => exact sim_restart (hsim hfair.init)

/-- Alerts are fired for the day of the second reading only, and there they follow the
flags of the bucket. -/
theorem alerts_once_step (call : SpendCall) (h : List SpendStep) (m : SpendMeter)
    (hsim : Sim table (h ++ [stepOf (spendCall table caps) call m]) (spendCall table caps call m).2)
    (hfair : Fair (h ++ [stepOf (spendCall table caps) call m]))
    (honce : ∀ a d, (alertsOn a d h).Sublist [.warn, .halt]) (a : AgentId) (d : Int) :
    (alertsOn a d (h ++ [stepOf (spendCall table caps) call m])).Sublist [.warn, .halt] := by
  have hkept : alertsFired a d (stepOf (spendCall table caps) call m) = [] →
      (alertsOn a d (h ++ [stepOf (spendCall table caps) call m])).Sublist [.warn, .halt] := by
    intro hnone
    rw [alertsOn, List.flatMap_append, List.flatMap_singleton, hnone, List.append_nil]
    exact honce a d
  cases call with
  | check id model now => exact hkept rfl
  | restart => exact hkept rfl
  | record id model usage now checkedAt =>
    by_cases hday : checkedAt.day = d
    · have hfour : checkedAt.FourDigitYear :=
        hfair.last_ordinary.1 checkedAt (by simp [SpendCall.readings])
      have hsorted : now ≤ checkedAt := by simpa [SpendCall.readings] using hfair.last_sorted
      have hlast : ∀ step ∈ h ++ [stepOf (spendCall table caps)
          (.record id model usage now checkedAt) m], ∀ r ∈ step.input.readings, r ≤ checkedAt := by
        intro step hstep r hr
        obtain hstep | hstep := List.mem_append.mp hstep
        · exact hfair.le_last hstep hr (by simp [SpendCall.readings])
        · obtain rfl := List.mem_singleton.mp hstep
          obtain rfl | rfl : r = now ∨ r = checkedAt := by simpa [SpendCall.readings] using hr
          · exact hsorted
          · exact Int.le_refl _
      subst hday
      exact (hsim.agrees a checkedAt hfour hlast).1.alerts.sublist
    · refine hkept ?_
      simp [alertsFired, stepOf, spendCall, hday]

/-! ### What a check and a record report -/

/-- A check of a bucket that agrees with the history. -/
theorem check_refines {h : List SpendStep} {a : AgentId} {model : JsString} {now : Instant}
    {m : SpendMeter} (hagrees : Agrees table h a now.day (m.buckets.current a now)) :
    (m.check (caps.profile a model) now).1.allowed = false ↔ Reaches table caps 1 a now.day h := by
  unfold SpendMeter.check Reaches
  rw [bucket_fst, checkBucket_allowed_iff]
  simp only [Caps.profile, one_mul, hagrees.tokens, hagrees.usd]

/-- The utilisation after a record within one day. -/
theorem pct_refines {h : List SpendStep} {a : AgentId} {model : JsString} {d : Int} {b : DayBucket}
    (hagrees : Agrees table h a d b) {share : ℚ} (hshare : 0 < share) :
    share ≤ (SpendMeter.checkBucket (caps.profile a model) b).pct ↔
      Reaches table caps share a d h := by
  rw [le_pct_iff hshare, Reaches]
  simp only [Caps.profile, hagrees.tokens, hagrees.usd]

/-- After a record with the charges of the day at four fifths of a cap, an alert of the
day has been fired. -/
theorem alert_fired_of_record {h : List SpendStep} {id : AgentId} {model : JsString}
    {usage : SpendUsage} {now checkedAt : Instant} {m : SpendMeter} (hsim : Sim table h m)
    (hfair : Fair (h ++ [stepOf (spendCall table caps) (.record id model usage now checkedAt) m]))
    (hreaches : Reaches table caps (4 / 5) id checkedAt.day
      (h ++ [stepOf (spendCall table caps) (.record id model usage now checkedAt) m])) :
    alertsOn id checkedAt.day
      (h ++ [stepOf (spendCall table caps) (.record id model usage now checkedAt) m]) ≠ [] := by
  have hfour := hfair.last_ordinary.1
  have hnow : now.FourDigitYear := hfour now (by simp [SpendCall.readings])
  have hchecked : checkedAt.FourDigitYear := hfour checkedAt (by simp [SpendCall.readings])
  have hordered : now ≤ checkedAt := by simpa [SpendCall.readings] using hfair.last_sorted
  have hpast : ∀ step ∈ h, ∀ r ∈ step.input.readings, r ≤ now := by
    intro step hstep r hr
    exact hfair.le_last hstep hr (by simp [SpendCall.readings])
  have hagrees : Agrees table _ id checkedAt.day
      ((recordedBucket m (caps.profile id model) usage now checkedAt table).onDay checkedAt) :=
    agrees_recorded id model usage hsim hnow hchecked hchecked hpast hordered (Int.le_refl _)
  have hpct : 4 / 5 ≤ (SpendMeter.checkBucket (caps.profile id model)
      ((recordedBucket m (caps.profile id model) usage now checkedAt table).onDay checkedAt)).pct :=
    (pct_refines hagrees (by norm_num)).mpr hreaches
  by_cases hiso : now.isoDay = checkedAt.isoDay
  · have hbucket : recordedBucket m (caps.profile id model) usage now checkedAt table =
        { chargedBucket m (caps.profile id model) usage now table with
          alerted := (recordAlert m (caps.profile id model) usage now table).2 } := if_pos hiso
    have hday : (recordedBucket m (caps.profile id model) usage now checkedAt table).day =
        checkedAt.isoDay := by
      rw [recordedBucket, if_pos hiso, ← hiso]
      exact chargedBucket_day m (caps.profile id model) usage now table
    rw [DayBucket.onDay_of_eq hday, hbucket] at hpct hagrees
    exact Fired.ne_nil hpct hagrees.alerts
  · rw [recordedBucket, if_neg hiso, DayBucket.new_onDay, pct_new] at hpct
    norm_num at hpct

/-! ### Runs -/

/-- What holds of a meter and the history behind it. -/
structure Tracks (table : List (String × Price)) (h : List SpendStep) (m : SpendMeter) : Prop where
  sim : Sim table h m
  alerts_once : ∀ a d, (alertsOn a d h).Sublist [.warn, .halt]

theorem tracks_step (call : SpendCall) (h : List SpendStep) (m : SpendMeter)
    (htracks : Fair h → Tracks table h m)
    (hfair : Fair (h ++ [stepOf (spendCall table caps) call m])) :
    Tracks table (h ++ [stepOf (spendCall table caps) call m]) (spendCall table caps call m).2 := by
  have hbefore := htracks hfair.init
  have hsim := sim_step call h m (fun _ => hbefore.sim) hfair
  exact ⟨hsim, alerts_once_step call h m hsim hfair hbefore.alerts_once⟩

theorem refines_step (call : SpendCall) (h : List SpendStep) (m : SpendMeter)
    (htracks : Tracks table h m) (hfair : Fair (h ++ [stepOf (spendCall table caps) call m])) :
    Refines table caps h (stepOf (spendCall table caps) call m) := by
  constructor
  · rintro a model now result hinput hresult
    obtain rfl : call = .check a model now := hinput
    obtain rfl : (m.check (caps.profile a model) now).1 = result := SpendReply.checked.inj hresult
    have hnow : now.FourDigitYear := hfair.last_ordinary.1 now (by simp [SpendCall.readings])
    have hpast : ∀ step ∈ h, ∀ r ∈ step.input.readings, r ≤ now := by
      intro step hstep r hr
      exact hfair.le_last hstep hr (by simp [SpendCall.readings])
    exact check_refines (htracks.sim.agrees a now hnow hpast).1
  · exact (tracks_step call h m (fun _ => htracks) hfair).alerts_once
  · rintro a model usage now checkedAt hinput
    obtain rfl : call = .record a model usage now checkedAt := hinput
    exact alert_fired_of_record htracks.sim hfair

end Simulation

/-! ### A run with a restart -/

section Restart

def newYear : Instant := ⟨1767225600000, by decide⟩

/-- Every agent may use 1000 tokens a day. -/
def thousandTokens : Caps := fun _ => (some 1000, none)

/-- An agent uses 1000 tokens, the gateway restarts, and the agent asks again. -/
def spendAndRestart (id : AgentId) : List SpendCall :=
  [.record id (utf16 "claude-opus-4-8") ⟨some 1000, none, none⟩ newYear newYear, .restart,
    .check id (utf16 "claude-opus-4-8") newYear]

def afterRecord (id : AgentId) : SpendMeter :=
  (SpendMeter.record prices .new (thousandTokens.profile id (utf16 "claude-opus-4-8"))
    ⟨some 1000, none, none⟩ newYear newYear).2

/-- The steps of that run. -/
def restartSteps (id : AgentId) : List SpendStep :=
  trace (spendCall prices thousandTokens) (spendAndRestart id) .new

/-- Its last step. -/
def checkAfterRestart (id : AgentId) : SpendStep :=
  stepOf (spendCall prices thousandTokens) (.check id (utf16 "claude-opus-4-8") newYear)
    (afterRecord id).load

theorem nonDecreasing_spendAndRestart (id : AgentId) : NonDecreasing (spendAndRestart id) := by
  have hself : newYear ≤ newYear := Int.le_refl _
  simp [NonDecreasing, spendAndRestart, SpendCall.readings, hself]

end Restart

end OsModa.Gateway
