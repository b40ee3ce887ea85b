import OsModa.Base.IsoDay
import OsModa.Base.Js
import OsModa.Base.Machine
import OsModa.Base.Table
import Mathlib.Algebra.Order.Field.Rat
import Mathlib.Tactic.NormNum

/-!
Per-agent spend meter and daily kill-switch.

The meter keeps one bucket of usage per agent. A bucket is for one UTC day and is
replaced by an empty one when a call finds it on another day. `record` persists all
buckets as a JSON object under the agents' ids, and a restart reads them back.

Token counts and USD are exact rationals. The price table is given as a parameter, the
default one being `prices`.
-/

namespace OsModa.Gateway

open OsModa.Js

abbrev AgentId := JsString

/-- The fields of an agent that the meter reads. -/
structure AgentProfile where
  id : AgentId
  model : JsString
  dailyTokenCap : Option ℚ
  dailyUsdCap : Option ℚ

structure SpendUsage where
  inputTokens : Option ℚ
  outputTokens : Option ℚ
  costUsd : Option ℚ

/-! ### Prices -/

/-- USD per 1,000,000 tokens. -/
structure Price where
  input : ℚ
  output : ℚ

def prices : List (String × Price) :=
  [("claude-fable-5", ⟨10, 50⟩), ("claude-mythos-5", ⟨10, 50⟩), ("claude-opus-4-8", ⟨5, 25⟩),
   ("claude-opus-4-7", ⟨5, 25⟩), ("claude-opus-4-6", ⟨5, 25⟩), ("claude-sonnet-4-6", ⟨3, 15⟩),
   ("claude-haiku-4-5", ⟨1, 5⟩)]

/-- `table[name]`. -/
def lookupPrice (table : List (String × Price)) (name : JsString) : Option Price :=
  (table.find? fun entry => utf16 entry.1 = name).map (·.2)

/-- Unknown model: assume Opus-tier. -/
def defaultPrice : Price := ⟨5, 25⟩

/-- `replace(/^[^/]+\//, "")`: strip the provider prefix. -/
def stripProvider (model : JsString) : JsString :=
  let (provider, rest) := model.span (· ≠ 47)
  if provider = [] then model
  else match rest with
    | [] => model
    | _ :: bare => bare

def priceFor (model : JsString) (table : List (String × Price)) : Price :=
  ((lookupPrice table (stripProvider model)).orElse fun _ => lookupPrice table model).getD
    defaultPrice

def estimateCostUsd (model : JsString) (usage : SpendUsage) (table : List (String × Price)) : ℚ :=
  match usage.costUsd.filter (0 < ·) with
  | some cost => cost
  | none =>
    let p := priceFor model table
    usage.inputTokens.getD 0 / 1000000 * p.input + usage.outputTokens.getD 0 / 1000000 * p.output

/-! ### The meter -/

structure Alerted where
  warn : Bool
  halt : Bool

structure DayBucket where
  day : List Char
  inputTokens : ℚ
  outputTokens : ℚ
  costUsd : ℚ
  alerted : Alerted

/-- An empty bucket for the day of a clock reading. -/
def DayBucket.new (now : Instant) : DayBucket := ⟨now.isoDay, 0, 0, 0, ⟨false, false⟩⟩

/-- The bucket as a call on some day finds it. -/
def DayBucket.onDay (b : DayBucket) (now : Instant) : DayBucket :=
  if b.day = now.isoDay then b else .new now

abbrev Buckets := Table (Prod.fst : AgentId × DayBucket → AgentId)

/-- The meter of a running process, and its file. -/
structure SpendMeter where
  buckets : Buckets
  file : Buckets

inductive CapReason where
  | tokenCap (tokens cap : ℚ)
  | usdCap (usd cap : ℚ)

structure SpendCheck where
  allowed : Bool
  /-- Set when not allowed. -/
  reason : Option CapReason
  tokensUsed : ℚ
  usdUsed : ℚ
  tokenCap : Option ℚ
  usdCap : Option ℚ
  /-- Highest utilisation across the configured caps. -/
  pct : ℚ

inductive AlertLevel where
  | warn
  | halt
  deriving DecidableEq

structure SpendAlert where
  agentId : AgentId
  level : AlertLevel
  pct : ℚ
  usdUsed : ℚ
  tokensUsed : ℚ

/-- The bucket that counts for an agent at a clock reading. -/
def Buckets.current (buckets : Buckets) (agentId : AgentId) (now : Instant) : DayBucket :=
  match buckets.find? agentId with
  | some (_, b) => b.onDay now
  | none => .new now

namespace SpendMeter

/-- The meter of a first start: there is no file. -/
def new : SpendMeter := ⟨.empty, .empty⟩

/-- Get the agent's bucket, rolling it over (reset) if the UTC day changed. Storing a
bucket that is there already changes nothing. -/
def bucket (m : SpendMeter) (agentId : AgentId) (now : Instant) : DayBucket × SpendMeter :=
  (m.buckets.current agentId now,
    { m with buckets := m.buckets.put (agentId, m.buckets.current agentId now) })

/-- What `check` reports about a bucket. -/
def checkBucket (agent : AgentProfile) (b : DayBucket) : SpendCheck :=
  let tokens := b.inputTokens + b.outputTokens
  let tokenCap := agent.dailyTokenCap.filter (0 < ·)
  let usdCap := agent.dailyUsdCap.filter (0 < ·)
  let tokenPct := tokenCap.elim 0 (tokens / ·)
  let usdPct := usdCap.elim 0 (b.costUsd / ·)
  let overToken := tokenCap.filter (· ≤ tokens)
  let overUsd := usdCap.filter (· ≤ b.costUsd)
  let reason := match overToken, overUsd with
    | some cap, _ => some (.tokenCap tokens cap)
    | none, some cap => some (.usdCap b.costUsd cap)
    | none, none => none
  ⟨!(overToken.isSome || overUsd.isSome), reason, tokens, b.costUsd, tokenCap, usdCap,
    max tokenPct usdPct⟩

/-- Would the next turn be allowed under this agent's caps? -/
def check (m : SpendMeter) (agent : AgentProfile) (now : Instant) : SpendCheck × SpendMeter :=
  (checkBucket agent (m.bucket agent.id now).1, (m.bucket agent.id now).2)

/-- A bucket with a turn's usage added. -/
def addUsage (table : List (String × Price)) (agent : AgentProfile) (usage : SpendUsage)
    (b : DayBucket) : DayBucket :=
  { b with
    inputTokens := b.inputTokens + max 0 (usage.inputTokens.getD 0)
    outputTokens := b.outputTokens + max 0 (usage.outputTokens.getD 0)
    costUsd := b.costUsd + max 0 (estimateCostUsd agent.model usage table) }

/-- The alert that a utilisation calls for, given those already fired. -/
def alertFor (pct : ℚ) (alerted : Alerted) : Option AlertLevel × Alerted :=
  if 1 ≤ pct ∧ alerted.halt = false then (some .halt, ⟨true, true⟩)
  else if 4 / 5 ≤ pct ∧ alerted.warn = false then (some .warn, { alerted with warn := true })
  else (none, alerted)

/-- Entries of an object under the key `__proto__` set its prototype, and are not
written. -/
def save (m : SpendMeter) : SpendMeter := { m with file := m.buckets.erase (utf16 "__proto__") }

/-- A new process reads the file. -/
def load (m : SpendMeter) : SpendMeter := { m with buckets := m.file }

def setBucket (m : SpendMeter) (agentId : AgentId) (b : DayBucket) : SpendMeter :=
  { m with buckets := m.buckets.put (agentId, b) }

/-- Accumulate a completed turn's usage; fire alerts at 80% / 100%; persist. The clock is
read again for the check of the alerts. If that is on another day, the check has replaced
the bucket by an empty one. -/
def record (table : List (String × Price)) (m : SpendMeter) (agent : AgentProfile)
    (usage : SpendUsage) (now checkedAt : Instant) : List SpendAlert × SpendMeter :=
  let found := m.bucket agent.id now
  let b := addUsage table agent usage found.1
  let checked := (found.2.setBucket agent.id b).check agent checkedAt
  let c := checked.1
  let alert := alertFor c.pct b.alerted
  let m := if b.day = checkedAt.isoDay then
      checked.2.setBucket agent.id { b with alerted := alert.2 }
    else checked.2
  (alert.1.toList.map fun level => ⟨agent.id, level, c.pct, c.usdUsed, c.tokensUsed⟩, m.save)

end SpendMeter

/-! ### Calls -/

/-- A call of the meter, with the clock readings that it makes, or a restart of the
process. An agent's caps are fixed, its model is not. -/
inductive SpendCall where
  | record (id : AgentId) (model : JsString) (usage : SpendUsage) (now checkedAt : Instant)
  | check (id : AgentId) (model : JsString) (now : Instant)
  | restart

inductive SpendReply where
  | recorded (alerts : List SpendAlert)
  | checked (result : SpendCheck)
  | restarted

/-- The caps of each agent: tokens and USD a day. -/
abbrev Caps := AgentId → Option ℚ × Option ℚ

def Caps.profile (caps : Caps) (id : AgentId) (model : JsString) : AgentProfile :=
  ⟨id, model, (caps id).1, (caps id).2⟩

def spendCall (table : List (String × Price)) (caps : Caps) (call : SpendCall) (m : SpendMeter) :
    SpendReply × SpendMeter :=
  match call with
  | .record id model usage now checkedAt =>
    let (alerts, m) := m.record table (caps.profile id model) usage now checkedAt
    (.recorded alerts, m)
  | .check id model now =>
    let (result, m) := m.check (caps.profile id model) now
    (.checked result, m)
  | .restart => (.restarted, m.load)

/-! ### Lookups -/

@[simp] theorem DayBucket.new_day (now : Instant) : (DayBucket.new now).day = now.isoDay := by
  simp only [DayBucket.new]

theorem DayBucket.new_congr {a b : Instant} (h : a.isoDay = b.isoDay) :
    DayBucket.new a = DayBucket.new b := by
  simp only [DayBucket.new, h]

theorem DayBucket.onDay_of_eq {b : DayBucket} {now : Instant} (h : b.day = now.isoDay) :
    b.onDay now = b :=
  if_pos h

theorem DayBucket.onDay_of_ne {b : DayBucket} {now : Instant} (h : b.day ≠ now.isoDay) :
    b.onDay now = .new now :=
  if_neg h

@[simp] theorem DayBucket.onDay_day (b : DayBucket) (now : Instant) :
    (b.onDay now).day = now.isoDay := by
  unfold DayBucket.onDay
  split
  · assumption
  · exact DayBucket.new_day now

@[simp] theorem DayBucket.new_onDay (now t : Instant) : (DayBucket.new now).onDay t = .new t := by
  unfold DayBucket.onDay
  split
  · rename_i h
    rw [DayBucket.new_day] at h
    exact DayBucket.new_congr h
  · rfl

namespace Buckets

theorem current_put (buckets : Buckets) (id agentId : AgentId) (b : DayBucket) (now : Instant) :
    Buckets.current (buckets.put (id, b)) agentId now =
      if id = agentId then b.onDay now else buckets.current agentId now := by
  unfold Buckets.current
  rw [Table.find?_put]
  by_cases h : id = agentId
  · rw [if_pos h, if_pos h]
  · rw [if_neg h, if_neg h]

theorem current_erase (buckets : Buckets) (id agentId : AgentId) (now : Instant) :
    Buckets.current (buckets.erase id) agentId now =
      if id = agentId then .new now else buckets.current agentId now := by
  unfold Buckets.current
  rw [Table.find?_erase]
  by_cases h : id = agentId
  · rw [if_pos h, if_pos h]
  · rw [if_neg h, if_neg h]

@[simp] theorem current_day (buckets : Buckets) (agentId : AgentId) (now : Instant) :
    (buckets.current agentId now).day = now.isoDay := by
  unfold Buckets.current
  split
  · exact DayBucket.onDay_day _ now
  · exact DayBucket.new_day now

end Buckets

/-! ### What the calls leave behind -/

section Calls

variable {table : List (String × Price)} (m : SpendMeter) (agent : AgentProfile)
variable (usage : SpendUsage) (now checkedAt : Instant)

@[simp] theorem bucket_fst (id : AgentId) : (m.bucket id now).1 = m.buckets.current id now := rfl

theorem current_setBucket (id a : AgentId) (b : DayBucket) (t : Instant) :
    (m.setBucket id b).buckets.current a t =
      if id = a then b.onDay t else m.buckets.current a t :=
  Buckets.current_put m.buckets id a b t

theorem current_bucket (id a : AgentId) (t : Instant) :
    (m.bucket id now).2.buckets.current a t =
      if id = a then (m.buckets.current id now).onDay t else m.buckets.current a t :=
  Buckets.current_put m.buckets id a _ t

theorem current_check (a : AgentId) (t : Instant) :
    (m.check agent now).2.buckets.current a t =
      if agent.id = a then (m.buckets.current agent.id now).onDay t else m.buckets.current a t :=
  current_bucket m now agent.id a t

theorem alertFor_zero (flags : Alerted) : SpendMeter.alertFor 0 flags = (none, flags) := by
  unfold SpendMeter.alertFor
  norm_num

theorem pct_new : (SpendMeter.checkBucket agent (.new now)).pct = 0 := by
  simp only [SpendMeter.checkBucket, DayBucket.new, add_zero, zero_div]
  cases agent.dailyTokenCap.filter (0 < ·) <;> cases agent.dailyUsdCap.filter (0 < ·) <;> simp

/-- The bucket with the usage of a call added to it, before the alerts. -/
def chargedBucket (table : List (String × Price)) : DayBucket :=
  SpendMeter.addUsage table agent usage (m.buckets.current agent.id now)

/-- The alert that a `record` within one day fires, and the flags after it. -/
def recordAlert (table : List (String × Price)) : Option AlertLevel × Alerted :=
  SpendMeter.alertFor (SpendMeter.checkBucket agent (chargedBucket m agent usage now table)).pct
    (chargedBucket m agent usage now table).alerted

/-- The agent's bucket after a `record`. -/
def recordedBucket (table : List (String × Price)) : DayBucket :=
  if now.isoDay = checkedAt.isoDay then
    { chargedBucket m agent usage now table with alerted := (recordAlert m agent usage now table).2 }
  else .new checkedAt

theorem chargedBucket_day (table : List (String × Price)) :
    (chargedBucket m agent usage now table).day = now.isoDay := by
  simp [chargedBucket, SpendMeter.addUsage]

/-- The meter with the usage of a call added, before the check of the alerts. -/
def chargedMeter (table : List (String × Price)) : SpendMeter :=
  (m.bucket agent.id now).2.setBucket agent.id (chargedBucket m agent usage now table)

theorem current_chargedMeter (a : AgentId) (t : Instant) :
    (chargedMeter m agent usage now table).buckets.current a t =
      if agent.id = a then (chargedBucket m agent usage now table).onDay t
      else m.buckets.current a t := by
  rw [chargedMeter, current_setBucket]
  split
  · rfl
  · rename_i hother
    rw [current_bucket, if_neg hother]

/-- The check within a `record` finds the charged bucket, or none of its day. -/
theorem check_chargedMeter : ((chargedMeter m agent usage now table).check agent checkedAt).1 =
    SpendMeter.checkBucket agent ((chargedBucket m agent usage now table).onDay checkedAt) := by
  unfold SpendMeter.check
  rw [bucket_fst, current_chargedMeter, if_pos rfl]

theorem current_record (a : AgentId) (t : Instant) :
    (m.record table agent usage now checkedAt).2.buckets.current a t =
      if agent.id = a then (recordedBucket m agent usage now checkedAt table).onDay t
      else m.buckets.current a t := by
  have hcharged := chargedBucket_day m agent usage now table
  have hrecord : (m.record table agent usage now checkedAt).2.buckets =
      (if (chargedBucket m agent usage now table).day = checkedAt.isoDay then
        SpendMeter.setBucket ((chargedMeter m agent usage now table).check agent checkedAt).2 agent.id
          { chargedBucket m agent usage now table with
            alerted := (SpendMeter.alertFor
              ((chargedMeter m agent usage now table).check agent checkedAt).1.pct
              (chargedBucket m agent usage now table).alerted).2 }
      else ((chargedMeter m agent usage now table).check agent checkedAt).2).buckets := rfl
  rw [hrecord, check_chargedMeter]
  by_cases hday : now.isoDay = checkedAt.isoDay
  · have hsame := hcharged.trans hday
    rw [if_pos hsame, DayBucket.onDay_of_eq hsame, current_setBucket, recordedBucket, if_pos hday]
    split
    · rfl
    · rename_i hother
      rw [current_check, if_neg hother, current_chargedMeter, if_neg hother]
  · have hnext : (chargedBucket m agent usage now table).day ≠ checkedAt.isoDay := by
      rwa [hcharged]
    rw [if_neg hnext, current_check, recordedBucket, if_neg hday]
    split
    · rw [current_chargedMeter, if_pos rfl, DayBucket.onDay_of_ne hnext]
    · rename_i hother
      rw [current_chargedMeter, if_neg hother]

theorem record_alerts : (m.record table agent usage now checkedAt).1.map (·.level) =
    if now.isoDay = checkedAt.isoDay then (recordAlert m agent usage now table).1.toList else [] := by
  have hcharged := chargedBucket_day m agent usage now table
  have hrecord : (m.record table agent usage now checkedAt).1.map (·.level) =
      (SpendMeter.alertFor ((chargedMeter m agent usage now table).check agent checkedAt).1.pct
        (chargedBucket m agent usage now table).alerted).1.toList := by
    refine (List.map_map ..).trans (Eq.trans (List.map_congr_left fun _ _ => ?_) (List.map_id _))
    rfl
  rw [hrecord, check_chargedMeter]
  by_cases hday : now.isoDay = checkedAt.isoDay
  · rw [if_pos hday, DayBucket.onDay_of_eq (hcharged.trans hday), recordAlert]
  · rw [if_neg hday, DayBucket.onDay_of_ne (by rwa [hcharged]), pct_new, alertFor_zero]
    rfl

theorem record_agentId : ∀ alert ∈ (m.record table agent usage now checkedAt).1,
    alert.agentId = agent.id := by
  intro alert h
  obtain ⟨level, -, rfl⟩ := List.mem_map.mp h
  rfl

end Calls

end OsModa.Gateway
