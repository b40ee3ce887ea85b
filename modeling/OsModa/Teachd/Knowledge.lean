import Mathlib.Data.String.Basic
import OsModa.Base.Float64
import OsModa.Base.Machine
import OsModa.Base.Query
import OsModa.Base.Table
import OsModa.Base.Text
import OsModa.Base.Time

/-!
teachd's knowledge: from observations to patterns, knowledge documents and optimizations.

A learning cycle detects patterns in the observations of the last hour and stores each under
an id that is made from what it is about; a pattern of high confidence becomes a knowledge
document. Documents are also created and edited through the API. An optimization is suggested
for a document that has not been applied, approved, and applied.

Every cycle and every handler but one holds the lock throughout, so each is one step. The
handler that applies an optimization takes the lock twice and acts in between without it; its
requests are numbered in the order in which they read the optimization.
-/

namespace OsModa.Teachd

open OsModa.Text OsModa.Machine OsModa.Float64

/-! ### Rows -/

/-- `serde_json::Value`. -/
inductive Value where
  | null
  | bool (b : Bool)
  | integer (n : Int)
  | float (x : ℚ)
  | string (s : String)
  | array (items : List Value)
  | object (fields : List (String × Value))

namespace Value

def get : Value → String → Option Value
  | object fields, name => fields.lookup name
  | _, _ => none

def asStr : Value → Option String
  | string s => some s
  | _ => none

def asArray : Value → Option (List Value)
  | array items => some items
  | _ => none

def asF64 : Value → Option ℚ
  | integer n => some (fl n)
  | float x => some x
  | _ => none

/-- `as_u64`; the integers are those that fit in an `i64` or a `u64`. -/
def asU64 : Value → Option Nat
  | integer n => if 0 ≤ n then some n.toNat else none
  | _ => none

end Value

structure Observation where
  id : String
  ts : DateTime
  source : String
  data : Value

inductive PatternType where
  | recurring
  | trend
  | anomaly
  | correlation
  deriving DecidableEq, Repr

/-- `Display`. -/
def PatternType.text : PatternType → String
  | recurring => "recurring"
  | trend => "trend"
  | anomaly => "anomaly"
  | correlation => "correlation"

structure Pattern where
  id : String
  name : String
  patternType : PatternType
  confidence : ℚ
  observations : List String
  firstSeen : DateTime
  lastSeen : DateTime
  occurrenceCount : Nat
  deriving DecidableEq

structure KnowledgeDoc where
  id : String
  title : String
  category : String
  content : String
  sourcePatterns : List String
  confidence : ℚ
  createdAt : DateTime
  updatedAt : DateTime
  applied : Bool
  tags : List String
  deriving DecidableEq

inductive OptAction where
  | nixConfig (diff : String)
  | serviceRestart (name : String)
  | sysctl (key value : String)
  | custom (command : String)
  deriving DecidableEq, Repr

inductive OptStatus where
  | suggested
  | approved
  | applied
  | rolledBack
  deriving DecidableEq, Repr

/-- `Debug`. -/
def OptStatus.debug : OptStatus → String
  | suggested => "Suggested"
  | approved => "Approved"
  | applied => "Applied"
  | rolledBack => "RolledBack"

structure Optimization where
  id : String
  knowledgeDocId : String
  description : String
  action : OptAction
  status : OptStatus
  switchId : Option String
  createdAt : DateTime
  deriving DecidableEq

structure KnowledgeDb where
  observations : Table Observation.id
  patterns : Table Pattern.id
  docs : Table KnowledgeDoc.id
  optimizations : Table Optimization.id

/-- A time read back from its text; the reading of the clock where the text cannot be read. -/
def readBack (now t : DateTime) : DateTime := if t.isReadable then t else now

/-! ### Orders of queries -/

/-- `ORDER BY ts DESC`. -/
def observationKey (o : Observation) : Stringᵒᵈ := OrderDual.toDual o.ts.toRfc3339

/-- `ORDER BY updated_at DESC`. -/
def docKey (d : KnowledgeDoc) : Stringᵒᵈ := OrderDual.toDual d.updatedAt.toRfc3339

/-- The clock and the orders that a learning cycle meets. -/
structure Learning where
  now : DateTime
  /-- The clock when the cycle comes to a row or a pattern of that id. -/
  clock : String → DateTime
  rowOrder : OrderBy observationKey
  /-- The names come out of a `HashMap`. -/
  nameOrder : OrderBy fun _ : String => ()

/-- The observations of the last hour, 500 at most, the newest first; none if the calendar
does not reach back. -/
def Learning.observations (l : Learning) (db : KnowledgeDb) : List Observation :=
  match l.now.addSeconds (-3600) with
  | none => []
  | some since =>
    let rows := db.observations.rows.filter fun o => since.toRfc3339 ≤ o.ts.toRfc3339
    ((l.rowOrder.arrange rows).take 500).map fun o => { o with ts := readBack (l.clock o.id) o.ts }

/-! ### Patterns -/

/-- What an observation says has failed: service units, or the identifiers of journal errors. -/
def failuresIn (o : Observation) : List String :=
  if o.source = "service" then
    (((o.data.get "failed_names").bind Value.asArray).getD []).filterMap Value.asStr
  else if o.source = "journal" then
    (((o.data.get "errors").bind Value.asArray).getD []).filterMap fun err =>
      (err.get "identifier").bind Value.asStr
  else []

/-- The observations that say a name has failed, each as often as it says so. -/
def failuresOf (observations : List Observation) (name : String) : List Observation :=
  observations.flatMap fun o => ((failuresIn o).filter (· = name)).map fun _ => o

/-- `iter().min()`. -/
def earliest (first : DateTime) (ts : List DateTime) : DateTime :=
  ts.foldl (fun a b => if b < a then b else a) first

/-- `iter().max()`. -/
def latest (first : DateTime) (ts : List DateTime) : DateTime :=
  ts.foldl (fun a b => if a ≤ b then b else a) first

/-- The pattern of one name. -/
def recurringPattern (observations : List Observation) (name : String) : Option Pattern :=
  match failuresOf observations name with
  | [] => none
  | first :: rest =>
    let obs := first :: rest
    let count : Nat := obs.length % 2 ^ 32
    if obs.length < 3 then none
    else some {
      id := "pat-recurring-" ++ name
      name := name ++ " recurring failures"
      patternType := .recurring
      confidence := min (fl (count / 10)) 1
      observations := obs.map (·.id)
      firstSeen := earliest first.ts (rest.map (·.ts))
      lastSeen := latest first.ts (rest.map (·.ts))
      occurrenceCount := count }

/-- Detect recurring service failures: same service failing 3+ times. -/
def detectRecurringFailures (nameOrder : OrderBy fun _ : String => ())
    (observations : List Observation) : List Pattern :=
  (nameOrder.arrange (observations.flatMap failuresIn).dedup).filterMap
    (recurringPattern observations)

/-- `windows(2)`, as differences. -/
def changes : List ℚ → List ℚ
  | a :: b :: rest => fl (b - a) :: changes (b :: rest)
  | _ => []

/-- `iter().sum::<f64>()`. -/
def sumF64 (values : List ℚ) : ℚ := values.foldl (fun sum v => fl (sum + v)) 0

/-- The average rate of change of values that mostly increase. -/
def detectMonotonicTrend (values : List ℚ) : Option ℚ :=
  if values.length < 3 then none
  else
    let diffs := changes values
    let totalChange := sumF64 diffs
    let pairs := values.length - 1
    if fl (6 / 10) < fl ((diffs.countP (0 < ·) : ℕ) / pairs) ∧ 0 < totalChange then
      some (fl (totalChange / pairs))
    else none

/-- Used memory in percent. -/
def memoryUsage (o : Observation) : Option ℚ := do
  let total ← (← o.data.get "total_kb").asF64
  let available ← (← o.data.get "available_kb").asF64
  if 0 < total then some (fl (fl (fl (total - available) / total) * 100)) else none

/-- Detect monotonic resource trends. The newest observation is the first one. -/
def detectResourceTrends (observations : List Observation) : List Pattern :=
  let memObs := observations.filter (·.source = "memory")
  match memObs.head?, memObs.getLast? with
  | some first, some last =>
    if memObs.length < 6 then []
    else
      match detectMonotonicTrend (memObs.filterMap memoryUsage) with
      | none => []
      | some trend =>
        if 0 < trend then
          [{ id := "pat-trend-memory-increase"
             name := "memory usage increasing"
             patternType := .trend
             confidence := min (fl (trend / 5)) 1
             observations := memObs.map (·.id)
             firstSeen := first.ts
             lastSeen := last.ts
             occurrenceCount := memObs.length }]
        else []
  | _, _ => []

/-- Is the last count more than two standard deviations above the mean? -/
def spikes (counts : List ℚ) : Bool :=
  match counts.getLast? with
  | none => false
  | some lastCount =>
    let mean := fl (sumF64 counts / counts.length)
    let squares := counts.map fun v => fl (fl (v - mean) * fl (v - mean))
    let stdDev := Float64.sqrt (fl (sumF64 squares / counts.length))
    0 < stdDev && fl (mean + fl (2 * stdDev)) < lastCount

/-- Detect anomalies: sudden spikes of journal errors. -/
def detectAnomalies (observations : List Observation) : List Pattern :=
  let journalObs := observations.filter (·.source = "journal")
  match journalObs.head?, journalObs.getLast? with
  | some first, some last =>
    if journalObs.length < 3 then []
    else if spikes (journalObs.filterMap fun o => (o.data.get "error_count").bind Value.asF64) then
      [{ id := "pat-anomaly-error-spike"
         name := "journal error spike detected"
         patternType := .anomaly
         confidence := fl (8 / 10)
         observations := journalObs.map (·.id)
         firstSeen := first.ts
         lastSeen := last.ts
         occurrenceCount := 1 }]
    else []
  | _, _ => []

/-- Was the CPU busy within 60 seconds of a failure? -/
def busyNear (svc cpu : Observation) : Bool :=
  let timeDiff := ((svc.ts.nanos - cpu.ts.nanos).tdiv 1000000000).natAbs
  let total := ((cpu.data.get "total").bind Value.asF64).getD 0
  let idle := ((cpu.data.get "idle").bind Value.asF64).getD 0
  timeDiff ≤ 60 && 0 < total && 80 < fl (fl (fl (total - idle) / total) * 100)

/-- One correlation per service observation. -/
def correlationOf (cpuObs : List Observation) (svc : Observation) : Option Pattern :=
  (cpuObs.find? (busyNear svc)).map fun cpu => {
    id := "pat-corr-cpu-svc-" ++ svc.id
    name := "service failure correlated with high CPU"
    patternType := .correlation
    confidence := 3 / 4
    observations := [svc.id, cpu.id]
    firstSeen := earliest svc.ts [cpu.ts]
    lastSeen := latest svc.ts [cpu.ts]
    occurrenceCount := 1 }

/-- Detect correlations: high CPU within 60s of a service failure. -/
def detectCorrelations (observations : List Observation) : List Pattern :=
  let serviceObs := observations.filter fun o =>
    o.source = "service" && 0 < ((o.data.get "failed").bind Value.asU64).getD 0
  serviceObs.filterMap (correlationOf (observations.filter (·.source = "cpu")))

/-- The patterns that a learning cycle detects. -/
def Learning.patterns (l : Learning) (db : KnowledgeDb) : List Pattern :=
  let observations := l.observations db
  detectRecurringFailures l.nameOrder observations ++ detectResourceTrends observations ++
    detectAnomalies observations ++ detectCorrelations observations

/-! ### Knowledge documents -/

/-- `{:.0}` of a share in percent. -/
def percent (confidence : ℚ) : String := toString (roundEven (fl (confidence * 100))) ++ "%"

/-- The text of a document on a pattern: what was found, a count of it, and what to do. -/
def docContent (p : Pattern) (kind count recommendation : String) : String :=
  "## " ++ p.name ++ "\n\n**Pattern**: " ++ kind ++ "\n" ++ count ++ "\n**First seen**: " ++
    p.firstSeen.display ++ "\n**Last seen**: " ++ p.lastSeen.display ++ "\n**Confidence**: " ++
    percent p.confidence ++ "\n\n### Recommendation\n" ++ recommendation

/-- The category and the content of the document on a pattern. -/
def categoryAndContent (p : Pattern) : String × String :=
  match p.patternType with
  | .recurring => ("reliability", docContent p "Recurring failure detected."
      ("**Occurrences**: " ++ toString p.occurrenceCount ++ " times")
      "Investigate the root cause of this recurring failure. Consider adding a watcher to auto-restart the affected service.")
  | .trend => ("performance", docContent p "Resource usage trend detected."
      ("**Data points**: " ++ toString p.occurrenceCount)
      "Monitor resource usage and consider scaling or investigating memory leaks.")
  | .anomaly => ("reliability", docContent p "Anomalous behavior detected."
      ("**Observations**: " ++ toString p.occurrenceCount)
      "Investigate the spike and check system logs for root cause.")
  | .correlation => ("performance", docContent p "Correlated events detected."
      ("**Observations**: " ++ toString p.observations.length)
      "The correlated events suggest a causal relationship. Investigate if one event triggers the other.")

/-- The document of a pattern. -/
def knowledgeFromPattern (now : DateTime) (p : Pattern) : KnowledgeDoc :=
  let (category, content) := categoryAndContent p
  { id := "kd-" ++ p.id
    title := p.name
    category := category
    content := content
    sourcePatterns := [p.id]
    confidence := p.confidence
    createdAt := now
    updatedAt := now
    applied := false
    tags := [p.patternType.text, category] }

/-- Is the pattern certain enough for a document? -/
def Pattern.isConfident (p : Pattern) : Bool := fl (7 / 10) < p.confidence

/-- `INSERT OR REPLACE` of a pattern, and of its document. -/
def storePattern (clock : String → DateTime) (db : KnowledgeDb) (p : Pattern) : KnowledgeDb :=
  { db with
    patterns := db.patterns.put p
    docs := if p.isConfident then db.docs.put (knowledgeFromPattern (clock p.id) p) else db.docs }

def runLearningCycle (l : Learning) (db : KnowledgeDb) : KnowledgeDb :=
  (l.patterns db).foldl (storePattern l.clock) db

/-! ### Handlers -/

/-- What happens outside teachd when an optimization is applied. -/
inductive ApplyEffect where
  | beginSwitch (plan : String)
  /-- `execute_action`, with the command that it runs. -/
  | execute (action : OptAction) (command : Option (List String))
  | rollbackSwitch (switchId : String)
  deriving DecidableEq, Repr

inductive KnowledgeReply where
  | none
  | doc (d : KnowledgeDoc)
  | suggestions (opts : List Optimization)
  | optimization (o : Optimization)
  /-- A request has read the optimization and goes on to apply it. -/
  | reading (request : Nat)
  /-- The request has done this for the optimization of that id. -/
  | effects (request : Nat) (optId : String) (effects : List ApplyEffect)
  | error (status : Nat) (message : String)

structure CreateKnowledgeRequest where
  title : String
  category : String
  content : String
  tags : Option (List String)

def knowledgeCreate (uuid : String) (now : DateTime) (body : CreateKnowledgeRequest)
    (db : KnowledgeDb) : KnowledgeReply × KnowledgeDb :=
  let doc : KnowledgeDoc :=
    { id := "kd-manual-" ++ uuid
      title := body.title
      category := body.category
      content := body.content
      sourcePatterns := []
      confidence := 1
      createdAt := now
      updatedAt := now
      applied := false
      tags := body.tags.getD [] }
  (.doc doc, { db with docs := db.docs.put doc })

structure UpdateKnowledgeRequest where
  content : Option String
  tags : Option (List String)
  category : Option String

def knowledgeUpdate (id : String) (now : DateTime) (body : UpdateKnowledgeRequest)
    (db : KnowledgeDb) : KnowledgeReply × KnowledgeDb :=
  match db.docs.find? id with
  | none => (.error 404 "knowledge doc not found", db)
  | some d =>
    let doc := { d with
      content := body.content.getD d.content
      tags := body.tags.getD d.tags
      category := body.category.getD d.category
      createdAt := readBack now d.createdAt
      updatedAt := now }
    (.doc doc, { db with docs := db.docs.put doc })

/-! ### Optimizations -/

/-- A suggested action by the document's title and category. -/
def suggestActionForDoc (u : Unicode) (doc : KnowledgeDoc) : String × Option OptAction :=
  let titleLower := toLowercase u doc.title.toList
  let serviceName := trim u (remove "recurring failures".toList titleLower)
  if contains titleLower "recurring failures".toList && !serviceName.isEmpty then
    ("Restart " ++ String.ofList serviceName ++ " to recover from recurring failures",
      some (.serviceRestart (String.ofList serviceName)))
  else if contains titleLower "memory".toList && doc.category = "performance" then
    ("Consider investigating memory usage patterns and potential leaks",
      some (.sysctl "vm.overcommit_memory" "0"))
  else ("Review knowledge doc '" ++ doc.title ++ "' for potential optimizations", none)

/-- The suggestion for a document, if it calls for an action. -/
def suggestionFor (u : Unicode) (now : DateTime) (doc : KnowledgeDoc) : Option Optimization :=
  let (description, action) := suggestActionForDoc u doc
  action.map fun action =>
    { id := "opt-" ++ doc.id
      knowledgeDocId := doc.id
      description := description
      action := action
      status := .suggested
      switchId := none
      createdAt := now }

/-- The clock and the order of the documents that a suggestion meets. -/
structure Suggesting where
  clock : String → DateTime
  order : OrderBy docKey

/-- The unapplied ones of the 50 documents that were updated last. -/
def Suggesting.docs (s : Suggesting) (db : KnowledgeDb) : List KnowledgeDoc :=
  ((s.order.arrange db.docs.rows).take 50).filter fun d => !d.applied

def Suggesting.suggestions (u : Unicode) (s : Suggesting) (db : KnowledgeDb) : List Optimization :=
  (s.docs db).filterMap fun d => suggestionFor u (s.clock d.id) d

/-- Generate optimization suggestions from unapplied knowledge docs, by `INSERT OR REPLACE`. -/
def suggestOptimizations (u : Unicode) (s : Suggesting) (db : KnowledgeDb) :
    KnowledgeReply × KnowledgeDb :=
  let suggestions := s.suggestions u db
  (.suggestions suggestions,
    { db with optimizations := suggestions.foldl Table.put db.optimizations })

/-- `get_optimization`. -/
def getOptimization (now : DateTime) (id : String) (db : KnowledgeDb) : Option Optimization :=
  (db.optimizations.find? id).map fun o => { o with createdAt := readBack now o.createdAt }

/-- `update_optimization_status`. -/
def updateOptimizationStatus (id : String) (status : OptStatus) (switchId : Option String)
    (db : KnowledgeDb) : KnowledgeDb :=
  { db with
    optimizations := db.optimizations.updateWhere (fun o => o.id = id)
      (fun o => { o with status := status, switchId := switchId }) fun _ => rfl }

/-- Approve an optimization (changes status from Suggested to Approved). -/
def approveOptimization (id : String) (now : DateTime) (db : KnowledgeDb) :
    KnowledgeReply × KnowledgeDb :=
  match getOptimization now id db with
  | none => (.error 400 "optimization not found", db)
  | some o =>
    if o.status ≠ .suggested then
      (.error 400 ("optimization " ++ id ++ " is in status " ++ o.status.debug ++
        ", expected Suggested"), db)
    else (.optimization { o with status := .approved }, updateOptimizationStatus id .approved none db)

/-- The command that `execute_action` runs. -/
def OptAction.command : OptAction → Option (List String)
  | serviceRestart name => some ["systemctl", "restart", name]
  | sysctl key value => some ["sysctl", "-w", key ++ "=" ++ value]
  -- NixOS config changes are logged only.
  | nixConfig _ => none
  | custom command => some ["sh", "-c", command]

/-- SafeSwitch and action: what is done and the switch, if both end well. `switch` is the id in
the watch daemon's answer (`unknown` if it has none), `succeeds` how the command ends. -/
def executeAndApply (o : Optimization) (switch : Option String) (succeeds : Bool) :
    List ApplyEffect × Option String :=
  let begun := ApplyEffect.beginSwitch ("teachd optimization: " ++ o.description)
  match switch with
  | none => ([begun], none)
  | some switchId =>
    let executed := ApplyEffect.execute o.action o.action.command
    if o.action.command.isNone || succeeds then ([begun, executed], some switchId)
    else ([begun, executed, .rollbackSwitch switchId], none)

/-- Where a request to apply an optimization is. -/
inductive ApplyStage where
  /-- The lock is dropped. -/
  | read
  /-- `execute_and_apply` has returned. -/
  | executed (switchId : Option String)
  deriving DecidableEq

/-- A request to apply an optimization, with what it has read of it. -/
structure ApplyRequest where
  request : Nat
  opt : Optimization
  stage : ApplyStage

structure TeachdState where
  db : KnowledgeDb
  requests : Table ApplyRequest.request
  nextRequest : Nat

/-- teachd starts over a database. -/
def TeachdState.start (db : KnowledgeDb) : TeachdState := ⟨db, .empty, 0⟩

/-- The first part of the handler, under the lock. -/
def applyRead (id : String) (now : DateTime) (s : TeachdState) : KnowledgeReply × TeachdState :=
  match getOptimization now id s.db with
  | none => (.error 404 "optimization not found", s)
  | some o =>
    if o.status ≠ .approved then
      (.error 400 ("optimization " ++ id ++ " is in status " ++ o.status.debug ++
        ", expected Approved"), s)
    else (.reading s.nextRequest,
      { s with
        requests := s.requests.put ⟨s.nextRequest, o, .read⟩
        nextRequest := s.nextRequest + 1 })

/-- Async work: create SafeSwitch + execute action (no lock held). -/
def applyExecute (request : Nat) (switch : Option String) (succeeds : Bool) (s : TeachdState) :
    KnowledgeReply × TeachdState :=
  match s.requests.find? request with
  | some ⟨request, o, .read⟩ =>
    let (effects, result) := executeAndApply o switch succeeds
    (.effects request o.id effects,
      { s with requests := s.requests.put ⟨request, o, .executed result⟩ })
  | _ => (.none, s)

/-- Re-acquire lock to update DB. -/
def applyFinish (request : Nat) (s : TeachdState) : KnowledgeReply × TeachdState :=
  match s.requests.find? request with
  | some ⟨request, o, .executed result⟩ =>
    let status : OptStatus := if result.isSome then .applied else .rolledBack
    (.optimization { o with status := status, switchId := result.or o.switchId },
      { s with
        db := updateOptimizationStatus o.id status result s.db
        requests := s.requests.erase request })
  | _ => (.none, s)

/-! ### What the handlers of optimizations do -/

theorem getOptimization_eq_some {id : String} {now : DateTime} {db : KnowledgeDb} {o : Optimization}
    (h : getOptimization now id db = some o) :
    o.id = id ∧ ∃ old ∈ db.optimizations.find? id, old.status = o.status := by
  obtain ⟨old, hold, rfl⟩ := Option.map_eq_some_iff.mp h
  have hid : old.id = id := Table.key_of_find? hold
  exact ⟨hid, old, hold, rfl⟩

/-- Approving changes nothing but a status from suggested to approved. -/
theorem approve_cases (id : String) (now : DateTime) (db : KnowledgeDb) :
    (∃ status message, approveOptimization id now db = (.error status message, db)) ∨
      ∃ o old, db.optimizations.find? id = some old ∧ old.status = .suggested ∧
        approveOptimization id now db =
          (.optimization o, updateOptimizationStatus id .approved none db) := by
  unfold approveOptimization
  cases hget : getOptimization now id db with
  | none => exact .inl ⟨400, _, rfl⟩
  | some o =>
    obtain ⟨-, old, hold, hstatus⟩ := getOptimization_eq_some hget
    by_cases hsuggested : o.status = .suggested
    · refine .inr ⟨{ o with status := .approved }, old, hold, hstatus.trans hsuggested, ?_⟩
      simp only [hsuggested, ne_eq, not_true, if_false]
    · exact .inl ⟨400, _, if_pos hsuggested⟩

/-- A request starts where it reads that the optimization is approved. -/
theorem applyRead_cases (id : String) (now : DateTime) (s : TeachdState) :
    (∃ status message, applyRead id now s = (.error status message, s)) ∨
      ∃ o old, s.db.optimizations.find? id = some old ∧ old.status = .approved ∧ o.id = id ∧
        applyRead id now s = (.reading s.nextRequest,
          { s with
            requests := s.requests.put ⟨s.nextRequest, o, .read⟩
            nextRequest := s.nextRequest + 1 }) := by
  unfold applyRead
  cases hget : getOptimization now id s.db with
  | none => exact .inl ⟨404, _, rfl⟩
  | some o =>
    obtain ⟨hid, old, hold, hstatus⟩ := getOptimization_eq_some hget
    by_cases happroved : o.status = .approved
    · refine .inr ⟨o, old, hold, hstatus.trans happroved, hid, ?_⟩
      simp only [happroved, ne_eq, not_true, if_false]
    · exact .inl ⟨400, _, if_pos happroved⟩

theorem applyExecute_cases (request : Nat) (switch : Option String) (succeeds : Bool)
    (s : TeachdState) :
    applyExecute request switch succeeds s = (.none, s) ∨
      ∃ o, s.requests.find? request = some ⟨request, o, .read⟩ ∧
        applyExecute request switch succeeds s =
          (.effects request o.id (executeAndApply o switch succeeds).1,
            { s with
              requests := s.requests.put
                ⟨request, o, .executed (executeAndApply o switch succeeds).2⟩ }) := by
  unfold applyExecute
  cases hfind : s.requests.find? request with
  | none => exact .inl rfl
  | some r =>
    obtain ⟨number, o, stage⟩ := r
    obtain rfl : number = request := Table.key_of_find? hfind
    cases stage with
    | read => exact .inr ⟨o, rfl, rfl⟩
    | executed result => exact .inl rfl

@[simp] theorem applyRead_db (id : String) (now : DateTime) (s : TeachdState) :
    (applyRead id now s).2.db = s.db := by
  rcases applyRead_cases id now s with ⟨status, message, h⟩ | ⟨o, old, -, -, -, h⟩
  all_goals rw [h]

@[simp] theorem applyExecute_db (request : Nat) (switch : Option String) (succeeds : Bool)
    (s : TeachdState) : (applyExecute request switch succeeds s).2.db = s.db := by
  rcases applyExecute_cases request switch succeeds s with h | ⟨o, -, h⟩
  all_goals rw [h]

theorem applyFinish_cases (request : Nat) (s : TeachdState) :
    applyFinish request s = (.none, s) ∨
      ∃ o result status reply, s.requests.find? request = some ⟨request, o, .executed result⟩ ∧
        (status = .applied ∨ status = .rolledBack) ∧ applyFinish request s = (.optimization reply,
          { s with
            db := updateOptimizationStatus o.id status result s.db
            requests := s.requests.erase request }) := by
  unfold applyFinish
  cases hfind : s.requests.find? request with
  | none => exact .inl rfl
  | some r =>
    obtain ⟨number, o, stage⟩ := r
    obtain rfl : number = request := Table.key_of_find? hfind
    cases stage with
    | read => exact .inl rfl
    | executed result =>
      refine .inr ⟨o, result, _, _, rfl, ?_, rfl⟩
      cases result with
      | none => exact .inr rfl
      | some switchId => exact .inl rfl

/-! ### The machine -/

inductive KnowledgeEvent where
  | observe (o : Observation)
  /-- Old observations are pruned. -/
  | prune (cutoff : DateTime)
  | learn (l : Learning)
  | create (uuid : String) (now : DateTime) (body : CreateKnowledgeRequest)
  | update (id : String) (now : DateTime) (body : UpdateKnowledgeRequest)
  | suggest (s : Suggesting)
  | approve (id : String) (now : DateTime)
  | applyRead (id : String) (now : DateTime)
  | applyExecute (request : Nat) (switch : Option String) (succeeds : Bool)
  | applyFinish (request : Nat)
  /-- The client hangs up, or teachd is stopped: the request goes no further. -/
  | hangUp (request : Nat)

abbrev KnowledgeStep := Step TeachdState KnowledgeEvent KnowledgeReply

/-- A step that holds the lock throughout. -/
def TeachdState.locked (s : TeachdState) (r : KnowledgeReply × KnowledgeDb) :
    KnowledgeReply × TeachdState :=
  (r.1, { s with db := r.2 })

def knowledgeNext (u : Unicode) : KnowledgeEvent → TeachdState → KnowledgeReply × TeachdState
  | .observe o, s => s.locked (.none, { s.db with observations := s.db.observations.put o })
  | .prune cutoff, s =>
    s.locked (.none, { s.db with observations := s.db.observations.filter fun o =>
      cutoff.toRfc3339 ≤ o.ts.toRfc3339 })
  | .learn l, s => s.locked (.none, runLearningCycle l s.db)
  | .create uuid now body, s => s.locked (knowledgeCreate uuid now body s.db)
  | .update id now body, s => s.locked (knowledgeUpdate id now body s.db)
  | .suggest sug, s => s.locked (suggestOptimizations u sug s.db)
  | .approve id now, s => s.locked (approveOptimization id now s.db)
  | .applyRead id now, s => applyRead id now s
  | .applyExecute request switch succeeds, s => applyExecute request switch succeeds s
  | .applyFinish request, s => applyFinish request s
  | .hangUp request, s => (.none, { s with requests := s.requests.erase request })

end OsModa.Teachd
