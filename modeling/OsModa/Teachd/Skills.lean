import Mathlib.Data.Prod.Lex
import Mathlib.Data.String.Basic
import OsModa.Base.Float64
import OsModa.Base.Machine
import OsModa.Base.Query
import OsModa.Base.Table
import OsModa.Base.Text
import OsModa.Base.Time

/-!
teachd's skills: from the agent's actions to skill candidates and their verification.

The agent's tools are recorded as actions. A detection cycle looks for sequences of tools that
occur in several sessions and stores a candidate for each new one; a candidate is generated
and promoted through the API, and the verifier moves it by the share of its executions that
succeeded. Every cycle and every handler holds the lock throughout, so each is one step.
-/

namespace OsModa.Teachd

open OsModa.Text OsModa.Machine OsModa.Float64

/-! ### Rows -/

structure AgentAction where
  id : String
  ts : DateTime
  sessionId : String
  tool : String
  success : Bool
  deriving DecidableEq

inductive SkillCandidateStatus where
  | pending
  | generated
  | promoted
  | rejected
  | retired
  deriving DecidableEq, Repr

/-- `Display`. -/
def SkillCandidateStatus.text : SkillCandidateStatus → String
  | pending => "pending"
  | generated => "generated"
  | promoted => "promoted"
  | rejected => "rejected"
  | retired => "retired"

structure SkillCandidate where
  id : String
  name : String
  description : String
  tools : List String
  sessionCount : Nat
  confidence : ℚ
  sourcePatterns : List String
  status : SkillCandidateStatus
  skillPath : Option String
  createdAt : DateTime
  updatedAt : DateTime

structure SkillExecution where
  skillName : String
  outcome : String
  deriving DecidableEq

structure ToolSequenceCandidate where
  tools : List String
  sessionCount : Nat
  sessions : List String
  name : String

structure SkillsDb where
  actions : List AgentAction
  candidates : Table SkillCandidate.id
  executions : List SkillExecution

def SkillsDb.empty : SkillsDb := ⟨[], .empty, []⟩

/-! ### Orders of queries -/

/-- `ORDER BY session_id, ts ASC`. -/
def actionKey (a : AgentAction) : String ×ₗ String := toLex (a.sessionId, a.ts.toRfc3339)

/-- `ORDER BY confidence DESC, session_count DESC`. -/
def candidateKey (c : SkillCandidate) : (ℚ ×ₗ Nat)ᵒᵈ :=
  OrderDual.toDual (toLex (c.confidence, c.sessionCount))

/-- The sort of the tool sequences: more sessions first, then the shorter. -/
def sequenceKey (s : ToolSequenceCandidate) : Natᵒᵈ ×ₗ Nat :=
  toLex (OrderDual.toDual s.sessionCount, s.tools.length)

/-- A status is listed, or all. -/
def listSkillCandidates (order : OrderBy candidateKey) (status : Option SkillCandidateStatus)
    (limit : Nat) (candidates : Table SkillCandidate.id) : List SkillCandidate :=
  (order.arrange (candidates.rows.filter fun c => status.all (c.status = ·))).take limit

/-! ### Tool sequences -/

/-- `slice::windows`. -/
def windows (size : Nat) (tools : List String) : List (List String) :=
  tools.tails.filterMap fun rest => if size ≤ rest.length then some (rest.take size) else none

/-- All contiguous subsequences of length 3 to 6. -/
def windowsOf (tools : List String) : List (List String) :=
  if tools.length < 3 then []
  else (List.range' 3 (min tools.length 6 - 2)).flatMap fun size => windows size tools

def isSubsequence (small big : List String) : Bool :=
  if big.length ≤ small.length then small = big else (windows small.length big).contains small

/-- Remove sequences that are part of a higher-ranked one. -/
def keepUndominated (kept : List ToolSequenceCandidate) (candidate : ToolSequenceCandidate) :
    List ToolSequenceCandidate :=
  if kept.any fun k => candidate.sessionCount ≤ k.sessionCount && isSubsequence candidate.tools k.tools
  then kept else kept ++ [candidate]

/-- The tools of a session, in the order of its rows. -/
def sessionTools (rows : List AgentAction) (session : String) : List String :=
  (rows.filter (·.sessionId = session)).map (·.tool)

/-- A tool sequence with the sessions that contain it. -/
def toolSequence (rows : List AgentAction) (tools : List String) : ToolSequenceCandidate :=
  let sessions := (rows.map (·.sessionId)).dedup.filter fun session =>
    (windowsOf (sessionTools rows session)).contains tools
  ⟨tools, sessions.length, sessions, "-then-".intercalate tools⟩

/-- The successful actions of the last 30 days; none if the calendar does not reach back. -/
def recentActions (now : DateTime) (actions : List AgentAction) : List AgentAction :=
  match now.addSeconds (-2592000) with
  | none => []
  | some cutoff => actions.filter fun a => cutoff.toRfc3339 ≤ a.ts.toRfc3339 && a.success

/-- Get the tool sequences that occur in `minSessions` sessions. The maps that count them yield
their keys in any order, which the sort only settles in part. -/
def findToolSequences (minSessions : Nat) (now : DateTime) (rowOrder : OrderBy actionKey)
    (sequenceOrder : OrderBy sequenceKey) (actions : List AgentAction) : List ToolSequenceCandidate :=
  let rows := rowOrder.arrange (recentActions now actions)
  let subsequences := ((rows.map (·.sessionId)).dedup.flatMap fun session =>
    windowsOf (sessionTools rows session)).dedup
  let candidates := (subsequences.map (toolSequence rows)).filter (minSessions ≤ ·.sessionCount)
  (sequenceOrder.arrange candidates).foldl keepUndominated []

/-! ### New candidates -/

def slugFromTools (tools : List String) : String :=
  let joined := "-".intercalate tools
  if 60 < joined.utf8ByteSize then String.ofList (joined.toList.take 60) else joined

/-- `strip_prefix`. -/
def stripPrefix? (start s : String) : Option String :=
  if start.toList.isPrefixOf s.toList then some (String.ofList (s.toList.drop start.toList.length))
  else none

/-- Strip common prefixes. -/
def stripTool (t : String) : String :=
  (((stripPrefix? "system_" t).or (stripPrefix? "service_" t)).or (stripPrefix? "shell_" t)).getD t

def skillNameFromTools (tools : List String) : String := "-and-".intercalate (tools.map stripTool)

def generateDescription (tools : List String) : String :=
  if tools.isEmpty then "Auto-generated skill."
  else "Automated procedure using " ++ ", then ".intercalate tools ++ " in sequence."

def computeConfidence (s : ToolSequenceCandidate) : ℚ :=
  let sessionFactor := min (fl (s.sessionCount / 8)) 1
  let lengthFactor := min (fl (1 / max (fl (s.tools.length - 1)) 1)) 1
  min (fl (fl (sessionFactor * fl (7 / 10)) + fl (lengthFactor * fl (3 / 10)))) 1

/-- The share of tools that two sequences have in common. -/
def toolOverlap (a b : List String) : ℚ :=
  if a.isEmpty || b.isEmpty then 0
  else
    let intersection := (a.dedup.filter (· ∈ b)).length
    let union := (a ++ b).dedup.length
    if union = 0 then 0 else fl (intersection / union)

def newCandidate (now : DateTime) (s : ToolSequenceCandidate) : SkillCandidate where
  id := "sc-" ++ slugFromTools s.tools
  name := skillNameFromTools s.tools
  description := generateDescription s.tools
  tools := s.tools
  sessionCount := s.sessionCount
  confidence := computeConfidence s
  sourcePatterns := []
  status := .pending
  skillPath := none
  createdAt := now
  updatedAt := now

/-- Store a candidate for a sequence, unless its id is taken or it overlaps one of the first 50. -/
def considerSequence (now : DateTime) (listing : OrderBy candidateKey)
    (candidates : Table SkillCandidate.id) (s : ToolSequenceCandidate) : Table SkillCandidate.id :=
  if (candidates.find? ("sc-" ++ slugFromTools s.tools)).isSome then candidates
  else if (listSkillCandidates listing none 50 candidates).any fun e =>
      fl (4 / 5) ≤ toolOverlap s.tools e.tools then candidates
  else candidates.put (newCandidate now s)

/-- The clock and the orders that a detection cycle meets. -/
structure Detection where
  now : DateTime
  rowOrder : OrderBy actionKey
  sequenceOrder : OrderBy sequenceKey
  listing : OrderBy candidateKey

/-- The sequences that a detection cycle considers. -/
def Detection.sequences (d : Detection) (db : SkillsDb) : List ToolSequenceCandidate :=
  (findToolSequences 3 d.now d.rowOrder d.sequenceOrder db.actions).take 10

/-- Run one skillgen detection cycle. -/
def runSkillgenCycle (d : Detection) (db : SkillsDb) : SkillsDb :=
  { db with candidates := (d.sequences db).foldl (considerSequence d.now d.listing) db.candidates }

/-! ### Handlers -/

inductive SkillsReply where
  | none
  | action (a : AgentAction)
  | candidate (c : SkillCandidate)
  | execution (successRate : ℚ) (totalExecutions : Nat)
  | verified (promoted rejected retired updated : List String) (skipped : Nat)
  | error (status : Nat) (message : String)

structure ObserveActionRequest where
  tool : String
  sessionId : Option String
  success : Option Bool

def observeAction (u : Unicode) (id : String) (now : DateTime) (body : ObserveActionRequest)
    (db : SkillsDb) : SkillsReply × SkillsDb :=
  if (trim u body.tool.toList).isEmpty then (.error 400 "tool name is required", db)
  else
    let action : AgentAction :=
      ⟨id, now, body.sessionId.getD "default", body.tool, body.success.getD true⟩
    -- `INSERT OR REPLACE`: a row of the id is gone.
    (.action action, { db with actions := db.actions.filter (·.id ≠ id) ++ [action] })

/-- `Path::join` of a name that does not start at the root. -/
def joinPath (dir name : String) : String :=
  if dir.isEmpty || dir.toList.getLast? = some '/' then dir ++ name else dir ++ "/" ++ name

/-- Where a candidate's SKILL.md is written. -/
def skillFilePath (skillsDir name : String) : String :=
  joinPath (joinPath skillsDir ("auto-" ++ name)) "SKILL.md"

/-- Write a SKILL.md file; `write` is how the calls of the file system end. -/
def writeSkillFile (skillsDir : String) (write : Except String Unit) (candidate : SkillCandidate) :
    Except String String :=
  let name := candidate.name.toList
  if name.contains '/' || name.contains '\\' || contains name "..".toList || name.isEmpty then
    .error ("invalid skill candidate name: " ++ candidate.name)
  else write.map fun _ => skillFilePath skillsDir candidate.name

def skillGenerate (skillsDir id : String) (now : DateTime) (write : Except String Unit)
    (db : SkillsDb) : SkillsReply × SkillsDb :=
  match db.candidates.find? id with
  | none => (.error 404 "candidate not found", db)
  | some c =>
    if c.status ≠ .pending then
      (.error 400 ("candidate " ++ id ++ " is already in status " ++ c.status.text), db)
    else
      match writeSkillFile skillsDir write c with
      | .error e => (.error 500 e, db)
      | .ok path =>
        let c := { c with status := .generated, skillPath := some path, updatedAt := now }
        (.candidate c, { db with candidates := db.candidates.put c })

def skillPromote (id : String) (now : DateTime) (db : SkillsDb) : SkillsReply × SkillsDb :=
  match db.candidates.find? id with
  | none => (.error 404 "candidate not found", db)
  | some c =>
    if c.status ≠ .generated then
      (.error 400 ("candidate " ++ id ++ " must be in 'generated' status to promote (current: " ++
        c.status.text ++ ")"), db)
    else
      let c := { c with status := .promoted, updatedAt := now }
      (.candidate c, { db with candidates := db.candidates.put c })

/-- Get success rate for a skill. -/
def skillSuccessRate (executions : List SkillExecution) (skillName : String) : Nat × Nat :=
  (executions.countP fun e => e.skillName = skillName && e.outcome = "success",
    executions.countP fun e => e.skillName = skillName)

def skillExecution (e : SkillExecution) (db : SkillsDb) : SkillsReply × SkillsDb :=
  let db := { db with executions := db.executions ++ [e] }
  let (success, total) := skillSuccessRate db.executions e.skillName
  (.execution (if 0 < total then fl (success / total) else 0) total, db)

/-! ### The verifier -/

def minExecutions : Nat := 5
def promoteRate : ℚ := fl (4 / 5)
def rejectRate : ℚ := fl (3 / 10)
def retireRate : ℚ := fl (2 / 5)
def confidenceExecWeight : ℚ := fl (2 / 5)

/-- Initial weight and execution-derived weight. -/
def blendConfidence (confidence rate : ℚ) : ℚ :=
  clamp (fl (fl (confidence * fl (1 - confidenceExecWeight)) + fl (rate * confidenceExecWeight))) 0 1

/-- The status that the verifier gives by the success rate; it passes over other candidates. -/
def verifiedStatus (rate : ℚ) : SkillCandidateStatus → Option SkillCandidateStatus
  | .generated =>
    some (if promoteRate ≤ rate then .promoted else if rate < rejectRate then .rejected else .generated)
  | .promoted => some (if rate < retireRate then .retired else .promoted)
  | .pending | .rejected | .retired => none

/-- A listed candidate as the verifier stores it, if it does. -/
def verifyCandidate (now : DateTime) (executions : List SkillExecution) (c : SkillCandidate) :
    Option SkillCandidate :=
  let (success, total) := skillSuccessRate executions c.name
  if total < minExecutions then none
  else
    let rate := fl (success / total)
    (verifiedStatus rate c.status).map fun status =>
      { c with confidence := blendConfidence c.confidence rate, updatedAt := now, status := status }

/-- The candidates that a cycle looks at, listed before it changes any. -/
def verifyListing (generatedOrder promotedOrder : OrderBy candidateKey)
    (candidates : Table SkillCandidate.id) : List SkillCandidate :=
  listSkillCandidates generatedOrder (some .generated) 100 candidates ++
    listSkillCandidates promotedOrder (some .promoted) 100 candidates

def storeVerified (now : DateTime) (executions : List SkillExecution)
    (candidates : Table SkillCandidate.id) (c : SkillCandidate) : Table SkillCandidate.id :=
  match verifyCandidate now executions c with
  | none => candidates
  | some updated => candidates.put updated

/-- The names of the candidates that the verifier moves from one status to another. -/
def movedNames (now : DateTime) (executions : List SkillExecution) (listing : List SkillCandidate)
    (p : SkillCandidateStatus → SkillCandidateStatus → Bool) : List String :=
  (listing.filter fun c => (verifyCandidate now executions c).any fun c' => p c.status c'.status).map
    (·.name)

def runVerifyCycle (now : DateTime) (generatedOrder promotedOrder : OrderBy candidateKey)
    (db : SkillsDb) : SkillsReply × SkillsDb :=
  let listing := verifyListing generatedOrder promotedOrder db.candidates
  let moved := movedNames now db.executions listing
  (.verified (moved fun s s' => s = .generated && s' = .promoted) (moved fun _ s' => s' = .rejected)
      (moved fun _ s' => s' = .retired) (moved fun s s' => s = s')
      (listing.countP fun c => (skillSuccessRate db.executions c.name).2 < minExecutions),
    { db with candidates := listing.foldl (storeVerified now db.executions) db.candidates })

/-! ### The machine -/

inductive SkillsEvent where
  | observe (id : String) (now : DateTime) (body : ObserveActionRequest)
  /-- Actions older than 30 days are pruned. -/
  | prune (cutoff : DateTime)
  | detect (d : Detection)
  | generate (id : String) (now : DateTime) (write : Except String Unit)
  | promote (id : String) (now : DateTime)
  | execution (e : SkillExecution)
  | verify (now : DateTime) (generatedOrder promotedOrder : OrderBy candidateKey)

abbrev SkillsStep := Step SkillsDb SkillsEvent SkillsReply

def skillsNext (u : Unicode) (skillsDir : String) : SkillsEvent → SkillsDb → SkillsReply × SkillsDb
  | .observe id now body, db => observeAction u id now body db
  | .prune cutoff, db =>
    (.none, { db with actions := db.actions.filter (cutoff.toRfc3339 ≤ ·.ts.toRfc3339) })
  | .detect d, db => (.none, runSkillgenCycle d db)
  | .generate id now write, db => skillGenerate skillsDir id now write db
  | .promote id now, db => skillPromote id now db
  | .execution e, db => skillExecution e db
  | .verify now generatedOrder promotedOrder, db => runVerifyCycle now generatedOrder promotedOrder db

end OsModa.Teachd
