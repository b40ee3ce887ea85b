import OsModa.Agentd.Ledger
import OsModa.Base.JsonText
import OsModa.Base.Machine
import OsModa.Base.Table

/-!
Incident workspaces: two tables of their own beside the event ledger, and the events that the
handlers log for them.

The ledger lock is held through each handler, so requests follow each other, but the statements
inside one can each fail, and an event that cannot be appended is given up. What has been shown of
an incident is only ever added to (`incidents_only_grow`), and the ledger tells the whole of the
two tables exactly when no such event was lost (`ledger_mirrors_iff`).
-/

namespace OsModa.Agentd

open OsModa.Encoding OsModa.JsonText OsModa.Machine

/-! ### Rows -/

structure IncidentStep where
  stepNumber : Nat
  action : String
  result : String
  receiptId : Option String
  timestamp : String
  deriving DecidableEq

/-- A row of `incident_steps`. -/
structure IncidentStepRow where
  incidentId : String
  step : IncidentStep
  deriving DecidableEq

/-- A row of `incidents`. -/
structure IncidentRow where
  id : String
  name : String
  status : String
  createdAt : String
  resolvedAt : Option String
  deriving DecidableEq

structure IncidentWorkspace where
  id : String
  name : String
  status : String
  steps : List IncidentStep
  createdAt : String
  resolvedAt : Option String
  deriving DecidableEq

/-- The database, with its incident tables; steps are in the order of their row ids. -/
structure IncidentDb where
  incidents : Table IncidentRow.id
  steps : List IncidentStepRow
  ledger : Ledger

def rowToWorkspace (row : IncidentRow) (steps : List IncidentStep) : IncidentWorkspace :=
  ⟨row.id, row.name, row.status, steps, row.createdAt, row.resolvedAt⟩

/-! ### The events of a change -/

/-- The payload of `incident.create`; serde_json writes the keys of a map in order. -/
def createPayload (incidentId name : String) : List Char :=
  "\x7b\"incident_id\":".toList ++ (jsonString incidentId.toList ++ (",\"name\":".toList ++
    (jsonString name.toList ++ "\x7d".toList)))

/-- The payload of `incident.step`. -/
def stepPayload (incidentId : String) (stepNumber : Nat) (action result : String) : List Char :=
  "\x7b\"action\":".toList ++ (jsonString action.toList ++ (",\"incident_id\":".toList ++
    (jsonString incidentId.toList ++ (",\"result\":".toList ++ (jsonString result.toList ++
      (",\"step_number\":".toList ++ (decimal stepNumber ++ "\x7d".toList)))))))

/-- The event types that the other handlers of agentd log. -/
def otherEventTypes : List String :=
  ["agent.card.generate", "backup.create", "backup.restore", "system.discover", "memory.ingest",
    "memory.store", "system.query", "sandbox.exec", "capability.mint"]

/-! ### Requests -/

inductive IncidentOp where
  /-- POST /incident/create, with the id that is drawn. -/
  | create (id name : String)
  /-- POST /incident/{id}/step. -/
  | step (incidentId action result : String) (receiptId : Option String)
  /-- GET /incident/{id}. -/
  | get (incidentId : String)
  /-- GET /incidents. -/
  | list (status : Option String)
  /-- A handler that logs an event of its own. -/
  | other (eventType : { t // t ∈ otherEventTypes }) (actor payload : String)

/-- The statements that fail in a request, and the readings of SQLite's clock. -/
structure IncidentEnv where
  now : String
  /-- The query for an incident and the one for its steps, before the change and after it. -/
  findFails : Bool
  stepsFail : Bool
  findBackFails : Bool
  stepsBackFail : Bool
  insertFails : Bool
  appendTs : String
  appendFaults : Ledger.Faults

inductive IncidentReply where
  | workspace (w : IncidentWorkspace)
  | workspaces (ws : List IncidentWorkspace)
  | status (code : Nat)
  | logged
  deriving DecidableEq

namespace IncidentDb

variable (db : IncidentDb)

def new : IncidentDb := ⟨.empty, [], .new⟩

/-- Get all steps for an incident. -/
def getIncidentSteps (incidentId : String) : List IncidentStep :=
  ((db.steps.filter fun r => r.incidentId = incidentId).map IncidentStepRow.step).mergeSort
    fun a b => a.stepNumber ≤ b.stepNumber

/-- Get an incident by ID with all its steps. A query that fails finds no incident. -/
def getIncident (findFails stepsFail : Bool) (id : String) :
    Except String (Option IncidentWorkspace) :=
  match if findFails then none else db.incidents.find? id with
  | none => .ok none
  | some row =>
    if stepsFail then .error "failed to collect incident steps"
    else .ok (some (rowToWorkspace row (db.getIncidentSteps row.id)))

/-- List incidents, optionally filtered by status. -/
def listIncidents (findFails stepsFail : Bool) (status : Option String) :
    Except String (List IncidentWorkspace) :=
  let rows := (db.incidents.rows.filter fun row => status.all (row.status = ·)).mergeSort
    fun a b => b.createdAt ≤ a.createdAt
  if findFails then .error "failed to list incidents"
  else if stepsFail ∧ rows ≠ [] then .error "failed to collect incident steps"
  else .ok (rows.map fun row => rowToWorkspace row (db.getIncidentSteps row.id))

/-- Create a new incident workspace. -/
def createIncident (insertFails : Bool) (now id name : String) : Option IncidentDb :=
  if insertFails then none
  else (db.incidents.insert? ⟨id, name, "open", now, none⟩).map fun incidents =>
    { db with incidents }

/-- Add a step to an incident. -/
def addIncidentStep (insertFails : Bool) (incidentId : String) (step : IncidentStep) :
    Option IncidentDb :=
  if insertFails then none else some { db with steps := db.steps ++ [⟨incidentId, step⟩] }

end IncidentDb

section Handlers

variable (sha256 : List UInt8 → List UInt8) (env : IncidentEnv) (db : IncidentDb)

def logEvent (call : Ledger.AppendCall) : IncidentDb :=
  { db with ledger := (Ledger.append sha256 call db.ledger).2 }

/-- The incident is read back after the change. -/
def readBack (id : String) : IncidentReply :=
  match db.getIncident env.findBackFails env.stepsBackFail id with
  | .ok (some w) => .workspace w
  | _ => .status 500

def createCall (id name : String) : Ledger.AppendCall :=
  ⟨"incident.create", "agentd", String.ofList (createPayload id name), env.appendTs,
    env.appendFaults⟩

def stepCall (incidentId : String) (stepNumber : Nat) (action result : String) :
    Ledger.AppendCall :=
  ⟨"incident.step", "agentd", String.ofList (stepPayload incidentId stepNumber action result),
    env.appendTs, env.appendFaults⟩

def incidentCreateHandler (id name : String) : IncidentReply × IncidentDb :=
  match db.createIncident env.insertFails env.now id name with
  | none => (.status 500, db)
  | some db =>
    let db := logEvent sha256 db (createCall env id name)
    (readBack env db id, db)

def incidentStepHandler (incidentId action result : String) (receiptId : Option String) :
    IncidentReply × IncidentDb :=
  match db.getIncident env.findFails env.stepsFail incidentId with
  | .error _ => (.status 500, db)
  | .ok none => (.status 404, db)
  | .ok (some incident) =>
    let stepNumber := incident.steps.length + 1
    match db.addIncidentStep env.insertFails incidentId
        ⟨stepNumber, action, result, receiptId, env.now⟩ with
    | none => (.status 500, db)
    | some db =>
      let db := logEvent sha256 db (stepCall env incidentId stepNumber action result)
      (readBack env db incidentId, db)

def incidentGetHandler (incidentId : String) : IncidentReply :=
  match db.getIncident env.findFails env.stepsFail incidentId with
  | .error _ => .status 500
  | .ok none => .status 404
  | .ok (some incident) => .workspace incident

def incidentsListHandler (status : Option String) : IncidentReply :=
  match db.listIncidents env.findFails env.stepsFail status with
  | .error _ => .status 500
  | .ok incidents => .workspaces incidents

def incidentNext (input : IncidentOp × IncidentEnv) (db : IncidentDb) : IncidentReply × IncidentDb :=
  let (op, env) := input
  match op with
  | .create id name => incidentCreateHandler sha256 env db id name
  | .step incidentId action result receiptId =>
    incidentStepHandler sha256 env db incidentId action result receiptId
  | .get incidentId => (incidentGetHandler env db incidentId, db)
  | .list status => (incidentsListHandler env db status, db)
  | .other eventType actor payload =>
    (.logged, logEvent sha256 db ⟨eventType, actor, payload, env.appendTs, env.appendFaults⟩)

end Handlers

abbrev IncidentDbStep := Step IncidentDb (IncidentOp × IncidentEnv) IncidentReply

/-! ### What a request does -/

/-- The event that goes with the change that a request makes to the tables. -/
def auditCall (input : IncidentOp × IncidentEnv) (db : IncidentDb) : Option Ledger.AppendCall :=
  let (op, env) := input
  match op with
  | .create id name =>
    (db.createIncident env.insertFails env.now id name).map fun _ => createCall env id name
  | .step incidentId action result receiptId =>
    match db.getIncident env.findFails env.stepsFail incidentId with
    | .ok (some incident) =>
      let stepNumber := incident.steps.length + 1
      (db.addIncidentStep env.insertFails incidentId
        ⟨stepNumber, action, result, receiptId, env.now⟩).map fun _ =>
          stepCall env incidentId stepNumber action result
    | _ => none
  | _ => none

section Changes

variable {sha256 : List UInt8 → List UInt8} {db db' : IncidentDb}
  {input : IncidentOp × IncidentEnv}

/-- The outcomes of a request, by what becomes of the tables. -/
inductive Change (sha256 : List UInt8 → List UInt8) (db : IncidentDb) :
    IncidentOp × IncidentEnv → IncidentDb → Prop where
  | untouched {input : IncidentOp × IncidentEnv} (silent : auditCall input db = none) :
      Change sha256 db input db
  | logged {eventType : { t // t ∈ otherEventTypes }} {actor payload : String} {env : IncidentEnv} :
      Change sha256 db (.other eventType actor payload, env)
        (logEvent sha256 db ⟨eventType, actor, payload, env.appendTs, env.appendFaults⟩)
  | created {id name : String} {env : IncidentEnv} {incidents : Table IncidentRow.id}
      (inserted : db.incidents.insert? ⟨id, name, "open", env.now, none⟩ = some incidents)
      (audited : auditCall (.create id name, env) db = some (createCall env id name)) :
      Change sha256 db (.create id name, env)
        (logEvent sha256 { db with incidents } (createCall env id name))
  | stepped {incidentId action result : String} {receiptId : Option String} {env : IncidentEnv}
      {row : IncidentRow} (found : db.incidents.find? incidentId = some row)
      (audited : auditCall (.step incidentId action result receiptId, env) db = some
        (stepCall env incidentId ((db.getIncidentSteps incidentId).length + 1) action result)) :
      Change sha256 db (.step incidentId action result receiptId, env)
        (logEvent sha256 { db with
            steps := db.steps ++ [⟨incidentId, ⟨(db.getIncidentSteps incidentId).length + 1, action,
              result, receiptId, env.now⟩⟩] }
          (stepCall env incidentId ((db.getIncidentSteps incidentId).length + 1) action result))

theorem getIncident_ok {findFails stepsFail : Bool} {id : String} {w : IncidentWorkspace}
    (h : db.getIncident findFails stepsFail id = .ok (some w)) :
    ∃ row, db.incidents.find? id = some row ∧ w = rowToWorkspace row (db.getIncidentSteps id) := by
  unfold IncidentDb.getIncident at h
  split at h
  · cases h
  · rename_i row hfind
    split at h
    · cases h
    · have hrow : db.incidents.find? id = some row := by
        split at hfind
        · cases hfind
        · exact hfind
      rw [Table.key_of_find? hrow] at h
      exact ⟨row, hrow, (Option.some.inj (Except.ok.inj h)).symm⟩

theorem incidentNext_change (sha256 : List UInt8 → List UInt8) (input : IncidentOp × IncidentEnv)
    (db : IncidentDb) : Change sha256 db input (incidentNext sha256 input db).2 := by
  obtain ⟨op, env⟩ := input
  cases op with
  | get incidentId => exact .untouched rfl
  | list status => exact .untouched rfl
  | other eventType actor payload => exact .logged
  | create id name =>
    change Change sha256 db _ (incidentCreateHandler sha256 env db id name).2
    unfold incidentCreateHandler
    split
    · rename_i hnone
      exact .untouched (by simp only [auditCall, hnone, Option.map_none])
    · rename_i created hcreated
      have hinsert := hcreated
      unfold IncidentDb.createIncident at hinsert
      split at hinsert
      · cases hinsert
      · obtain ⟨incidents, hincidents, rfl⟩ := Option.map_eq_some_iff.mp hinsert
        exact .created hincidents (by simp only [auditCall, hcreated, Option.map_some])
  | step incidentId action result receiptId =>
    change Change sha256 db _ (incidentStepHandler sha256 env db incidentId action result receiptId).2
    unfold incidentStepHandler
    split
    · rename_i herror
      exact .untouched (by simp only [auditCall, herror])
    · rename_i hnone
      exact .untouched (by simp only [auditCall, hnone])
    · rename_i incident hfound
      obtain ⟨row, hrow, rfl⟩ := getIncident_ok hfound
      dsimp only
      split
      · rename_i hnone
        exact .untouched (by simp only [auditCall, hfound, hnone, Option.map_none])
      · rename_i added hadded
        have haudit : auditCall (.step incidentId action result receiptId, env) db = some
            (stepCall env incidentId ((db.getIncidentSteps incidentId).length + 1) action result) := by
          simp only [auditCall, hfound, hadded, Option.map_some]
          rfl
        unfold IncidentDb.addIncidentStep at hadded
        split at hadded
        · cases hadded
        · obtain rfl := Option.some.inj hadded
          exact .stepped hrow haudit

end Changes

/-! ### Incidents only grow -/

/-- The steps of an incident, in the order in which they were added. -/
def IncidentDb.stepsOf (db : IncidentDb) (incidentId : String) : List IncidentStep :=
  (db.steps.filter fun r => r.incidentId = incidentId).map IncidentStepRow.step

/-- The steps of every incident are numbered from one on. -/
def IncidentDb.Numbered (db : IncidentDb) : Prop :=
  ∀ id, (db.stepsOf id).map IncidentStep.stepNumber = List.range' 1 (db.stepsOf id).length

/-- No incident is changed or lost, and steps are only added. -/
structure IncidentDb.Extends (db db' : IncidentDb) : Prop where
  incidents : ∀ id row, db.incidents.find? id = some row → db'.incidents.find? id = some row
  steps : db.steps <+: db'.steps

/-- The workspaces that a reply shows. -/
def IncidentReply.shown : IncidentReply → List IncidentWorkspace
  | .workspace w => [w]
  | .workspaces ws => ws
  | _ => []

section Growth

variable {sha256 : List UInt8 → List UInt8} {db db' : IncidentDb}

theorem IncidentDb.Extends.refl (db : IncidentDb) : db.Extends db :=
  ⟨fun _ _ h => h, List.prefix_refl _⟩

theorem IncidentDb.Extends.trans {db₂ : IncidentDb} (h : db.Extends db') (h' : db'.Extends db₂) :
    db.Extends db₂ :=
  ⟨fun id row hrow => h'.incidents id row (h.incidents id row hrow), h.steps.trans h'.steps⟩

theorem IncidentDb.Extends.stepsOf (h : db.Extends db') (id : String) : db.stepsOf id <+: db'.stepsOf id :=
  (h.steps.filter _).map _

/-- In the order of their numbers is in the order in which they were added. -/
theorem getIncidentSteps_eq (h : db.Numbered) (id : String) :
    db.getIncidentSteps id = db.stepsOf id := by
  refine List.mergeSort_of_pairwise ?_
  have hsorted : ((db.stepsOf id).map IncidentStep.stepNumber).Pairwise (· ≤ ·) := by
    rw [h id]
    exact List.pairwise_le_range' 1
  exact (List.pairwise_map.mp hsorted).imp fun hle => decide_eq_true hle

theorem extends_next (input : IncidentOp × IncidentEnv) :
    db.Extends (incidentNext sha256 input db).2 := by
  generalize hafter : (incidentNext sha256 input db).2 = db'
  have hchange := incidentNext_change sha256 input db
  rw [hafter] at hchange
  cases hchange with
  | untouched => exact .refl db
  | logged => exact ⟨fun _ _ h => h, List.prefix_refl _⟩
  | stepped => exact ⟨fun _ _ h => h, List.prefix_append _ _⟩
  | @created _ _ _ incidents inserted =>
    refine ⟨fun id row hrow => ?_, List.prefix_refl _⟩
    change incidents.find? id = some row
    rw [Table.find?_insert? inserted]
    split
    · rename_i hid
      -- The id of a new incident is free.
      have hnone : db.incidents.insert? _ = none := Table.insert?_eq_none.mpr (by
        rw [hid, hrow]
        exact Option.some_ne_none row)
      rw [inserted] at hnone
      cases hnone
    · exact hrow

theorem stepsOf_push (incidentId : String) (step : IncidentStep) (id : String) :
    IncidentDb.stepsOf { db with steps := db.steps ++ [⟨incidentId, step⟩] } id =
      db.stepsOf id ++ if incidentId = id then [step] else [] := by
  unfold IncidentDb.stepsOf
  dsimp only
  rw [List.filter_append, List.map_append]
  congr 1
  split
  · rename_i heq
    rw [List.filter_cons_of_pos (by simpa using heq)]
    rfl
  · rename_i hne
    rw [List.filter_cons_of_neg (by simpa using hne)]
    rfl

theorem numbered_next (h : db.Numbered) (input : IncidentOp × IncidentEnv) :
    (incidentNext sha256 input db).2.Numbered := by
  generalize hafter : (incidentNext sha256 input db).2 = db'
  have hchange := incidentNext_change sha256 input db
  rw [hafter] at hchange
  cases hchange with
  | untouched => exact h
  | logged => exact h
  | created => exact h
  | @stepped incidentId action result receiptId env row found audited =>
    intro id
    change (IncidentDb.stepsOf { db with steps := db.steps ++ [_] } id).map _ =
      List.range' 1 (IncidentDb.stepsOf { db with steps := db.steps ++ [_] } id).length
    rw [stepsOf_push, getIncidentSteps_eq h, List.map_append, List.length_append, h id]
    split
    · rename_i heq
      subst heq
      rw [List.map_singleton, List.length_singleton, List.range'_concat, Nat.one_mul, Nat.add_comm 1]
    · rw [List.map_nil, List.append_nil, List.length_nil, Nat.add_zero]

/-- The workspace is the one that the tables hold under its id. -/
def IncidentDb.Stored (db : IncidentDb) (w : IncidentWorkspace) : Prop :=
  ∃ row, db.incidents.find? w.id = some row ∧ w = rowToWorkspace row (db.getIncidentSteps w.id)

theorem stored_of_find {id : String} {row : IncidentRow} (h : db.incidents.find? id = some row) :
    db.Stored (rowToWorkspace row (db.getIncidentSteps id)) := by
  obtain rfl := Table.key_of_find? h
  exact ⟨row, h, rfl⟩

theorem stored_of_getIncident {findFails stepsFail : Bool} {id : String} {w : IncidentWorkspace}
    (h : db.getIncident findFails stepsFail id = .ok (some w)) : db.Stored w := by
  obtain ⟨row, hrow, rfl⟩ := getIncident_ok h
  exact stored_of_find hrow

theorem stored_of_readBack {env : IncidentEnv} {id : String} {w : IncidentWorkspace}
    (h : w ∈ (readBack env db id).shown) : db.Stored w := by
  unfold readBack at h
  split at h
  · rename_i hget
    obtain rfl := List.mem_singleton.mp h
    exact stored_of_getIncident hget
  · cases h

/-- What a reply shows is what the tables then hold. -/
theorem stored_of_shown {input : IncidentOp × IncidentEnv} {w : IncidentWorkspace}
    (h : w ∈ (incidentNext sha256 input db).1.shown) : (incidentNext sha256 input db).2.Stored w := by
  obtain ⟨op, env⟩ := input
  cases op with
  | other eventType actor payload => cases h
  | create id name =>
    change w ∈ (incidentCreateHandler sha256 env db id name).1.shown at h
    change (incidentCreateHandler sha256 env db id name).2.Stored w
    unfold incidentCreateHandler at h ⊢
    split at h
    · cases h
    · exact stored_of_readBack h
  | step incidentId action result receiptId =>
    change w ∈ (incidentStepHandler sha256 env db incidentId action result receiptId).1.shown at h
    change (incidentStepHandler sha256 env db incidentId action result receiptId).2.Stored w
    unfold incidentStepHandler at h ⊢
    split at h
    · cases h
    · cases h
    · dsimp only at h ⊢
      split at h
      · cases h
      · exact stored_of_readBack h
  | get incidentId =>
    change w ∈ (incidentGetHandler env db incidentId).shown at h
    unfold incidentGetHandler at h
    split at h
    · cases h
    · cases h
    · rename_i hget
      obtain rfl := List.mem_singleton.mp h
      exact stored_of_getIncident hget
  | list status =>
    change w ∈ (incidentsListHandler env db status).shown at h
    unfold incidentsListHandler IncidentDb.listIncidents at h
    dsimp only at h
    split at h
    · cases h
    · rename_i incidents hlist
      split at hlist
      · cases hlist
      · split at hlist
        · cases hlist
        · obtain rfl := Except.ok.inj hlist
          obtain ⟨row, hrow, rfl⟩ := List.mem_map.mp h
          have hmem : row ∈ db.incidents.rows :=
            (List.mem_filter.mp (List.mem_mergeSort.mp hrow)).1
          exact stored_of_find (Table.mem_rows_iff.mp hmem)

end Growth

section Runs

variable {sha256 : List UInt8 → List UInt8} {inputs : List (IncidentOp × IncidentEnv)}

theorem numbered_new : IncidentDb.new.Numbered := fun _ => rfl

theorem extends_final (inputs : List (IncidentOp × IncidentEnv)) (db : IncidentDb) :
    db.Extends (final (incidentNext sha256) inputs db) := by
  induction inputs generalizing db with
  | nil => exact .refl db
  | cons input inputs ih => exact (extends_next input).trans (ih _)

end Runs

/-! An incident is created, and a step added to it. -/

def quietEnv : IncidentEnv := ⟨"t", false, false, false, false, false, "t", {}⟩

def someRequests : List (IncidentOp × IncidentEnv) :=
  [(.create "i1" "disk full", quietEnv), (.step "i1" "look" "95%" none, quietEnv)]

/-- The id and the name that an `incident.create` event tells. -/
def readCreate (payload : List Char) : Option (String × String) :=
  (readLiteral "\x7b\"incident_id\":" payload).bind fun text =>
  (readString text).bind fun (incidentId, text) =>
  (readLiteral ",\"name\":" text).bind fun text =>
  (readString text).bind fun (name, text) =>
  if text = "\x7d".toList then some (String.ofList incidentId, String.ofList name) else none

/-- The incident, number, action and result that an `incident.step` event tells. -/
def readStep (payload : List Char) : Option (String × Nat × String × String) :=
  (readLiteral "\x7b\"action\":" payload).bind fun text =>
  (readString text).bind fun (action, text) =>
  (readLiteral ",\"incident_id\":" text).bind fun text =>
  (readString text).bind fun (incidentId, text) =>
  (readLiteral ",\"result\":" text).bind fun text =>
  (readString text).bind fun (result, text) =>
  (readLiteral ",\"step_number\":" text).bind fun text =>
  (readDecimal text).bind fun (stepNumber, text) =>
  if text = "\x7d".toList then
    some (String.ofList incidentId, stepNumber, String.ofList action, String.ofList result)
  else none

theorem readCreate_createPayload (incidentId name : String) :
    readCreate (createPayload incidentId name) = some (incidentId, name) := by
  unfold readCreate createPayload
  refine Option.bind_eq_some_iff.mpr ⟨_, readLiteral_append _ _, ?_⟩
  refine Option.bind_eq_some_iff.mpr ⟨_, readString_jsonString _ _, ?_⟩
  refine Option.bind_eq_some_iff.mpr ⟨_, readLiteral_append _ _, ?_⟩
  refine Option.bind_eq_some_iff.mpr ⟨_, readString_jsonString _ _, ?_⟩
  dsimp only
  rw [if_pos rfl, String.ofList_toList, String.ofList_toList]

theorem readStep_stepPayload (incidentId : String) (stepNumber : Nat) (action result : String) :
    readStep (stepPayload incidentId stepNumber action result) =
      some (incidentId, stepNumber, action, result) := by
  have hnumber : readDecimal (decimal stepNumber ++ "\x7d".toList) =
      some (stepNumber, "\x7d".toList) := readDecimal_decimal stepNumber (by decide) []
  unfold readStep stepPayload
  refine Option.bind_eq_some_iff.mpr ⟨_, readLiteral_append _ _, ?_⟩
  refine Option.bind_eq_some_iff.mpr ⟨_, readString_jsonString _ _, ?_⟩
  refine Option.bind_eq_some_iff.mpr ⟨_, readLiteral_append _ _, ?_⟩
  refine Option.bind_eq_some_iff.mpr ⟨_, readString_jsonString _ _, ?_⟩
  refine Option.bind_eq_some_iff.mpr ⟨_, readLiteral_append _ _, ?_⟩
  refine Option.bind_eq_some_iff.mpr ⟨_, readString_jsonString _ _, ?_⟩
  refine Option.bind_eq_some_iff.mpr ⟨_, readLiteral_append _ _, ?_⟩
  refine Option.bind_eq_some_iff.mpr ⟨_, hnumber, ?_⟩
  dsimp only
  rw [if_pos rfl, String.ofList_toList, String.ofList_toList, String.ofList_toList]

/-- The incidents and the steps that the ledger tells of. -/
def createdIn (events : List Event) : List (String × String) :=
  events.filterMap fun e =>
    if e.eventType = "incident.create" then readCreate e.payload.toList else none

def steppedIn (events : List Event) : List (String × Nat × String × String) :=
  events.filterMap fun e =>
    if e.eventType = "incident.step" then readStep e.payload.toList else none

/-- The ledger tells the two tables, but for the times and the receipts. -/
structure IncidentDb.Mirrored (db : IncidentDb) : Prop where
  created : createdIn db.ledger.events.rows = db.incidents.rows.map fun r => (r.id, r.name)
  stepped : steppedIn db.ledger.events.rows =
    db.steps.map fun r => (r.incidentId, r.step.stepNumber, r.step.action, r.step.result)

/-- The event of a change of the tables is appended. -/
def Logs (t : IncidentDbStep) : Prop :=
  ∀ call, auditCall t.input t.before = some call → ¬ Ledger.Aborts call t.before.ledger

section Mirror

variable {sha256 : List UInt8 → List UInt8} {db : IncidentDb} {input : IncidentOp × IncidentEnv}

theorem append_ok {call : Ledger.AppendCall} {l : Ledger} {e : Event}
    (h : (Ledger.append sha256 call l).1 = .ok e) :
    e.eventType = call.eventType ∧ e.payload = call.payload := by
  unfold Ledger.append at h
  dsimp only at h
  repeat' split at h
  all_goals cases h
  exact ⟨rfl, rfl⟩

/-- An append leaves the ledger as it was, or adds one event of its type and payload. -/
theorem append_adds (sha256 : List UInt8 → List UInt8) (call : Ledger.AppendCall) (l : Ledger) :
    (Ledger.Aborts call l ∧ (Ledger.append sha256 call l).2.events.rows = l.events.rows) ∨
      ¬ Ledger.Aborts call l ∧ ∃ e : Event, e.eventType = call.eventType ∧
        e.payload = call.payload ∧
        (Ledger.append sha256 call l).2.events.rows = l.events.rows ++ [e] := by
  obtain ⟨haborts, message, hsame⟩ | ⟨hcommits, e, hok, hrows, -⟩ := Ledger.append_cases sha256 call l
  · exact .inl ⟨haborts, by rw [hsame]⟩
  · obtain ⟨htype, hpayload⟩ := append_ok hok
    exact .inr ⟨hcommits, e, htype, hpayload, hrows⟩

theorem createdIn_concat (events : List Event) (e : Event) :
    createdIn (events ++ [e]) = createdIn events ++
      (if e.eventType = "incident.create" then readCreate e.payload.toList else none).toList := by
  rw [createdIn, List.filterMap_append, ← createdIn, List.filterMap_cons]
  split
  · rename_i h
    rw [h]
    rfl
  · rename_i h
    rw [h]
    rfl

theorem steppedIn_concat (events : List Event) (e : Event) :
    steppedIn (events ++ [e]) = steppedIn events ++
      (if e.eventType = "incident.step" then readStep e.payload.toList else none).toList := by
  rw [steppedIn, List.filterMap_append, ← steppedIn, List.filterMap_cons]
  split
  · rename_i h
    rw [h]
    rfl
  · rename_i h
    rw [h]
    rfl

section Event

variable {events : List Event} {e : Event}

theorem createdIn_of_ne (h : e.eventType ≠ "incident.create") :
    createdIn (events ++ [e]) = createdIn events := by
  rw [createdIn_concat, if_neg h]
  exact List.append_nil _

theorem steppedIn_of_ne (h : e.eventType ≠ "incident.step") :
    steppedIn (events ++ [e]) = steppedIn events := by
  rw [steppedIn_concat, if_neg h]
  exact List.append_nil _

theorem createdIn_create {incidentId name : String} (htype : e.eventType = "incident.create")
    (hpayload : e.payload = String.ofList (createPayload incidentId name)) :
    createdIn (events ++ [e]) = createdIn events ++ [(incidentId, name)] := by
  rw [createdIn_concat, if_pos htype, hpayload, String.toList_ofList, readCreate_createPayload]
  rfl

theorem steppedIn_step {incidentId action result : String} {stepNumber : Nat}
    (htype : e.eventType = "incident.step")
    (hpayload : e.payload = String.ofList (stepPayload incidentId stepNumber action result)) :
    steppedIn (events ++ [e]) = steppedIn events ++ [(incidentId, stepNumber, action, result)] := by
  rw [steppedIn_concat, if_pos htype, hpayload, String.toList_ofList, readStep_stepPayload]
  rfl

end Event

/-- A request that logs an event of its own changes neither list. -/
theorem mirrored_logged (h : db.Mirrored) {call : Ledger.AppendCall}
    (hother : call.eventType ∈ otherEventTypes) : (logEvent sha256 db call).Mirrored := by
  obtain ⟨-, hsame⟩ | ⟨-, e, htype, -, hrows⟩ := append_adds sha256 call db.ledger
  · exact ⟨(congrArg createdIn hsame).trans h.created, (congrArg steppedIn hsame).trans h.stepped⟩
  · rw [← htype] at hother
    refine ⟨(congrArg createdIn hrows).trans ?_, (congrArg steppedIn hrows).trans ?_⟩
    · refine (createdIn_of_ne fun heq => ?_).trans h.created
      rw [heq] at hother
      revert hother
      decide
    · refine (steppedIn_of_ne fun heq => ?_).trans h.stepped
      rw [heq] at hother
      revert hother
      decide

theorem mirrored_created_iff (h : db.Mirrored) {env : IncidentEnv} {id name : String}
    {incidents : Table IncidentRow.id}
    (hrow : incidents.rows = db.incidents.rows ++ [⟨id, name, "open", env.now, none⟩]) :
    (logEvent sha256 { db with incidents } (createCall env id name)).Mirrored ↔
      ¬ Ledger.Aborts (createCall env id name) db.ledger := by
  obtain ⟨haborts, hsame⟩ | ⟨hcommits, e, htype, hpayload, hrows⟩ := append_adds sha256
    (createCall env id name) db.ledger
  · refine iff_of_false (fun hmirrored => ?_) (not_not.mpr haborts)
    -- One row more than there are events.
    have hcreated : createdIn db.ledger.events.rows = incidents.rows.map fun r => (r.id, r.name) :=
      (congrArg createdIn hsame).symm.trans hmirrored.created
    rw [h.created, hrow, List.map_append] at hcreated
    exact absurd (congrArg List.length hcreated) (by simp)
  · have hother : e.eventType ≠ "incident.step" := by
      rw [show e.eventType = "incident.create" from htype]
      decide
    refine iff_of_true ⟨(congrArg createdIn hrows).trans ?_, (congrArg steppedIn hrows).trans ?_⟩
      hcommits
    · change _ = incidents.rows.map _
      rw [createdIn_create htype hpayload, h.created, hrow, List.map_append]
      rfl
    · exact (steppedIn_of_ne hother).trans h.stepped

theorem mirrored_stepped_iff (h : db.Mirrored) {env : IncidentEnv} {incidentId : String}
    {step : IncidentStep} :
    (logEvent sha256 { db with steps := db.steps ++ [⟨incidentId, step⟩] }
        (stepCall env incidentId step.stepNumber step.action step.result)).Mirrored ↔
      ¬ Ledger.Aborts (stepCall env incidentId step.stepNumber step.action step.result) db.ledger := by
  obtain ⟨haborts, hsame⟩ | ⟨hcommits, e, htype, hpayload, hrows⟩ := append_adds sha256
    (stepCall env incidentId step.stepNumber step.action step.result) db.ledger
  · refine iff_of_false (fun hmirrored => ?_) (not_not.mpr haborts)
    have hstepped := (congrArg steppedIn hsame).symm.trans hmirrored.stepped
    rw [h.stepped] at hstepped
    have hlength := congrArg List.length hstepped
    simp [logEvent] at hlength
  · have hother : e.eventType ≠ "incident.create" := by
      rw [show e.eventType = "incident.step" from htype]
      decide
    refine iff_of_true ⟨(congrArg createdIn hrows).trans ?_, (congrArg steppedIn hrows).trans ?_⟩
      hcommits
    · exact (createdIn_of_ne hother).trans h.created
    · change _ = List.map _ (db.steps ++ [_])
      rw [steppedIn_step htype hpayload, h.stepped, List.map_append]
      rfl

/-- Of a mirrored database, a step leaves a mirrored one exactly when the event of its change is
appended. -/
theorem mirrored_next_iff (h : db.Mirrored) :
    (incidentNext sha256 input db).2.Mirrored ↔ Logs (stepOf (incidentNext sha256) input db) := by
  have hone : ∀ call, auditCall input db = some call →
      (Logs (stepOf (incidentNext sha256) input db) ↔ ¬ Ledger.Aborts call db.ledger) := by
    intro call hcall
    constructor
    · exact fun hlogs => hlogs call hcall
    · intro hcommits call' hcall'
      obtain rfl := Option.some.inj (hcall.symm.trans hcall')
      exact hcommits
  have hnone : auditCall input db = none → Logs (stepOf (incidentNext sha256) input db) := by
    intro hsilent call hcall
    cases hsilent.symm.trans hcall
  have hchange := incidentNext_change sha256 input db
  generalize (incidentNext sha256 input db).2 = db' at hchange ⊢
  cases hchange with
  | untouched silent => exact iff_of_true h (hnone silent)
  | @logged eventType => exact iff_of_true (mirrored_logged h eventType.property) (hnone rfl)
  | created inserted audited =>
    exact (mirrored_created_iff h (Table.rows_insert? inserted)).trans (hone _ audited).symm
  | stepped found audited => exact (mirrored_stepped_iff h).trans (hone _ audited).symm

/-- **The ledger mirrors the incidents.** In every run from a new database, whatever requests
come in and whatever statements fail, the ledger tells all incidents and steps of the two tables in
every state if and only if the event of every change of them was appended. -/
theorem ledger_mirrors_iff (inputs : List (IncidentOp × IncidentEnv)) :
    (∀ t ∈ trace (incidentNext sha256) inputs .new, t.after.Mirrored) ↔
      ∀ t ∈ trace (incidentNext sha256) inputs .new, Logs t :=
  all_good_iff (fun _ _ h => mirrored_next_iff h) (fun _ _ _ hgood => hgood) inputs
    ⟨rfl, rfl⟩

end Mirror

end OsModa.Agentd
