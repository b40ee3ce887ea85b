import OsModa.Base.Js
import OsModa.Agentd.Approval

/-!
The HTTP handlers that clients of the approval gate talk to: `POST /approval/check`
and `POST /approval/request`.

axum reads the body before it calls a handler: a body over the limit, or one that is
not the JSON of the request, is answered with a text. A handler that panics drops the
connection. An entry that a handler appends to the ledger is part of its result; the
append itself may fail and the handlers ignore that.
-/

namespace OsModa.Agentd

open OsModa.Text OsModa.Js

/-- What a client receives. -/
inductive HttpReply where
  /-- The connection ends without a response. -/
  | dropped
  /-- A body that is not JSON. -/
  | text (status : Nat) (body : String)
  | json (status : Nat) (body : Json)

/-- An answer with an error status. -/
def HttpReply.IsError : HttpReply → Prop
  | dropped => False
  | text status _ | json status _ => 400 ≤ status

structure AuditEntry where
  eventType : String
  actor : String
  payload : Json

/-- `DefaultBodyLimit::max(1024 * 1024)`. -/
def bodyLimit : Nat := 1024 * 1024

/-- The `Json` extractor in front of a handler; `request` is `none` when the body is
not the JSON of a request. -/
def extractJson {α : Type} (bodyLength : Nat) (request : Option α) (handler : α → HttpReply) :
    HttpReply :=
  if bodyLength > bodyLimit then .text 413 "Failed to buffer the request body: length limit exceeded"
  else match request with
    | none => .text 400 "Failed to parse the request body as JSON"
    | some request => handler request

def errorBody (message : String) : Json := .obj [("error", .str message)]

def optionalStr : Option String → Json
  | none => .null
  | some s => .str s

section Handlers

variable (u : Unicode)

/-! ### POST /approval/check -/

structure ApprovalCheckRequest where
  /-- The exact command/operation about to be executed. -/
  command : String
  approvalId : Option String

structure ApprovalCheckResponse where
  allow : Bool
  isDestructive : Bool
  reason : Option String

def ApprovalCheckResponse.toJson (r : ApprovalCheckResponse) : Json :=
  .obj [("allow", .bool r.allow), ("is_destructive", .bool r.isDestructive),
    ("reason", optionalStr r.reason)]

/-- The runtime-block gate. Only destructive decisions are audited. -/
def approvalCheckCommandHandler (gate : Option ApprovalGate) (req : ApprovalCheckRequest) :
    HttpReply × List AuditEntry :=
  match gate with
  | none => (.json 503 (errorBody "approval gate not enabled"), [])
  | some gate =>
    let isDestructive := Agentd.isDestructive u gate.extraPatterns req.command
    let respond (allow : Bool) (reason : Option String) : HttpReply × List AuditEntry :=
      (.json 200 (ApprovalCheckResponse.toJson ⟨allow, isDestructive, reason⟩),
        if isDestructive then
          [⟨"approval.check", "agent", .obj [("command", .str req.command), ("allow", .bool allow),
            ("approval_id", optionalStr req.approvalId), ("reason", optionalStr reason)]⟩]
        else [])
    match gate.checkAndReject u req.command req.approvalId with
    | .panic => (.dropped, [])
    | .ok () => respond true none
    | .err e => respond false (some e)

/-! ### POST /approval/request -/

structure ApprovalRequest where
  command : String
  actor : Option String
  reason : String
  ttlSecs : Option Int64

structure ApprovalResponse where
  id : String
  command : String
  actor : String
  reason : String
  status : String
  createdAt : String
  expiresAt : String
  decidedAt : Option String
  decidedBy : Option String
  isDestructive : Bool

def ApprovalResponse.toJson (r : ApprovalResponse) : Json :=
  .obj [("id", .str r.id), ("command", .str r.command), ("actor", .str r.actor),
    ("reason", .str r.reason), ("status", .str r.status), ("created_at", .str r.createdAt),
    ("expires_at", .str r.expiresAt), ("decided_at", optionalStr r.decidedAt),
    ("decided_by", optionalStr r.decidedBy), ("is_destructive", .bool r.isDestructive)]

def ApprovalResponse.ofPending (a : PendingApproval) : ApprovalResponse :=
  ⟨a.id, a.command, a.actor, a.reason, a.status.text, a.createdAt, a.expiresAt, a.decidedAt,
    a.decidedBy, true⟩

/-- `request_approval` on a database whose INSERT may fail: a request that would
succeed then fails and stores nothing. -/
def requestApprovalOn (insertWorks : Bool) (gate : ApprovalGate) (now : DateTime)
    (id command actor reason : String) (ttlSecs : Option Int64) :
    Outcome PendingApproval × ApprovalGate :=
  match insertWorks, gate.requestApproval now id command actor reason ttlSecs with
  | false, (.ok _, _) => (.err "failed to insert pending approval", gate)
  | _, result => result

/-- Request approval for a destructive operation. What is not destructive is
approved at once and not stored. -/
def approvalRequestHandler (gate : Option ApprovalGate) (now : DateTime) (id : String)
    (insertWorks : Bool) (req : ApprovalRequest) :
    HttpReply × Option ApprovalGate × List AuditEntry :=
  match gate with
  | none => (.json 503 (errorBody "approval gate not enabled"), none, [])
  | some gate =>
    let actor := req.actor.getD "agent"
    if !isDestructive u gate.extraPatterns req.command then
      (.json 200 (ApprovalResponse.toJson ⟨"", req.command, actor, req.reason, "auto_approved",
        now.toRfc3339, "", some now.toRfc3339, some "system", false⟩), some gate, [])
    else
      match requestApprovalOn insertWorks gate now id req.command actor req.reason req.ttlSecs with
      | (.ok approval, gate') =>
        (.json 201 (ApprovalResponse.ofPending approval).toJson, some gate',
          [⟨"approval.requested", actor, .obj [("approval_id", .str approval.id),
            ("command", .str approval.command), ("reason", .str approval.reason)]⟩])
      | (.err e, gate') => (.json 500 (errorBody e), some gate', [])
      | (.panic, gate') => (.dropped, some gate', [])

end Handlers

/-- The command, when it is a text, is destructive for the gate. -/
def DestructiveFor (u : Unicode) (gate : ApprovalGate) (command : JsString) : Prop :=
  ∃ s, decode? command = some s ∧ isDestructive u gate.extraPatterns (String.ofList s) = true

/-! ### What the replies say -/

section Replies

/-- Without an approval id, the gate lets a command through exactly when it is not
destructive, and panics exactly when it cannot shorten a destructive one. -/
theorem checkAndReject_none (u : Unicode) (gate : ApprovalGate) (command : String) :
    gate.checkAndReject u command none =
      if isDestructive u gate.extraPatterns command then
        match truncate command 200 with
        | none => .panic
        | some shown => .err ("destructive operation blocked by ApprovalGate: '" ++ shown ++
            "' — request approval via POST /approval/request first")
      else .ok () := by
  unfold ApprovalGate.checkAndReject
  cases isDestructive u gate.extraPatterns command with
  | false => rfl
  | true => cases truncate command 200 <;> rfl

/-- The reply to a check without an approval id. -/
theorem approvalCheck_none (u : Unicode) (gate : ApprovalGate) (command : String) :
    (approvalCheckCommandHandler u (some gate) ⟨command, none⟩).1 =
      if isDestructive u gate.extraPatterns command then
        match truncate command 200 with
        | none => .dropped
        | some shown => .json 200 (ApprovalCheckResponse.toJson ⟨false, true,
            some ("destructive operation blocked by ApprovalGate: '" ++ shown ++
              "' — request approval via POST /approval/request first")⟩)
      else .json 200 (ApprovalCheckResponse.toJson ⟨true, false, none⟩) := by
  unfold approvalCheckCommandHandler
  simp only [checkAndReject_none]
  cases hd : isDestructive u gate.extraPatterns command with
  | false => simp
  | true => cases truncate command 200 <;> simp

/-! A request of an actor and for a reason within the limits, with the default time. -/

variable {gate : ApprovalGate} {now : DateTime} {insertWorks : Bool}
variable {id command actor reason : String}

/-- The request panics: on a poisoned lock, or where the expiry is out of range. -/
def RequestPanics (gate : ApprovalGate) (now : DateTime) : Prop :=
  gate.poisoned = true ∨ now.addSeconds defaultTtlSecs.toInt = none

theorem requestApprovalOn_of_long (hlong : 4096 < byteLen command.toList) :
    requestApprovalOn insertWorks gate now id command actor reason none =
      (.err "command too long (max 4096 bytes)", gate) := by
  have hreq : gate.requestApproval now id command actor reason none =
      (.err "command too long (max 4096 bytes)", gate) := by
    unfold ApprovalGate.requestApproval
    rw [if_pos hlong]
  unfold requestApprovalOn
  rw [hreq]
  cases insertWorks <;> rfl

section WithinLimits

variable (hcommand : byteLen command.toList ≤ 4096) (hactor : byteLen actor.toList ≤ 256)
  (hreason : byteLen reason.toList ≤ 1024)

include hcommand hactor hreason

theorem requestApproval_eq {ttlSecs : Option Int64} :
    gate.requestApproval now id command actor reason ttlSecs =
      gate.withConn (match ApprovalGate.newRow now id command actor reason ttlSecs with
        | none => (.panic, { gate with poisoned := true })
        | some row =>
          match gate.rows.insert? row with
          | none => (.err "failed to insert pending approval", gate)
          | some rows => (.ok row, { gate with rows := rows })) := by
  unfold ApprovalGate.requestApproval
  rw [if_neg (Nat.not_lt.mpr hcommand), if_neg (Nat.not_lt.mpr hactor)]
  exact if_neg (Nat.not_lt.mpr hreason)

/-- With an expiry in range, all that can fail is that the identifier is taken. -/
theorem requestApproval_of_row {ttlSecs : Option Int64} {row : PendingApproval}
    (hpoisoned : gate.poisoned = false)
    (hrow : ApprovalGate.newRow now id command actor reason ttlSecs = some row) :
    gate.requestApproval now id command actor reason ttlSecs =
      match gate.rows.insert? row with
      | none => (.err "failed to insert pending approval", gate)
      | some rows => (.ok row, { gate with rows := rows }) := by
  rw [requestApproval_eq hcommand hactor hreason, ApprovalGate.withConn_of_not_poisoned hpoisoned,
    hrow]

theorem requestApprovalOn_of_panics (h : RequestPanics gate now) :
    (requestApprovalOn insertWorks gate now id command actor reason none).1 = .panic := by
  have hreq : (gate.requestApproval now id command actor reason none).1 = .panic := by
    rw [requestApproval_eq hcommand hactor hreason]
    unfold ApprovalGate.withConn
    obtain hpoisoned | hexpiry := h
    · simp [hpoisoned]
    · have hrow : ApprovalGate.newRow now id command actor reason none = none := by
        simp [ApprovalGate.newRow, hexpiry]
      rw [hrow]
      split <;> rfl
  unfold requestApprovalOn
  split
  · rename_i hok
    rw [hok] at hreq
    cases hreq
  · exact hreq

/-- Where it does not panic, the request is stored just when the database can insert
and the identifier is not taken. -/
theorem requestApprovalOn_of_not_panics (h : ¬ RequestPanics gate now) :
    if insertWorks = true ∧ gate.rows.find? id = none then
      ∃ row gate', requestApprovalOn insertWorks gate now id command actor reason none =
        (.ok row, gate') ∧ row.status = .pending
    else ∃ e, requestApprovalOn insertWorks gate now id command actor reason none =
      (.err e, gate) := by
  obtain ⟨hpoisoned, hexpiry⟩ := not_or.mp h
  obtain ⟨expiry, hexpiry⟩ := Option.ne_none_iff_exists'.mp hexpiry
  have hrow : ApprovalGate.newRow now id command actor reason none = some
      ⟨id, command, actor, reason, now.toRfc3339, expiry.toRfc3339, .pending, none, none⟩ := by
    simp [ApprovalGate.newRow, hexpiry]
  have hreq := requestApproval_of_row hcommand hactor hreason
    (Bool.eq_false_of_not_eq_true hpoisoned) hrow
  unfold requestApprovalOn
  cases hins : gate.rows.insert? ⟨id, command, actor, reason, now.toRfc3339, expiry.toRfc3339,
      .pending, none, none⟩ with
  | none =>
    have htaken := Table.insert?_eq_none.mp hins
    rw [if_neg fun hfresh => htaken hfresh.2]
    rw [hreq, hins]
    refine ⟨"failed to insert pending approval", ?_⟩
    cases insertWorks <;> rfl
  | some rows =>
    have hfresh : gate.rows.find? id = none := by
      by_contra htaken
      rw [Table.insert?_eq_none.mpr htaken] at hins
      cases hins
    rw [hreq, hins]
    cases insertWorks with
    | true =>
      rw [if_pos ⟨rfl, hfresh⟩]
      exact ⟨_, _, rfl, rfl⟩
    | false =>
      rw [if_neg fun hworks => Bool.noConfusion hworks.1]
      exact ⟨_, rfl⟩

end WithinLimits

end Replies

end OsModa.Agentd
