import OsModa.Base.Outcome
import OsModa.Base.Table
import OsModa.Base.Text
import OsModa.Base.Time

/-!
agentd's approval gate: which commands are destructive, and the table of
approvals that lets a destructive command run.

The gate is a table of `PendingApproval` rows with the id as primary key, behind
a mutex. A panic while the mutex is held poisons it, and every later operation
that locks it panics too. Each operation is given the reading of the clock that
it takes; `request_approval` is also given the id that it draws.
-/

namespace OsModa.Agentd

open OsModa.Text

/-! ### Destructive commands -/

/-- Commands that are always considered destructive, regardless of configuration. -/
def dangerousCommands : List String :=
  ["rm -rf", "mkfs", "dd if=", "wipefs", "fdisk", "parted", "sgdisk", "shred", "> /dev/sd",
   "nix-collect-garbage", "nixos-rebuild", "systemctl disable", "systemctl mask",
   "systemctl stop", "userdel", "groupdel", "passwd", "chown -R", "chmod -R", "iptables -F",
   "nft flush", "reboot", "shutdown", "poweroff", "halt", "kill -9", "pkill", "killall",
   "drop database", "drop table", "drop schema", "truncate table", "0.0.0.0", "::0:0:0:0"]

/-- Operations that require approval. -/
def dangerousOperations : List String :=
  ["nix.rebuild", "system.user.create", "system.user.delete", "system.firewall.modify",
   "system.disk.format", "system.reboot", "system.shutdown", "wallet.send", "wallet.create",
   "switch.begin"]

/-- The pipe-to-shell patterns. -/
def pipeToShell : List String :=
  ["| sh", "| bash", "|sh", "|bash", "| /bin/sh", "| /bin/bash"]

section Detection

variable (u : Unicode)

/-- Lowercase, strip backslashes and quotes, collapse whitespace. -/
def normalizeCommand (cmd : String) : List Char :=
  let s := toLowercase u cmd.toList
  let s := s.filter (· ≠ '\\')
  let s := s.filter (· ≠ '\'')
  let s := s.filter (· ≠ '"')
  joinWords u s

def isDestructive (extraPatterns : List String) (command : String) : Bool :=
  let normalized := normalizeCommand u command
  let lower := toLowercase u command.toList
  dangerousCommands.any (fun pattern => contains normalized pattern.toList) ||
  dangerousOperations.any (fun op => lower = op.toList || (op ++ ".").toList.isPrefixOf lower) ||
  extraPatterns.any (fun pattern =>
    let p := toLowercase u pattern.toList
    contains normalized p || lower = p) ||
  pipeToShell.any (fun pattern => contains normalized pattern.toList)

end Detection

/-! ### Rows -/

inductive ApprovalStatus where
  | pending
  | approved
  | denied
  | expired
  deriving DecidableEq, Repr

namespace ApprovalStatus

/-- The text of the `status` column, and of `Display`. -/
def text : ApprovalStatus → String
  | pending => "pending"
  | approved => "approved"
  | denied => "denied"
  | expired => "expired"

/-- `parse_status`: a text that is none of the four reads as pending. -/
def parse (s : String) : ApprovalStatus :=
  if s = "approved" then approved
  else if s = "denied" then denied
  else if s = "expired" then expired
  else pending

/-- Reading the column back gives the status that was written. The rows below
therefore hold the status itself. -/
@[simp] theorem parse_text (s : ApprovalStatus) : parse s.text = s := by
  cases s <;> decide

theorem text_injective {s t : ApprovalStatus} (h : s.text = t.text) : s = t := by
  rw [← parse_text s, h, parse_text]

end ApprovalStatus

structure PendingApproval where
  id : String
  command : String
  actor : String
  reason : String
  createdAt : String
  expiresAt : String
  status : ApprovalStatus
  decidedAt : Option String
  decidedBy : Option String
  deriving DecidableEq, Repr

/-- The table `pending_approvals`. -/
abbrev Approvals := Table PendingApproval.id

structure ApprovalGate where
  rows : Approvals
  /-- A thread panicked while it held the connection. -/
  poisoned : Bool
  /-- Additional patterns from NixOS config that are considered destructive. -/
  extraPatterns : List String

/-- `ApprovalGate::new` on a new database file. -/
def ApprovalGate.new (extraPatterns : List String) : ApprovalGate :=
  ⟨Table.empty, false, extraPatterns⟩

/-- Default approval TTL: 10 minutes. -/
def defaultTtlSecs : Int64 := 600

/-- `truncate`; `none` where the slice panics. -/
def truncate (s : String) (max : Nat) : Option String :=
  if byteLen s.toList ≤ max then some s
  else (sliceTo s.toList max).map fun part => String.ofList part ++ "…"

namespace ApprovalGate

/-- Run an operation on the locked connection. -/
def withConn {α : Type} (g : ApprovalGate) (op : Outcome α × ApprovalGate) :
    Outcome α × ApprovalGate :=
  if g.poisoned then (.panic, g) else op

/-! ### Operations -/

/-- The row that a request inserts; `none` when the expiry time is out of range,
where chrono panics. -/
def newRow (now : DateTime) (id command actor reason : String) (ttlSecs : Option Int64) :
    Option PendingApproval :=
  (now.addSeconds (ttlSecs.getD defaultTtlSecs).toInt).map fun expiry =>
    ⟨id, command, actor, reason, now.toRfc3339, expiry.toRfc3339, .pending, none, none⟩

/-- Request approval for a destructive operation. -/
def requestApproval (g : ApprovalGate) (now : DateTime) (id command actor reason : String)
    (ttlSecs : Option Int64) : Outcome PendingApproval × ApprovalGate :=
  if byteLen command.toList > 4096 then (.err "command too long (max 4096 bytes)", g)
  else if byteLen actor.toList > 256 then (.err "actor too long (max 256 bytes)", g)
  else if byteLen reason.toList > 1024 then (.err "reason too long (max 1024 bytes)", g)
  else g.withConn <|
    match newRow now id command actor reason ttlSecs with
    | none => (.panic, { g with poisoned := true })
    | some row =>
      match g.rows.insert? row with
      | none => (.err "failed to insert pending approval", g)
      | some rows => (.ok row, { g with rows := rows })

/-- Check the status of an approval request. -/
def checkApproval (g : ApprovalGate) (id : String) : Outcome (Option PendingApproval) :=
  if g.poisoned then .panic else .ok (g.rows.find? id)

/-- What a decision writes into a row. -/
def decideRow (now : DateTime) (status : ApprovalStatus) (decidedBy : String)
    (row : PendingApproval) : PendingApproval :=
  { row with status := status, decidedAt := some now.toRfc3339, decidedBy := some decidedBy }

@[simp] theorem decideRow_id (now : DateTime) (status : ApprovalStatus) (decidedBy : String)
    (row : PendingApproval) : (decideRow now status decidedBy row).id = row.id := rfl

@[simp] theorem decideRow_status (now : DateTime) (status : ApprovalStatus) (decidedBy : String)
    (row : PendingApproval) : (decideRow now status decidedBy row).status = status := rfl

/-- `WHERE id = ?3 AND status = 'pending'`. -/
def isPendingAt (id : String) (row : PendingApproval) : Bool :=
  row.id = id && row.status = .pending

/-- The update of a decision, the check of its row count, and the query that
reads the row back. -/
def decideAs (status : ApprovalStatus) (g : ApprovalGate) (now : DateTime)
    (id decidedBy : String) : Outcome PendingApproval × ApprovalGate :=
  g.withConn <|
    let rows := g.rows.updateWhere (isPendingAt id) (decideRow now status decidedBy)
      (decideRow_id now status decidedBy)
    if g.rows.countWhere (isPendingAt id) = 0 then
      (.err ("approval " ++ id ++ " not found or not in pending state"), g)
    else
      match rows.find? id with
      | none => (.err "Query returned no rows", { g with rows := rows })
      | some row => (.ok row, { g with rows := rows })

/-- Approve a pending request. -/
def approve := decideAs .approved

/-- Deny a pending request. -/
def deny := decideAs .denied

/-- List pending approvals, newest first. -/
def listPending (g : ApprovalGate) : Outcome (List PendingApproval) :=
  if g.poisoned then .panic
  else .ok ((g.rows.rows.filter fun row => row.status = .pending).mergeSort
    fun a b => decide (b.createdAt ≤ a.createdAt))

/-- `WHERE status = 'pending' AND expires_at < ?1`, a comparison of texts. -/
def isStale (now : DateTime) (row : PendingApproval) : Bool :=
  row.status = .pending && row.expiresAt < now.toRfc3339

def expireRow (row : PendingApproval) : PendingApproval := { row with status := .expired }

@[simp] theorem expireRow_id (row : PendingApproval) : (expireRow row).id = row.id := rfl

/-- Expire all pending approvals that have passed their expiry time. -/
def expireStale (g : ApprovalGate) (now : DateTime) : Outcome Nat × ApprovalGate :=
  g.withConn
    (.ok (g.rows.countWhere (isStale now)),
      { g with rows := g.rows.updateWhere (isStale now) expireRow expireRow_id })

/-- The runtime gate: `ok` when the command is not destructive or the approval
authorizes it. -/
def checkAndReject (u : Unicode) (g : ApprovalGate) (command : String)
    (approvalId : Option String) : Outcome Unit :=
  if !isDestructive u g.extraPatterns command then .ok ()
  else match approvalId.filter (· ≠ "") with
    | none =>
      match truncate command 200 with
      | none => .panic
      | some shown =>
        .err ("destructive operation blocked by ApprovalGate: '" ++ shown ++
          "' — request approval via POST /approval/request first")
    | some id =>
      match g.checkApproval id with
      | .panic => .panic
      | .err e => .err e
      | .ok none => .err ("approval id '" ++ id ++ "' not found")
      | .ok (some pending) =>
        if pending.status ≠ .approved then
          .err ("destructive operation blocked: approval '" ++ id ++ "' is " ++
            pending.status.text ++ " (must be Approved)")
        else if pending.command ≠ command then
          .err ("destructive operation blocked: approval '" ++ id ++
            "' was issued for a different command")
        else .ok ()

/-! ### What each operation does to the row of an id -/

variable {g : ApprovalGate} {now : DateTime} {id decidedBy k : String}
  {row : PendingApproval} {status : ApprovalStatus}

@[simp] theorem withConn_of_poisoned {α : Type} (hp : g.poisoned = true)
    (op : Outcome α × ApprovalGate) : g.withConn op = (.panic, g) := by
  simp [withConn, hp]

@[simp] theorem withConn_of_not_poisoned {α : Type} (hp : g.poisoned = false)
    (op : Outcome α × ApprovalGate) : g.withConn op = op := by
  simp [withConn, hp]

/-- A decision about a pending row writes that row and no other. -/
theorem decideAs_of_pending (hp : g.poisoned = false) (hrow : g.rows.find? id = some row)
    (hpending : row.status = .pending) :
    (decideAs status g now id decidedBy).1 = .ok (decideRow now status decidedBy row) ∧
      ∀ k, (decideAs status g now id decidedBy).2.rows.find? k =
        if k = id then some (decideRow now status decidedBy row) else g.rows.find? k := by
  have hid : row.id = id := Table.key_of_find? hrow
  have hcount : g.rows.countWhere (isPendingAt id) ≠ 0 := by
    unfold isPendingAt
    rw [Ne, Table.countWhere_key_eq_zero]
    intro hnone
    simpa [hpending] using hnone row hrow
  have hlook : ∀ k, (g.rows.updateWhere (isPendingAt id) (decideRow now status decidedBy)
      (decideRow_id now status decidedBy)).find? k =
        if k = id then some (decideRow now status decidedBy row) else g.rows.find? k := by
    intro k
    rw [Table.find?_updateWhere]
    by_cases hk : k = id
    · rw [if_pos hk, hk, hrow]
      simp [isPendingAt, hid, hpending]
    · rw [if_neg hk]
      cases hfind : g.rows.find? k with
      | none => rfl
      | some r =>
        have hr : r.id ≠ id := fun h => hk (Table.key_of_find? hfind ▸ h)
        simp [isPendingAt, hr]
  have hself := hlook id
  rw [if_pos rfl] at hself
  unfold decideAs
  rw [withConn_of_not_poisoned hp]
  simp only [if_neg hcount, hself]
  exact ⟨trivial, hlook⟩

/-- Without a pending row of that id a decision is refused and writes nothing. -/
theorem decideAs_of_not_pending (hp : g.poisoned = false)
    (hrow : ∀ row, g.rows.find? id = some row → row.status ≠ .pending) :
    decideAs status g now id decidedBy =
      (.err ("approval " ++ id ++ " not found or not in pending state"), g) := by
  have hcount : g.rows.countWhere (isPendingAt id) = 0 := by
    unfold isPendingAt
    rw [Table.countWhere_key_eq_zero]
    intro r hr
    simpa using hrow r hr
  unfold decideAs
  rw [withConn_of_not_poisoned hp]
  simp only [if_pos hcount]

/-- A decision about `id`, seen from any row: it writes the row when that is
pending and has this id. -/
theorem find?_decideAs_of_some (hp : g.poisoned = false) (hrow : g.rows.find? row.id = some row) :
    (decideAs status g now id decidedBy).2.rows.find? row.id =
      some (if row.status = .pending then
        (if row.id = id then decideRow now status decidedBy row else row) else row) := by
  by_cases hpending : ∃ r, g.rows.find? id = some r ∧ r.status = .pending
  · obtain ⟨r, hr, hst⟩ := hpending
    rw [(decideAs_of_pending hp hr hst).2]
    by_cases hid : row.id = id
    · obtain rfl : row = r := Option.some.inj (by rw [← hrow, hid, hr])
      simp [hid, hst]
    · simp [hid, hrow]
  · have hnot : ∀ r, g.rows.find? id = some r → r.status ≠ .pending :=
      fun r hr hst => hpending ⟨r, hr, hst⟩
    rw [decideAs_of_not_pending hp hnot, hrow]
    by_cases hid : row.id = id
    · simp [hnot row (hid ▸ hrow)]
    · simp [hid]

/-- A decision creates no row. -/
theorem find?_decideAs_of_none (hp : g.poisoned = false) (hnone : g.rows.find? k = none) :
    (decideAs status g now id decidedBy).2.rows.find? k = none := by
  by_cases hpending : ∃ r, g.rows.find? id = some r ∧ r.status = .pending
  · obtain ⟨r, hr, hst⟩ := hpending
    have hk : k ≠ id := by
      rintro rfl
      rw [hr] at hnone
      cases hnone
    rw [(decideAs_of_pending hp hr hst).2, if_neg hk, hnone]
  · rw [decideAs_of_not_pending hp fun r hr hst => hpending ⟨r, hr, hst⟩, hnone]

/-- The sweep moves a pending row to expired when its expiry text is smaller
than the text of the time, and touches no other row. -/
theorem find?_expireStale (hp : g.poisoned = false) :
    (expireStale g now).2.rows.find? k =
      (g.rows.find? k).map fun row => if isStale now row then expireRow row else row := by
  unfold expireStale
  rw [withConn_of_not_poisoned hp, Table.find?_updateWhere]

/-- A request that succeeds stores the row it returns, under an id that was free. -/
theorem requestApproval_of_ok {command actor reason : String} {ttl : Option Int64}
    (h : (requestApproval g now id command actor reason ttl).1 = .ok row) :
    g.poisoned = false ∧ newRow now id command actor reason ttl = some row ∧
      g.rows.find? row.id = none ∧
      (requestApproval g now id command actor reason ttl).2.poisoned = false ∧
      ∀ k, (requestApproval g now id command actor reason ttl).2.rows.find? k =
        if row.id = k then some row else g.rows.find? k := by
  cases hp : g.poisoned with
  | true => unfold requestApproval at h; split_ifs at h; simp [hp] at h
  | false =>
    unfold requestApproval at h ⊢
    split_ifs at h ⊢ with h1 h2 h3
    rw [withConn_of_not_poisoned hp] at h ⊢
    cases hnew : newRow now id command actor reason ttl with
    | none => simp [hnew] at h
    | some r =>
      cases hins : g.rows.insert? r with
      | none => simp [hnew, hins] at h
      | some rows =>
        obtain rfl : r = row := by simpa [hnew, hins] using h
        simp only [hins]
        refine ⟨trivial, trivial, ?_, hp, Table.find?_insert? hins⟩
        by_contra hne
        rw [Table.insert?_eq_none.mpr hne] at hins
        cases hins

/-- A request that does not succeed leaves the rows alone. -/
theorem requestApproval_rows_of_not_ok {command actor reason : String} {ttl : Option Int64}
    (h : ¬ (requestApproval g now id command actor reason ttl).1.IsOk) :
    (requestApproval g now id command actor reason ttl).2.rows = g.rows := by
  unfold requestApproval withConn at h ⊢
  split_ifs at h ⊢ <;> try rfl
  cases hnew : newRow now id command actor reason ttl with
  | none => rfl
  | some r =>
    cases hins : g.rows.insert? r with
    | none => simp only [hins]
    | some rows => simp [hnew, hins] at h

/-! Only a request poisons the gate, and none of the operations changes the
configured patterns. -/

theorem requestApproval_poisoned {command actor reason : String} {ttl : Option Int64} :
    (requestApproval g now id command actor reason ttl).2.poisoned =
      (g.poisoned || (byteLen command.toList ≤ 4096 && byteLen actor.toList ≤ 256 &&
        byteLen reason.toList ≤ 1024 && (newRow now id command actor reason ttl).isNone)) := by
  unfold requestApproval withConn
  split_ifs with h1 h2 h3 hp
  · simp [Nat.not_le.mpr h1]
  · simp [Nat.not_le.mpr h2]
  · simp [Nat.not_le.mpr h3]
  · simp [hp]
  · have hlen : byteLen command.toList ≤ 4096 ∧ byteLen actor.toList ≤ 256 ∧
        byteLen reason.toList ≤ 1024 := by omega
    cases hnew : newRow now id command actor reason ttl with
    | none => simp [hlen]
    | some r => cases hins : g.rows.insert? r <;> simp [hins]

theorem requestApproval_extraPatterns {command actor reason : String} {ttl : Option Int64} :
    (requestApproval g now id command actor reason ttl).2.extraPatterns = g.extraPatterns := by
  unfold requestApproval withConn
  split_ifs <;> try rfl
  cases newRow now id command actor reason ttl with
  | none => rfl
  | some r => cases hins : g.rows.insert? r <;> simp [hins]

/-- A decision changes no more than rows. -/
theorem decideAs_changes : ∃ rows, (decideAs status g now id decidedBy).2 = { g with rows } := by
  unfold decideAs withConn
  split_ifs with hp
  · exact ⟨_, rfl⟩
  · exact ⟨_, rfl⟩
  · dsimp only
    split <;> exact ⟨_, rfl⟩

theorem decideAs_poisoned : (decideAs status g now id decidedBy).2.poisoned = g.poisoned := by
  obtain ⟨rows, hgate⟩ := decideAs_changes (g := g)
  rw [hgate]

theorem decideAs_extraPatterns :
    (decideAs status g now id decidedBy).2.extraPatterns = g.extraPatterns := by
  obtain ⟨rows, hgate⟩ := decideAs_changes (g := g)
  rw [hgate]

theorem expireStale_poisoned : (expireStale g now).2.poisoned = g.poisoned := by
  unfold expireStale withConn
  split_ifs <;> rfl

theorem expireStale_extraPatterns : (expireStale g now).2.extraPatterns = g.extraPatterns := by
  unfold expireStale withConn
  split_ifs <;> rfl

/-- The gate lets a destructive command through exactly when the id names an
approved row with that very command. -/
theorem checkAndReject_ok_iff (u : Unicode) {command : String} {approvalId : Option String}
    (hd : isDestructive u g.extraPatterns command = true) :
    checkAndReject u g command approvalId = .ok () ↔
      g.poisoned = false ∧ ∃ id row, approvalId = some id ∧ id ≠ "" ∧
        g.rows.find? id = some row ∧ row.status = .approved ∧ row.command = command := by
  have hblank : ∀ o : Option String, o.filter (· ≠ "") = none → ∀ id, o = some id → id = "" := by
    rintro o ho id rfl
    by_contra hne
    simp [Option.filter, hne] at ho
  unfold checkAndReject
  rw [if_neg (by simp [hd])]
  cases hid : approvalId.filter (· ≠ "") with
  | none =>
    constructor
    · intro h
      cases htrunc : truncate command 200 <;> simp [htrunc] at h
    · rintro ⟨_, id, _, hsome, hne, _⟩
      exact absurd (hblank _ hid id hsome) hne
  | some id =>
    obtain ⟨hsome, hne⟩ : approvalId = some id ∧ id ≠ "" := by
      simpa using Option.filter_eq_some_iff.mp hid
    unfold checkApproval
    cases hp : g.poisoned with
    | true => simp
    | false =>
      cases hfind : g.rows.find? id with
      | none => simp [hsome, hfind]
      | some row =>
        have : (∃ i r, approvalId = some i ∧ i ≠ "" ∧ g.rows.find? i = some r ∧
            r.status = .approved ∧ r.command = command) ↔
            row.status = .approved ∧ row.command = command := by
          constructor
          · rintro ⟨i, r, hi, _, hr, hst, hcmd⟩
            obtain rfl : id = i := Option.some.inj (hsome.symm.trans hi)
            obtain rfl : row = r := Option.some.inj (hfind.symm.trans hr)
            exact ⟨hst, hcmd⟩
          · rintro ⟨hst, hcmd⟩
            exact ⟨id, row, hsome, hne, hfind, hst, hcmd⟩
        simp only [hfind, this, true_and]
        by_cases hst : row.status = .approved
        · by_cases hcmd : row.command = command <;> simp [hst, hcmd]
        · simp [hst]

end ApprovalGate

end OsModa.Agentd
