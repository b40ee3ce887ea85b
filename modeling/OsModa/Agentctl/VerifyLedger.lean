import OsModa.Agentd.Ledger

/-!
`agentctl verify-ledger` beside agentd's own verification of the same database.

agentd reads every row before it checks the first one and stops at the first error;
agentctl checks each row as it reads it, counts the errors and goes on from the digest
that is stored. The two walks part at the first error, but not in whether there is one
(`verify_iff_no_errors`).
-/

namespace OsModa.Agentctl

open OsModa.Agentd

/-! ### The table as SQLite holds it -/

/-- What a text column holds: a text, or a value that is not read as a `String`, a blob or a
text that is not UTF-8. -/
inductive Cell where
  | text (value : String)
  | bytes (value : List UInt8)
  deriving DecidableEq, Repr

/-- A row of the table `events`. -/
structure StoredRow where
  id : Int
  ts : Cell
  eventType : Cell
  actor : Cell
  payload : Cell
  prevHash : Cell
  hash : Cell
  deriving DecidableEq, Repr

/-- The table `events` in the order of its primary key. -/
structure EventTable where
  rows : List StoredRow
  sorted : rows.Pairwise (·.id < ·.id)

/-- `row.get(column)` -/
def Cell.get (column : Nat) : Cell → Except String String
  | .text value => .ok value
  | .bytes _ => .error ("column " ++ toString column ++ " is no text")

/-- The columns that both programs select, in the order in which both read them. -/
def StoredRow.read (row : StoredRow) : Except String Event := do
  let ts ← row.ts.get 1
  let eventType ← row.eventType.get 2
  let actor ← row.actor.get 3
  let payload ← row.payload.get 4
  let prevHash ← row.prevHash.get 5
  let hash ← row.hash.get 6
  return ⟨row.id, ts, eventType, actor, payload, prevHash, hash⟩

/-- `collect::<Result<Vec<_>, _>>()`: the first row that is not read fails the whole. -/
def readAll : List StoredRow → Except String (List Event)
  | [] => .ok []
  | row :: rows => do
    let event ← row.read
    let events ← readAll rows
    return event :: events

section Verifiers

variable (sha256 : List UInt8 → List UInt8)

/-! ### The two verifiers -/

/-- agentd's `verify`, on what the table holds. -/
def EventTable.verify (t : EventTable) : Outcome Bool :=
  match readAll t.rows with
  | .error _ => .err "failed to collect verify results"
  | .ok events => .ok (verifyFrom sha256 genesisPrevHash events)

/-- A line on standard error. -/
inductive Finding where
  | chainBreak (id : Int) (expected got : String)
  | hashMismatch (id : Int) (computed stored : String)
  deriving DecidableEq, Repr

/-- The variables of the loop. The counters are `u64`, and a database file is too small for
that many rows. -/
structure Walk where
  expectedPrevHash : String
  count : Nat
  errors : Nat
  printed : List Finding
  deriving DecidableEq, Repr

def Walk.start : Walk := ⟨String.ofList (List.replicate 64 '0'), 0, 0, []⟩

def Walk.report (w : Walk) (finding : Finding) : Walk :=
  { w with errors := w.errors + 1, printed := w.printed ++ [finding] }

/-- Verify prev_hash links correctly. -/
def Walk.checkLink (w : Walk) (e : Event) : Walk :=
  if e.prevHash ≠ w.expectedPrevHash then
    w.report (.chainBreak e.id w.expectedPrevHash e.prevHash)
  else w

/-- Recompute hash. -/
def Walk.checkHash (w : Walk) (e : Event) : Walk :=
  let computedHash := computeHash sha256 e.id e.ts e.eventType e.actor e.payload e.prevHash
  if computedHash ≠ e.hash then w.report (.hashMismatch e.id computedHash e.hash) else w

/-- The body of the loop. It goes on from the stored hash, right or wrong. -/
def Walk.row (w : Walk) (e : Event) : Walk :=
  let w := { w with count := w.count + 1 }
  { (w.checkLink e).checkHash sha256 e with expectedPrevHash := e.hash }

/-- The loop: a row that is not read ends it with an error. -/
def Walk.rows (w : Walk) : List StoredRow → Except String Walk
  | [] => .ok w
  | row :: rows =>
    match row.read with
    | .error e => .error e
    | .ok event => (w.row sha256 event).rows rows

/-- What the command has printed when it ends, and its exit code. -/
structure VerifyReport where
  count : Nat
  errors : Nat
  printed : List Finding
  exitCode : Nat
  deriving DecidableEq, Repr

/-- Verify the integrity of the hash-chained ledger. -/
def cmdVerifyLedger (t : EventTable) : Except String VerifyReport := do
  let w ← Walk.start.rows sha256 t.rows
  return ⟨w.count, w.errors, w.printed, if w.errors = 0 then 0 else 1⟩

/-! ### Where the walks part -/

theorem Walk.start_expectedPrevHash : Walk.start.expectedPrevHash = genesisPrevHash := by
  decide

section Loop

variable (w : Walk) (e : Event)

theorem Walk.checkLink_errors :
    (w.checkLink e).errors = if e.prevHash = w.expectedPrevHash then w.errors else w.errors + 1 := by
  unfold checkLink
  by_cases hlink : e.prevHash = w.expectedPrevHash
  · rw [if_neg (not_not.mpr hlink), if_pos hlink]
  · rw [if_pos hlink, if_neg hlink]
    rfl

theorem Walk.checkHash_errors :
    (w.checkHash sha256 e).errors =
      if (chain sha256).compute e = e.hash then w.errors else w.errors + 1 := by
  unfold checkHash
  by_cases hhash : (chain sha256).compute e = e.hash
  · rw [if_pos hhash]
    exact congrArg errors (if_neg (not_not.mpr hhash))
  · rw [if_neg hhash]
    exact congrArg errors (if_pos hhash)

/-- A row adds an error for a broken link and one for a wrong hash. -/
theorem Walk.row_errors : (w.row sha256 e).errors = w.errors +
    ((if e.prevHash = w.expectedPrevHash then 0 else 1) +
      if (chain sha256).compute e = e.hash then 0 else 1) := by
  change (Walk.checkHash sha256 _ e).errors = _
  rw [checkHash_errors, checkLink_errors]
  dsimp only
  split <;> split <;> rfl

end Loop

/-- The loop over rows that are all read. -/
def Walk.events (w : Walk) : List Event → Walk
  | [] => w
  | e :: events => (w.row sha256 e).events events

/-- Errors are never taken back. -/
theorem Walk.le_events_errors (w : Walk) (events : List Event) :
    w.errors ≤ (w.events sha256 events).errors := by
  induction events generalizing w with
  | nil => exact le_rfl
  | cons e events ih =>
    have hrow : w.errors ≤ (w.row sha256 e).errors := by
      rw [row_errors]
      exact Nat.le_add_right _ _
    exact hrow.trans (ih (w.row sha256 e))

/-- **The two loops.** agentctl's loop adds no error if and only if agentd's loop gets to the
end. -/
theorem Walk.events_errors_iff (w : Walk) (events : List Event) :
    (w.events sha256 events).errors = w.errors ↔
      verifyFrom sha256 w.expectedPrevHash events = true := by
  induction events generalizing w with
  | nil => exact iff_of_true rfl rfl
  | cons e events ih =>
    have hlater := le_events_errors sha256 (w.row sha256 e) events
    have hrow := row_errors sha256 w e
    rw [Walk.events, verifyFrom_iff, HashChain.Valid, ← verifyFrom_iff]
    by_cases hlink : e.prevHash = w.expectedPrevHash
    · by_cases hhash : (chain sha256).compute e = e.hash
      · rw [if_pos hlink, if_pos hhash, Nat.add_zero] at hrow
        rw [← hrow, ih (w.row sha256 e)]
        exact ⟨fun h => ⟨hlink, hhash, h⟩, fun h => h.2.2⟩
      · rw [if_pos hlink, if_neg hhash] at hrow
        exact ⟨fun h => by omega, fun h => absurd h.2.1 hhash⟩
    · rw [if_neg hlink] at hrow
      exact ⟨fun h => by omega, fun h => absurd h.1 hlink⟩

/-- A row that is not read ends both programs; otherwise the loop sees the same rows. -/
theorem Walk.rows_eq (w : Walk) (rows : List StoredRow) :
    w.rows sha256 rows = (readAll rows).map fun events => w.events sha256 events := by
  induction rows generalizing w with
  | nil => rfl
  | cons row rows ih =>
    rw [Walk.rows, readAll]
    cases row.read with
    | error e => rfl
    | ok event =>
      dsimp only
      rw [ih]
      cases readAll rows <;> rfl

/-! ### What is printed -/

/-- The errors counted so far are the lines that have been printed. -/
def Walk.Printed (w : Walk) : Prop := w.printed.length = w.errors

theorem Walk.Printed.report {w : Walk} (h : w.Printed) (finding : Finding) :
    (w.report finding).Printed := by
  rw [Printed, Walk.report, List.length_append, h]
  rfl

theorem Walk.Printed.row {w : Walk} (h : w.Printed) (e : Event) : (w.row sha256 e).Printed := by
  have hlink : (Walk.checkLink { w with count := w.count + 1 } e).Printed := by
    unfold checkLink
    split
    · exact report h _
    · exact h
  change (Walk.checkHash sha256 _ e).Printed
  unfold checkHash
  dsimp only
  split
  · exact hlink.report _
  · exact hlink

theorem Walk.Printed.events {w : Walk} (h : w.Printed) (events : List Event) :
    (w.events sha256 events).Printed := by
  induction events generalizing w with
  | nil => exact h
  | cons e events ih => exact ih (h.row sha256 e)

/-! ### The agreement -/

/-- The command prints a line for every error that it counts. -/
theorem cmdVerifyLedger_printed {t : EventTable} {report : VerifyReport}
    (hreport : cmdVerifyLedger sha256 t = .ok report) : report.printed.length = report.errors := by
  rw [cmdVerifyLedger, Walk.rows_eq] at hreport
  cases hread : readAll t.rows with
  | error e =>
    rw [hread] at hreport
    cases hreport
  | ok events =>
    rw [hread] at hreport
    cases hreport
    have hstart : Walk.start.Printed := rfl
    exact hstart.events sha256 events

/-- agentd's verification of a table whose rows are all read is the one of its events. -/
theorem EventTable.verify_of_events {t : EventTable} {events : Events}
    (hread : readAll t.rows = .ok events.rows) :
    t.verify sha256 = .ok (Agentd.verify sha256 events) := by
  rw [EventTable.verify, hread]
  rfl

/-- On every table, agentd reports a valid chain if and only if agentctl counts no error, and
a broken one if and only if it counts some; where a row cannot be read, both fail. -/
theorem verify_iff_no_errors (t : EventTable) :
    (t.verify sha256 = .ok true ↔ ∃ report, cmdVerifyLedger sha256 t = .ok report ∧
      report.errors = 0) ∧
    (t.verify sha256 = .ok false ↔ ∃ report, cmdVerifyLedger sha256 t = .ok report ∧
      0 < report.errors ∧ report.exitCode = 1) ∧
    ((∃ message, t.verify sha256 = .err message) ↔
      ∃ message, cmdVerifyLedger sha256 t = .error message) := by
  have hloop := Walk.events_errors_iff sha256 Walk.start
  rw [Walk.start_expectedPrevHash] at hloop
  unfold EventTable.verify cmdVerifyLedger
  rw [Walk.rows_eq]
  cases readAll t.rows with
  | error e => simp [Except.map, bind, Except.bind]
  | ok events =>
    have hiff : (Walk.start.events sha256 events).errors = 0 ↔
        verifyFrom sha256 genesisPrevHash events = true := hloop events
    cases hverify : verifyFrom sha256 genesisPrevHash events with
    | true =>
      have hnone := hiff.mpr hverify
      simp [Except.map, bind, Except.bind, pure, Except.pure, hverify, hnone]
    | false =>
      have hsome : (Walk.start.events sha256 events).errors ≠ 0 := by
        rw [Ne, hiff, hverify]
        exact Bool.false_ne_true
      simp [Except.map, bind, Except.bind, pure, Except.pure, hverify, hsome,
        Nat.pos_of_ne_zero hsome]

end Verifiers

end OsModa.Agentctl
