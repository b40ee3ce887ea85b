import OsModa.Base.Encoding
import OsModa.Base.HashChain
import OsModa.Base.Outcome

/-!
agentd's event ledger: the `events` table, the hash that chains its rows, `verify`
and `append`.

SHA-256 is a parameter. `append` runs its SQL statements one by one inside a
transaction, and each of them may fail; a failure drops the transaction, which
rolls the table, the search index and the row counter back.
-/

namespace OsModa.Agentd

open OsModa.Encoding

/-! ### Rows -/

/-- A single event in the hash-chained ledger. -/
structure Event where
  id : Int
  ts : String
  eventType : String
  actor : String
  payload : String
  prevHash : String
  hash : String
  deriving DecidableEq, Repr

/-- The `events` table in the order of its primary key. -/
structure Events where
  rows : List Event
  sorted : rows.Pairwise (·.id < ·.id)

namespace Events

theorem ext {t t' : Events} (h : t.rows = t'.rows) : t = t' := by
  cases t
  cases t'
  cases h
  rfl

def empty : Events := ⟨[], List.Pairwise.nil⟩

/-- `INSERT` of a row whose id is above all others. -/
def insert (t : Events) (e : Event) (habove : ∀ r ∈ t.rows, r.id < e.id) : Events where
  rows := t.rows ++ [e]
  sorted := by
    rw [List.pairwise_append]
    refine ⟨t.sorted, List.pairwise_singleton _ _, fun r hr s hs => ?_⟩
    rw [List.mem_singleton.mp hs]
    exact habove r hr

/-- `UPDATE events SET hash = ?1 WHERE id = ?2`. -/
def setHash (t : Events) (id : Int) (hash : String) : Events where
  rows := t.rows.map fun e => if e.id = id then { e with hash := hash } else e
  sorted := by
    have hid : ∀ e : Event, (if e.id = id then { e with hash := hash } else e).id = e.id := by
      intro e
      split <;> rfl
    rw [List.pairwise_map]
    exact t.sorted.imp fun {a b} h => by rwa [hid a, hid b]

/-- `SELECT ts FROM events WHERE id = ?1`. -/
def selectTs (t : Events) (id : Int) : Option String :=
  (t.rows.find? fun e => e.id = id).map (·.ts)

theorem selectTs_insert (t : Events) (e : Event) (habove : ∀ r ∈ t.rows, r.id < e.id) :
    (t.insert e habove).selectTs e.id = some e.ts := by
  have hnone : t.rows.find? (fun r => decide (r.id = e.id)) = none := by
    rw [List.find?_eq_none]
    intro r hr
    have := habove r hr
    simp only [decide_eq_true_eq]
    omega
  simp [selectTs, insert, List.find?_append, hnone]

theorem setHash_insert_rows (t : Events) (e : Event) (habove : ∀ r ∈ t.rows, r.id < e.id)
    (hash : String) :
    ((t.insert e habove).setHash e.id hash).rows = t.rows ++ [{ e with hash := hash }] := by
  have hsame : t.rows.map (fun r => if r.id = e.id then { r with hash := hash } else r) = t.rows := by
    conv_rhs => rw [← List.map_id t.rows]
    refine List.map_congr_left ?_
    intro r hr
    have := habove r hr
    rw [if_neg (by omega), id_eq]
  simp [setHash, insert, hsame]

end Events

/-! ### Hashing and verifying -/

/-- The zero hash used as prev_hash for the genesis event. -/
def genesisPrevHash : String :=
  "0000000000000000000000000000000000000000000000000000000000000000"

/-- The fields of a row, joined by `|`, as they are hashed. -/
def hashInput (id : Int) (ts eventType actor payload prevHash : String) : List Char :=
  decimalInt id ++ '|' :: (ts.toList ++ '|' :: (eventType.toList ++ '|' ::
    (actor.toList ++ '|' :: (payload.toList ++ '|' :: prevHash.toList))))

section Hash

variable (sha256 : List UInt8 → List UInt8)

/-- Compute the SHA-256 hash for an event row. -/
def computeHash (id : Int) (ts eventType actor payload prevHash : String) : String :=
  String.ofList (hexEncode (sha256 (utf8 (hashInput id ts eventType actor payload prevHash))))

/-- Walk the rows and check every link and every hash. -/
def verifyFrom (expectedPrevHash : String) : List Event → Bool
  | [] => true
  | event :: events =>
    if event.prevHash ≠ expectedPrevHash then false
    else if computeHash sha256 event.id event.ts event.eventType event.actor event.payload
        event.prevHash ≠ event.hash then false
    else verifyFrom event.hash events

/-- Walk the entire chain and verify every hash is correct. -/
def verify (t : Events) : Bool := verifyFrom sha256 genesisPrevHash t.rows

/-- The rows as a chain of digests. -/
def chain : HashChain.Format Event String where
  prev := Event.prevHash
  digest := Event.hash
  compute e := computeHash sha256 e.id e.ts e.eventType e.actor e.payload e.prevHash

theorem verifyFrom_iff {start : String} {rows : List Event} :
    verifyFrom sha256 start rows = true ↔ HashChain.Valid (chain sha256) start rows := by
  induction rows generalizing start with
  | nil => simp [verifyFrom, HashChain.Valid]
  | cons e rows ih =>
    rw [verifyFrom, HashChain.Valid]
    by_cases hprev : e.prevHash = start
    · by_cases hhash : (chain sha256).compute e = e.hash
      · rw [if_neg (by simpa using hprev), if_neg (by simpa [chain] using hhash), ih]
        exact ⟨fun h => ⟨hprev, hhash, h⟩, fun h => h.2.2⟩
      · rw [if_neg (by simpa using hprev), if_pos (by simpa [chain] using hhash)]
        exact ⟨fun h => (Bool.false_ne_true h).elim, fun h => absurd h.2.1 hhash⟩
    · rw [if_pos hprev]
      exact ⟨fun h => (Bool.false_ne_true h).elim, fun h => absurd h.1 hprev⟩

/-- `verify` accepts exactly the valid chains. -/
theorem verify_iff {t : Events} :
    verify sha256 t = true ↔ HashChain.Valid (chain sha256) genesisPrevHash t.rows :=
  verifyFrom_iff sha256

/-- A hash function that gives known digests for the listed inputs, for runs on
concrete tables. Elsewhere its values are too long to be digests. -/
def knownDigests (table : List (List UInt8 × List UInt8)) (input : List UInt8) : List UInt8 :=
  (table.lookup input).getD (List.replicate 33 0 ++ input)

end Hash

/-! ### Appending -/

/-- A row of the search index `events_fts`. -/
structure FtsRow where
  rowid : Int
  eventType : String
  actor : String
  payload : String
  deriving DecidableEq, Repr

/-- The committed contents of the database. -/
structure Ledger where
  events : Events
  /-- The search index that the insert trigger keeps. -/
  index : List FtsRow
  /-- The largest id that `AUTOINCREMENT` has given out (`sqlite_sequence`). -/
  sequence : Int

namespace Ledger

/-- A new database. -/
def new : Ledger := ⟨Events.empty, [], 0⟩

def maxRowid : Int := 9223372036854775807

/-- The id of the next row: above every id that is or was in the table. `none` when
the ids are used up and the insert fails with `SQLITE_FULL`. -/
def nextRowid (l : Ledger) : Option { id : Int // ∀ e ∈ l.events.rows, e.id < id } :=
  match hlast : l.events.rows.getLast? with
  | none =>
    if l.sequence ≥ maxRowid then none
    else some ⟨max 1 (l.sequence + 1), by
      rw [List.getLast?_eq_none_iff.mp hlast]
      exact fun _ h => nomatch h⟩
  | some last =>
    if last.id ≥ maxRowid ∨ l.sequence ≥ maxRowid then none
    else some ⟨max (last.id + 1) (l.sequence + 1), by
      obtain ⟨init, hrows⟩ := List.getLast?_eq_some_iff.mp hlast
      have hsorted := l.events.sorted
      rw [hrows, List.pairwise_append] at hsorted
      intro e he
      rw [hrows, List.mem_append, List.mem_singleton] at he
      rcases he with hinit | rfl
      · have := hsorted.2.2 e hinit last (List.mem_singleton_self _)
        omega
      · omega⟩

/-- Which of the statements of an append fail. -/
structure Faults where
  begin : Bool := false
  readLastHash : Bool := false
  insert : Bool := false
  index : Bool := false
  readBack : Bool := false
  update : Bool := false
  commit : Bool := false
  deriving DecidableEq, Repr

/-- An append with the text that SQLite's clock gives its row and the statements
that fail. -/
structure AppendCall where
  eventType : String
  actor : String
  payload : String
  ts : String
  faults : Faults := {}
  deriving DecidableEq, Repr

/-- The hash of the most recent event, or the genesis hash. A failed query reads as
an empty table. -/
def lastHashConn (readFails : Bool) (t : Events) : String :=
  let maybe := if readFails then none else t.rows.getLast?.map (·.hash)
  maybe.getD genesisPrevHash

/-- Append a new event to the ledger, computing its hash from the chain. -/
def append (sha256 : List UInt8 → List UInt8) (call : AppendCall) (l : Ledger) :
    Outcome Event × Ledger :=
  if call.faults.begin then (.err "failed to begin transaction", l)
  else
    let prevHash := lastHashConn call.faults.readLastHash l.events
    -- The trigger runs inside the insert statement, so its failure is the insert's.
    if call.faults.insert || call.faults.index then (.err "failed to insert event", l)
    else match l.nextRowid with
      | none => (.err "failed to insert event", l)
      | some ⟨id, habove⟩ =>
        let row : Event := ⟨id, call.ts, call.eventType, call.actor, call.payload, prevHash, ""⟩
        let events := l.events.insert row habove
        let index := l.index ++ [⟨id, call.eventType, call.actor, call.payload⟩]
        match if call.faults.readBack then none else events.selectTs id with
        | none => (.err "failed to read back event timestamp", l)
        | some ts =>
          let hash := computeHash sha256 id ts call.eventType call.actor call.payload prevHash
          if call.faults.update then (.err "failed to update event hash", l)
          else if call.faults.commit then (.err "failed to commit event", l)
          else
            (.ok ⟨id, ts, call.eventType, call.actor, call.payload, prevHash, hash⟩,
              ⟨events.setHash id hash, index, id⟩)

/-- Some statement of the append other than the reading of the last hash fails. -/
def Aborts (call : AppendCall) (l : Ledger) : Prop :=
  call.faults.begin = true ∨ call.faults.insert = true ∨ call.faults.index = true ∨
    call.faults.readBack = true ∨ call.faults.update = true ∨ call.faults.commit = true ∨
    l.nextRowid = none

/-- What an append does: it aborts with an error and changes nothing, or adds one
row that follows the hash it read and carries the hash of its fields. -/
theorem append_cases (sha256 : List UInt8 → List UInt8) (call : AppendCall) (l : Ledger) :
    (Aborts call l ∧ ∃ message, append sha256 call l = (.err message, l)) ∨
      (¬ Aborts call l ∧ ∃ e, (append sha256 call l).1 = .ok e ∧
        (append sha256 call l).2.events.rows = l.events.rows ++ [e] ∧
        e.prevHash = lastHashConn call.faults.readLastHash l.events ∧
        (chain sha256).compute e = e.hash) := by
  unfold Aborts append
  by_cases hbegin : call.faults.begin = true
  · exact Or.inl ⟨by simp [hbegin], "failed to begin transaction", by rw [if_pos hbegin]⟩
  by_cases hinsert : call.faults.insert = true ∨ call.faults.index = true
  · refine Or.inl ⟨by tauto, "failed to insert event", ?_⟩
    simp [hbegin, hinsert]
  obtain ⟨hins, hidx⟩ := not_or.mp hinsert
  cases hnext : l.nextRowid with
  | none =>
    refine Or.inl ⟨by tauto, "failed to insert event", ?_⟩
    simp [hbegin, hins, hidx]
  | some next =>
    obtain ⟨id, habove⟩ := next
    by_cases hread : call.faults.readBack = true
    · refine Or.inl ⟨by tauto, "failed to read back event timestamp", ?_⟩
      simp [hbegin, hins, hidx, hread]
    have hts := l.events.selectTs_insert ⟨id, call.ts, call.eventType, call.actor, call.payload,
      lastHashConn call.faults.readLastHash l.events, ""⟩ habove
    by_cases hupdate : call.faults.update = true
    · refine Or.inl ⟨by tauto, "failed to update event hash", ?_⟩
      simp [hbegin, hins, hidx, hread, hupdate, hts]
    by_cases hcommit : call.faults.commit = true
    · refine Or.inl ⟨by tauto, "failed to commit event", ?_⟩
      simp [hbegin, hins, hidx, hread, hupdate, hcommit, hts]
    have hrows := l.events.setHash_insert_rows ⟨id, call.ts, call.eventType, call.actor,
      call.payload, lastHashConn call.faults.readLastHash l.events, ""⟩ habove
    refine Or.inr ⟨by simp [hbegin, hins, hidx, hread, hupdate, hcommit], ?_⟩
    simp [hbegin, hins, hidx, hread, hupdate, hcommit, hts, hrows, chain]

end Ledger

end OsModa.Agentd
