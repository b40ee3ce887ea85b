import Mathlib.Data.List.Sort
import Mathlib.Data.String.Basic
import OsModa.Base.CursorSync
import OsModa.Base.Encoding
import OsModa.Base.Table

/-!
The room store: what a mesh daemon keeps in SQLite of its rooms, their members and messages.

A message is kept once under the hash of its sender, content and timestamp, whatever room it is
of. A page of the history is cut by timestamps (`RoomStore.pages`).
-/

namespace OsModa.Mesh

open OsModa.Encoding OsModa.CursorSync

/-- What a message is: who said what, and when by the clock of whoever stored it first. -/
structure Said where
  sender : String
  content : String
  timestamp : String
  deriving DecidableEq

/-- Compute a message hash for deduplication. -/
def messageHash (sha256 : List UInt8 → List UInt8) (m : Said) : String :=
  String.ofList (hexEncode (sha256 (utf8
    (m.sender ++ "|" ++ m.content ++ "|" ++ m.timestamp).toList)))

/-- A persistent room message. -/
structure StoredMessage extends Said where
  roomId : String
  msgHash : String

/-- A room member. -/
structure RoomMember where
  roomId : String
  peerId : String
  joinedAt : String
  deriving DecidableEq

def RoomMember.key (m : RoomMember) : String × String := (m.roomId, m.peerId)

/-- The tables of the database. Foreign keys are checked or not, as SQLite was built. -/
structure RoomStore (sha256 : List UInt8 → List UInt8) where
  foreignKeys : Bool
  /-- The ids of the rows of `rooms`. -/
  rooms : List String
  members : Table RoomMember.key
  messages : Table StoredMessage.msgHash
  hashed : ∀ m ∈ messages.rows, m.msgHash = messageHash sha256 m.toSaid

/-- What `ORDER BY timestamp` makes of rows; the order of rows with one timestamp is open. -/
structure OrderBy where
  asc : List StoredMessage → List StoredMessage
  desc : List StoredMessage → List StoredMessage
  asc_perm : ∀ rows, (asc rows).Perm rows
  desc_perm : ∀ rows, (desc rows).Perm rows
  asc_sorted : ∀ rows, (asc rows).Pairwise fun m n => m.timestamp ≤ n.timestamp
  desc_sorted : ∀ rows, (desc rows).Pairwise fun m n => n.timestamp ≤ m.timestamp

/-- Rows with one timestamp stay in the order in which they were inserted. -/
def OrderBy.stable : OrderBy where
  asc rows := rows.mergeSort fun m n => m.timestamp ≤ n.timestamp
  desc rows := rows.mergeSort fun m n => n.timestamp ≤ m.timestamp
  asc_perm _ := List.mergeSort_perm ..
  desc_perm _ := List.mergeSort_perm ..
  asc_sorted := List.pairwise_mergeSort'
    (Order.Preimage (fun m : StoredMessage => m.timestamp) (· ≤ ·))
  desc_sorted := List.pairwise_mergeSort'
    (Order.Preimage (fun m : StoredMessage => m.timestamp) (· ≥ ·))

namespace RoomStore

variable {sha256 : List UInt8 → List UInt8} (s : RoomStore sha256)

/-- A store without any row. It has no rooms, so with foreign keys it accepts no message. -/
def absent : RoomStore sha256 where
  foreignKeys := true
  rooms := []
  members := .empty
  messages := .empty
  hashed _ hm := absurd hm List.not_mem_nil

/-- The row that a message is stored as. -/
def row (sha256 : List UInt8 → List UInt8) (roomId : String) (m : Said) : StoredMessage :=
  { m with roomId := roomId, msgHash := messageHash sha256 m }

/-- A row is inserted. -/
def insertRow (roomId : String) (m : Said) (messages : Table StoredMessage.msgHash)
    (h : s.messages.insert? (row sha256 roomId m) = some messages) : RoomStore sha256 :=
  { s with
    messages := messages
    hashed := by
      intro n hn
      have hfind := Table.find?_insert? h n.msgHash
      rw [Table.mem_rows_iff.mp hn] at hfind
      split at hfind
      · rw [Option.some.inj hfind]
        rfl
      · exact s.hashed n (Table.mem_rows_iff.mpr hfind.symm) }

/-- Store a message, returning true if it was new (not a duplicate). A row whose hash is taken
is ignored; one whose room is not there is an error. -/
def storeMessage (roomId : String) (m : Said) : Except String Bool × RoomStore sha256 :=
  match h : s.messages.insert? (row sha256 roomId m) with
  | none => (.ok false, s)
  | some messages =>
    if s.foreignKeys ∧ roomId ∉ s.rooms then (.error "FOREIGN KEY constraint failed", s)
    else (.ok true, s.insertRow roomId m messages h)

/-- Create a new room. The creator auto-joins; that its own row is there already is an error, and
the room is then there. -/
def createRoom (id createdBy now : String) : Except String Unit × RoomStore sha256 :=
  if id ∈ s.rooms then (.error "failed to create room", s)
  else
    let s := { s with rooms := s.rooms ++ [id] }
    match s.members.insert? ⟨id, createdBy, now⟩ with
    | none => (.error "failed to add creator as member", s)
    | some members => (.ok (), { s with members := members })

/-- Join a room. A member that is there is kept as it is. -/
def joinRoom (roomId peerId now : String) : Except String Unit × RoomStore sha256 :=
  match s.members.insert? ⟨roomId, peerId, now⟩ with
  | none => (.ok (), s)
  | some members =>
    if s.foreignKeys ∧ roomId ∉ s.rooms then (.error "failed to join room", s)
    else (.ok (), { s with members := members })

/-- Leave a room. -/
def leaveRoom (roomId peerId : String) : RoomStore sha256 :=
  { s with members := s.members.erase (roomId, peerId) }

/-- The row of a member of a room. -/
def memberRow (roomId peerId : String) : Option RoomMember := s.members.find? (roomId, peerId)

/-- The rows of a room. -/
def roomRows (roomId : String) : List StoredMessage :=
  s.messages.rows.filter fun m => m.roomId = roomId

/-- The messages of a room. -/
def said (roomId : String) : List Said := (s.roomRows roomId).map StoredMessage.toSaid

/-- What the query of the history selects, in its order. -/
def selected (order : OrderBy) (roomId : String) : Option String → List StoredMessage
  | some ts => order.asc ((s.roomRows roomId).filter fun m => ts < m.timestamp)
  | none => order.desc (s.roomRows roomId)

/-- Get message history for a room, optionally since a timestamp. -/
def getHistory (order : OrderBy) (roomId : String) (since : Option String) (limit : Nat) :
    List StoredMessage :=
  (s.selected order roomId since).take limit

/-- Get the latest message timestamp for a room. -/
def latestTimestamp (roomId : String) : Option String :=
  ((s.roomRows roomId).map (·.timestamp)).max?

/-- Get room members. -/
def getMembers (roomId : String) : List String :=
  (s.members.rows.filter fun m => m.roomId = roomId).map RoomMember.peerId

/-- The hash of the message is free. -/
def isNew (m : Said) : Bool := (s.messages.find? (messageHash sha256 m)).isNone

/-- The room is there, if that is checked. -/
def hasRoom (roomId : String) : Bool := !s.foreignKeys || roomId ∈ s.rooms

/-- The message would be stored. -/
def accepts (roomId : String) (m : Said) : Bool := s.isNew m && s.hasRoom roomId

/-! ### Storing -/

section Storing

variable (roomId : String) (m : Said)

/-- A message is stored, or nothing changes. -/
theorem storeMessage_cases :
    (s.isNew m = true ∧ s.hasRoom roomId = true ∧ ∃ messages h,
        s.storeMessage roomId m = (.ok true, s.insertRow roomId m messages h)) ∨
      (s.isNew m = false ∧ s.storeMessage roomId m = (.ok false, s)) ∨
      (s.isNew m = true ∧ s.hasRoom roomId = false ∧
        s.storeMessage roomId m = (.error "FOREIGN KEY constraint failed", s)) := by
  rw [storeMessage]
  split
  · rename_i htaken
    rw [Table.insert?_eq_none] at htaken
    refine .inr (.inl ⟨?_, rfl⟩)
    rwa [isNew, Option.isNone_eq_false_iff, Option.isSome_iff_ne_none]
  · rename_i messages hinsert
    have hfree : s.isNew m = true := by
      rw [isNew, Option.isNone_iff_eq_none]
      by_contra htaken
      rw [Table.insert?_eq_none.mpr htaken] at hinsert
      cases hinsert
    split
    · rename_i hkeys
      exact .inr (.inr ⟨hfree, by simpa [hasRoom] using hkeys, rfl⟩)
    · rename_i hkeys
      exact .inl ⟨hfree, by simpa [hasRoom, imp_iff_not_or] using hkeys, messages, hinsert, rfl⟩

variable {s roomId m}

theorem said_insertRow {messages : Table StoredMessage.msgHash}
    (h : s.messages.insert? (row sha256 roomId m) = some messages) :
    (s.insertRow roomId m messages h).said roomId = s.said roomId ++ [m] := by
  rw [said, roomRows]
  rw [show (s.insertRow roomId m messages h).messages.rows = s.messages.rows ++ [_] from
    Table.rows_insert? h, List.filter_append, List.map_append]
  simp [said, roomRows, row]

theorem said_storeMessage : (s.storeMessage roomId m).2.said roomId =
    s.said roomId ++ if s.accepts roomId m then [m] else [] := by
  rcases s.storeMessage_cases roomId m with
    ⟨hnew, hroom, messages, hinsert, hstore⟩ | ⟨hold, hstore⟩ | ⟨hnew, hroom, hstore⟩
  · rw [hstore, said_insertRow, accepts, hnew, hroom]
    rfl
  · rw [hstore, accepts, hold]
    exact (List.append_nil _).symm
  · rw [hstore, accepts, hnew, hroom]
    exact (List.append_nil _).symm

/-- A message that is stored takes its hash, and no other. -/
theorem isNew_storeMessage (m' : Said) : (s.storeMessage roomId m).2.isNew m' =
    (s.isNew m' && !(s.accepts roomId m && messageHash sha256 m = messageHash sha256 m')) := by
  rcases s.storeMessage_cases roomId m with
    ⟨hnew, hroom, messages, hinsert, hstore⟩ | ⟨hold, hstore⟩ | ⟨hnew, hroom, hstore⟩
  · have hfind := Table.find?_insert? hinsert (messageHash sha256 m')
    rw [hstore, accepts, hnew, hroom, isNew, isNew]
    rw [show (s.insertRow roomId m messages hinsert).messages = messages from rfl, hfind]
    by_cases hsame : messageHash sha256 m = messageHash sha256 m' <;> simp [row, hsame]
  · rw [hstore, accepts, hold]
    simp
  · rw [hstore, accepts, hroom]
    simp

theorem storeMessage_shape : (s.storeMessage roomId m).2.foreignKeys = s.foreignKeys ∧
    (s.storeMessage roomId m).2.rooms = s.rooms ∧
    (s.storeMessage roomId m).2.members = s.members := by
  rcases s.storeMessage_cases roomId m with ⟨-, -, messages, hinsert, hstore⟩ | ⟨-, hstore⟩ |
    ⟨-, -, hstore⟩ <;> rw [hstore] <;> exact ⟨rfl, rfl, rfl⟩

theorem hasRoom_storeMessage (roomId' : String) :
    (s.storeMessage roomId m).2.hasRoom roomId' = s.hasRoom roomId' := by
  obtain ⟨hkeys, hrooms, -⟩ := storeMessage_shape (s := s) (m := m)
  rw [hasRoom, hasRoom, hkeys, hrooms]

theorem accepts_storeMessage (m' : Said) : (s.storeMessage roomId m).2.accepts roomId m' =
    (s.accepts roomId m' &&
      !(s.accepts roomId m && messageHash sha256 m = messageHash sha256 m')) := by
  rw [accepts, isNew_storeMessage, hasRoom_storeMessage, Bool.and_right_comm]
  rfl

end Storing

/-! ### Members -/

section Members

variable {s}

theorem mem_getMembers {roomId peerId : String} :
    peerId ∈ s.getMembers roomId ↔ s.memberRow roomId peerId ≠ none := by
  rw [getMembers, memberRow, ne_eq, Table.find?_eq_none, not_not, List.mem_map, List.mem_map]
  constructor
  · rintro ⟨m, hm, rfl⟩
    obtain ⟨hm, hroom⟩ := List.mem_filter.mp hm
    exact ⟨m, hm, by rw [RoomMember.key, of_decide_eq_true hroom]⟩
  · rintro ⟨m, hm, hkey⟩
    obtain ⟨hroom, hpeer⟩ := Prod.mk.inj hkey
    exact ⟨m, List.mem_filter.mpr ⟨hm, decide_eq_true hroom⟩, hpeer⟩

/-- Another member's row is as it was. -/
theorem memberRow_joinRoom {roomId peerId now roomId' peerId' : String}
    (hne : (roomId, peerId) ≠ (roomId', peerId')) :
    (s.joinRoom roomId peerId now).2.memberRow roomId' peerId' = s.memberRow roomId' peerId' := by
  unfold joinRoom
  split
  · rfl
  · rename_i members hinsert
    split
    · rfl
    · exact (Table.find?_insert? hinsert _).trans (if_neg hne)

theorem memberRow_leaveRoom {roomId peerId roomId' peerId' : String}
    (hne : (roomId, peerId) ≠ (roomId', peerId')) :
    (s.leaveRoom roomId peerId).memberRow roomId' peerId' = s.memberRow roomId' peerId' := by
  exact (Table.find?_erase ..).trans (if_neg hne)

end Members

/-! ### The messages of a room -/

section Said

variable {s} {roomId : String}

theorem nodup_hashes : ((s.said roomId).map (messageHash sha256)).Nodup := by
  have hrows : (s.said roomId).map (messageHash sha256) =
      (s.roomRows roomId).map StoredMessage.msgHash := by
    rw [said, List.map_map]
    exact List.map_congr_left fun m hm => (s.hashed m (List.mem_of_mem_filter hm)).symm
  rw [hrows]
  exact s.messages.nodup_keys.sublist (List.filter_sublist.map _)

theorem nodup_said : (s.said roomId).Nodup := nodup_hashes.of_map

/-- A message whose hash is free is not one of the room. -/
theorem not_mem_said_of_accepts {m : Said} (h : s.accepts roomId m = true) :
    m ∉ s.said roomId := by
  intro hmem
  obtain ⟨n, hn, rfl⟩ := List.mem_map.mp hmem
  have hrow := List.mem_of_mem_filter hn
  have hfind := Table.mem_rows_iff.mp hrow
  rw [s.hashed n hrow] at hfind
  rw [accepts, isNew, hfind] at h
  cases h

end Said

/-! ### Pages -/

section Pages

variable {s} {order : OrderBy} {roomId : String}

theorem selected_perm (since : Option String) :
    ((s.selected order roomId since).map StoredMessage.toSaid).Perm
      (above Said.timestamp since (s.said roomId)) := by
  cases since with
  | none =>
    rw [above_none]
    exact (order.desc_perm _).map _
  | some ts =>
    have habove : above Said.timestamp (some ts) (s.said roomId) =
        ((s.roomRows roomId).filter fun m => ts < m.timestamp).map StoredMessage.toSaid := by
      rw [above, said, List.filter_map]
      rfl
    rw [habove]
    exact (order.asc_perm _).map _

theorem mem_rows_of_mem_history {since : Option String} {limit : Nat} {m : StoredMessage}
    (h : m ∈ s.getHistory order roomId since limit) : m ∈ s.messages.rows := by
  have hselected := List.mem_of_mem_take h
  cases since with
  | none => exact List.mem_of_mem_filter ((order.desc_perm _).subset hselected)
  | some ts =>
    exact List.mem_of_mem_filter (List.mem_of_mem_filter ((order.asc_perm _).subset hselected))

/-- Rows that are cut off a sorted list are all on one side of the others. -/
theorem rel_of_pairwise {R : StoredMessage → StoredMessage → Prop} {rows : List StoredMessage}
    (h : rows.Pairwise R) (limit : Nat) : ∀ a ∈ rows.take limit, ∀ b ∈ rows.drop limit, R a b := by
  rw [← List.take_append_drop limit rows, List.pairwise_append] at h
  exact h.2.2

/-- The history of a room is cut in pages by its timestamps. -/
def pages (order : OrderBy) (roomId : String) (limit : Nat) :
    Pages Said.timestamp limit (s.said roomId) where
  page since := (s.getHistory order roomId since limit).map StoredMessage.toSaid
  rest since := ((s.selected order roomId since).drop limit).map StoredMessage.toSaid
  split since := by
    rw [getHistory, ← List.map_append, List.take_append_drop]
    exact selected_perm since
  length_page since := by
    rw [getHistory, List.length_map, List.length_take, ← (selected_perm since).length_eq,
      List.length_map]
  highest a ha b hb := by
    obtain ⟨m, hm, rfl⟩ := List.mem_map.mp ha
    obtain ⟨n, hn, rfl⟩ := List.mem_map.mp hb
    exact rel_of_pairwise (order.desc_sorted _) limit m hm n hn
  lowest t a ha b hb := by
    obtain ⟨m, hm, rfl⟩ := List.mem_map.mp ha
    obtain ⟨n, hn, rfl⟩ := List.mem_map.mp hb
    exact rel_of_pairwise (order.asc_sorted _) limit m hm n hn

end Pages

end RoomStore

end OsModa.Mesh
