import OsModa.Mesh.Messages
import OsModa.Mesh.RoomStore

/-!
Room messages between daemons: sending one to a room, handling one that comes in, and asking a
peer for those that were missed.
-/

namespace OsModa.Mesh

open OsModa.CursorSync

structure RoomMessage where
  sender : String
  text : String
  ts : String
  seq : Nat

/-- A group chat room. -/
structure Room where
  id : String
  members : List String
  messages : List RoomMessage

/-- What of the state of a daemon room messages read and change. -/
structure RoomNode (sha256 : List UInt8 → List UInt8) where
  instanceId : String
  /-- The ids under which connections are filed. -/
  connections : List String
  rooms : List Room
  roomStore : Option (RoomStore sha256)

/-- What a handler does besides changing the state. -/
inductive RoomEffect where
  /-- A row of the room store is new. -/
  | persisted
  /-- The message is in the history of the room. -/
  | displayed
  | sends (peerId : String) (msg : MeshMessage)

def RoomEffect.isPersisted : RoomEffect → Bool
  | .persisted => true
  | _ => false

def RoomEffect.isDisplayed : RoomEffect → Bool
  | .displayed => true
  | _ => false

def RoomEffect.isSend : RoomEffect → Bool
  | .sends .. => true
  | _ => false

/-- A message payload used in gossip sync. -/
structure SyncMessage extends Said where
  msgHash : String

def StoredMessage.toSync (m : StoredMessage) : SyncMessage :=
  { m.toSaid with msgHash := m.msgHash }

/-- A message is added to the history of the first room with that id. -/
def pushMessage (roomId : String) (m : Said) : List Room → List Room
  | [] => []
  | room :: rooms =>
    if room.id = roomId then
      { room with
        messages := room.messages ++ [⟨m.sender, m.content, m.timestamp, room.messages.length⟩] }
          :: rooms
    else room :: pushMessage roomId m rooms

/-- The room with another message. -/
def Room.push (room : Room) (m : Said) : Room :=
  { room with
    messages := room.messages ++ [⟨m.sender, m.content, m.timestamp, room.messages.length⟩] }

theorem find?_pushMessage_room (roomId : String) (m : Said) (rooms : List Room) (id : String) :
    (pushMessage roomId m rooms).find? (fun r => r.id = id) =
      (rooms.find? fun r => r.id = id).map fun room => if id = roomId then room.push m else room := by
  induction rooms with
  | nil => rfl
  | cons room rooms ih =>
    rw [pushMessage]
    by_cases hpushed : room.id = roomId
    · subst hpushed
      rw [if_pos rfl]
      by_cases hid : room.id = id
      · subst hid
        simp [Room.push]
      · have hother : ∀ found : Option Room,
            found.map (fun room' => if id = room.id then room'.push m else room') = found := by
          intro found
          simp only [if_neg (Ne.symm hid), Option.map_id']
        simp [hid, hother]
    · rw [if_neg hpushed]
      by_cases hid : room.id = id
      · subst hid
        simp [hpushed]
      · simpa [hid] using ih

variable {sha256 : List UInt8 → List UInt8}

namespace RoomNode

section Handlers

variable (st : RoomNode sha256)

def findRoom (roomId : String) : Option Room := st.rooms.find? fun r => r.id = roomId

def display (roomId : String) (m : Said) : RoomNode sha256 :=
  { st with rooms := pushMessage roomId m st.rooms }

/-- Send a message to all connected members of a room. -/
def roomSendHandler (roomId text now : String) :
    Except (Nat × String) (List RoomEffect) × RoomNode sha256 :=
  match st.findRoom roomId with
  | none => (.error (404, "room " ++ roomId ++ " not found"), st)
  | some room =>
    let chatMsg := MeshMessage.chat st.instanceId text (some roomId)
    let reached := room.members.filter fun id => id ∈ st.connections
    (.ok (.displayed :: reached.map (.sends · chatMsg)),
      -- The store is not written.
      st.display roomId ⟨st.instanceId, text, now⟩)

/-- Forward a room message to all connected room members except the sender. -/
def forwardRoomMessage (roomId senderPeerId sender text : String) : List RoomEffect :=
  match st.roomStore with
  | none => []
  | some store =>
    let others := (store.getMembers roomId).filter fun id =>
      id ≠ senderPeerId ∧ id ∈ st.connections
    others.map (.sends · (.chat sender text (some roomId)))

/-- The part of `handle_room_message` that follows the room store. -/
def displayAndForward (roomId : String) (m : Said) (senderPeerId : String) :
    List RoomEffect × RoomNode sha256 :=
  match st.findRoom roomId with
  | none => ([], st)
  | some _ =>
    (.displayed :: st.forwardRoomMessage roomId senderPeerId m.sender m.content,
      st.display roomId m)

/-- Handle an incoming group room message. It is stored as of the time that it comes in. -/
def handleRoomMessage (roomId sender text senderPeerId now : String) :
    List RoomEffect × RoomNode sha256 :=
  let m : Said := ⟨sender, text, now⟩
  match st.roomStore with
  | none => st.displayAndForward roomId m senderPeerId
  | some store =>
    match store.storeMessage roomId m with
    | (.ok true, store) =>
      let (effects, st) :=
        { st with roomStore := some store }.displayAndForward roomId m senderPeerId
      (.persisted :: effects, st)
    -- duplicate room message, skipping
    | (.ok false, _) => ([], st)
    | (.error _, _) => st.displayAndForward roomId m senderPeerId

/-- Request sync of missed messages from a peer: those since the last that is stored. -/
def requestSync (peerId roomId : String) : Option (Option String) :=
  if peerId ∈ st.connections then some (st.roomStore.bind (·.latestTimestamp roomId)) else none

/-- Respond to a sync request with missed messages. -/
def handleSyncRequest (order : OrderBy) (peerId roomId : String) (since : Option String) :
    Option (List SyncMessage) :=
  match st.roomStore with
  | none => none
  | some store =>
    let messages := (store.getHistory order roomId since 100).map StoredMessage.toSync
    if messages.isEmpty then none
    else if peerId ∈ st.connections then some messages
    else none

/-- Cap the number of messages per sync reply to prevent memory exhaustion. -/
def maxSyncMessages : Nat := 500

/-- The loop of `handle_sync_reply`: how many messages are new, and the store then. -/
def applySync (roomId : String) : List SyncMessage → RoomStore sha256 → Nat × RoomStore sha256
  | [], store => (0, store)
  | msg :: messages, store =>
    -- Verify message hash matches content to detect tampering
    if msg.msgHash ≠ messageHash sha256 msg.toSaid then applySync roomId messages store
    else
      match store.storeMessage roomId msg.toSaid with
      | (.ok true, store) =>
        let (newCount, store) := applySync roomId messages store
        (newCount + 1, store)
      | (.ok false, store) => applySync roomId messages store
      | (.error _, store) => applySync roomId messages store

/-- Apply synced messages from a peer. -/
def handleSyncReply (roomId : String) (messages : List SyncMessage) : Nat × RoomNode sha256 :=
  match st.roomStore with
  | none => (0, st)
  | some store =>
    let (newCount, store) := applySync roomId (messages.take maxSyncMessages) store
    (newCount, { st with roomStore := some store })

end Handlers

/-! ### What the handlers leave alone -/

section Ids

variable (st : RoomNode sha256) (roomId : String)

theorem displayAndForward_ids (m : Said) (senderPeerId : String) :
    (st.displayAndForward roomId m senderPeerId).2.instanceId = st.instanceId ∧
      (st.displayAndForward roomId m senderPeerId).2.connections = st.connections := by
  rw [displayAndForward]
  cases st.findRoom roomId <;> exact ⟨rfl, rfl⟩

theorem handleRoomMessage_ids (sender text senderPeerId now : String) :
    (st.handleRoomMessage roomId sender text senderPeerId now).2.instanceId = st.instanceId ∧
      (st.handleRoomMessage roomId sender text senderPeerId now).2.connections =
        st.connections := by
  rw [handleRoomMessage]
  cases st.roomStore with
  | none => exact displayAndForward_ids ..
  | some store =>
    dsimp only
    split
    · exact displayAndForward_ids ..
    · exact ⟨rfl, rfl⟩
    · exact displayAndForward_ids ..

end Ids

end RoomNode

/-! ### The part that a daemon takes in a room -/

/-- How a daemon takes part in a room. Messages do not change it. -/
structure RoomPart where
  /-- It has the room in memory, so that it displays messages. -/
  shows : Bool
  /-- It has a store, and the store takes messages of the room. -/
  keeps : Bool
  /-- The members to which it forwards what comes from a peer. -/
  forwardsTo : String → List String

/-- All that handling a message may do. -/
def RoomPart.effects (p : RoomPart) (source : String) (msg : MeshMessage) : List RoomEffect :=
  (if p.keeps then [.persisted] else []) ++
    if p.shows then .displayed :: (p.forwardsTo source).map (.sends · msg) else []

namespace RoomNode

section Part

variable (st : RoomNode sha256)

def part (roomId : String) : RoomPart where
  shows := (st.findRoom roomId).isSome
  keeps := st.roomStore.any (·.hasRoom roomId)
  forwardsTo source :=
    match st.roomStore with
    | none => []
    | some store =>
      (store.getMembers roomId).filter fun id => id ≠ source ∧ id ∈ st.connections

/-- The message is not in the store. -/
def isNew (m : Said) : Bool := st.roomStore.all (·.isNew m)

variable {st} {roomId : String}

theorem find?_pushMessage (m : Said) (rooms : List Room) (id : String) :
    ((pushMessage roomId m rooms).find? fun r => r.id = id).isSome =
      (rooms.find? fun r => r.id = id).isSome := by
  rw [find?_pushMessage_room, Option.isSome_map]

theorem part_display (roomId' : String) (m : Said) :
    (st.display roomId' m).part roomId = st.part roomId := by
  rw [part, part, findRoom, findRoom, display, find?_pushMessage]

theorem displayAndForward_part (m : Said) (senderPeerId : String) (roomId' : String) :
    (st.displayAndForward roomId' m senderPeerId).2.part roomId = st.part roomId := by
  rw [displayAndForward]
  split
  · rfl
  · exact part_display ..

theorem displayAndForward_effects (m : Said) (senderPeerId : String) :
    (st.displayAndForward roomId m senderPeerId).1 =
      if (st.part roomId).shows then
        .displayed :: ((st.part roomId).forwardsTo senderPeerId).map
          (.sends · (.chat m.sender m.content (some roomId)))
      else [] := by
  rw [displayAndForward, part]
  cases st.findRoom roomId with
  | none => rfl
  | some room =>
    rw [forwardRoomMessage]
    cases st.roomStore <;> rfl

/-- The message is stored, if there is a store and it accepts it. -/
def stored (st : RoomNode sha256) (roomId : String) (m : Said) : RoomNode sha256 :=
  { st with roomStore := st.roomStore.map fun store => (store.storeMessage roomId m).2 }

theorem stored_eq_self {m : Said} {store : RoomStore sha256} (hstore : st.roomStore = some store)
    (hsame : (store.storeMessage roomId m).2 = store) : st.stored roomId m = st := by
  rw [stored, hstore, Option.map_some, hsame, ← hstore]

/-- A message that is not new to the store is skipped. -/
theorem handleRoomMessage_eq (sender text senderPeerId now : String) :
    st.handleRoomMessage roomId sender text senderPeerId now =
      if st.isNew ⟨sender, text, now⟩ then
        let handled := (st.stored roomId ⟨sender, text, now⟩).displayAndForward roomId
          ⟨sender, text, now⟩ senderPeerId
        ((if (st.part roomId).keeps then [.persisted] else []) ++ handled.1, handled.2)
      else ([], st) := by
  rw [handleRoomMessage, isNew, part]
  cases hstore : st.roomStore with
  | none =>
    have hsame : st.stored roomId ⟨sender, text, now⟩ = st := by
      rw [stored, hstore, Option.map_none, ← hstore]
    rw [hsame]
    rfl
  | some store =>
    rw [Option.all_some, Option.any_some]
    dsimp only
    rcases store.storeMessage_cases roomId ⟨sender, text, now⟩ with
      ⟨hnew, hroom, messages, hinsert, hresult⟩ | ⟨hold, hresult⟩ | ⟨hnew, hroom, hresult⟩
    · rw [stored, hstore, Option.map_some, hnew, hroom, hresult]
      rfl
    · rw [hresult, hold]
      rfl
    · rw [stored_eq_self hstore (by rw [hresult]), hnew, hroom, hresult]
      rfl

theorem part_stored (roomId' : String) (m : Said) :
    (st.stored roomId' m).part roomId = st.part roomId := by
  rw [part, part, stored]
  cases st.roomStore with
  | none => rfl
  | some store =>
    rw [Option.map_some, Option.any_some, Option.any_some, RoomStore.hasRoom_storeMessage]
    dsimp only
    rw [RoomStore.getMembers, RoomStore.storeMessage_shape.2.2]
    rfl

theorem isNew_stored (m m' : Said) : (st.stored roomId m).isNew m' =
    (st.isNew m' && !((st.isNew m && (st.part roomId).keeps) &&
      messageHash sha256 m = messageHash sha256 m')) := by
  rw [isNew, isNew, isNew, part, stored]
  cases st.roomStore with
  | none => simp
  | some store =>
    simp only [Option.map_some, Option.all_some, Option.any_some]
    rw [RoomStore.isNew_storeMessage, RoomStore.accepts]

/-- A message that is new to the store has all effects, and another one none. -/
theorem handleRoomMessage_effects (sender text senderPeerId now : String) :
    (st.handleRoomMessage roomId sender text senderPeerId now).1 =
      if st.isNew ⟨sender, text, now⟩ then
        (st.part roomId).effects senderPeerId (.chat sender text (some roomId))
      else [] := by
  rw [handleRoomMessage_eq]
  split
  · dsimp only
    rw [displayAndForward_effects, part_stored, RoomPart.effects]
  · rfl

theorem handleRoomMessage_part (sender text senderPeerId now : String) (roomId' : String) :
    (st.handleRoomMessage roomId' sender text senderPeerId now).2.part roomId =
      st.part roomId := by
  rw [handleRoomMessage_eq]
  split
  · exact (displayAndForward_part ..).trans (part_stored ..)
  · rfl

theorem isNew_displayAndForward (m m' : Said) (senderPeerId : String) :
    (st.displayAndForward roomId m senderPeerId).2.isNew m' = st.isNew m' := by
  rw [displayAndForward]
  split <;> rfl

/-- Only the hash of a message that is stored is taken. -/
theorem handleRoomMessage_isNew (sender text senderPeerId now : String) (m : Said) :
    (st.handleRoomMessage roomId sender text senderPeerId now).2.isNew m =
      (st.isNew m && !((st.isNew ⟨sender, text, now⟩ && (st.part roomId).keeps) &&
        messageHash sha256 ⟨sender, text, now⟩ = messageHash sha256 m)) := by
  rw [handleRoomMessage_eq]
  split
  · exact (isNew_displayAndForward ..).trans (isNew_stored ..)
  · rename_i hold
    rw [Bool.not_eq_true] at hold
    simp [hold]

end Part

end RoomNode

end OsModa.Mesh
