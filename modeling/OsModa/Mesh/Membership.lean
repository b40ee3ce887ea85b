import OsModa.Mesh.Daemon
import OsModa.Mesh.Gossip

/-!
The rooms of a running daemon: what its connections bring in, and what that does to the rows of
the members and sends back.

A member's row goes by the id that its connection was authenticated as
(`membership_changed_by_subject`). What a peer is sent on request goes by no row at all
(`history_kept_iff`).
-/

namespace OsModa.Mesh

open OsModa.Encoding OsModa.Machine

/-- Gossip protocol messages for room synchronization. -/
inductive GossipMessage where
  /-- Request messages from a room since a given timestamp. -/
  | roomSync (roomId : String) (messagesSince : Option String)
  /-- Reply with messages for sync. -/
  | roomSyncReply (roomId : String) (messages : List SyncMessage)
  /-- Notify that a peer joined a room. -/
  | roomJoinNotify (roomId peerId : String)
  /-- Notify that a peer left a room. -/
  | roomLeaveNotify (roomId peerId : String)

/-- The JSON texts of gossip messages. -/
structure GossipJson where
  encode : GossipMessage → String
  parse : String → Option GossipMessage

/-- How a gossip message is sent. -/
def GossipJson.chat (J : GossipJson) (gossip : GossipMessage) : MeshMessage :=
  .chat "__gossip__" (J.encode gossip) (some "__gossip_channel__")

/-- The gossip message that a message carries. -/
def GossipJson.ofMessage (J : GossipJson) : MeshMessage → Option GossipMessage
  | .chat sender text (some roomId) =>
    if roomId = "__gossip_channel__" ∧ sender = "__gossip__" then J.parse text else none
  | _ => none

variable {sha256 : List UInt8 → List UInt8}

namespace RoomNode

variable (st : RoomNode sha256)

/-- Handle an incoming gossip message. The id is the verified identity of the connection peer. -/
def handleGossip (J : GossipJson) (order : OrderBy) (authenticatedPeerId now : String) :
    GossipMessage → List RoomEffect × RoomNode sha256
  | .roomSync roomId messagesSince =>
    match st.handleSyncRequest order authenticatedPeerId roomId messagesSince with
    | none => ([], st)
    | some messages =>
      ([.sends authenticatedPeerId (J.chat (.roomSyncReply roomId messages))], st)
  | .roomSyncReply roomId messages => ([], (st.handleSyncReply roomId messages).2)
  | .roomJoinNotify roomId joiningPeer =>
    -- Only allow a peer to announce its own join — prevent impersonation
    if joiningPeer ≠ authenticatedPeerId then ([], st)
    else
      ([], { st with
        roomStore := st.roomStore.map fun store => (store.joinRoom roomId joiningPeer now).2 })
  | .roomLeaveNotify roomId leavingPeer =>
    -- Only allow a peer to announce its own leave — prevent impersonation
    if leavingPeer ≠ authenticatedPeerId then ([], st)
    else
      ([], { st with roomStore := st.roomStore.map fun store => store.leaveRoom roomId leavingPeer })

/-- Dispatch a received message to the appropriate handler: the part that is about rooms. -/
def dispatchIncoming (J : GossipJson) (order : OrderBy) (peerId now : String) (msg : MeshMessage) :
    List RoomEffect × RoomNode sha256 :=
  match msg with
  | .chat sender text (some roomId) =>
    if roomId = "__gossip_channel__" ∧ sender = "__gossip__" then
      match J.parse text with
      | none => ([], st)
      | some gossip => st.handleGossip J order peerId now gossip
    else st.handleRoomMessage roomId sender text peerId now
  | _ => ([], st)

/-- POST /room/create. Rooms that are made so are not in the store. -/
def roomCreateHandler (id : String) : RoomNode sha256 :=
  { st with rooms := st.rooms ++ [⟨id, [], []⟩] }

/-- A peer is added to the first room with that id. -/
def addMember (roomId peerId : String) : List Room → List Room
  | [] => []
  | room :: rooms =>
    if room.id = roomId then
      (if peerId ∈ room.members then room else { room with members := room.members ++ [peerId] })
        :: rooms
    else room :: addMember roomId peerId rooms

/-- POST /room/join — add a peer to a room's member list. -/
def roomJoinHandler (roomId peerId : String) : Except (Nat × String) Unit × RoomNode sha256 :=
  match st.findRoom roomId with
  | none => (.error (404, "room " ++ roomId ++ " not found"), st)
  | some _ => (.ok (), { st with rooms := addMember roomId peerId st.rooms })

end RoomNode

/-! ### The daemon with its rooms -/

/-- A running daemon, its rooms, and the database of them, which is in use if it could be opened
at the start. -/
structure MeshNode (sha256 : List UInt8 → List UInt8) where
  instanceId : String
  daemon : Daemon
  rooms : List Room
  database : RoomStore sha256
  storeOpen : Bool

namespace MeshNode

variable (n : MeshNode sha256)

def roomNode : RoomNode sha256 where
  instanceId := n.instanceId
  connections := n.daemon.connections.rows.map Entry.peerId
  rooms := n.rooms
  roomStore := if n.storeOpen then some n.database else none

/-- The daemon after a handler has changed its rooms and their store. -/
def withRooms (st : RoomNode sha256) : MeshNode sha256 :=
  { n with rooms := st.rooms, database := st.roomStore.getD n.database }

end MeshNode

inductive NodeInput where
  /-- A step of the daemon. If it is a restart, the database can be opened or not. -/
  | daemon (input : DaemonInput) (opens : Bool)
  | roomCreate (id : String)
  | roomJoin (roomId peerId : String)
  | roomSend (roomId text now : String)

inductive NodeEffect where
  | daemon (effect : DaemonEffect)
  | room (effect : RoomEffect)

/-- The messages that a step of the daemon dispatches are handled. -/
def dispatchAll (J : GossipJson) (order : OrderBy) (now : String) :
    List DaemonEffect → MeshNode sha256 → List NodeEffect × MeshNode sha256
  | [], n => ([], n)
  | .dispatched peerId msg :: effects, n =>
    let (sent, st) := n.roomNode.dispatchIncoming J order peerId now msg
    let (others, n) := dispatchAll J order now effects (n.withRooms st)
    (sent.map .room ++ others, n)
  | effect :: effects, n =>
    let (others, n) := dispatchAll J order now effects n
    (.daemon effect :: others, n)

/-- One step of the daemon with its rooms. -/
def nodeNext (J : GossipJson) (order : OrderBy) (input : NodeInput) (n : MeshNode sha256) :
    List NodeEffect × MeshNode sha256 :=
  match input with
  | .daemon input opens =>
    let (effects, d) := daemonNext input n.daemon
    match input.op with
    | .restart => ([], { n with daemon := d, rooms := [], storeOpen := opens })
    | _ => dispatchAll J order input.now effects { n with daemon := d }
  | .roomCreate id => ([], n.withRooms (n.roomNode.roomCreateHandler id))
  | .roomJoin roomId peerId => ([], n.withRooms (n.roomNode.roomJoinHandler roomId peerId).2)
  | .roomSend roomId text now =>
    match n.roomNode.roomSendHandler roomId text now with
    | (.error _, st) => ([], n.withRooms st)
    | (.ok effects, st) => (effects.map .room, n.withRooms st)

abbrev NodeStep (sha256 : List UInt8 → List UInt8) :=
  Step (MeshNode sha256) NodeInput (List NodeEffect)

/-- The message that comes in, with the id that its connection was authenticated as. -/
def incoming (t : NodeStep sha256) : Option (String × MeshMessage) :=
  match t.input with
  | .daemon ⟨.receives handle msg, _, _⟩ _ =>
    (t.before.daemon.loopOf handle).map fun l => (l.peerId, msg)
  | _ => none

/-- The gossip message that comes in. -/
def gossiped (J : GossipJson) (t : NodeStep sha256) : Option (String × GossipMessage) :=
  (incoming t).bind fun (peerId, msg) => (J.ofMessage msg).map (peerId, ·)

/-! ### The rows of the members -/

namespace RoomNode

/-- The row of a member, if there is a store. -/
def memberRow (st : RoomNode sha256) (roomId peerId : String) : Option (Option RoomMember) :=
  st.roomStore.map fun store => store.memberRow roomId peerId

/-- Who is a member of each room in memory. -/
def memberLists (st : RoomNode sha256) : List (String × List String) :=
  st.rooms.map fun room => (room.id, room.members)

section Rows

variable {st : RoomNode sha256}

theorem displayAndForward_roomStore (roomId : String) (m : Said) (senderPeerId : String) :
    (st.displayAndForward roomId m senderPeerId).2.roomStore = st.roomStore := by
  rw [displayAndForward]
  split <;> rfl

theorem handleRoomMessage_memberRow (roomId sender text senderPeerId now roomId' peerId : String) :
    (st.handleRoomMessage roomId sender text senderPeerId now).2.memberRow roomId' peerId =
      st.memberRow roomId' peerId := by
  rw [handleRoomMessage]
  cases hstore : st.roomStore with
  | none => rw [memberRow, displayAndForward_roomStore, memberRow]
  | some store =>
    have hmembers : (store.storeMessage roomId ⟨sender, text, now⟩).2.members = store.members :=
      RoomStore.storeMessage_shape.2.2
    dsimp only
    split
    · rename_i store' hresult
      rw [hresult] at hmembers
      change Option.map _ (displayAndForward _ _ _ _).2.roomStore = _
      rw [displayAndForward_roomStore, memberRow, hstore, Option.map_some, Option.map_some,
        RoomStore.memberRow, hmembers, RoomStore.memberRow]
    · rfl
    · rw [memberRow, displayAndForward_roomStore, memberRow]

theorem applySync_members (roomId : String) (messages : List SyncMessage)
    (store : RoomStore sha256) : (applySync roomId messages store).2.members = store.members := by
  induction messages generalizing store with
  | nil => rfl
  | cons msg messages ih =>
    -- Whatever the store answers, it goes on with the members that it had.
    have hnext : ∀ {result store'}, store.storeMessage roomId msg.toSaid = (result, store') →
        (applySync roomId messages store').2.members = store.members := by
      intro result store' hresult
      have hmembers : (store.storeMessage roomId msg.toSaid).2.members = store.members :=
        RoomStore.storeMessage_shape.2.2
      rw [hresult] at hmembers
      exact (ih store').trans hmembers
    rw [applySync]
    split
    · exact ih store
    · split
      · exact hnext ‹_›
      · exact hnext ‹_›
      · exact hnext ‹_›

theorem handleSyncReply_memberRow (roomId : String) (messages : List SyncMessage)
    (roomId' peerId : String) :
    (st.handleSyncReply roomId messages).2.memberRow roomId' peerId = st.memberRow roomId' peerId := by
  rw [handleSyncReply]
  cases hstore : st.roomStore with
  | none => rfl
  | some store =>
    dsimp only
    rw [memberRow, memberRow, hstore, Option.map_some, Option.map_some, RoomStore.memberRow,
      applySync_members, RoomStore.memberRow]

/-- A gossip message changes no row but the one of who sends it, and only by saying so. -/
theorem handleGossip_memberRow {J : GossipJson} {order : OrderBy} {authenticatedPeerId now : String}
    {gossip : GossipMessage} {roomId peerId : String}
    (hjoin : (authenticatedPeerId, gossip) ≠ (peerId, .roomJoinNotify roomId peerId))
    (hleave : (authenticatedPeerId, gossip) ≠ (peerId, .roomLeaveNotify roomId peerId)) :
    (st.handleGossip J order authenticatedPeerId now gossip).2.memberRow roomId peerId =
      st.memberRow roomId peerId := by
  cases gossip with
  | roomSync roomId' messagesSince =>
    rw [handleGossip]
    split <;> rfl
  | roomSyncReply roomId' messages => exact handleSyncReply_memberRow roomId' messages roomId peerId
  | roomJoinNotify roomId' joiningPeer =>
    rw [handleGossip]
    split
    · rfl
    · rename_i hself
      obtain rfl := not_not.mp hself
      have hne : (roomId', joiningPeer) ≠ (roomId, peerId) := by
        rintro ⟨⟩
        exact hjoin rfl
      rw [memberRow, Option.map_map, memberRow]
      exact congrArg (Option.map · st.roomStore) (funext fun _ => RoomStore.memberRow_joinRoom hne)
  | roomLeaveNotify roomId' leavingPeer =>
    rw [handleGossip]
    split
    · rfl
    · rename_i hself
      obtain rfl := not_not.mp hself
      have hne : (roomId', leavingPeer) ≠ (roomId, peerId) := by
        rintro ⟨⟩
        exact hleave rfl
      rw [memberRow, Option.map_map, memberRow]
      exact congrArg (Option.map · st.roomStore) (funext fun _ => RoomStore.memberRow_leaveRoom hne)

theorem dispatchIncoming_memberRow {J : GossipJson} {order : OrderBy} {id now : String}
    {msg : MeshMessage} {roomId peerId : String}
    (hjoin : (J.ofMessage msg).map (id, ·) ≠ some (peerId, .roomJoinNotify roomId peerId))
    (hleave : (J.ofMessage msg).map (id, ·) ≠ some (peerId, .roomLeaveNotify roomId peerId)) :
    (st.dispatchIncoming J order id now msg).2.memberRow roomId peerId =
      st.memberRow roomId peerId := by
  unfold dispatchIncoming
  split
  · rename_i sender text roomId'
    by_cases hgossip : roomId' = "__gossip_channel__" ∧ sender = "__gossip__"
    · rw [if_pos hgossip]
      rw [GossipJson.ofMessage, if_pos hgossip] at hjoin hleave
      cases hparse : J.parse text with
      | none => rfl
      | some gossip =>
        rw [hparse] at hjoin hleave
        exact handleGossip_memberRow (fun h => hjoin (congrArg some h))
          fun h => hleave (congrArg some h)
    · rw [if_neg hgossip]
      exact handleRoomMessage_memberRow ..
  · rfl

/-! In memory, what comes in changes no list of members. -/

theorem pushMessage_memberLists (roomId : String) (m : Said) (rooms : List Room) :
    (pushMessage roomId m rooms).map (fun room => (room.id, room.members)) =
      rooms.map fun room => (room.id, room.members) := by
  induction rooms with
  | nil => rfl
  | cons room rooms ih =>
    rw [pushMessage]
    split
    · rfl
    · rw [List.map_cons, List.map_cons, ih]

theorem displayAndForward_memberLists (roomId : String) (m : Said) (senderPeerId : String) :
    (st.displayAndForward roomId m senderPeerId).2.memberLists = st.memberLists := by
  rw [displayAndForward]
  split
  · rfl
  · exact pushMessage_memberLists ..

theorem handleRoomMessage_memberLists (roomId sender text senderPeerId now : String) :
    (st.handleRoomMessage roomId sender text senderPeerId now).2.memberLists = st.memberLists := by
  rw [handleRoomMessage]
  split
  · exact displayAndForward_memberLists ..
  · split
    · exact displayAndForward_memberLists ..
    · rfl
    · exact displayAndForward_memberLists ..

theorem dispatchIncoming_memberLists (J : GossipJson) (order : OrderBy) (id now : String)
    (msg : MeshMessage) :
    (st.dispatchIncoming J order id now msg).2.memberLists = st.memberLists := by
  unfold dispatchIncoming
  split
  · split
    · split
      · rfl
      · rename_i gossip hparse
        cases gossip with
        | roomSync roomId messagesSince =>
          rw [handleGossip]
          split <;> rfl
        | roomSyncReply roomId messages =>
          rw [handleGossip, handleSyncReply]
          split <;> rfl
        | roomJoinNotify roomId joiningPeer =>
          rw [handleGossip]
          split <;> rfl
        | roomLeaveNotify roomId leavingPeer =>
          rw [handleGossip]
          split <;> rfl
    · exact handleRoomMessage_memberLists ..
  · rfl

end Rows

end RoomNode

/-! ### What a step does -/

section Steps

variable {J : GossipJson} {order : OrderBy} {n : MeshNode sha256}

theorem withRooms_database {st : RoomNode sha256} (h : st.roomStore = n.roomNode.roomStore) :
    (n.withRooms st).database = n.database := by
  change st.roomStore.getD n.database = _
  rw [h, MeshNode.roomNode]
  cases n.storeOpen <;> rfl

theorem withRooms_memberRow {st : RoomNode sha256} {roomId peerId : String}
    (h : st.memberRow roomId peerId = n.roomNode.memberRow roomId peerId) :
    (n.withRooms st).database.memberRow roomId peerId = n.database.memberRow roomId peerId := by
  rw [RoomNode.memberRow, RoomNode.memberRow, MeshNode.roomNode] at h
  change (st.roomStore.getD n.database).memberRow roomId peerId = _
  cases hstore : st.roomStore with
  | none => rfl
  | some store =>
    rw [hstore] at h
    cases hopen : n.storeOpen with
    | false =>
      rw [hopen] at h
      cases h
    | true =>
      rw [hopen] at h
      exact Option.some.inj h

theorem dispatchAll_of_none {now : String} {effects : List DaemonEffect}
    (h : ∀ id msg, .dispatched id msg ∉ effects) :
    dispatchAll J order now effects n = (effects.map .daemon, n) := by
  induction effects with
  | nil => rfl
  | cons effect effects ih =>
    have hrest := ih fun id msg hmem => h id msg (List.mem_cons_of_mem _ hmem)
    have hne : ∀ id msg, effect = .dispatched id msg → False := by
      rintro id msg rfl
      exact h id msg List.mem_cons_self
    rw [dispatchAll, hrest, List.map_cons]
    exact hne

/-- A message that comes in is dispatched as one of the connection's peer. -/
theorem nodeNext_incoming {i : NodeInput} {id : String} {msg : MeshMessage}
    (h : incoming (stepOf (nodeNext J order) i n) = some (id, msg)) :
    ∃ now d, d.connections = n.daemon.connections ∧
      nodeNext J order i n =
        ((({ n with daemon := d } : MeshNode sha256).roomNode.dispatchIncoming J order id now
            msg).1.map .room,
          ({ n with daemon := d } : MeshNode sha256).withRooms
            (({ n with daemon := d } : MeshNode sha256).roomNode.dispatchIncoming J order id now
              msg).2) := by
  cases i with
  | daemon input opens =>
    obtain ⟨op, now, saves⟩ := input
    cases op with
    | receives handle msg' =>
      change (n.daemon.loopOf handle).map _ = _ at h
      obtain ⟨l, hl, hincoming⟩ := Option.map_eq_some_iff.mp h
      obtain ⟨rfl, rfl⟩ := Prod.mk.inj hincoming
      refine ⟨now, (n.daemon.recvMsg now handle msg').2, ?_, ?_⟩
      · rw [Daemon.recvMsg, hl]
        dsimp only
        split <;> rfl
      · have heffects : (n.daemon.recvMsg now handle msg').1 = [.dispatched l.peerId msg'] := by
          rw [Daemon.recvMsg, hl]
        change dispatchAll J order now (n.daemon.recvMsg now handle msg').1 _ = _
        rw [heffects]
        exact congrArg (·, _) (List.append_nil _)
    | _ => cases h
  | roomCreate id => cases h
  | roomJoin roomId peerId => cases h
  | roomSend roomId text now => cases h

/-- Any other step leaves the database alone. -/
theorem nodeNext_database {i : NodeInput}
    (h : incoming (stepOf (nodeNext J order) i n) = none) :
    (nodeNext J order i n).2.database = n.database := by
  cases i with
  | daemon input opens =>
    have hnone : ∀ id msg, .dispatched id msg ∉ (daemonNext input n.daemon).1 := by
      intro id msg hmem
      obtain ⟨handle, l, hop, hl, -⟩ := (dispatched_step_iff input n.daemon id msg).mp hmem
      obtain ⟨op, now, saves⟩ := input
      obtain rfl : op = .receives handle msg := hop
      change (n.daemon.loopOf handle).map _ = none at h
      rw [hl] at h
      cases h
    rw [nodeNext]
    dsimp only
    split
    · rfl
    · rw [dispatchAll_of_none hnone]
  | roomCreate id => exact withRooms_database rfl
  | roomJoin roomId peerId =>
    apply withRooms_database
    rw [RoomNode.roomJoinHandler]
    split <;> rfl
  | roomSend roomId text now =>
    rw [nodeNext, RoomNode.roomSendHandler]
    cases n.roomNode.findRoom roomId with
    | none => exact withRooms_database rfl
    | some room => exact withRooms_database rfl

/-- A row changes only when its own member announces it. -/
theorem memberRow_step {i : NodeInput} {roomId peerId : String}
    (hjoin : gossiped J (stepOf (nodeNext J order) i n) ≠
      some (peerId, .roomJoinNotify roomId peerId))
    (hleave : gossiped J (stepOf (nodeNext J order) i n) ≠
      some (peerId, .roomLeaveNotify roomId peerId)) :
    (nodeNext J order i n).2.database.memberRow roomId peerId =
      n.database.memberRow roomId peerId := by
  cases hincoming : incoming (stepOf (nodeNext J order) i n) with
  | none => rw [nodeNext_database hincoming]
  | some message =>
    obtain ⟨id, msg⟩ := message
    rw [gossiped, hincoming] at hjoin hleave
    obtain ⟨now, d, -, hnext⟩ := nodeNext_incoming hincoming
    rw [hnext]
    exact withRooms_memberRow (RoomNode.dispatchIncoming_memberRow hjoin hleave)

end Steps

/-- In every run, a row of the members changes only by a message that comes in on a connection
that was authenticated as that member, and in memory no message changes who is a member. -/
theorem membership_changed_by_subject (J : GossipJson) (order : OrderBy) (inputs : List NodeInput)
    (n : MeshNode sha256) (t : NodeStep sha256) (ht : t ∈ trace (nodeNext J order) inputs n) :
    (∀ roomId peerId,
      t.after.database.memberRow roomId peerId ≠ t.before.database.memberRow roomId peerId →
        gossiped J t = some (peerId, .roomJoinNotify roomId peerId) ∨
          gossiped J t = some (peerId, .roomLeaveNotify roomId peerId)) ∧
      (incoming t ≠ none → t.after.roomNode.memberLists = t.before.roomNode.memberLists) := by
  obtain ⟨_, _, -, hstep⟩ := mem_trace_split ht
  rw [hstep]
  refine ⟨fun roomId peerId hchanged => ?_, fun hincoming => ?_⟩
  · by_contra hnone
    push Not at hnone
    exact hchanged (memberRow_step hnone.1 hnone.2)
  · obtain ⟨⟨id, msg⟩, hmessage⟩ := Option.ne_none_iff_exists'.mp hincoming
    obtain ⟨now, d, -, hnext⟩ := nodeNext_incoming hmessage
    rw [stepOf_after, hnext]
    exact RoomNode.dispatchIncoming_memberLists J order id now msg

/-! A peer that joins a room. -/

def SyncMessage.json (m : SyncMessage) : List Char :=
  jsonObject [("sender", jsonString m.sender.toList), ("content", jsonString m.content.toList),
    ("timestamp", jsonString m.timestamp.toList), ("msg_hash", jsonString m.msgHash.toList)]

def GossipMessage.json : GossipMessage → List Char
  | .roomSync roomId messagesSince =>
    jsonObject [("gossip_type", jsonString "room_sync".toList), ("room_id", jsonString roomId.toList),
      ("messages_since", messagesSince.elim "null".toList fun ts => jsonString ts.toList)]
  | .roomSyncReply roomId messages =>
    jsonObject [("gossip_type", jsonString "room_sync_reply".toList),
      ("room_id", jsonString roomId.toList),
      ("messages", jsonArray (messages.map SyncMessage.json))]
  | .roomJoinNotify roomId peerId =>
    jsonObject [("gossip_type", jsonString "room_join_notify".toList),
      ("room_id", jsonString roomId.toList), ("peer_id", jsonString peerId.toList)]
  | .roomLeaveNotify roomId peerId =>
    jsonObject [("gossip_type", jsonString "room_leave_notify".toList),
      ("room_id", jsonString roomId.toList), ("peer_id", jsonString peerId.toList)]

/-- The texts, with a parser that knows some messages. -/
def knownJson (known : List GossipMessage) : GossipJson where
  encode gossip := String.ofList gossip.json
  parse text := known.find? fun gossip => gossip.json = text.toList

/-- What is known of the JSON of the messages below. -/
def someJson : GossipJson :=
  knownJson [.roomJoinNotify "r1" someRemote.instanceId, .roomSync "r1" none]

/-- A daemon whose database holds a room of its own. -/
def roomOwner : MeshNode id where
  instanceId := "owner"
  daemon := .fresh
  rooms := [⟨"r1", [], []⟩]
  database := ((RoomStore.absent : RoomStore id).createRoom "r1" "owner" "2026-03-01T00:00:00Z").2
  storeOpen := true

def receives (msg : MeshMessage) : NodeInput := .daemon (inputOf (.receives 0 msg)) true

def remoteConnects : NodeInput := .daemon connects true

def remoteJoins : NodeInput := receives (someJson.chat (.roomJoinNotify "r1" someRemote.instanceId))

/-- The state in which the remote is connected. -/
def remoteConnected : MeshNode id := (nodeNext someJson OrderBy.stable remoteConnects roomOwner).2

/-- Its own message adds it. -/
theorem remote_joined :
    let t := stepOf (nodeNext someJson OrderBy.stable) remoteJoins remoteConnected
    (gossiped someJson t = some (someRemote.instanceId, .roomJoinNotify "r1" someRemote.instanceId) ∨
      gossiped someJson t =
        some (someRemote.instanceId, .roomLeaveNotify "r1" someRemote.instanceId)) ∧
      t.after.roomNode.memberLists = t.before.roomNode.memberLists := by
  have hchanges := membership_changed_by_subject someJson OrderBy.stable [remoteConnects, remoteJoins]
    roomOwner (stepOf (nodeNext someJson OrderBy.stable) remoteJoins remoteConnected)
    (List.mem_cons_of_mem _ List.mem_cons_self)
  refine ⟨hchanges.1 "r1" someRemote.instanceId ?_, hchanges.2 ?_⟩
  · decide +kernel
  · decide +kernel

/-! ### What a peer is sent of a room -/

/-- A peer that asks for the messages of a room is sent them only if it is a member. -/
def KeepsHistory (J : GossipJson) (t : NodeStep sha256) : Prop :=
  ∀ peerId roomId since messages, gossiped J t = some (peerId, .roomSync roomId since) →
    .room (.sends peerId (J.chat (.roomSyncReply roomId messages))) ∈ t.output →
      peerId ∈ t.before.database.getMembers roomId

/-- A peer that asks, while a connection is filed for it, for a room of which the store has
messages since then, is a member. -/
def AskedByMember (J : GossipJson) (t : NodeStep sha256) : Prop :=
  ∀ peerId roomId since, gossiped J t = some (peerId, .roomSync roomId since) →
    peerId ∈ t.before.roomNode.connections → t.before.storeOpen = true →
    (∃ m ∈ t.before.database.roomRows roomId, since.all (· < m.timestamp) = true) →
      peerId ∈ t.before.database.getMembers roomId

/-- When a page of the history is empty. -/
theorem RoomStore.getHistory_ne_nil_iff {s : RoomStore sha256} {order : OrderBy} {roomId : String}
    {since : Option String} {limit : Nat} (hlimit : 0 < limit) :
    s.getHistory order roomId since limit ≠ [] ↔
      ∃ m ∈ s.roomRows roomId, since.all (· < m.timestamp) = true := by
  have hselected : s.getHistory order roomId since limit ≠ [] ↔ s.selected order roomId since ≠ [] := by
    rw [getHistory, ne_eq, List.take_eq_nil_iff]
    simp [hlimit.ne']
  rw [hselected]
  cases since with
  | none =>
    rw [selected, ne_eq, ← List.length_eq_zero_iff, (order.desc_perm _).length_eq,
      List.length_eq_zero_iff, List.eq_nil_iff_forall_not_mem]
    simp
  | some ts =>
    rw [selected, ne_eq, ← List.length_eq_zero_iff, (order.asc_perm _).length_eq,
      List.length_eq_zero_iff, List.eq_nil_iff_forall_not_mem]
    simp

/-- When a request is answered. -/
theorem RoomNode.handleSyncRequest_ne_none_iff {st : RoomNode sha256} {order : OrderBy}
    {peerId roomId : String} {since : Option String} :
    st.handleSyncRequest order peerId roomId since ≠ none ↔
      peerId ∈ st.connections ∧ ∃ store, st.roomStore = some store ∧
        ∃ m ∈ store.roomRows roomId, since.all (· < m.timestamp) = true := by
  rw [handleSyncRequest]
  cases st.roomStore with
  | none => simp
  | some store =>
    have hpage : store.getHistory order roomId since 100 ≠ [] ↔
        ∃ m ∈ store.roomRows roomId, since.all (· < m.timestamp) = true :=
      RoomStore.getHistory_ne_nil_iff (by decide)
    simp only [Option.some.injEq, exists_eq_left', ← hpage, List.isEmpty_iff, List.map_eq_nil_iff]
    by_cases hempty : store.getHistory order roomId since 100 = []
    · simp [hempty]
    · by_cases hfiled : peerId ∈ st.connections <;> simp [hempty, hfiled]

section History

variable {J : GossipJson} {order : OrderBy} {n : MeshNode sha256}

/-- A gossip message is handled as one of the peer. -/
theorem RoomNode.dispatchIncoming_of_gossip {st : RoomNode sha256} {id now : String}
    {msg : MeshMessage} {gossip : GossipMessage} (h : J.ofMessage msg = some gossip) :
    st.dispatchIncoming J order id now msg = st.handleGossip J order id now gossip := by
  unfold GossipJson.ofMessage at h
  unfold RoomNode.dispatchIncoming
  split at h
  · split at h
    · rename_i hgossip
      rw [if_pos hgossip, h]
    · cases h
  · cases h

/-- A request is answered, or nothing is sent. -/
theorem nodeNext_roomSync {i : NodeInput} {peerId roomId : String} {since : Option String}
    (h : gossiped J (stepOf (nodeNext J order) i n) = some (peerId, .roomSync roomId since)) :
    (nodeNext J order i n).1 =
      match n.roomNode.handleSyncRequest order peerId roomId since with
      | none => []
      | some messages => [.room (.sends peerId (J.chat (.roomSyncReply roomId messages)))] := by
  obtain ⟨⟨id, msg⟩, hincoming, hgossip⟩ := Option.bind_eq_some_iff.mp h
  obtain ⟨gossip, hmessage, heq⟩ := Option.map_eq_some_iff.mp hgossip
  obtain ⟨rfl, rfl⟩ := Prod.mk.inj heq
  obtain ⟨now, d, hconnections, hnext⟩ := nodeNext_incoming hincoming
  have hsame : ({ n with daemon := d } : MeshNode sha256).roomNode.handleSyncRequest order id roomId
      since = n.roomNode.handleSyncRequest order id roomId since := by
    rw [MeshNode.roomNode, MeshNode.roomNode, hconnections]
  rw [hnext, RoomNode.dispatchIncoming_of_gossip hmessage, RoomNode.handleGossip, hsame]
  cases n.roomNode.handleSyncRequest order id roomId since <;> rfl

theorem keepsHistory_iff (i : NodeInput) (n : MeshNode sha256) :
    KeepsHistory J (stepOf (nodeNext J order) i n) ↔
      AskedByMember J (stepOf (nodeNext J order) i n) := by
  have hstore : ∀ (roomId : String) (since : Option String), (∃ store, n.roomNode.roomStore = some store ∧
      ∃ m ∈ store.roomRows roomId, since.all (· < m.timestamp) = true) ↔ n.storeOpen = true ∧
        ∃ m ∈ n.database.roomRows roomId, since.all (· < m.timestamp) = true := by
    intro roomId since
    rw [MeshNode.roomNode]
    cases n.storeOpen <;> simp
  constructor
  · intro hkeeps peerId roomId since hgossip hfiled hopen hrows
    have hanswer : n.roomNode.handleSyncRequest order peerId roomId since ≠ none :=
      RoomNode.handleSyncRequest_ne_none_iff.mpr ⟨hfiled, (hstore roomId since).mpr ⟨hopen, hrows⟩⟩
    obtain ⟨messages, hmessages⟩ := Option.ne_none_iff_exists'.mp hanswer
    refine hkeeps peerId roomId since messages hgossip ?_
    rw [stepOf_output, nodeNext_roomSync hgossip]
    rw [hmessages]
    exact List.mem_singleton_self _
  · intro hasked peerId roomId since messages hgossip hsent
    rw [stepOf_output, nodeNext_roomSync hgossip] at hsent
    have hanswer : n.roomNode.handleSyncRequest order peerId roomId since ≠ none := by
      intro hnone
      rw [hnone] at hsent
      cases hsent
    obtain ⟨hfiled, hrows⟩ := RoomNode.handleSyncRequest_ne_none_iff.mp hanswer
    obtain ⟨hopen, hrows⟩ := (hstore roomId since).mp hrows
    exact hasked peerId roomId since hgossip hfiled hopen hrows

end History

/-- In every run, the history of rooms is kept if and only if whoever asks for it with success is
a member. -/
theorem history_kept_iff (J : GossipJson) (order : OrderBy) (inputs : List NodeInput)
    (n : MeshNode sha256) :
    (∀ t ∈ trace (nodeNext J order) inputs n, KeepsHistory J t) ↔
      ∀ t ∈ trace (nodeNext J order) inputs n, AskedByMember J t :=
  all_good_iff (I := fun _ => True) (fun i n _ => keepsHistory_iff i n)
    (fun _ _ _ _ => trivial) inputs trivial

/-! A peer asks for the messages of a room that it is not in. -/

def remoteWrites : NodeInput :=
  .daemon ⟨.receives 0 (.chat "remote" "hello" (some "r1")), "2026-03-01T00:00:00Z", true⟩ true

def remoteAsks : NodeInput := receives (someJson.chat (.roomSync "r1" none))

/-- It gets them. -/
theorem remote_reads : ¬ ∀ (inputs : List NodeInput) (n : MeshNode id),
    ∀ t ∈ trace (nodeNext someJson OrderBy.stable) inputs n, KeepsHistory someJson t := by
  intro h
  have hkeeps := h [remoteConnects, remoteWrites, remoteAsks] roomOwner _
    (List.mem_cons_of_mem _ (List.mem_cons_of_mem _ List.mem_cons_self))
  have hmember := (keepsHistory_iff _ _).mp hkeeps someRemote.instanceId "r1" none rfl
    (by decide +kernel) rfl (by decide +kernel)
  exact absurd hmember (by decide +kernel)

end OsModa.Mesh
