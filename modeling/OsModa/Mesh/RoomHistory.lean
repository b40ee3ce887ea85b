import OsModa.Mesh.Membership

/-!
The history of rooms in memory, and the numbers of its messages.

A message is numbered by how many there are before it, in the same lock as it is appended, by
both handlers that append one. So each room holds what has arrived in it, numbered from zero on,
and a history request returns the end of that (`room_history_numbered`).
-/

namespace OsModa.Mesh

open OsModa.Machine

variable {sha256 : List UInt8 → List UInt8}

namespace RoomNode

/-- GET /room/history — get recent messages from a room. -/
def roomHistoryHandler (st : RoomNode sha256) (roomId : String) (limit : Option Nat) :
    Except (Nat × String) (List RoomMessage) :=
  match st.findRoom roomId with
  | none => .error (404, "room " ++ roomId ++ " not found")
  | some room =>
    let limit := min (limit.getD 50) 500
    let messages := (room.messages.reverse.take limit).reverse
    -- Return in chronological order
    .ok (messages.mergeSort fun m n => m.seq ≤ n.seq)

/-- A daemon that has just been started. -/
def started (instanceId : String) (roomStore : Option (RoomStore sha256)) : RoomNode sha256 :=
  ⟨instanceId, [], [], roomStore⟩

end RoomNode

/-! ### What happens to the rooms -/

/-- What a daemon does that rooms depend on. Connections come and go by themselves. -/
inductive RoomInput where
  | connections (ids : List String)
  | create (id : String)
  | join (roomId peerId : String)
  | send (roomId text now : String)
  | receive (peerId now : String) (msg : MeshMessage)

/-- The message that a handler has put in the history of its room. -/
def arrival (roomId : String) (m : Said) (effects : List RoomEffect) : Option (String × Said) :=
  if effects.any (·.isDisplayed) then some (roomId, m) else none

/-- One step under the lock of the state, with the message that arrives in a room by it. -/
def roomNext (J : GossipJson) (order : OrderBy) (input : RoomInput) (st : RoomNode sha256) :
    Option (String × Said) × RoomNode sha256 :=
  match input with
  | .connections ids => (none, { st with connections := ids })
  | .create id => (none, st.roomCreateHandler id)
  | .join roomId peerId => (none, (st.roomJoinHandler roomId peerId).2)
  | .send roomId text now =>
    match st.roomSendHandler roomId text now with
    | (.error _, st) => (none, st)
    | (.ok effects, st) => (arrival roomId ⟨st.instanceId, text, now⟩ effects, st)
  | .receive peerId now msg =>
    let (effects, st) := st.dispatchIncoming J order peerId now msg
    match msg with
    | .chat sender text (some roomId) => (arrival roomId ⟨sender, text, now⟩ effects, st)
    | _ => (none, st)

abbrev RoomStep (sha256 : List UInt8 → List UInt8) :=
  Step (RoomNode sha256) RoomInput (Option (String × Said))

/-- What arrived in a room, oldest first. -/
def arrivals (roomId : String) (history : List (RoomStep sha256)) : List Said :=
  (history.filterMap Step.output).filterMap fun (id, m) => if id = roomId then some m else none

/-- Messages with their places as their numbers. -/
def numbered (messages : List Said) : List RoomMessage :=
  messages.mapIdx fun i m => ⟨m.sender, m.content, m.timestamp, i⟩

/-! ### What a step does to the rooms -/

/-- The rooms after a step: a message is pushed, or the messages of the rooms that are there stay
as they are. -/
structure RoomsKept (rooms rooms' : List Room) : Prop where
  find : ∀ id, (rooms.find? fun r => r.id = id).map Room.messages =
    (rooms'.find? fun r => r.id = id).map Room.messages ∨
      rooms.find? (fun r => r.id = id) = none ∧
        (rooms'.find? fun r => r.id = id).map Room.messages = some []
  all : ∀ room' ∈ rooms', room'.messages = [] ∨ ∃ room ∈ rooms, room.messages = room'.messages

theorem RoomsKept.refl (rooms : List Room) : RoomsKept rooms rooms :=
  ⟨fun _ => .inl rfl, fun room hroom => .inr ⟨room, hroom, rfl⟩⟩

theorem mem_pushMessage {roomId : String} {m : Said} {rooms : List Room} {room' : Room}
    (h : room' ∈ pushMessage roomId m rooms) :
    room' ∈ rooms ∨ ∃ room ∈ rooms, room' = room.push m := by
  induction rooms with
  | nil => exact .inl h
  | cons room rooms ih =>
    rw [pushMessage] at h
    split at h
    · obtain rfl | hrest := List.mem_cons.mp h
      · exact .inr ⟨room, List.mem_cons_self, rfl⟩
      · exact .inl (List.mem_cons_of_mem _ hrest)
    · obtain rfl | hrest := List.mem_cons.mp h
      · exact .inl List.mem_cons_self
      · obtain hthere | ⟨room₀, hroom₀, hpush⟩ := ih hrest
        · exact .inl (List.mem_cons_of_mem _ hthere)
        · exact .inr ⟨room₀, List.mem_cons_of_mem _ hroom₀, hpush⟩

theorem roomsKept_create (rooms : List Room) (id : String) :
    RoomsKept rooms (rooms ++ [⟨id, [], []⟩]) where
  find id' := by
    rw [List.find?_append]
    cases hfind : rooms.find? fun r => r.id = id' with
    | some room => exact .inl rfl
    | none =>
      by_cases hid : id = id'
      · exact .inr ⟨rfl, by simp [hid]⟩
      · exact .inl (by simp [hid])
  all room' hroom' := by
    obtain hthere | hnew := List.mem_append.mp hroom'
    · exact .inr ⟨room', hthere, rfl⟩
    · obtain rfl := List.mem_singleton.mp hnew
      exact .inl rfl

theorem roomsKept_addMember (roomId peerId : String) (rooms : List Room) :
    RoomsKept rooms (RoomNode.addMember roomId peerId rooms) := by
  induction rooms with
  | nil => exact .refl []
  | cons room rooms ih =>
    rw [RoomNode.addMember]
    split
    · have hsame : ∀ found : Room, found = (if peerId ∈ room.members then room
          else { room with members := room.members ++ [peerId] }) →
          found.id = room.id ∧ found.messages = room.messages := by
        rintro found rfl
        split <;> exact ⟨rfl, rfl⟩
      obtain ⟨hid, hmessages⟩ := hsame _ rfl
      refine ⟨fun id => .inl ?_, fun room' hroom' => .inr ?_⟩
      · rw [List.find?_cons, List.find?_cons, hid]
        split
        · exact congrArg some hmessages.symm
        · rfl
      · obtain rfl | hrest := List.mem_cons.mp hroom'
        · exact ⟨room, List.mem_cons_self, hmessages.symm⟩
        · exact ⟨room', List.mem_cons_of_mem _ hrest, rfl⟩
    · refine ⟨fun id => ?_, fun room' hroom' => ?_⟩
      · rw [List.find?_cons, List.find?_cons]
        split
        · exact .inl rfl
        · exact ih.find id
      · obtain rfl | hrest := List.mem_cons.mp hroom'
        · exact .inr ⟨room', List.mem_cons_self, rfl⟩
        · obtain hempty | ⟨room₀, hroom₀, hsame⟩ := ih.all room' hrest
          · exact .inl hempty
          · exact .inr ⟨room₀, List.mem_cons_of_mem _ hroom₀, hsame⟩

namespace RoomNode

variable {st : RoomNode sha256}

theorem handleGossip_rooms (J : GossipJson) (order : OrderBy) (id now : String)
    (gossip : GossipMessage) : (st.handleGossip J order id now gossip).2.rooms = st.rooms := by
  unfold handleGossip
  cases gossip with
  | roomSync roomId since =>
    dsimp only
    split <;> rfl
  | roomSyncReply roomId messages =>
    unfold handleSyncReply
    dsimp only
    split <;> rfl
  | roomJoinNotify roomId joining =>
    dsimp only
    split <;> rfl
  | roomLeaveNotify roomId leaving =>
    dsimp only
    split <;> rfl

/-- Gossip puts nothing in the history of a room. -/
theorem arrival_handleGossip (J : GossipJson) (order : OrderBy) (id now : String)
    (gossip : GossipMessage) (roomId : String) (m : Said) :
    arrival roomId m (st.handleGossip J order id now gossip).1 = none := by
  have hnone : ∀ effects : List RoomEffect, (∀ e ∈ effects, e.isDisplayed = false) →
      arrival roomId m effects = none := fun effects h =>
    if_neg (by simpa [List.any_eq_true] using h)
  apply hnone
  unfold handleGossip
  cases gossip with
  | roomSync roomId since =>
    dsimp only
    split
    · exact fun _ h => absurd h List.not_mem_nil
    · exact fun e he => (List.mem_singleton.mp he) ▸ rfl
  | roomSyncReply roomId messages => exact fun _ h => absurd h List.not_mem_nil
  | roomJoinNotify roomId joining =>
    dsimp only
    split <;> exact fun _ h => absurd h List.not_mem_nil
  | roomLeaveNotify roomId leaving =>
    dsimp only
    split <;> exact fun _ h => absurd h List.not_mem_nil

/-- A message is displayed and pushed, or neither. -/
theorem displayAndForward_arrival (roomId : String) (m : Said) (senderPeerId : String) :
    (arrival roomId m (st.displayAndForward roomId m senderPeerId).1 = some (roomId, m) ∧
      (st.findRoom roomId).isSome ∧
      (st.displayAndForward roomId m senderPeerId).2.rooms = pushMessage roomId m st.rooms) ∨
    (arrival roomId m (st.displayAndForward roomId m senderPeerId).1 = none ∧
      (st.displayAndForward roomId m senderPeerId).2 = st) := by
  unfold displayAndForward
  cases hfind : st.findRoom roomId with
  | none => exact .inr ⟨rfl, rfl⟩
  | some room => exact .inl ⟨rfl, rfl, rfl⟩

theorem handleRoomMessage_arrival (roomId sender text senderPeerId now : String) :
    (arrival roomId ⟨sender, text, now⟩
        (st.handleRoomMessage roomId sender text senderPeerId now).1 =
          some (roomId, ⟨sender, text, now⟩) ∧
      (st.findRoom roomId).isSome ∧
      (st.handleRoomMessage roomId sender text senderPeerId now).2.rooms =
        pushMessage roomId ⟨sender, text, now⟩ st.rooms) ∨
    (arrival roomId ⟨sender, text, now⟩
        (st.handleRoomMessage roomId sender text senderPeerId now).1 = none ∧
      (st.handleRoomMessage roomId sender text senderPeerId now).2.rooms = st.rooms) := by
  rw [handleRoomMessage_eq]
  split
  · obtain ⟨harrival, hfind, hrooms⟩ | ⟨harrival, hsame⟩ :=
      (st.stored roomId ⟨sender, text, now⟩).displayAndForward_arrival roomId
        ⟨sender, text, now⟩ senderPeerId
    · refine .inl ⟨?_, hfind, hrooms⟩
      rw [← harrival]
      unfold arrival
      split <;> simp [RoomEffect.isDisplayed]
    · have hrooms := congrArg RoomNode.rooms hsame
      refine .inr ⟨?_, hrooms⟩
      rw [← harrival]
      unfold arrival
      split <;> simp [RoomEffect.isDisplayed]
  · exact .inr ⟨rfl, rfl⟩

end RoomNode

/-- **One step.** A message arrives in a room that is there and is pushed, or the messages stay. -/
theorem roomNext_cases (J : GossipJson) (order : OrderBy) (input : RoomInput)
    (st : RoomNode sha256) :
    (∃ roomId m, (roomNext J order input st).1 = some (roomId, m) ∧ (st.findRoom roomId).isSome ∧
      (roomNext J order input st).2.rooms = pushMessage roomId m st.rooms) ∨
    ((roomNext J order input st).1 = none ∧
      RoomsKept st.rooms (roomNext J order input st).2.rooms) := by
  cases input with
  | connections ids => exact .inr ⟨rfl, .refl _⟩
  | create id => exact .inr ⟨rfl, roomsKept_create _ _⟩
  | join roomId peerId =>
    refine .inr ⟨rfl, ?_⟩
    change RoomsKept _ (st.roomJoinHandler roomId peerId).2.rooms
    unfold RoomNode.roomJoinHandler
    split
    · exact .refl _
    · exact roomsKept_addMember ..
  | send roomId text now =>
    simp only [roomNext, RoomNode.roomSendHandler]
    cases hfind : st.findRoom roomId with
    | none => exact .inr ⟨rfl, .refl _⟩
    | some room => exact .inl ⟨roomId, ⟨st.instanceId, text, now⟩, rfl, by rw [hfind]; rfl, rfl⟩
  | receive peerId now msg =>
    have hgossip : ∀ gossip, RoomsKept st.rooms (st.handleGossip J order peerId now gossip).2.rooms :=
      fun gossip => by
        rw [RoomNode.handleGossip_rooms]
        exact .refl _
    cases msg with
    | chat sender text room =>
      cases room with
      | none => exact .inr ⟨rfl, .refl _⟩
      | some roomId =>
        simp only [roomNext, RoomNode.dispatchIncoming]
        by_cases hchannel : roomId = "__gossip_channel__" ∧ sender = "__gossip__"
        · -- What gossip does is seen by no one in the room.
          rw [if_pos hchannel]
          cases hparse : J.parse text with
          | none => exact .inr ⟨rfl, .refl _⟩
          | some gossip =>
            refine .inr ⟨?_, hgossip gossip⟩
            exact st.arrival_handleGossip ..
        · rw [if_neg hchannel]
          obtain ⟨harrival, hfind, hrooms⟩ | ⟨harrival, hrooms⟩ :=
            st.handleRoomMessage_arrival roomId sender text peerId now
          · exact .inl ⟨_, _, harrival, hfind, hrooms⟩
          · refine .inr ⟨harrival, ?_⟩
            rw [hrooms]
            exact .refl _
    | heartbeat timestamp => exact .inr ⟨rfl, .refl _⟩
    | healthReport hostname cpu memory uptime => exact .inr ⟨rfl, .refl _⟩
    | alert severity title detail => exact .inr ⟨rfl, .refl _⟩
    | pqExchange ciphertext => exact .inr ⟨rfl, .refl _⟩

/-! ### What the rooms hold -/

/-- The messages of a room are numbered from zero on. -/
def Room.Numbered (room : Room) : Prop :=
  room.messages.map (·.seq) = List.range room.messages.length

theorem Room.Numbered.push {room : Room} (h : room.Numbered) (m : Said) :
    (room.push m).Numbered := by
  unfold Numbered Room.push at *
  rw [List.map_append, h, List.length_append, List.length_singleton, List.range_succ]
  rfl

theorem numbered_concat (messages : List Said) (m : Said) :
    numbered (messages ++ [m]) =
      numbered messages ++ [⟨m.sender, m.content, m.timestamp, (numbered messages).length⟩] := by
  unfold numbered
  rw [List.mapIdx_concat, List.length_mapIdx]

theorem arrivals_concat_none {roomId : String} {history : List (RoomStep sha256)}
    {t : RoomStep sha256} (hout : t.output = none) :
    arrivals roomId (history ++ [t]) = arrivals roomId history := by
  simp [arrivals, hout]

theorem arrivals_concat_some {roomId id : String} {m : Said} {history : List (RoomStep sha256)}
    {t : RoomStep sha256} (hout : t.output = some (id, m)) :
    arrivals roomId (history ++ [t]) =
      arrivals roomId history ++ if id = roomId then [m] else [] := by
  unfold arrivals
  rw [List.filterMap_append, List.filterMap_append]
  by_cases hid : id = roomId <;> simp [hout, hid]

/-- The rooms hold what has arrived in them, and nothing has arrived in others. -/
structure HoldsArrivals (history : List (RoomStep sha256)) (st : RoomNode sha256) : Prop where
  rooms : ∀ room ∈ st.rooms, room.Numbered
  messages : ∀ roomId, ((st.findRoom roomId).map Room.messages).getD [] =
    numbered (arrivals roomId history)

theorem holdsArrivals_step (J : GossipJson) (order : OrderBy) (input : RoomInput)
    (history : List (RoomStep sha256)) (st : RoomNode sha256) (h : HoldsArrivals history st) :
    HoldsArrivals (history ++ [stepOf (roomNext J order) input st])
      (roomNext J order input st).2 := by
  obtain ⟨roomId, m, hout, hthere, hrooms⟩ | ⟨hout, hkept⟩ := roomNext_cases J order input st
  · constructor
    · intro room' hroom'
      rw [hrooms] at hroom'
      obtain hold | ⟨room, hroom, rfl⟩ := mem_pushMessage hroom'
      · exact h.rooms room' hold
      · exact (h.rooms room hroom).push m
    · intro id
      obtain ⟨room, hfind⟩ := Option.isSome_iff_exists.mp hthere
      rw [arrivals_concat_some hout, RoomNode.findRoom, hrooms, find?_pushMessage_room]
      by_cases hid : id = roomId
      · subst hid
        have hbefore := h.messages id
        rw [hfind] at hbefore
        rw [RoomNode.findRoom] at hfind
        rw [hfind, if_pos rfl, numbered_concat, ← hbefore]
        simp only [Option.map_some, Option.getD_some, if_true]
        rfl
      · rw [if_neg (Ne.symm hid), List.append_nil, ← h.messages id]
        simp only [if_neg hid, Option.map_id']
        rfl
  · constructor
    · intro room' hroom'
      unfold Room.Numbered
      obtain hempty | ⟨room, hroom, hsame⟩ := hkept.all room' hroom'
      · rw [hempty]
        rfl
      · rw [← hsame]
        exact h.rooms room hroom
    · intro id
      rw [arrivals_concat_none hout, ← h.messages id, RoomNode.findRoom, RoomNode.findRoom]
      obtain hsame | ⟨hnone, hempty⟩ := hkept.find id
      · rw [hsame]
      · rw [hnone, hempty]
        rfl

theorem holdsArrivals_run (J : GossipJson) (order : OrderBy) (inputs : List RoomInput)
    (instanceId : String) (roomStore : Option (RoomStore sha256)) :
    HoldsArrivals (trace (roomNext J order) inputs (.started instanceId roomStore))
      (final (roomNext J order) inputs (.started instanceId roomStore)) := by
  have hstart : HoldsArrivals [] (.started instanceId roomStore : RoomNode sha256) :=
    ⟨fun _ h => absurd h List.not_mem_nil, fun _ => rfl⟩
  exact history_invariant (R := HoldsArrivals) (holdsArrivals_step J order) inputs hstart

/-! ### What a request returns -/

theorem roomHistoryHandler_numbered {st : RoomNode sha256} {roomId : String} {room : Room}
    (hfind : st.findRoom roomId = some room) (hnumbered : room.Numbered) (limit : Option Nat) :
    st.roomHistoryHandler roomId limit =
      .ok (room.messages.drop (room.messages.length - min (limit.getD 50) 500)) := by
  rw [RoomNode.roomHistoryHandler, hfind]
  dsimp only
  rw [List.reverse_take, List.reverse_reverse, List.length_reverse, List.mergeSort_of_pairwise]
  have hsorted : (room.messages.map (·.seq)).Pairwise (· < ·) := by
    rw [hnumbered]
    exact List.pairwise_lt_range
  refine ((List.pairwise_map.mp hsorted).sublist (List.drop_sublist _ _)).imp fun hlt => ?_
  exact decide_eq_true hlt.le

/-- After every run of a daemon that has been started, the messages of each room in memory are
those that have arrived in it, in this order and numbered from zero on, and a request for the
history of the room returns the last of them, as many as are asked for, at most 500. -/
theorem room_history_numbered (J : GossipJson) (order : OrderBy) (inputs : List RoomInput)
    (instanceId : String) (roomStore : Option (RoomStore sha256)) :
    let run := trace (roomNext J order) inputs (.started instanceId roomStore)
    let st := final (roomNext J order) inputs (.started instanceId roomStore)
    (∀ room ∈ st.rooms, room.messages.map (·.seq) = List.range room.messages.length) ∧
      ∀ roomId room, st.findRoom roomId = some room →
        room.messages = numbered (arrivals roomId run) ∧
          ∀ limit, st.roomHistoryHandler roomId limit =
            .ok (room.messages.drop (room.messages.length - min (limit.getD 50) 500)) := by
  have h := holdsArrivals_run J order inputs instanceId roomStore
  refine ⟨h.rooms, fun roomId room hfind => ⟨?_, fun limit => ?_⟩⟩
  · rw [← h.messages roomId, hfind]
    rfl
  · exact roomHistoryHandler_numbered hfind (h.rooms room (List.mem_of_find?_eq_some hfind)) limit

end OsModa.Mesh
