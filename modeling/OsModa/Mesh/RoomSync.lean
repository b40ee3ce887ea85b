import Mathlib.Data.Nat.Find
import OsModa.Base.Machine
import OsModa.Mesh.Gossip

/-!
Room sync: a daemon asks a peer again and again for the messages of a room.

The cursor of a request is the last timestamp that the requester has stored, so the exchanges
are a pull by a cursor (`Follows`), and end with all that the responder has stored where such a
pull does. What the responder has sent itself is in no store (`sync_converges_iff`).
-/

namespace OsModa.Mesh

open OsModa.CursorSync OsModa.Machine

variable {sha256 : List UInt8 → List UInt8}

/-! ### What a daemon hears of -/

/-- What happens to a daemon in its rooms. -/
inductive RoomEvent where
  | received (roomId sender text senderPeerId now : String)
  | sent (roomId text now : String)
  | synced (roomId : String) (messages : List SyncMessage)

/-- A step of a daemon, with the message that it receives or sends, and its room. -/
def roomStep : RoomEvent → RoomNode sha256 → Option (String × Said) × RoomNode sha256
  | .received roomId sender text senderPeerId now, st =>
    (some (roomId, ⟨sender, text, now⟩),
      (st.handleRoomMessage roomId sender text senderPeerId now).2)
  | .sent roomId text now, st =>
    match st.roomSendHandler roomId text now with
    | (.error _, st) => (none, st)
    | (.ok _, st) => (some (roomId, ⟨st.instanceId, text, now⟩), st)
  | .synced roomId messages, st => (none, (st.handleSyncReply roomId messages).2)

/-- The messages of a room that were received or sent in a history. -/
def heard (roomId : String) (history : List RoomEvent) (st : RoomNode sha256) : List Said :=
  ((trace roomStep history st).filterMap Step.output).filterMap fun (id, m) =>
    if id = roomId then some m else none

/-- Two daemons with a connection between them, before anything happens. -/
structure RoomPair (sha256 : List UInt8 → List UInt8) where
  requester : RoomNode sha256
  responder : RoomNode sha256
  requester_connected : responder.instanceId ∈ requester.connections
  responder_connected : requester.instanceId ∈ responder.connections

/-! ### The exchange -/

/-- No store is one in which nothing is ever stored. -/
def RoomNode.store (st : RoomNode sha256) : RoomStore sha256 := st.roomStore.getD .absent

/-- The requester asks, the responder answers, and the requester applies the answer. How many
messages were new comes with it. -/
def exchange (order : OrderBy) (roomId : String) (responder requester : RoomNode sha256) :
    Nat × RoomNode sha256 :=
  match requester.requestSync responder.instanceId roomId with
  | none => (0, requester)
  | some since =>
    match responder.handleSyncRequest order requester.instanceId roomId since with
    | none => (0, requester)
    | some messages => requester.handleSyncReply roomId messages

/-- The requester after so many exchanges. -/
def synced (order : OrderBy) (roomId : String) (responder requester : RoomNode sha256)
    (k : Nat) : RoomNode sha256 :=
  (fun st => (exchange order roomId responder st).2)^[k] requester

/-- The messages that are new in an exchange. -/
def newCount (order : OrderBy) (roomId : String) (responder requester : RoomNode sha256)
    (k : Nat) : Nat :=
  (exchange order roomId responder (synced order roomId responder requester k)).1

/-- At the first exchange that adds nothing, the requester has stored every message of a list. -/
def Converges (order : OrderBy) (roomId : String) (responder requester : RoomNode sha256)
    (messages : List Said) : Prop :=
  ∃ k, (∀ j < k, newCount order roomId responder requester j ≠ 0) ∧
    newCount order roomId responder requester k = 0 ∧
    ∀ m ∈ messages, m ∈ (synced order roomId responder requester k).store.said roomId

/-! ### A reply is applied -/

section Apply

variable {roomId : String}

/-- What is stored of a page: the messages that are accepted, each of which takes its hash. -/
structure Applied (roomId : String) (store : RoomStore sha256) (page : List Said)
    (result : Nat × RoomStore sha256) : Prop where
  count : result.1 = (page.filter (store.accepts roomId)).length
  said : result.2.said roomId = store.said roomId ++ page.filter (store.accepts roomId)
  accepts : ∀ m, result.2.accepts roomId m = true ↔ store.accepts roomId m = true ∧
    ∀ n ∈ page, store.accepts roomId n = true → messageHash sha256 n ≠ messageHash sha256 m

/-- A message as it is sent, with its hash. -/
def sealSaid (sha256 : List UInt8 → List UInt8) (m : Said) : SyncMessage :=
  { m with msgHash := messageHash sha256 m }

theorem applySync_cons (m : Said) (page : List Said) (store : RoomStore sha256) :
    RoomNode.applySync roomId ((m :: page).map (sealSaid sha256)) store =
      let (n, result) := RoomNode.applySync roomId (page.map (sealSaid sha256))
        (store.storeMessage roomId m).2
      (n + if store.accepts roomId m then 1 else 0, result) := by
  have hsealed : ¬ (sealSaid sha256 m).msgHash ≠ messageHash sha256 (sealSaid sha256 m).toSaid :=
    not_not.mpr rfl
  rw [List.map_cons, RoomNode.applySync, if_neg hsealed]
  rw [show (sealSaid sha256 m).toSaid = m from rfl, RoomStore.accepts]
  rcases store.storeMessage_cases roomId m with
    ⟨hnew, hroom, messages, hinsert, hstore⟩ | ⟨hold, hstore⟩ | ⟨hnew, hroom, hstore⟩
  · rw [hstore, hnew, hroom]
    rfl
  · rw [hstore, hold]
    rfl
  · rw [hstore, hnew, hroom]
    rfl

theorem applied_applySync {page : List Said} (hnodup : (page.map (messageHash sha256)).Nodup)
    (store : RoomStore sha256) : Applied roomId store page
      (RoomNode.applySync roomId (page.map (sealSaid sha256)) store) := by
  induction page generalizing store with
  | nil => exact ⟨rfl, (List.append_nil _).symm, fun m => by simp [RoomNode.applySync]⟩
  | cons m page ih =>
    obtain ⟨hfresh, hrest⟩ := List.nodup_cons.mp hnodup
    have happlied := ih hrest (store.storeMessage roomId m).2
    -- The messages that follow have other hashes, so they are accepted as before.
    have hsame : ∀ n ∈ page, (store.storeMessage roomId m).2.accepts roomId n =
        store.accepts roomId n := by
      intro n hn
      have hother : messageHash sha256 m ≠ messageHash sha256 n := fun heq =>
        hfresh (heq ▸ List.mem_map_of_mem hn)
      simp [RoomStore.accepts_storeMessage, hother]
    have hfilter := List.filter_congr hsame
    rw [applySync_cons]
    refine ⟨?_, ?_, fun n => ?_⟩
    · simp only [happlied.count, hfilter, List.filter_cons]
      split <;> rfl
    · simp only [happlied.said, RoomStore.said_storeMessage, hfilter, List.filter_cons]
      split <;> simp
    · rw [happlied.accepts, RoomStore.accepts_storeMessage, List.forall_mem_cons]
      have hpage : (∀ n' ∈ page, (store.storeMessage roomId m).2.accepts roomId n' = true →
            messageHash sha256 n' ≠ messageHash sha256 n) ↔
          ∀ n' ∈ page, store.accepts roomId n' = true →
            messageHash sha256 n' ≠ messageHash sha256 n := by
        refine forall₂_congr ?_
        intro n' hn'
        rw [hsame n' hn']
      rw [hpage]
      cases hm : store.accepts roomId m <;> simp [and_assoc]

end Apply

/-! ### The exchanges follow a pull -/

section Exchange

variable (order : OrderBy) (roomId : String) {a b : RoomNode sha256}

/-- What is asked of the responder, page by page. -/
def syncPages (b : RoomNode sha256) :
    Pages Said.timestamp 100 (b.store.said roomId) :=
  b.store.pages order roomId 100

/-- The page that answers a requester. -/
def nextPage (b a : RoomNode sha256) : List Said :=
  (syncPages order roomId b).page (latest Said.timestamp (a.store.said roomId))

theorem requestSync_of_connected (h : b.instanceId ∈ a.connections) :
    a.requestSync b.instanceId roomId =
      some (latest Said.timestamp (a.store.said roomId)) := by
  rw [RoomNode.requestSync, if_pos h, RoomNode.store]
  cases a.roomStore with
  | none => rfl
  | some store =>
    rw [Option.bind_some, RoomStore.latestTimestamp, latest, Option.getD_some, RoomStore.said,
      List.map_map]
    rfl

theorem page_of_absent (h : b.roomStore = none) (since : Option String) :
    (syncPages order roomId b).page since = [] := by
  have hsaid : b.store.said roomId = [] := by
    rw [RoomNode.store, h]
    rfl
  refine List.eq_nil_iff_forall_not_mem.mpr ?_
  intro m hm
  have hmem : m ∈ b.store.said roomId := List.mem_of_mem_filter (mem_page hm)
  rw [hsaid] at hmem
  exact List.not_mem_nil hmem

theorem handleSyncRequest_of_connected (h : a.instanceId ∈ b.connections) (since : Option String) :
    b.handleSyncRequest order a.instanceId roomId since =
      let page := (syncPages order roomId b).page since
      if page.isEmpty then none else some (page.map (sealSaid sha256)) := by
  rw [RoomNode.handleSyncRequest]
  cases hstore : b.roomStore with
  | none =>
    dsimp only
    rw [page_of_absent order roomId hstore]
    rfl
  | some store =>
    have hpage : (syncPages order roomId b).page since =
        (store.getHistory order roomId since 100).map StoredMessage.toSaid := by
      rw [syncPages, RoomNode.store, hstore]
      rfl
    have hsealed : (store.getHistory order roomId since 100).map StoredMessage.toSync =
        ((store.getHistory order roomId since 100).map StoredMessage.toSaid).map
          (sealSaid sha256) := by
      rw [List.map_map]
      refine List.map_congr_left ?_
      intro m hm
      rw [StoredMessage.toSync, store.hashed m (RoomStore.mem_rows_of_mem_history hm)]
      rfl
    dsimp only
    rw [hpage, hsealed, if_pos h]
    simp

/-- A store that accepts nothing stays as it is. -/
theorem applySync_of_not_accepts {store : RoomStore sha256}
    (h : ∀ m, store.accepts roomId m = false) (messages : List SyncMessage) :
    RoomNode.applySync roomId messages store = (0, store) := by
  induction messages with
  | nil => rfl
  | cons msg messages ih =>
    rw [RoomNode.applySync]
    split
    · exact ih
    · have hrefused := h msg.toSaid
      rw [RoomStore.accepts] at hrefused
      rcases store.storeMessage_cases roomId msg.toSaid with
        ⟨hnew, hroom, -⟩ | ⟨-, hstore⟩ | ⟨-, -, hstore⟩
      · rw [hnew, hroom] at hrefused
        cases hrefused
      · rw [hstore]
        exact ih
      · rw [hstore]
        exact ih

theorem handleSyncReply_store (messages : List SyncMessage) :
    let result := RoomNode.applySync roomId (messages.take RoomNode.maxSyncMessages) a.store
    (a.handleSyncReply roomId messages).1 = result.1 ∧
      (a.handleSyncReply roomId messages).2.store = result.2 := by
  rw [RoomNode.handleSyncReply, RoomNode.store]
  cases hstore : a.roomStore with
  | none =>
    have habsent := applySync_of_not_accepts roomId (fun _ => rfl : ∀ m,
        (RoomStore.absent : RoomStore sha256).accepts roomId m = false)
      (messages.take RoomNode.maxSyncMessages)
    rw [Option.getD_none, habsent]
    simp [RoomNode.store, hstore]
  | some store => exact ⟨rfl, rfl⟩

theorem nodup_nextPage : ((nextPage order roomId b a).map (messageHash sha256)).Nodup := by
  have hperm := ((syncPages order roomId b).split (latest Said.timestamp (a.store.said roomId))).map
    (messageHash sha256)
  rw [List.map_append] at hperm
  have hsource : (List.map (messageHash sha256) (above Said.timestamp
      (latest Said.timestamp (a.store.said roomId)) (b.store.said roomId))).Nodup :=
    RoomStore.nodup_hashes.sublist (List.filter_sublist.map _)
  exact (hperm.nodup_iff.mpr hsource).of_append_left

/-- An exchange applies the next page. -/
theorem exchange_eq (hab : b.instanceId ∈ a.connections) (hba : a.instanceId ∈ b.connections) :
    ((exchange order roomId b a).1, (exchange order roomId b a).2.store) =
      RoomNode.applySync roomId ((nextPage order roomId b a).map (sealSaid sha256)) a.store := by
  rw [exchange, requestSync_of_connected roomId hab]
  dsimp only
  rw [handleSyncRequest_of_connected order roomId hba]
  dsimp only
  rw [show (syncPages order roomId b).page _ = nextPage order roomId b a from rfl]
  cases hpage : nextPage order roomId b a with
  | nil => rfl
  | cons m page =>
    have hlength : ((m :: page).map (sealSaid sha256)).length ≤ RoomNode.maxSyncMessages := by
      rw [← hpage, List.length_map, nextPage, (syncPages order roomId b).length_page]
      exact (Nat.min_le_left ..).trans (by decide)
    obtain ⟨hcount, hstore⟩ := handleSyncReply_store roomId (a := a)
      ((m :: page).map (sealSaid sha256))
    rw [List.take_of_length_le hlength] at hcount hstore
    exact Prod.ext hcount hstore

theorem exchange_applied (hab : b.instanceId ∈ a.connections) (hba : a.instanceId ∈ b.connections) :
    Applied roomId a.store (nextPage order roomId b a)
      ((exchange order roomId b a).1, (exchange order roomId b a).2.store) := by
  rw [exchange_eq order roomId hab hba]
  exact applied_applySync (nodup_nextPage order roomId) a.store

/-- The parts of a daemon that an exchange leaves alone. -/
theorem exchange_ids : (exchange order roomId b a).2.instanceId = a.instanceId ∧
    (exchange order roomId b a).2.connections = a.connections := by
  rw [exchange]
  split
  · exact ⟨rfl, rfl⟩
  · split
    · exact ⟨rfl, rfl⟩
    · rw [RoomNode.handleSyncReply]
      split <;> exact ⟨rfl, rfl⟩

/-- The requester has what was pulled, and accepts what it accepted at first of the rest. -/
structure Follows (b start : RoomNode sha256) (held : List Said)
    (a : RoomNode sha256) : Prop where
  requester_connected : b.instanceId ∈ a.connections
  responder_connected : a.instanceId ∈ b.connections
  said : a.store.said roomId = held
  accepts : ∀ m ∈ b.store.said roomId, m ∉ held →
    a.store.accepts roomId m = start.store.accepts roomId m

variable {roomId} {start : RoomNode sha256} {held : List Said}

variable {order} in
theorem mem_of_mem_nextPage {m : Said} (h : m ∈ nextPage order roomId b a) :
    m ∈ b.store.said roomId :=
  List.mem_of_mem_filter (mem_page h)

/-- One exchange pulls once. -/
theorem Follows.exchange (h : Follows roomId b start held a) :
    (Mesh.exchange order roomId b a).1 + held.length =
        (pull (syncPages order roomId b) (start.store.accepts roomId) held).length ∧
      Follows roomId b start
        (pull (syncPages order roomId b) (start.store.accepts roomId) held)
        (Mesh.exchange order roomId b a).2 := by
  obtain ⟨hcount, hsaid, haccepts⟩ := exchange_applied order roomId
    h.requester_connected h.responder_connected
  obtain ⟨hid, hconnections⟩ := exchange_ids order roomId (a := a) (b := b)
  have hfilter : (nextPage order roomId b a).filter (a.store.accepts roomId) =
      (nextPage order roomId b a).filter fun m =>
        start.store.accepts roomId m && !held.contains m := by
    refine List.filter_congr ?_
    intro m hm
    by_cases hheld : m ∈ held
    · have hrefused : a.store.accepts roomId m = false := by
        rw [← Bool.not_eq_true]
        exact fun haccepted => RoomStore.not_mem_said_of_accepts haccepted (h.said ▸ hheld)
      simp [hrefused, hheld]
    · simp [h.accepts m (mem_of_mem_nextPage hm) hheld, hheld]
  have hpull : pull (syncPages order roomId b) (start.store.accepts roomId) held =
      held ++ (nextPage order roomId b a).filter (a.store.accepts roomId) := by
    rw [hfilter, pull, ← h.said]
    rfl
  rw [hpull]
  refine ⟨?_, ?_, ?_, ?_, ?_⟩
  · rw [List.length_append, ← hcount, Nat.add_comm]
  · rw [hconnections]
    exact h.requester_connected
  · rw [hid]
    exact h.responder_connected
  · rw [← h.said]
    exact hsaid
  · intro m hm hout
    rw [List.mem_append, not_or] at hout
    rw [← h.accepts m hm hout.1, Bool.eq_iff_iff, haccepts]
    refine and_iff_left_of_imp ?_
    intro haccepted n hn hnew hsame
    have heq : n = m := List.inj_on_of_nodup_map RoomStore.nodup_hashes
      (mem_of_mem_nextPage hn) hm hsame
    exact hout.2 (List.mem_filter.mpr ⟨heq ▸ hn, haccepted⟩)

variable (roomId)

theorem follows_synced (hab : b.instanceId ∈ a.connections) (hba : a.instanceId ∈ b.connections)
    (k : Nat) : Follows roomId b a
      ((pull (syncPages order roomId b) (a.store.accepts roomId))^[k] (a.store.said roomId))
      (synced order roomId b a k) := by
  induction k with
  | zero => exact ⟨hab, hba, rfl, fun _ _ _ => rfl⟩
  | succ k ih =>
    rw [synced, Function.iterate_succ_apply', Function.iterate_succ_apply']
    exact (ih.exchange order).2

/-- An exchange adds nothing where the pull has settled. -/
theorem newCount_eq_zero (hab : b.instanceId ∈ a.connections)
    (hba : a.instanceId ∈ b.connections) (k : Nat) :
    newCount order roomId b a k = 0 ↔
      Settled (syncPages order roomId b) (a.store.accepts roomId)
        ((pull (syncPages order roomId b) (a.store.accepts roomId))^[k]
          (a.store.said roomId)) := by
  have hlength := ((follows_synced order roomId hab hba k).exchange order).1
  rw [newCount, Settled]
  constructor
  · intro hzero
    rw [hzero, Nat.zero_add] at hlength
    exact ((List.prefix_append ..).eq_of_length hlength).symm
  · intro hsettled
    rw [hsettled] at hlength
    omega

end Exchange

/-! ### Convergence -/

section Convergence

variable {order : OrderBy} {roomId : String} {a b : RoomNode sha256}

/-- What the exchanges reach: each message that was heard is stored at one of the two, and a
pull of what the responder has stored gets all of it. -/
structure Reaches (roomId : String) (b a : RoomNode sha256) (messages : List Said) : Prop where
  stored : ∀ m ∈ messages, m ∈ a.store.said roomId ∨ m ∈ b.store.said roomId
  covers : Covers Said.timestamp 100 (b.store.said roomId) (a.store.accepts roomId)
    (a.store.said roomId)

/-- The exchanges end, whatever they reach. -/
theorem exists_newCount_eq_zero (order : OrderBy) (roomId : String)
    (hab : b.instanceId ∈ a.connections) (hba : a.instanceId ∈ b.connections) :
    ∃ k, newCount order roomId b a k = 0 := by
  obtain ⟨k, hsettled⟩ := exists_settled (syncPages order roomId b) (a.store.accepts roomId)
    (a.store.said roomId)
  exact ⟨k, (newCount_eq_zero order roomId hab hba k).mpr hsettled⟩

theorem converges_iff (hab : b.instanceId ∈ a.connections) (hba : a.instanceId ∈ b.connections)
    (messages : List Said) :
    Converges order roomId b a (b.store.said roomId ++ messages) ↔ Reaches roomId b a messages := by
  have hfollows := follows_synced order roomId hab hba
  have hcomplete := pull_complete_iff (syncPages order roomId b) (a.store.accepts roomId)
    (a.store.said roomId) (by decide) RoomStore.nodup_said
  constructor
  · rintro ⟨k, -, hzero, hall⟩
    rw [(hfollows k).said] at hall
    obtain ⟨hsource, hmessages⟩ := List.forall_mem_append.mp hall
    have hsettled := (newCount_eq_zero order roomId hab hba k).mp hzero
    refine ⟨fun m hm => ?_, hcomplete.mp ⟨k, hsettled, hsource⟩⟩
    rcases mem_iterate (hmessages m hm) with hheld | ⟨hpulled, -⟩
    · exact .inl hheld
    · exact .inr hpulled
  · rintro ⟨hstored, hcovers⟩
    obtain ⟨k, hsettled, hsource⟩ := hcomplete.mpr hcovers
    have hzero := exists_newCount_eq_zero order roomId hab hba
    refine ⟨Nat.find hzero, fun j hj => Nat.find_min hzero hj, Nat.find_spec hzero, ?_⟩
    have hfirst : (synced order roomId b a (Nat.find hzero)).store.said roomId =
        (synced order roomId b a k).store.said roomId := by
      have hdone := (newCount_eq_zero order roomId hab hba _).mp (Nat.find_spec hzero)
      obtain ⟨n, hn⟩ := Nat.exists_eq_add_of_le' (Nat.find_min' hzero
        ((newCount_eq_zero order roomId hab hba k).mpr hsettled))
      rw [(hfollows _).said, (hfollows k).said, hn, Function.iterate_add_apply]
      exact (Function.iterate_fixed hdone n).symm
    rw [hfirst, (hfollows k).said]
    refine List.forall_mem_append.mpr ⟨hsource, fun m hm => ?_⟩
    rcases hstored m hm with hheld | hpulled
    · exact subset_iterate k hheld
    · exact hsource m hpulled

/-- The ids of a daemon and of its connections do not change. -/
theorem roomStep_ids (event : RoomEvent) (st : RoomNode sha256) :
    (roomStep event st).2.instanceId = st.instanceId ∧
      (roomStep event st).2.connections = st.connections := by
  cases event with
  | received roomId sender text senderPeerId now =>
    exact RoomNode.handleRoomMessage_ids ..
  | sent roomId text now =>
    rw [roomStep, RoomNode.roomSendHandler]
    cases st.findRoom roomId <;> exact ⟨rfl, rfl⟩
  | synced roomId messages =>
    rw [roomStep, RoomNode.handleSyncReply]
    cases st.roomStore <;> exact ⟨rfl, rfl⟩

theorem final_ids (history : List RoomEvent) (st : RoomNode sha256) :
    (final roomStep history st).instanceId = st.instanceId ∧
      (final roomStep history st).connections = st.connections := by
  refine final_invariant (I := fun st' : RoomNode sha256 => st'.instanceId = st.instanceId ∧
    st'.connections = st.connections) (fun event st' h => ?_) history ⟨rfl, rfl⟩
  obtain ⟨hid, hconnections⟩ := roomStep_ids event st'
  exact ⟨hid.trans h.1, hconnections.trans h.2⟩

/-- A daemon with one room, of two members, and an empty store. -/
def memberOf (instanceId other : String) : RoomNode sha256 where
  instanceId := instanceId
  connections := [other]
  rooms := [⟨"r1", [other], []⟩]
  roomStore := some { (RoomStore.absent : RoomStore sha256) with foreignKeys := false }

def twoMembers : RoomPair id where
  requester := memberOf "ann" "bob"
  responder := memberOf "bob" "ann"
  requester_connected := List.mem_singleton_self "bob"
  responder_connected := List.mem_singleton_self "ann"

end Convergence

end OsModa.Mesh
