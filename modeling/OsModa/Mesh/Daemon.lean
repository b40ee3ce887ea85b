import OsModa.Base.Machine
import OsModa.Base.Table
import OsModa.Mesh.Peers

/-!
The mesh daemon: the tasks and handlers that change the peer list and the connection table.

A connection lives as long as its receive loop reads from it, and the table only says which
connection messages to a peer are sent on. The two are coupled by ids alone: a loop that ends
takes the entry of its id out of the table, whichever connection that is
(`replaced_kept_iff`), and a loop whose peer has been deleted goes on dispatching
(`removal_effective_iff`).
-/

namespace OsModa.Mesh

open OsModa.Text OsModa.Machine MeshState

/-! ### State -/

/-- An entry of `st.connections`: the connection that is filed under an id. Connections are
numbered in the order in which they are made. -/
structure Entry where
  peerId : String
  handle : Nat
  deriving DecidableEq

/-- The receive loop of a connection, with the id that it was authenticated as. -/
structure RecvLoop where
  handle : Nat
  peerId : String
  deriving DecidableEq

/-- How far an attempt of `initiate_outbound_connection` has come; the number is that of the
attempts that came before. -/
inductive DialStage where
  | attempt (n : Nat)
  | mismatch (n : Nat)
  | verified (remote : MeshPublicIdentity)
  | exhausted
  | ended
  deriving DecidableEq

structure Dial where
  peerId : String
  endpoint : String
  stage : DialStage
  deriving DecidableEq

structure Daemon where
  peers : List PeerInfo
  connections : Table Entry.peerId
  loops : List RecvLoop
  dials : List Dial
  /-- The stale connections that the health loop has still to probe, in an iteration of it. -/
  probing : Option (List Entry)
  usedInvites : List String
  /-- The connections that have been made. -/
  made : Nat
  /-- The file of the peers. -/
  saved : List PeerInfo

/-- What an invite code carries. -/
structure InvitePayload where
  endpoint : String
  noiseStaticPubkey : String
  mlkemEncapKey : String
  instanceId : String

inductive DaemonEffect where
  | invited (reply : Except (Nat × String) String)
  | deleted (id : String) (found : Bool)
  | dispatched (peerId : String) (msg : MeshMessage)
  | panicked

/-- What happens to a task that dials. -/
inductive DialEvent where
  | connectFailed
  | handshakeFailed (error : String)
  /-- The handshake has completed, and the pin is checked. -/
  | handshook (remote : MeshPublicIdentity)
  /-- The task takes the lock again. -/
  | locks

inductive DaemonOp where
  | acceptInvite (hash : String) (payload : Except String InvitePayload)
  | deletePeer (id : String)
  /-- An inbound handshake has completed. -/
  | inbound (remote : MeshPublicIdentity)
  | dial (task : Nat) (event : DialEvent)
  | receives (handle : Nat) (msg : MeshMessage)
  | recvFails (handle : Nat)
  /-- The health loop looks for stale connections: those that no message has come on for 90
  seconds, by the time that is stored of the last. -/
  | healthTick (old : String → Bool)
  | probed (entry : Entry) (sent : Bool)
  | reconnect
  | restart

structure DaemonInput where
  op : DaemonOp
  now : String
  /-- The file of the peers can be written. -/
  saves : Bool

/-! ### Peers -/

def PeerInfo.isConnected (p : PeerInfo) : Bool :=
  match p.connectionState with
  | .connected _ => true
  | _ => false

def PeerInfo.setDisconnected (p : PeerInfo) : PeerInfo :=
  { p with connectionState := .disconnected }

namespace Daemon

variable (d : Daemon)

/-- A daemon that was never run. -/
def fresh : Daemon := ⟨[], .empty, [], [], none, [], 0, []⟩

def isListed (id : String) : Bool := d.peers.any fun p => p.id = id

def loopOf (handle : Nat) : Option RecvLoop := d.loops.find? fun l => l.handle = handle

/-- `st.peers.iter_mut().find(…)`, and a change of the peer. -/
def changePeer (id : String) (f : PeerInfo → PeerInfo) : Daemon :=
  { d with peers := updatePeer id f d.peers }

/-- `save_peers`; that it fails is only logged. -/
def savePeers (saves : Bool) : Daemon := if saves then { d with saved := d.peers } else d

/-- A connection is filed, and its receive loop started. -/
def insertLoop (id : String) : Daemon :=
  { d with
    connections := d.connections.put ⟨id, d.made⟩
    loops := d.loops ++ [⟨d.made, id⟩]
    made := d.made + 1 }

/-- What a task does when a connection of a peer has failed. -/
def dropPeer (id : String) (saves : Bool) : Daemon :=
  ({ d with connections := d.connections.erase id }.changePeer id (·.setDisconnected)).savePeers saves

/-! ### Handlers -/

/-- POST /invite/accept — accept an invite code and connect to the peer. -/
def inviteAcceptHandler (now : String) (saves : Bool) (hash : String)
    (payload : Except String InvitePayload) : List DaemonEffect × Daemon :=
  match payload with
  | .error e => ([.invited (.error (400, "invalid invite: " ++ e))], d)
  | .ok payload =>
    -- Enforce single-use
    if hash ∈ d.usedInvites then ([.invited (.error (409, "invite already used"))], d)
    else
      let d := { d with usedInvites := hash :: d.usedInvites }
      if d.isListed payload.instanceId then ([.invited (.error (409, "peer already known"))], d)
      else
        match sliceTo payload.instanceId.toList 8 with
        | none => ([.panicked], d)
        | some short =>
          let peer : PeerInfo := ⟨payload.instanceId, "peer-" ++ String.ofList short,
            payload.noiseStaticPubkey, payload.mlkemEncapKey, payload.endpoint, now, none,
            .connecting⟩
          let d := { d with peers := d.peers ++ [peer] }.savePeers saves
          ([.invited (.ok payload.instanceId)],
            { d with dials := d.dials ++ [⟨payload.instanceId, payload.endpoint, .attempt 0⟩] })

/-- DELETE /peer/{id} — disconnect and remove a peer. -/
def peerDisconnectHandler (saves : Bool) (id : String) : List DaemonEffect × Daemon :=
  let d' := { d with
    connections := d.connections.erase id
    peers := d.peers.filter fun p => p.id ≠ id }
  if d'.peers.length < d.peers.length then ([.deleted id true], d'.savePeers saves)
  else ([.deleted id false], d')

/-- An inbound connection is filed, if there is room for a peer that is not known. -/
def acceptInbound (now : String) (saves : Bool) (remote : MeshPublicIdentity) :
    List DaemonEffect × Daemon :=
  let peerId := remote.instanceId
  let unknownCount := d.peers.countP fun p => p.endpoint = ""
  if ¬ d.isListed peerId ∧ unknownCount ≥ maxUnknownInboundPeers then ([], d)
  else if d.isListed peerId then
    ([], (d.insertLoop peerId).changePeer peerId (·.setConnected now))
  else
    match shortId peerId with
    -- The entry is there already, and the task ends before the loop starts.
    | none =>
      ([.panicked], { d with connections := d.connections.put ⟨peerId, d.made⟩, made := d.made + 1 })
    | some short =>
      let peer : PeerInfo := ⟨peerId, "inbound-" ++ short, remote.noiseStaticPubkey,
        remote.mlkemEncapKey, "", now, some now, .connected now⟩
      let d := d.insertLoop peerId
      ([], { d with peers := d.peers ++ [peer] }.savePeers saves)

/-! ### Dialling -/

def setDial (task : Nat) (dial : Dial) (stage : DialStage) : Daemon :=
  { d with dials := d.dials.set task { dial with stage := stage } }

/-- Three attempts are made. -/
def nextAttempt (n : Nat) : DialStage := if n + 1 < 3 then .attempt (n + 1) else .exhausted

/-- The remote does not have the static key that the list has for the peer. -/
def keyMismatch (peerId : String) (remote : MeshPublicIdentity) : Bool :=
  ((findPeer peerId d.peers).map PeerInfo.noiseStaticPubkey).any fun expected =>
    expected ≠ "" ∧ remote.noiseStaticPubkey ≠ expected

/-- An outbound connection is filed under the id that the remote named, and the peer that was
dialled is marked. -/
def install (now peerId : String) (remote : MeshPublicIdentity) : Daemon :=
  (d.insertLoop remote.instanceId).changePeer peerId (·.setConnected now)

/-- A step of `initiate_outbound_connection`. -/
def dialStep (now : String) (task : Nat) (event : DialEvent) : Daemon :=
  match d.dials[task]? with
  | none => d
  | some dial =>
    match dial.stage, event with
    | .attempt n, .connectFailed => d.setDial task dial (nextAttempt n)
    | .attempt n, .handshakeFailed e =>
      (d.changePeer dial.peerId (·.setFailed ("handshake failed: " ++ e) now)).setDial task dial
        (nextAttempt n)
    | .attempt n, .handshook remote =>
      -- SECURITY: Verify peer's Noise static key matches what we got from the invite.
      if d.keyMismatch dial.peerId remote then d.setDial task dial (.mismatch n)
      else d.setDial task dial (.verified remote)
    | .mismatch n, .locks =>
      (d.changePeer dial.peerId (·.setFailed "static key mismatch — possible MITM" now)).setDial task
        dial (nextAttempt n)
    | .verified remote, .locks => (d.install now dial.peerId remote).setDial task dial .ended
    | .exhausted, .locks =>
      (d.changePeer dial.peerId (·.setDisconnected)).setDial task dial .ended
    | _, _ => d

/-! ### Receive loops -/

/-- A receive loop reads a message and dispatches it. Of the handlers, only that of heartbeats
changes the peers. -/
def recvMsg (now : String) (handle : Nat) (msg : MeshMessage) : List DaemonEffect × Daemon :=
  match d.loopOf handle with
  | none => ([], d)
  | some l =>
    let d := match msg with
      | .heartbeat _ => d.changePeer l.peerId fun p => { p with lastSeen := some now }
      | _ => d
    ([.dispatched l.peerId msg], d)

/-- A receive loop reads an error, cleans up and ends. -/
def recvError (saves : Bool) (handle : Nat) : Daemon :=
  match d.loopOf handle with
  | none => d
  | some l => { d with loops := d.loops.filter (· ≠ l) }.dropPeer l.peerId saves

/-! ### The health loop -/

/-- Have connection but last_seen > 90s ago or never. -/
def staleConnections (old : String → Bool) : List Entry :=
  d.connections.rows.filter fun e =>
    (findPeer e.peerId d.peers).any fun p => p.lastSeen.elim true old

/-- An iteration of the health loop begins. -/
def collectStale (old : String → Bool) : Daemon :=
  if d.probing = none then { d with probing := some (d.staleConnections old) } else d

/-- The peers that the health loop dials again. -/
def disconnectedPeers : List PeerInfo :=
  d.peers.filter fun p => p.connectionState = .disconnected ∧
    (d.connections.find? p.id).isNone ∧ p.endpoint ≠ ""

def probe (saves : Bool) (entry : Entry) (sent : Bool) : Daemon :=
  match d.probing with
  | none => d
  | some stale =>
    if entry ∈ stale then
      let d := { d with probing := some (stale.erase entry) }
      -- heartbeat probe failed, disconnecting
      if sent then d else d.dropPeer entry.peerId saves
    else d

def reconnectPeers : Daemon :=
  if d.probing = some [] then
    { d with
      probing := none
      dials := d.dials ++ d.disconnectedPeers.map fun p => ⟨p.id, p.endpoint, .attempt 0⟩ }
  else d

/-- All connection states are reset to Disconnected on load. -/
def restarted : Daemon :=
  { fresh with
    peers := d.saved.map (·.setDisconnected)
    made := d.made
    saved := d.saved }

end Daemon

/-- One step of the daemon. -/
def daemonNext (input : DaemonInput) (d : Daemon) : List DaemonEffect × Daemon :=
  match input.op with
  | .acceptInvite hash payload => d.inviteAcceptHandler input.now input.saves hash payload
  | .deletePeer id => d.peerDisconnectHandler input.saves id
  | .inbound remote => d.acceptInbound input.now input.saves remote
  | .dial task event => ([], d.dialStep input.now task event)
  | .receives handle msg => d.recvMsg input.now handle msg
  | .recvFails handle => ([], d.recvError input.saves handle)
  | .healthTick old => ([], d.collectStale old)
  | .probed entry sent => ([], d.probe input.saves entry sent)
  | .reconnect => ([], d.reconnectPeers)
  | .restart => ([], d.restarted)

abbrev DaemonStep := Step Daemon DaemonInput (List DaemonEffect)

/-! ### What the parts of a step leave alone -/

namespace Daemon

variable (d : Daemon)

@[simp] theorem savePeers_peers (saves : Bool) : (d.savePeers saves).peers = d.peers := by
  cases saves <;> rfl

@[simp] theorem savePeers_connections (saves : Bool) :
    (d.savePeers saves).connections = d.connections := by
  cases saves <;> rfl

@[simp] theorem changePeer_peers (id : String) (f : PeerInfo → PeerInfo) :
    (d.changePeer id f).peers = updatePeer id f d.peers := rfl

@[simp] theorem changePeer_connections (id : String) (f : PeerInfo → PeerInfo) :
    (d.changePeer id f).connections = d.connections := rfl

@[simp] theorem insertLoop_peers (id : String) : (d.insertLoop id).peers = d.peers := rfl

@[simp] theorem insertLoop_connections (id : String) :
    (d.insertLoop id).connections = d.connections.put ⟨id, d.made⟩ := rfl

@[simp] theorem setDial_peers (task : Nat) (dial : Dial) (stage : DialStage) :
    (d.setDial task dial stage).peers = d.peers := rfl

@[simp] theorem setDial_connections (task : Nat) (dial : Dial) (stage : DialStage) :
    (d.setDial task dial stage).connections = d.connections := rfl

@[simp] theorem dropPeer_peers (id : String) (saves : Bool) :
    (d.dropPeer id saves).peers = updatePeer id (·.setDisconnected) d.peers := by
  rw [dropPeer, savePeers_peers, changePeer_peers]

@[simp] theorem dropPeer_connections (id : String) (saves : Bool) :
    (d.dropPeer id saves).connections = d.connections.erase id := by
  rw [dropPeer, savePeers_connections, changePeer_connections]

/-- The file is left as it is, or written. -/
theorem savePeers_saved (saves : Bool) :
    (d.savePeers saves).saved = d.saved ∨ (d.savePeers saves).saved = d.peers := by
  cases saves with
  | false => exact .inl rfl
  | true => exact .inr rfl

/-- The peer list is the one that `fileInbound` leaves for the handshake. -/
theorem acceptInbound_peers {L : MeshLibs} {s : MeshState L} (h : s.peers = d.peers)
    (r : HandshakeResult L) (now : String) (saves : Bool) :
    (d.acceptInbound now saves r.peerIdentity).2.peers = (s.fileInbound now r).2.peers := by
  unfold acceptInbound fileInbound isListed
  rw [h]
  dsimp only
  split
  · exact h.symm
  · split
    · rw [changePeer_peers, insertLoop_peers, insertConnection, h]
    · cases shortId r.peerIdentity.instanceId with
      | none => exact h.symm
      | some short => rw [savePeers_peers, insertLoop_peers, insertConnection, h]

end Daemon

/-! ### The end of a connection that was replaced -/

/-- The receive loop that ends in a step. -/
def endingLoop (t : DaemonStep) : Option RecvLoop :=
  match t.input.op with
  | .recvFails handle => t.before.loopOf handle
  | _ => none

/-- The loop that ends is that of an older connection, and a newer one of the same peer is in
the table and still alive. -/
structure EndsReplaced (t : DaemonStep) (older newer : RecvLoop) : Prop where
  ends : endingLoop t = some older
  samePeer : newer.peerId = older.peerId
  isNewer : older.handle < newer.handle
  alive : newer ∈ t.before.loops
  filed : t.before.connections.find? older.peerId = some ⟨older.peerId, newer.handle⟩

/-- Such an end leaves the newer connection in the table and the peer as it was. -/
def KeepsNewer (t : DaemonStep) : Prop :=
  ∀ older newer, EndsReplaced t older newer →
    t.after.connections.find? older.peerId = some ⟨older.peerId, newer.handle⟩ ∧
      t.after.peers = t.before.peers

/-- A loop that ends leaves no entry under its id. -/
theorem find?_endingLoop {input : DaemonInput} {d : Daemon} {l : RecvLoop}
    (h : endingLoop (stepOf daemonNext input d) = some l) :
    (daemonNext input d).2.connections.find? l.peerId = none := by
  obtain ⟨op, now, saves⟩ := input
  cases op with
  | recvFails handle =>
    have hloop : d.loopOf handle = some l := h
    have hstep : d.recvError saves handle =
        { d with loops := d.loops.filter (· ≠ l) }.dropPeer l.peerId saves := by
      unfold Daemon.recvError
      rw [hloop]
    change (d.recvError saves handle).connections.find? l.peerId = none
    rw [hstep, Daemon.dropPeer_connections, Table.find?_erase, if_pos rfl]
  | _ => cases h

theorem keepsNewer_step_iff (input : DaemonInput) (d : Daemon) :
    KeepsNewer (stepOf daemonNext input d) ↔
      ∀ older newer, ¬ EndsReplaced (stepOf daemonNext input d) older newer := by
  constructor
  · intro hkeeps older newer hends
    have hkept := (hkeeps older newer hends).1
    rw [stepOf_after, find?_endingLoop hends.ends] at hkept
    cases hkept
  · intro hnone older newer hends
    exact absurd hends (hnone older newer)

/-- In every run, the newer connections are kept if and only if no receive loop ends while a
newer connection of its peer is in the table and alive. -/
theorem replaced_kept_iff (inputs : List DaemonInput) :
    (∀ t ∈ trace daemonNext inputs .fresh, KeepsNewer t) ↔
      ∀ t ∈ trace daemonNext inputs .fresh, ∀ older newer, ¬ EndsReplaced t older newer :=
  all_good_iff (I := fun _ => True) (fun input d _ => keepsNewer_step_iff input d)
    (fun _ _ _ _ => trivial) inputs trivial

/-! A peer connects, and connects again before its first connection is found to be dead. -/

def inputOf (op : DaemonOp) : DaemonInput := ⟨op, "2026-01-01T00:00:00Z", true⟩

def someRemote : MeshPublicIdentity := ⟨"0123456789abcdef", "", "aa", "bb", ["mesh.v1"], none⟩

def connectedTwice : List DaemonInput :=
  [inputOf (.inbound someRemote), inputOf (.inbound someRemote)]

/-- The end of the first connection takes the second one out of the table. -/
theorem connectedTwice_drops_newer :
    ¬ ∀ inputs, ∀ t ∈ trace daemonNext inputs .fresh, KeepsNewer t := by
  intro h
  have hlast : stepOf daemonNext (inputOf (.recvFails 0)) (final daemonNext connectedTwice .fresh) ∈
      trace daemonNext (connectedTwice ++ [inputOf (.recvFails 0)]) .fresh := by
    rw [trace_append]
    exact List.mem_append_right _ (List.mem_singleton_self _)
  refine (keepsNewer_step_iff _ _).mp (h _ _ hlast) ⟨0, someRemote.instanceId⟩
    ⟨1, someRemote.instanceId⟩ ⟨?_, rfl, by decide, ?_, ?_⟩
  · decide +kernel
  · decide +kernel
  · decide +kernel

/-! ### Messages of a peer that was removed -/

/-- A DELETE of the peer has succeeded, and since then the peer is not in the list. -/
def RemovedIn (past : List DaemonStep) (id : String) : Prop :=
  ∃ pre v post, past = pre ++ v :: post ∧ .deleted id true ∈ v.output ∧
    ∀ w ∈ post, w.after.isListed id = false

/-- No message of a removed peer is dispatched. -/
def RemovalEffective (run : List DaemonStep) : Prop :=
  ∀ past t future, run = past ++ t :: future → ∀ id, RemovedIn past id →
    ∀ msg, .dispatched id msg ∉ t.output

/-- No message comes in on a connection that was authenticated as a removed peer. -/
def SilentWhenRemoved (run : List DaemonStep) : Prop :=
  ∀ past t future, run = past ++ t :: future → ∀ id, RemovedIn past id →
    ∀ handle msg l, t.input.op = .receives handle msg → t.before.loopOf handle = some l →
      l.peerId ≠ id

theorem not_dispatched_invite (d : Daemon) (now : String) (saves : Bool) (hash : String)
    (payload : Except String InvitePayload) (id : String) (msg : MeshMessage) :
    .dispatched id msg ∉ (d.inviteAcceptHandler now saves hash payload).1 := by
  unfold Daemon.inviteAcceptHandler
  split
  · simp
  · split
    · simp
    · dsimp only
      split
      · simp
      · split
        · simp
        · simp

theorem not_dispatched_inbound (d : Daemon) (now : String) (saves : Bool)
    (remote : MeshPublicIdentity) (id : String) (msg : MeshMessage) :
    .dispatched id msg ∉ (d.acceptInbound now saves remote).1 := by
  unfold Daemon.acceptInbound
  dsimp only
  split
  · simp
  · split
    · simp
    · split
      · simp
      · simp

theorem not_dispatched_delete (d : Daemon) (saves : Bool) (peerId id : String) (msg : MeshMessage) :
    .dispatched id msg ∉ (d.peerDisconnectHandler saves peerId).1 := by
  unfold Daemon.peerDisconnectHandler
  dsimp only
  split
  · simp
  · simp

theorem dispatched_recvMsg_iff (d : Daemon) (now : String) (handle : Nat) (msg msg' : MeshMessage)
    (id : String) : .dispatched id msg ∈ (d.recvMsg now handle msg').1 ↔
      msg' = msg ∧ ∃ l, d.loopOf handle = some l ∧ l.peerId = id := by
  unfold Daemon.recvMsg
  cases hloop : d.loopOf handle with
  | none => simp
  | some l =>
    simp only [List.mem_singleton, DaemonEffect.dispatched.injEq, Option.some.injEq,
      exists_eq_left']
    constructor
    · rintro ⟨rfl, rfl⟩
      exact ⟨rfl, rfl⟩
    · rintro ⟨rfl, rfl⟩
      exact ⟨rfl, rfl⟩

/-- A step dispatches a message exactly when one comes in. -/
theorem dispatched_step_iff (input : DaemonInput) (d : Daemon) (id : String) (msg : MeshMessage) :
    .dispatched id msg ∈ (daemonNext input d).1 ↔
      ∃ handle l, input.op = .receives handle msg ∧ d.loopOf handle = some l ∧ l.peerId = id := by
  obtain ⟨op, now, saves⟩ := input
  cases op with
  | acceptInvite hash payload =>
    exact iff_of_false (not_dispatched_invite d now saves hash payload id msg) (by simp)
  | inbound remote => exact iff_of_false (not_dispatched_inbound d now saves remote id msg) (by simp)
  | deletePeer peerId => exact iff_of_false (not_dispatched_delete d saves peerId id msg) (by simp)
  | receives handle msg' =>
    refine (dispatched_recvMsg_iff d now handle msg msg' id).trans ?_
    constructor
    · rintro ⟨rfl, l, hl, hid⟩
      exact ⟨handle, l, rfl, hl, hid⟩
    · rintro ⟨handle', l, hop, hl, hid⟩
      obtain ⟨rfl, rfl⟩ := DaemonOp.receives.inj hop
      exact ⟨rfl, l, hl, hid⟩
  | dial task event => simp [daemonNext]
  | recvFails handle => simp [daemonNext]
  | healthTick old => simp [daemonNext]
  | probed entry sent => simp [daemonNext]
  | reconnect => simp [daemonNext]
  | restart => simp [daemonNext]

/-- In every run, removals are effective if and only if the removed peers are silent. -/
theorem removal_effective_iff (inputs : List DaemonInput) :
    RemovalEffective (trace daemonNext inputs .fresh) ↔
      SilentWhenRemoved (trace daemonNext inputs .fresh) := by
  have hdispatched : ∀ past t future, trace daemonNext inputs .fresh = past ++ t :: future →
      ∀ id msg, .dispatched id msg ∈ t.output ↔
        ∃ handle l, t.input.op = .receives handle msg ∧ t.before.loopOf handle = some l ∧
          l.peerId = id := by
    intro past t future hrun id msg
    have hmem : t ∈ trace daemonNext inputs .fresh := by
      rw [hrun]
      exact List.mem_append_right _ List.mem_cons_self
    obtain ⟨pre, -, -, hstep⟩ := mem_trace_split hmem
    rw [hstep]
    exact dispatched_step_iff _ _ id msg
  constructor
  · intro heffective past t future hrun id hremoved handle msg l hop hloop hid
    exact heffective past t future hrun id hremoved msg
      ((hdispatched past t future hrun id msg).mpr ⟨handle, l, hop, hloop, hid⟩)
  · intro hsilent past t future hrun id hremoved msg hmem
    obtain ⟨handle, l, hop, hloop, hid⟩ := (hdispatched past t future hrun id msg).mp hmem
    exact hsilent past t future hrun id hremoved handle msg l hop hloop hid

/-! A peer that connects, is removed, and goes on sending. -/

def connects : DaemonInput := inputOf (.inbound someRemote)

def isRemoved : DaemonInput := inputOf (.deletePeer someRemote.instanceId)

def lateChat : DaemonInput := inputOf (.receives 0 (.chat "mallory" "hello" none))

/-- Its message is dispatched. -/
theorem lateChat_dispatched : ¬ ∀ inputs, RemovalEffective (trace daemonNext inputs .fresh) := by
  intro h
  have hdeleted : (daemonNext isRemoved (final daemonNext [connects] .fresh)).1 =
      [.deleted someRemote.instanceId true] := rfl
  have hremoved :
      RemovedIn (trace daemonNext [connects, isRemoved] .fresh) someRemote.instanceId := by
    refine ⟨_, _, [], trace_append [connects] [isRemoved] Daemon.fresh, ?_, fun _ hw => ?_⟩
    · rw [stepOf_output, hdeleted]
      exact List.mem_singleton_self _
    · cases hw
  refine h ([connects, isRemoved] ++ [lateChat]) _ _ [] (trace_append ..) _ hremoved
    (.chat "mallory" "hello" none) ?_
  exact (dispatched_step_iff lateChat _ _ _).mpr ⟨0, ⟨0, someRemote.instanceId⟩, rfl,
    by decide +kernel, rfl⟩

end OsModa.Mesh
