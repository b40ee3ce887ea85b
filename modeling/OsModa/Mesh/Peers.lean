import OsModa.Base.Text
import OsModa.Mesh.Transport

/-!
The peer table of the mesh daemon, and how a connection is filed in it.

An inbound connection is filed under the instance id that the peer named, whether
the table has that peer or not. An outbound connection was made for one peer of the
table: the static key that the remote named is compared with the one that the table
has, and the connection is filed under the instance id that it named.
-/

namespace OsModa.Mesh

open OsModa.Text OsModa.Session

/-- Connection state of a peer. -/
inductive ConnectionState where
  | disconnected
  | connecting
  | connected (since : String)
  | failed (reason at_ : String)
  deriving DecidableEq

/-- Stored information about a known mesh peer. -/
structure PeerInfo where
  id : String
  label : String
  noiseStaticPubkey : String
  mlkemEncapKey : String
  endpoint : String
  addedAt : String
  lastSeen : Option String
  connectionState : ConnectionState
  deriving DecidableEq

/-- Maximum unknown inbound peers allowed before rejecting new unknowns. -/
def maxUnknownInboundPeers : Nat := 8

structure MeshState (L : MeshLibs) where
  peers : List PeerInfo
  connections : String → Option (MeshConnection L)

/-- What became of a connection. -/
inductive Filing where
  | filed (id : String)
  | refused (reason : String)
  | panicked
  deriving DecidableEq

/-- Change the first peer with an id. -/
def updatePeer (id : String) (f : PeerInfo → PeerInfo) : List PeerInfo → List PeerInfo
  | [] => []
  | p :: peers => if p.id = id then f p :: peers else p :: updatePeer id f peers

def findPeer (id : String) (peers : List PeerInfo) : Option PeerInfo :=
  peers.find? fun p => p.id = id

def PeerInfo.setConnected (now : String) (p : PeerInfo) : PeerInfo :=
  { p with connectionState := .connected now, lastSeen := some now }

def PeerInfo.setFailed (reason now : String) (p : PeerInfo) : PeerInfo :=
  { p with connectionState := .failed reason now }

namespace MeshState

variable {L : MeshLibs}

/-- Insert a connection made of a handshake, under the id that the peer named. -/
def insertConnection (s : MeshState L) (r : HandshakeResult L) : MeshState L :=
  { s with
    connections := Function.update s.connections r.peerIdentity.instanceId
      (some (.new r.peerIdentity.instanceId r.transport r.pqRekeyMaterial)) }

/-- The first eight bytes of an id; `none` where the slice would cut a character. -/
def shortId (id : String) : Option String :=
  (sliceTo id.toList (min 8 (byteLen id.toList))).map String.ofList

/-- File an inbound connection. -/
def fileInbound (s : MeshState L) (now : String) (r : HandshakeResult L) : Filing × MeshState L :=
  let peerId := r.peerIdentity.instanceId
  let isKnown := s.peers.any fun p => p.id = peerId
  let unknownCount := s.peers.countP fun p => p.endpoint = ""
  if ¬ isKnown ∧ unknownCount ≥ maxUnknownInboundPeers then
    (.refused ("rejected unknown inbound peer: limit reached (" ++
      toString maxUnknownInboundPeers ++ ")"), s)
  else
    let s := s.insertConnection r
    if isKnown then (.filed peerId, { s with peers := updatePeer peerId (·.setConnected now) s.peers })
    else
      match shortId peerId with
      | none => (.panicked, s)
      | some short =>
        (.filed peerId, { s with
          peers := s.peers ++ [⟨peerId, "inbound-" ++ short, r.peerIdentity.noiseStaticPubkey,
            r.peerIdentity.mlkemEncapKey, "", now, some now, .connected now⟩] })

/-- The static key that the table has for a peer, unless it is empty. -/
def pinnedKey (s : MeshState L) (peerId : String) : Option String :=
  ((findPeer peerId s.peers).map PeerInfo.noiseStaticPubkey).filter (· ≠ "")

/-- File an outbound connection that was made for a peer of the table. -/
def fileOutbound (s : MeshState L) (peerId now : String) (r : HandshakeResult L) :
    Filing × MeshState L :=
  let reason := "static key mismatch — possible MITM"
  if s.pinnedKey peerId ≠ none ∧ s.pinnedKey peerId ≠ some r.peerIdentity.noiseStaticPubkey then
    (.refused reason, { s with peers := updatePeer peerId (·.setFailed reason now) s.peers })
  else
    let s := s.insertConnection r
    (.filed r.peerIdentity.instanceId,
      { s with peers := updatePeer peerId (·.setConnected now) s.peers })

/-- Accept one connection from the bytes that arrive on it. -/
def acceptInbound (s : MeshState L) (m : MeshIdentity L) (random : HandshakeRandom) (now : String)
    (incoming : List UInt8) : Filing × MeshState L :=
  match ((respondHandshake m random).run incoming).result with
  | .error e => (.refused e, s)
  | .ok r => s.fileInbound now r

/-- One attempt to connect to a peer of the table. -/
def connectOutbound (s : MeshState L) (m : MeshIdentity L) (random : HandshakeRandom)
    (peerId now : String) (incoming : List UInt8) : Filing × MeshState L :=
  match ((initiateHandshake m random).run incoming).result with
  | .error e =>
    let reason := "handshake failed: " ++ e
    (.refused reason, { s with peers := updatePeer peerId (·.setFailed reason now) s.peers })
  | .ok r => s.fileOutbound peerId now r

variable {s : MeshState L} {m : MeshIdentity L} {random : HandshakeRandom} {now id : String}
  {incoming : List UInt8} {r : HandshakeResult L}

/-- A connection is filed under the id that the peer named. -/
theorem fileInbound_filed (h : (s.fileInbound now r).1 = .filed id) :
    id = r.peerIdentity.instanceId := by
  unfold fileInbound at h
  dsimp only at h
  split at h
  · cases h
  · split at h
    · exact (Filing.filed.inj h).symm
    · split at h
      · cases h
      · exact (Filing.filed.inj h).symm

/-- An outbound connection is filed only if the remote named the pinned key. -/
theorem fileOutbound_filed {peerId : String} (h : (s.fileOutbound peerId now r).1 = .filed id) :
    id = r.peerIdentity.instanceId ∧
      ∀ key, s.pinnedKey peerId = some key → r.peerIdentity.noiseStaticPubkey = key := by
  unfold fileOutbound at h
  dsimp only at h
  split at h
  · cases h
  · rename_i hpin
    refine ⟨(Filing.filed.inj h).symm, fun key hkey => ?_⟩
    rw [hkey, not_and, not_not] at hpin
    exact (Option.some.inj (hpin (by simp))).symm

theorem acceptInbound_filed (h : (s.acceptInbound m random now incoming).1 = .filed id) :
    ∃ r, ((respondHandshake m random).run incoming).result = .ok r ∧
      id = r.peerIdentity.instanceId := by
  unfold acceptInbound at h
  split at h
  · cases h
  · exact ⟨_, ‹_›, fileInbound_filed h⟩

theorem connectOutbound_filed {peerId : String}
    (h : (s.connectOutbound m random peerId now incoming).1 = .filed id) :
    ∃ r, ((initiateHandshake m random).run incoming).result = .ok r ∧
      id = r.peerIdentity.instanceId ∧
      ∀ key, s.pinnedKey peerId = some key → r.peerIdentity.noiseStaticPubkey = key := by
  unfold connectOutbound at h
  split at h
  · cases h
  · exact ⟨_, ‹_›, fileOutbound_filed h⟩

end MeshState

end OsModa.Mesh
