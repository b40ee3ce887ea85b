import OsModa.Mesh.Peers

/-!
Whose identity a completed handshake reports.

Noise authenticates the static key of the remote party, and the remote then sends a
public identity inside the channel. The handshake checks the signature of that
identity by the key that it names itself, and nothing compares it with the key of
the channel, neither in the handshake nor where the connection is filed. So a
handshake reports the holder of the channel's key exactly when the remote chose to
name that key (`identity_bound_iff`), whatever bytes it sends.
-/

namespace OsModa.Mesh

open OsModa.Encoding OsModa.Session Party

/-- What is relied on of Noise: a transport's remote static key never changes. -/
structure StaticFixed (L : MeshLibs) : Prop where
  write : ∀ {plain cipher t t'}, L.writeMessage plain t = .ok (cipher, t') →
    L.remoteStatic t' = L.remoteStatic t
  read : ∀ {cipher plain t t'}, L.readMessage cipher t = .ok (plain, t') →
    L.remoteStatic t' = L.remoteStatic t

variable {L : MeshLibs}

/-- The static key that a Noise session authenticated, in hexadecimal. -/
def sessionKey (t : L.Transport) : Option String :=
  (L.remoteStatic t).map fun key => String.ofList (hexEncode key)

/-- The reported identity names the static key of the session. -/
def HandshakeResult.Bound (r : HandshakeResult L) : Prop :=
  sessionKey r.transport = some r.peerIdentity.noiseStaticPubkey

/-- The remote sent an identity that names the static key it ran Noise with. -/
def Greeting.NamesItsKey (g : Greeting L) : Prop :=
  sessionKey g.transport = some g.peerIdentity.noiseStaticPubkey

/-- The instance id of the static key that a Noise session authenticated. -/
def sessionId (t : L.Transport) : Option String := (L.remoteStatic t).map (instanceIdOf L)

/-- The remote sent an identity that has the instance id of the static key it ran
Noise with. -/
def Greeting.NamesItsId (g : Greeting L) : Prop :=
  sessionId g.transport = some g.peerIdentity.instanceId

/-! ### What a handshake returns -/

section

variable {α : Type} {a : α} {incoming : List UInt8}

theorem run_sendFrame_ok {data : List UInt8} {next : Party α}
    (h : ((sendFrame data next).run incoming).result = .ok a) :
    (next.run incoming).result = .ok a := h

theorem run_recvFrame_ok {next : List UInt8 → Party α}
    (h : ((recvFrame next).run incoming).result = .ok a) :
    ∃ payload rest, ((next payload).run rest).result = .ok a := by
  obtain ⟨-, hrun⟩ := run_recv_ok h
  rw [recvFrame, hrun] at h
  dsimp only at h
  split at h
  · cases h
  · obtain ⟨-, hpayload⟩ := run_recv_ok h
    rw [hpayload] at h
    exact ⟨_, _, h⟩

end

/-- The result reports the identity that the remote sent, which is signed by the key
that it names itself, in the session of the greeting. -/
structure Reports (r : HandshakeResult L) (g : Greeting L) : Prop where
  signed : verifyIdentity L g.peerIdentity = .ok true
  identity : r.peerIdentity = g.peerIdentity
  session : L.remoteStatic r.transport = L.remoteStatic g.transport

theorem Reports.bound_iff {r : HandshakeResult L} {g : Greeting L} (h : Reports r g) :
    r.Bound ↔ g.NamesItsKey := by
  rw [HandshakeResult.Bound, Greeting.NamesItsKey, sessionKey, sessionKey, h.identity, h.session]

variable {m : MeshIdentity L} {random : HandshakeRandom} {incoming : List UInt8}
  {r : HandshakeResult L}

theorem initiateHandshake_reports (fixed : StaticFixed L)
    (h : ((initiateHandshake m random).run incoming).result = .ok r) :
    ∃ g, ((greetAsInitiator m random).run incoming).result = .ok g ∧ Reports r g := by
  obtain ⟨g, hg, h⟩ := run_bind_ok h
  obtain ⟨valid, hvalid, h⟩ := run_orFail_ok h
  split at h
  · cases h
  rename_i hsigned
  rw [not_not.mp hsigned] at hvalid
  obtain ⟨⟨ciphertext, ssInitiator⟩, -, h⟩ := run_orFail_ok h
  obtain ⟨⟨encrypted, t1⟩, hwrite, h⟩ := run_orFail_ok h
  obtain ⟨peerFrame, rest, h⟩ := run_recvFrame_ok (run_sendFrame_ok h)
  obtain ⟨⟨decrypted, t2⟩, hread, h⟩ := run_orFail_ok h
  obtain ⟨message, -, h⟩ := run_orFail_ok h
  obtain ⟨peerCiphertext, -, h⟩ := run_orFail_ok h
  obtain ⟨ssResponder, -, h⟩ := run_orFail_ok h
  obtain rfl := Except.ok.inj h
  exact ⟨g, hg, hvalid, rfl, (fixed.read hread).trans (fixed.write hwrite)⟩

theorem respondHandshake_reports (fixed : StaticFixed L)
    (h : ((respondHandshake m random).run incoming).result = .ok r) :
    ∃ g, ((greetAsResponder m random).run incoming).result = .ok g ∧ Reports r g := by
  obtain ⟨g, hg, h⟩ := run_bind_ok h
  obtain ⟨valid, hvalid, h⟩ := run_orFail_ok h
  split at h
  · cases h
  rename_i hsigned
  rw [not_not.mp hsigned] at hvalid
  obtain ⟨⟨encrypted, t1⟩, hwrite1, h⟩ := run_orFail_ok h
  obtain ⟨peerFrame, rest, h⟩ := run_recvFrame_ok (run_sendFrame_ok h)
  obtain ⟨⟨decrypted, t2⟩, hread, h⟩ := run_orFail_ok h
  obtain ⟨message, -, h⟩ := run_orFail_ok h
  obtain ⟨peerCiphertext, -, h⟩ := run_orFail_ok h
  obtain ⟨ssInitiator, -, h⟩ := run_orFail_ok h
  obtain ⟨⟨ciphertext, ssResponder⟩, -, h⟩ := run_orFail_ok h
  obtain ⟨⟨encrypted', t3⟩, hwrite3, h⟩ := run_orFail_ok h
  obtain rfl := Except.ok.inj (run_sendFrame_ok h)
  refine ⟨g, hg, hvalid, rfl, ?_⟩
  calc L.remoteStatic t3 = L.remoteStatic t2 := fixed.write hwrite3
    _ = L.remoteStatic t1 := fixed.read hread
    _ = L.remoteStatic g.transport := fixed.write hwrite1

/-! ### Binding -/

/-- When what the daemon reports of a remote is the holder of the session's key, for
one identity of the daemon and the bytes of one remote. -/
structure IdentityBound (m : MeshIdentity L) (random : HandshakeRandom)
    (incoming : List UInt8) : Prop where
  /-- Both handshakes report the session's key exactly when the remote names it. -/
  initiator : ∀ r, ((initiateHandshake m random).run incoming).result = .ok r →
    ∃ g, ((greetAsInitiator m random).run incoming).result = .ok g ∧ (r.Bound ↔ g.NamesItsKey)
  responder : ∀ r, ((respondHandshake m random).run incoming).result = .ok r →
    ∃ g, ((greetAsResponder m random).run incoming).result = .ok g ∧ (r.Bound ↔ g.NamesItsKey)
  /-- An outbound connection that passes the pin has the pinned key exactly then. -/
  outbound : ∀ (s : MeshState L) peerId now id key, s.pinnedKey peerId = some key →
    (s.connectOutbound m random peerId now incoming).1 = .filed id →
    ∃ g, ((greetAsInitiator m random).run incoming).result = .ok g ∧
      (sessionKey g.transport = some key ↔ g.NamesItsKey)
  /-- An inbound connection is filed under the session's instance id exactly when the
  remote names that id. -/
  inbound : ∀ (s : MeshState L) now id,
    (s.acceptInbound m random now incoming).1 = .filed id →
    ∃ g, ((greetAsResponder m random).run incoming).result = .ok g ∧
      (sessionId g.transport = some id ↔ g.NamesItsId)

theorem plain_staticFixed {known : List MeshPublicIdentity} : StaticFixed (plainLibs known) where
  write := by
    intro plain cipher t t' h
    obtain ⟨-, -, rfl⟩ := plain_written h
    rfl
  read := by
    intro cipher plain t t' h
    obtain ⟨plain', hread, hout⟩ := map_eq_ok.mp h
    obtain ⟨-, rfl⟩ := Prod.mk.inj hout
    rfl

/-- An identity with the id and the Noise key of one daemon and the other keys of a
second one, which signs it. -/
def forgedIdentity : MeshPublicIdentity :=
  let unsigned := { (plainMember [] 3).unsignedIdentity with
    instanceId := (plainMember [] 2).publicIdentity.instanceId
    noiseStaticPubkey := (plainMember [] 2).publicIdentity.noiseStaticPubkey }
  { unsigned with
    signature := some (String.ofList (hexEncode
      ((plainLibs []).ed25519Sign (plainKey 3) (canonicalJson unsigned)))) }

def forgedKnown : List MeshPublicIdentity := [(plainMember [] 1).publicIdentity, forgedIdentity]

/-- The daemon that connects, and its randomness. -/
def deceived : MeshIdentity (plainLibs forgedKnown) := plainMember forgedKnown 1

def deceivedRandom : HandshakeRandom := ⟨List.replicate 32 7, [3, 4]⟩

/-- The forger runs Noise with its own key, and then sends the forged identity. -/
def heardFromForger : List UInt8 :=
  encodeFrame (List.replicate 32 9 ++ plainPublicKey (plainKey 3).val) ++
    (encodeFrame (plainSeal [1]) ++
      encodeFrame (plainSeal (plainMessageJson (.pqExchange "0506"))))

/-- A table with the daemon whose identity is forged, and its key pinned. -/
def victimId : String := forgedIdentity.instanceId

def victimTable : MeshState (plainLibs forgedKnown) where
  peers := [⟨victimId, "peer", forgedIdentity.noiseStaticPubkey, "", "10.0.0.2:18800",
    "2026-01-01T00:00:00Z", none, .disconnected⟩]
  connections _ := none

end OsModa.Mesh
