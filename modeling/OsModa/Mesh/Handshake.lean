import OsModa.Mesh.Identity

/-!
The mesh handshake: `Noise_XX`, then the public identities, then ML-KEM both ways.

Each side is a party on the TCP stream. Its first part, up to the point where the
peer has named itself, is a party of its own (`greetAsInitiator`,
`greetAsResponder`): what follows is the check of the signature and the exchange of
the ML-KEM ciphertexts.
-/

namespace OsModa.Mesh

open OsModa.Encoding OsModa.Session Party

/-- HKDF info string for hybrid key derivation. -/
def hkdfInfo : List UInt8 := utf8 "osMODA-mesh-v1".toList

/-- The randomness of one handshake: for Noise, and for ML-KEM. -/
structure HandshakeRandom where
  noise : List UInt8
  mlkem : List UInt8

variable (L : MeshLibs)

/-- Where a handshake stands when the peer has sent its identity. -/
structure Greeting where
  transport : L.Transport
  handshakeHash : List UInt8
  peerIdentity : MeshPublicIdentity

/-- Result of a completed handshake. -/
structure HandshakeResult where
  transport : L.Transport
  peerIdentity : MeshPublicIdentity
  pqRekeyMaterial : Bytes32

/-- Hybrid re-key material from the Noise handshake hash and both ML-KEM shared secrets. -/
def deriveHybridKey (handshakeHash ss1 ss2 : List UInt8) : Bytes32 :=
  L.hkdf (handshakeHash ++ ss1 ++ ss2) hkdfInfo

/-- The ciphertext of a `PqExchange` message. -/
def pqCiphertext (sender : String) : MeshMessage → Except String (List UInt8)
  | .pqExchange ciphertext => L.base64Decode ciphertext
  | _ => .error ("expected PqExchange message from " ++ sender)

variable {L} (m : MeshIdentity L) (random : HandshakeRandom)

/-! ### The initiator -/

/-- The handshake of an initiator, until the peer has named itself. -/
def greetAsInitiator : Party (Greeting L) :=
  orFail (L.buildInitiator random.noise m.noisePrivate.val) fun handshake =>
  -- Message 1: e
  orFail (L.writeHandshake handshake) fun (msg1, handshake) =>
  sendFrame msg1 <|
  -- Message 2: e, ee, s, es
  recvFrame fun msg2 =>
  orFail (L.readHandshake msg2 handshake) fun handshake =>
  -- Message 3: s, se
  orFail (L.writeHandshake handshake) fun (msg3, handshake) =>
  sendFrame msg3 <|
  orFail (L.intoTransportMode handshake) fun transport =>
  orFail (L.writeMessage (L.identityJson m.publicIdentity) transport) fun (encrypted, transport) =>
  sendFrame encrypted <|
  recvFrame fun peerFrame =>
  orFail (L.readMessage peerFrame transport) fun (decrypted, transport) =>
  orFail ((L.parseIdentity decrypted).mapError fun _ => "failed to parse peer identity")
    fun peerIdentity =>
  .done (.ok ⟨transport, L.handshakeHash handshake, peerIdentity⟩)

/-- Perform the `Noise_XX` handshake as the initiator (connecting to a peer). -/
def initiateHandshake : Party (HandshakeResult L) :=
  (greetAsInitiator m random).bind fun greeting =>
  orFail (verifyIdentity L greeting.peerIdentity) fun valid =>
  if ¬ valid then .done (.error "peer identity signature verification failed")
  else
    -- Initiator encapsulates to responder's EK.
    orFail (mlkemEncapsulate L random.mlkem greeting.peerIdentity.mlkemEncapKey)
      fun (ciphertext, ssInitiator) =>
    orFail (L.writeMessage (L.messageJson (.pqExchange (L.base64Encode ciphertext)))
      greeting.transport) fun (encrypted, transport) =>
    sendFrame encrypted <|
    recvFrame fun peerFrame =>
    orFail (L.readMessage peerFrame transport) fun (decrypted, transport) =>
    orFail (L.parseMessage decrypted) fun peerMessage =>
    orFail (pqCiphertext L "responder" peerMessage) fun peerCiphertext =>
    orFail (m.mlkemDecapsulate peerCiphertext) fun ssResponder =>
    .done (.ok ⟨transport, greeting.peerIdentity,
      deriveHybridKey L greeting.handshakeHash ssInitiator ssResponder⟩)

/-! ### The responder -/

/-- The handshake of a responder, until the peer has named itself. -/
def greetAsResponder : Party (Greeting L) :=
  orFail (L.buildResponder random.noise m.noisePrivate.val) fun handshake =>
  recvFrame fun msg1 =>
  orFail (L.readHandshake msg1 handshake) fun handshake =>
  orFail (L.writeHandshake handshake) fun (msg2, handshake) =>
  sendFrame msg2 <|
  recvFrame fun msg3 =>
  orFail (L.readHandshake msg3 handshake) fun handshake =>
  orFail (L.intoTransportMode handshake) fun transport =>
  recvFrame fun peerFrame =>
  orFail (L.readMessage peerFrame transport) fun (decrypted, transport) =>
  orFail ((L.parseIdentity decrypted).mapError fun _ => "failed to parse peer identity")
    fun peerIdentity =>
  .done (.ok ⟨transport, L.handshakeHash handshake, peerIdentity⟩)

/-- Perform the `Noise_XX` handshake as the responder (accepting a connection). -/
def respondHandshake : Party (HandshakeResult L) :=
  (greetAsResponder m random).bind fun greeting =>
  orFail (verifyIdentity L greeting.peerIdentity) fun valid =>
  if ¬ valid then .done (.error "peer identity signature verification failed")
  else
    orFail (L.writeMessage (L.identityJson m.publicIdentity) greeting.transport)
      fun (encrypted, transport) =>
    sendFrame encrypted <|
    -- Receive initiator's encapsulation to our EK.
    recvFrame fun peerFrame =>
    orFail (L.readMessage peerFrame transport) fun (decrypted, transport) =>
    orFail (L.parseMessage decrypted) fun peerMessage =>
    orFail (pqCiphertext L "initiator" peerMessage) fun peerCiphertext =>
    orFail (m.mlkemDecapsulate peerCiphertext) fun ssInitiator =>
    -- Responder encapsulates to initiator's EK.
    orFail (mlkemEncapsulate L random.mlkem greeting.peerIdentity.mlkemEncapKey)
      fun (ciphertext, ssResponder) =>
    orFail (L.writeMessage (L.messageJson (.pqExchange (L.base64Encode ciphertext))) transport)
      fun (encrypted, transport) =>
    sendFrame encrypted <|
    .done (.ok ⟨transport, greeting.peerIdentity,
      deriveHybridKey L greeting.handshakeHash ssInitiator ssResponder⟩)

end OsModa.Mesh
