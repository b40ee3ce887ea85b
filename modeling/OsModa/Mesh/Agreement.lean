import OsModa.Mesh.Handshake

/-!
What two honest sides of a linked handshake agree on: each other's identity, and the
hybrid key material.

`Lawful` lists what is relied on of the libraries. The states of two Noise
transports that decrypt each other's messages are `Paired`, an abstract relation.
-/

namespace OsModa.Mesh

open OsModa.Session Party

variable {L : MeshLibs}

/-- Two Noise handshakes after the three messages were exchanged undisturbed. -/
def Exchanged (L : MeshLibs) (initiator responder : L.Handshake) : Prop :=
  ∃ randomI keyI randomR keyR i0 i1 i2 r0 r1 r2 msg1 msg2 msg3,
    L.buildInitiator randomI keyI = .ok i0 ∧ L.buildResponder randomR keyR = .ok r0 ∧
    L.writeHandshake i0 = .ok (msg1, i1) ∧ L.readHandshake msg1 r0 = .ok r1 ∧
    L.writeHandshake r1 = .ok (msg2, r2) ∧ L.readHandshake msg2 i1 = .ok i2 ∧
    L.writeHandshake i2 = .ok (msg3, initiator) ∧ L.readHandshake msg3 r2 = .ok responder

/-- What is relied on of the libraries. -/
structure Lawful (L : MeshLibs) (Paired : L.Transport → L.Transport → Prop) : Prop where
  /-- A Noise message is at most 65535 bytes long. -/
  handshake_size : ∀ {h msg h'}, L.writeHandshake h = .ok (msg, h') → msg.length ≤ 65535
  message_size : ∀ {t plain cipher t'},
    L.writeMessage plain t = .ok (cipher, t') → cipher.length ≤ 65535
  /-- An undisturbed handshake gives both sides one hash, and paired transports. -/
  handshake_hash : ∀ {i r}, Exchanged L i r → L.handshakeHash i = L.handshakeHash r
  handshake_paired : ∀ {i r s t}, Exchanged L i r →
    L.intoTransportMode i = .ok s → L.intoTransportMode r = .ok t → Paired s t
  paired_symm : ∀ {s t}, Paired s t → Paired t s
  /-- A message that a paired transport accepts is the one that was written. -/
  delivered : ∀ {s t s' t' plain cipher plain'}, Paired s t →
    L.writeMessage plain s = .ok (cipher, s') → L.readMessage cipher t = .ok (plain', t') →
    plain' = plain ∧ Paired s' t'
  /-- Decapsulation recovers the secret that was encapsulated to the key. -/
  decapsulate : ∀ {random dk ciphertext secret secret'},
    L.encapsulate random (L.encapsulationKey dk) = some (ciphertext, secret) →
    L.decapsulate dk ciphertext = some secret' → secret' = secret
  base64 : ∀ {bytes bytes'}, L.base64Decode (L.base64Encode bytes) = .ok bytes' → bytes' = bytes
  identity_json : ∀ {i j}, L.parseIdentity (L.identityJson i) = .ok j → j = i
  pqExchange_json : ∀ {ciphertext message},
    L.parseMessage (L.messageJson (.pqExchange ciphertext)) = .ok message →
    message = .pqExchange ciphertext

namespace Lawful

variable {Paired : L.Transport → L.Transport → Prop} (laws : Lawful L Paired)

include laws

/-- The frame of a handshake message arrives. -/
theorem handshake_frame {α β : Type} {p : Party α} {next : List UInt8 → Party β} {a : α} {b : β}
    {h h' : L.Handshake} {msg : List UInt8} (hmsg : L.writeHandshake h = .ok (msg, h'))
    (hlink : Linked (sendFrame msg p) (recvFrame next) a b) : Linked p (next msg) a b := by
  have := laws.handshake_size hmsg
  exact linked_frame (by omega) hlink

/-- A message of a paired transport arrives and is read as it was written. -/
theorem message_frame {α β : Type} {p : Party α} {next : List UInt8 × L.Transport → Party β}
    {a : α} {b : β} {s s' t : L.Transport} {plain cipher : List UInt8} (hpaired : Paired s t)
    (hmsg : L.writeMessage plain s = .ok (cipher, s'))
    (hlink : Linked (sendFrame cipher p)
      (recvFrame fun frame => orFail (L.readMessage frame t) next) a b) :
    ∃ t', Paired s' t' ∧ Linked p (next (plain, t')) a b := by
  have hsize := laws.message_size hmsg
  obtain ⟨⟨plain', t'⟩, hread, hlink⟩ := (linked_frame (by omega) hlink).symm.orFail
  obtain ⟨rfl, hpaired'⟩ := laws.delivered hpaired hmsg hread
  exact ⟨t', hpaired', hlink.symm⟩

/-- The secret that a peer encapsulated to our public identity is the one that we
decapsulate. -/
theorem secret_agrees {m : MeshIdentity L} {random ciphertext secret ciphertext' secret' : List UInt8}
    {sender : String}
    (hencap : mlkemEncapsulate L random m.publicIdentity.mlkemEncapKey = .ok (ciphertext, secret))
    (hcipher : pqCiphertext L sender (.pqExchange (L.base64Encode ciphertext)) = .ok ciphertext')
    (hdecap : m.mlkemDecapsulate ciphertext' = .ok secret') : secret' = secret := by
  obtain ⟨ek, hek, hencap⟩ := mlkemEncapsulate_ok hencap
  obtain rfl := laws.base64 hek
  obtain rfl := laws.base64 hcipher
  exact laws.decapsulate hencap (mlkemDecapsulate_ok hdecap)

end Lawful

/-- What both sides of a handshake know at its end. -/
structure Agreed (alice bob : MeshIdentity L) (a b : HandshakeResult L) : Prop where
  responder : a.peerIdentity = bob.publicIdentity
  initiator : b.peerIdentity = alice.publicIdentity
  key : a.pqRekeyMaterial = b.pqRekeyMaterial

/-- **Agreement.** Two honest sides that are linked and both complete the handshake
know each other's identity and share the hybrid key material. -/
theorem handshake_agreed {Paired : L.Transport → L.Transport → Prop} (laws : Lawful L Paired)
    {alice bob : MeshIdentity L} {randomA randomB : HandshakeRandom} {a b : HandshakeResult L}
    (h : Linked (initiateHandshake alice randomA) (respondHandshake bob randomB) a b) :
    Agreed alice bob a b := by
  unfold initiateHandshake respondHandshake greetAsInitiator greetAsResponder at h
  simp only [orFail_bind, sendFrame_bind, recvFrame_bind, done_bind] at h
  -- The three messages of Noise.
  obtain ⟨i0, hi0, h⟩ := h.orFail
  obtain ⟨⟨msg1, i1⟩, hmsg1, h⟩ := h.orFail
  obtain ⟨r0, hr0, h⟩ := h.symm.orFail
  obtain ⟨r1, hr1, h⟩ := (laws.handshake_frame hmsg1 h.symm).symm.orFail
  obtain ⟨⟨msg2, r2⟩, hmsg2, h⟩ := h.orFail
  obtain ⟨i2, hi2, h⟩ := (laws.handshake_frame hmsg2 h).symm.orFail
  obtain ⟨⟨msg3, i3⟩, hmsg3, h⟩ := h.orFail
  obtain ⟨r3, hr3, h⟩ := (laws.handshake_frame hmsg3 h).symm.orFail
  have hexchanged : Exchanged L i3 r3 :=
    ⟨_, _, _, _, i0, i1, i2, r0, r1, r2, msg1, msg2, msg3, hi0, hr0, hmsg1, hr1, hmsg2, hi2,
      hmsg3, hr3⟩
  -- The public identities.
  obtain ⟨t0, ht0, h⟩ := h.orFail
  obtain ⟨s0, hs0, h⟩ := h.symm.orFail
  have hpaired := laws.handshake_paired hexchanged hs0 ht0
  obtain ⟨⟨cipher1, s1⟩, hcipher1, h⟩ := h.orFail
  obtain ⟨t1, hpaired, h⟩ := laws.message_frame hpaired hcipher1 h
  obtain ⟨idA, hidA, h⟩ := h.symm.orFail
  obtain rfl := laws.identity_json (mapError_eq_ok.mp hidA)
  obtain ⟨validA, -, h⟩ := h.orFail
  split at h
  · exact absurd h.symm Linked.not_failed
  obtain ⟨⟨cipher2, t2⟩, hcipher2, h⟩ := h.orFail
  obtain ⟨s2, hpaired, h⟩ := laws.message_frame (laws.paired_symm hpaired) hcipher2 h
  obtain ⟨idB, hidB, h⟩ := h.symm.orFail
  obtain rfl := laws.identity_json (mapError_eq_ok.mp hidB)
  obtain ⟨validB, -, h⟩ := h.orFail
  split at h
  · exact absurd h.symm Linked.not_failed
  -- The initiator's ciphertext, then the responder's.
  obtain ⟨⟨ct1, ss1⟩, hencap1, h⟩ := h.orFail
  obtain ⟨⟨cipher3, s3⟩, hcipher3, h⟩ := h.orFail
  obtain ⟨t3, hpaired, h⟩ := laws.message_frame (laws.paired_symm hpaired) hcipher3 h
  obtain ⟨message1, hmessage1, h⟩ := h.symm.orFail
  obtain rfl := laws.pqExchange_json hmessage1
  obtain ⟨ct1', hct1, h⟩ := h.orFail
  obtain ⟨ss1', hss1, h⟩ := h.orFail
  obtain rfl := laws.secret_agrees hencap1 hct1 hss1
  obtain ⟨⟨ct2, ss2⟩, hencap2, h⟩ := h.orFail
  obtain ⟨⟨cipher4, t4⟩, hcipher4, h⟩ := h.orFail
  obtain ⟨s4, -, h⟩ := laws.message_frame (laws.paired_symm hpaired) hcipher4 h
  obtain ⟨message2, hmessage2, h⟩ := h.symm.orFail
  obtain rfl := laws.pqExchange_json hmessage2
  obtain ⟨ct2', hct2, h⟩ := h.orFail
  obtain ⟨ss2', hss2, h⟩ := h.orFail
  obtain rfl := laws.secret_agrees hencap2 hct2 hss2
  obtain ⟨rfl, rfl⟩ := h.done
  refine ⟨rfl, rfl, ?_⟩
  rw [laws.handshake_hash hexchanged]

end OsModa.Mesh
