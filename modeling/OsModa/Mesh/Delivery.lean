import OsModa.Mesh.Sending

/-!
The first message over a new connection, and how long it may be.

A frame may carry a mebibyte, but what it carries has gone through Noise as one message, and
that holds 65535 bytes with its tag. So the longest message that is sent is much shorter than
the longest frame that would be received (`first_message_iff`).
-/

namespace OsModa.Mesh

open OsModa.Encoding

variable {L : MeshLibs}

/-- The length of the frame that a message is put in: a header, the JSON, and the tags of the two
layers. -/
def frameSize (L : MeshLibs) (msg : MeshMessage) : Nat := 4 + ((L.messageJson msg).length + 16 + 16)

namespace Channel

variable (ch : Channel L)

/-- The sizes of Noise messages: a tag of 16 bytes, and 65535 bytes with it. -/
structure NoiseSizes : Prop where
  accepts : ∀ {plain}, (L.writeMessage plain ch.sender.transport).isOk = true ↔
    plain.length + 16 ≤ 65535
  cipher_size : ∀ {plain cipher t'}, L.writeMessage plain ch.sender.transport = .ok (cipher, t') →
    cipher.length = plain.length + 16

/-- A message that is sent first is received as it was sent. -/
def FirstDelivered (msg : MeshMessage) : Prop :=
  ∃ frame use, (ch.sender.sendMessage msg).1 = .ok (frame, use) ∧
    (ch.receiver.recvMessage frame).1 = .ok msg

variable {ch}

/-- What the first call of `send_message` returns, where Noise accepts the message. -/
theorem sendMessage_first {msg : MeshMessage} {cipher : List UInt8} {t' : L.Transport}
    (hwrite : L.writeMessage (L.messageJson msg) ch.sender.transport = .ok (cipher, t')) :
    (ch.sender.sendMessage msg).1 =
      .ok (encodeFrame (L.pqEncrypt ch.sender.pqRekeyMaterial (makePqNonce 0) cipher),
        ⟨ch.sender.pqRekeyMaterial, makePqNonce 0⟩) := by
  rw [MeshConnection.sendMessage, hwrite, ch.sender_new]

theorem framed_first {plain cipher : List UInt8} {t' : L.Transport}
    (hwrite : L.writeMessage plain ch.sender.transport = .ok (cipher, t')) :
    ch.Framed 0 0 plain
      (encodeFrame (L.pqEncrypt ch.sender.pqRekeyMaterial (makePqNonce 0) cipher)) :=
  ⟨cipher, ⟨ch.sender.transport, t', ch.wrote_zero, hwrite⟩, rfl⟩

/-- The frame that is written is as long as its message makes it. -/
theorem frame_length (sizes : ch.NoiseSizes) {msg : MeshMessage} {frame : List UInt8} {use : PqUse}
    (hsend : (ch.sender.sendMessage msg).1 = .ok (frame, use)) :
    frame.length = frameSize L msg := by
  cases hwrite : L.writeMessage (L.messageJson msg) ch.sender.transport with
  | error e =>
    rw [MeshConnection.sendMessage, hwrite] at hsend
    cases hsend
  | ok out =>
    obtain ⟨cipher, t'⟩ := out
    rw [sendMessage_first hwrite] at hsend
    obtain ⟨rfl, -⟩ := Prod.mk.inj (Except.ok.inj hsend)
    rw [encodeFrame, List.length_append, length_bigEndian, ch.pq_size (length_makePqNonce 0),
      sizes.cipher_size hwrite, frameSize]

/-- The first message of a connection arrives as it was sent if and only if its JSON is at most
65519 bytes long and is read back as the message. -/
theorem first_message_iff (sizes : ch.NoiseSizes) (msg : MeshMessage) :
    ch.FirstDelivered msg ↔ (L.messageJson msg).length ≤ 65519 ∧ Readable L msg := by
  have hfirst : ch.Reads 0 ch.receiver := ⟨ch.same_key, ch.receiver_new, ch.read_zero⟩
  have haccepts : (L.writeMessage (L.messageJson msg) ch.sender.transport).isOk = true ↔
      (L.messageJson msg).length + 16 ≤ 65535 := sizes.accepts
  unfold FirstDelivered Readable
  cases hwrite : L.writeMessage (L.messageJson msg) ch.sender.transport with
  | error e =>
    rw [hwrite] at haccepts
    have hlong : ¬ (L.messageJson msg).length ≤ 65519 := fun hshort =>
      Bool.false_ne_true (haccepts.mpr (by omega))
    refine iff_of_false ?_ fun h => hlong h.1
    rintro ⟨frame, use, hsend, -⟩
    rw [MeshConnection.sendMessage, hwrite] at hsend
    cases hsend
  | ok out =>
    obtain ⟨cipher, t'⟩ := out
    rw [hwrite] at haccepts
    have hshort := haccepts.mp rfl
    obtain ⟨hparse, -⟩ := recv_in_place hfirst (framed_first hwrite)
    rw [sendMessage_first hwrite]
    constructor
    · rintro ⟨frame, use, hsend, hrecv⟩
      obtain ⟨rfl, -⟩ := Prod.mk.inj (Except.ok.inj hsend)
      exact ⟨by omega, hparse.symm.trans hrecv⟩
    · rintro ⟨-, hreadable⟩
      exact ⟨_, _, rfl, hparse.trans hreadable⟩

end Channel

/-! A heartbeat, and one with a timestamp that fills the Noise message. -/

theorem countingChannel_sizes : countingChannel.NoiseSizes where
  accepts := by
    intro plain
    change (countingWrite plain ⟨0, 0⟩).isOk = true ↔ _
    rw [isOk_iff_exists]
    constructor
    · rintro ⟨⟨cipher, t'⟩, h⟩
      exact (countingWrite_ok h).1.2
    · intro hshort
      exact ⟨_, if_pos ⟨by decide, hshort⟩⟩
  cipher_size := by
    intro plain cipher t' h
    obtain ⟨-, rfl, -⟩ := countingWrite_ok h
    rw [List.length_append, length_littleEndian, Nat.add_comm]

theorem heartbeat_readable : Readable countingLibs (.heartbeat "2026-01-01T00:00:00Z") := by
  have htext : String.ofList ((((plainMessageJson (.heartbeat "2026-01-01T00:00:00Z")).drop
      33).dropLast.dropLast).map fun b => Char.ofNat b.toNat) = "2026-01-01T00:00:00Z" := by
    decide +kernel
  change plainParseHeartbeat (plainMessageJson (.heartbeat "2026-01-01T00:00:00Z")) = _
  unfold plainParseHeartbeat
  dsimp only
  rw [htext, if_pos rfl]

theorem heartbeat_delivered : countingChannel.FirstDelivered (.heartbeat "2026-01-01T00:00:00Z") :=
  (Channel.first_message_iff countingChannel_sizes _).mpr ⟨by decide +kernel, heartbeat_readable⟩

/-- The timestamp has 65536 characters. -/
def longHeartbeat : MeshMessage := .heartbeat (String.ofList (List.replicate 65536 'a'))

theorem longHeartbeat_length : (countingLibs.messageJson longHeartbeat).length = 65571 := by
  have hbytes : ∀ n, (utf8 (List.replicate n 'a')).length = n := by
    intro n
    induction n with
    | zero => rfl
    | succ n ih =>
      rw [List.replicate_succ, utf8_cons, List.length_append, ih]
      exact Nat.add_comm 1 n
  have htext : (String.ofList (List.replicate 65536 'a')).toList = List.replicate 65536 'a' :=
    String.toList_ofList
  change (plainMessageJson longHeartbeat).length = _
  rw [longHeartbeat, plainMessageJson, htext, utf8_append, utf8_append, List.length_append,
    List.length_append, hbytes]
  rfl

/-- The frame would be far from too large, and the message is not sent. -/
theorem longHeartbeat_fails : frameSize countingLibs longHeartbeat ≤ maxMessageSize ∧
    ¬ countingChannel.FirstDelivered longHeartbeat := by
  refine ⟨by rw [frameSize, longHeartbeat_length]; decide, ?_⟩
  rintro ⟨frame, use, hsend, -⟩
  have hrefused : ¬ (countingLibs.writeMessage (countingLibs.messageJson longHeartbeat)
      countingChannel.sender.transport).isOk = true := by
    rw [countingChannel_sizes.accepts, longHeartbeat_length]
    decide
  apply hrefused
  cases hwrite : countingLibs.writeMessage (countingLibs.messageJson longHeartbeat)
      countingChannel.sender.transport with
  | error e =>
    rw [MeshConnection.sendMessage, hwrite] at hsend
    cases hsend
  | ok out => rfl

end OsModa.Mesh
