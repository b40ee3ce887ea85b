import Mathlib.Data.List.Infix
import OsModa.Mesh.Transport

/-!
Calls of `send_message` on one connection that run at the same time.

A call takes three locks, one after the other: it encrypts with Noise, then for the PQ layer,
then it writes its frame. Each of the three counts for itself, and the peer decrypts a frame
only at the position that both encryptions have counted. So the peer receives what was sent
exactly when the calls take the three locks in one order (`concurrent_sends_iff`).
-/

namespace OsModa.Mesh

open OsModa.Encoding OsModa.Machine OsModa.Session

/-! ### One direction of a connection -/

@[simp] theorem length_makePqNonce (counter : UInt64) : (makePqNonce counter).length = 12 := by
  simp [makePqNonce]

/-- The two ends of a new connection, and what is relied on of the libraries in the direction
from the one to the other. -/
structure Channel (L : MeshLibs) where
  sender : MeshConnection L
  receiver : MeshConnection L
  sender_new : sender.pqEncryptNonce = 0
  receiver_new : receiver.pqDecryptNonce = 0
  same_key : receiver.pqRekeyMaterial = sender.pqRekeyMaterial
  /-- The transport of the sender has encrypted so many messages of the channel. -/
  Wrote : Nat → L.Transport → Prop
  /-- The transport of the receiver has decrypted so many. -/
  Read : Nat → L.Transport → Prop
  wrote_zero : Wrote 0 sender.transport
  read_zero : Read 0 receiver.transport
  /-- Noise counts what it encrypts, apart from what it decrypts. -/
  wrote_succ : ∀ {n t plain cipher t'}, Wrote n t →
    L.writeMessage plain t = .ok (cipher, t') → Wrote (n + 1) t'
  wrote_of_read : ∀ {n t cipher plain t'}, Wrote n t →
    L.readMessage cipher t = .ok (plain, t') → Wrote n t'
  read_of_wrote : ∀ {n t plain cipher t'}, Read n t →
    L.writeMessage plain t = .ok (cipher, t') → Read n t'
  /-- A Noise nonce has 64 bits, and a message at most 65535 bytes. -/
  nonce_lt : ∀ {n t plain cipher t'}, Wrote n t →
    L.writeMessage plain t = .ok (cipher, t') → n < 2 ^ 64
  message_size : ∀ {t plain cipher t'},
    L.writeMessage plain t = .ok (cipher, t') → cipher.length ≤ 65535
  /-- What was encrypted under one nonce is decrypted under that nonce and no other. -/
  delivered : ∀ {n s plain cipher s' r}, Wrote n s → L.writeMessage plain s = .ok (cipher, s') →
    Read n r → ∃ r', L.readMessage cipher r = .ok (plain, r') ∧ Read (n + 1) r'
  misplaced : ∀ {n m s plain cipher s' r}, Wrote n s → L.writeMessage plain s = .ok (cipher, s') →
    Read m r → m ≠ n → ∃ e, L.readMessage cipher r = .error e
  pq_size : ∀ {key nonce plain}, nonce.length = 12 →
    (L.pqEncrypt key nonce plain).length = plain.length + 16
  pq_delivered : ∀ {key nonce plain}, nonce.length = 12 →
    L.pqDecrypt key nonce (L.pqEncrypt key nonce plain) = .ok plain
  pq_misplaced : ∀ {key nonce nonce' plain}, nonce.length = 12 → nonce'.length = 12 →
    nonce' ≠ nonce → ∃ e, L.pqDecrypt key nonce' (L.pqEncrypt key nonce plain) = .error e

/-! ### The sender -/

/-- How far a call of `send_message` has come. -/
inductive SendStage where
  | called
  | noiseEncrypted (noiseCiphertext : List UInt8)
  | framed (frame : List UInt8)
  | returned (result : Except String Unit)

variable {L : MeshLibs} {ι : Type}

/-- The connection, and the calls on it. -/
structure SenderState (L : MeshLibs) (ι : Type) where
  connection : MeshConnection L
  stage : ι → SendStage

/-- A call takes its next lock and does what it does under it, or the receive loop reads a
frame. A call that is dropped is one that is not heard of again. -/
inductive SenderOp (ι : Type) where
  | advance (call : ι)
  | receive (incoming : List UInt8)

/-- The locks that a call has gone through. -/
inductive LockEvent (ι : Type) where
  | noise (call : ι)
  | pq (call : ι)
  | writer (call : ι) (frame : List UInt8)

def LockEvent.call : LockEvent ι → ι
  | .noise call | .pq call | .writer call _ => call

section Sender

variable [DecidableEq ι]

def SenderState.setStage (st : SenderState L ι) (call : ι) (stage : SendStage) :
    SenderState L ι :=
  { st with stage := Function.update st.stage call stage }

@[simp] theorem setStage_connection (st : SenderState L ι) (call : ι) (stage : SendStage) :
    (st.setStage call stage).connection = st.connection := rfl

@[simp] theorem setStage_stage (st : SenderState L ι) (call : ι) (stage : SendStage) :
    (st.setStage call stage).stage = Function.update st.stage call stage := rfl

/-- One step of a call. -/
def sendStep (msg : ι → MeshMessage) (call : ι) (st : SenderState L ι) :
    Option (LockEvent ι) × SenderState L ι :=
  let c := st.connection
  match st.stage call with
  | .called =>
    -- Layer 1: Noise encrypt
    match L.writeMessage (L.messageJson (msg call)) c.transport with
    | .error e => (none, st.setStage call (.returned (.error e)))
    | .ok (noiseCiphertext, transport) =>
      (some (.noise call),
        { st with connection := { c with transport := transport } }.setStage call
          (.noiseEncrypted noiseCiphertext))
  | .noiseEncrypted noiseCiphertext =>
    -- Layer 2: PQ encrypt
    let nonce := makePqNonce c.pqEncryptNonce
    let frame := encodeFrame (L.pqEncrypt c.pqRekeyMaterial nonce noiseCiphertext)
    (some (.pq call),
      { st with connection := { c with pqEncryptNonce := c.pqEncryptNonce + 1 } }.setStage call
        (.framed frame))
  | .framed frame => (some (.writer call frame), st.setStage call (.returned (.ok ())))
  | .returned _ => (none, st)

def senderNext (msg : ι → MeshMessage) (op : SenderOp ι) (st : SenderState L ι) :
    Option (LockEvent ι) × SenderState L ι :=
  match op with
  | .advance call => sendStep msg call st
  | .receive incoming => (none, { st with connection := (st.connection.recvMessage incoming).2 })

/-- A call that is left to itself does what `sendMessage` does. -/
theorem sendStep_alone (msg : ι → MeshMessage) (call : ι) (st : SenderState L ι)
    (h : st.stage call = .called) :
    ((final (senderNext msg) [.advance call, .advance call, .advance call] st).connection =
        (st.connection.sendMessage (msg call)).2) ∧
      (trace (senderNext msg) [.advance call, .advance call, .advance call] st).filterMap
          (fun t => match t.output with
            | some (.writer _ frame) => some frame
            | _ => none) =
        ((st.connection.sendMessage (msg call)).1.toOption.map Prod.fst).toList := by
  cases hwrite : L.writeMessage (L.messageJson (msg call)) st.connection.transport with
  | error e =>
    simp [senderNext, sendStep, h, hwrite, MeshConnection.sendMessage, SenderState.setStage,
      Except.toOption]
  | ok out =>
    simp [senderNext, sendStep, h, hwrite, MeshConnection.sendMessage, SenderState.setStage,
      Except.toOption]

end Sender

/-! ### The orders of the locks -/

/-- The calls in the order in which they encrypted with Noise. -/
def noiseOrder (events : List (LockEvent ι)) : List ι :=
  events.filterMap fun
    | .noise call => some call
    | _ => none

/-- The calls in the order in which they encrypted for the PQ layer. -/
def pqOrder (events : List (LockEvent ι)) : List ι :=
  events.filterMap fun
    | .pq call => some call
    | _ => none

/-- What was written to the socket, and by which calls. -/
def wire (events : List (LockEvent ι)) : List (ι × List UInt8) :=
  events.filterMap fun
    | .writer call frame => some (call, frame)
    | _ => none

/-- The calls in the order in which they wrote their frames. -/
def writeOrder (events : List (LockEvent ι)) : List ι := (wire events).map Prod.fst

/-- The calls that have written have gone through the other two locks in the same order, and
before all that have not. -/
structure InOrder (events : List (LockEvent ι)) : Prop where
  noise : writeOrder events <+: noiseOrder events
  pq : writeOrder events <+: pqOrder events

section Orders

variable (events : List (LockEvent ι)) (call : ι) (frame : List UInt8)

@[simp] theorem noiseOrder_noise :
    noiseOrder (events ++ [.noise call]) = noiseOrder events ++ [call] := by simp [noiseOrder]

@[simp] theorem noiseOrder_pq : noiseOrder (events ++ [.pq call]) = noiseOrder events := by
  simp [noiseOrder]

@[simp] theorem noiseOrder_writer :
    noiseOrder (events ++ [.writer call frame]) = noiseOrder events := by simp [noiseOrder]

@[simp] theorem pqOrder_noise : pqOrder (events ++ [.noise call]) = pqOrder events := by
  simp [pqOrder]

@[simp] theorem pqOrder_pq : pqOrder (events ++ [.pq call]) = pqOrder events ++ [call] := by
  simp [pqOrder]

@[simp] theorem pqOrder_writer : pqOrder (events ++ [.writer call frame]) = pqOrder events := by
  simp [pqOrder]

@[simp] theorem wire_noise : wire (events ++ [.noise call]) = wire events := by simp [wire]

@[simp] theorem wire_pq : wire (events ++ [.pq call]) = wire events := by simp [wire]

@[simp] theorem wire_writer :
    wire (events ++ [.writer call frame]) = wire events ++ [(call, frame)] := by simp [wire]

@[simp] theorem writeOrder_noise : writeOrder (events ++ [.noise call]) = writeOrder events := by
  simp [writeOrder]

@[simp] theorem writeOrder_pq : writeOrder (events ++ [.pq call]) = writeOrder events := by
  simp [writeOrder]

@[simp] theorem writeOrder_writer :
    writeOrder (events ++ [.writer call frame]) = writeOrder events ++ [call] := by
  simp [writeOrder]

end Orders

/-! ### What the frames were encrypted as -/

namespace Channel

variable (ch : Channel L)

/-- The ciphertext of the n-th message. -/
def Encrypted (n : Nat) (plain cipher : List UInt8) : Prop :=
  ∃ s s', ch.Wrote n s ∧ L.writeMessage plain s = .ok (cipher, s')

/-- The frame was encrypted as the n-th message by Noise and as the k-th for the PQ layer. -/
def Framed (n k : Nat) (plain frame : List UInt8) : Prop :=
  ∃ cipher, ch.Encrypted n plain cipher ∧
    frame = encodeFrame (L.pqEncrypt ch.sender.pqRekeyMaterial (makePqNonce (UInt64.ofNat k)) cipher)

/-- The frame of a call, in the places that the call has in the two orders. -/
def Places (events : List (LockEvent ι)) (msg : ι → MeshMessage) (call : ι)
    (frame : List UInt8) : Prop :=
  ∃ n k, (noiseOrder events)[n]? = some call ∧ (pqOrder events)[k]? = some call ∧
    ch.Framed n k (L.messageJson (msg call)) frame

/-- Where a call stands, and the locks that it has gone through. -/
def Fits (events : List (LockEvent ι)) (msg : ι → MeshMessage) (call : ι) : SendStage → Prop
  | .called => call ∉ noiseOrder events ∧ call ∉ pqOrder events ∧ call ∉ writeOrder events
  | .noiseEncrypted cipher =>
    (∃ n, (noiseOrder events)[n]? = some call ∧ ch.Encrypted n (L.messageJson (msg call)) cipher) ∧
      call ∉ pqOrder events ∧ call ∉ writeOrder events
  | .framed frame => ch.Places events msg call frame ∧ call ∉ writeOrder events
  | .returned _ => True

/-- The counters of the connection are the lengths of the two orders, and every frame on the
wire has its places in them. -/
structure Counts (msg : ι → MeshMessage) (events : List (LockEvent ι)) (st : SenderState L ι) :
    Prop where
  key : st.connection.pqRekeyMaterial = ch.sender.pqRekeyMaterial
  wrote : ch.Wrote (noiseOrder events).length st.connection.transport
  counter : st.connection.pqEncryptNonce = UInt64.ofNat (pqOrder events).length
  calls : ∀ call, ch.Fits events msg call (st.stage call)
  frames : ∀ call frame, (call, frame) ∈ wire events → ch.Places events msg call frame
  noise_nodup : (noiseOrder events).Nodup
  noise_length : (noiseOrder events).length ≤ 2 ^ 64
  pq_nodup : (pqOrder events).Nodup
  pq_subset : pqOrder events ⊆ noiseOrder events
  write_nodup : (writeOrder events).Nodup

variable {ch} {events : List (LockEvent ι)} {msg : ι → MeshMessage}

theorem getElem?_append_of_some {α : Type} {l : List α} {n : Nat} {a : α} (h : l[n]? = some a)
    (l' : List α) : (l ++ l')[n]? = some a := by
  obtain ⟨hn, -⟩ := List.getElem?_eq_some_iff.mp h
  rw [List.getElem?_append_left hn, h]

theorem places_append {call : ι} {frame : List UInt8} (h : ch.Places events msg call frame)
    (event : LockEvent ι) : ch.Places (events ++ [event]) msg call frame := by
  obtain ⟨n, k, hnoise, hpq, hframed⟩ := h
  refine ⟨n, k, ?_, ?_, hframed⟩
  · rw [noiseOrder, List.filterMap_append]
    exact getElem?_append_of_some hnoise _
  · rw [pqOrder, List.filterMap_append]
    exact getElem?_append_of_some hpq _

theorem fits_append {call : ι} {stage : SendStage} (h : ch.Fits events msg call stage)
    {event : LockEvent ι} (hother : event.call ≠ call) :
    ch.Fits (events ++ [event]) msg call stage := by
  have hnoise : call ∉ noiseOrder events → call ∉ noiseOrder (events ++ [event]) := by
    cases event <;> simp_all [LockEvent.call, eq_comm]
  have hpq : call ∉ pqOrder events → call ∉ pqOrder (events ++ [event]) := by
    cases event <;> simp_all [LockEvent.call, eq_comm]
  have hwrite : call ∉ writeOrder events → call ∉ writeOrder (events ++ [event]) := by
    cases event <;> simp_all [LockEvent.call, eq_comm]
  cases stage with
  | called => exact ⟨hnoise h.1, hpq h.2.1, hwrite h.2.2⟩
  | noiseEncrypted cipher =>
    obtain ⟨⟨n, hn, hencrypted⟩, hunsealed, hunwritten⟩ := h
    refine ⟨⟨n, ?_, hencrypted⟩, hpq hunsealed, hwrite hunwritten⟩
    rw [noiseOrder, List.filterMap_append]
    exact getElem?_append_of_some hn _
  | framed frame => exact ⟨places_append h.1 event, hwrite h.2⟩
  | returned result => trivial

theorem wrote_recvMessage {n : Nat} {c : MeshConnection L} (h : ch.Wrote n c.transport)
    (incoming : List UInt8) : ch.Wrote n (c.recvMessage incoming).2.transport := by
  unfold MeshConnection.recvMessage
  split
  · exact h
  · dsimp only
    split
    · exact h
    · split
      · exact h
      · exact ch.wrote_of_read h ‹_›

theorem counts_recv {st : SenderState L ι} (h : ch.Counts msg events st) (incoming : List UInt8) :
    ch.Counts msg events { st with connection := (st.connection.recvMessage incoming).2 } := by
  obtain ⟨hkey, hcounter⟩ := st.connection.recvMessage_keeps incoming
  exact { h with
    key := hkey.trans h.key
    wrote := wrote_recvMessage h.wrote incoming
    counter := hcounter.trans h.counter }

/-! What each lock adds. -/

variable [DecidableEq ι] {st : SenderState L ι} {call : ι}

theorem calls_append (h : ∀ c, ch.Fits events msg c (st.stage c)) (event : LockEvent ι)
    {stage : SendStage} (hcall : ch.Fits (events ++ [event]) msg event.call stage) (c : ι) :
    ch.Fits (events ++ [event]) msg c (Function.update st.stage event.call stage c) := by
  by_cases hc : c = event.call
  · rw [hc, Function.update_self]
    exact hcall
  · rw [Function.update_of_ne hc]
    exact fits_append (h c) (Ne.symm hc)

theorem counts_noise (h : ch.Counts msg events st) {cipher : List UInt8} {transport : L.Transport}
    (hstage : st.stage call = .called)
    (hwrite : L.writeMessage (L.messageJson (msg call)) st.connection.transport =
      .ok (cipher, transport)) :
    ch.Counts msg (events ++ [.noise call])
      ({ st with connection := { st.connection with transport := transport } }.setStage call
        (.noiseEncrypted cipher)) := by
  obtain ⟨hunnoised, hunsealed, hunwritten⟩ : ch.Fits events msg call .called := hstage ▸ h.calls call
  have hfits : ch.Fits (events ++ [.noise call]) msg call (.noiseEncrypted cipher) := by
    refine ⟨⟨(noiseOrder events).length, ?_, _, _, h.wrote, hwrite⟩, ?_, ?_⟩
    · simp
    · simpa using hunsealed
    · simpa using hunwritten
  refine
    { key := h.key
      wrote := ?_
      counter := ?_
      calls := calls_append h.calls (.noise call) hfits
      frames := ?_
      noise_nodup := ?_
      noise_length := ?_
      pq_nodup := ?_
      pq_subset := ?_
      write_nodup := ?_ }
  · simpa using ch.wrote_succ h.wrote hwrite
  · simpa using h.counter
  · intro c frame hmem
    exact places_append (h.frames c frame (by simpa using hmem)) _
  · simpa [List.nodup_append] using ⟨h.noise_nodup, fun a ha hac => hunnoised (hac ▸ ha)⟩
  · rw [noiseOrder_noise, List.length_append]
    exact ch.nonce_lt h.wrote hwrite
  · simpa using h.pq_nodup
  · rw [pqOrder_noise, noiseOrder_noise]
    exact List.subset_append_of_subset_left _ h.pq_subset
  · simpa using h.write_nodup

theorem counts_pq (h : ch.Counts msg events st) {cipher : List UInt8}
    (hstage : st.stage call = .noiseEncrypted cipher) :
    ch.Counts msg (events ++ [.pq call])
      ({ st with
          connection := { st.connection with
            pqEncryptNonce := st.connection.pqEncryptNonce + 1 } }.setStage call
        (.framed (encodeFrame (L.pqEncrypt st.connection.pqRekeyMaterial
          (makePqNonce st.connection.pqEncryptNonce) cipher)))) := by
  obtain ⟨⟨n, hn, hencrypted⟩, hunsealed, hunwritten⟩ :
    ch.Fits events msg call (.noiseEncrypted cipher) := hstage ▸ h.calls call
  have hfits : ch.Fits (events ++ [.pq call]) msg call
      (.framed (encodeFrame (L.pqEncrypt st.connection.pqRekeyMaterial
        (makePqNonce st.connection.pqEncryptNonce) cipher))) := by
    refine ⟨⟨n, (pqOrder events).length, ?_, ?_, cipher, hencrypted, ?_⟩, ?_⟩
    · simpa using hn
    · simp
    · rw [h.key, h.counter]
    · simpa using hunwritten
  refine
    { key := h.key
      wrote := ?_
      counter := ?_
      calls := calls_append h.calls (.pq call) hfits
      frames := ?_
      noise_nodup := ?_
      noise_length := ?_
      pq_nodup := ?_
      pq_subset := ?_
      write_nodup := ?_ }
  · simpa using h.wrote
  · rw [pqOrder_pq, List.length_append, UInt64.ofNat_add, ← h.counter]
    rfl
  · intro c frame hmem
    exact places_append (h.frames c frame (by simpa using hmem)) _
  · simpa using h.noise_nodup
  · simpa using h.noise_length
  · simpa [List.nodup_append] using ⟨h.pq_nodup, fun a ha hac => hunsealed (hac ▸ ha)⟩
  · simpa using ⟨h.pq_subset, List.mem_of_getElem? hn⟩
  · simpa using h.write_nodup

theorem counts_writer (h : ch.Counts msg events st) {frame : List UInt8}
    (hstage : st.stage call = .framed frame) :
    ch.Counts msg (events ++ [.writer call frame]) (st.setStage call (.returned (.ok ()))) := by
  obtain ⟨hplaces, hunwritten⟩ : ch.Fits events msg call (.framed frame) := hstage ▸ h.calls call
  refine
    { key := h.key
      wrote := ?_
      counter := ?_
      calls := calls_append h.calls (.writer call frame) trivial
      frames := ?_
      noise_nodup := ?_
      noise_length := ?_
      pq_nodup := ?_
      pq_subset := ?_
      write_nodup := ?_ }
  · simpa using h.wrote
  · simpa using h.counter
  · intro c frame' hmem
    refine places_append ?_ _
    obtain hold | hnew := List.mem_append.mp (wire_writer events call frame ▸ hmem)
    · exact h.frames c frame' hold
    · obtain ⟨rfl, rfl⟩ := Prod.mk.inj (List.mem_singleton.mp hnew)
      exact hplaces
  · simpa using h.noise_nodup
  · simpa using h.noise_length
  · simpa using h.pq_nodup
  · simpa using h.pq_subset
  · simpa [List.nodup_append] using
      ⟨h.write_nodup, fun a ha hac => hunwritten (hac ▸ ha)⟩

theorem counts_of_failed (h : ch.Counts msg events st) (call : ι) (result : Except String Unit) :
    ch.Counts msg events (st.setStage call (.returned result)) := by
  refine { h with calls := fun c => ?_ }
  by_cases hc : c = call
  · rw [setStage_stage, hc, Function.update_self]
    trivial
  · rw [setStage_stage, Function.update_of_ne hc]
    exact h.calls c

theorem counts_step (h : ch.Counts msg events st) (op : SenderOp ι) :
    ch.Counts msg (events ++ (senderNext msg op st).1.toList) (senderNext msg op st).2 := by
  cases op with
  | receive incoming =>
    rw [senderNext, Option.toList_none, List.append_nil]
    exact counts_recv h incoming
  | advance call =>
    rw [senderNext, sendStep]
    cases hstage : st.stage call with
    | called =>
      cases hwrite : L.writeMessage (L.messageJson (msg call)) st.connection.transport with
      | error e =>
        rw [Option.toList_none, List.append_nil]
        exact counts_of_failed h call _
      | ok out => exact counts_noise h hstage hwrite
    | noiseEncrypted cipher => exact counts_pq h hstage
    | framed frame => exact counts_writer h hstage
    | returned result =>
      rw [Option.toList_none, List.append_nil]
      exact h

/-- The calls on the new connection, in the order of their steps. -/
def sendEvents (ch : Channel L) (msg : ι → MeshMessage) (schedule : List (SenderOp ι)) :
    List (LockEvent ι) :=
  (trace (senderNext msg) schedule ⟨ch.sender, fun _ => .called⟩).filterMap Step.output

omit [DecidableEq ι] in
theorem counts_start (ch : Channel L) (msg : ι → MeshMessage) :
    ch.Counts msg [] ⟨ch.sender, fun _ => .called⟩ where
  key := rfl
  wrote := ch.wrote_zero
  counter := ch.sender_new
  calls _ := ⟨List.not_mem_nil, List.not_mem_nil, List.not_mem_nil⟩
  frames _ _ h := absurd h List.not_mem_nil
  noise_nodup := List.nodup_nil
  noise_length := Nat.zero_le _
  pq_nodup := List.nodup_nil
  pq_subset := List.nil_subset _
  write_nodup := List.nodup_nil

theorem counts_run (ch : Channel L) (msg : ι → MeshMessage) (schedule : List (SenderOp ι)) :
    ch.Counts msg (ch.sendEvents msg schedule)
      (final (senderNext msg) schedule ⟨ch.sender, fun _ => .called⟩) := by
  refine history_invariant
    (R := fun (h : List (Step _ (SenderOp ι) _)) st => ch.Counts msg (h.filterMap Step.output) st)
    (fun op h st hcounts => ?_) schedule (h := []) (counts_start ch msg)
  rw [List.filterMap_append]
  have hstep := counts_step hcounts op
  cases hout : (senderNext msg op st).1 with
  | none => simpa [hout] using hstep
  | some event => simpa [hout] using hstep

end Channel

/-! ### The receiver -/

/-- The peer reads the next frame, or sends a message itself. -/
inductive PeerCall where
  | recv
  | send (msg : MeshMessage)

def PeerCall.isRecv : PeerCall → Bool
  | .recv => true
  | .send _ => false

/-- What the peer's calls of `recv_message` return, for the frames that arrive. One that finds
no frame waits. -/
def received : List PeerCall → List (List UInt8) → MeshConnection L →
    List (Except String MeshMessage)
  | [], _, _ => []
  | .send msg :: calls, frames, c => received calls frames (c.sendMessage msg).2
  | .recv :: calls, [], c => received calls [] c
  | .recv :: calls, frame :: frames, c =>
    let out := c.recvMessage frame
    out.1 :: received calls frames out.2

/-- The message is read back from its JSON. -/
def Readable (L : MeshLibs) (msg : MeshMessage) : Prop :=
  L.parseMessage (L.messageJson msg) = .ok msg

namespace Channel

variable (ch : Channel L)

/-- Every frame that the peer reads is one message, as it was sent, and in the order of the
writes. -/
def Delivers (msg : ι → MeshMessage) (events : List (LockEvent ι)) : Prop :=
  ∀ calls : List PeerCall, received calls ((wire events).map Prod.snd) ch.receiver =
    ((writeOrder events).take (calls.countP (·.isRecv))).map fun call => .ok (msg call)

/-- The receiver has decrypted so many frames. -/
structure Reads (n : Nat) (c : MeshConnection L) : Prop where
  key : c.pqRekeyMaterial = ch.sender.pqRekeyMaterial
  counter : c.pqDecryptNonce = UInt64.ofNat n
  read : ch.Read n c.transport

variable {ch}

theorem reads_send {n : Nat} {c : MeshConnection L} (h : ch.Reads n c) (msg : MeshMessage) :
    ch.Reads n (c.sendMessage msg).2 := by
  unfold MeshConnection.sendMessage
  split
  · exact h
  · exact ⟨h.key, h.counter, ch.read_of_wrote h.read ‹_›⟩

/-- A frame that is short enough arrives as it was sent. -/
theorem recvFrame_encodeFrame (payload : List UInt8) (h : payload.length ≤ maxMessageSize) :
    ((recvFrame fun payload => .done (.ok payload)).run (encodeFrame payload)).result =
      .ok payload := by
  have hlen : payload.length < 256 ^ 4 := by
    unfold maxMessageSize at h
    omega
  have hlong : ¬ (encodeFrame payload).length < 4 := by
    rw [encodeFrame, List.length_append, length_bigEndian]
    omega
  have hheader : (encodeFrame payload).take 4 = bigEndian 4 payload.length := by
    rw [encodeFrame, List.take_left' (length_bigEndian ..)]
  have hrest : (encodeFrame payload).drop 4 = payload := by
    rw [encodeFrame, List.drop_left' (length_bigEndian ..)]
  have hvalue : decodeFrameLength (bigEndian 4 payload.length) = payload.length := by
    rw [decodeFrameLength, bigValue_bigEndian, Nat.mod_eq_of_lt hlen]
  rw [recvFrame, Party.run, if_neg hlong, hheader, hrest, hvalue, if_neg (not_lt.mpr h), Party.run,
    if_neg (lt_irrefl _), List.take_length, Party.run_done]

/-- What the receiver does with a frame of the channel. -/
theorem recvMessage_frame {n k m : Nat} {c : MeshConnection L} {plain cipher : List UInt8}
    (h : ch.Reads m c) (hcipher : ch.Encrypted n plain cipher) :
    c.recvMessage (encodeFrame (L.pqEncrypt ch.sender.pqRekeyMaterial
        (makePqNonce (UInt64.ofNat k)) cipher)) =
      let c' := { c with pqDecryptNonce := UInt64.ofNat (m + 1) }
      match L.pqDecrypt ch.sender.pqRekeyMaterial (makePqNonce (UInt64.ofNat m))
        (L.pqEncrypt ch.sender.pqRekeyMaterial (makePqNonce (UInt64.ofNat k)) cipher) with
      | .error e => (.error ("PQ decrypt failed: " ++ e), c')
      | .ok noiseCiphertext =>
        match L.readMessage noiseCiphertext c.transport with
        | .error e => (.error e, c')
        | .ok (decrypted, transport) =>
          (L.parseMessage decrypted, { c' with transport := transport }) := by
  obtain ⟨s, s', -, hwrite⟩ := hcipher
  have hsize := ch.message_size hwrite
  have hframe := recvFrame_encodeFrame (L.pqEncrypt ch.sender.pqRekeyMaterial
    (makePqNonce (UInt64.ofNat k)) cipher) (by
      rw [ch.pq_size (length_makePqNonce _), maxMessageSize]
      omega)
  have hcounter : c.pqDecryptNonce + 1 = UInt64.ofNat (m + 1) := by
    rw [h.counter, UInt64.ofNat_add]
    rfl
  rw [MeshConnection.recvMessage, hframe]
  dsimp only
  rw [h.key, hcounter]
  exact h.counter ▸ rfl

/-- A frame in its place is decrypted, and the next one expected. -/
theorem recv_in_place {n : Nat} {c : MeshConnection L} {plain frame : List UInt8}
    (h : ch.Reads n c) (hframed : ch.Framed n n plain frame) :
    (c.recvMessage frame).1 = L.parseMessage plain ∧ ch.Reads (n + 1) (c.recvMessage frame).2 := by
  obtain ⟨cipher, hcipher, rfl⟩ := hframed
  obtain ⟨s, s', hwrote, hwrite⟩ := id hcipher
  obtain ⟨r', hread, hreads⟩ := ch.delivered hwrote hwrite h.read
  rw [recvMessage_frame h hcipher, ch.pq_delivered (length_makePqNonce _)]
  dsimp only
  rw [hread]
  exact ⟨rfl, h.key, rfl, hreads⟩

/-- A frame out of its place is not decrypted. -/
theorem recv_misplaced {n k m : Nat} {c : MeshConnection L} {plain frame : List UInt8}
    (h : ch.Reads m c) (hframed : ch.Framed n k plain frame) (hk : k < 2 ^ 64) (hm : m < 2 ^ 64)
    (hplace : ¬ (n = m ∧ k = m)) : ∃ e, (c.recvMessage frame).1 = .error e := by
  obtain ⟨cipher, hcipher, rfl⟩ := hframed
  rw [recvMessage_frame h hcipher]
  by_cases hkm : k = m
  · subst hkm
    obtain ⟨s, s', hwrote, hwrite⟩ := hcipher
    obtain ⟨e, hread⟩ := ch.misplaced hwrote hwrite h.read fun hn => hplace ⟨hn.symm, rfl⟩
    rw [ch.pq_delivered (length_makePqNonce _)]
    dsimp only
    rw [hread]
    exact ⟨e, rfl⟩
  · have hnonce : makePqNonce (UInt64.ofNat m) ≠ makePqNonce (UInt64.ofNat k) := by
      intro heq
      have hsame := congrArg UInt64.toNat (makePqNonce_injective heq)
      rw [UInt64.toNat_ofNat_of_lt' hm, UInt64.toNat_ofNat_of_lt' hk] at hsame
      exact hkm hsame.symm
    obtain ⟨e, hdecrypt⟩ : ∃ e, L.pqDecrypt ch.sender.pqRekeyMaterial
        (makePqNonce (UInt64.ofNat m)) (L.pqEncrypt ch.sender.pqRekeyMaterial
          (makePqNonce (UInt64.ofNat k)) cipher) = .error e :=
      ch.pq_misplaced (length_makePqNonce _) (length_makePqNonce _) hnonce
    rw [hdecrypt]
    exact ⟨_, rfl⟩

/-- Frames that come in their places are all read. -/
theorem received_in_place {msg : ι → MeshMessage} (calls : List PeerCall)
    {frames : List (ι × List UInt8)} {n : Nat} {c : MeshConnection L} (h : ch.Reads n c)
    (hplace : ∀ (j : Nat) entry, frames[j]? = some entry →
      ch.Framed (n + j) (n + j) (L.messageJson (msg entry.1)) entry.2 ∧ Readable L (msg entry.1)) :
    received calls (frames.map Prod.snd) c =
      ((frames.map Prod.fst).take (calls.countP (·.isRecv))).map fun call => .ok (msg call) := by
  induction calls generalizing frames n c with
  | nil => rfl
  | cons call calls ih =>
    cases call with
    | send msg' => exact ih (reads_send h msg') hplace
    | recv =>
      cases frames with
      | nil => simpa [received] using ih h hplace
      | cons entry frames =>
        obtain ⟨hframed, hreadable⟩ := hplace 0 entry rfl
        obtain ⟨hresult, hreads⟩ := recv_in_place h hframed
        have hrest := ih hreads fun j entry' hj => by
          have hnext := hplace (j + 1) entry' hj
          rwa [← Nat.add_assoc, Nat.add_right_comm] at hnext
        rw [List.map_cons, received, hresult, hrest, hreadable]
        simp [PeerCall.isRecv]

/-- If all frames are read as they were sent, each has come in its place. -/
theorem in_place_of_received {msg : ι → MeshMessage} {frames : List (ι × List UInt8)} {n : Nat}
    {c : MeshConnection L} (h : ch.Reads n c) (hlength : n + frames.length ≤ 2 ^ 64)
    (hframed : ∀ entry ∈ frames, ∃ n' k, k < 2 ^ 64 ∧
      ch.Framed n' k (L.messageJson (msg entry.1)) entry.2)
    (hall : received (List.replicate frames.length .recv) (frames.map Prod.snd) c =
      frames.map fun entry => .ok (msg entry.1))
    {j : Nat} {entry : ι × List UInt8} (hj : frames[j]? = some entry) :
    Readable L (msg entry.1) ∧ ∀ n' k, k < 2 ^ 64 →
      ch.Framed n' k (L.messageJson (msg entry.1)) entry.2 → n' = n + j ∧ k = n + j := by
  induction frames generalizing n c j with
  | nil => cases hj
  | cons first frames ih =>
    rw [List.length_cons] at hlength
    obtain ⟨hresult, hrest⟩ := List.cons.inj hall
    have hfirst : ∀ n' k, k < 2 ^ 64 →
        ch.Framed n' k (L.messageJson (msg first.1)) first.2 → n' = n ∧ k = n := by
      intro n' k hk hframe
      by_contra hplace
      obtain ⟨e, herror⟩ := recv_misplaced h hframe hk (by omega) hplace
      rw [herror] at hresult
      cases hresult
    obtain ⟨n', k, hk, hframe⟩ := hframed first List.mem_cons_self
    obtain ⟨rfl, rfl⟩ := hfirst n' k hk hframe
    obtain ⟨hparse, hreads⟩ := recv_in_place h hframe
    cases j with
    | zero =>
      obtain rfl := Option.some.inj hj
      exact ⟨hparse.symm.trans hresult, hfirst⟩
    | succ j =>
      have hnext := ih hreads (by omega)
        (fun entry hmem => hframed entry (List.mem_cons_of_mem _ hmem))
        hrest hj
      rwa [Nat.add_right_comm, Nat.add_assoc] at hnext

/-! ### The orders decide -/

variable {events : List (LockEvent ι)} {msg : ι → MeshMessage} {st : SenderState L ι}

theorem wire_length_le (h : ch.Counts msg events st) : (wire events).length ≤ 2 ^ 64 := by
  have hsubset : writeOrder events ⊆ noiseOrder events := by
    intro call hcall
    obtain ⟨entry, hentry, rfl⟩ := List.mem_map.mp hcall
    obtain ⟨n, -, hn, -⟩ := h.frames entry.1 entry.2 hentry
    exact List.mem_of_getElem? hn
  have hle := (h.write_nodup.subperm hsubset).length_le
  rw [writeOrder, List.length_map] at hle
  exact hle.trans h.noise_length

/-- The frame of a call that has written, with its places. -/
theorem places_of_wire (h : ch.Counts msg events st) {j : Nat} {entry : ι × List UInt8}
    (hj : (wire events)[j]? = some entry) :
    ∃ n k, (noiseOrder events)[n]? = some entry.1 ∧ (pqOrder events)[k]? = some entry.1 ∧
      k < 2 ^ 64 ∧ ch.Framed n k (L.messageJson (msg entry.1)) entry.2 := by
  obtain ⟨n, k, hn, hk, hframed⟩ := h.frames entry.1 entry.2 (List.mem_of_getElem? hj)
  obtain ⟨hlt, -⟩ := List.getElem?_eq_some_iff.mp hk
  have hle := (h.pq_nodup.subperm h.pq_subset).length_le.trans h.noise_length
  exact ⟨n, k, hn, hk, by omega, hframed⟩

theorem delivers_of_inOrder (h : ch.Counts msg events st) (horder : InOrder events)
    (hreadable : ∀ call ∈ writeOrder events, Readable L (msg call)) : ch.Delivers msg events := by
  intro calls
  have hstart : ch.Reads 0 ch.receiver := ⟨ch.same_key, ch.receiver_new, ch.read_zero⟩
  refine received_in_place calls hstart ?_
  intro j entry hj
  have hwritten : (writeOrder events)[j]? = some entry.1 := by
    rw [writeOrder, List.getElem?_map, hj, Option.map_some]
  refine ⟨?_, hreadable _ (List.mem_of_getElem? hwritten)⟩
  obtain ⟨n, k, hn, hk, -, hframed⟩ := places_of_wire h hj
  -- A call is only once in each order, so its places there are its place on the wire.
  have hplace : ∀ order : List ι, order.Nodup → writeOrder events <+: order → ∀ m : Nat,
      order[m]? = some entry.1 → m = j := by
    intro order hnodup hprefix m hm
    obtain ⟨rest, rfl⟩ := hprefix
    obtain ⟨hlt, -⟩ := List.getElem?_eq_some_iff.mp hm
    exact (List.getElem?_inj hlt hnodup).mp (hm.trans (getElem?_append_of_some hwritten rest).symm)
  obtain rfl := hplace _ h.noise_nodup horder.noise n hn
  obtain rfl := hplace _ h.pq_nodup horder.pq k hk
  rwa [Nat.zero_add]

theorem inOrder_of_delivers (h : ch.Counts msg events st) (hdelivers : ch.Delivers msg events) :
    InOrder events ∧ ∀ call ∈ writeOrder events, Readable L (msg call) := by
  have hstart : ch.Reads 0 ch.receiver := ⟨ch.same_key, ch.receiver_new, ch.read_zero⟩
  have hall : received (List.replicate (wire events).length .recv) ((wire events).map Prod.snd)
      ch.receiver = (wire events).map fun entry => .ok (msg entry.1) := by
    rw [hdelivers, List.countP_replicate, PeerCall.isRecv, if_pos rfl, writeOrder,
      List.take_of_length_le (by rw [List.length_map]), List.map_map]
    rfl
  have hplace := fun {j : Nat} {entry : ι × List UInt8} (hj : (wire events)[j]? = some entry) =>
    in_place_of_received hstart (by rw [Nat.zero_add]; exact wire_length_le h)
      (fun entry hmem => by
        obtain ⟨j, hj⟩ := List.mem_iff_getElem?.mp hmem
        obtain ⟨n, k, -, -, hk, hframed⟩ := places_of_wire h hj
        exact ⟨n, k, hk, hframed⟩) hall hj
  have hwritten : ∀ {j : Nat} {call : ι}, (writeOrder events)[j]? = some call →
      Readable L (msg call) ∧ (noiseOrder events)[j]? = some call ∧
        (pqOrder events)[j]? = some call := by
    intro j call hcall
    rw [writeOrder, List.getElem?_map] at hcall
    obtain ⟨entry, hj, rfl⟩ := Option.map_eq_some_iff.mp hcall
    obtain ⟨hreadable, hunique⟩ := hplace hj
    obtain ⟨n, k, hn, hk, hlt, hframed⟩ := places_of_wire h hj
    obtain ⟨rfl, rfl⟩ := hunique n k hlt hframed
    rw [Nat.zero_add] at hn hk
    exact ⟨hreadable, hn, hk⟩
  refine ⟨⟨?_, ?_⟩, fun call hcall => ?_⟩
  · exact List.prefix_iff_getElem?.mpr fun j hj => (hwritten (List.getElem?_eq_getElem hj)).2.1
  · exact List.prefix_iff_getElem?.mpr fun j hj => (hwritten (List.getElem?_eq_getElem hj)).2.2
  · obtain ⟨j, hj⟩ := List.mem_iff_getElem?.mp hcall
    exact (hwritten hj).1

theorem concurrent_sends_iff [DecidableEq ι] (ch : Channel L) (msg : ι → MeshMessage)
    (schedule : List (SenderOp ι)) :
    ch.Delivers msg (ch.sendEvents msg schedule) ↔
      InOrder (ch.sendEvents msg schedule) ∧
        ∀ call ∈ writeOrder (ch.sendEvents msg schedule), Readable L (msg call) := by
  have h := counts_run ch msg schedule
  exact ⟨inOrder_of_delivers h, fun ⟨horder, hreadable⟩ => delivers_of_inOrder h horder hreadable⟩

end Channel

/-! ### Two calls that cross

Libraries whose ciphertexts show the nonce in place of hiding the plaintext. -/

structure CountingTransport where
  sent : Nat
  received : Nat

def countingWrite (plain : List UInt8) (t : CountingTransport) :
    Except String (List UInt8 × CountingTransport) :=
  if t.sent < 2 ^ 64 - 1 ∧ plain.length + 16 ≤ 65535 then
    .ok (littleEndian 16 t.sent ++ plain, { t with sent := t.sent + 1 })
  else .error "state error"

def countingRead (cipher : List UInt8) (t : CountingTransport) :
    Except String (List UInt8 × CountingTransport) :=
  if cipher.take 16 = littleEndian 16 t.received then
    .ok (cipher.drop 16, { t with received := t.received + 1 })
  else .error "decrypt error"

/-- Only a `Heartbeat` is read back. -/
def plainParseHeartbeat (bytes : List UInt8) : Except String MeshMessage :=
  let middle := (bytes.drop 33).dropLast.dropLast
  let timestamp := String.ofList (middle.map fun b => Char.ofNat b.toNat)
  if plainMessageJson (.heartbeat timestamp) = bytes then .ok (.heartbeat timestamp)
  else .error "invalid message"

def countingLibs : MeshLibs :=
  { plainLibs [] with
    Transport := CountingTransport
    intoTransportMode := fun _ => .ok ⟨0, 0⟩
    remoteStatic := fun _ => none
    writeMessage := countingWrite
    readMessage := countingRead
    pqEncrypt := fun _ nonce plain => nonce ++ (List.replicate 4 0 ++ plain)
    pqDecrypt := fun _ nonce cipher =>
      if cipher.take 12 = nonce then .ok (cipher.drop 16) else .error "aead::Error"
    parseMessage := plainParseHeartbeat }

theorem countingWrite_ok {plain cipher : List UInt8} {t t' : CountingTransport}
    (h : countingWrite plain t = .ok (cipher, t')) :
    (t.sent < 2 ^ 64 - 1 ∧ plain.length + 16 ≤ 65535) ∧
      cipher = littleEndian 16 t.sent ++ plain ∧ t' = { t with sent := t.sent + 1 } := by
  unfold countingWrite at h
  split at h
  · obtain ⟨rfl, rfl⟩ := Prod.mk.inj (Except.ok.inj h)
    exact ⟨‹_›, rfl, rfl⟩
  · cases h

theorem countingRead_ok {cipher plain : List UInt8} {t t' : CountingTransport}
    (h : countingRead cipher t = .ok (plain, t')) : t' = { t with received := t.received + 1 } := by
  unfold countingRead at h
  split at h
  · exact (Prod.mk.inj (Except.ok.inj h)).2.symm
  · cases h

theorem countingRead_sealed (n : Nat) (plain : List UInt8) (t : CountingTransport) :
    countingRead (littleEndian 16 n ++ plain) t =
      if littleEndian 16 n = littleEndian 16 t.received then
        .ok (plain, { t with received := t.received + 1 })
      else .error "decrypt error" := by
  rw [countingRead, List.take_left' (length_littleEndian ..),
    List.drop_left' (length_littleEndian ..)]

def countingChannel : Channel countingLibs where
  sender := .new "b" ⟨0, 0⟩ (plainKey 1)
  receiver := .new "a" ⟨0, 0⟩ (plainKey 1)
  sender_new := rfl
  receiver_new := rfl
  same_key := rfl
  Wrote n t := t.sent = n
  Read n t := t.received = n ∧ n < 2 ^ 64
  wrote_zero := rfl
  read_zero := ⟨rfl, by decide⟩
  wrote_succ := by
    rintro n t plain cipher t' rfl h
    obtain ⟨-, -, rfl⟩ := countingWrite_ok h
    rfl
  wrote_of_read := by
    rintro n t cipher plain t' rfl h
    obtain rfl := countingRead_ok h
    rfl
  read_of_wrote := by
    rintro n t plain cipher t' hread h
    obtain ⟨-, -, rfl⟩ := countingWrite_ok h
    exact hread
  nonce_lt := by
    rintro n t plain cipher t' rfl h
    obtain ⟨⟨hlt, -⟩, -⟩ := countingWrite_ok h
    omega
  message_size := by
    intro t plain cipher t' h
    obtain ⟨⟨-, hsize⟩, rfl, -⟩ := countingWrite_ok h
    rw [List.length_append, length_littleEndian]
    omega
  delivered := by
    rintro n s plain cipher s' r rfl h ⟨hn, -⟩
    obtain ⟨⟨hlt, -⟩, rfl, -⟩ := countingWrite_ok h
    refine ⟨{ r with received := r.received + 1 }, ?_, by rw [hn], by omega⟩
    exact (countingRead_sealed _ _ r).trans (if_pos (by rw [hn]))
  misplaced := by
    rintro n m s plain cipher s' r rfl h ⟨rfl, hm⟩ hne
    obtain ⟨⟨hlt, -⟩, rfl, -⟩ := countingWrite_ok h
    refine ⟨"decrypt error", (countingRead_sealed _ _ r).trans (if_neg ?_)⟩
    rw [littleEndian_eq_iff]
    omega
  pq_size := by
    intro key nonce plain hnonce
    change (nonce ++ (List.replicate 4 0 ++ plain)).length = _
    rw [List.length_append, List.length_append, List.length_replicate, hnonce]
    omega
  pq_delivered := by
    intro key nonce plain hnonce
    change (if (nonce ++ (List.replicate 4 0 ++ plain)).take 12 = nonce then
      Except.ok ((nonce ++ (List.replicate 4 0 ++ plain)).drop 16) else .error "aead::Error") = _
    rw [List.take_left' hnonce, if_pos rfl, ← List.append_assoc, List.drop_left' (by simp [hnonce])]
  pq_misplaced := by
    intro key nonce nonce' plain hnonce hnonce' hne
    refine ⟨"aead::Error", ?_⟩
    change (if (nonce ++ (List.replicate 4 0 ++ plain)).take 12 = nonce' then
      Except.ok ((nonce ++ (List.replicate 4 0 ++ plain)).drop 16) else .error "aead::Error") = _
    rw [List.take_left' hnonce, if_neg (Ne.symm hne)]

/-- Two heartbeats. The second call overtakes the first after the Noise layer. -/
def heartbeats (_ : Nat) : MeshMessage := .heartbeat "2026-01-01T00:00:00Z"

def overtaken : List (SenderOp Nat) :=
  [.advance 0, .advance 1, .advance 1, .advance 1, .advance 0, .advance 0]

/-- The peer cannot decrypt the frame that comes first. -/
theorem overtaken_not_delivered : ¬ ∀ (ch : Channel countingLibs) (msg : Nat → MeshMessage)
    (schedule : List (SenderOp Nat)), ch.Delivers msg (ch.sendEvents msg schedule) := by
  intro h
  have hfirst := congrArg (List.map (·.isOk)) (h countingChannel heartbeats overtaken [.recv])
  have hlost : (received [.recv]
      ((wire (countingChannel.sendEvents heartbeats overtaken)).map Prod.snd)
      countingChannel.receiver).map (·.isOk) = [false] := by decide +kernel
  have hwritten : (writeOrder (countingChannel.sendEvents heartbeats overtaken)) = [1, 0] := by
    decide +kernel
  rw [hlost, hwritten] at hfirst
  cases hfirst

end OsModa.Mesh
