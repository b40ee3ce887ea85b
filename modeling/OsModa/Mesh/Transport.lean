import Mathlib.Data.List.Nodup
import Mathlib.Data.List.Range
import OsModa.Base.Machine
import OsModa.Mesh.PlainLibs

/-!
Connections after the handshake, and the nonces of their post-quantum layer.

Each endpoint encrypts twice: with Noise, then with ChaCha20-Poly1305 under the
hybrid key and a nonce made of its own send counter. Both endpoints have the same
key, and both counters start at zero. So no pair of key and nonce is used twice in a
run exactly when one endpoint's messages never reach this layer (and no counter
wraps, `nonces_unique_iff`).
-/

namespace OsModa.Mesh

open OsModa.Encoding OsModa.Session

/-! ### Connections -/

/-- A 96-bit nonce: the counter in little endian, then four zero bytes. -/
def makePqNonce (counter : UInt64) : List UInt8 :=
  littleEndian 8 counter.toNat ++ List.replicate 4 0

theorem makePqNonce_injective : Function.Injective makePqNonce := by
  intro c d h
  have hbytes := List.append_cancel_right h
  rw [littleEndian_eq_iff] at hbytes
  have hc := c.toNat_lt
  have hd := d.toNat_lt
  refine UInt64.toNat_inj.mp ?_
  omega

variable (L : MeshLibs)

/-- An active encrypted connection to a peer. -/
structure MeshConnection where
  peerId : String
  transport : L.Transport
  pqRekeyMaterial : Bytes32
  /-- Counter-based nonce for PQ encryption (send direction). -/
  pqEncryptNonce : UInt64
  /-- Counter-based nonce for PQ decryption (recv direction). -/
  pqDecryptNonce : UInt64

/-- What the PQ layer encrypted a frame with. -/
structure PqUse where
  key : Bytes32
  nonce : List UInt8
  deriving DecidableEq

variable {L}

namespace MeshConnection

/-- A connection from a completed handshake. -/
def new (peerId : String) (transport : L.Transport) (pqRekeyMaterial : Bytes32) :
    MeshConnection L :=
  ⟨peerId, transport, pqRekeyMaterial, 0, 0⟩

/-- Send a message. Returns the frame that is written to the socket, with the use of
the PQ layer behind it. -/
def sendMessage (c : MeshConnection L) (msg : MeshMessage) :
    Except String (List UInt8 × PqUse) × MeshConnection L :=
  match L.writeMessage (L.messageJson msg) c.transport with
  | .error e => (.error e, c)
  | .ok (noiseCiphertext, transport) =>
    let nonce := makePqNonce c.pqEncryptNonce
    (.ok (encodeFrame (L.pqEncrypt c.pqRekeyMaterial nonce noiseCiphertext),
        ⟨c.pqRekeyMaterial, nonce⟩),
      { c with transport := transport, pqEncryptNonce := c.pqEncryptNonce + 1 })

/-- Receive a message from the bytes that arrive. The counter advances with every
frame, also with one that does not decrypt. -/
def recvMessage (c : MeshConnection L) (incoming : List UInt8) :
    Except String MeshMessage × MeshConnection L :=
  match ((recvFrame fun payload => .done (.ok payload)).run incoming).result with
  | .error e => (.error e, c)
  | .ok payload =>
    let nonce := makePqNonce c.pqDecryptNonce
    let c := { c with pqDecryptNonce := c.pqDecryptNonce + 1 }
    match L.pqDecrypt c.pqRekeyMaterial nonce payload with
    | .error e => (.error ("PQ decrypt failed: " ++ e), c)
    | .ok noiseCiphertext =>
      match L.readMessage noiseCiphertext c.transport with
      | .error e => (.error e, c)
      | .ok (decrypted, transport) =>
        (L.parseMessage decrypted, { c with transport := transport })

/-- Receiving touches neither the key nor the send counter. -/
theorem recvMessage_keeps (c : MeshConnection L) (incoming : List UInt8) :
    (c.recvMessage incoming).2.pqRekeyMaterial = c.pqRekeyMaterial ∧
      (c.recvMessage incoming).2.pqEncryptNonce = c.pqEncryptNonce := by
  unfold recvMessage
  split
  · exact ⟨rfl, rfl⟩
  · dsimp only
    split
    · exact ⟨rfl, rfl⟩
    · split <;> exact ⟨rfl, rfl⟩

end MeshConnection

/-! ### Runs of the two endpoints -/

inductive Side where
  | initiator
  | responder
  deriving DecidableEq, Repr

inductive Call where
  | send (msg : MeshMessage)
  | recv (incoming : List UInt8)

abbrev Endpoints (L : MeshLibs) := Side → MeshConnection L

abbrev ConnectionStep (L : MeshLibs) := Machine.Step (Endpoints L) (Side × Call) (Option PqUse)

/-- One call of one endpoint, with its use of the PQ encryption. -/
def connectionNext (call : Side × Call) (e : Endpoints L) : Option PqUse × Endpoints L :=
  match call with
  | (side, .send msg) =>
    let (result, c) := (e side).sendMessage msg
    (result.toOption.map Prod.snd, Function.update e side c)
  | (side, .recv incoming) =>
    (none, Function.update e side ((e side).recvMessage incoming).2)

/-- The uses of the PQ encryption in a run. -/
def encryptions (run : List (ConnectionStep L)) : List PqUse := run.filterMap Machine.Step.output

/-- The step is a send of the side whose message passes the Noise layer. -/
def passes (side : Side) (t : ConnectionStep L) : Bool :=
  match t.input with
  | (s, .send msg) =>
    s = side && (L.writeMessage (L.messageJson msg) (t.before s).transport).isOk
  | _ => false

/-- How many messages of a side pass the Noise layer. -/
def passed (side : Side) (run : List (ConnectionStep L)) : Nat := run.countP (passes side)

/-- The uses of the PQ encryption with the first values of a counter. -/
def counterUses (key : Bytes32) (n : Nat) : List PqUse :=
  (List.range n).map fun i => ⟨key, makePqNonce (UInt64.ofNat i)⟩

/-- **One call.** For each side, either it is a send of this side that passes the
Noise layer, which uses the side's key with its counter and advances the counter, or
it uses nothing and changes neither. -/
theorem connectionNext_cases (side : Side) (call : Side × Call) (e : Endpoints L) :
    (passes side (Machine.stepOf connectionNext call e) = true ∧ call.1 = side ∧
      (connectionNext call e).1 = some ⟨(e side).pqRekeyMaterial, makePqNonce (e side).pqEncryptNonce⟩ ∧
      ((connectionNext call e).2 side).pqRekeyMaterial = (e side).pqRekeyMaterial ∧
      ((connectionNext call e).2 side).pqEncryptNonce = (e side).pqEncryptNonce + 1) ∨
    (passes side (Machine.stepOf connectionNext call e) = false ∧
      (call.1 = side → (connectionNext call e).1 = none) ∧
      ((connectionNext call e).2 side).pqRekeyMaterial = (e side).pqRekeyMaterial ∧
      ((connectionNext call e).2 side).pqEncryptNonce = (e side).pqEncryptNonce) := by
  obtain ⟨s, call⟩ := call
  by_cases hs : s = side
  · subst hs
    cases call with
    | recv incoming =>
      have hafter : (connectionNext (s, .recv incoming) e).2 s = ((e s).recvMessage incoming).2 :=
        Function.update_self ..
      obtain ⟨hkey, hcounter⟩ := (e s).recvMessage_keeps incoming
      refine Or.inr ⟨rfl, fun _ => rfl, ?_, ?_⟩
      · rw [hafter, hkey]
      · rw [hafter, hcounter]
    | send msg =>
      have hafter : (connectionNext (s, .send msg) e).2 s = ((e s).sendMessage msg).2 :=
        Function.update_self ..
      have huse : (connectionNext (s, .send msg) e).1 =
          ((e s).sendMessage msg).1.toOption.map Prod.snd := rfl
      rw [hafter, huse]
      cases hwrite : L.writeMessage (L.messageJson msg) (e s).transport with
      | error err =>
        have hsend : (e s).sendMessage msg = (.error err, e s) := by
          rw [MeshConnection.sendMessage, hwrite]
        rw [hsend]
        exact Or.inr ⟨by simp [passes, hwrite, Except.isOk, Except.toBool], fun _ => rfl, rfl, rfl⟩
      | ok out =>
        have hsend : (e s).sendMessage msg =
            (.ok (encodeFrame (L.pqEncrypt (e s).pqRekeyMaterial
                (makePqNonce (e s).pqEncryptNonce) out.1),
                ⟨(e s).pqRekeyMaterial, makePqNonce (e s).pqEncryptNonce⟩),
              { e s with transport := out.2, pqEncryptNonce := (e s).pqEncryptNonce + 1 }) := by
          rw [MeshConnection.sendMessage, hwrite]
        rw [hsend]
        exact Or.inl ⟨by simp [passes, hwrite, Except.isOk, Except.toBool], rfl, rfl, rfl, rfl⟩
  · have hother : (connectionNext (s, call) e).2 side = e side := by
      cases call <;> exact Function.update_of_ne (Ne.symm hs) ..
    refine Or.inr ⟨?_, fun h => absurd h hs, by rw [hother], by rw [hother]⟩
    cases call with
    | recv incoming => rfl
    | send msg => simp [passes, hs]

/-- What a side has encrypted so far: one use for each message that passed the Noise
layer, with the values of its counter in order. -/
structure Counted (side : Side) (key : Bytes32) (history : List (ConnectionStep L))
    (e : Endpoints L) : Prop where
  sameKey : (e side).pqRekeyMaterial = key
  counter : (e side).pqEncryptNonce = UInt64.ofNat (passed side history)
  uses : encryptions (history.filter fun t => t.input.1 = side) =
    counterUses key (passed side history)

theorem encryptions_append (run run' : List (ConnectionStep L)) :
    encryptions (run ++ run') = encryptions run ++ encryptions run' :=
  List.filterMap_append

theorem counterUses_succ (key : Bytes32) (n : Nat) :
    counterUses key (n + 1) = counterUses key n ++ [⟨key, makePqNonce (UInt64.ofNat n)⟩] := by
  simp [counterUses, List.range_succ]

theorem counted_step {side : Side} {key : Bytes32} (call : Side × Call)
    (history : List (ConnectionStep L)) (e : Endpoints L) (h : Counted side key history e) :
    Counted side key (history ++ [Machine.stepOf connectionNext call e])
      (connectionNext call e).2 := by
  rcases connectionNext_cases side call e with
    ⟨hpass, hside, huse, hkey, hcounter⟩ | ⟨hpass, huse, hkey, hcounter⟩
  · have hpassed : passed side (history ++ [Machine.stepOf connectionNext call e]) =
        passed side history + 1 := by
      rw [passed, List.countP_append, List.countP_singleton, if_pos hpass]
      rfl
    refine ⟨hkey.trans h.sameKey, ?_, ?_⟩
    · rw [hcounter, h.counter, hpassed, UInt64.ofNat_add]
      rfl
    · rw [List.filter_append, encryptions_append, h.uses, hpassed, counterUses_succ]
      simp [encryptions, hside, huse, h.sameKey, h.counter]
  · have hpassed : passed side (history ++ [Machine.stepOf connectionNext call e]) =
        passed side history := by
      rw [passed, List.countP_append, List.countP_singleton, hpass]
      rfl
    refine ⟨hkey.trans h.sameKey, by rw [hcounter, h.counter, hpassed], ?_⟩
    rw [List.filter_append, encryptions_append, h.uses, hpassed]
    by_cases hside : call.1 = side
    · simp [encryptions, hside, huse hside]
    · simp [encryptions, hside]

/-! ### Uses of one key -/

theorem mem_counterUses {key : Bytes32} {n : Nat} {use : PqUse} :
    use ∈ counterUses key n ↔ ∃ i < n, ⟨key, makePqNonce (UInt64.ofNat i)⟩ = use := by
  simp only [counterUses, List.mem_map, List.mem_range]

/-- A counter of 64 bits makes so many different nonces. -/
theorem nodup_counterUses {key : Bytes32} {n : Nat} : (counterUses key n).Nodup ↔ n ≤ 2 ^ 64 := by
  rw [counterUses, List.nodup_map_iff_inj_on List.nodup_range]
  constructor
  · intro hinj
    by_contra hn
    have hwrap := hinj 0 (by rw [List.mem_range]; omega) (2 ^ 64) (by rw [List.mem_range]; omega) rfl
    omega
  · intro hn i hi j hj huse
    have hnonce := makePqNonce_injective (PqUse.mk.inj huse).2
    have hi' : i < 2 ^ 64 := by
      rw [List.mem_range] at hi
      omega
    have hj' : j < 2 ^ 64 := by
      rw [List.mem_range] at hj
      omega
    rw [← UInt64.toNat_ofNat_of_lt' hi', ← UInt64.toNat_ofNat_of_lt' hj', hnonce]

/-- Two counters from zero under one key never meet exactly when one of them is
never used, as both start with the same nonce. -/
theorem nodup_counterUses_append {key : Bytes32} {m n : Nat} :
    (counterUses key m ++ counterUses key n).Nodup ↔
      (m = 0 ∨ n = 0) ∧ m ≤ 2 ^ 64 ∧ n ≤ 2 ^ 64 := by
  rw [List.nodup_append, nodup_counterUses, nodup_counterUses]
  constructor
  · rintro ⟨hm, hn, hdisjoint⟩
    refine ⟨?_, hm, hn⟩
    by_contra hboth
    have hfirst : ∀ k, 0 < k → (⟨key, makePqNonce (UInt64.ofNat 0)⟩ : PqUse) ∈ counterUses key k :=
      fun k hk => mem_counterUses.mpr ⟨0, hk, rfl⟩
    exact hdisjoint _ (hfirst m (by omega)) _ (hfirst n (by omega)) rfl
  · rintro ⟨hzero, hm, hn⟩
    refine ⟨hm, hn, ?_⟩
    intro use huse other hother _
    obtain ⟨i, hi, -⟩ := mem_counterUses.mp huse
    obtain ⟨j, hj, -⟩ := mem_counterUses.mp hother
    omega

/-! ### Nonces of a connection -/

/-- The two endpoints of a handshake, each with a connection made of its result. -/
def established (a b : HandshakeResult L) : Endpoints L
  | .initiator => .new a.peerIdentity.instanceId a.transport a.pqRekeyMaterial
  | .responder => .new b.peerIdentity.instanceId b.transport b.pqRekeyMaterial

/-- The steps of a connection, for the calls of both endpoints in any order. -/
def connectionRun (a b : HandshakeResult L) (calls : List (Side × Call)) :
    List (ConnectionStep L) :=
  Machine.trace connectionNext calls (established a b)

theorem counted_run (a b : HandshakeResult L) (calls : List (Side × Call)) (side : Side) :
    Counted side (established a b side).pqRekeyMaterial (connectionRun a b calls)
      (Machine.final connectionNext calls (established a b)) := by
  have hstart : Counted side (established a b side).pqRekeyMaterial [] (established a b) :=
    ⟨rfl, by cases side <;> rfl, rfl⟩
  exact Machine.history_invariant (R := Counted side (established a b side).pqRekeyMaterial)
    counted_step calls hstart

/-- The uses of a run are those of one side and those of the other. -/
theorem encryptions_perm (run : List (ConnectionStep L)) :
    (encryptions (run.filter fun t => t.input.1 = .initiator) ++
      encryptions (run.filter fun t => t.input.1 = .responder)).Perm (encryptions run) := by
  have hother : ∀ t : ConnectionStep L,
      (!decide (t.input.1 = .initiator)) = decide (t.input.1 = .responder) := by
    intro t
    cases t.input.1 <;> rfl
  have hsplit := List.filter_append_perm (fun t : ConnectionStep L => t.input.1 = .initiator) run
  simp only [hother] at hsplit
  rw [← encryptions_append]
  exact hsplit.filterMap _

/-- **Nonces of the PQ layer.** After a handshake that both sides completed, and over
all calls of both endpoints in any order, no pair of key and nonce is used twice
exactly when only one side's messages pass the Noise layer, at most 2^64 of them. -/
theorem nonces_unique_iff {Paired : L.Transport → L.Transport → Prop} (laws : Lawful L Paired)
    {alice bob : MeshIdentity L} {randomA randomB : HandshakeRandom} {a b : HandshakeResult L}
    (h : Linked (initiateHandshake alice randomA) (respondHandshake bob randomB) a b)
    (calls : List (Side × Call)) :
    (encryptions (connectionRun a b calls)).Nodup ↔
      (passed .initiator (connectionRun a b calls) = 0 ∨
        passed .responder (connectionRun a b calls) = 0) ∧
      passed .initiator (connectionRun a b calls) ≤ 2 ^ 64 ∧
      passed .responder (connectionRun a b calls) ≤ 2 ^ 64 := by
  have hinitiator := (counted_run a b calls .initiator).uses
  have hresponder := (counted_run a b calls .responder).uses
  have hkey : (established a b .initiator).pqRekeyMaterial =
      (established a b .responder).pqRekeyMaterial := (handshake_agreed laws h).key
  rw [← (encryptions_perm (connectionRun a b calls)).nodup_iff, hinitiator, hresponder, hkey,
    nodup_counterUses_append]

/-! ### One message each way -/

/-- The two daemons of a connection. -/
def pairKnown : List MeshPublicIdentity :=
  [(plainMember [] 1).publicIdentity, (plainMember [] 2).publicIdentity]

abbrev pairLibs : MeshLibs := plainLibs pairKnown

def pairInitiator : Party (HandshakeResult pairLibs) :=
  initiateHandshake (plainMember pairKnown 1) ⟨List.replicate 32 7, [3, 4]⟩

def pairResponder : Party (HandshakeResult pairLibs) :=
  respondHandshake (plainMember pairKnown 2) ⟨List.replicate 32 8, [5, 6]⟩

/-- What the initiator hears: message 2, the identity, the ciphertext. -/
def heardByInitiator : List UInt8 :=
  encodeFrame (List.replicate 32 8 ++ plainPublicKey (plainKey 2).val) ++
    (encodeFrame (plainSeal [1]) ++
      encodeFrame (plainSeal (plainMessageJson (.pqExchange "0506"))))

/-- What the responder hears: messages 1 and 3, the identity, the ciphertext. -/
def heardByResponder : List UInt8 :=
  encodeFrame (List.replicate 32 7) ++ (encodeFrame (plainPublicKey (plainKey 1).val) ++
    (encodeFrame (plainSeal [0]) ++
      encodeFrame (plainSeal (plainMessageJson (.pqExchange "0304")))))

/-- The handshake of the two daemons completes. -/
theorem pair_linked : ∃ a b, Linked pairInitiator pairResponder a b := by
  -- Each run is evaluated once.
  have hinitiator : (pairInitiator.run heardByInitiator).result.isOk = true ∧
      (pairInitiator.run heardByInitiator).sent = heardByResponder := by
    decide +kernel
  have hresponder : (pairResponder.run heardByResponder).result.isOk = true ∧
      (pairResponder.run heardByResponder).sent = heardByInitiator := by
    decide +kernel
  obtain ⟨a, ha⟩ := isOk_iff_exists.mp hinitiator.1
  obtain ⟨b, hb⟩ := isOk_iff_exists.mp hresponder.1
  refine ⟨a, b, heardByInitiator, heardByResponder, ha, hb, ?_, ?_⟩
  · rw [hresponder.2]
  · rw [hinitiator.2]

/-- A heartbeat in each direction. -/
def oneEach : List (Side × Call) :=
  [(.initiator, .send (.heartbeat "2026-01-01T00:00:00Z")),
   (.responder, .send (.heartbeat "2026-01-01T00:00:00Z"))]

theorem pair_nonces_unique_iff : ∃ a b, Linked pairInitiator pairResponder a b ∧
    ((encryptions (connectionRun a b oneEach)).Nodup ↔
      (passed .initiator (connectionRun a b oneEach) = 0 ∨
        passed .responder (connectionRun a b oneEach) = 0) ∧
      passed .initiator (connectionRun a b oneEach) ≤ 2 ^ 64 ∧
      passed .responder (connectionRun a b oneEach) ≤ 2 ^ 64) := by
  obtain ⟨a, b, hlinked⟩ := pair_linked
  exact ⟨a, b, hlinked, nonces_unique_iff (plain_lawful (by decide)) hlinked oneEach⟩

/-- The two heartbeats are encrypted with the same key and the same nonce. -/
theorem oneEach_nonce_reused : ¬ ∀ a b : HandshakeResult pairLibs,
    Linked pairInitiator pairResponder a b →
      (encryptions (connectionRun a b oneEach)).Nodup := by
  intro h
  obtain ⟨a, b, hlinked⟩ := pair_linked
  have huses : encryptions (connectionRun a b oneEach) =
      [⟨a.pqRekeyMaterial, makePqNonce 0⟩, ⟨b.pqRekeyMaterial, makePqNonce 0⟩] := rfl
  have hkey := (handshake_agreed (plain_lawful (by decide)) hlinked).key
  have hnodup := h a b hlinked
  rw [huses, hkey] at hnodup
  simp at hnodup

end OsModa.Mesh
