import OsModa.Mesh.Agreement

/-!
Libraries in the clear.

Every primitive does what its interface promises and hides nothing: a Noise message
carries its keys openly, a ciphertext is the plaintext with sixteen bytes more, and
hexadecimal stands for base64. JSON texts of identities are positions in a list of
known identities. They satisfy all the laws (`plain_lawful`), and concrete
connections can be followed on them.
-/

namespace OsModa.Mesh

open OsModa.Encoding OsModa.Session

/-! ### Noise -/

/-- A handshake: how many messages have passed, and what they were. -/
structure PlainHandshake where
  random : List UInt8
  key : List UInt8
  stage : Nat
  transcript : List UInt8
  remote : List UInt8
  deriving DecidableEq

/-- A transport remembers who the other side said it was. -/
structure PlainTransport where
  remote : List UInt8
  deriving DecidableEq

def plainPublicKey (key : List UInt8) : List UInt8 := key.map (255 - ·)

/-- Message 1 is the ephemeral key, message 2 both keys, message 3 the static key. -/
def plainNoiseMessage (h : PlainHandshake) : Option (List UInt8) :=
  match h.stage with
  | 0 => some h.random
  | 1 => some (h.random ++ plainPublicKey h.key)
  | 2 => some (plainPublicKey h.key)
  | _ => none

def plainWriteHandshake (h : PlainHandshake) : Except String (List UInt8 × PlainHandshake) :=
  match plainNoiseMessage h with
  | none => .error "state error"
  | some msg =>
    if msg.length ≤ 65535 then
      .ok (msg, { h with stage := h.stage + 1, transcript := h.transcript ++ msg })
    else .error "input error"

def plainReadHandshake (msg : List UInt8) (h : PlainHandshake) : Except String PlainHandshake :=
  .ok { h with
    stage := h.stage + 1
    transcript := h.transcript ++ msg
    remote := if h.stage = 1 then msg.drop 32 else if h.stage = 2 then msg else h.remote }

def plainSeal (plain : List UInt8) : List UInt8 := plain ++ List.replicate 16 0

def plainOpen (cipher : List UInt8) : Except String (List UInt8) :=
  if cipher.length < 16 then .error "decrypt error" else .ok (cipher.take (cipher.length - 16))

theorem plainOpen_plainSeal (plain : List UInt8) : plainOpen (plainSeal plain) = .ok plain := by
  simp [plainOpen, plainSeal]

/-! ### Signatures -/

/-- A signature shows the public key, and nothing of the message. -/
def plainSignature (pubkey : List UInt8) : List UInt8 := pubkey ++ List.replicate 32 0

/-! ### JSON -/

def plainMessageJson : MeshMessage → List UInt8
  | .pqExchange ciphertext =>
    utf8 ("\x7b\"type\":\"pq_exchange\",\"mlkem_ciphertext\":\"".toList ++ ciphertext.toList ++ "\"\x7d".toList)
  | .heartbeat timestamp =>
    utf8 ("\x7b\"type\":\"heartbeat\",\"timestamp\":\"".toList ++ timestamp.toList ++ "\"\x7d".toList)
  | _ => []

/-- Only `PqExchange` messages with an ASCII ciphertext are read back. -/
def plainParseMessage (bytes : List UInt8) : Except String MeshMessage :=
  let middle := (bytes.drop 42).dropLast.dropLast
  let ciphertext := String.ofList (middle.map fun b => Char.ofNat b.toNat)
  if plainMessageJson (.pqExchange ciphertext) = bytes then .ok (.pqExchange ciphertext)
  else .error "invalid message"

theorem plainMessageJson_pqExchange {ciphertext ciphertext' : String}
    (h : plainMessageJson (.pqExchange ciphertext) = plainMessageJson (.pqExchange ciphertext')) :
    ciphertext = ciphertext' := by
  have htext := List.append_cancel_left (List.append_cancel_right (utf8_injective h))
  exact String.toList_inj.mp htext

theorem plainParseMessage_ok {ciphertext : String} {message : MeshMessage}
    (h : plainParseMessage (plainMessageJson (.pqExchange ciphertext)) = .ok message) :
    message = .pqExchange ciphertext := by
  unfold plainParseMessage at h
  dsimp only at h
  split at h
  · rename_i hsame
    rw [← plainMessageJson_pqExchange hsame]
    exact (Except.ok.inj h).symm
  · cases h

/-! ### The libraries -/

def plainLibs (known : List MeshPublicIdentity) : MeshLibs where
  Handshake := PlainHandshake
  Transport := PlainTransport
  buildInitiator random key := .ok ⟨random, key, 0, [], []⟩
  buildResponder random key := .ok ⟨random, key, 0, [], []⟩
  writeHandshake := plainWriteHandshake
  readHandshake := plainReadHandshake
  handshakeHash h := h.transcript
  intoTransportMode h := if h.stage = 3 then .ok ⟨h.remote⟩ else .error "state error"
  remoteStatic t := some t.remote
  writeMessage plain t :=
    if plain.length + 16 ≤ 65535 then .ok (plainSeal plain, t) else .error "input error"
  readMessage cipher t := (plainOpen cipher).map fun plain => (plain, t)
  encapKeySize := 2
  decapKeySize := 2
  ciphertextSize := 2
  encapsulationKey dk := dk
  encapsulate random ek := some (random, random ++ ek)
  decapsulate dk ciphertext := some (ciphertext ++ dk)
  ed25519PublicKey key := ⟨plainPublicKey key.val, by simp [plainPublicKey, key.property]⟩
  ed25519Sign key _ := plainSignature (plainPublicKey key.val)
  verifyingKey pubkey := .ok fun _ sig => sig = plainSignature pubkey.val
  sha256 bytes := bytes
  hkdf material _ := ⟨littleEndian 32 (littleValue material), length_littleEndian ..⟩
  pqEncrypt _ _ plain := plainSeal plain
  pqDecrypt _ _ cipher := plainOpen cipher
  base64Encode bytes := String.ofList (hexEncode bytes)
  base64Decode text := orError (hexDecode? text.toList) "Invalid symbol"
  hexError _ := "Invalid character"
  identityJson i := [UInt8.ofNat (known.idxOf i)]
  parseIdentity bytes :=
    orError (bytes.head?.bind fun b => known[b.toNat]?) "invalid identity"
  messageJson := plainMessageJson
  parseMessage := plainParseMessage

theorem plain_handshake_written {known : List MeshPublicIdentity} {h h' : PlainHandshake}
    {msg : List UInt8} (hmsg : (plainLibs known).writeHandshake h = .ok (msg, h')) :
    msg.length ≤ 65535 ∧
      h' = { h with stage := h.stage + 1, transcript := h.transcript ++ msg } := by
  change plainWriteHandshake h = _ at hmsg
  unfold plainWriteHandshake at hmsg
  split at hmsg
  · cases hmsg
  · split at hmsg
    · rename_i hsize
      obtain ⟨rfl, rfl⟩ := Prod.mk.inj (Except.ok.inj hmsg)
      exact ⟨hsize, rfl⟩
    · cases hmsg

theorem plain_written {known : List MeshPublicIdentity} {plain cipher : List UInt8}
    {t t' : (plainLibs known).Transport}
    (h : (plainLibs known).writeMessage plain t = .ok (cipher, t')) :
    plain.length + 16 ≤ 65535 ∧ cipher = plainSeal plain ∧ t' = t := by
  change (if plain.length + 16 ≤ 65535 then Except.ok (plainSeal plain, t)
    else .error "input error") = _ at h
  split at h
  · rename_i hsize
    obtain ⟨rfl, rfl⟩ := Prod.mk.inj (Except.ok.inj h)
    exact ⟨hsize, rfl, rfl⟩
  · cases h

/-- The libraries keep every law, whatever identities are known. -/
theorem plain_lawful {known : List MeshPublicIdentity} (hknown : known.length < 256) :
    Lawful (plainLibs known) fun _ _ => True where
  handshake_size := by
    intro h msg h' hmsg
    exact (plain_handshake_written hmsg).1
  message_size := by
    intro t plain cipher t' hcipher
    obtain ⟨hsize, rfl, -⟩ := plain_written hcipher
    simpa [plainSeal] using hsize
  handshake_hash := by
    rintro i r ⟨_, _, _, _, i0, i1, i2, r0, r1, r2, msg1, msg2, msg3, hi0, hr0, hi1, hr1, hr2, hi2,
      hi3, hr3⟩
    obtain rfl := Except.ok.inj hi0
    obtain rfl := Except.ok.inj hr0
    obtain ⟨-, rfl⟩ := plain_handshake_written hi1
    obtain rfl := Except.ok.inj hr1
    obtain ⟨-, rfl⟩ := plain_handshake_written hr2
    obtain rfl := Except.ok.inj hi2
    obtain ⟨-, rfl⟩ := plain_handshake_written hi3
    obtain rfl := Except.ok.inj hr3
    rfl
  handshake_paired _ _ _ := trivial
  paired_symm _ := trivial
  delivered := by
    intro s t s' t' plain cipher plain' _ hwrite hread
    obtain ⟨-, rfl, -⟩ := plain_written hwrite
    have hopen : (plainLibs known).readMessage (plainSeal plain) t = .ok (plain, t) := by
      simp [plainLibs, plainOpen_plainSeal, Except.map]
    rw [hopen] at hread
    exact ⟨(Prod.mk.inj (Except.ok.inj hread)).1.symm, trivial⟩
  decapsulate := by
    intro random dk ciphertext secret secret' hencap hdecap
    obtain ⟨rfl, rfl⟩ := Prod.mk.inj (Option.some.inj hencap)
    exact (Option.some.inj hdecap).symm
  base64 := by
    intro bytes bytes' h
    have hdecode : hexDecode? (String.ofList (hexEncode bytes)).toList = some bytes' :=
      orError_eq_ok.mp h
    rw [String.toList_ofList, hexDecode?_hexEncode] at hdecode
    exact (Option.some.inj hdecode).symm
  identity_json := by
    intro i j h
    have hget : known[(UInt8.ofNat (known.idxOf i)).toNat]? = some j := orError_eq_ok.mp h
    have hle : known.idxOf i ≤ known.length := List.idxOf_le_length
    have hindex : (UInt8.ofNat (known.idxOf i)).toNat = known.idxOf i := by
      rw [UInt8.toNat_ofNat']
      exact Nat.mod_eq_of_lt (by omega)
    rw [hindex] at hget
    obtain ⟨hlt, rfl⟩ := List.getElem?_eq_some_iff.mp hget
    exact List.getElem_idxOf hlt
  pqExchange_json := by
    intro ciphertext message h
    simp only [plainLibs] at h
    exact plainParseMessage_ok h

/-! ### Members -/

def plainKey (b : UInt8) : Bytes32 := ⟨List.replicate 32 b, List.length_replicate⟩

/-- A daemon all of whose keys are one byte repeated. -/
def plainMember (known : List MeshPublicIdentity) (b : UInt8) : MeshIdentity (plainLibs known) where
  ed25519SigningKey := plainKey b
  noisePrivate := plainKey b
  noisePublic := (plainLibs known).ed25519PublicKey (plainKey b)
  mlkemDk := [b, b]
  mlkemDk_size := rfl

end OsModa.Mesh
