import OsModa.Base.Dialogue
import OsModa.Mesh.Transport

/-!
Two honest daemons on a faithful channel complete the handshake.

`Agreement` says what two sides agree on if both complete the handshake. That they do takes
libraries that do their work (`Working`): a `Noise_XX` session that nobody disturbs comes
about, what is encrypted for it is decrypted, and what an honest daemon shows of itself is
valid. Then every run of the initiator against the responder, in whatever order they take
their steps, ends with the agreement (`handshake_concludes`).
-/

namespace OsModa.Mesh

open OsModa.Encoding OsModa.Session Party Dialogue

/-! ### Frames -/

section Frames

variable {α β : Type} {p : Party α} {q : Party β} {data : List UInt8}

/-- The length of a frame that is not too large is read from its header. -/
theorem decodeFrameLength_bigEndian (hlen : data.length ≤ maxMessageSize) :
    decodeFrameLength (bigEndian 4 data.length) = data.length := by
  rw [decodeFrameLength, bigValue_bigEndian]
  unfold maxMessageSize at hlen
  exact Nat.mod_eq_of_lt (by omega)

theorem reaches_frameToRight (hlen : data.length ≤ maxMessageSize)
    (next : List UInt8 → Party β) :
    Dialogue.Reaches ⟨sendFrame data p, recvFrame next, [], []⟩ ⟨p, next data, [], []⟩ := by
  refine .head (.sendLeft (encodeFrame data)) (.trans ?_
    (reaches_toRight (n := data.length) rfl next [] []))
  have hheader := reaches_toRight (p := p) (length_bigEndian 4 data.length)
    (fun header => if decodeFrameLength header > maxMessageSize
      then .done (.error (frameTooLarge (decodeFrameLength header)))
      else .recv (decodeFrameLength header) next) [] data
  rw [decodeFrameLength_bigEndian hlen, if_neg (Nat.not_lt.mpr hlen)] at hheader
  rwa [List.append_nil]

theorem reaches_frameToLeft (hlen : data.length ≤ maxMessageSize)
    (next : List UInt8 → Party α) :
    Dialogue.Reaches ⟨recvFrame next, sendFrame data q, [], []⟩ ⟨next data, q, [], []⟩ := by
  refine .head (.sendRight (encodeFrame data)) (.trans ?_
    (reaches_toLeft (n := data.length) rfl next [] []))
  have hheader := reaches_toLeft (q := q) (length_bigEndian 4 data.length)
    (fun header => if decodeFrameLength header > maxMessageSize
      then .done (.error (frameTooLarge (decodeFrameLength header)))
      else .recv (decodeFrameLength header) next) [] data
  rw [decodeFrameLength_bigEndian hlen, if_neg (Nat.not_lt.mpr hlen)] at hheader
  rwa [List.append_nil]

end Frames

/-! ### Libraries that work -/

variable {L : MeshLibs}

/-- A `Noise_XX` session that nobody disturbs: the states and messages of both sides. -/
structure NoiseSession (L : MeshLibs) (Paired : Nat → L.Transport → L.Transport → Prop)
    (randomI keyI randomR keyR : List UInt8) where
  {i0 i1 i2 i3 r0 r1 r2 r3 : L.Handshake}
  {msg1 msg2 msg3 : List UInt8}
  {s t : L.Transport}
  initiator : L.buildInitiator randomI keyI = .ok i0
  responder : L.buildResponder randomR keyR = .ok r0
  written1 : L.writeHandshake i0 = .ok (msg1, i1)
  read1 : L.readHandshake msg1 r0 = .ok r1
  written2 : L.writeHandshake r1 = .ok (msg2, r2)
  read2 : L.readHandshake msg2 i1 = .ok i2
  written3 : L.writeHandshake i2 = .ok (msg3, i3)
  read3 : L.readHandshake msg3 r2 = .ok r3
  size1 : msg1.length ≤ 65535
  size2 : msg2.length ≤ 65535
  size3 : msg3.length ≤ 65535
  hash : L.handshakeHash i3 = L.handshakeHash r3
  transportI : L.intoTransportMode i3 = .ok s
  transportR : L.intoTransportMode r3 = .ok t
  /-- Four messages can pass, in whatever direction. -/
  paired : Paired 4 s t

/-- What is relied on so that a handshake succeeds. `Paired n` relates two transports between
which `n` more messages can pass, and `Honest` are the identities that a daemon has made for
itself. -/
structure Working (L : MeshLibs) (Paired : Nat → L.Transport → L.Transport → Prop)
    (Honest : MeshIdentity L → Prop) : Prop where
  noise : ∀ (randomI : List UInt8) (keyI : Bytes32) (randomR : List UInt8) (keyR : Bytes32),
    Nonempty (NoiseSession L Paired randomI keyI.val randomR keyR.val)
  paired_symm : ∀ {n s t}, Paired n s t → Paired n t s
  /-- A message that fits in one of Noise, with the tag of 16 bytes, is delivered. -/
  message : ∀ {n s t} (plain : List UInt8), Paired (n + 1) s t → plain.length + 16 ≤ 65535 →
    ∃ cipher s' t', L.writeMessage plain s = .ok (cipher, s') ∧ cipher.length ≤ 65535 ∧
      L.readMessage cipher t = .ok (plain, t') ∧ Paired n s' t'
  /-- What is encapsulated to the key of an honest daemon is decapsulated by it. -/
  encapsulate : ∀ {m : MeshIdentity L}, Honest m → ∀ random, ∃ ciphertext secret,
    L.encapsulate random (L.encapsulationKey m.mlkemDk) = some (ciphertext, secret) ∧
      ciphertext.length = L.ciphertextSize ∧ L.decapsulate m.mlkemDk ciphertext = some secret
  encapsulationKey_size : ∀ {m : MeshIdentity L}, Honest m →
    (L.encapsulationKey m.mlkemDk).length = L.encapKeySize
  base64 : ∀ bytes, L.base64Decode (L.base64Encode bytes) = .ok bytes
  /-- A signature is verified by the public key of the key that made it. -/
  signature : ∀ key message, (L.ed25519Sign key message).length = 64 ∧
    ∃ verifyStrict, L.verifyingKey (L.ed25519PublicKey key) = .ok verifyStrict ∧
      verifyStrict message (L.ed25519Sign key message) = true
  identity_json : ∀ {m : MeshIdentity L}, Honest m →
    L.parseIdentity (L.identityJson m.publicIdentity) = .ok m.publicIdentity ∧
      (L.identityJson m.publicIdentity).length + 16 ≤ 65535
  pqExchange_json : ∀ ciphertext : List UInt8, ciphertext.length = L.ciphertextSize →
    L.parseMessage (L.messageJson (.pqExchange (L.base64Encode ciphertext))) =
        .ok (.pqExchange (L.base64Encode ciphertext)) ∧
      (L.messageJson (.pqExchange (L.base64Encode ciphertext))).length + 16 ≤ 65535

namespace Working

variable {Paired : Nat → L.Transport → L.Transport → Prop} {Honest : MeshIdentity L → Prop}
  (laws : Working L Paired Honest) {m : MeshIdentity L}

include laws

/-- An honest identity is signed as it should be. -/
theorem verifyIdentity_ok : verifyIdentity L m.publicIdentity = .ok true := by
  obtain ⟨hsize, verifyStrict, hkey, hverified⟩ :=
    laws.signature m.ed25519SigningKey (canonicalJson m.unsignedIdentity)
  have hcanonical : canonicalJson m.publicIdentity = canonicalJson m.unsignedIdentity := rfl
  have hsignature : m.publicIdentity.signature = some (String.ofList (hexEncode
      (L.ed25519Sign m.ed25519SigningKey (canonicalJson m.unsignedIdentity)))) := rfl
  have hpubkey : m.publicIdentity.ed25519Pubkey =
      String.ofList (hexEncode (L.ed25519PublicKey m.ed25519SigningKey).val) := rfl
  simp only [verifyIdentity, hcanonical, hsignature, hpubkey, orError, String.toList_ofList,
    hexDecode?_hexEncode, Except.bind, hsize, ne_eq, not_true_eq_false, if_false, toBytes32_val,
    hkey, hverified]

theorem mlkemEncapsulate_honest (hm : Honest m) (random : List UInt8) :
    ∃ ciphertext secret,
      mlkemEncapsulate L random m.publicIdentity.mlkemEncapKey = .ok (ciphertext, secret) ∧
        ciphertext.length = L.ciphertextSize ∧ m.mlkemDecapsulate ciphertext = .ok secret := by
  obtain ⟨ciphertext, secret, hencap, hsize, hdecap⟩ := laws.encapsulate hm random
  refine ⟨ciphertext, secret, ?_, hsize, ?_⟩
  · have hdecode : L.base64Decode m.publicIdentity.mlkemEncapKey =
        .ok (L.encapsulationKey m.mlkemDk) := laws.base64 _
    simp only [mlkemEncapsulate, hdecode, Except.bind, laws.encapsulationKey_size hm, ne_eq,
      not_true_eq_false, if_false, hencap, orError]
  · simp only [MeshIdentity.mlkemDecapsulate, m.mlkemDk_size, hsize, ne_eq, not_true_eq_false,
      if_false, hdecap, orError]

theorem parseIdentity_honest (hm : Honest m) (error : String → String) :
    (L.parseIdentity (L.identityJson m.publicIdentity)).mapError error =
      .ok m.publicIdentity := by
  rw [(laws.identity_json hm).1]
  rfl

theorem pqCiphertext_ok (sender : String) (ciphertext : List UInt8) :
    pqCiphertext L sender (.pqExchange (L.base64Encode ciphertext)) = .ok ciphertext :=
  laws.base64 ciphertext

end Working

/-- **Agreement of honest daemons.** Whatever keys and randomness two honest daemons have, every
run of the handshake between them comes to an end, at which both sides have succeeded, know each
other's identity and share the hybrid key material. -/
theorem handshake_concludes {Paired : Nat → L.Transport → L.Transport → Prop}
    {Honest : MeshIdentity L → Prop} (laws : Working L Paired Honest) {alice bob : MeshIdentity L}
    (halice : Honest alice) (hbob : Honest bob) (randomA randomB : HandshakeRandom) :
    ∃ a b, Concludes (initiateHandshake alice randomA) (respondHandshake bob randomB) a b ∧
      Agreed alice bob a b := by
  obtain ⟨noise⟩ := laws.noise randomA.noise alice.noisePrivate randomB.noise bob.noisePrivate
  have hsize : ∀ {n : Nat}, n ≤ 65535 → n ≤ maxMessageSize := by
    intro n hn
    unfold maxMessageSize
    omega
  -- The four messages that are encrypted for the transports.
  obtain ⟨cipher1, s1, t1, hwrite1, hsize1, hread1, hpaired⟩ :=
    laws.message _ noise.paired (laws.identity_json halice).2
  obtain ⟨cipher2, t2, s2, hwrite2, hsize2, hread2, hpaired⟩ :=
    laws.message _ (laws.paired_symm hpaired) (laws.identity_json hbob).2
  obtain ⟨ct1, secret1, hencap1, hct1, hdecap1⟩ := laws.mlkemEncapsulate_honest hbob randomA.mlkem
  obtain ⟨hparse1, hfits1⟩ := laws.pqExchange_json ct1 hct1
  obtain ⟨cipher3, s3, t3, hwrite3, hsize3, hread3, hpaired⟩ :=
    laws.message _ (laws.paired_symm hpaired) hfits1
  obtain ⟨ct2, secret2, hencap2, hct2, hdecap2⟩ := laws.mlkemEncapsulate_honest halice randomB.mlkem
  obtain ⟨hparse2, hfits2⟩ := laws.pqExchange_json ct2 hct2
  obtain ⟨cipher4, t4, s4, hwrite4, hsize4, hread4, -⟩ :=
    laws.message _ (laws.paired_symm hpaired) hfits2
  suffices hrun : Dialogue.Reaches
      (start (initiateHandshake alice randomA) (respondHandshake bob randomB))
      ⟨.done (.ok ⟨s4, bob.publicIdentity,
          deriveHybridKey L (L.handshakeHash noise.i3) secret1 secret2⟩),
        .done (.ok ⟨t4, alice.publicIdentity,
          deriveHybridKey L (L.handshakeHash noise.r3) secret1 secret2⟩), [], []⟩ from
    ⟨_, _, concludes_of_reaches hrun, rfl, rfl, by rw [noise.hash]⟩
  unfold start initiateHandshake respondHandshake greetAsInitiator greetAsResponder
  simp only [orFail_bind, sendFrame_bind, recvFrame_bind, done_bind]
  -- The three messages of Noise.
  rw [noise.initiator, orFail_ok, noise.written1, orFail_ok, noise.responder, orFail_ok]
  refine .trans (reaches_frameToRight (hsize noise.size1) _) ?_
  dsimp only
  rw [noise.read1, orFail_ok, noise.written2, orFail_ok]
  refine .trans (reaches_frameToLeft (hsize noise.size2) _) ?_
  dsimp only
  rw [noise.read2, orFail_ok, noise.written3, orFail_ok]
  refine .trans (reaches_frameToRight (hsize noise.size3) _) ?_
  dsimp only
  rw [noise.transportI, orFail_ok, noise.read3, orFail_ok, noise.transportR, orFail_ok]
  -- The public identities.
  rw [hwrite1, orFail_ok]
  refine .trans (reaches_frameToRight (hsize hsize1) _) ?_
  dsimp only
  rw [hread1, orFail_ok]
  dsimp only
  rw [laws.parseIdentity_honest halice, orFail_ok, laws.verifyIdentity_ok, orFail_ok,
    if_neg (by simp), hwrite2, orFail_ok]
  refine .trans (reaches_frameToLeft (hsize hsize2) _) ?_
  dsimp only
  rw [hread2, orFail_ok]
  dsimp only
  rw [laws.parseIdentity_honest hbob, orFail_ok, laws.verifyIdentity_ok, orFail_ok,
    if_neg (by simp)]
  -- The initiator's ciphertext, then the responder's.
  rw [hencap1, orFail_ok]
  dsimp only
  rw [hwrite3, orFail_ok]
  refine .trans (reaches_frameToRight (hsize hsize3) _) ?_
  dsimp only
  rw [hread3, orFail_ok]
  dsimp only
  rw [hparse1, orFail_ok, laws.pqCiphertext_ok, orFail_ok, hdecap1, orFail_ok, hencap2, orFail_ok]
  dsimp only
  rw [hwrite4, orFail_ok]
  refine .trans (reaches_frameToLeft (hsize hsize4) _) ?_
  dsimp only
  rw [hread4, orFail_ok]
  dsimp only
  rw [hparse2, orFail_ok, laws.pqCiphertext_ok, orFail_ok, hdecap2, orFail_ok]

/-! ### Two daemons in the clear -/

/-- The libraries in the clear, with ephemeral keys of 32 bytes and ciphertexts of two. -/
def workingLibs (known : List MeshPublicIdentity) : MeshLibs :=
  { plainLibs known with
    buildInitiator := fun random key => .ok (⟨random.take 32, key, 0, [], []⟩ : PlainHandshake)
    buildResponder := fun random key => .ok (⟨random.take 32, key, 0, [], []⟩ : PlainHandshake)
    encapsulate := fun random ek =>
      some (littleEndian 2 (littleValue random), littleEndian 2 (littleValue random) ++ ek) }

def workingMember (known : List MeshPublicIdentity) (b : UInt8) :
    MeshIdentity (workingLibs known) where
  ed25519SigningKey := plainKey b
  noisePrivate := plainKey b
  noisePublic := (plainLibs known).ed25519PublicKey (plainKey b)
  mlkemDk := (plainMember known b).mlkemDk
  mlkemDk_size := (plainMember known b).mlkemDk_size

theorem working_written {known : List MeshPublicIdentity} {random key transcript remote : List UInt8}
    {stage : Nat} {msg : List UInt8}
    (hmsg : plainNoiseMessage ⟨random, key, stage, transcript, remote⟩ = some msg)
    (hsize : msg.length ≤ 65535) :
    (workingLibs known).writeHandshake (⟨random, key, stage, transcript, remote⟩ : PlainHandshake) =
      .ok (msg, (⟨random, key, stage + 1, transcript ++ msg, remote⟩ : PlainHandshake)) := by
  change plainWriteHandshake _ = _
  simp only [plainWriteHandshake, hmsg, if_pos hsize]
  rfl

/-- The characters of a hexadecimal text are its bytes. -/
theorem map_ofNat_utf8_hexEncode (bytes : List UInt8) :
    (utf8 (hexEncode bytes)).map (fun b => Char.ofNat b.toNat) = hexEncode bytes := by
  have hdigit : ∀ n < 16, (String.utf8EncodeChar n.digitChar).map (fun b => Char.ofNat b.toNat) =
      [n.digitChar] := by
    decide
  induction bytes with
  | nil => rfl
  | cons b bytes ih =>
    obtain ⟨hhi, hlo⟩ := nibbles_lt b
    have hcons : hexEncode (b :: bytes) = hexByte b ++ hexEncode bytes := rfl
    rw [hcons, utf8_append, List.map_append, ih, hexByte, utf8_cons, utf8_cons, List.map_append,
      List.map_append, hdigit _ hhi, hdigit _ hlo]
    rfl

theorem plainParseMessage_hex (bytes : List UInt8) :
    plainParseMessage (plainMessageJson (.pqExchange (String.ofList (hexEncode bytes)))) =
      .ok (.pqExchange (String.ofList (hexEncode bytes))) := by
  have hmiddle : ((plainMessageJson (.pqExchange (String.ofList (hexEncode bytes)))).drop
      42).dropLast.dropLast = utf8 (hexEncode bytes) := by
    rw [plainMessageJson, utf8_append, utf8_append, List.append_assoc,
      List.drop_left' (by decide), List.dropLast_append_of_ne_nil (by decide),
      List.dropLast_append_of_ne_nil (by decide)]
    exact (List.append_nil _).trans (congrArg utf8 String.toList_ofList)
  simp only [plainParseMessage, hmiddle, map_ofNat_utf8_hexEncode, if_true]

theorem length_plainMessageJson (bytes : List UInt8) :
    (plainMessageJson (.pqExchange (String.ofList (hexEncode bytes)))).length =
      2 * bytes.length + 44 := by
  have hlength : (utf8 (hexEncode bytes)).length = 2 * bytes.length := by
    rw [← List.length_map (f := fun b : UInt8 => Char.ofNat b.toNat), map_ofNat_utf8_hexEncode]
    induction bytes with
    | nil => rfl
    | cons b bytes ih =>
      have hcons : hexEncode (b :: bytes) = hexByte b ++ hexEncode bytes := rfl
      rw [hcons, List.length_append, ih, List.length_cons, hexByte]
      simp only [List.length_cons, List.length_nil]
      omega
  have htext : (String.ofList (hexEncode bytes)).toList = hexEncode bytes := String.toList_ofList
  have hprefix : (utf8 "\x7b\"type\":\"pq_exchange\",\"mlkem_ciphertext\":\"".toList).length = 42 := by
    decide
  have hsuffix : (utf8 "\"\x7d".toList).length = 2 := by decide
  rw [plainMessageJson, utf8_append, utf8_append, List.length_append, List.length_append, htext,
    hlength, hprefix, hsuffix]
  omega

/-- The two daemons of a connection. -/
def IsMember (m : MeshIdentity (workingLibs pairKnown)) : Prop :=
  m = workingMember pairKnown 1 ∨ m = workingMember pairKnown 2

theorem plain_session (known : List MeshPublicIdentity) (randomI : List UInt8) (keyI : Bytes32)
    (randomR : List UInt8) (keyR : Bytes32) : Nonempty (NoiseSession (workingLibs known)
      (fun _ _ _ => True) randomI keyI.val randomR keyR.val) := by
  have hkey : ∀ key : Bytes32, (plainPublicKey key.val).length = 32 := fun key => by
    rw [plainPublicKey, List.length_map, key.property]
  have hrandom : ∀ random : List UInt8, (random.take 32).length ≤ 32 := fun random =>
    List.length_take_le ..
  have h1 : (randomI.take 32).length ≤ 65535 := (hrandom randomI).trans (by decide)
  have h2 : (randomR.take 32 ++ plainPublicKey keyR.val).length ≤ 65535 := by
    have := hrandom randomR
    rw [List.length_append, hkey]
    omega
  have h3 : (plainPublicKey keyI.val).length ≤ 65535 := by
    rw [hkey]
    decide
  exact ⟨{
    i0 := (⟨randomI.take 32, keyI.val, 0, [], []⟩ : PlainHandshake)
    r0 := (⟨randomR.take 32, keyR.val, 0, [], []⟩ : PlainHandshake)
    r1 := (⟨randomR.take 32, keyR.val, 1, randomI.take 32, []⟩ : PlainHandshake)
    i2 := (⟨randomI.take 32, keyI.val, 2,
      randomI.take 32 ++ (randomR.take 32 ++ plainPublicKey keyR.val),
      (randomR.take 32 ++ plainPublicKey keyR.val).drop 32⟩ : PlainHandshake)
    initiator := rfl
    responder := rfl
    written1 := working_written rfl h1
    read1 := rfl
    written2 := working_written rfl h2
    read2 := rfl
    written3 := working_written rfl h3
    read3 := rfl
    size1 := h1
    size2 := h2
    size3 := h3
    hash := rfl
    transportI := rfl
    transportR := rfl
    paired := trivial }⟩

theorem known_first : pairKnown.idxOf (plainMember [] 1).publicIdentity = 0 := by decide +kernel

theorem known_second : pairKnown.idxOf (plainMember [] 2).publicIdentity = 1 := by decide +kernel

/-- A known identity is read back. -/
theorem working_identity_json {i : MeshPublicIdentity} {n : Nat} (hindex : pairKnown.idxOf i = n)
    (hget : pairKnown[(UInt8.ofNat n).toNat]? = some i) :
    (workingLibs pairKnown).parseIdentity ((workingLibs pairKnown).identityJson i) = .ok i ∧
      ((workingLibs pairKnown).identityJson i).length + 16 ≤ 65535 := by
  have hjson : (workingLibs pairKnown).identityJson i = [UInt8.ofNat n] := by
    rw [← hindex]
    rfl
  rw [hjson]
  refine ⟨orError_eq_ok.mpr hget, ?_⟩
  rw [List.length_singleton]
  decide

theorem working_base64Encode (known : List MeshPublicIdentity) (bytes : List UInt8) :
    (workingLibs known).base64Encode bytes = String.ofList (hexEncode bytes) := rfl

theorem working_messageJson (known : List MeshPublicIdentity) (m : MeshMessage) :
    (workingLibs known).messageJson m = plainMessageJson m := rfl

theorem working_parseMessage (known : List MeshPublicIdentity) (bytes : List UInt8) :
    (workingLibs known).parseMessage bytes = plainParseMessage bytes := rfl

/-- The libraries in the clear work. -/
theorem plain_working :
    Working (workingLibs pairKnown) (fun _ _ _ => True) IsMember where
  noise := plain_session pairKnown
  paired_symm _ := trivial
  message := by
    intro n s t plain _ hsize
    refine ⟨plainSeal plain, s, t, if_pos hsize, ?_, ?_, trivial⟩
    · simpa [plainSeal] using hsize
    · simp [workingLibs, plainLibs, plainOpen_plainSeal, Except.map]
  encapsulate := fun _ random => ⟨_, _, rfl, length_littleEndian .., rfl⟩
  encapsulationKey_size := by
    rintro m (rfl | rfl) <;> rfl
  base64 bytes := by
    rw [show (workingLibs pairKnown).base64Decode = _ from rfl]
    simp [plainLibs, workingLibs, orError]
  signature key message := by
    refine ⟨?_, _, rfl, ?_⟩
    · simp [workingLibs, plainLibs, plainSignature, plainPublicKey, key.property]
    · simp [workingLibs, plainLibs]
  identity_json := by
    rintro m (rfl | rfl)
    · exact working_identity_json known_first rfl
    · exact working_identity_json known_second rfl
  pqExchange_json ciphertext hsize := by
    have hlength : ciphertext.length = 2 := hsize
    rw [working_base64Encode, working_messageJson, working_parseMessage, plainParseMessage_hex,
      length_plainMessageJson, hlength]
    exact ⟨rfl, by decide⟩

/-- The two daemons complete the handshake. -/
theorem pair_concludes : ∃ a b,
    Concludes (initiateHandshake (workingMember pairKnown 1) ⟨List.replicate 32 7, [3, 4]⟩)
      (respondHandshake (workingMember pairKnown 2) ⟨List.replicate 32 8, [5, 6]⟩) a b ∧
    Agreed (workingMember pairKnown 1) (workingMember pairKnown 2) a b :=
  handshake_concludes plain_working (.inl rfl) (.inr rfl) _ _

end OsModa.Mesh
