import OsModa.Base.Encoding
import OsModa.Base.Outcome
import OsModa.Mesh.Messages

/-!
Mesh identities: the keys of a daemon, the public identity that it shows to its
peers, and the check that a public identity is signed.

A public identity is signed by the Ed25519 key that it names itself, over its
canonical JSON. The primitives of the libraries are the fields of `MeshLibs`.
-/

namespace OsModa.Mesh

open OsModa.Encoding

/-! ### Public identities -/

/-- Public identity of a mesh peer. Signed by Ed25519 for authenticity. -/
structure MeshPublicIdentity where
  instanceId : String
  ed25519Pubkey : String
  noiseStaticPubkey : String
  mlkemEncapKey : String
  capabilities : List String
  signature : Option String
  deriving DecidableEq

/-- A JSON object, from its members in order. -/
def jsonObject (members : List (String × List Char)) : List Char :=
  '{' :: (List.intercalate [','] (members.map fun (key, value) =>
    jsonString key.toList ++ ':' :: value)) ++ ['}']

def jsonArray (elements : List (List Char)) : List Char :=
  '[' :: List.intercalate [','] elements ++ [']']

/-- The canonical JSON for signing: the signature is left out, and the members are
in the order of a `BTreeMap`. -/
def canonicalJson (identity : MeshPublicIdentity) : List UInt8 :=
  utf8 (jsonObject
    [("capabilities", jsonArray (identity.capabilities.map fun c => jsonString c.toList)),
     ("ed25519_pubkey", jsonString identity.ed25519Pubkey.toList),
     ("instance_id", jsonString identity.instanceId.toList),
     ("mlkem_encap_key", jsonString identity.mlkemEncapKey.toList),
     ("noise_static_pubkey", jsonString identity.noiseStaticPubkey.toList)])

/-! ### Libraries -/

/-- What the mesh uses of the libraries for Noise, ML-KEM, Ed25519, the hashes,
ChaCha20-Poly1305, base64, hexadecimal and JSON. Randomness is an argument. -/
structure MeshLibs where
  /-- The states of `snow`: a `Noise_XX` handshake, and the transport after it. -/
  Handshake : Type
  Transport : Type
  /-- Start a handshake with randomness and the static private key. -/
  buildInitiator : List UInt8 → List UInt8 → Except String Handshake
  buildResponder : List UInt8 → List UInt8 → Except String Handshake
  /-- The next message of a handshake, which carries no payload. -/
  writeHandshake : Handshake → Except String (List UInt8 × Handshake)
  readHandshake : List UInt8 → Handshake → Except String Handshake
  handshakeHash : Handshake → List UInt8
  intoTransportMode : Handshake → Except String Transport
  remoteStatic : Transport → Option (List UInt8)
  /-- Encrypt or decrypt one message. A failed call leaves the state as it was. -/
  writeMessage : List UInt8 → Transport → Except String (List UInt8 × Transport)
  readMessage : List UInt8 → Transport → Except String (List UInt8 × Transport)
  /-- The sizes of ML-KEM-768 values. -/
  encapKeySize : Nat
  decapKeySize : Nat
  ciphertextSize : Nat
  encapsulationKey : List UInt8 → List UInt8
  /-- The ciphertext and the shared secret, from randomness and a key of its size. -/
  encapsulate : List UInt8 → List UInt8 → Option (List UInt8 × List UInt8)
  decapsulate : List UInt8 → List UInt8 → Option (List UInt8)
  ed25519PublicKey : Bytes32 → Bytes32
  ed25519Sign : Bytes32 → List UInt8 → List UInt8
  /-- `verify_strict` of a public key: a message and a signature of 64 bytes. -/
  verifyingKey : Bytes32 → Except String (List UInt8 → List UInt8 → Bool)
  sha256 : List UInt8 → List UInt8
  /-- HKDF-SHA256 without salt: 32 bytes for key material and an info string. -/
  hkdf : List UInt8 → List UInt8 → Bytes32
  /-- ChaCha20-Poly1305 under a key and a nonce of 12 bytes. -/
  pqEncrypt : Bytes32 → List UInt8 → List UInt8 → List UInt8
  pqDecrypt : Bytes32 → List UInt8 → List UInt8 → Except String (List UInt8)
  base64Encode : List UInt8 → String
  base64Decode : String → Except String (List UInt8)
  /-- The text of the error for a string that is not hexadecimal. -/
  hexError : String → String
  identityJson : MeshPublicIdentity → List UInt8
  parseIdentity : List UInt8 → Except String MeshPublicIdentity
  messageJson : MeshMessage → List UInt8
  parseMessage : List UInt8 → Except String MeshMessage

/-! ### Identities -/

variable (L : MeshLibs)

/-- Complete mesh identity including private keys. -/
structure MeshIdentity where
  ed25519SigningKey : Bytes32
  noisePrivate : Bytes32
  noisePublic : Bytes32
  mlkemDk : List UInt8
  mlkemDk_size : mlkemDk.length = L.decapKeySize

/-- The instance id of a Noise static public key. -/
def instanceIdOf (noisePublic : List UInt8) : String :=
  String.ofList (hexEncode ((L.sha256 noisePublic).take 16))

variable {L}

namespace MeshIdentity

/-- The public identity before it is signed. -/
def unsignedIdentity (m : MeshIdentity L) : MeshPublicIdentity where
  instanceId := instanceIdOf L m.noisePublic.val
  ed25519Pubkey := String.ofList (hexEncode (L.ed25519PublicKey m.ed25519SigningKey).val)
  noiseStaticPubkey := String.ofList (hexEncode m.noisePublic.val)
  mlkemEncapKey := L.base64Encode (L.encapsulationKey m.mlkemDk)
  capabilities := ["mesh.v1"]
  signature := none

def publicIdentity (m : MeshIdentity L) : MeshPublicIdentity :=
  { m.unsignedIdentity with
    signature := some (String.ofList (hexEncode
      (L.ed25519Sign m.ed25519SigningKey (canonicalJson m.unsignedIdentity)))) }

/-- Decapsulate a shared secret from a ciphertext using our decapsulation key. -/
def mlkemDecapsulate (m : MeshIdentity L) (ciphertext : List UInt8) : Except String (List UInt8) :=
  if m.mlkemDk.length ≠ L.decapKeySize then .error "invalid ML-KEM DK length"
  else if ciphertext.length ≠ L.ciphertextSize then .error "invalid ML-KEM ciphertext length"
  else orError (L.decapsulate m.mlkemDk ciphertext) "ML-KEM decapsulation failed"

end MeshIdentity

variable (L)

/-- Encapsulate a shared secret to a peer's ML-KEM encapsulation key. -/
def mlkemEncapsulate (random : List UInt8) (peerEkBase64 : String) :
    Except String (List UInt8 × List UInt8) :=
  (L.base64Decode peerEkBase64).bind fun ek =>
    if ek.length ≠ L.encapKeySize then .error "invalid ML-KEM EK length"
    else orError (L.encapsulate random ek) "ML-KEM encapsulation failed"

/-- Verify the signature on a public identity. -/
def verifyIdentity (identity : MeshPublicIdentity) : Except String Bool :=
  (orError identity.signature "identity has no signature").bind fun sigHex =>
  (orError (hexDecode? sigHex.toList) (L.hexError sigHex)).bind fun sig =>
  if sig.length ≠ 64 then .error ("invalid signature length: " ++ toString sig.length)
  else
    (orError (hexDecode? identity.ed25519Pubkey.toList)
      (L.hexError identity.ed25519Pubkey)).bind fun pubkey =>
    (orError (toBytes32 pubkey)
      ("invalid ed25519 pubkey length: " ++ toString pubkey.length)).bind fun key =>
    (L.verifyingKey key).bind fun verifyStrict => .ok (verifyStrict (canonicalJson identity) sig)

variable {L}

theorem mlkemDecapsulate_ok {m : MeshIdentity L} {ciphertext secret : List UInt8}
    (h : m.mlkemDecapsulate ciphertext = .ok secret) :
    L.decapsulate m.mlkemDk ciphertext = some secret := by
  unfold MeshIdentity.mlkemDecapsulate at h
  split at h
  · cases h
  · split at h
    · cases h
    · exact orError_eq_ok.mp h

theorem mlkemEncapsulate_ok {random : List UInt8} {ekText : String}
    {out : List UInt8 × List UInt8} (h : mlkemEncapsulate L random ekText = .ok out) :
    ∃ ek, L.base64Decode ekText = .ok ek ∧ L.encapsulate random ek = some out := by
  obtain ⟨ek, hek, h⟩ := bind_eq_ok.mp h
  split at h
  · cases h
  · exact ⟨ek, hek, orError_eq_ok.mp h⟩

end OsModa.Mesh
