import OsModa.Base.Encoding
import OsModa.Gateway.Credentials

/-!
The credential store in its two files, the encrypted credentials and the key.

Any read may fail, and then the store is taken for an empty one, or the key for one that has yet to
be made. What the files hold is what reads that succeed would find (`contents`).
-/

namespace OsModa.Gateway

open OsModa.Js OsModa.Encoding

/-- What the text of `credentials.json.enc` is, with `E` for what makes up an envelope: the vector,
the tag and the ciphertext. -/
inductive CredentialsText (E : Type) where
  /-- No envelope, so it is parsed as it is; `none` if it is no store. -/
  | plain (file : Option CredentialsFile)
  | malformed
  | envelope (e : E)

/-- A credential as it is read back after it was written. -/
def StoredCredential.saved (c : StoredCredential) : StoredCredential :=
  { c with
    label := c.label.saved
    provider := c.provider.map Value.saved
    type := c.type.map Value.saved
    secret := c.secret.saved
    baseUrl := c.baseUrl.map Value.saved }

def CredentialsFile.saved (f : CredentialsFile) : CredentialsFile :=
  { f with credentials := f.credentials.map StoredCredential.saved }

/-- The environment, and AES-256-GCM over the text of a store. -/
structure StorePlatform (E : Type) where
  /-- `OSMODA_CREDSTORE_KEY`, if it is a key. -/
  envKey : Option Bytes32
  encrypt : (key iv : List UInt8) → CredentialsFile → E
  decrypt : (key : List UInt8) → E → Option CredentialsFile
  decrypt_encrypt : ∀ key iv file, decrypt key (encrypt key iv file) = some file.saved

/-- The files; `none` if there is none. -/
structure CredentialFiles (E : Type) where
  creds : Option (CredentialsText E)
  key : Option (List UInt8)

/-- One read of the key, with the key that is made if there is none. -/
structure KeyRead where
  fails : Bool
  fresh : Bytes32

/-- One read of the store. -/
structure StoreRead where
  fails : Bool
  key : KeyRead

structure StoreWrite where
  key : KeyRead
  iv : List UInt8

/-- What one operation finds besides. -/
structure StoreMoment where
  load : StoreRead
  save : StoreWrite
  random : JsString
  now : JsString

/-- `newId` -/
def newCredentialId (random : JsString) : JsString := utf16 "cred_" ++ random

namespace StorePlatform

variable {E : Type} (p : StorePlatform E)

/-- The key, and the key file after asking for it. -/
def masterKey (r : KeyRead) (file : Option (List UInt8)) : List UInt8 × Option (List UInt8) :=
  match p.envKey with
  | some key => (key.val, file)
  | none =>
    match if r.fails then none else file with
    | some raw => if 32 ≤ raw.length then (raw.take 32, file) else (r.fresh.val, some r.fresh.val)
    | none => (r.fresh.val, some r.fresh.val)

/-- The key that is there. -/
def keyOf (file : Option (List UInt8)) : Option (List UInt8) :=
  match p.envKey with
  | some key => some key.val
  | none => (file.filter fun raw => 32 ≤ raw.length).map (List.take 32)

def loadCredentials (r : StoreRead) (d : CredentialFiles E) : CredentialsFile × CredentialFiles E :=
  match if r.fails then none else d.creds with
  | none | some .malformed => (.empty, d)
  | some (.plain file) => (file.getD .empty, d)
  | some (.envelope e) =>
    let (key, keyFile) := p.masterKey r.key d.key
    ((p.decrypt key e).getD .empty, { d with key := keyFile })

def saveCredentials (w : StoreWrite) (file : CredentialsFile) (d : CredentialFiles E) :
    CredentialFiles E :=
  let (key, keyFile) := p.masterKey w.key d.key
  ⟨some (.envelope (p.encrypt key w.iv file)), keyFile⟩

def addCredential (c : NewCredential) (w : StoreMoment) (d : CredentialFiles E) : CredentialFiles E :=
  let (file, d) := p.loadCredentials w.load d
  p.saveCredentials w.save (file.addCredential (c.stored (newCredentialId w.random) w.now)) d

/-- `removeCredential`, `setDefault` and `updateCredentialMeta`: nothing is saved if there is no
such credential. -/
def updateCredentials (f : CredentialsFile → Option CredentialsFile) (w : StoreMoment)
    (d : CredentialFiles E) : CredentialFiles E :=
  let (file, d) := p.loadCredentials w.load d
  match f file with
  | some file => p.saveCredentials w.save file d
  | none => d

/-- What the files hold; `none` if that cannot be told. -/
def contents (d : CredentialFiles E) : Option CredentialsFile :=
  match d.creds with
  | none => some .empty
  | some (.plain file) => file
  | some .malformed => none
  | some (.envelope e) => (p.keyOf d.key).bind fun key => p.decrypt key e

end StorePlatform

/-! ### Keys -/

section Keys

variable {E : Type} {p : StorePlatform E} {r : KeyRead} {file : Option (List UInt8)}

@[simp] theorem keyOf_fresh (h : p.envKey = none) (fresh : Bytes32) :
    p.keyOf (some fresh.val) = some fresh.val := by
  simp [StorePlatform.keyOf, h, fresh.property, List.take_of_length_le]

/-- The key that was asked for is the key that is there afterwards. -/
theorem keyOf_masterKey : p.keyOf (p.masterKey r file).2 = some (p.masterKey r file).1 := by
  cases henv : p.envKey with
  | some key => simp [StorePlatform.keyOf, StorePlatform.masterKey, henv]
  | none =>
    simp only [StorePlatform.masterKey, henv]
    split
    · rename_i raw hread
      split
      · rename_i hlong
        have hfile : file = some raw := by
          split at hread
          · cases hread
          · exact hread
        simp [StorePlatform.keyOf, henv, hfile, hlong]
      · exact keyOf_fresh henv r.fresh
    · exact keyOf_fresh henv r.fresh

/-- The key is there and is read. -/
def KeyRead.Finds (r : KeyRead) (p : StorePlatform E) (file : Option (List UInt8)) : Prop :=
  p.envKey = none → r.fails = false ∧ (p.keyOf file).isSome

theorem masterKey_of_finds (h : r.Finds p file) :
    (p.masterKey r file).2 = file ∧ p.keyOf file = some (p.masterKey r file).1 := by
  have hsame : (p.masterKey r file).2 = file := by
    cases henv : p.envKey with
    | some key => simp [StorePlatform.masterKey, henv]
    | none =>
      obtain ⟨hread, hkey⟩ := h henv
      cases file with
      | none => simp [StorePlatform.keyOf, henv] at hkey
      | some raw =>
        have hlong : 32 ≤ raw.length := by simpa [StorePlatform.keyOf, henv] using hkey
        simp [StorePlatform.masterKey, henv, hread, hlong]
  refine ⟨hsame, ?_⟩
  rw [← keyOf_masterKey, hsame]

end Keys

/-! ### Loading and saving -/

section Files

variable {E : Type} {p : StorePlatform E} {d : CredentialFiles E}

/-- A store that was saved can be read. -/
theorem contents_saveCredentials (w : StoreWrite) (file : CredentialsFile) :
    p.contents (p.saveCredentials w file d) = some file.saved := by
  rw [StorePlatform.saveCredentials, StorePlatform.contents]
  dsimp only
  rw [keyOf_masterKey, Option.bind_some, p.decrypt_encrypt]

/-- Loading an encrypted store makes no new key. -/
def StoreRead.KeepsKey (r : StoreRead) (p : StorePlatform E) (d : CredentialFiles E) : Prop :=
  ∀ e, d.creds = some (.envelope e) → r.fails = false → r.key.Finds p d.key

/-- Loading reads what is there. -/
structure StoreRead.Finds (r : StoreRead) (p : StorePlatform E) (d : CredentialFiles E) : Prop where
  read : d.creds.isSome → r.fails = false ∧ (p.contents d).isSome
  keepsKey : r.KeepsKey p d

/-- Without a new key, loading changes nothing, and gives what is there or nothing. -/
theorem loadCredentials_of_keepsKey {r : StoreRead} (h : r.KeepsKey p d) :
    (p.loadCredentials r d).2 = d ∧
      ((p.loadCredentials r d).1 = .empty ∨ p.contents d = some (p.loadCredentials r d).1) := by
  obtain ⟨creds, key⟩ := d
  rw [StorePlatform.loadCredentials, StorePlatform.contents]
  by_cases hfails : r.fails = true
  · rw [if_pos hfails]
    exact ⟨rfl, .inl rfl⟩
  · rw [if_neg hfails]
    match creds with
    | none => exact ⟨rfl, .inl rfl⟩
    | some .malformed => exact ⟨rfl, .inl rfl⟩
    | some (.plain none) => exact ⟨rfl, .inl rfl⟩
    | some (.plain (some file)) => exact ⟨rfl, .inr rfl⟩
    | some (.envelope e) =>
      obtain ⟨hsame, hkey⟩ := masterKey_of_finds (h e rfl (Bool.eq_false_iff.mpr hfails))
      dsimp only at hsame hkey ⊢
      rw [hsame, hkey, Option.bind_some]
      refine ⟨rfl, ?_⟩
      cases p.decrypt (p.masterKey r.key key).1 e with
      | none => exact .inl rfl
      | some file => exact .inr rfl

theorem loadCredentials_of_finds {r : StoreRead} (h : r.Finds p d) :
    ∃ file, p.loadCredentials r d = (file, d) ∧ p.contents d = some file := by
  obtain ⟨hsame, hfound⟩ := loadCredentials_of_keepsKey h.keepsKey
  refine ⟨(p.loadCredentials r d).1, Prod.ext rfl hsame, ?_⟩
  rcases hfound with hempty | hfound
  · cases hcreds : d.creds with
    | none =>
      rw [hempty, StorePlatform.contents, hcreds]
    | some text =>
      obtain ⟨hread, hcontents⟩ := h.read (by rw [hcreds]; rfl)
      obtain ⟨file, hfile⟩ := Option.isSome_iff_exists.mp hcontents
      rw [hfile, StorePlatform.loadCredentials, hread, hcreds]
      rw [StorePlatform.contents, hcreds] at hfile
      cases text with
      | plain f =>
        dsimp only at hfile ⊢
        rw [if_neg Bool.false_ne_true, hfile]
        rfl
      | malformed => cases hfile
      | envelope e =>
        obtain ⟨-, hkey⟩ := masterKey_of_finds (h.keepsKey e hcreds hread)
        dsimp only at hfile ⊢
        rw [hkey, Option.bind_some] at hfile
        rw [if_neg Bool.false_ne_true]
        dsimp only
        rw [hfile]
        rfl
  · exact hfound

end Files

/-! ### What operations keep -/

/-- A credential that is as another, once written. -/
def StoredCredential.SavedAs (c c' : StoredCredential) : Prop := c'.saved = c.saved

/-- A store that cannot be read is left as it is; of one that can, every credential is kept but for
those that are named. -/
structure CredentialFiles.Keeps {E : Type} (p : StorePlatform E) (named : JsString → Prop)
    (d d' : CredentialFiles E) : Prop where
  unread : p.contents d = none → d' = d
  kept : ∀ file, p.contents d = some file → ∃ file', p.contents d' = some file' ∧
    ∀ c ∈ file.credentials, ¬ named c.id → ∃ c' ∈ file'.credentials, c.SavedAs c'

/-- There is a default exactly if there are credentials, and it is one of them. -/
structure CredentialsFile.DefaultOk (file : CredentialsFile) : Prop where
  none_iff : file.defaultId = none ↔ file.credentials = []
  exists_of : ∀ id, file.defaultId = some id → ∃ c ∈ file.credentials, c.id = id

section Keeps

variable {E : Type} {p : StorePlatform E} {named : JsString → Prop} {d d' : CredentialFiles E}

theorem CredentialFiles.Keeps.refl : d.Keeps p named d :=
  ⟨fun _ => rfl, fun file h => ⟨file, h, fun c hc _ => ⟨c, hc, rfl⟩⟩⟩

theorem saved_saved_credential (c : StoredCredential) : c.saved.saved = c.saved := by
  simp only [StoredCredential.saved, Value.saved_saved, Value.map_saved_saved]

/-- What is saved holds a credential if what was to be saved does. -/
theorem kept_saved {file file' : CredentialsFile}
    (h : ∀ c ∈ file.credentials, ¬ named c.id → ∃ c' ∈ file'.credentials, c.SavedAs c') :
    ∀ c ∈ file.credentials, ¬ named c.id → ∃ c' ∈ file'.saved.credentials, c.SavedAs c' := by
  intro c hc hother
  obtain ⟨c', hc', hsaved⟩ := h c hc hother
  refine ⟨c'.saved, List.mem_map_of_mem hc', ?_⟩
  rw [StoredCredential.SavedAs, saved_saved_credential]
  exact hsaved

theorem keeps_save {file file' : CredentialsFile} (hfile : p.contents d = some file)
    (h : ∀ c ∈ file.credentials, ¬ named c.id → ∃ c' ∈ file'.credentials, c.SavedAs c')
    (w : StoreWrite) : d.Keeps p named (p.saveCredentials w file' d) := by
  refine ⟨fun hnone => ?_, fun f hf => ⟨file'.saved, contents_saveCredentials w file', ?_⟩⟩
  · rw [hfile] at hnone
    cases hnone
  · obtain rfl := Option.some.inj (hfile.symm.trans hf)
    exact kept_saved h

theorem keeps_addCredential {w : StoreMoment} (h : w.load.Finds p d) (c : NewCredential) :
    d.Keeps p named (p.addCredential c w d) := by
  obtain ⟨file, hload, hfile⟩ := loadCredentials_of_finds h
  rw [StorePlatform.addCredential, hload]
  exact keeps_save hfile (fun c hc _ => ⟨c, List.mem_append_left _ hc, rfl⟩) _

theorem keeps_updateCredentials {w : StoreMoment} (h : w.load.KeepsKey p d)
    {f : CredentialsFile → Option CredentialsFile} (hempty : f .empty = none)
    (hkeep : ∀ file file', f file = some file' →
      ∀ c ∈ file.credentials, ¬ named c.id → ∃ c' ∈ file'.credentials, c.SavedAs c') :
    d.Keeps p named (p.updateCredentials f w d) := by
  obtain ⟨hsame, hfound⟩ := loadCredentials_of_keepsKey h
  rw [StorePlatform.updateCredentials]
  dsimp only
  rw [hsame]
  split
  · rename_i file' hupdate
    rcases hfound with hnothing | hfound
    · rw [hnothing, hempty] at hupdate
      cases hupdate
    · exact keeps_save hfound (hkeep _ _ hupdate) _
  · exact .refl

end Keeps

end OsModa.Gateway
