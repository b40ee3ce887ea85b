import OsModa.Base.JsValue

/-!
The content of the credential store, and what its operations make of it.

Every operation loads the store, changes what it loaded and saves it. One credential is the
default, from the first that is added to the last that is removed.
-/

namespace OsModa.Gateway

open OsModa.Js

/-- The outcome of the last test of a credential. -/
structure CredentialTest where
  testedAt : JsString
  ok : Bool
  error : Option JsString

/-- A credential. Requests and legacy files may give any values for most of it. -/
structure StoredCredential where
  id : JsString
  label : Value
  provider : Option Value
  type : Option Value
  secret : Value
  baseUrl : Option Value
  createdAt : JsString
  lastTest : Option CredentialTest
  /-- Until when the credential is parked, and why. -/
  cooldownUntil : Option Nat
  cooldownReason : Option JsString

/-- A credential as it is added: `Omit<Credential, "id" | "created_at">`. -/
structure NewCredential where
  label : Value
  provider : Option Value
  type : Option Value
  secret : Value
  baseUrl : Option Value

/-- A credential that has just been added, as it is stored. -/
def NewCredential.stored (c : NewCredential) (id createdAt : JsString) : StoredCredential where
  id := id
  label := c.label.saved
  provider := c.provider.map Value.saved
  type := c.type.map Value.saved
  secret := c.secret.saved
  baseUrl := c.baseUrl.map Value.saved
  createdAt := createdAt
  lastTest := none
  cooldownUntil := none
  cooldownReason := none

structure CredentialsFile where
  defaultId : Option JsString
  credentials : List StoredCredential

namespace CredentialsFile

variable (file : CredentialsFile)

/-- `emptyFile` -/
def empty : CredentialsFile := ⟨none, []⟩

def getCredential (id : JsString) : Option StoredCredential :=
  file.credentials.find? fun c => c.id = id

/-- The first credential is the default. -/
def addCredential (c : StoredCredential) : CredentialsFile where
  defaultId := if file.defaultId.any (· ≠ []) then file.defaultId else some c.id
  credentials := file.credentials ++ [c]

def removeCredential (id : JsString) : Option CredentialsFile :=
  if (getCredential file id).isSome then
    let credentials := file.credentials.eraseP fun c => c.id = id
    some { credentials, defaultId :=
      if file.defaultId = some id then (credentials.head?.map StoredCredential.id).filter (· ≠ [])
      else file.defaultId }
  else none

def setDefault (id : JsString) : Option CredentialsFile :=
  if (getCredential file id).isSome then some { file with defaultId := some id } else none

/-- The first credential with an id is changed. -/
def updateFirst (id : JsString) (f : StoredCredential → StoredCredential) :
    List StoredCredential → List StoredCredential
  | [] => []
  | c :: rest => if c.id = id then f c :: rest else c :: updateFirst id f rest

/-- `updateCredentialMeta` -/
def updateMeta (id : JsString) (f : StoredCredential → StoredCredential) :
    Option CredentialsFile :=
  if (getCredential file id).isSome then
    some { file with credentials := updateFirst id f file.credentials }
  else none

/-- Park a credential. -/
def markCooldown (id reason : JsString) (until' : Nat) : Option CredentialsFile :=
  updateMeta file id fun c =>
    { c with cooldownUntil := some until', cooldownReason := some reason }

end CredentialsFile

/-- The credential is currently in cooldown. -/
def StoredCredential.isCooldown (c : StoredCredential) (now : Nat) : Bool :=
  c.cooldownUntil.any fun until' => now < until'

/-- Two credentials are of the same provider and type. -/
def StoredCredential.sameKind (c d : StoredCredential) : Bool :=
  Value.strictEq c.provider d.provider && Value.strictEq c.type d.type

/-- The next healthy credential of the same provider and type. -/
def CredentialsFile.pickFallback (file : CredentialsFile) (failed : StoredCredential) (now : Nat) :
    Option StoredCredential :=
  let candidates := file.credentials.filter fun c =>
    c.id ≠ failed.id && c.sameKind failed && !c.isCooldown now
  -- The default if it is one of them, else the first.
  (candidates.find? fun c => some c.id = file.defaultId).or candidates.head?

namespace CredentialsFile

variable {file : CredentialsFile}

theorem mem_of_getCredential {id : JsString} {c : StoredCredential}
    (h : file.getCredential id = some c) : c ∈ file.credentials ∧ c.id = id :=
  ⟨List.mem_of_find?_eq_some h, by simpa using List.find?_some h⟩

/-- A fallback is another healthy credential of the same kind. -/
theorem of_pickFallback {failed c : StoredCredential} {now : Nat}
    (h : file.pickFallback failed now = some c) :
    c ∈ file.credentials ∧ c.id ≠ failed.id ∧ c.sameKind failed = true ∧
      c.isCooldown now = false := by
  have hcandidate : c ∈ file.credentials.filter fun c =>
      c.id ≠ failed.id && c.sameKind failed && !c.isCooldown now := by
    rw [pickFallback, Option.or_eq_some_iff] at h
    rcases h with hdefault | ⟨-, hfirst⟩
    · exact List.mem_of_find?_eq_some hdefault
    · exact List.mem_of_mem_head? hfirst
  simpa [and_assoc] using hcandidate

/-- There is a fallback if a credential can be one. -/
theorem pickFallback_eq_none {failed : StoredCredential} {now : Nat} :
    file.pickFallback failed now = none ↔ ∀ c ∈ file.credentials, c.id ≠ failed.id →
      c.sameKind failed = true → c.isCooldown now = true := by
  rw [pickFallback, Option.or_eq_none_iff, List.head?_eq_none_iff, List.filter_eq_nil_iff]
  constructor
  · rintro ⟨-, hnone⟩ c hc hother hkind
    simpa [hother, hkind] using hnone c hc
  · intro h
    have hnone : ∀ c ∈ file.credentials, ¬ (c.id ≠ failed.id && c.sameKind failed &&
        !c.isCooldown now) = true := by
      intro c hc hcandidate
      simp only [Bool.and_eq_true, decide_eq_true_eq, Bool.not_eq_true'] at hcandidate
      rw [h c hc hcandidate.1.1 hcandidate.1.2] at hcandidate
      cases hcandidate.2
    refine ⟨?_, hnone⟩
    rw [List.filter_eq_nil_iff.mpr hnone, List.find?_nil]

@[simp] theorem ids_updateFirst {f : StoredCredential → StoredCredential}
    (hf : ∀ c, (f c).id = c.id) (id : JsString) (l : List StoredCredential) :
    (updateFirst id f l).map StoredCredential.id = l.map StoredCredential.id := by
  induction l with
  | nil => rfl
  | cons c rest ih =>
    rw [updateFirst]
    split
    · rw [List.map_cons, hf, List.map_cons]
    · rw [List.map_cons, ih, List.map_cons]

end CredentialsFile

end OsModa.Gateway
