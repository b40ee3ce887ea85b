import OsModa.Base.Machine
import OsModa.Mesh.PlainLibs
import Mathlib.Logic.Function.Basic

/-!
The identity of a mesh daemon on disk, across starts, crashes and rotations.

The keys are in four files that are written one after the other, and a start makes new ones only
if a file is missing. A daemon that has started or rotated runs with what is on disk, so a restart
gives it the same identity (`identity_survives`). A write that is cut short leaves either a missing
file, and the next start makes a new identity, or a short `mlkem.dk`, and no later start succeeds
(`damaged_forever`); keys of two identities are mixed only after a rotation that could not remove
the old files (`identity_whole`).
-/

namespace OsModa.Mesh

open OsModa.Encoding OsModa.Machine

/-! ### The files -/

inductive KeyFile where
  | ed25519Key
  | noiseKey
  | noisePub
  | mlkemDk
  deriving DecidableEq

/-- The data directory: which key files there are, and what is in them. -/
abbrev KeyDir := KeyFile → Option (List UInt8)

/-- A write that goes wrong: how much of the data it leaves in the file, or none if the file is
left as it was. -/
structure WriteFault where
  written : Option Nat
  error : String

/-- How the disk answers in one call. -/
structure DiskEnv where
  createDir : Except String Unit
  readFault : KeyFile → Bool
  writeFault : KeyFile → Option WriteFault
  /-- The write of `identity.json`, which nothing reads. -/
  jsonFault : Option String

/-- A disk without faults. -/
def DiskEnv.sound : DiskEnv := ⟨.ok (), fun _ => false, fun _ => none, none⟩

section Files

variable (env : DiskEnv)

def readFile (dir : KeyDir) (file : KeyFile) (context : String) : Except String (List UInt8) :=
  if env.readFault file then .error context else orError (dir file) context

def writeFile (file : KeyFile) (data : List UInt8) (dir : KeyDir) : Except String Unit × KeyDir :=
  match env.writeFault file with
  | none => (.ok (), Function.update dir file (some data))
  | some fault =>
    (.error fault.error,
      match fault.written with
      | none => dir
      | some n => Function.update dir file (some (data.take n)))

/-- Files are written in order, up to the first that fails. -/
def writeFiles : List (KeyFile × List UInt8) → KeyDir → Except String Unit × KeyDir
  | [], dir => (.ok (), dir)
  | (file, data) :: rest, dir =>
    match writeFile env file data dir with
    | (.ok (), dir) => writeFiles rest dir
    | (.error e, dir) => (.error e, dir)

end Files

/-! ### Loading and creating -/

variable {L : MeshLibs}

namespace MeshIdentity

/-- The directory that holds an identity. -/
def files (m : MeshIdentity L) : KeyDir
  | .ed25519Key => some m.ed25519SigningKey.val
  | .noiseKey => some m.noisePrivate.val
  | .noisePub => some m.noisePublic.val
  | .mlkemDk => some m.mlkemDk

/-- Save private keys to disk. -/
def saveToDisk (env : DiskEnv) (m : MeshIdentity L) : KeyDir → Except String Unit × KeyDir :=
  writeFiles env
    [(.ed25519Key, m.ed25519SigningKey.val), (.noiseKey, m.noisePrivate.val),
      (.noisePub, m.noisePublic.val), (.mlkemDk, m.mlkemDk)]

/-- Load identity from disk. -/
def loadFromDisk (env : DiskEnv) (dir : KeyDir) : Except String (MeshIdentity L) :=
  (readFile env dir .ed25519Key "failed to read ed25519 key").bind fun ed25519 =>
  (orError (toBytes32 ed25519)
    ("ed25519 key has invalid length: " ++ toString ed25519.length)).bind fun signingKey =>
  -- Noise X25519: both private and public
  (readFile env dir .noiseKey "failed to read noise key").bind fun noisePrivate =>
  (readFile env dir .noisePub "failed to read noise public key").bind fun noisePublic =>
  (orError (toBytes32 noisePrivate)
    ("noise private key has invalid length: " ++ toString noisePrivate.length)).bind fun priv =>
  (orError (toBytes32 noisePublic)
    ("noise public key has invalid length: " ++ toString noisePublic.length)).bind fun pub =>
  (readFile env dir .mlkemDk "failed to read ML-KEM dk").bind fun dk =>
  if h : dk.length = L.decapKeySize then .ok ⟨signingKey, priv, pub, dk, h⟩
  else .error "invalid ML-KEM DK length"

/-- Load an existing identity from disk, or store the generated one. -/
def loadOrCreate (env : DiskEnv) (generated : MeshIdentity L) (dir : KeyDir) :
    Except String (MeshIdentity L) × KeyDir :=
  match env.createDir with
  | .error e => (.error e, dir)
  | .ok () =>
    if (dir .ed25519Key).isSome && (dir .noiseKey).isSome && (dir .noisePub).isSome &&
        (dir .mlkemDk).isSome then
      (loadFromDisk env dir, dir)
    else
      match generated.saveToDisk env dir with
      | (.error e, dir) => (.error e, dir)
      | (.ok (), dir) =>
        match env.jsonFault with
        | some e => (.error e, dir)
        | none => (.ok generated, dir)

end MeshIdentity

/-! ### The daemon -/

structure IdentityState (L : MeshLibs) where
  dir : KeyDir
  running : Option (MeshIdentity L)

inductive IdentityOp (L : MeshLibs) where
  | start (env : DiskEnv) (generated : MeshIdentity L)
  /-- POST /identity/rotate; `stuck` are the files that cannot be removed. -/
  | rotate (env : DiskEnv) (stuck : KeyFile → Bool) (generated : MeshIdentity L)
  /-- The process ends, or is killed. -/
  | stop

inductive IdentityReply where
  | started (instanceId : String)
  | startFailed (error : String)
  | rotated (newInstanceId ed25519 noise : String)
  | rotateFailed (status : Nat) (error : String)
  | idle
  deriving DecidableEq

/-- The directory after the key files have been deleted; that one could not be is only logged. -/
def removeKeys (stuck : KeyFile → Bool) (dir : KeyDir) : KeyDir :=
  fun file => if stuck file then dir file else none

def rotate (env : DiskEnv) (stuck : KeyFile → Bool) (generated : MeshIdentity L)
    (s : IdentityState L) : IdentityReply × IdentityState L :=
  match MeshIdentity.loadOrCreate env generated (removeKeys stuck s.dir) with
  | (.ok m, dir) =>
    (.rotated m.publicIdentity.instanceId m.publicIdentity.ed25519Pubkey
      m.publicIdentity.noiseStaticPubkey, ⟨dir, some m⟩)
  | (.error e, dir) =>
    (.rotateFailed 500 ("failed to generate new identity: " ++ e), ⟨dir, s.running⟩)

def startDaemon (env : DiskEnv) (generated : MeshIdentity L) (s : IdentityState L) :
    IdentityReply × IdentityState L :=
  match MeshIdentity.loadOrCreate env generated s.dir with
  | (.ok m, dir) => (.started m.publicIdentity.instanceId, ⟨dir, some m⟩)
  -- The process ends.
  | (.error e, dir) => (.startFailed e, ⟨dir, none⟩)

def identityNext (op : IdentityOp L) (s : IdentityState L) : IdentityReply × IdentityState L :=
  match op with
  | .start env generated => if s.running.isSome then (.idle, s) else startDaemon env generated s
  | .rotate env stuck generated =>
    if s.running.isSome then rotate env stuck generated s else (.idle, s)
  | .stop => (.idle, { s with running := none })

abbrev IdentityStep (L : MeshLibs) := Step (IdentityState L) (IdentityOp L) IdentityReply

/-! ### What the files come to -/

section Files

variable {env : DiskEnv} {dir : KeyDir} {m generated : MeshIdentity L} {file : KeyFile}
  {data : List UInt8}

theorem readFile_ok {context : String} (h : readFile env dir file context = .ok data) :
    dir file = some data := by
  unfold readFile at h
  split at h
  · cases h
  · exact orError_eq_ok.mp h

theorem readFile_of_readable (hread : ∀ f, env.readFault f = false) (context : String)
    (hfile : dir file = some data) : readFile env dir file context = .ok data := by
  rw [readFile, hread, hfile]
  rfl

theorem toBytes32_eq_some {bytes : List UInt8} {b : Bytes32} (h : toBytes32 bytes = some b) :
    bytes = b.val := by
  unfold toBytes32 at h
  split at h
  · exact congrArg Subtype.val (Option.some.inj h)
  · cases h

/-- What is loaded is the whole of what is there. -/
theorem loadFromDisk_ok (h : MeshIdentity.loadFromDisk env dir = .ok m) : dir = m.files := by
  obtain ⟨ed25519, hed, h⟩ := bind_eq_ok.mp h
  obtain ⟨signingKey, hsigning, h⟩ := bind_eq_ok.mp h
  obtain ⟨noisePrivate, hpriv, h⟩ := bind_eq_ok.mp h
  obtain ⟨noisePublic, hpub, h⟩ := bind_eq_ok.mp h
  obtain ⟨priv, hprivKey, h⟩ := bind_eq_ok.mp h
  obtain ⟨pub, hpubKey, h⟩ := bind_eq_ok.mp h
  obtain ⟨dk, hdk, h⟩ := bind_eq_ok.mp h
  split at h
  · obtain rfl := Except.ok.inj h
    funext file
    cases file with
    | ed25519Key => rw [readFile_ok hed, toBytes32_eq_some (orError_eq_ok.mp hsigning)]; rfl
    | noiseKey => rw [readFile_ok hpriv, toBytes32_eq_some (orError_eq_ok.mp hprivKey)]; rfl
    | noisePub => rw [readFile_ok hpub, toBytes32_eq_some (orError_eq_ok.mp hpubKey)]; rfl
    | mlkemDk => rw [readFile_ok hdk]; rfl
  · cases h

/-- An identity is loaded as it was stored. -/
theorem loadFromDisk_files (hread : ∀ f, env.readFault f = false) (m : MeshIdentity L) :
    MeshIdentity.loadFromDisk env m.files = .ok m := by
  unfold MeshIdentity.loadFromDisk
  simp only [readFile_of_readable hread _ (rfl : m.files .ed25519Key = some _),
    readFile_of_readable hread _ (rfl : m.files .noiseKey = some _),
    readFile_of_readable hread _ (rfl : m.files .noisePub = some _),
    readFile_of_readable hread _ (rfl : m.files .mlkemDk = some _), Except.bind, toBytes32_val,
    orError, dif_pos m.mlkemDk_size]

theorem files_injective {m' : MeshIdentity L} (h : m.files = m'.files) : m = m' := by
  have hread : ∀ f, DiskEnv.sound.readFault f = false := fun _ => rfl
  have hloaded := loadFromDisk_files hread m
  rw [h, loadFromDisk_files hread m'] at hloaded
  exact (Except.ok.inj hloaded).symm

/-- No file is missing. -/
def Complete (dir : KeyDir) : Prop := ∀ file, dir file ≠ none

theorem complete_files (m : MeshIdentity L) : Complete m.files := by
  intro file
  cases file <;> exact Option.some_ne_none _

theorem complete_iff : ((dir .ed25519Key).isSome && (dir .noiseKey).isSome &&
    (dir .noisePub).isSome && (dir .mlkemDk).isSome) = true ↔ Complete dir := by
  simp only [Bool.and_eq_true, Option.isSome_iff_ne_none, and_assoc]
  constructor
  · rintro ⟨hed, hpriv, hpub, hdk⟩ file
    cases file <;> assumption
  · exact fun h => ⟨h _, h _, h _, h _⟩

/-- With all files there, nothing is written. -/
theorem loadOrCreate_of_complete (env : DiskEnv) (generated : MeshIdentity L) (h : Complete dir) :
    (MeshIdentity.loadOrCreate env generated dir).2 = dir ∧
      ∀ m, (MeshIdentity.loadOrCreate env generated dir).1 = .ok m → dir = m.files := by
  unfold MeshIdentity.loadOrCreate
  split
  · exact ⟨rfl, nofun⟩
  · rw [if_pos (complete_iff.mpr h)]
    exact ⟨rfl, fun m hm => loadFromDisk_ok hm⟩

/-- What one write leaves. -/
theorem writeFile_cases (env : DiskEnv) (file : KeyFile) (data : List UInt8) (dir : KeyDir) :
    writeFile env file data dir = (.ok (), Function.update dir file (some data)) ∨
      ∃ e, writeFile env file data dir = (.error e, dir) ∨
        ∃ n, writeFile env file data dir = (.error e, Function.update dir file (some (data.take n))) := by
  unfold writeFile
  split
  · exact .inl rfl
  · rename_i fault _
    refine .inr ⟨fault.error, ?_⟩
    split
    · exact .inl rfl
    · exact .inr ⟨_, rfl⟩

/-- A fault at one of the first files leaves `mlkem.dk` as it was. -/
theorem writeFiles_cons (env : DiskEnv) (dir : KeyDir) (data : List UInt8)
    (hfile : file ≠ .mlkemDk) (rest : List (KeyFile × List UInt8)) :
    writeFiles env ((file, data) :: rest) dir =
        writeFiles env rest (Function.update dir file (some data)) ∨
      ∃ e, (writeFiles env ((file, data) :: rest) dir).1 = .error e ∧
        (writeFiles env ((file, data) :: rest) dir).2 .mlkemDk = dir .mlkemDk := by
  obtain hok | ⟨e, hunopened | ⟨n, hcut⟩⟩ := writeFile_cases env file data dir
  · rw [writeFiles, hok]
    exact .inl rfl
  · rw [writeFiles, hunopened]
    exact .inr ⟨e, rfl, rfl⟩
  · rw [writeFiles, hcut]
    exact .inr ⟨e, rfl, Function.update_of_ne hfile.symm _ _⟩

/-- The directory after all of the files have been written. -/
def written (front : List (KeyFile × List UInt8)) (dir : KeyDir) : KeyDir :=
  front.foldl (fun dir entry => Function.update dir entry.1 (some entry.2)) dir

/-- With `mlkem.dk` as the last file: all files have been written, or it has not been touched, or
the others have been written and it has been cut. -/
theorem writeFiles_cases (env : DiskEnv) {front : List (KeyFile × List UInt8)}
    (hfront : ∀ entry ∈ front, entry.1 ≠ .mlkemDk) (dk : List UInt8) (dir : KeyDir) :
    writeFiles env (front ++ [(.mlkemDk, dk)]) dir =
        (.ok (), Function.update (written front dir) .mlkemDk (some dk)) ∨
      ∃ e, (writeFiles env (front ++ [(.mlkemDk, dk)]) dir).1 = .error e ∧
        ((writeFiles env (front ++ [(.mlkemDk, dk)]) dir).2 .mlkemDk = dir .mlkemDk ∨
          ∃ n, (writeFiles env (front ++ [(.mlkemDk, dk)]) dir).2 =
            Function.update (written front dir) .mlkemDk (some (dk.take n))) := by
  induction front generalizing dir with
  | nil =>
    rw [List.nil_append, writeFiles]
    obtain hok | ⟨e, hunopened | ⟨n, hcut⟩⟩ := writeFile_cases env .mlkemDk dk dir
    · rw [hok]
      exact .inl rfl
    · rw [hunopened]
      exact .inr ⟨e, rfl, .inl rfl⟩
    · rw [hcut]
      exact .inr ⟨e, rfl, .inr ⟨n, rfl⟩⟩
  | cons entry front ih =>
    obtain ⟨file, data⟩ := entry
    obtain ⟨hfile, hrest⟩ := List.forall_mem_cons.mp hfront
    rw [List.cons_append]
    obtain hgoes | ⟨e, he, hdk⟩ := writeFiles_cons env dir data hfile (front ++ [(.mlkemDk, dk)])
    · rw [hgoes]
      obtain hok | ⟨e, he, hdk | hcut⟩ := ih hrest (Function.update dir file (some data))
      · exact .inl hok
      · exact .inr ⟨e, he, .inl (hdk.trans (Function.update_of_ne hfile.symm _ _))⟩
      · exact .inr ⟨e, he, .inr hcut⟩
    · exact .inr ⟨e, he, .inl hdk⟩

/-- The four files of an identity, whatever was there before. -/
theorem update_written_files (m : MeshIdentity L) (dk : List UInt8) (dir : KeyDir) :
    Function.update (written [(.ed25519Key, m.ed25519SigningKey.val), (.noiseKey, m.noisePrivate.val),
      (.noisePub, m.noisePublic.val)] dir) .mlkemDk (some dk) =
        Function.update m.files .mlkemDk (some dk) := by
  funext file
  cases file <;> rfl

theorem update_files (m : MeshIdentity L) :
    Function.update m.files .mlkemDk (some m.mlkemDk) = m.files :=
  Function.update_eq_self_iff.mpr rfl

/-- Either all four files have been written, or `mlkem.dk` has not been touched, or it is the
last file and has been cut. -/
theorem saveToDisk_cases (env : DiskEnv) (m : MeshIdentity L) (dir : KeyDir) :
    m.saveToDisk env dir = (.ok (), m.files) ∨
      ∃ e, (m.saveToDisk env dir).1 = .error e ∧
        ((m.saveToDisk env dir).2 .mlkemDk = dir .mlkemDk ∨
          ∃ n, (m.saveToDisk env dir).2 =
            Function.update m.files .mlkemDk (some (m.mlkemDk.take n))) := by
  have hfront : ∀ entry ∈ [(KeyFile.ed25519Key, m.ed25519SigningKey.val),
      (.noiseKey, m.noisePrivate.val), (.noisePub, m.noisePublic.val)], entry.1 ≠ .mlkemDk := by
    simp
  have hcases := writeFiles_cases env hfront m.mlkemDk dir
  simp only [update_written_files] at hcases
  obtain hok | hfails := hcases
  · exact .inl (hok.trans (by rw [update_files]))
  · exact .inr hfails

/-- What `load_or_create` returns is what the disk then holds: the generated identity, or the one
that was there. -/
theorem loadOrCreate_ok (h : (MeshIdentity.loadOrCreate env generated dir).1 = .ok m) :
    (MeshIdentity.loadOrCreate env generated dir).2 = m.files ∧ (m = generated ∨ dir = m.files) := by
  by_cases hcomplete : Complete dir
  · obtain ⟨hkept, hloaded⟩ := loadOrCreate_of_complete env generated hcomplete
    exact ⟨hkept.trans (hloaded m h), .inr (hloaded m h)⟩
  · unfold MeshIdentity.loadOrCreate at h ⊢
    cases hcreate : env.createDir with
    | error e =>
      rw [hcreate] at h
      cases h
    | ok u =>
      rw [hcreate] at h
      dsimp only at h ⊢
      rw [if_neg (mt complete_iff.mp hcomplete)] at h ⊢
      obtain hsaved | ⟨e, he, -⟩ := saveToDisk_cases env generated dir
      · rw [hsaved] at h ⊢
        dsimp only at h ⊢
        split at h
        · cases h
        · obtain rfl := Except.ok.inj h
          exact ⟨rfl, .inl rfl⟩
      · split at h
        · cases h
        · rename_i hsaved
          rw [hsaved] at he
          cases he

theorem loadOrCreate_files (hcreate : env.createDir = .ok ()) (hread : ∀ f, env.readFault f = false)
    (m : MeshIdentity L) : MeshIdentity.loadOrCreate env generated m.files = (.ok m, m.files) := by
  unfold MeshIdentity.loadOrCreate
  rw [hcreate]
  dsimp only
  rw [if_pos (complete_iff.mpr (complete_files m)), loadFromDisk_files hread]

end Files

/-! ### Restarts -/

def IdentityOp.isRotation : IdentityOp L → Bool
  | .rotate _ _ _ => true
  | _ => false

/-- The daemon got its identity in the step. -/
def IdentityReply.gives : IdentityReply → Bool
  | .started _ => true
  | .rotated _ _ _ => true
  | _ => false

section Runs

variable {m : MeshIdentity L} {s : IdentityState L}

/-- The disk holds the identity, and the daemon runs with no other. -/
structure Holds (m : MeshIdentity L) (s : IdentityState L) : Prop where
  dir : s.dir = m.files
  running : s.running = none ∨ s.running = some m

theorem holds_of_gives {op : IdentityOp L} (h : (identityNext op s).1.gives = true) :
    ∃ m, (identityNext op s).2.running = some m ∧ Holds m (identityNext op s).2 := by
  cases op with
  | stop => cases h
  | start env generated =>
    unfold identityNext startDaemon at h ⊢
    dsimp only at h ⊢
    split at h
    · cases h
    · rename_i hstopped
      rw [if_neg hstopped]
      split at h
      · rename_i m dir hload
        have hok := loadOrCreate_ok (congrArg Prod.fst hload)
        exact ⟨m, rfl, (congrArg Prod.snd hload).symm.trans hok.1, .inr rfl⟩
      · cases h
  | rotate env stuck generated =>
    unfold identityNext rotate at h ⊢
    dsimp only at h ⊢
    split at h
    · rename_i hrunning
      rw [if_pos hrunning]
      split at h
      · rename_i m dir hload
        have hok := loadOrCreate_ok (congrArg Prod.fst hload)
        exact ⟨m, rfl, (congrArg Prod.snd hload).symm.trans hok.1, .inr rfl⟩
      · cases h
    · cases h

/-- Starts, failed or not, and crashes leave the identity where it is. -/
theorem Holds.next (h : Holds m s) {op : IdentityOp L} (hop : op.isRotation = false) :
    Holds m (identityNext op s).2 := by
  cases op with
  | stop => exact ⟨h.dir, .inl rfl⟩
  | rotate env stuck generated => cases hop
  | start env generated =>
    unfold identityNext startDaemon
    dsimp only
    split
    · exact h
    · obtain ⟨hkept, hloaded⟩ := loadOrCreate_of_complete env generated
        (h.dir ▸ complete_files m)
      split
      · rename_i m' dir hload
        have hsame : m'.files = m.files := (hloaded m' (congrArg Prod.fst hload)).symm.trans h.dir
        obtain rfl := files_injective hsame
        exact ⟨((congrArg Prod.snd hload).symm.trans hkept).trans h.dir, .inr rfl⟩
      · rename_i e dir hload
        exact ⟨((congrArg Prod.snd hload).symm.trans hkept).trans h.dir, .inl rfl⟩

theorem Holds.final (h : Holds m s) {ops : List (IdentityOp L)}
    (hops : ∀ op ∈ ops, op.isRotation = false) : Holds m (final identityNext ops s) := by
  induction ops generalizing s with
  | nil => exact h
  | cons op ops ih =>
    obtain ⟨hop, hrest⟩ := List.forall_mem_cons.mp hops
    exact ih (h.next hop) hrest

/-- A start from a disk that answers. -/
theorem Holds.start (h : Holds m s) {env : DiskEnv} (hcreate : env.createDir = .ok ())
    (hread : ∀ f, env.readFault f = false) (generated : MeshIdentity L) :
    (identityNext (.start env generated) s).2 = ⟨m.files, some m⟩ := by
  obtain ⟨dir, running⟩ := s
  obtain ⟨rfl, rfl | rfl⟩ := h
  · unfold identityNext startDaemon
    dsimp only
    rw [Option.isSome_none, if_neg Bool.false_ne_true, loadOrCreate_files hcreate hread]
  · rfl

end Runs

/-! ### Whole identities -/

section Whole

variable {gens : List (MeshIdentity L)} {dir : KeyDir} {m generated : MeshIdentity L}
  {s : IdentityState L}

/-- All four files are there, and `mlkem.dk` has not the length of a key. -/
structure Damaged (L : MeshLibs) (dir : KeyDir) : Prop where
  complete : Complete dir
  cut : ∀ dk, dir .mlkemDk = some dk → dk.length ≠ L.decapKeySize

theorem not_damaged_files (m : MeshIdentity L) : ¬ Damaged L m.files :=
  fun h => h.cut m.mlkemDk rfl m.mlkemDk_size

/-- The last file is missing, or the files are those of one of the identities, or it is cut. -/
def Whole (gens : List (MeshIdentity L)) (dir : KeyDir) : Prop :=
  dir .mlkemDk = none ∨ (∃ m ∈ gens, dir = m.files) ∨ Damaged L dir

theorem Whole.mem (h : Whole gens m.files) : m ∈ gens := by
  obtain hnone | ⟨m', hmem, hfiles⟩ | hdamaged := h
  · cases hnone
  · obtain rfl := files_injective hfiles
    exact hmem
  · exact absurd hdamaged (not_damaged_files m)

theorem Whole.mono {gens' : List (MeshIdentity L)} (h : Whole gens dir) (hsub : gens ⊆ gens') :
    Whole gens' dir :=
  h.imp_right (.imp_left fun ⟨m, hmem, hfiles⟩ => ⟨m, hsub hmem, hfiles⟩)

/-- A cut `mlkem.dk` beside the other files of an identity. -/
theorem whole_cut (hmem : m ∈ gens) (n : Nat) :
    Whole gens (Function.update m.files .mlkemDk (some (m.mlkemDk.take n))) := by
  by_cases hn : m.mlkemDk.length ≤ n
  · rw [List.take_of_length_le hn, update_files]
    exact .inr (.inl ⟨m, hmem, rfl⟩)
  · refine .inr (.inr ⟨fun file => ?_, fun dk hdk => ?_⟩)
    · cases file <;> exact Option.some_ne_none _
    · rw [Function.update_self] at hdk
      obtain rfl := Option.some.inj hdk
      rw [List.length_take, ← m.mlkemDk_size]
      omega

/-- Wherever `load_or_create` stops, the directory is whole again. -/
theorem whole_loadOrCreate (env : DiskEnv) (h : Whole gens dir) (hmem : generated ∈ gens) :
    Whole gens (MeshIdentity.loadOrCreate env generated dir).2 := by
  by_cases hcomplete : Complete dir
  · rw [(loadOrCreate_of_complete env generated hcomplete).1]
    exact h
  · have hmissing : dir .mlkemDk = none := by
      obtain hnone | ⟨m, -, rfl⟩ | hdamaged := h
      · exact hnone
      · exact absurd (complete_files m) hcomplete
      · exact absurd hdamaged.complete hcomplete
    unfold MeshIdentity.loadOrCreate
    cases env.createDir with
    | error e => exact h
    | ok u =>
      dsimp only
      rw [if_neg (mt complete_iff.mp hcomplete)]
      obtain hsaved | ⟨e, he, hleft⟩ := saveToDisk_cases env generated dir
      · rw [hsaved]
        dsimp only
        cases env.jsonFault with
        | none => exact .inr (.inl ⟨generated, hmem, rfl⟩)
        | some e => exact .inr (.inl ⟨generated, hmem, rfl⟩)
      · cases hout : generated.saveToDisk env dir with
        | mk result dir' =>
          rw [hout] at he hleft
          obtain rfl := he
          obtain hdk | ⟨n, rfl⟩ := hleft
          · exact .inl (hdk.trans hmissing)
          · exact whole_cut hmem n

/-- The identity that an operation would store. -/
def IdentityOp.generated? : IdentityOp L → Option (MeshIdentity L)
  | .start _ generated => some generated
  | .rotate _ _ generated => some generated
  | .stop => none

/-- A rotation that fails has removed the files that were there. -/
def Clears (t : IdentityStep L) : Prop :=
  ∀ env stuck generated, t.input = .rotate env stuck generated →
    ∀ status e, t.output = .rotateFailed status e →
      ∀ file, t.before.dir file ≠ none → stuck file = false

/-- Of all identities that were generated so far. -/
structure WholeState (gens : List (MeshIdentity L)) (s : IdentityState L) : Prop where
  dir : Whole gens s.dir
  running : ∀ m, s.running = some m → m ∈ gens

theorem removeKeys_eq {stuck : KeyFile → Bool} (h : Complete (removeKeys stuck dir)) :
    removeKeys stuck dir = dir := by
  funext file
  have hfile := h file
  unfold removeKeys at hfile ⊢
  split at hfile
  · rw [if_pos ‹_›]
  · exact absurd rfl hfile

theorem WholeState.start (h : WholeState gens s) (env : DiskEnv) (hmem : generated ∈ gens) :
    WholeState gens (startDaemon env generated s).2 := by
  have hdir := whole_loadOrCreate env h.dir hmem
  unfold startDaemon
  split
  · rename_i m dir hload
    rw [hload] at hdir
    refine ⟨hdir, fun m' hm' => ?_⟩
    obtain rfl := Option.some.inj hm'
    have hok := loadOrCreate_ok (congrArg Prod.fst hload)
    rw [hload] at hok
    rw [hok.1] at hdir
    exact hdir.mem
  · rename_i e dir hload
    rw [hload] at hdir
    exact ⟨hdir, nofun⟩

theorem WholeState.rotate (h : WholeState gens s) (env : DiskEnv) {stuck : KeyFile → Bool}
    (hmem : generated ∈ gens)
    (hclears : ∀ status e, (rotate env stuck generated s).1 = .rotateFailed status e →
      ∀ file, s.dir file ≠ none → stuck file = false) :
    WholeState gens (rotate env stuck generated s).2 := by
  unfold Mesh.rotate at hclears ⊢
  split at hclears
  · rename_i m dir hload
    have hok := loadOrCreate_ok (congrArg Prod.fst hload)
    rw [hload] at hok
    obtain ⟨rfl, hm⟩ := hok
    have hin : m ∈ gens := by
      obtain rfl | hold := hm
      · exact hmem
      · -- No file could be removed, and the old identity has been loaded.
        have hkept := removeKeys_eq (hold ▸ complete_files m)
        have hwhole := h.dir
        rw [← hkept, hold] at hwhole
        exact hwhole.mem
    refine ⟨.inr (.inl ⟨m, hin, rfl⟩), fun m' hm' => ?_⟩
    obtain rfl := Option.some.inj hm'
    exact hin
  · rename_i e dir hload
    have hremoved : Whole gens (removeKeys stuck s.dir) := by
      refine .inl ?_
      unfold removeKeys
      by_cases hnone : s.dir .mlkemDk = none
      · rw [hnone, ite_self]
      · rw [hclears 500 _ rfl .mlkemDk hnone]
        rfl
    have hdir := whole_loadOrCreate env hremoved hmem
    rw [hload] at hdir
    exact ⟨hdir, h.running⟩

theorem WholeState.mono {gens' : List (MeshIdentity L)} (h : WholeState gens s)
    (hsub : gens ⊆ gens') : WholeState gens' s :=
  ⟨h.dir.mono hsub, fun m hm => hsub (h.running m hm)⟩

theorem WholeState.next {op : IdentityOp L} (h : WholeState gens s)
    (hclears : Clears (stepOf identityNext op s)) :
    WholeState (gens ++ op.generated?.toList) (identityNext op s).2 := by
  have hmore : WholeState (gens ++ op.generated?.toList) s :=
    h.mono (List.subset_append_left _ _)
  cases op with
  | stop => exact ⟨hmore.dir, nofun⟩
  | start env generated =>
    have hnew : generated ∈ gens ++ (IdentityOp.start env generated).generated?.toList :=
      List.mem_append_right _ (List.mem_singleton_self _)
    unfold identityNext
    dsimp only
    split
    · exact hmore
    · exact hmore.start env hnew
  | rotate env stuck generated =>
    have hnew : generated ∈ gens ++ (IdentityOp.rotate env stuck generated).generated?.toList :=
      List.mem_append_right _ (List.mem_singleton_self _)
    have hstep := hclears env stuck generated rfl
    rw [stepOf_output, stepOf_before] at hstep
    unfold identityNext at hstep ⊢
    dsimp only at hstep ⊢
    split at hstep
    · rw [if_pos ‹_›]
      exact hmore.rotate env hnew hstep
    · rw [if_neg ‹_›]
      exact hmore

/-- What is relied on of Ed25519: what a key signs verifies under its public key. -/
structure SignsSound (L : MeshLibs) : Prop where
  length : ∀ key message, (L.ed25519Sign key message).length = 64
  verifies : ∀ key, ∃ verify, L.verifyingKey (L.ed25519PublicKey key) = .ok verify ∧
    ∀ message, verify message (L.ed25519Sign key message) = true

/-- A daemon shows its peers an identity that they accept. -/
theorem publicIdentity_verifies (h : SignsSound L) (m : MeshIdentity L) :
    verifyIdentity L m.publicIdentity = .ok true := by
  obtain ⟨verify, hkey, hverify⟩ := h.verifies m.ed25519SigningKey
  have hsignature : ∀ bytes : List UInt8,
      hexDecode? (String.ofList (hexEncode bytes)).toList = some bytes := fun bytes => by
    rw [String.toList_ofList, hexDecode?_hexEncode]
  refine bind_eq_ok.mpr ⟨_, rfl, bind_eq_ok.mpr ⟨_, orError_eq_ok.mpr (hsignature _), ?_⟩⟩
  rw [if_neg (not_not.mpr (h.length _ _))]
  refine bind_eq_ok.mpr ⟨_, orError_eq_ok.mpr (hsignature _), ?_⟩
  refine bind_eq_ok.mpr ⟨_, orError_eq_ok.mpr (toBytes32_val _), ?_⟩
  exact bind_eq_ok.mpr ⟨verify, hkey, congrArg Except.ok (hverify _)⟩

/-- The daemon of a fresh machine. -/
def IdentityState.fresh : IdentityState L := ⟨fun _ => none, none⟩

theorem wholeState_fresh : WholeState [] (.fresh : IdentityState L) :=
  ⟨.inl rfl, fun m hm => by cases hm⟩

/-- **Identities are whole.** In every run from an empty directory in which no rotation fails
with old files left, through crashes at any write, the daemon only ever runs with an identity
that was generated as a whole, and its public identity passes the check of its peers. -/
theorem identity_whole (h : SignsSound L) (ops : List (IdentityOp L))
    (hclears : ∀ t ∈ trace identityNext ops .fresh, Clears t) :
    ∀ t ∈ trace identityNext ops .fresh, ∀ m, t.after.running = some m →
      (∃ op ∈ ops, op.generated? = some m) ∧ verifyIdentity L m.publicIdentity = .ok true := by
  intro t ht m hm
  refine ⟨?_, publicIdentity_verifies h m⟩
  obtain ⟨past, future, hsplit⟩ := List.append_of_mem ht
  have hat : WholeState ((past ++ [t]).flatMap fun t => t.input.generated?.toList) t.after := by
    refine history_at_of
      (R := fun h s => WholeState (h.flatMap fun t => t.input.generated?.toList) s)
      (C := fun _ t => Clears t) (fun op h s hs hc => ?_) wholeState_fresh
      (fun past t future hsplit => hclears t (hsplit ▸ by simp)) hsplit
    rw [List.flatMap_append, List.flatMap_singleton]
    exact hs.next hc
  obtain ⟨u, hu, hgen⟩ := List.mem_flatMap.mp (hat.running m hm)
  refine ⟨u.input, ?_, Option.mem_toList.mp hgen⟩
  have hin : u ∈ trace identityNext ops .fresh := by
    rw [hsplit, ← List.singleton_append, ← List.append_assoc]
    exact List.mem_append_left _ hu
  have hinputs := List.mem_map_of_mem (f := Step.input) hin
  rwa [trace_map_input] at hinputs

/-- With a cut `mlkem.dk` and no daemon, no later start succeeds. -/
theorem damaged_forever (hdamaged : Damaged L s.dir) (hstopped : s.running = none)
    (ops : List (IdentityOp L)) : ∀ t ∈ trace identityNext ops s,
      t.output.gives = false ∧ t.after.running = none := by
  have hstep : ∀ (op : IdentityOp L) s, Damaged L s.dir ∧ s.running = none →
      (identityNext op s).1.gives = false ∧ Damaged L (identityNext op s).2.dir ∧
        (identityNext op s).2.running = none := by
    rintro op ⟨dir, running⟩ ⟨hdamaged, rfl⟩
    cases op with
    | stop => exact ⟨rfl, hdamaged, rfl⟩
    | rotate env stuck generated => exact ⟨rfl, hdamaged, rfl⟩
    | start env generated =>
      obtain ⟨hkept, hloaded⟩ := loadOrCreate_of_complete env generated hdamaged.complete
      unfold identityNext startDaemon
      dsimp only
      rw [Option.isSome_none, if_neg Bool.false_ne_true]
      split
      · rename_i m dir' hload
        exact absurd (hloaded m (congrArg Prod.fst hload) ▸ hdamaged) (not_damaged_files m)
      · rename_i e dir' hload
        rw [hload] at hkept
        obtain rfl : dir' = dir := hkept
        exact ⟨rfl, hdamaged, rfl⟩
  intro t ht
  obtain ⟨pre, -, -, hat⟩ := mem_trace_split ht
  have hbefore := final_invariant (fun op s hs => (hstep op s hs).2) pre ⟨hdamaged, hstopped⟩
  rw [hat]
  exact ⟨(hstep _ _ hbefore).1, (hstep _ _ hbefore).2.2⟩

end Whole

/-! A daemon is started, killed, and started again with other keys at hand. -/

def restartOps : List (IdentityOp (plainLibs [])) :=
  [.start .sound (plainMember [] 1), .stop, .start .sound (plainMember [] 2)]

theorem plain_signsSound : SignsSound (plainLibs []) where
  length key _ := by
    change (plainPublicKey key.val ++ List.replicate 32 0).length = 64
    simp [plainPublicKey, key.property]
  verifies _ := ⟨_, rfl, fun _ => decide_eq_true rfl⟩

theorem identity_whole_restart :
    ∃ m, (final identityNext restartOps .fresh).running = some m ∧
      (∃ op ∈ restartOps, op.generated? = some m) ∧
        verifyIdentity (plainLibs []) m.publicIdentity = .ok true := by
  have hclears : ∀ t ∈ trace identityNext restartOps .fresh, Clears t := by
    intro t ht env stuck generated hinput
    have hmem := List.mem_map_of_mem (f := Step.input) ht
    rw [trace_map_input, hinput] at hmem
    simp [restartOps] at hmem
  obtain ⟨m, hm⟩ : ∃ m, (final identityNext restartOps .fresh).running = some m :=
    Option.isSome_iff_exists.mp (by decide +kernel)
  exact ⟨m, hm, identity_whole plain_signsSound restartOps hclears _
    (.tail _ (.tail _ (.head _))) m hm⟩

/-- The second process is killed while it writes the last file. -/
theorem damaged_forever_cut :
    let dir : KeyDir := Function.update (plainMember [] 1).files .mlkemDk (some [])
    (trace identityNext restartOps ⟨dir, none⟩).all (fun t => !t.output.gives) = true := by
  intro dir
  have hdamaged : Damaged (plainLibs []) dir := by
    refine ⟨fun file => ?_, fun dk hdk => ?_⟩
    · cases file <;> exact Option.some_ne_none _
    · obtain rfl : [] = dk := Option.some.inj hdk
      decide
  refine List.all_eq_true.mpr fun t ht => ?_
  rw [(damaged_forever hdamaged rfl restartOps t ht).1]
  rfl

end OsModa.Mesh
