import OsModa.Base.Machine
import OsModa.Base.Retention
import OsModa.Base.Table
import OsModa.Base.Text
import OsModa.Base.TimeText
import Mathlib.Data.List.Dedup

/-!
The backups of the state directory.

A backup is named by the second in which it is made, and after each one that succeeds only the
seven files with the greatest names stay. The names are in the order of the seconds
(`backupName_lt`), so a backup that was made is there to be restored until seven later seconds have
had one (`created_restorable`). What is listed can be restored by the id that the list gives it
(`listed_restorable`), and beside seven backups there is only what failed requests left behind
(`backups_bounded`).
-/

namespace OsModa.Agentd

open OsModa.Machine OsModa.Text OsModa.DateTime

/-! ### Files and archives -/

/-- A file of the backup directory, with what `tar` reads in it if it reads it to its end. -/
structure BackupFile (α : Type) where
  name : String
  archive : Option α
  size : Nat
  modified : DateTime

/-- The backup directory and the state directory. -/
structure BackupState (α φ : Type) where
  dir : Table (@BackupFile.name α)
  files : φ

def BackupState.new {α φ : Type} (files : φ) : BackupState α φ := ⟨.empty, files⟩

/-- What `tar` puts into an archive of the state directory, its caches left out, and what the
state directory is once an archive has been extracted over it. -/
structure Tar (α φ : Type) where
  archiveOf : φ → α
  extract : α → φ → φ

inductive TarFault where
  | notStarted
  | exitCode
  /-- The command is not stopped; it is no longer waited for. -/
  | timedOut

def TarFault.text (what : String) : TarFault → String
  | .timedOut => what ++ " timed out after 120s"
  | _ => what ++ " failed"

def maxBackups : Nat := 7

/-- `now.format("%Y%m%d-%H%M%S")`. -/
def stampText (now : DateTime) : String :=
  let (year, month, day) := civilFromDays now.epochDay
  yearText year ++ padded 2 month.toNat ++ padded 2 day.toNat ++ "-" ++
    padded 2 (now.secondOfDay / 3600) ++ padded 2 (now.secondOfDay / 60 % 60) ++
    padded 2 (now.secondOfDay % 60)

def backupIdOf (now : DateTime) : String := "backup-" ++ stampText now

def tarGz : String := ".tar.gz"

def backupName (now : DateTime) : String := backupIdOf now ++ tarGz

def isBackupName (name : String) : Bool :=
  "backup-".toList.isPrefixOf name.toList && tarGz.toList.isSuffixOf name.toList

/-- `str::trim_end_matches`, with a bound on the number of times the part is cut off. -/
def trimEndFrom (part : List Char) : Nat → List Char → List Char
  | 0, s => s
  | n + 1, s =>
    if part.isSuffixOf s then trimEndFrom part n (s.take (s.length - part.length)) else s

def trimEndMatches (part s : String) : String :=
  String.ofList (trimEndFrom part.toList s.length s.toList)

/-! ### Requests -/

/-- What a request to make a backup meets. -/
structure CreateEnv (α : Type) where
  now : DateTime
  dirUnavailable : Bool := false
  fault : Option TarFault := none
  /-- What a `tar` that fails has written by then, if it has opened the file. -/
  left : Option (Option α) := none
  size : Nat := 0
  modified : DateTime
  statFails : Bool := false
  /-- The entries that the pruning does not get to read. -/
  unread : String → Bool := fun _ => false
  /-- The files that are not removed. -/
  stuck : String → Bool := fun _ => false

inductive BackupOp (α φ : Type) where
  /-- POST /backup/create. -/
  | create (env : CreateEnv α)
  /-- GET /backup/list. -/
  | list (unread statFails : String → Bool)
  /-- POST /backup/restore; a `tar` that fails leaves the state directory in some state. -/
  | restore (backupId : String) (fault : Option TarFault) (left : φ)
  /-- The state directory is written to. -/
  | write (files : φ)
  /-- A `tar` that is no longer waited for writes on. -/
  | lateWrite (file : BackupFile α)

structure BackupInfo where
  backupId : String
  path : String
  sizeBytes : Nat
  createdAt : String
  deriving DecidableEq

inductive BackupReply where
  | created (info : BackupInfo)
  | listed (backups : List BackupInfo)
  | restored (restoredFrom status : String)
  | error (code : Nat) (text : String)
  | none
  deriving DecidableEq

section Handlers

variable {α φ : Type} (tar : Tar α φ) (backupDir : String)

def backupPath (name : String) : String := backupDir ++ "/" ++ name

/-- Remove old backups, keeping only the `keep` most recent. -/
def pruneBackups (unread stuck : String → Bool) (dir : Table (@BackupFile.name α)) (keep : Nat) :
    Table (@BackupFile.name α) :=
  let entries := (dir.rows.map BackupFile.name).filter fun n => isBackupName n && !unread n
  let removed := Retention.oldest keep entries
  dir.filter fun file => stuck file.name || !removed.contains file.name

def backupCreateHandler (env : CreateEnv α) (s : BackupState α φ) :
    BackupReply × BackupState α φ :=
  let backupId := backupIdOf env.now
  let file := fun archive : Option α =>
    (⟨backupId ++ tarGz, archive, env.size, env.modified⟩ : BackupFile α)
  if env.dirUnavailable then (.error 500 "backup directory unavailable", s)
  else match env.fault with
  | some .notStarted => (.error 500 (TarFault.text "backup" .notStarted), s)
  | some fault =>
    (.error 500 (fault.text "backup"), match env.left with
      | .none => s
      | some archive => { s with dir := s.dir.put (file archive) })
  | .none =>
    let dir := s.dir.put (file (some (tar.archiveOf s.files)))
    (.created ⟨backupId, backupPath backupDir (backupId ++ tarGz),
        if env.statFails then 0 else env.size, env.now.toRfc3339⟩,
      { s with dir := pruneBackups env.unread env.stuck dir maxBackups })

def backupInfo (statFails : String → Bool) (file : BackupFile α) : BackupInfo where
  backupId := trimEndMatches tarGz file.name
  path := backupPath backupDir file.name
  sizeBytes := if statFails file.name then 0 else file.size
  createdAt := if statFails file.name then "" else file.modified.toRfc3339

/-- Newest first. -/
def backupListHandler (unread statFails : String → Bool) (s : BackupState α φ) : List BackupInfo :=
  ((s.dir.rows.filter fun file => isBackupName file.name && !unread file.name).map
    (backupInfo backupDir statFails)).mergeSort fun a b => b.createdAt ≤ a.createdAt

def backupRestoreHandler (backupId : String) (fault : Option TarFault) (left : φ)
    (s : BackupState α φ) : BackupReply × BackupState α φ :=
  if Text.contains backupId.toList "..".toList || backupId.toList.contains '/' then
    (.error 400 "invalid backup_id", s)
  else match s.dir.find? (backupId ++ tarGz) with
  | .none => (.error 404 ("backup not found: " ++ backupId), s)
  | some file =>
    match fault, file.archive with
    | .none, some archive =>
      (.restored backupId "restored", { s with files := tar.extract archive s.files })
    | fault, _ =>
      (.error 500 ((fault.getD .exitCode).text "restore"), { s with files := left })

def backupNext : BackupOp α φ → BackupState α φ → BackupReply × BackupState α φ
  | .create env, s => backupCreateHandler tar backupDir env s
  | .list unread statFails, s => (.listed (backupListHandler backupDir unread statFails s), s)
  | .restore backupId fault left, s => backupRestoreHandler tar backupId fault left s
  | .write files, s => (.none, { s with files })
  | .lateWrite file, s =>
    -- The file may have been pruned in the meantime, and then it has no name any more.
    (.none, if (s.dir.find? file.name).isSome then { s with dir := s.dir.put file } else s)

end Handlers

/-! ### The order of the names -/

section Names

variable {a b now : DateTime} {c : Char}

/-- The second that a time is in. -/
def second (now : DateTime) : Int := now.nanos / 1000000000

/-- The stamp after its dash. -/
def stampClock (now : DateTime) : List Char :=
  (padded 2 (now.secondOfDay / 3600)).toList ++
    ((padded 2 (now.secondOfDay / 60 % 60)).toList ++ (padded 2 (now.secondOfDay % 60)).toList)

theorem toList_stampText : (stampText now).toList = (yearText now.year).toList ++
    ((padded 2 (civilFromDays now.epochDay).2.1.toNat).toList ++
      ((padded 2 (civilFromDays now.epochDay).2.2.toNat).toList ++ '-' :: stampClock now)) := by
  have hdash : "-".toList = ['-'] := rfl
  unfold stampText stampClock year
  simp only [String.toList_append, hdash, List.append_assoc, List.cons_append, List.nil_append]

theorem stampText_congr (h : second a = second b) : stampText a = stampText b := by
  have hday : a.epochDay = b.epochDay := congrArg (· / 86400) h
  have htime : a.secondOfDay = b.secondOfDay := congrArg (fun n => (n % 86400).toNat) h
  unfold stampText
  rw [hday, htime]

theorem secondOfDay_lt : now.secondOfDay < 86400 := by
  unfold secondOfDay
  omega

theorem stampClock_lt (h : a.secondOfDay < b.secondOfDay) : stampClock a < stampClock b := by
  have ha := @secondOfDay_lt a
  have hb := @secondOfDay_lt b
  unfold stampClock
  refine twoDigits_lt (by omega) (by omega) ?_
  rcases lt_or_ge (a.secondOfDay / 3600) (b.secondOfDay / 3600) with hlt | hge
  · exact .inl hlt
  refine .inr ⟨by omega, twoDigits_lt (by omega) (by omega) ?_⟩
  rcases lt_or_ge (a.secondOfDay / 60 % 60) (b.secondOfDay / 60 % 60) with hlt | hge'
  · exact .inl hlt
  refine .inr ⟨by omega, ?_⟩
  exact (isDecimal_padded Nat.two_pos (by omega)).lt_of_lt
    (isDecimal_padded Nat.two_pos (by omega)) (by omega)

/-- In years of four digits the stamps are in the order of the seconds. -/
theorem stampText_lt (ha : a.isReadable = true) (hb : b.isReadable = true)
    (h : second a < second b) : (stampText a).toList < (stampText b).toList := by
  have hclock : a.epochDay < b.epochDay ∨
      a.epochDay = b.epochDay ∧ stampClock a < stampClock b := by
    have hfields : a.epochDay < b.epochDay ∨
        a.epochDay = b.epochDay ∧ a.secondOfDay < b.secondOfDay := by
      unfold second at h
      unfold epochDay secondOfDay
      omega
    exact hfields.imp_right fun ⟨hday, hlater⟩ => ⟨hday, stampClock_lt hlater⟩
  have hyear := isReadable_iff_year.mp ha
  have hyear' := isReadable_iff_year.mp hb
  have hbounds := civilFromDays_bounds a.epochDay
  have hbounds' := civilFromDays_bounds b.epochDay
  rw [toList_stampText, toList_stampText, yearText, yearText, if_pos hyear, if_pos hyear']
  refine (isDecimal_padded (Nat.succ_pos 3) (by omega)).append_lt
    (isDecimal_padded (Nat.succ_pos 3) (by omega)) ?_
  unfold year at hyear hyear' ⊢
  rcases hclock with hday | ⟨hday, htail⟩
  · rcases civilFromDays_lt hday with hlt | ⟨heq, hlt | ⟨heq', hlt⟩⟩
    · exact .inl (by omega)
    · exact .inr ⟨by rw [heq], twoDigits_lt (by omega) (by omega) (.inl (by omega))⟩
    · refine .inr ⟨by rw [heq], twoDigits_lt (by omega) (by omega) (.inr ⟨by rw [heq'], ?_⟩)⟩
      exact twoDigits_lt (by omega) (by omega) (.inl (by omega))
  · rw [hday] at hbounds ⊢
    refine .inr ⟨rfl, twoDigits_lt (by omega) (by omega) (.inr ⟨rfl, ?_⟩)⟩
    exact twoDigits_lt (by omega) (by omega) (.inr ⟨rfl, cons_lt_cons_same htail⟩)

theorem length_stampText (h : now.isReadable = true) : (stampText now).toList.length = 15 := by
  have hyear := isReadable_iff_year.mp h
  have hbounds := civilFromDays_bounds now.epochDay
  have htime := @secondOfDay_lt now
  have htwo : ∀ {n : Nat}, n < 100 → (padded 2 n).toList.length = 2 :=
    fun hn => (isDecimal_padded Nat.two_pos hn).length
  have hfour : (padded 4 now.year.toNat).toList.length = 4 :=
    (isDecimal_padded (Nat.succ_pos 3) (by omega)).length
  rw [toList_stampText, yearText, if_pos hyear, stampClock, List.length_append, List.length_append,
    List.length_append, List.length_cons, List.length_append, List.length_append, hfour,
    htwo (by omega), htwo (by omega), htwo (by omega), htwo (by omega), htwo (by omega)]

/-- The names are in the order of the seconds. -/
theorem backupName_lt (ha : a.isReadable = true) (hb : b.isReadable = true)
    (h : second a < second b) : backupName a < backupName b := by
  unfold backupName backupIdOf
  rw [String.lt_iff_toList_lt, String.toList_append, String.toList_append, String.toList_append,
    String.toList_append, List.append_assoc, List.append_assoc]
  refine List.append_left_lt (append_lt_append _ _ ?_ (stampText_lt ha hb h))
  rw [length_stampText ha, length_stampText hb]

theorem backupName_congr (h : second a = second b) : backupName a = backupName b := by
  unfold backupName backupIdOf
  rw [stampText_congr h]

theorem mem_stampText (h : c ∈ (stampText now).toList) :
    c.isDigit = true ∨ c = '+' ∨ c = '-' := by
  have hpadded : ∀ {width n : Nat}, c ∈ (padded width n).toList →
      c.isDigit = true ∨ c = '+' ∨ c = '-' := fun hc => .inl (isDigit_of_mem_padded hc)
  rw [toList_stampText, stampClock] at h
  simp only [List.mem_append, List.mem_cons] at h
  rcases h with hyear | h | h | h | h | h | h
  · rcases yearText_cases now.year with ⟨-, -, htext⟩ | ⟨-, htext⟩ | ⟨-, htext⟩ <;>
      rw [htext] at hyear
    · exact hpadded hyear
    · exact (List.mem_cons.mp hyear).elim (fun h => .inr (.inl h)) hpadded
    · exact (List.mem_cons.mp hyear).elim (fun h => .inr (.inr h)) hpadded
  · exact hpadded h
  · exact hpadded h
  · exact .inr (.inr h)
  · exact hpadded h
  · exact hpadded h
  · exact hpadded h

theorem not_mem_backupIdOf (hdigit : c.isDigit = false) (hletter : c ∉ "backup-".toList)
    (hplus : c ≠ '+') : c ∉ (backupIdOf now).toList := by
  unfold backupIdOf
  rw [String.toList_append, List.mem_append]
  rintro (h | h)
  · exact hletter h
  · rcases mem_stampText h with h | h | rfl
    · rw [h] at hdigit
      cases hdigit
    · exact hplus h
    · exact hletter (by decide)

theorem dot_not_mem_backupIdOf : '.' ∉ (backupIdOf now).toList :=
  not_mem_backupIdOf rfl (by decide) (by decide)

theorem slash_not_mem_backupIdOf : '/' ∉ (backupIdOf now).toList :=
  not_mem_backupIdOf rfl (by decide) (by decide)

theorem isBackupName_backupName (now : DateTime) : isBackupName (backupName now) = true := by
  unfold isBackupName backupName backupIdOf
  rw [Bool.and_eq_true, List.isPrefixOf_iff_prefix, List.isSuffixOf_iff_suffix,
    String.toList_append, String.toList_append, List.append_assoc]
  exact ⟨List.prefix_append _ _, by rw [← List.append_assoc]; exact List.suffix_append _ _⟩

/-- The list shows the id that the backup was made with. -/
theorem trimEndMatches_backupName (now : DateTime) :
    trimEndMatches tarGz (backupName now) = backupIdOf now := by
  have hsuffix : tarGz.toList.isSuffixOf (backupName now).toList = true := by
    unfold backupName
    rw [List.isSuffixOf_iff_suffix, String.toList_append]
    exact List.suffix_append _ _
  have hdone : tarGz.toList.isSuffixOf (backupIdOf now).toList = false := by
    rw [Bool.eq_false_iff, Ne, List.isSuffixOf_iff_suffix]
    exact fun h => dot_not_mem_backupIdOf (h.subset (by decide))
  have hcut : (backupName now).toList.take
      ((backupName now).toList.length - tarGz.toList.length) = (backupIdOf now).toList := by
    unfold backupName
    rw [String.toList_append, List.length_append, Nat.add_sub_cancel, List.take_left]
  have hstop : ∀ n, trimEndFrom tarGz.toList n (backupIdOf now).toList =
      (backupIdOf now).toList := by
    intro n
    cases n with
    | zero => rfl
    | succ n => rw [trimEndFrom, hdone, if_neg Bool.false_ne_true]
  have hlength : (backupName now).length = (backupIdOf now).length + 6 + 1 := by
    unfold backupName
    rw [String.length_append]
    rfl
  unfold trimEndMatches
  rw [hlength, trimEndFrom, if_pos hsuffix, hcut, hstop, String.ofList_toList]

end Names

/-! ### What a request does to the backup directory -/

section Steps

variable {α φ : Type} {tar : Tar α φ} {backupDir : String} {s : BackupState α φ}
  {unread stuck : String → Bool} {dir : Table (@BackupFile.name α)} {name : String}

/-- The names that the pruning reads. -/
def entryNames (unread : String → Bool) (dir : Table (@BackupFile.name α)) : List String :=
  (dir.rows.map BackupFile.name).filter fun n => isBackupName n && !unread n

theorem nodup_entryNames : (entryNames unread dir).Nodup := dir.nodup_keys.filter _

theorem mem_pruneBackups {keep : Nat} {file : BackupFile α} :
    file ∈ (pruneBackups unread stuck dir keep).rows ↔ file ∈ dir.rows ∧
      (stuck file.name = true ∨ file.name ∉ Retention.oldest keep (entryNames unread dir)) := by
  simp [pruneBackups, Table.filter, entryNames]

/-- A request that makes a backup: what becomes of the backup directory. -/
inductive Created (env : CreateEnv α) (dir : Table (@BackupFile.name α)) :
    Table (@BackupFile.name α) → Prop where
  | untouched : Created env dir dir
  | failed (archive : Option α) :
      Created env dir (dir.put ⟨backupName env.now, archive, env.size, env.modified⟩)
  | pruned (archive : α) : Created env dir (pruneBackups env.unread env.stuck
      (dir.put ⟨backupName env.now, some archive, env.size, env.modified⟩) maxBackups)

theorem created_create (tar : Tar α φ) (backupDir : String) (env : CreateEnv α)
    (s : BackupState α φ) :
    Created env s.dir (backupCreateHandler tar backupDir env s).2.dir := by
  unfold backupCreateHandler
  dsimp only
  split
  · exact .untouched
  · split
    · exact .untouched
    · dsimp only
      split
      · exact .untouched
      · exact .failed _
    · exact .pruned _

/-- The names of the backups that are asked for. -/
def begunNames (ops : List (BackupOp α φ)) : List String :=
  ops.filterMap fun op => match op with
    | .create env => some (backupName env.now)
    | _ => none

theorem mem_begunNames {ops : List (BackupOp α φ)} :
    name ∈ begunNames ops ↔ ∃ env, .create env ∈ ops ∧ backupName env.now = name := by
  unfold begunNames
  rw [List.mem_filterMap]
  constructor
  · rintro ⟨op, hop, hname⟩
    cases op with
    | create env => exact ⟨env, hop, Option.some.inj hname⟩
    | _ => cases hname
  · rintro ⟨env, hop, rfl⟩
    exact ⟨.create env, hop, rfl⟩

theorem dir_restore (backupId : String) (fault : Option TarFault) (left : φ) :
    (backupRestoreHandler tar backupId fault left s).2.dir = s.dir := by
  unfold backupRestoreHandler
  split
  · rfl
  · split
    · rfl
    · split <;> rfl

/-- No request brings a name into the backup directory but that of a backup that it makes. -/
theorem name_of_next {op : BackupOp α φ} {file : BackupFile α}
    (h : file ∈ (backupNext tar backupDir op s).2.dir.rows) :
    (∃ old ∈ s.dir.rows, old.name = file.name) ∨ file.name ∈ begunNames [op] := by
  have hput : ∀ {new : BackupFile α}, file ∈ (s.dir.put new).rows →
      (∃ old ∈ s.dir.rows, old.name = file.name) ∨ file.name = new.name := fun hmem =>
    (Table.mem_rows_put.mp hmem).elim (fun heq => .inr (congrArg BackupFile.name heq))
      fun hold => .inl ⟨file, hold.1, rfl⟩
  cases op with
  | list unread statFails => exact .inl ⟨file, h, rfl⟩
  | write files => exact .inl ⟨file, h, rfl⟩
  | restore backupId fault left =>
    change file ∈ (backupRestoreHandler tar backupId fault left s).2.dir.rows at h
    rw [dir_restore] at h
    exact .inl ⟨file, h, rfl⟩
  | lateWrite late =>
    simp only [backupNext] at h
    split at h
    · rename_i hfound
      refine (hput h).elim .inl fun hname => ?_
      obtain ⟨old, hold⟩ := Option.isSome_iff_exists.mp hfound
      exact .inl ⟨old, List.mem_of_find?_eq_some hold, (Table.key_of_find? hold).trans hname.symm⟩
    · exact .inl ⟨file, h, rfl⟩
  | create env =>
    have hbegun : ∀ n, n = backupName env.now → n ∈ begunNames [BackupOp.create (φ := φ) env] :=
      fun n hname => mem_begunNames.mpr ⟨env, List.mem_singleton_self _, hname.symm⟩
    change file ∈ (backupCreateHandler tar backupDir env s).2.dir.rows at h
    have hcreated := created_create tar backupDir env s
    generalize (backupCreateHandler tar backupDir env s).2.dir = dir at h hcreated
    cases hcreated with
    | untouched => exact .inl ⟨file, h, rfl⟩
    | failed archive => exact (hput h).imp_right (hbegun _)
    | pruned archive => exact (hput (mem_pruneBackups.mp h).1).imp_right (hbegun _)

/-- A file stays as long as fewer files than are kept have greater names. -/
theorem mem_prune_of_few {file : BackupFile α} {later : List String} (hmem : file ∈ dir.rows)
    (hlater : ∀ other ∈ dir.rows, file.name < other.name → other.name ∈ later)
    (hfew : later.length < maxBackups) : file ∈ (pruneBackups unread stuck dir maxBackups).rows := by
  refine mem_pruneBackups.mpr ⟨hmem, .inr fun hold => ?_⟩
  have habove := ((Retention.mem_oldest_iff nodup_entryNames).mp hold).2
  rw [List.countP_eq_length_filter] at habove
  have hsub : (entryNames unread dir).filter (fun n => decide (file.name < n)) ⊆ later := by
    intro n hn
    obtain ⟨hentry, hgreater⟩ := List.mem_filter.mp hn
    obtain ⟨other, hother, rfl⟩ := List.mem_map.mp (List.mem_filter.mp hentry).1
    exact hlater other hother (of_decide_eq_true hgreater)
  have hlength := (List.subperm_of_subset (nodup_entryNames.filter _) hsub).length_le
  omega

/-- A file that no request is about stays as long as fewer files than are kept have, or get,
greater names. -/
theorem mem_next_of_few {op : BackupOp α φ} {file : BackupFile α} {later : List String}
    (hmem : file ∈ s.dir.rows) (hbegun : file.name ∉ begunNames [op])
    (hlate : ∀ late, op = .lateWrite late → late.name ≠ file.name)
    (hlater : ∀ n, (∃ other ∈ s.dir.rows, other.name = n) ∨ n ∈ begunNames [op] →
      file.name < n → n ∈ later)
    (hfew : later.length < maxBackups) : file ∈ (backupNext tar backupDir op s).2.dir.rows := by
  cases op with
  | list unread statFails => exact hmem
  | write files => exact hmem
  | restore backupId fault left =>
    change file ∈ (backupRestoreHandler tar backupId fault left s).2.dir.rows
    rw [dir_restore]
    exact hmem
  | lateWrite late =>
    simp only [backupNext]
    split
    · exact Table.mem_rows_put.mpr (.inr ⟨hmem, (hlate late rfl).symm⟩)
    · exact hmem
  | create env =>
    have hnew : backupName env.now ∈ begunNames [BackupOp.create (φ := φ) env] :=
      mem_begunNames.mpr ⟨env, List.mem_singleton_self _, rfl⟩
    have hput : ∀ {new : BackupFile α}, new.name = backupName env.now →
        file ∈ (s.dir.put new).rows := fun hname =>
      Table.mem_rows_put.mpr (.inr ⟨hmem, fun heq => hbegun (heq.trans hname ▸ hnew)⟩)
    change file ∈ (backupCreateHandler tar backupDir env s).2.dir.rows
    have hcreated := created_create tar backupDir env s
    generalize (backupCreateHandler tar backupDir env s).2.dir = dir at hcreated ⊢
    cases hcreated with
    | untouched => exact hmem
    | failed archive => exact hput rfl
    | pruned archive =>
      refine mem_prune_of_few (hput rfl) (fun other hother hgreater => ?_) hfew
      refine hlater _ ((Table.mem_rows_put.mp hother).symm.imp ?_ ?_) hgreater
      · exact fun hold => ⟨other, hold.1, rfl⟩
      · rintro rfl
        exact hnew

end Steps

/-! ### Runs -/

section Runs

variable {α φ : Type} {tar : Tar α φ} {backupDir : String} {files : φ} {s : BackupState α φ}
  {ops past between : List (BackupOp α φ)} {env : CreateEnv α} {info : BackupInfo}

theorem begunNames_cons (op : BackupOp α φ) (ops : List (BackupOp α φ)) :
    begunNames (op :: ops) = begunNames [op] ++ begunNames ops :=
  List.filterMap_append (l := [op])

/-- Every file of the backup directory was there, or a backup of its name was asked for. -/
theorem name_of_final {file : BackupFile α}
    (h : file ∈ (final (backupNext tar backupDir) ops s).dir.rows) :
    (∃ old ∈ s.dir.rows, old.name = file.name) ∨ file.name ∈ begunNames ops := by
  induction ops generalizing s with
  | nil => exact .inl ⟨file, h, rfl⟩
  | cons op ops ih =>
    rw [begunNames_cons, List.mem_append]
    rcases ih h with ⟨old, hold, hname⟩ | hbegun
    · rcases name_of_next hold with ⟨older, holder, heq⟩ | hnew
      · exact .inl ⟨older, holder, heq.trans hname⟩
      · exact .inr (.inl (hname ▸ hnew))
    · exact .inr (.inr hbegun)

/-- A file that no request is about stays as long as fewer files than are kept have, or get,
greater names. -/
theorem mem_final_of_few {file : BackupFile α} {later : List String} (hmem : file ∈ s.dir.rows)
    (hbegun : file.name ∉ begunNames ops)
    (hlate : ∀ late, .lateWrite late ∈ ops → late.name ≠ file.name)
    (hlater : ∀ n, (∃ other ∈ s.dir.rows, other.name = n) ∨ n ∈ begunNames ops →
      file.name < n → n ∈ later)
    (hfew : later.length < maxBackups) :
    file ∈ (final (backupNext tar backupDir) ops s).dir.rows := by
  induction ops generalizing s with
  | nil => exact hmem
  | cons op ops ih =>
    rw [begunNames_cons, List.mem_append, not_or] at hbegun
    simp only [begunNames_cons op ops, List.mem_append] at hlater
    refine ih ?_ hbegun.2 (fun late hmem => hlate late (List.mem_cons_of_mem op hmem)) ?_
    · exact mem_next_of_few hmem hbegun.1
        (fun late heq => hlate late (heq ▸ List.mem_cons_self))
        (fun n hn => hlater n (hn.imp_right .inl)) hfew
    · rintro n (⟨other, hother, rfl⟩ | hn)
      · exact hlater _ ((name_of_next hother).imp_right .inl)
      · exact hlater n (.inr (.inr hn))

/-- What a request that has made a backup did. -/
theorem create_of_created (h : (backupNext tar backupDir (.create env) s).1 = .created info) :
    info.backupId = backupIdOf env.now ∧ (backupNext tar backupDir (.create env) s).2 =
      { s with dir := pruneBackups env.unread env.stuck (s.dir.put ⟨backupName env.now,
        some (tar.archiveOf s.files), env.size, env.modified⟩) maxBackups } := by
  simp only [backupNext, backupCreateHandler] at h ⊢
  split at h
  · cases h
  · rename_i hdir
    split at h
    · cases h
    · cases h
    · rename_i hfault
      rw [if_neg hdir]
      exact ⟨(congrArg BackupInfo.backupId (BackupReply.created.inj h)).symm, rfl⟩

/-- A restore by the id of a backup gets to its file. -/
theorem restore_of_mem {file : BackupFile α} {now : DateTime} {archive : α}
    (hmem : file ∈ s.dir.rows) (hname : file.name = backupName now)
    (harchive : file.archive = some archive) (left : φ) :
    backupNext tar backupDir (.restore (backupIdOf now) none left) s =
      (.restored (backupIdOf now) "restored", { s with files := tar.extract archive s.files }) := by
  have hdots : Text.contains (backupIdOf now).toList "..".toList = false := by
    rw [Bool.eq_false_iff, Ne, contains_eq_true]
    exact fun h => dot_not_mem_backupIdOf (h.subset (by decide))
  have hslash : (backupIdOf now).toList.contains '/' = false := by
    rw [Bool.eq_false_iff, Ne, List.contains_iff_mem]
    exact slash_not_mem_backupIdOf
  have hfind : s.dir.find? (backupIdOf now ++ tarGz) = some file :=
    (congrArg s.dir.find? hname).symm.trans (Table.mem_rows_iff.mp hmem)
  simp only [backupNext, backupRestoreHandler, hdots, hslash, Bool.or_self, if_neg Bool.false_ne_true,
    hfind, harchive]

def plainTar : Tar Nat Nat := ⟨id, fun archive _ => archive⟩

def epochEnv : CreateEnv Nat where
  now := ⟨0, zero_inRange⟩
  modified := ⟨0, zero_inRange⟩

def someBackup : BackupInfo where
  backupId := "backup-19700101-000000"
  path := "/b/backup-19700101-000000.tar.gz"
  sizeBytes := 0
  createdAt := "1970-01-01T00:00:00+00:00"

def afterBackup : BackupState Nat Nat := (backupNext plainTar "/b" (.create epochEnv) (.new 3)).2

/-- **What is listed can be restored.** In every run the list shows each file under an id by which
a restore finds the file that was listed, and extracts it if `tar` reads it to its end. -/
theorem listed_restorable {unread statFails : String → Bool}
    (hs : final (backupNext tar backupDir) ops (.new files) = s)
    (hinfo : info ∈ backupListHandler backupDir unread statFails s) :
    ∃ file ∈ s.dir.rows, file.name = info.backupId ++ tarGz ∧
      info.path = backupPath backupDir file.name ∧
        ∀ archive left, file.archive = some archive →
          backupNext tar backupDir (.restore info.backupId none left) s =
            (.restored info.backupId "restored",
              { s with files := tar.extract archive s.files }) := by
  obtain ⟨file, hfile, rfl⟩ := List.mem_map.mp (List.mem_mergeSort.mp hinfo)
  have hmem := (List.mem_filter.mp hfile).1
  obtain ⟨env, -, hname⟩ := mem_begunNames.mp ((name_of_final (hs ▸ hmem)).resolve_left
    fun ⟨_, hnone, _⟩ => List.not_mem_nil hnone)
  have hid : trimEndMatches tarGz file.name = backupIdOf env.now :=
    hname ▸ trimEndMatches_backupName env.now
  refine ⟨file, hmem, ?_, rfl, fun archive left harchive => ?_⟩
  · exact hname.symm.trans (congrArg (· ++ tarGz) hid.symm)
  · change backupNext tar backupDir (.restore (trimEndMatches tarGz file.name) none left) _ =
      (.restored (trimEndMatches tarGz file.name) "restored", _)
    rw [hid]
    exact restore_of_mem hmem hname.symm harchive left

theorem listed_restorable_one : ∃ file ∈ afterBackup.dir.rows,
    file.name = someBackup.backupId ++ tarGz ∧ someBackup.path = backupPath "/b" file.name ∧
      ∀ archive left, file.archive = some archive →
        backupNext plainTar "/b" (.restore someBackup.backupId none left) afterBackup =
          (.restored someBackup.backupId "restored", { afterBackup with files := archive }) :=
  @listed_restorable Nat Nat plainTar "/b" 3 afterBackup [.create epochEnv] someBackup
    (fun _ => false) (fun _ => false) rfl (by decide +kernel)

end Runs

/-! ### How many there are -/

abbrev BackupStep (α φ : Type) := Step (BackupState α φ) (BackupOp α φ) BackupReply

/-- The requests for a backup that have failed since the last one that was made. -/
def failedSince {α φ : Type} (steps : List (BackupStep α φ)) : Nat :=
  steps.foldl (fun n t => match t.input, t.output with
    | .create _, .created _ => 0
    | .create _, _ => n + 1
    | _, _ => n) 0

section Bound

variable {α φ : Type} {tar : Tar α φ} {backupDir : String} {files : φ} {s : BackupState α φ}
  {ops : List (BackupOp α φ)} {dir : Table (@BackupFile.name α)} {unread stuck : String → Bool}
  {keep n : Nat} {steps : List (BackupStep α φ)}

theorem failedSince_append (steps : List (BackupStep α φ)) (t : BackupStep α φ) :
    failedSince (steps ++ [t]) = match t.input, t.output with
      | .create _, .created _ => 0
      | .create _, _ => failedSince steps + 1
      | _, _ => failedSince steps := by
  unfold failedSince
  rw [List.foldl_append]
  rfl

theorem length_put_of_found {file : BackupFile α} (h : (dir.find? file.name).isSome = true) :
    (dir.put file).rows.length = dir.rows.length := by
  have htaken : file.name ∈ dir.rows.map BackupFile.name := by
    by_contra hfree
    rw [Table.find?_eq_none.mpr hfree] at h
    cases h
  unfold Table.put
  rw [dif_pos htaken, List.length_map]

theorem length_put_le (dir : Table (@BackupFile.name α)) (file : BackupFile α) :
    (dir.put file).rows.length ≤ dir.rows.length + 1 := by
  cases hfind : dir.find? file.name with
  | some old => exact (length_put_of_found (Option.isSome_of_eq_some hfind)).trans_le (Nat.le_succ _)
  | none =>
    rw [Table.rows_put_of_none hfind, List.length_append]
    exact Nat.le_refl _

theorem length_pruneBackups (hnames : ∀ file ∈ dir.rows, isBackupName file.name = true)
    (hread : ∀ n, unread n = false) (hfree : ∀ n, stuck n = false) :
    (pruneBackups unread stuck dir keep).rows.length = min keep dir.rows.length := by
  have hentries : entryNames unread dir = dir.rows.map BackupFile.name := by
    refine List.filter_eq_self.mpr fun n hn => ?_
    obtain ⟨file, hfile, rfl⟩ := List.mem_map.mp hn
    rw [hnames file hfile, hread]
    rfl
  have hkept := @Retention.length_kept _ _ (dir.rows.map BackupFile.name) keep dir.nodup_keys
  rw [List.filter_map, List.length_map, List.length_map] at hkept
  rw [← hkept]
  refine congrArg List.length (List.filter_congr fun file _ => ?_)
  change (stuck file.name || !(Retention.oldest keep (entryNames unread dir)).contains file.name) = _
  rw [hfree, hentries, Bool.false_or]
  simp

/-- Every request leaves at most seven backups beside those of the failed ones. -/
theorem bounded_next {op : BackupOp α φ} (hclean : ∀ env, op = .create env →
      (∀ n, env.unread n = false) ∧ ∀ n, env.stuck n = false)
    (hnames : ∀ file ∈ s.dir.rows, isBackupName file.name = true)
    (hbound : s.dir.rows.length ≤ maxBackups + failedSince steps) :
    (backupNext tar backupDir op s).2.dir.rows.length ≤
      maxBackups + failedSince (steps ++ [stepOf (backupNext tar backupDir) op s]) := by
  rw [failedSince_append]
  cases op with
  | list unread statFails => exact hbound
  | write files => exact hbound
  | restore backupId fault left =>
    change (backupRestoreHandler tar backupId fault left s).2.dir.rows.length ≤ _
    rw [dir_restore]
    exact hbound
  | lateWrite late =>
    simp only [stepOf, backupNext]
    split
    · rename_i hfound
      exact (length_put_of_found hfound).trans_le hbound
    · exact hbound
  | create env =>
    obtain ⟨hread, hfree⟩ := hclean env rfl
    have hput := fun file => (length_put_le s.dir file).trans (Nat.succ_le_succ hbound)
    simp only [stepOf, backupNext, backupCreateHandler]
    split
    · exact hbound.trans (Nat.le_succ _)
    · split
      · exact hbound.trans (Nat.le_succ _)
      · dsimp only
        split
        · exact hbound.trans (Nat.le_succ _)
        · exact hput _
      · dsimp only
        rw [length_pruneBackups ?_ hread hfree]
        · exact Nat.min_le_left _ _
        · intro file hfile
          rcases Table.mem_rows_put.mp hfile with rfl | ⟨hold, -⟩
          · exact isBackupName_backupName env.now
          · exact hnames file hold

/-- **Backups do not pile up.** In every run whose requests read the whole directory and remove
what they mean to, there are at most seven files beside one for each request that has failed since
a backup was last made. -/
theorem backups_bounded (hclean : ∀ env, .create env ∈ ops →
    (∀ n, env.unread n = false) ∧ ∀ n, env.stuck n = false) :
    (final (backupNext tar backupDir) ops (.new files)).dir.rows.length ≤
      maxBackups + failedSince (trace (backupNext tar backupDir) ops (.new files)) := by
  induction ops using List.reverseRecOn with
  | nil => exact Nat.zero_le _
  | append_singleton ops op ih =>
    have hbefore := ih fun env henv => hclean env (List.mem_append_left _ henv)
    rw [final_append, trace_append]
    refine bounded_next (fun env heq => hclean env (by simp [heq])) (fun file hfile => ?_) hbefore
    obtain ⟨env, -, hname⟩ := mem_begunNames.mp ((name_of_final hfile).resolve_left
      fun ⟨_, hnone, _⟩ => List.not_mem_nil hnone)
    exact hname ▸ isBackupName_backupName env.now

theorem backups_bounded_one : afterBackup.dir.rows.length ≤ maxBackups + failedSince
    (trace (backupNext plainTar "/b") [.create epochEnv] (.new 3)) :=
  @backups_bounded Nat Nat plainTar "/b" 3 [.create epochEnv] fun _ henv =>
    BackupOp.create.inj (List.mem_singleton.mp henv) ▸ ⟨fun _ => rfl, fun _ => rfl⟩

end Bound

end OsModa.Agentd
