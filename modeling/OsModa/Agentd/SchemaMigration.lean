import OsModa.Agentd.Ledger

/-!
The schema migration of agentd's ledger, with crashes between its steps.

A database of version 1 is hashed again, from the fields of its rows and row by row, so that
its chain is valid whatever the old one was. Which databases this happens to is read off the
recorded version, and a database that predates the table `schema_version` records none: it
counts as new, is marked as migrated with its old hashes, and stays so (`migrates_iff`).
-/

namespace OsModa.Agentd

open OsModa.Encoding

/-! ### The format without delimiters -/

/-- The fields of a row, joined without delimiters, as version 1 hashed them. -/
def undelimited (id : Int) (ts eventType actor payload prevHash : String) : List Char :=
  decimalInt id ++ (ts.toList ++ (eventType.toList ++ (actor.toList ++ (payload.toList ++
    prevHash.toList))))

section Formats

variable (sha256 : List UInt8 → List UInt8)

/-- The rows as a chain of digests in the format of version 1. -/
def undelimitedChain : HashChain.Format Event String where
  prev := Event.prevHash
  digest := Event.hash
  compute e := String.ofList (hexEncode (sha256 (utf8
    (undelimited e.id e.ts e.eventType e.actor e.payload e.prevHash))))

end Formats

/-! ### The database -/

/-- The tables that `migrate` reads or writes. -/
structure LedgerDb where
  events : Events
  index : List FtsRow
  /-- The row of `schema_version`; a database that predates the table has none. -/
  schemaVersion : Option Int

/-- `UPDATE events SET prev_hash = ?1, hash = ?2 WHERE id = ?3`. -/
def Events.setHashes (t : Events) (id : Int) (prevHash hash : String) : Events where
  rows := t.rows.map fun e =>
    if e.id = id then { e with prevHash := prevHash, hash := hash } else e
  sorted := by
    have hid : ∀ e : Event,
        (if e.id = id then { e with prevHash := prevHash, hash := hash } else e).id = e.id := by
      intro e
      split <;> rfl
    rw [List.pairwise_map]
    exact t.sorted.imp fun {a b} h => by rwa [hid a, hid b]

section Migrate

variable (sha256 : List UInt8 → List UInt8) (backfill : Events → List FtsRow → List FtsRow)

/-- The loop of `rehash_chain` over the rows that were read, oldest first. -/
def rehashLoop (prevHash : String) : List Event → Events → Events
  | [], t => t
  | e :: rows, t =>
    let hash := computeHash sha256 e.id e.ts e.eventType e.actor e.payload prevHash
    rehashLoop hash rows (t.setHashes e.id prevHash hash)

/-- Recompute all hashes in the chain using the current hash format, in one transaction. -/
def rehashChain (t : Events) : Events := rehashLoop sha256 genesisPrevHash t.rows t

/-- Current schema version. -/
def currentSchemaVersion : Int := 3

/-- The version that `migrate` works with. -/
def LedgerDb.version (db : LedgerDb) : Int := db.schemaVersion.getD 0

/-- What a migration commits, one by one. -/
inductive MigrationStep where
  | rehashChain
  | backfillFts
  | setVersion
  deriving DecidableEq, Repr

/-- The steps of a migration from a version. -/
def migrationSteps (version : Int) : List MigrationStep :=
  -- Already at current version: no migration needed, never downgrade
  if version ≥ currentSchemaVersion then []
  else
    (if version < 2 ∧ version > 0 then [.rehashChain] else []) ++
    (if version < 3 then [.backfillFts] else []) ++
    (if version < currentSchemaVersion then [.setVersion] else [])

/-- What a step commits. What `INSERT OR IGNORE` makes of the search index is FTS5's. -/
def MigrationStep.commit (db : LedgerDb) : MigrationStep → LedgerDb
  | .rehashChain => { db with events := Agentd.rehashChain sha256 db.events }
  | .backfillFts => { db with index := backfill db.events db.index }
  | .setVersion => { db with schemaVersion := some currentSchemaVersion }

/-- Run any pending migrations. -/
def migrate (db : LedgerDb) : LedgerDb :=
  (migrationSteps db.version).foldl (MigrationStep.commit sha256 backfill) db

/-- A migration that is killed after some of its steps. -/
def migrateUntil (steps : Nat) (db : LedgerDb) : LedgerDb :=
  ((migrationSteps db.version).take steps).foldl (MigrationStep.commit sha256 backfill) db

/-- A database after migrations that were killed and one that was not. -/
def migrateAfter (crashes : List Nat) (db : LedgerDb) : LedgerDb :=
  migrate sha256 backfill (crashes.foldl (fun db k => migrateUntil sha256 backfill k db) db)

/-! ### Rehashing -/

/-- The rows with the hashes of a chain that starts at a digest. -/
def relinked (prevHash : String) : List Event → List Event
  | [] => []
  | e :: rows =>
    let hash := computeHash sha256 e.id e.ts e.eventType e.actor e.payload prevHash
    { e with prevHash := prevHash, hash := hash } :: relinked hash rows

/-- The columns that no migration may touch. -/
def Event.recorded (e : Event) : Int × String × String × String × String :=
  (e.id, e.ts, e.eventType, e.actor, e.payload)

theorem relinked_valid (prevHash : String) (rows : List Event) :
    HashChain.Valid (chain sha256) prevHash (relinked sha256 prevHash rows) := by
  induction rows generalizing prevHash with
  | nil => trivial
  | cons e rows ih => exact ⟨rfl, rfl, ih _⟩

theorem relinked_recorded (prevHash : String) (rows : List Event) :
    (relinked sha256 prevHash rows).map Event.recorded = rows.map Event.recorded := by
  induction rows generalizing prevHash with
  | nil => rfl
  | cons e rows ih =>
    rw [relinked, List.map_cons, List.map_cons, ih]
    rfl

/-- Only the recorded columns matter. -/
theorem relinked_relinked (prevHash start : String) (rows : List Event) :
    relinked sha256 prevHash (relinked sha256 start rows) = relinked sha256 prevHash rows := by
  induction rows generalizing prevHash start with
  | nil => rfl
  | cons e rows ih =>
    simp only [relinked]
    rw [ih]

/-- An update changes only the row with its id. -/
theorem setHashes_rows {t : Events} {done rest : List Event} {e : Event}
    (hrows : t.rows = done ++ e :: rest) (prevHash hash : String) :
    (t.setHashes e.id prevHash hash).rows =
      done ++ { e with prevHash := prevHash, hash := hash } :: rest := by
  have hsorted := t.sorted
  rw [hrows, List.pairwise_append, List.pairwise_cons] at hsorted
  obtain ⟨-, ⟨hrest, -⟩, hdone⟩ := hsorted
  have hother : ∀ rows : List Event, (∀ r ∈ rows, r.id ≠ e.id) →
      rows.map (fun r => if r.id = e.id then { r with prevHash := prevHash, hash := hash } else r) =
        rows := by
    intro rows h
    conv_rhs => rw [← List.map_id rows]
    refine List.map_congr_left ?_
    intro r hr
    rw [if_neg (h r hr), id_eq]
  change t.rows.map _ = _
  rw [hrows, List.map_append, List.map_cons, if_pos rfl, hother done fun r hr => ?_,
    hother rest fun r hr => ?_]
  · exact (hrest r hr).ne'
  · exact (hdone r hr e List.mem_cons_self).ne

theorem rehashLoop_rows {t : Events} {done rest : List Event} (prevHash : String)
    (hrows : t.rows = done ++ rest) :
    (rehashLoop sha256 prevHash rest t).rows = done ++ relinked sha256 prevHash rest := by
  induction rest generalizing t done prevHash with
  | nil => exact hrows
  | cons e rest ih =>
    rw [rehashLoop, relinked]
    have hupdated := setHashes_rows hrows prevHash
      (computeHash sha256 e.id e.ts e.eventType e.actor e.payload prevHash)
    rw [List.append_cons] at hupdated
    rw [ih _ hupdated, ← List.append_cons]

theorem rehashChain_rows (t : Events) :
    (rehashChain sha256 t).rows = relinked sha256 genesisPrevHash t.rows :=
  rehashLoop_rows sha256 genesisPrevHash (List.nil_append t.rows).symm

theorem rehashChain_rehashChain (t : Events) :
    rehashChain sha256 (rehashChain sha256 t) = rehashChain sha256 t := by
  apply Events.ext
  rw [rehashChain_rows, rehashChain_rows, relinked_relinked]

/-! ### What a database is migrated to -/

/-- The events that the migration of a database ends with. -/
def LedgerDb.migrated (db : LedgerDb) : Events :=
  if 0 < db.version ∧ db.version < 2 then rehashChain sha256 db.events else db.events

theorem migrationSteps_cases (version : Int) :
    (3 ≤ version ∧ migrationSteps version = []) ∨
    ((0 < version ∧ version < 2) ∧
      migrationSteps version = [.rehashChain, .backfillFts, .setVersion]) ∨
    (¬ (0 < version ∧ version < 2) ∧ migrationSteps version = [.backfillFts, .setVersion]) := by
  unfold migrationSteps currentSchemaVersion
  by_cases hcurrent : version ≥ 3
  · exact .inl ⟨hcurrent, if_pos hcurrent⟩
  · have hold : version < 3 := by omega
    rw [if_neg hcurrent, if_pos hold, if_pos hold]
    by_cases hfirst : 0 < version ∧ version < 2
    · exact .inr (.inl ⟨hfirst, by rw [if_pos hfirst.symm]; rfl⟩)
    · exact .inr (.inr ⟨hfirst, by rw [if_neg fun h => hfirst h.symm]; rfl⟩)

theorem migrated_of_current {db : LedgerDb} (hcurrent : 3 ≤ db.version) :
    db.migrated sha256 = db.events := by
  refine if_neg ?_
  intro h
  have := h.2
  omega

/-- **One attempt.** However far a migration gets, what is left to do leads to the same
events. -/
theorem migrateUntil_migrated (k : Nat) (db : LedgerDb) :
    (migrateUntil sha256 backfill k db).migrated sha256 = db.migrated sha256 := by
  have hset : ∀ db : LedgerDb, (MigrationStep.commit sha256 backfill db .setVersion).migrated
      sha256 = db.events := fun db => migrated_of_current sha256 (show (3 : Int) ≤ 3 from le_rfl)
  unfold migrateUntil
  obtain ⟨-, hsteps⟩ | ⟨hfirst, hsteps⟩ | ⟨hother, hsteps⟩ := migrationSteps_cases db.version
  · rw [hsteps, List.take_nil]
    rfl
  · have hgoal : db.migrated sha256 = rehashChain sha256 db.events := if_pos hfirst
    have hredone : (if 0 < db.version ∧ db.version < 2 then
        rehashChain sha256 (rehashChain sha256 db.events) else rehashChain sha256 db.events) =
        rehashChain sha256 db.events := by
      rw [if_pos hfirst, rehashChain_rehashChain]
    rw [hsteps, hgoal]
    match k with
    | 0 => exact hgoal
    | 1 => exact hredone
    | 2 => exact hredone
    | k + 3 =>
      rw [List.take_of_length_le (Nat.le_add_left 3 k)]
      exact hset _
  · have hgoal : db.migrated sha256 = db.events := if_neg hother
    rw [hsteps, hgoal]
    match k with
    | 0 => exact hgoal
    | 1 => exact hgoal
    | k + 2 =>
      rw [List.take_of_length_le (Nat.le_add_left 2 k)]
      exact hset _

theorem migrate_eq_migrateUntil (db : LedgerDb) :
    migrate sha256 backfill db = migrateUntil sha256 backfill 3 db := by
  unfold migrate migrateUntil
  obtain ⟨-, hsteps⟩ | ⟨-, hsteps⟩ | ⟨-, hsteps⟩ := migrationSteps_cases db.version <;>
    rw [hsteps] <;> rfl

/-- A migration that is not killed records the current version. -/
theorem migrate_current (db : LedgerDb) : 3 ≤ (migrate sha256 backfill db).version := by
  unfold migrate
  obtain ⟨hcurrent, hsteps⟩ | ⟨-, hsteps⟩ | ⟨-, hsteps⟩ := migrationSteps_cases db.version
  · rw [hsteps]
    exact hcurrent
  · rw [hsteps]
    exact le_refl (3 : Int)
  · rw [hsteps]
    exact le_refl (3 : Int)

theorem migrate_events (db : LedgerDb) :
    (migrate sha256 backfill db).events = db.migrated sha256 := by
  rw [← migrated_of_current sha256 (migrate_current sha256 backfill db), migrate_eq_migrateUntil,
    migrateUntil_migrated]

/-- **Every run of attempts.** -/
theorem migrateAfter_events (crashes : List Nat) (db : LedgerDb) :
    (migrateAfter sha256 backfill crashes db).events = db.migrated sha256 := by
  rw [migrateAfter, migrate_events]
  induction crashes generalizing db with
  | nil => rfl
  | cons k crashes ih => rw [List.foldl_cons, ih, migrateUntil_migrated]

theorem migrated_recorded (db : LedgerDb) :
    (db.migrated sha256).rows.map Event.recorded = db.events.rows.map Event.recorded := by
  unfold LedgerDb.migrated
  split
  · rw [rehashChain_rows, relinked_recorded]
  · rfl

/-! ### What the migration keeps -/

/-- The format that the chain of a database was written with. -/
def LedgerDb.format (db : LedgerDb) : HashChain.Format Event String :=
  if db.version < 2 then undelimitedChain sha256 else chain sha256

/-- The database was migrated as it should be: the chain verifies, the rows are those that were
there, and another migration has nothing to do. -/
structure Migrates (before after : LedgerDb) : Prop where
  verifies : verify sha256 after.events = true
  recorded : after.events.rows.map Event.recorded = before.events.rows.map Event.recorded
  again : (migrate sha256 backfill after).events = after.events

/-- Both formats give the row the same digest. Their texts differ in length, so that this is a
collision. -/
def Collides (e : Event) : Prop :=
  (chain sha256).compute e = (undelimitedChain sha256).compute e

theorem collides_iff (e : Event) : Collides sha256 e ↔
    sha256 (utf8 (hashInput e.id e.ts e.eventType e.actor e.payload e.prevHash)) =
      sha256 (utf8 (undelimited e.id e.ts e.eventType e.actor e.payload e.prevHash)) := by
  unfold Collides chain undelimitedChain computeHash
  rw [String.ofList_inj, hexEncode_injective.eq_iff]

/-- A hash function without collisions tells the formats apart on every row. -/
theorem not_collides (hinjective : Function.Injective sha256) (e : Event) :
    ¬ Collides sha256 e := by
  rw [collides_iff, hinjective.eq_iff, utf8_injective.eq_iff]
  intro h
  have hlength := congrArg List.length h
  simp only [hashInput, undelimited, List.length_append, List.length_cons] at hlength
  omega

/-- After any number of crashes, the migration of a database whose chain is valid as it was
written does what it should if and only if the database records a version, or has no row that
the two formats hash differently. -/
theorem migrates_iff {db : LedgerDb}
    (hvalid : HashChain.Valid (db.format sha256) genesisPrevHash db.events.rows)
    (crashes : List Nat) :
    Migrates sha256 backfill db (migrateAfter sha256 backfill crashes db) ↔
      1 ≤ db.version ∨ ∀ e ∈ db.events.rows, Collides sha256 e := by
  have hevents := migrateAfter_events sha256 backfill crashes db
  have hagain : (migrate sha256 backfill (migrateAfter sha256 backfill crashes db)).events =
      (migrateAfter sha256 backfill crashes db).events := by
    rw [migrate_events]
    exact migrated_of_current sha256 (migrate_current sha256 backfill _)
  have hverifies : Migrates sha256 backfill db (migrateAfter sha256 backfill crashes db) ↔
      HashChain.Valid (chain sha256) genesisPrevHash (db.migrated sha256).rows := by
    rw [← verify_iff, ← hevents]
    exact ⟨fun h => h.verifies, fun h =>
      ⟨h, by rw [hevents, migrated_recorded], hagain⟩⟩
  rw [hverifies]
  unfold LedgerDb.migrated LedgerDb.format at *
  by_cases hold : db.version < 2
  · rw [if_pos hold] at hvalid
    by_cases hfirst : 0 < db.version
    · rw [if_pos ⟨hfirst, hold⟩, rehashChain_rows]
      exact iff_of_true (relinked_valid sha256 _ _) (.inl hfirst)
    · rw [if_neg fun h => hfirst h.1]
      rw [HashChain.valid_iff_of_valid (F := undelimitedChain sha256)
        (G := chain sha256) rfl rfl hvalid]
      exact ⟨fun h => .inr h, fun h => h.resolve_left (by omega)⟩
  · rw [if_neg hold] at hvalid
    rw [if_neg fun h => hold h.2]
    exact iff_of_true hvalid (.inl (by omega))

end Migrate

/-! A ledger with one row, as the first version wrote it. -/

/-- The row of a first boot. -/
def bootRow (hash : String) : Event :=
  ⟨1, "2026-01-05T08:00:00.000Z", "boot", "agentd", "{}", genesisPrevHash, hash⟩

/-- SHA-256 on the row's two texts, and no digest elsewhere. -/
def sha256OfBoot : List UInt8 → List UInt8 :=
  knownDigests
    [(utf8 (undelimited 1 "2026-01-05T08:00:00.000Z" "boot" "agentd" "{}" genesisPrevHash),
      [0xa6, 0x4c, 0x23, 0x9f, 0x65, 0x2e, 0xc8, 0x78, 0x0c, 0x98, 0x37, 0xe6, 0x57, 0x47, 0x97,
       0x50, 0x66, 0xce, 0xbc, 0xab, 0x3b, 0x1c, 0x3a, 0x99, 0xc6, 0xa2, 0x6f, 0x0b, 0x9e, 0xd6,
       0xb1, 0x05]),
     (utf8 (hashInput 1 "2026-01-05T08:00:00.000Z" "boot" "agentd" "{}" genesisPrevHash),
      [0x15, 0xb7, 0xc8, 0xae, 0x55, 0x96, 0x48, 0xc2, 0x72, 0x48, 0xff, 0xd3, 0xe1, 0xd1, 0x0c,
       0x96, 0x50, 0x7f, 0x1a, 0xdf, 0x55, 0xef, 0x01, 0x01, 0x23, 0x08, 0xd0, 0x9b, 0x72, 0xc7,
       0x98, 0x27])]

def bootDb (schemaVersion : Option Int) : LedgerDb where
  events :=
    ⟨[bootRow "a64c239f652ec8780c9837e65747975066cebcab3b1c3a99c6a26f0b9ed6b105"],
      List.pairwise_singleton _ _⟩
  index := []
  schemaVersion := schemaVersion

theorem bootDb_valid : HashChain.Valid (undelimitedChain sha256OfBoot) genesisPrevHash
    (bootDb none).events.rows :=
  ⟨rfl, by decide +kernel, trivial⟩

/-- With its version recorded, the ledger is migrated, after a crash in between too. -/
theorem bootDb_migrates :
    Migrates sha256OfBoot (fun _ index => index) (bootDb (some 1))
      (migrateAfter sha256OfBoot (fun _ index => index) [1] (bootDb (some 1))) := by
  have hvalid : HashChain.Valid ((bootDb (some 1)).format sha256OfBoot) genesisPrevHash
      (bootDb (some 1)).events.rows := bootDb_valid
  exact (migrates_iff sha256OfBoot (fun _ index => index) hvalid [1]).mpr (.inl (by decide))

/-- Without, it is marked as migrated with a hash that does not verify. -/
theorem bootDb_unversioned :
    HashChain.Valid ((bootDb none).format sha256OfBoot) genesisPrevHash (bootDb none).events.rows ∧
      (migrate sha256OfBoot (fun _ index => index) (bootDb none)).schemaVersion = some 3 ∧
      verify sha256OfBoot (migrate sha256OfBoot (fun _ index => index) (bootDb none)).events =
        false := by
  refine ⟨bootDb_valid, rfl, ?_⟩
  decide +kernel

end OsModa.Agentd
