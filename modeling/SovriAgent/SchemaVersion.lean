import SovriAgent.OpenDatabase

/-!
# The Schema Version

The version of a database stands in two places, the ledger of applied migrations and the
`user_version` pragma, which each executed migration sets to its own version. They agree
as long as no migration is executed late: below the version the database is at. A stack
that brings such a migration passes every check, for the stack's version is its last one.

## Main results

* `schema_version_never_decreases`: over runs of opens without late migrations, a
  successful open does not decrease the version, and leaves the largest recorded one.
* `late_migration_decreases_version`: one late migration takes the version back.
-/

namespace SovriAgent

open Keyed Transaction Transaction.Tx

/-! ### Bodies leave the ledger alone -/

@[simp] theorem addColumn_ledger (column : Column) (db : Db) :
    (addColumn column db).ledger = db.ledger := by
  obtain ⟨table, name⟩ := column
  cases table <;> rfl

@[simp] theorem tableEnsured_ledger (table : TableName) (names : List ColumnName) (db : Db) :
    (tableEnsured table names db).ledger = db.ledger := by
  rw [tableEnsured]
  split
  · rfl
  · cases table <;> rfl

theorem BodyStep.ledger_eq {columns : List Column} {db db' : Db} (h : BodyStep columns db db') :
    db'.ledger = db.ledger := by
  cases h with
  | fill hfill =>
      cases hfill with
      | addColumn column _ _ _ => exact addColumn_ledger column db
      | createTable table names _ _ => exact tableEnsured_ledger table names db
      | _ => rfl
  | _ => rfl

theorem ledger_of_bodySteps {columns : List Column} {db db' : Db}
    (h : BodySteps columns db db') : db'.ledger = db.ledger := by
  induction h with
  | refl => rfl
  | tail _ hstep ih => exact hstep.ledger_eq.trans ih

/-- A text, if it is the caller's, does not touch the ledger. -/
def LeavesLedger (engine : Engine) (text : Str) : Prop :=
  text ∉ packagedTexts → ∀ db db', engine text db = .ok db' → db'.ledger = db.ledger

/-- An executed migration had a body over a database whose ledger was, if need be, created. -/
theorem Migrated.ledger_eq {engine : Engine} {migration : PackagedMigration} {db db' : Db}
    (h : Migrated engine migration db db') (hengine : LeavesLedger engine migration.sql) :
    db'.ledger = some ((db.ledger.getD .empty).insertOrIgnore migration.version migration.name) := by
  obtain ⟨body, hbody, -, -, rfl⟩ := h
  have hledger : body.ledger = some (db.ledger.getD .empty) := by
    rcases moves_migrationBody engine migration _ _ _ hbody with ⟨_, hsteps⟩ | ⟨hnot, htext⟩
    · exact ledger_of_bodySteps hsteps
    · exact hengine hnot _ _ htext
  simp only [versionSet, migrationRecorded, hledger, Option.map_some]

/-- An executed migration is recorded, and nothing else is. -/
theorem Migrated.isApplied_iff {engine : Engine} {migration : PackagedMigration} {db db' : Db}
    (h : Migrated engine migration db db') (hengine : LeavesLedger engine migration.sql)
    (version : ℕ) :
    migrationIsApplied db' version = true ↔
      version = migration.version ∨ migrationIsApplied db version = true := by
  rw [migrationIsApplied, h.ledger_eq hengine, Option.any_some, Table.get_insertOrIgnore,
    migrationIsApplied]
  by_cases hversion : version = migration.version
  · simp [hversion]
  · cases db.ledger <;> simp [hversion]

theorem Migrated.userVersion_eq {engine : Engine} {migration : PackagedMigration} {db db' : Db}
    (h : Migrated engine migration db db') :
    db'.userVersion = storedUserVersion migration.version := by
  obtain ⟨body, -, -, -, rfl⟩ := h
  rfl

/-! ### The invariant -/

/-- The version pragma is the largest recorded version, or zero when nothing is recorded. -/
structure VersionIsLargest (db : Db) : Prop where
  recorded_le : ∀ version, migrationIsApplied db version = true → version ≤ db.userVersion
  recorded : db.userVersion ≠ 0 → migrationIsApplied db db.userVersion = true

/-- A stack brings no late migration: one below the version of the database that is neither
recorded nor inapplicable. -/
def NoLateMigration (migrations : List PackagedMigration) (db : Db) : Prop :=
  ∀ migration ∈ migrations, migration.version < db.userVersion →
    migrationIsApplied db migration.version = true ∨ migrationIsApplicable db migration = false

instance (migrations : List PackagedMigration) (db : Db) :
    Decidable (NoLateMigration migrations db) :=
  inferInstanceAs (Decidable (∀ migration ∈ migrations, _ → _))

/-- A stack the version of a database keeps up with: no migration is late, every version
fits the pragma, and no text touches the ledger. -/
structure KeepsPace (engine : Engine) (migrations : List PackagedMigration) (db : Db) : Prop where
  notLate : NoLateMigration migrations db
  fits : ∀ migration ∈ migrations, migration.version < 2 ^ 31
  leavesLedger : ∀ migration ∈ migrations, LeavesLedger engine migration.sql

/-- What one executed migration preserves. -/
theorem VersionIsLargest.migrated {engine : Engine} {migration : PackagedMigration} {db db' : Db}
    (hlargest : VersionIsLargest db) (h : Migrated engine migration db db')
    (hle : db.userVersion ≤ migration.version) (hfits : migration.version < 2 ^ 31)
    (hengine : LeavesLedger engine migration.sql) :
    VersionIsLargest db' ∧ db'.userVersion = migration.version := by
  have hversion : db'.userVersion = migration.version := by
    rw [h.userVersion_eq, storedUserVersion, if_pos hfits]
  refine ⟨⟨fun version hrecorded => ?_, fun _ => ?_⟩, hversion⟩
  · rw [hversion]
    rcases (h.isApplied_iff hengine version).mp hrecorded with rfl | hbefore
    · exact le_rfl
    · exact (hlargest.recorded_le version hbefore).trans hle
  · rw [hversion]
    exact (h.isApplied_iff hengine _).mpr (.inl rfl)

/-- What a pass over an ascending stack preserves. -/
theorem VersionIsLargest.pass {engine : Engine} {migrations : List PackagedMigration}
    {db db' : Db} (hpass : Pass engine migrations db db') (hlargest : VersionIsLargest db)
    (hascending : migrations.Pairwise (·.version < ·.version))
    (hpace : KeepsPace engine migrations db) :
    VersionIsLargest db' ∧ db.userVersion ≤ db'.userVersion := by
  induction hpass with
  | done => exact ⟨hlargest, le_rfl⟩
  | skip _ _ ih =>
      have hrest := List.forall_mem_of_forall_mem_cons hpace.notLate
      exact ih hlargest (List.pairwise_cons.mp hascending).2
        ⟨hrest, List.forall_mem_of_forall_mem_cons hpace.fits,
          List.forall_mem_of_forall_mem_cons hpace.leavesLedger⟩
  | @execute migration migrations _ db db₁ db' hpending happlicable happly _ ih =>
      obtain ⟨hlater, hascending⟩ := List.pairwise_cons.mp hascending
      have hle : db.userVersion ≤ migration.version := by
        by_contra hlate
        rcases hpace.notLate migration List.mem_cons_self (by omega) with h | h
        · rw [hpending] at h
          cases h
        · rw [happlicable] at h
          cases h
      obtain ⟨hlargest₁, hversion⟩ := hlargest.migrated (migrated_of_pending happly hpending) hle
        (hpace.fits migration List.mem_cons_self)
        (hpace.leavesLedger migration List.mem_cons_self)
      -- The migrations left are above the version just set, so none of them is late.
      have hnotLate : NoLateMigration migrations db₁ := by
        intro m hm hbelow
        have := hlater m hm
        omega
      obtain ⟨hlargest', hmono⟩ := ih hlargest₁ hascending
        ⟨hnotLate, List.forall_mem_of_forall_mem_cons hpace.fits,
          List.forall_mem_of_forall_mem_cons hpace.leavesLedger⟩
      exact ⟨hlargest', by omega⟩

/-- What an open preserves, whether it succeeds or fails. -/
theorem VersionIsLargest.opened {engine : Engine} {migrations : List PackagedMigration}
    {faults : OpenFaults} {db db' : Db} {result : Except LocalDatabaseError Unit}
    (h : openWithPackagedMigrations engine migrations faults db = (result, db'))
    (hlargest : VersionIsLargest db) (hpace : KeepsPace engine migrations db) :
    VersionIsLargest db' ∧ db.userVersion ≤ db'.userVersion := by
  obtain ⟨passed, left, rfl, hpass, hascending⟩ := openWithPackagedMigrations_passes h
  exact hlargest.pass hpass hascending
    ⟨fun m hm => hpace.notLate m (List.mem_append_left _ hm),
      fun m hm => hpace.fits m (List.mem_append_left _ hm),
      fun m hm => hpace.leavesLedger m (List.mem_append_left _ hm)⟩

/-! ### Runs of opens -/

/-- One open, successful or not, with a stack the version keeps up with. -/
def OpenStep (engine : Engine) (db db' : Db) : Prop :=
  ∃ migrations faults result, KeepsPace engine migrations db ∧
    openWithPackagedMigrations engine migrations faults db = (result, db')

theorem versionIsLargest_emptyDb : VersionIsLargest emptyDb :=
  ⟨fun _ h => absurd h Bool.false_ne_true, fun h => absurd rfl h⟩

/-- Every state of such a run is at its largest recorded version. -/
theorem versionIsLargest_of_run {engine : Engine} {db : Db}
    (hrun : Relation.ReflTransGen (OpenStep engine) emptyDb db) : VersionIsLargest db := by
  induction hrun with
  | refl => exact versionIsLargest_emptyDb
  | tail _ hstep ih =>
      obtain ⟨migrations, faults, result, hpace, hopen⟩ := hstep
      exact (ih.opened hopen hpace).1

/-- **The schema version never goes backwards**: in every run of opens from an empty file,
each with a stack the version keeps up with, a further successful open does not decrease
`user_version` and leaves it at the largest version the ledger records. -/
theorem schema_version_never_decreases {engine : Engine} {migrations : List PackagedMigration}
    {faults : OpenFaults} {db db' : Db}
    (hrun : Relation.ReflTransGen (OpenStep engine) emptyDb db)
    (hpace : KeepsPace engine migrations db)
    (hopen : openWithPackagedMigrations engine migrations faults db = (.ok (), db')) :
    db.userVersion ≤ db'.userVersion ∧
      IsGreatest {version | migrationIsApplied db' version = true} db'.userVersion := by
  obtain ⟨hlargest, hmono⟩ := (versionIsLargest_of_run hrun).opened hopen hpace
  obtain ⟨hne, hrecorded⟩ := validateCurrentSchema_ok (openWithPackagedMigrations_ok hopen).2
  exact ⟨hmono, hrecorded, fun version h => hlargest.recorded_le version h⟩

/-- A migration of a version that does nothing, beside being recorded. -/
def bareMigration (version : ℕ) : PackagedMigration :=
  ⟨version, "bare".toList, []⟩

/-- An engine in which every text fails. -/
def noTexts : Engine :=
  fun _ _ => .error .sqlite

/-- The faults of an open in which nothing fails by itself. -/
def noOpenFaults : OpenFaults :=
  ⟨false, fun _ => ⟨false, false, fun _ => false⟩, false⟩

/-- An open without faults. -/
def openWith (versions : List ℕ) (db : Db) : Except LocalDatabaseError Unit × Db :=
  openWithPackagedMigrations noTexts (versions.map bareMigration) noOpenFaults db

theorem leavesLedger_noTexts (text : Str) : LeavesLedger noTexts text :=
  fun _ _ _ h => by cases h

theorem schema_version_never_decreases_bare :
    (openWith [1] emptyDb).2.userVersion ≤
        (openWith [1, 3] (openWith [1] emptyDb).2).2.userVersion ∧
      IsGreatest {version | migrationIsApplied
          (openWith [1, 3] (openWith [1] emptyDb).2).2 version = true}
        (openWith [1, 3] (openWith [1] emptyDb).2).2.userVersion := by
  have hfirst : OpenStep noTexts emptyDb (openWith [1] emptyDb).2 :=
    ⟨[bareMigration 1], noOpenFaults, _,
      ⟨by decide, by decide, fun _ _ => leavesLedger_noTexts _⟩, rfl⟩
  exact schema_version_never_decreases (.single hfirst)
    ⟨by decide, by decide, fun _ _ => leavesLedger_noTexts _⟩ (Prod.ext (by decide) rfl)

/-- **One late migration takes the version back**: a database opened with versions 1 and 3
and then with versions 1, 2 and 3 is at version 2, with version 3 recorded. -/
theorem late_migration_decreases_version :
    (openWith [1, 3] emptyDb).1 = .ok () ∧ (openWith [1, 3] emptyDb).2.userVersion = 3 ∧
      (openWith [1, 2, 3] (openWith [1, 3] emptyDb).2).1 = .ok () ∧
      (openWith [1, 2, 3] (openWith [1, 3] emptyDb).2).2.userVersion = 2 ∧
      migrationIsApplied (openWith [1, 2, 3] (openWith [1, 3] emptyDb).2).2 3 = true := by
  decide

end SovriAgent
