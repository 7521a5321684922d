import SovriAgent.Migrations

/-!
# Opening the Local Database

An open rejects a database newer than the supplied migrations, applies the pending ones
in the order of the stack, each in an immediate transaction of its own, and validates the
schema it ends with. Whether a migration is pending is first decided outside of any
transaction; the transaction reads the ledger again.

The checks of the path before the file is opened are left out.

## Main results

* `applyPackagedMigration_ok`: a migration that succeeds was applied already, or leaves
  its body's database with the ledger and the version of the migration.
* `openWithPackagedMigrations_passes`: an open, successful or not, is a `Pass` over an
  initial part of the stack.
* `openWithPackagedMigrations_ok`: what a successful open has checked and done.
* `openWithPackagedMigrations_emptyDb`: an empty file opens as `freshDb`.
-/

namespace SovriAgent

open Keyed Transaction Transaction.Tx

/-! ### Applying a migration -/

/-- What `user_version` holds once it is set to a version: a signed number of 32 bits, and
zero for a number that does not fit. -/
def storedUserVersion (version : ℕ) : ℕ :=
  if version < 2 ^ 31 then version else 0

/-- The database with a ledger. -/
def ledgerEnsured (db : Db) : Db :=
  { db with ledger := some (db.ledger.getD .empty) }

/-- The database with a migration recorded in its ledger. -/
def migrationRecorded (migration : PackagedMigration) (db : Db) : Db :=
  { db with
    ledger := db.ledger.map fun ledger => ledger.insertOrIgnore migration.version migration.name }

/-- Records a migration in the ledger; its version is a primary key. -/
def recordMigration (migration : PackagedMigration) : DbTx Unit :=
  Tx.execute .sqlite fun db =>
    if db.ledger.isSome ∧ migrationIsApplied db migration.version = false then
      .ok (migrationRecorded migration db)
    else .error .sqlite

/-- The database at a version. -/
def versionSet (version : ℕ) (db : Db) : Db :=
  { db with userVersion := storedUserVersion version }

/-- The statements that apply a migration. -/
def migrationStatements (engine : Engine) (migration : PackagedMigration) : DbTx Unit := do
  sql [] ledgerEnsured
  migrationBody engine migration
  recordMigration migration
  sql [] (versionSet migration.version)

/-- The transaction of a migration: nothing is done if the ledger records it by now. -/
def migrationTransaction (engine : Engine) (migration : PackagedMigration) : DbTx Unit := do
  let applied ← ask [] fun db => migrationIsApplied db migration.version
  if applied then pure ()
  else (migrationStatements engine migration).mapError fun _ => .migration migration.name

/-- Applies a migration, unless its text is destructive. -/
def applyPackagedMigration (engine : Engine) (migration : PackagedMigration)
    (faults : ℕ → Bool) (db : Db) : Except LocalDatabaseError Unit × Db :=
  match destructiveMigrationOperation migration.sql with
  | some operation => (.error (.destructiveMigration migration.name operation), db)
  | none =>
      (migrationTransaction engine migration).transaction (.migration migration.name) faults db

/-- The faults of the turn of one migration. -/
structure MigrationFaults where
  ledgerRead : Bool
  applicabilityRead : Bool
  transaction : ℕ → Bool

/-- Applies the migrations of a stack that are neither applied nor inapplicable. -/
def applyPackagedMigrations (engine : Engine) :
    List PackagedMigration → (ℕ → MigrationFaults) → Db → Except LocalDatabaseError Unit × Db
  | [], _, db => (.ok (), db)
  | migration :: migrations, faults, db =>
      let next := fun n => faults (n + 1)
      if (faults 0).ledgerRead then (.error .sqlite, db)
      else if migrationIsApplied db migration.version then
        applyPackagedMigrations engine migrations next db
      else if (faults 0).applicabilityRead then (.error .sqlite, db)
      else if migrationIsApplicable db migration then
        match applyPackagedMigration engine migration (faults 0).transaction db with
        | (.error e, db') => (.error e, db')
        | (.ok (), db') => applyPackagedMigrations engine migrations next db'
      else applyPackagedMigrations engine migrations next db

/-! ### Checks before and after -/

/-- The version of a stack of migrations, which must be ascending. -/
def packagedVersionFrom (previous : ℕ) : List PackagedMigration → Except LocalDatabaseError ℕ
  | [] => .ok previous
  | migration :: migrations =>
      if migration.version < previous then
        .error (.schema ("packaged migration version ".toList ++ decimal migration.version ++
          " appears after version ".toList ++ decimal previous ++
          "; migrations must be ordered by ascending version".toList))
      else if migration.version = previous then
        .error (.schema ("duplicate packaged migration version ".toList ++ decimal previous))
      else packagedVersionFrom migration.version migrations

/-- The version of a stack of migrations: its last one. -/
def currentPackagedSchemaVersion : List PackagedMigration → Except LocalDatabaseError ℕ
  | [] =>
      .error (.schema
        "no packaged migrations supplied; cannot determine current schema version".toList)
  | migration :: migrations => packagedVersionFrom migration.version migrations

/-- Rejects a database whose version is newer than the stack's. -/
def rejectNewerSchemaVersion (db : Db) (migrations : List PackagedMigration) :
    Except LocalDatabaseError Unit :=
  match currentPackagedSchemaVersion migrations with
  | .error e => .error e
  | .ok version =>
      if version < db.userVersion then
        .error (.schema ("unsupported newer schema version ".toList ++ decimal db.userVersion ++
          "; packaged current schema version is ".toList ++ decimal version))
      else .ok ()

/-- Whether a stack has a migration of a version. -/
def migrationVersionIsSupplied (version : ℕ) (migrations : List PackagedMigration) : Bool :=
  migrations.any (·.version = version)

/-- Whether a stack has one of the packaged migrations. -/
def usesSupportedSchemaRequirements (migrations : List PackagedMigration) : Bool :=
  migrations.any fun migration => packagedMigrations.any (migration = ·)

/-- Texts separated by a comma and a blank. -/
def joinTexts : List Str → Str
  | [] => []
  | [s] => s
  | s :: items => s ++ ", ".toList ++ joinTexts items

/-- The versions of a stack, in ascending order. -/
def packagedMigrationVersions (migrations : List PackagedMigration) : Str :=
  let versions := (migrations.map (·.version)).dedup.insertionSort (· ≤ ·)
  if versions = [] then "none".toList else joinTexts (versions.map decimal)

/-- The error for a version the stack does not produce. -/
def unsupportedSchemaVersion (version : ℕ) (migrations : List PackagedMigration) :
    LocalDatabaseError :=
  .schema ("unsupported schema version ".toList ++ decimal version ++
    "; supplied packaged migration versions: ".toList ++ packagedMigrationVersions migrations)

/-- The requirements of the latest supported version. -/
def latestSupportedSchemaRequirements : ℕ × List Column :=
  (8, schemaVersion8RequiredColumns)

/-- The columns the schema version of a database requires. -/
def requiredSchemaColumns (version : ℕ) (migrations : List PackagedMigration) :
    Except LocalDatabaseError (List Column) :=
  if version = 0 then
    .error (.schema
      "schema version 0 is uninitialized; expected a migrated local database".toList)
  else if usesSupportedSchemaRequirements migrations then
    match supportedSchemaRequirements.find? (·.1 = version) with
    | some requirements => .ok requirements.2
    | none =>
        if latestSupportedSchemaRequirements.1 < version ∧
            migrationVersionIsSupplied version migrations then
          .ok latestSupportedSchemaRequirements.2
        else .error (unsupportedSchemaVersion version migrations)
  else if migrationVersionIsSupplied version migrations then .ok []
  else .error (unsupportedSchemaVersion version migrations)

/-- The name of a column with its table. -/
def columnLabel (column : Column) : Str :=
  column.1.label ++ '.' :: column.2.label

/-- Checks that the ledger records the version and that its columns exist. -/
def validateCurrentSchema (db : Db) (migrations : List PackagedMigration) :
    Except LocalDatabaseError Unit :=
  if db.userVersion ≠ 0 ∧ migrationIsApplied db db.userVersion = false then
    .error (.schema ("unsupported schema version ".toList ++ decimal db.userVersion ++
      "; schema_migrations does not record that version".toList))
  else
    match requiredSchemaColumns db.userVersion migrations with
    | .error e => .error e
    | .ok columns =>
        let missing := columns.filter fun column => !db.columnExists column
        if missing = [] then .ok ()
        else
          .error (.schema ("schema version ".toList ++ decimal db.userVersion ++
            " failed validation; missing ".toList ++ decimal missing.length ++
            " required column(s): ".toList ++ joinTexts (missing.map columnLabel)))

/-! ### Opening -/

/-- The faults of an open. -/
structure OpenFaults where
  versionRead : Bool
  migrations : ℕ → MigrationFaults
  validationRead : Bool

/-- Opens the database with a stack of migrations: the result, and the database it leaves. -/
def openWithPackagedMigrations (engine : Engine) (migrations : List PackagedMigration)
    (faults : OpenFaults) (db : Db) : Except LocalDatabaseError Unit × Db :=
  if faults.versionRead then (.error .sqlite, db)
  else
    match rejectNewerSchemaVersion db migrations with
    | .error e => (.error e, db)
    | .ok () =>
        match applyPackagedMigrations engine migrations faults.migrations db with
        | (.error e, db') => (.error e, db')
        | (.ok (), db') =>
            if faults.validationRead then (.error .sqlite, db')
            else (validateCurrentSchema db' migrations, db')

/-! ### What a migration does -/

/-- A migration was executed: its body ran over a database with a ledger, and then its
version was recorded and set. -/
def Migrated (engine : Engine) (migration : PackagedMigration) (db db' : Db) : Prop :=
  ∃ body, (migrationBody engine migration).Runs (ledgerEnsured db) () body ∧
    body.ledger.isSome = true ∧ migrationIsApplied body migration.version = false ∧
    db' = versionSet migration.version (migrationRecorded migration body)

theorem runs_migrationStatements {engine : Engine} {migration : PackagedMigration} {db db' : Db}
    (h : (migrationStatements engine migration).Runs db () db') :
    Migrated engine migration db db' := by
  obtain ⟨_, db₁, hledger, h⟩ := h.of_bind
  obtain ⟨_, body, hbody, h⟩ := h.of_bind
  obtain ⟨_, db₂, hrecord, hversion⟩ := h.of_bind
  obtain rfl := runs_sql hledger
  have hrecord := hrecord.of_execute
  split at hrecord
  · next hcheck =>
      obtain rfl := Except.ok.inj hrecord
      exact ⟨body, hbody, hcheck.1, hcheck.2, runs_sql hversion⟩
  · cases hrecord

/-- **A migration that succeeds** was recorded by then, or was executed. -/
theorem applyPackagedMigration_ok {engine : Engine} {migration : PackagedMigration}
    {faults : ℕ → Bool} {db db' : Db}
    (h : applyPackagedMigration engine migration faults db = (.ok (), db')) :
    migrationIsApplied db migration.version = true ∧ db' = db ∨
      migrationIsApplied db migration.version = false ∧ Migrated engine migration db db' := by
  rw [applyPackagedMigration] at h
  split at h
  · cases (Prod.mk.inj h).1
  · obtain ⟨applied, db₁, happlied, hrest⟩ := (transaction_ok h).of_bind
    obtain ⟨rfl, rfl⟩ := runs_ask happlied
    split at hrest
    · next hrecorded => exact .inl ⟨hrecorded, hrest.of_pure.2⟩
    · next hrecorded =>
        exact .inr ⟨by simpa using hrecorded, runs_migrationStatements hrest.of_mapError⟩

/-- A pending migration that succeeds was executed. -/
theorem migrated_of_pending {engine : Engine} {migration : PackagedMigration}
    {faults : ℕ → Bool} {db db' : Db}
    (h : applyPackagedMigration engine migration faults db = (.ok (), db'))
    (hpending : migrationIsApplied db migration.version = false) :
    Migrated engine migration db db' := by
  rcases applyPackagedMigration_ok h with ⟨hrecorded, -⟩ | ⟨-, hmigrated⟩
  · rw [hpending] at hrecorded
    cases hrecorded
  · exact hmigrated

/-- A migration that is recorded by now succeeds without being executed. -/
theorem applyPackagedMigration_recorded (engine : Engine) {migration : PackagedMigration}
    {db : Db} (hsafe : destructiveMigrationOperation migration.sql = none)
    (happlied : migrationIsApplied db migration.version = true) :
    applyPackagedMigration engine migration (fun _ => false) db = (.ok (), db) := by
  have hanswers : (migrationTransaction engine migration).Answers db () := by
    have hask : (ask [] fun db => migrationIsApplied db migration.version).Answers db true :=
      answers_query (congrArg Except.ok happlied)
    exact answers_bind hask (answers_pure () db)
  rw [applyPackagedMigration, hsafe]
  exact hanswers.transaction_eq _

/-- A migration that succeeds also does so when nothing fails by itself. -/
theorem applyPackagedMigration_faultless {engine : Engine} {migration : PackagedMigration}
    {faults : ℕ → Bool} {db db' : Db}
    (h : applyPackagedMigration engine migration faults db = (.ok (), db')) :
    applyPackagedMigration engine migration (fun _ => false) db = (.ok (), db') := by
  rw [applyPackagedMigration] at h ⊢
  split at h
  · cases (Prod.mk.inj h).1
  · exact transaction_faultless h

/-- A migration that fails leaves the database alone. -/
theorem applyPackagedMigration_error {engine : Engine} {migration : PackagedMigration}
    {faults : ℕ → Bool} {db db' : Db} {e : LocalDatabaseError}
    (h : applyPackagedMigration engine migration faults db = (.error e, db')) : db' = db := by
  rw [applyPackagedMigration] at h
  split at h
  · exact (Prod.mk.inj h).2.symm
  · exact transaction_error h

/-- A pass over a stack: a migration is executed unless it is applied or inapplicable. -/
inductive Pass (engine : Engine) : List PackagedMigration → Db → Db → Prop where
  | done (db : Db) : Pass engine [] db db
  | skip {migration : PackagedMigration} {migrations : List PackagedMigration} {db db' : Db}
      (hskip : migrationIsApplied db migration.version = true ∨
        migrationIsApplicable db migration = false)
      (hrest : Pass engine migrations db db') : Pass engine (migration :: migrations) db db'
  | execute {migration : PackagedMigration} {migrations : List PackagedMigration}
      {faults : ℕ → Bool} {db db₁ db' : Db}
      (hpending : migrationIsApplied db migration.version = false)
      (happlicable : migrationIsApplicable db migration = true)
      (happly : applyPackagedMigration engine migration faults db = (.ok (), db₁))
      (hrest : Pass engine migrations db₁ db') : Pass engine (migration :: migrations) db db'

/-- Applying a stack is a pass over an initial part of it, and over all of it when nothing
fails. -/
theorem applyPackagedMigrations_passes {engine : Engine} {migrations : List PackagedMigration}
    {faults : ℕ → MigrationFaults} {db db' : Db} {result : Except LocalDatabaseError Unit}
    (h : applyPackagedMigrations engine migrations faults db = (result, db')) :
    ∃ passed left, migrations = passed ++ left ∧ Pass engine passed db db' ∧
      (result = .ok () → left = []) := by
  induction migrations generalizing faults db with
  | nil =>
      obtain ⟨-, rfl⟩ := Prod.mk.inj h
      exact ⟨[], [], rfl, .done _, fun _ => rfl⟩
  | cons migration migrations ih =>
      have hstopped : ∀ e : LocalDatabaseError, (Except.error e, db) = (result, db') →
          ∃ passed left, migration :: migrations = passed ++ left ∧ Pass engine passed db db' ∧
            (result = .ok () → left = []) := by
        intro e he
        obtain ⟨rfl, rfl⟩ := Prod.mk.inj he
        exact ⟨[], _, rfl, .done _, fun hok => by cases hok⟩
      rw [applyPackagedMigrations] at h
      split_ifs at h with hread happlied hcheck happlicable
      · exact hstopped _ h
      · obtain ⟨passed, left, rfl, hpass, hok⟩ := ih h
        exact ⟨migration :: passed, left, rfl, .skip (.inl happlied) hpass, hok⟩
      · exact hstopped _ h
      · split at h
        · next e db₁ hfailed =>
            obtain rfl := applyPackagedMigration_error hfailed
            exact hstopped e h
        · next db₁ hdone =>
            obtain ⟨passed, left, rfl, hpass, hok⟩ := ih h
            exact ⟨migration :: passed, left, rfl,
              .execute (by simpa using happlied) happlicable hdone hpass, hok⟩
      · obtain ⟨passed, left, rfl, hpass, hok⟩ := ih h
        exact ⟨migration :: passed, left, rfl, .skip (.inr (by simpa using happlicable)) hpass,
          hok⟩

/-! ### What an open does -/

theorem packagedVersionFrom_ok {previous version : ℕ} {migrations : List PackagedMigration}
    (h : packagedVersionFrom previous migrations = .ok version) :
    (∀ migration ∈ migrations, previous < migration.version) ∧
      migrations.Pairwise (·.version < ·.version) := by
  induction migrations generalizing previous with
  | nil => exact ⟨by simp, .nil⟩
  | cons migration migrations ih =>
      rw [packagedVersionFrom] at h
      split_ifs at h with hless hequal
      obtain ⟨hlater, hascending⟩ := ih h
      have hprevious : previous < migration.version := by omega
      refine ⟨?_, List.pairwise_cons.mpr ⟨hlater, hascending⟩⟩
      intro m hm
      rcases List.mem_cons.mp hm with rfl | hm
      · exact hprevious
      · exact hprevious.trans (hlater m hm)

/-- A stack that is not rejected is ascending. -/
theorem ascending_of_rejectNewerSchemaVersion {db : Db} {migrations : List PackagedMigration}
    (h : rejectNewerSchemaVersion db migrations = .ok ()) :
    migrations.Pairwise (·.version < ·.version) := by
  rw [rejectNewerSchemaVersion] at h
  split at h
  · cases h
  · next version hversion =>
      rcases migrations with _ | ⟨migration, migrations⟩
      · exact .nil
      · exact List.pairwise_cons.mpr (packagedVersionFrom_ok hversion)

/-- **An open is a pass** over an initial part of an ascending stack. -/
theorem openWithPackagedMigrations_passes {engine : Engine}
    {migrations : List PackagedMigration} {faults : OpenFaults} {db db' : Db}
    {result : Except LocalDatabaseError Unit}
    (h : openWithPackagedMigrations engine migrations faults db = (result, db')) :
    ∃ passed left, migrations = passed ++ left ∧ Pass engine passed db db' ∧
      passed.Pairwise (·.version < ·.version) := by
  have hstopped : ∀ e : LocalDatabaseError, (Except.error e, db) = (result, db') →
      ∃ passed left, migrations = passed ++ left ∧ Pass engine passed db db' ∧
        passed.Pairwise (·.version < ·.version) := by
    intro e he
    obtain ⟨-, rfl⟩ := Prod.mk.inj he
    exact ⟨[], _, rfl, .done _, .nil⟩
  rw [openWithPackagedMigrations] at h
  split at h
  · exact hstopped _ h
  · split at h
    · exact hstopped _ h
    · next haccepted =>
        have hascending := ascending_of_rejectNewerSchemaVersion haccepted
        rcases happly : applyPackagedMigrations engine migrations faults.migrations db
          with ⟨applied, db₁⟩
        obtain ⟨passed, left, rfl, hpass, -⟩ := applyPackagedMigrations_passes happly
        have hdb : db₁ = db' := by
          rw [happly] at h
          rcases applied with e | ⟨⟩
          · exact (Prod.mk.inj h).2
          · simp only at h
            split at h
            · exact (Prod.mk.inj h).2
            · exact (Prod.mk.inj h).2
        subst hdb
        exact ⟨passed, left, rfl, hpass, (List.pairwise_append.mp hascending).1⟩

/-- **A successful open** passed over the whole stack and left a valid schema. -/
theorem openWithPackagedMigrations_ok {engine : Engine} {migrations : List PackagedMigration}
    {faults : OpenFaults} {db db' : Db}
    (h : openWithPackagedMigrations engine migrations faults db = (.ok (), db')) :
    Pass engine migrations db db' ∧ validateCurrentSchema db' migrations = .ok () := by
  rw [openWithPackagedMigrations] at h
  split at h
  · cases (Prod.mk.inj h).1
  · split at h
    · cases (Prod.mk.inj h).1
    · split at h
      · cases (Prod.mk.inj h).1
      · next db₁ happly =>
          split at h
          · cases (Prod.mk.inj h).1
          · obtain ⟨hvalid, rfl⟩ := Prod.mk.inj h
            obtain ⟨passed, left, rfl, hpass, hleft⟩ := applyPackagedMigrations_passes happly
            rw [hleft rfl, List.append_nil] at hvalid ⊢
            exact ⟨hpass, hvalid⟩

/-- A database with a valid schema is at a recorded version. -/
theorem validateCurrentSchema_ok {db : Db} {migrations : List PackagedMigration}
    (h : validateCurrentSchema db migrations = .ok ()) :
    db.userVersion ≠ 0 ∧ migrationIsApplied db db.userVersion = true := by
  rw [validateCurrentSchema] at h
  split_ifs at h with hversion
  have hne : db.userVersion ≠ 0 := by
    intro hzero
    rw [requiredSchemaColumns, if_pos hzero] at h
    cases h
  exact ⟨hne, by simpa [hne] using hversion⟩

/-! ### Databases with nothing to migrate -/

/-- Every migration of a stack is applied or inapplicable. -/
def Settled (migrations : List PackagedMigration) (db : Db) : Prop :=
  ∀ migration ∈ migrations, migrationIsApplied db migration.version = true ∨
    migrationIsApplicable db migration = false

/-- A pass continues with a migration that is applied or inapplicable by then. -/
theorem Pass.append_skip {engine : Engine} {passed : List PackagedMigration}
    {migration : PackagedMigration} {db db' : Db} (h : Pass engine passed db db')
    (hskip : migrationIsApplied db' migration.version = true ∨
      migrationIsApplicable db' migration = false) :
    Pass engine (passed ++ [migration]) db db' := by
  induction h with
  | done db => exact .skip hskip (.done db)
  | skip hskip' _ ih => exact .skip hskip' (ih hskip)
  | execute hpending happlicable happly _ ih => exact .execute hpending happlicable happly (ih hskip)

/-- A pass continues with a migration that is executed. -/
theorem Pass.append_execute {engine : Engine} {passed : List PackagedMigration}
    {migration : PackagedMigration} {faults : ℕ → Bool} {db db' db'' : Db}
    (h : Pass engine passed db db')
    (hpending : migrationIsApplied db' migration.version = false)
    (happlicable : migrationIsApplicable db' migration = true)
    (happly : applyPackagedMigration engine migration faults db' = (.ok (), db'')) :
    Pass engine (passed ++ [migration]) db db'' := by
  induction h with
  | done db => exact .execute hpending happlicable happly (.done db'')
  | skip hskip _ ih => exact .skip hskip (ih hpending happlicable happly)
  | execute hpending' happlicable' happly' _ ih =>
      exact .execute hpending' happlicable' happly' (ih hpending happlicable happly)

/-- A stack applied without faults. -/
def noMigrationFaults : ℕ → MigrationFaults :=
  fun _ => ⟨false, false, fun _ => false⟩

/-- A pass over the first part of a stack can be left out. -/
theorem Pass.applyPackagedMigrations_append {engine : Engine} {passed : List PackagedMigration}
    {db db' : Db} (h : Pass engine passed db db') (left : List PackagedMigration) :
    applyPackagedMigrations engine (passed ++ left) noMigrationFaults db =
      applyPackagedMigrations engine left noMigrationFaults db' := by
  induction h with
  | done db => rfl
  | @skip migration migrations db db' hskip _ ih =>
      rw [List.cons_append, applyPackagedMigrations]
      simp only [noMigrationFaults, Bool.false_eq_true, if_false]
      rcases hskip with happlied | hinapplicable
      · rw [if_pos happlied]
        exact ih
      · rw [hinapplicable, if_neg Bool.false_ne_true]
        split <;> exact ih
  | @execute migration migrations faults db db₁ db' hpending happlicable happly _ ih =>
      rw [List.cons_append, applyPackagedMigrations]
      simp only [noMigrationFaults, Bool.false_eq_true, if_false]
      rw [hpending, if_neg Bool.false_ne_true, if_pos happlicable,
        applyPackagedMigration_faultless happly]
      exact ih

/-- Every pass is what a stack applied without faults does. -/
theorem Pass.applyPackagedMigrations_eq {engine : Engine} {migrations : List PackagedMigration}
    {db db' : Db} (h : Pass engine migrations db db') :
    applyPackagedMigrations engine migrations noMigrationFaults db = (.ok (), db') := by
  have happend := h.applyPackagedMigrations_append []
  rw [List.append_nil] at happend
  exact happend

/-- A pass over a settled stack changes nothing. -/
theorem Pass.eq_of_settled {engine : Engine} {migrations : List PackagedMigration} {db db' : Db}
    (h : Pass engine migrations db db') (hsettled : Settled migrations db) : db' = db := by
  induction h with
  | done => rfl
  | skip _ _ ih => exact ih fun m hm => hsettled m (List.mem_cons_of_mem _ hm)
  | execute hpending happlicable _ _ _ =>
      rcases hsettled _ List.mem_cons_self with hsettled | hsettled
      · rw [hpending] at hsettled
        cases hsettled
      · rw [happlicable] at hsettled
        cases hsettled

/-! ### The first open -/

/-- The database in an empty file. -/
def emptyDb : Db where
  schema := ∅
  scoreColumnsNotNull := false
  scanRuns := .empty
  frameworks := .empty
  controls := .empty
  controlResults := .empty
  complianceGaps := .empty
  evidenceMetadata := .empty
  runEvidenceLinks := .empty
  runFrameworkLinks := .empty
  runControlLinks := .empty
  scoreSummaries := .empty
  ledger := none
  userVersion := 0

/-- The database an empty file opens as. -/
def freshDb : Db :=
  { emptyDb with
    schema := initialColumns.toFinset
    scoreColumnsNotNull := true
    ledger := some (Table.empty.insertOrIgnore 1 initialMigration.name)
    userVersion := 1 }

/-- Creates tables one after the other. -/
def tablesEnsured (tables : List (TableName × List ColumnName)) (db : Db) : Db :=
  tables.foldl (fun db table => tableEnsured table.1 table.2 db) db

theorem hasEffect_createTables (tables : List (TableName × List ColumnName)) :
    (tables.forM fun table => createTable table.1 table.2).HasEffect (tablesEnsured tables) := by
  revert tables
  exact hasEffect_forM (fun _ => hasEffect_sql _ _) (fun _ => rfl) fun _ _ _ => rfl

/-- A database with a ledger and no rows, by its columns and the constraint on the score
columns. -/
def blankDb (shape : Finset Column × Bool) : Db :=
  { emptyDb with
    schema := shape.1
    scoreColumnsNotNull := shape.2
    ledger := some .empty }

/-- The shape of a database with a table created. -/
def shapeEnsured (shape : Finset Column × Bool) (table : TableName × List ColumnName) :
    Finset Column × Bool :=
  if ∃ column ∈ shape.1, column.1 = table.1 then shape
  else (shape.1 ∪ (columnsOf table.1 table.2).toFinset, shape.2 || table.1 = .scoreSummaries)

theorem tableEnsured_blankDb (shape : Finset Column × Bool)
    (table : TableName × List ColumnName) :
    tableEnsured table.1 table.2 (blankDb shape) = blankDb (shapeEnsured shape table) := by
  obtain ⟨name, names⟩ := table
  have htable : (blankDb shape).tableExists name =
      decide (∃ column ∈ shape.1, column.1 = name) := rfl
  simp only [tableEnsured, shapeEnsured, htable, decide_eq_true_iff]
  split
  · rfl
  · cases name <;> simp [clearTable, blankDb, emptyDb]

theorem tablesEnsured_blankDb (tables : List (TableName × List ColumnName))
    (shape : Finset Column × Bool) :
    tablesEnsured tables (blankDb shape) = blankDb (tables.foldl shapeEnsured shape) := by
  induction tables generalizing shape with
  | nil => rfl
  | cons table tables ih =>
      rw [tablesEnsured, List.foldl_cons, tableEnsured_blankDb, List.foldl_cons]
      exact ih _

/-- The initial schema over an empty file. -/
theorem migrated_initial {engine : Engine} {db : Db}
    (h : Migrated engine initialMigration emptyDb db) : db = freshDb := by
  obtain ⟨body, hbody, -, -, rfl⟩ := h
  rw [migrationBody_initial] at hbody
  have hbody := (Prod.mk.inj (hasEffect_createTables initialTables _ _ _ hbody)).2
  have hshape : initialTables.foldl shapeEnsured (∅, false) = (initialColumns.toFinset, true) := by
    decide +kernel
  have hblank : body = blankDb (initialColumns.toFinset, true) := by
    rw [hbody, ← hshape]
    exact tablesEnsured_blankDb initialTables (∅, false)
  rw [hblank]
  rfl

/-- Nothing is pending in a fresh database. -/
theorem settled_freshDb : Settled packagedMigrations freshDb := by
  rw [Settled]
  decide +kernel

/-- **An empty file opens as the fresh database.** -/
theorem openWithPackagedMigrations_emptyDb {engine : Engine} {faults : OpenFaults} {db : Db}
    (h : openWithPackagedMigrations engine packagedMigrations faults emptyDb = (.ok (), db)) :
    db = freshDb := by
  have hpass := (openWithPackagedMigrations_ok h).1
  rw [packagedMigrations] at hpass
  cases hpass with
  | skip hskip _ => exact absurd hskip (by decide)
  | execute hpending _ happly hrest =>
      obtain rfl := migrated_initial (migrated_of_pending happly hpending)
      exact hrest.eq_of_settled fun m hm => settled_freshDb m (List.mem_cons_of_mem _ hm)

end SovriAgent
