import SovriAgent.ConcurrentOpen
import SovriAgent.GapAnswers

/-!
# The Life of a Local Database

Processes share a database file that is empty at first. Each opens it, which may stop at any
step, and once it has opened the file it writes runs; processes end and start again at any
time. The opening steps are those of `OpenerStep`, a write is one transaction.

What an interrupted open leaves is finished by the next one: an open of it ends as an open of
the database it started from would have. The first process that gets through the first
migration leaves the fresh database, from then on no opening step changes anything, and the
database is a record of the accepted runs.

## Main results

* `interrupted_opens_resume`: openers that stopped anywhere are made up for by the next open.
* `processes_share_history`: in every interleaving the next open succeeds, and the queries
  answer from the accepted runs.
* `every_process_opens`: a process that is left alone gets the file open, from wherever its
  open stands.
-/

namespace SovriAgent

open Keyed Transaction Transaction.Tx Journal

/-! ### What an interrupted open leaves -/

/-- A settled stack is passed without doing anything. -/
theorem Settled.pass {migrations : List PackagedMigration} {db : Db}
    (h : Settled migrations db) (engine : Engine) : Pass engine migrations db db := by
  induction migrations with
  | nil => exact .done db
  | cons migration migrations ih =>
      exact .skip (h migration List.mem_cons_self)
        (ih fun m hm => h m (List.mem_cons_of_mem _ hm))

/-- Behind the frontier nothing is left to do, so the rest of the stack decides. -/
theorem Frontier.applyPackagedMigrations_eq {ι : Type} [DecidableEq ι] {engine : Engine}
    {stack passed left : List PackagedMigration} {db₀ : Db} {s : Opening ι}
    (h : Frontier engine stack db₀ s passed left) :
    applyPackagedMigrations engine stack noMigrationFaults s.db =
      applyPackagedMigrations engine stack noMigrationFaults db₀ := by
  rw [h.split, (h.settled.pass engine).applyPackagedMigrations_append,
    h.pass.applyPackagedMigrations_append]

/-- Migrations do not take a database beyond their versions. -/
theorem Pass.userVersion_le {engine : Engine} {migrations : List PackagedMigration} {db db' : Db}
    (h : Pass engine migrations db db') {limit : ℕ} (hdb : db.userVersion ≤ limit)
    (hversions : ∀ migration ∈ migrations, migration.version ≤ limit) :
    db'.userVersion ≤ limit := by
  induction h with
  | done => exact hdb
  | skip _ _ ih => exact ih hdb fun m hm => hversions m (List.mem_cons_of_mem _ hm)
  | @execute migration migrations faults db db₁ db' hpending _ happly _ ih =>
      refine ih ?_ fun m hm => hversions m (List.mem_cons_of_mem _ hm)
      rw [(migrated_of_pending happly hpending).userVersion_eq, storedUserVersion]
      split
      · exact hversions migration List.mem_cons_self
      · exact Nat.zero_le _

/-- The version check of the packaged migrations. -/
theorem rejectNewerSchemaVersion_packaged {db : Db} :
    rejectNewerSchemaVersion db packagedMigrations = .ok () ↔ db.userVersion ≤ 8 := by
  have hversion : currentPackagedSchemaVersion packagedMigrations = .ok 8 := by decide
  rw [rejectNewerSchemaVersion, hversion]
  by_cases hnewer : 8 < db.userVersion
  · simp [hnewer]
  · simp [hnewer, Nat.le_of_not_lt hnewer]

/-- What an open does when nothing fails by itself. -/
theorem openWithPackagedMigrations_noFaults {engine : Engine} {db : Db}
    (haccepted : rejectNewerSchemaVersion db packagedMigrations = .ok ()) :
    openWithPackagedMigrations engine packagedMigrations noOpenFaults db =
      match applyPackagedMigrations engine packagedMigrations noMigrationFaults db with
      | (.error e, db') => (.error e, db')
      | (.ok (), db') => (validateCurrentSchema db' packagedMigrations, db') := by
  have hversion : noOpenFaults.versionRead = false := rfl
  have hmigrations : noOpenFaults.migrations = noMigrationFaults := rfl
  have hvalidation : noOpenFaults.validationRead = false := rfl
  rcases happlied : applyPackagedMigrations engine packagedMigrations noMigrationFaults db
    with ⟨e | ⟨⟩, db'⟩
  · simp [openWithPackagedMigrations, hversion, haccepted, hmigrations, happlied]
  · simp [openWithPackagedMigrations, hversion, haccepted, hmigrations, hvalidation, happlied]

/-- **Interrupted opens are made up for**: whatever the openers of a database got done before
they stopped, in any interleaving, the next open ends as it would have ended without them. -/
theorem interrupted_opens_resume {ι : Type} [DecidableEq ι] {engine : Engine} {db₀ : Db}
    {s : Opening ι} (haccepted : rejectNewerSchemaVersion db₀ packagedMigrations = .ok ())
    (hrun : Relation.ReflTransGen (Opening.Step engine) (Opening.start packagedMigrations db₀) s) :
    openWithPackagedMigrations engine packagedMigrations noOpenFaults s.db =
      openWithPackagedMigrations engine packagedMigrations noOpenFaults db₀ := by
  obtain ⟨passed, left, hfrontier⟩ :=
    frontier_of_run (shareable_packagedMigrations engine) hrun
  have hversions : ∀ migration ∈ packagedMigrations, migration.version ≤ 8 := by decide
  have hstill : rejectNewerSchemaVersion s.db packagedMigrations = .ok () := by
    refine rejectNewerSchemaVersion_packaged.mpr (hfrontier.pass.userVersion_le
      (rejectNewerSchemaVersion_packaged.mp haccepted) fun migration hmem => ?_)
    exact hversions migration (by simp [hfrontier.split, hmem])
  rw [openWithPackagedMigrations_noFaults hstill, openWithPackagedMigrations_noFaults haccepted,
    hfrontier.applyPackagedMigrations_eq]

/-- Two openers of an empty file that both stopped after one of them had run the first
migration. -/
def interruptedOpeners : Opening Bool :=
  (Opening.start packagedMigrations emptyDb).schedule noTexts [false, true, false, true, false]

theorem interrupted_opens_resume_interruptedOpeners :
    openWithPackagedMigrations noTexts packagedMigrations noOpenFaults interruptedOpeners.db =
      openWithPackagedMigrations noTexts packagedMigrations noOpenFaults emptyDb :=
  interrupted_opens_resume (by decide) (Opening.schedule_run _ _)

/-! ### Databases that are open -/

/-- A database with the schema, the ledger and the version of another one. -/
structure SameSchema (db db' : Db) : Prop where
  schema : db.schema = db'.schema
  ledger : db.ledger = db'.ledger
  userVersion : db.userVersion = db'.userVersion

theorem SameSchema.migrationIsApplied_eq {db db' : Db} (h : SameSchema db db') (version : ℕ) :
    migrationIsApplied db version = migrationIsApplied db' version := by
  rw [migrationIsApplied, migrationIsApplied, h.ledger]

theorem SameSchema.columnExists_eq {db db' : Db} (h : SameSchema db db') (column : Column) :
    db.columnExists column = db'.columnExists column := by
  rw [Db.columnExists, Db.columnExists, h.schema]

theorem SameSchema.migrationIsApplicable_eq {db db' : Db} (h : SameSchema db db')
    (migration : PackagedMigration) :
    migrationIsApplicable db migration = migrationIsApplicable db' migration := by
  have hcolumns : db.columnExists = db'.columnExists := funext h.columnExists_eq
  have hbelow : isRecordedBelow db = isRecordedBelow db' := by
    funext version
    rw [isRecordedBelow, isRecordedBelow, h.userVersion, h.migrationIsApplied_eq]
  have hrequired : schemaHasRequiredColumns db = schemaHasRequiredColumns db' := by
    funext columns
    rw [schemaHasRequiredColumns, schemaHasRequiredColumns, hcolumns]
  rw [migrationIsApplicable, migrationIsApplicable, hcolumns, hbelow, hrequired, h.userVersion]

theorem SameSchema.validateCurrentSchema_eq {db db' : Db} (h : SameSchema db db')
    (migrations : List PackagedMigration) :
    validateCurrentSchema db migrations = validateCurrentSchema db' migrations := by
  have hcolumns : db.columnExists = db'.columnExists := funext h.columnExists_eq
  rw [validateCurrentSchema, validateCurrentSchema, h.userVersion, h.migrationIsApplied_eq,
    hcolumns]

/-- Writes leave the schema, the ledger and the version alone. -/
theorem sameSchema_of_records {journal : List Corpus} {db : Db}
    (h : Records freshDb Accepts journal db) : SameSchema db freshDb := by
  have hledger : db.ledger = freshDb.ledger ∧ db.userVersion = freshDb.userVersion := by
    induction h with
    | init => exact ⟨rfl, rfl⟩
    | accept _ haccepts ih =>
        obtain ⟨faults, hwrite⟩ := haccepts
        obtain ⟨-, -, rfl⟩ := writeCompletedCorpus_ok hwrite
        exact ih
  exact ⟨(showsHistories.inv_of_records h).schema, hledger.1, hledger.2⟩

/-- Nothing is pending in an open database: the first migration is recorded, and the others do
not apply. -/
theorem SameSchema.settled {db : Db} (h : SameSchema db freshDb) :
    Settled packagedMigrations db := by
  intro migration hmem
  rw [h.migrationIsApplied_eq, h.migrationIsApplicable_eq]
  exact settled_freshDb migration hmem

/-- The fresh database has the columns of its version. -/
theorem validateCurrentSchema_freshDb :
    validateCurrentSchema freshDb packagedMigrations = .ok () := by
  have hsupported : usesSupportedSchemaRequirements packagedMigrations = true :=
    List.any_eq_true.mpr ⟨initialMigration, List.mem_cons_self,
      List.any_eq_true.mpr ⟨initialMigration, List.mem_cons_self, decide_eq_true rfl⟩⟩
  have hrequired : requiredSchemaColumns 1 packagedMigrations =
      .ok schemaVersion1RequiredColumns := by
    rw [requiredSchemaColumns, if_neg one_ne_zero, if_pos hsupported]
    rfl
  have hrecorded : ¬ (freshDb.userVersion ≠ 0 ∧
      migrationIsApplied freshDb freshDb.userVersion = false) := by
    decide
  rw [validateCurrentSchema, if_neg hrecorded, show freshDb.userVersion = 1 from rfl, hrequired]
  rfl

/-- An open of an open database succeeds and changes nothing. -/
theorem SameSchema.open_eq {db : Db} (h : SameSchema db freshDb) (engine : Engine) :
    openWithPackagedMigrations engine packagedMigrations noOpenFaults db = (.ok (), db) := by
  have haccepted : rejectNewerSchemaVersion db packagedMigrations = .ok () := by
    rw [rejectNewerSchemaVersion_packaged, h.userVersion]
    decide
  rw [openWithPackagedMigrations_noFaults haccepted,
    (h.settled.pass engine).applyPackagedMigrations_eq]
  exact congrArg (·, db)
    ((h.validateCurrentSchema_eq packagedMigrations).trans validateCurrentSchema_freshDb)

/-! ### The first migration -/

/-- No migration is recorded in an empty file. -/
theorem migrationIsApplied_emptyDb (version : ℕ) : migrationIsApplied emptyDb version = false := rfl

/-- The characters of a literal, without a detour over its bytes. -/
theorem toList_of_ofList {s : String} {characters : List Char} (h : s = String.ofList characters) :
    s.toList = characters := by
  rw [h, String.toList_ofList]

/-- The text of the first migration is not destructive. -/
theorem destructiveMigrationOperation_initial :
    destructiveMigrationOperation initialMigration.sql = none := by
  simp only [initialMigration, initialSchemaSql, sqlText, List.flatMap_cons, List.flatMap_nil]
  -- The kernel takes long to decode a literal, so its lines are spelled out first.
  repeat rw [toList_of_ofList rfl]
  decide +kernel

/-- The first migration succeeds on an empty file. -/
theorem applyPackagedMigration_initial (engine : Engine) :
    applyPackagedMigration engine initialMigration (fun _ => false) emptyDb =
      (.ok (), freshDb) := by
  have hok : (applyPackagedMigration engine initialMigration (fun _ => false) emptyDb).1 =
      .ok () := by
    rw [applyPackagedMigration, destructiveMigrationOperation_initial, migrationTransaction,
      migrationStatements, migrationBody_initial]
    decide +kernel
  rcases happly : applyPackagedMigration engine initialMigration (fun _ => false) emptyDb
    with ⟨result, db⟩
  rw [happly] at hok
  obtain rfl : result = .ok () := hok
  rw [migrated_initial (migrated_of_pending happly (migrationIsApplied_emptyDb _))]

/-- An open of an empty file succeeds. -/
theorem open_emptyDb (engine : Engine) :
    openWithPackagedMigrations engine packagedMigrations noOpenFaults emptyDb =
      (.ok (), freshDb) := by
  have hfresh : SameSchema freshDb freshDb := ⟨rfl, rfl, rfl⟩
  have hpass : Pass engine packagedMigrations emptyDb freshDb := by
    refine .execute (migrationIsApplied_emptyDb _) (applicable_initial _)
      (applyPackagedMigration_initial engine) ?_
    exact Settled.pass (fun m hm => settled_freshDb m (List.mem_cons_of_mem _ hm)) engine
  have haccepted : rejectNewerSchemaVersion emptyDb packagedMigrations = .ok () := by decide
  have hopen := hfresh.open_eq engine
  rw [openWithPackagedMigrations_noFaults (by decide),
    (hfresh.settled.pass engine).applyPackagedMigrations_eq] at hopen
  rw [openWithPackagedMigrations_noFaults haccepted, hpass.applyPackagedMigrations_eq]
  exact hopen

/-- No other packaged migration applies to an open database. -/
theorem SameSchema.eq_initial {db : Db} (h : SameSchema db freshDb)
    {migration : PackagedMigration} (hmem : migration ∈ packagedMigrations)
    (happlicable : migrationIsApplicable db migration = true) : migration = initialMigration := by
  have hrecorded : ∀ m ∈ packagedMigrations, migrationIsApplied freshDb m.version = true →
      m.version = 1 := by
    decide
  have hversion : migration.version = 1 := by
    rcases h.settled migration hmem with happlied | hnot
    · rw [h.migrationIsApplied_eq] at happlied
      exact hrecorded migration hmem happlied
    · rw [happlicable] at hnot
      cases hnot
  rw [packagedMigrations, List.mem_cons] at hmem
  rcases hmem with rfl | hlater
  · rfl
  · have hothers : ∀ m ∈ packagedMigrations.tail, m.version ≠ 1 := by decide
    exact absurd hversion (hothers migration hlater)

/-! ### Processes -/

/-- Where a process is. -/
inductive Process where
  | closed
  | opening (opener : Opener)
  | opened
  deriving DecidableEq

/-- The database with its processes, and the corpora accepted so far, the newest first. -/
structure Agents (ι : Type) where
  db : Db
  processes : ι → Process
  journal : List Corpus

section Processes

variable {ι : Type} [DecidableEq ι] {engine : Engine}

/-- An empty file, and no process that uses it. -/
def Agents.start : Agents ι :=
  ⟨emptyDb, fun _ => .closed, []⟩

/-- A process is at another place. -/
def Agents.moved (s : Agents ι) (i : ι) (process : Process) : Agents ι :=
  { s with processes := Function.update s.processes i process }

/-- A process is at another place, and so is the database. -/
def Agents.placed (s : Agents ι) (i : ι) (process : Process) (db : Db) : Agents ι :=
  { s.moved i process with db := db }

/-- A corpus was written to the database, or its write was attempted. -/
def Agents.wrote (s : Agents ι) (write : Corpus × (ℕ → Bool)) : Agents ι :=
  { s with
    db := (attemptWrite (s.journal, s.db) write).2
    journal := (attemptWrite (s.journal, s.db) write).1 }

/-- Process `i` goes on with the open it is in. -/
inductive Agents.OpenStep (engine : Engine) (i : ι) : Agents ι → Agents ι → Prop where
  | opens {s : Agents ι} {opener opener' : Opener} {db : Db}
      {executed : List PackagedMigration} (hat : s.processes i = .opening opener)
      (h : OpenerStep engine opener s.db opener' db executed) :
      Agents.OpenStep engine i s (s.placed i (.opening opener') db)
  | validates {s : Agents ι} (hat : s.processes i = .opening (.reading []))
      (h : validateCurrentSchema s.db packagedMigrations = .ok ()) :
      Agents.OpenStep engine i s (s.moved i .opened)

/-- Process `i` makes a step. -/
inductive Agents.StepBy (engine : Engine) (i : ι) : Agents ι → Agents ι → Prop where
  /-- It starts to open the file, whose version is supported. -/
  | starts {s : Agents ι} (h : rejectNewerSchemaVersion s.db packagedMigrations = .ok ()) :
      Agents.StepBy engine i s (s.moved i (.opening (.reading packagedMigrations)))
  | goesOn {s s' : Agents ι} (h : Agents.OpenStep engine i s s') : Agents.StepBy engine i s s'
  /-- It ends, wherever it is. -/
  | ends {s : Agents ι} : Agents.StepBy engine i s (s.moved i .closed)
  /-- It writes a corpus, whatever fails meanwhile. -/
  | writes {s : Agents ι} (hat : s.processes i = .opened) (write : Corpus × (ℕ → Bool)) :
      Agents.StepBy engine i s (s.wrote write)

/-- One of the processes makes a step. -/
def Agents.Step (engine : Engine) (s s' : Agents ι) : Prop :=
  ∃ i, Agents.StepBy engine i s s'

/-- What a process may be at while the file is empty: it found the first migration pending. -/
def Process.Early : Process → Prop
  | .closed => True
  | .opening (.reading rest) => rest = packagedMigrations
  | .opening (.checking migration rest) => migration :: rest = packagedMigrations
  | .opening (.migrating migration rest) => migration :: rest = packagedMigrations
  | .opening .failed => True
  | .opened => False

/-- What a process may be at once the file is not empty: only the first migration can be about
to run, and it is recorded by now. -/
def Process.Late : Process → Prop
  | .closed => True
  | .opening (.reading rest) => rest ⊆ packagedMigrations
  | .opening (.checking migration rest) => migration :: rest ⊆ packagedMigrations
  | .opening (.migrating migration rest) =>
      migration = initialMigration ∧ rest ⊆ packagedMigrations
  | .opening .failed => True
  | .opened => True

theorem Process.Early.late {process : Process} (h : process.Early) : process.Late := by
  rcases process with _ | (rest | ⟨migration, rest⟩ | ⟨migration, rest⟩ | _) | _
  · trivial
  · exact fun m hm => h ▸ hm
  · exact fun m hm => h ▸ hm
  · obtain ⟨hfirst, hrest⟩ := List.cons.inj h
    exact ⟨hfirst, hrest ▸ List.subset_cons_self _ _⟩
  · trivial
  · exact h.elim

/-- The invariant: the file is empty, or it records the accepted corpora. -/
inductive Agents.Phase (s : Agents ι) : Prop where
  | empty (hdb : s.db = emptyDb) (hjournal : s.journal = [])
      (hprocesses : ∀ i, (s.processes i).Early)
  | stored (hrecords : Records freshDb Accepts s.journal s.db)
      (hprocesses : ∀ i, (s.processes i).Late)

/-- A process that moves leaves the others where they are. -/
theorem forall_moved {P : Process → Prop} {s : Agents ι} (h : ∀ i, P (s.processes i)) (i : ι)
    {process : Process} (hprocess : P process) (j : ι) :
    P ((s.moved i process).processes j) := by
  change P (Function.update s.processes i process j)
  by_cases hj : j = i
  · subst hj
    rw [Function.update_self]
    exact hprocess
  · rw [Function.update_of_ne hj]
    exact h j

/-- An opening step on the empty file. -/
theorem opens_empty {opener opener' : Opener} {db : Db} {executed : List PackagedMigration}
    (hat : (Process.opening opener).Early)
    (h : OpenerStep engine opener emptyDb opener' db executed) :
    (db = emptyDb ∧ (Process.opening opener').Early) ∨
      (db = freshDb ∧ (Process.opening opener').Late) := by
  cases h with
  | recorded happlied => cases happlied
  | pending => exact .inl ⟨rfl, hat⟩
  | readFails => exact .inl ⟨rfl, trivial⟩
  | applicable => exact .inl ⟨rfl, hat⟩
  | inapplicable hnot =>
      obtain ⟨rfl, -⟩ := List.cons.inj hat
      rw [applicable_initial] at hnot
      cases hnot
  | checkFails => exact .inl ⟨rfl, trivial⟩
  | migrated happly =>
      obtain ⟨rfl, hrest⟩ := List.cons.inj hat
      refine .inr ⟨migrated_initial (migrated_of_pending happly (migrationIsApplied_emptyDb _)), ?_⟩
      exact hrest ▸ List.subset_cons_self _ _
  | migrationFails hfailed => exact .inl ⟨applyPackagedMigration_error hfailed, trivial⟩

/-- An opening step on an open database changes nothing. -/
theorem opens_stored {opener opener' : Opener} {db db' : Db} {executed : List PackagedMigration}
    (hdb : SameSchema db freshDb) (hat : (Process.opening opener).Late)
    (h : OpenerStep engine opener db opener' db' executed) :
    db' = db ∧ (Process.opening opener').Late := by
  cases h with
  | recorded => exact ⟨rfl, List.Subset.trans (List.subset_cons_self _ _) hat⟩
  | pending => exact ⟨rfl, hat⟩
  | readFails => exact ⟨rfl, trivial⟩
  | applicable happlicable =>
      exact ⟨rfl, hdb.eq_initial (hat List.mem_cons_self) happlicable,
        List.Subset.trans (List.subset_cons_self _ _) hat⟩
  | inapplicable => exact ⟨rfl, List.Subset.trans (List.subset_cons_self _ _) hat⟩
  | checkFails => exact ⟨rfl, trivial⟩
  | migrated happly =>
      obtain ⟨rfl, hrest⟩ := hat
      have happlied : migrationIsApplied db initialMigration.version = true := by
        rw [hdb.migrationIsApplied_eq]
        decide
      rcases applyPackagedMigration_ok happly with ⟨-, rfl⟩ | ⟨hpending, -⟩
      · exact ⟨rfl, hrest⟩
      · rw [happlied] at hpending
        cases hpending
  | migrationFails hfailed => exact ⟨applyPackagedMigration_error hfailed, trivial⟩

/-- A step of an open keeps the invariant. -/
theorem Agents.Phase.openStep {s s' : Agents ι} {i : ι} (hphase : s.Phase)
    (h : Agents.OpenStep engine i s s') : s'.Phase := by
  cases hphase with
  | empty hdb hjournal hprocesses =>
      have hearly := hprocesses i
      cases h with
      | opens hat hstep =>
          rw [hat] at hearly
          rw [hdb] at hstep
          rcases opens_empty hearly hstep with ⟨rfl, hnext⟩ | ⟨rfl, hnext⟩
          · exact .empty rfl hjournal (forall_moved hprocesses i hnext)
          · refine .stored ?_ (forall_moved (fun j => (hprocesses j).late) i hnext)
            change Records freshDb Accepts s.journal freshDb
            rw [hjournal]
            exact .init
      | validates hat =>
          rw [hat] at hearly
          cases hearly
  | stored hrecords hprocesses =>
      cases h with
      | opens hat hstep =>
          have hlate := hprocesses i
          rw [hat] at hlate
          obtain ⟨rfl, hnext⟩ := opens_stored (sameSchema_of_records hrecords) hlate hstep
          exact .stored hrecords (forall_moved hprocesses i hnext)
      | validates => exact .stored hrecords (forall_moved hprocesses i trivial)

/-- **One step of a process** keeps the invariant. -/
theorem Agents.Phase.step {s s' : Agents ι} (hphase : s.Phase) (h : Agents.Step engine s s') :
    s'.Phase := by
  obtain ⟨i, h⟩ := h
  cases h with
  | starts =>
      cases hphase with
      | empty hdb hjournal hprocesses =>
          exact .empty hdb hjournal (forall_moved hprocesses i rfl)
      | stored hrecords hprocesses =>
          exact .stored hrecords (forall_moved hprocesses i (List.Subset.refl _))
  | goesOn h => exact hphase.openStep h
  | ends =>
      cases hphase with
      | empty hdb hjournal hprocesses =>
          exact .empty hdb hjournal (forall_moved hprocesses i trivial)
      | stored hrecords hprocesses =>
          exact .stored hrecords (forall_moved hprocesses i trivial)
  | writes hat write =>
      cases hphase with
      | empty _ _ hprocesses =>
          have hearly := hprocesses i
          rw [hat] at hearly
          exact hearly.elim
      | stored hrecords hprocesses =>
          exact .stored (records_attemptWrite hrecords write) hprocesses

/-- Every interleaving keeps the invariant. -/
theorem phase_of_run {s : Agents ι}
    (hrun : Relation.ReflTransGen (Agents.Step engine) Agents.start s) : s.Phase := by
  induction hrun with
  | refl => exact .empty rfl rfl fun _ => trivial
  | tail _ hstep ih => exact ih.step hstep

/-- **Processes share one history**: whatever the processes of a file did, and wherever they
stopped, the next open succeeds, and the queries about a run answer from the corpora accepted
for it. Where a process has the file open, or a corpus was accepted, the open changes
nothing. -/
theorem processes_share_history {s : Agents ι}
    (hrun : Relation.ReflTransGen (Agents.Step engine) Agents.start s) :
    ∃ db, openWithPackagedMigrations engine packagedMigrations noOpenFaults s.db = (.ok (), db) ∧
      ((∃ i, s.processes i = .opened) ∨ s.journal ≠ [] → db = s.db) ∧
      appliedMigrations.Answers db [initialMigration.name] ∧
      ∀ runId, Answered db runId (RunView.of runId (history Corpus.runId s.journal runId)) := by
  have hanswers : ∀ {journal : List Corpus} {db : Db}, Records freshDb Accepts journal db →
      appliedMigrations.Answers db [initialMigration.name] ∧
        ∀ runId, Answered db runId (RunView.of runId (history Corpus.runId journal runId)) := by
    intro journal db hrecords
    refine ⟨answers_query ?_, fun runId => answered_of_shown
      (showsHistories.inv_of_records hrecords).toCurrentShape
      (showsHistories.of_records hrecords runId)⟩
    rw [(sameSchema_of_records hrecords).ledger]
    rfl
  cases phase_of_run hrun with
  | empty hdb hjournal hprocesses =>
      refine ⟨freshDb, ?_, ?_, ?_⟩
      · rw [hdb]
        exact open_emptyDb engine
      · rintro (⟨i, hopened⟩ | haccepted)
        · have hearly := hprocesses i
          rw [hopened] at hearly
          exact hearly.elim
        · exact absurd hjournal haccepted
      · rw [hjournal]
        exact hanswers .init
  | stored hrecords _ =>
      exact ⟨s.db, (sameSchema_of_records hrecords).open_eq engine, fun _ => rfl,
        hanswers hrecords⟩

/-! ### Progress -/

theorem Agents.processes_placed (s : Agents ι) (i : ι) (process : Process) (db : Db) :
    (s.placed i process db).processes i = process :=
  Function.update_self ..

/-- A process that stays where it is. -/
theorem Agents.placed_self (s : Agents ι) (i : ι) : s.placed i (s.processes i) s.db = s := by
  simp only [Agents.placed, Agents.moved, Function.update_eq_self]

/-- The last place counts. -/
theorem Agents.placed_placed (s : Agents ι) (i : ι) (process process' : Process) (db db' : Db) :
    (s.placed i process db).placed i process' db' = s.placed i process' db' := by
  simp only [Agents.placed, Agents.moved, Function.update_idem]

theorem Agents.opens_placed (s : Agents ι) (i : ι) {opener opener' : Opener} {db db' : Db}
    {executed : List PackagedMigration} (h : OpenerStep engine opener db opener' db' executed) :
    Agents.OpenStep engine i (s.placed i (.opening opener) db)
      (s.placed i (.opening opener') db') := by
  rw [← s.placed_placed i (.opening opener) (.opening opener') db db']
  exact .opens (s.processes_placed i _ db) h

/-- A process that starts to open the file makes the steps of an open. -/
theorem Agents.run_starts {s s' : Agents ι} {i : ι}
    (haccepted : rejectNewerSchemaVersion s.db packagedMigrations = .ok ())
    (hopens : Relation.ReflTransGen (Agents.OpenStep engine i)
      (s.placed i (.opening (.reading packagedMigrations)) s.db) s') :
    Relation.ReflTransGen (Agents.StepBy engine i) s s' :=
  .head (.starts haccepted) (hopens.lift id fun _ _ => .goesOn)

/-- The steps of one process are steps. -/
theorem Agents.run_of_one {s s' : Agents ι} {i : ι}
    (h : Relation.ReflTransGen (Agents.StepBy engine i) s s') :
    Relation.ReflTransGen (Agents.Step engine) s s' :=
  h.lift id fun _ _ hstep => ⟨i, hstep⟩

/-- A process gets through what is left of its stack, where nothing is pending. -/
theorem Agents.run_settled (s : Agents ι) (i : ι) {db : Db} {rest : List PackagedMigration}
    (h : Settled rest db) :
    Relation.ReflTransGen (Agents.OpenStep engine i) (s.placed i (.opening (.reading rest)) db)
      (s.placed i (.opening (.reading [])) db) := by
  induction rest with
  | nil => exact .refl
  | cons migration rest ih =>
      have hrest := ih fun m hm => h m (List.mem_cons_of_mem _ hm)
      rcases happlied : migrationIsApplied db migration.version with _ | _
      · rcases h migration List.mem_cons_self with hrecorded | hnot
        · rw [happlied] at hrecorded
          cases hrecorded
        · exact .head (s.opens_placed i (.pending happlied))
            (.head (s.opens_placed i (.inapplicable hnot)) hrest)
      · exact .head (s.opens_placed i (.recorded happlied)) hrest

/-- A process that reads on in an open database gets it open. -/
theorem Agents.run_reading (s : Agents ι) (i : ι) {db : Db} (h : SameSchema db freshDb)
    {rest : List PackagedMigration} (hrest : rest ⊆ packagedMigrations) :
    Relation.ReflTransGen (Agents.OpenStep engine i)
      (s.placed i (.opening (.reading rest)) db) (s.placed i .opened db) := by
  refine (s.run_settled i fun m hm => h.settled m (hrest hm)).tail ?_
  rw [← s.placed_placed i (.opening (.reading [])) .opened db db]
  exact .validates (s.processes_placed i _ db)
    ((h.validateCurrentSchema_eq packagedMigrations).trans validateCurrentSchema_freshDb)

/-- A process that is about to migrate an open database finds the migration recorded. -/
theorem Agents.run_migrating (s : Agents ι) (i : ι) {db : Db} (h : SameSchema db freshDb)
    {rest : List PackagedMigration} (hrest : rest ⊆ packagedMigrations) :
    Relation.ReflTransGen (Agents.OpenStep engine i)
      (s.placed i (.opening (.migrating initialMigration rest)) db) (s.placed i .opened db) := by
  have happlied : migrationIsApplied db initialMigration.version = true := by
    rw [h.migrationIsApplied_eq]
    decide
  have happly := applyPackagedMigration_recorded engine destructiveMigrationOperation_initial
    happlied
  exact .head (s.opens_placed i (.migrated happly)) (s.run_reading i h hrest)

/-- **A process left alone in an open database** gets it open, unless its open has failed. -/
theorem Agents.run_late (s : Agents ι) (i : ι) {db : Db} (h : SameSchema db freshDb)
    {opener : Opener} (hlate : (Process.opening opener).Late) (hgoing : opener ≠ .failed) :
    Relation.ReflTransGen (Agents.OpenStep engine i) (s.placed i (.opening opener) db)
      (s.placed i .opened db) := by
  cases opener with
  | reading rest => exact s.run_reading i h hlate
  | checking migration rest =>
      have hrest : rest ⊆ packagedMigrations :=
        List.Subset.trans (List.subset_cons_self _ _) hlate
      rcases happlicable : migrationIsApplicable db migration with _ | _
      · exact .head (s.opens_placed i (.inapplicable happlicable)) (s.run_reading i h hrest)
      · obtain rfl := h.eq_initial (hlate List.mem_cons_self) happlicable
        exact .head (s.opens_placed i (.applicable happlicable)) (s.run_migrating i h hrest)
  | migrating migration rest =>
      obtain ⟨rfl, hrest⟩ := hlate
      exact s.run_migrating i h hrest
  | failed => exact absurd rfl hgoing

/-- **A process left alone in an empty file** runs the first migration and gets the fresh
database open, unless its open has failed. -/
theorem Agents.run_early (s : Agents ι) (i : ι) {opener : Opener}
    (hearly : (Process.opening opener).Early) (hgoing : opener ≠ .failed) :
    Relation.ReflTransGen (Agents.OpenStep engine i) (s.placed i (.opening opener) emptyDb)
      (s.placed i .opened freshDb) := by
  have hmigrating : Relation.ReflTransGen (Agents.OpenStep engine i)
      (s.placed i (.opening (.migrating initialMigration packagedMigrations.tail)) emptyDb)
      (s.placed i .opened freshDb) :=
    .head (s.opens_placed i (.migrated (applyPackagedMigration_initial engine)))
      (s.run_reading i ⟨rfl, rfl, rfl⟩ (List.tail_subset _))
  have hchecking : Relation.ReflTransGen (Agents.OpenStep engine i)
      (s.placed i (.opening (.checking initialMigration packagedMigrations.tail)) emptyDb)
      (s.placed i .opened freshDb) :=
    .head (s.opens_placed i (.applicable (applicable_initial emptyDb))) hmigrating
  cases opener with
  | reading rest =>
      obtain rfl := hearly
      exact .head (s.opens_placed i (.pending (migrationIsApplied_emptyDb _))) hchecking
  | checking migration rest =>
      obtain ⟨rfl, rfl⟩ := List.cons.inj hearly
      exact hchecking
  | migrating migration rest =>
      obtain ⟨rfl, rfl⟩ := List.cons.inj hearly
      exact hmigrating
  | failed => exact absurd rfl hgoing

omit [DecidableEq ι] in
/-- A process can always start. -/
theorem Agents.Phase.accepts {s : Agents ι} (h : s.Phase) :
    rejectNewerSchemaVersion s.db packagedMigrations = .ok () := by
  rw [rejectNewerSchemaVersion_packaged]
  cases h with
  | empty hdb =>
      rw [hdb]
      decide
  | stored hrecords =>
      rw [(sameSchema_of_records hrecords).userVersion]
      decide

/-- Wherever a process is in an open that has not failed, it gets the file open by itself; the
file then records what was accepted. -/
theorem Agents.Phase.completes {s : Agents ι} (h : s.Phase) (engine : Engine) (i : ι) :
    ∃ db, Records freshDb Accepts s.journal db ∧
      ∀ opener, (s.processes i = .opening opener ∨ opener = .reading packagedMigrations) →
        opener ≠ .failed →
        Relation.ReflTransGen (Agents.OpenStep engine i) (s.placed i (.opening opener) s.db)
          (s.placed i .opened db) := by
  cases h with
  | empty hdb hjournal hprocesses =>
      refine ⟨freshDb, hjournal ▸ .init, fun opener hat hgoing => ?_⟩
      rw [hdb]
      refine s.run_early i ?_ hgoing
      rcases hat with hat | rfl
      · exact hat ▸ hprocesses i
      · rfl
  | stored hrecords hprocesses =>
      refine ⟨s.db, hrecords, fun opener hat hgoing =>
        s.run_late i (sameSchema_of_records hrecords) ?_ hgoing⟩
      rcases hat with hat | rfl
      · exact hat ▸ hprocesses i
      · exact List.Subset.refl _

/-- **No process is kept out**: wherever the processes of a file are between two transactions,
each can get the file open by steps of its own alone, and the file then records the corpora
accepted so far. If it is in an open that has not failed, it need not start again. -/
theorem every_process_opens {s : Agents ι}
    (hrun : Relation.ReflTransGen (Agents.Step engine) Agents.start s) (i : ι) :
    ∃ db, Records freshDb Accepts s.journal db ∧
      Relation.ReflTransGen (Agents.StepBy engine i) s (s.placed i .opened db) ∧
      ∀ opener, s.processes i = .opening opener → opener ≠ .failed →
        Relation.ReflTransGen (Agents.OpenStep engine i) s (s.placed i .opened db) := by
  have hphase := phase_of_run hrun
  obtain ⟨db, hrecords, hcompletes⟩ := hphase.completes engine i
  refine ⟨db, hrecords, ?_, fun opener hat hgoing => ?_⟩
  · exact Agents.run_starts hphase.accepts (hcompletes _ (.inr rfl) (by rintro ⟨⟩))
  · have hopens := hcompletes opener (.inl hat) hgoing
    rw [← hat, s.placed_self] at hopens
    exact hopens

end Processes

/-- A process that found the first migration pending, and another one that ran it since. -/
def racingAgents : Agents Bool :=
  (Agents.start.placed true (.opening (.checking initialMigration packagedMigrations.tail))
    emptyDb).placed false .opened freshDb

/-- A process opens the empty file. -/
theorem run_opens_emptyDb (s : Agents Bool) (i : Bool) (h : s.db = emptyDb) :
    Relation.ReflTransGen (Agents.Step noTexts) s (s.placed i .opened freshDb) := by
  have haccepted : rejectNewerSchemaVersion s.db packagedMigrations = .ok () := by
    rw [h]
    decide
  have hopens : Relation.ReflTransGen (Agents.OpenStep noTexts i)
      (s.placed i (.opening (.reading packagedMigrations)) emptyDb) (s.placed i .opened freshDb) :=
    s.run_early i rfl (by rintro ⟨⟩)
  rw [← h] at hopens
  exact Agents.run_of_one (Agents.run_starts haccepted hopens)

theorem run_racingAgents :
    Relation.ReflTransGen (Agents.Step noTexts) Agents.start racingAgents := by
  refine .head ⟨true, .starts (by decide)⟩ ?_
  refine .head ⟨true, .goesOn (Agents.start.opens_placed true (.pending rfl))⟩ ?_
  exact run_opens_emptyDb _ false rfl

theorem every_process_opens_racingAgents :
    ∃ db, Relation.ReflTransGen (Agents.StepBy noTexts true) racingAgents
        (racingAgents.placed true .opened db) ∧
      Relation.ReflTransGen (Agents.OpenStep noTexts true) racingAgents
        (racingAgents.placed true .opened db) := by
  obtain ⟨db, -, hopens, hcompletes⟩ := every_process_opens run_racingAgents true
  exact ⟨db, hopens, hcompletes _ rfl (by rintro ⟨⟩)⟩

/-- A process that opened an empty file and wrote a run. -/
def writingAgents : Agents Bool :=
  (Agents.start.placed false .opened freshDb).wrote (attempt (failedCorpus "a".toList))

/-- Another process opened the file since, and wrote a run of its own. -/
def sharingAgents : Agents Bool :=
  (writingAgents.placed true .opened writingAgents.db).wrote (attempt (failedCorpus "b".toList))

theorem processes_share_history_sharingAgents :
    ∃ db, openWithPackagedMigrations noTexts packagedMigrations noOpenFaults sharingAgents.db =
        (.ok (), db) ∧
      ∀ runId, Answered db runId
        (RunView.of runId (history Corpus.runId sharingAgents.journal runId)) := by
  have hfirst : Relation.ReflTransGen (Agents.Step noTexts) Agents.start writingAgents :=
    .tail (run_opens_emptyDb _ false rfl) ⟨false, .writes (Agents.processes_placed _ _ _ _) _⟩
  have hschema : SameSchema writingAgents.db freshDb :=
    sameSchema_of_records (records_attemptWrite .init _)
  have hsecond : Relation.ReflTransGen (Agents.StepBy noTexts true) writingAgents
      (writingAgents.placed true .opened writingAgents.db) :=
    Agents.run_starts (phase_of_run hfirst).accepts
      (writingAgents.run_reading true hschema (List.Subset.refl _))
  have hrun : Relation.ReflTransGen (Agents.Step noTexts) Agents.start sharingAgents :=
    .tail (hfirst.trans (Agents.run_of_one hsecond))
      ⟨true, .writes (Agents.processes_placed _ _ _ _) _⟩
  obtain ⟨db, hopen, -, -, hanswers⟩ := processes_share_history hrun
  exact ⟨db, hopen, hanswers⟩

end SovriAgent
