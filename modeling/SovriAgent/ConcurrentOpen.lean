import SovriAgent.SchemaVersion

/-!
# Concurrent Opens

Several processes open one database file at the same time. Each decides outside of any
transaction whether a migration is pending and applicable, on a database the others may
be changing; only the migration itself is an immediate transaction, and it reads the
ledger again. The openers are interleaved at these three steps, and any step may fail.

What makes this safe is that a migration that was passed over as inapplicable stays
inapplicable while later ones are executed, so that an opener that lags behind comes to
the same decisions. The proof keeps a frontier: the part of the stack that some opener has
passed. Behind the frontier everything is settled; at the frontier the database has not
changed since anyone looked at it.

## Main results

* `stays_inapplicable`: later packaged migrations do not make an earlier one applicable.
* `concurrent_opens_apply_once`: in every interleaving no body is executed twice, and once
  all openers are done the database is the one a sequential open leaves.
-/

namespace SovriAgent

open Keyed Transaction Transaction.Tx

/-! ### The columns a migration adds -/

/-- The columns grow by some of the given ones. -/
structure Grows (columns : List Column) (db db' : Db) : Prop where
  keeps : ∀ column, db.columnExists column = true → db'.columnExists column = true
  only : ∀ column, db'.columnExists column = true →
    db.columnExists column = true ∨ column ∈ columns

theorem Grows.refl (columns : List Column) (db : Db) : Grows columns db db :=
  ⟨fun _ h => h, fun _ h => .inl h⟩

theorem Grows.trans {columns : List Column} {db db' db'' : Db} (h : Grows columns db db')
    (h' : Grows columns db' db'') : Grows columns db db'' := by
  refine ⟨fun column hcolumn => h'.keeps column (h.keeps column hcolumn), fun column hcolumn => ?_⟩
  rcases h'.only column hcolumn with hold | hnew
  · exact h.only column hold
  · exact .inr hnew

/-- A database with the same columns. -/
theorem Grows.of_schema_eq {columns : List Column} {db db' : Db} (h : db'.schema = db.schema) :
    Grows columns db db' := by
  refine ⟨fun column hcolumn => ?_, fun column hcolumn => .inl ?_⟩
  · rwa [Db.columnExists, h]
  · rwa [Db.columnExists, h] at hcolumn

/-- A column is added. -/
theorem grows_addColumn {columns : List Column} {column : Column} (hcolumn : column ∈ columns)
    (db : Db) : Grows columns db (addColumn column db) := by
  have hschema : (addColumn column db).schema = insert column db.schema := rfl
  constructor
  · intro c hc
    rw [Db.columnExists, hschema, decide_eq_true_iff, Finset.mem_insert]
    exact .inr (of_decide_eq_true hc)
  · intro c hc
    rw [Db.columnExists, hschema, decide_eq_true_iff, Finset.mem_insert] at hc
    rcases hc with rfl | hc
    · exact .inr hcolumn
    · exact .inl (decide_eq_true hc)

/-- A table is created unless it exists. -/
theorem grows_tableEnsured {columns : List Column} {table : TableName} {names : List ColumnName}
    (hnames : columnsOf table names ⊆ columns) (db : Db) :
    Grows columns db (tableEnsured table names db) := by
  rw [tableEnsured]
  split
  · exact .refl _ db
  · constructor
    · intro c hc
      rw [Db.columnExists, decide_eq_true_iff, Finset.mem_union]
      exact .inl (of_decide_eq_true hc)
    · intro c hc
      rw [Db.columnExists, decide_eq_true_iff, Finset.mem_union] at hc
      rcases hc with hc | hc
      · exact .inl (decide_eq_true hc)
      · exact .inr (hnames (List.mem_toFinset.mp hc))

/-- A step that fills drops no column. -/
theorem FillStep.grows {columns : List Column} {db db' : Db} (h : FillStep columns db db') :
    Grows columns db db' := by
  cases h with
  | addColumn column _ hcolumn _ => exact grows_addColumn hcolumn db
  | createTable table names _ hnames => exact grows_tableEnsured hnames db
  | _ => exact .of_schema_eq rfl

/-- A step of a migration drops no column. -/
theorem BodyStep.grows {columns : List Column} {db db' : Db} (h : BodyStep columns db db') :
    Grows columns db db' := by
  cases h with
  | fill hfill => exact hfill.grows
  | _ => exact .of_schema_eq rfl

/-- No migration drops a column. -/
theorem grows_of_bodySteps {columns : List Column} {db db' : Db}
    (h : BodySteps columns db db') : Grows columns db db' := by
  induction h with
  | refl => exact .refl columns db
  | tail _ hstep ih => exact ih.trans hstep.grows

/-- An executed packaged migration adds columns of its version only. -/
theorem Migrated.grows {engine : Engine} {migration : PackagedMigration} {db db' : Db}
    (h : Migrated engine migration db db') (hpackaged : migration ∈ packagedMigrations) :
    Grows (addedColumns migration.version) db db' := by
  obtain ⟨body, hbody, -, -, rfl⟩ := h
  have hbefore : Grows (addedColumns migration.version) db (ledgerEnsured db) := .of_schema_eq rfl
  have hsteps := grows_of_bodySteps (moves_packagedBody engine hpackaged _ _ _ hbody)
  have hafter : Grows (addedColumns migration.version) body
      (versionSet migration.version (migrationRecorded migration body)) := .of_schema_eq rfl
  exact hbefore.trans (hsteps.trans hafter)

/-- A column that no version in question adds is missing afterwards if it was before. -/
theorem Grows.missing {columns : List Column} {db db' : Db} (h : Grows columns db db')
    {column : Column} (hcolumn : column ∉ columns) (hmissing : db.columnExists column = false) :
    db'.columnExists column = false := by
  rw [Bool.eq_false_iff] at hmissing ⊢
  intro hexists
  rcases h.only column hexists with hold | hnew
  · exact hmissing hold
  · exact hcolumn hnew

/-- Migration 5 leaves a locator column wherever there is an evidence table. -/
theorem locator_of_resultQueryFilters {db db' : Db}
    (h : applyResultQueryFiltersMigration.Runs db () db')
    (hevidence : db'.columnExists (.evidenceMetadata, .id) = true) :
    db'.columnExists (.evidenceMetadata, .locator) = true := by
  obtain ⟨_, db₁, -, h⟩ := h.of_bind
  obtain ⟨_, db₂, hlocator, hrest⟩ := h.of_bind
  have hafter : Grows resultQueryFiltersColumns db₂ db' :=
    grows_of_bodySteps
      (moves_seq moves_backfillIdentities (moves_step .gapStatus) _ _ _ hrest).bodySteps
  obtain ⟨present, db₃, hpresent, hadd⟩ := hlocator.of_bind
  obtain ⟨rfl, rfl⟩ := runs_ask hpresent
  split at hadd
  · obtain ⟨exists', db₄, hexists, halter⟩ := hadd.of_bind
    obtain ⟨rfl, rfl⟩ := runs_ask hexists
    refine hafter.keeps _ ?_
    split at halter
    · next hlocator =>
        rw [halter.of_pure.2]
        exact hlocator
    · have hadded := (Prod.mk.inj (hasEffect_alterAddColumn _ _ _ _ halter)).2
      rw [hadded, Db.columnExists, decide_eq_true_iff]
      exact Finset.mem_insert_self _ _
  · next hnone =>
      rw [hadd.of_pure.2] at hafter
      rcases hafter.only _ hevidence with hold | hnew
      · exact absurd hold hnone
      · exact absurd hnew (by decide)

/-! ### Inapplicable migrations stay inapplicable -/

/-- When the links of evidence are migrated. -/
theorem applicable_runEvidenceLinks (db : Db) :
    migrationIsApplicable db runEvidenceLinksMigration =
      db.columnExists (.evidenceMetadata, .runId) := by
  rw [migrationIsApplicable, if_pos rfl]

/-- When the filters of gaps are migrated. -/
theorem applicable_gapQueryFilters (db : Db) :
    migrationIsApplicable db gapQueryFiltersMigration =
      (db.columnExists (.complianceGaps, .id) && !db.columnExists (.complianceGaps, .runId)) := by
  rw [migrationIsApplicable, if_neg (by decide), if_pos rfl]

/-- When the locators of evidence are migrated. -/
theorem applicable_evidenceLocators (db : Db) :
    migrationIsApplicable db evidenceLocatorsMigration =
      (db.columnExists (.evidenceMetadata, .id) && db.columnExists (.controlResults, .controlId) &&
        db.columnExists (.controlResults, .evidenceId) &&
        !db.columnExists (.evidenceMetadata, .locator)) := by
  rw [migrationIsApplicable, if_neg (by decide), if_neg (by decide), if_pos rfl]

/-- When the filters of results are migrated. -/
theorem applicable_resultQueryFilters (db : Db) :
    migrationIsApplicable db resultQueryFiltersMigration =
      (db.columnExists (.controlResults, .id) && (!db.columnExists (.controlResults, .runId) ||
        !db.columnExists (.controlResults, .status))) := by
  rw [migrationIsApplicable, if_neg (by decide), if_neg (by decide), if_neg (by decide),
    if_pos rfl]

/-- Migrations 6 and 7 are not applicable from their own version on. -/
theorem inapplicable_of_le {db : Db} {migration : PackagedMigration}
    (h : migration = runEvidenceIndexMigration ∨ migration = evidenceClassificationsMigration)
    (hle : migration.version ≤ db.userVersion) : migrationIsApplicable db migration = false := by
  have hbelow : isRecordedBelow db migration.version = false := by
    rw [isRecordedBelow, decide_eq_false (p := db.userVersion < migration.version) (by omega)]
    simp
  rcases h with rfl | rfl
  · rw [migrationIsApplicable, if_neg (by decide), if_neg (by decide), if_neg (by decide),
      if_neg (by decide), if_pos rfl]
    simp only [show isRecordedBelow db 6 = false from hbelow, Bool.false_and]
  · rw [migrationIsApplicable, if_neg (by decide), if_neg (by decide), if_neg (by decide),
      if_neg (by decide), if_neg (by decide), if_pos rfl]
    simp only [show isRecordedBelow db 7 = false from hbelow, Bool.false_and]

/-- The first migration always applies. -/
theorem applicable_initial (db : Db) : migrationIsApplicable db initialMigration = true := by
  rw [migrationIsApplicable, if_neg (by decide), if_neg (by decide), if_neg (by decide),
    if_neg (by decide), if_neg (by decide), if_neg (by decide), if_neg (by decide)]

/-- No migration after a given version adds a column. -/
def NotAddedAfter (version : ℕ) (column : Column) : Prop :=
  ∀ migration ∈ packagedMigrations, version < migration.version →
    column ∉ addedColumns migration.version

instance (version : ℕ) (column : Column) : Decidable (NotAddedAfter version column) :=
  inferInstanceAs (Decidable (∀ migration ∈ packagedMigrations, _ → _))

/-- Migration 4 stays inapplicable: migration 5, which may add the result columns it needs,
adds the locator column itself. -/
theorem evidenceLocators_stays_inapplicable {engine : Engine} {later : PackagedMigration}
    {db db' : Db} (hlater : later ∈ packagedMigrations) (hlt : 4 < later.version)
    (hmigrated : Migrated engine later db db')
    (h : migrationIsApplicable db evidenceLocatorsMigration = false) :
    migrationIsApplicable db' evidenceLocatorsMigration = false := by
  have hgrows := hmigrated.grows hlater
  have hevidence : (.evidenceMetadata, .id) ∉ addedColumns later.version := by
    have hall : NotAddedAfter 4 (.evidenceMetadata, .id) := by decide
    exact hall later hlater hlt
  rw [applicable_evidenceLocators] at h ⊢
  rcases hexists : db'.columnExists (.evidenceMetadata, .id) with _ | _
  · simp
  · by_cases hfive : later = resultQueryFiltersMigration
    · subst hfive
      obtain ⟨body, hbody, -, -, rfl⟩ := hmigrated
      rw [migrationBody, if_neg (by decide), if_neg (by decide), if_pos rfl] at hbody
      have hlocator := locator_of_resultQueryFilters hbody hexists
      simp [show (versionSet 5 (migrationRecorded resultQueryFiltersMigration body)).columnExists
        (.evidenceMetadata, .locator) = true from hlocator,
        show resultQueryFiltersMigration.version = 5 from rfl]
    · have hresult : ∀ name ∈ [ColumnName.controlId, ColumnName.evidenceId],
          (TableName.controlResults, name) ∉ addedColumns later.version := by
        have hall : ∀ m ∈ packagedMigrations, 4 < m.version → m ≠ resultQueryFiltersMigration →
            ∀ name ∈ [ColumnName.controlId, ColumnName.evidenceId],
              (TableName.controlResults, name) ∉ addedColumns m.version := by decide
        exact hall later hlater hlt hfive
      simp only [Bool.and_eq_false_iff, Bool.not_eq_false'] at h
      rcases h with ((h | h) | h) | h
      · simp [hgrows.missing hevidence h] at hexists
      · simp [hgrows.missing (hresult _ (by decide)) h]
      · simp [hgrows.missing (hresult _ (by decide)) h]
      · simp [hgrows.keeps _ h]

/-- **Later packaged migrations do not make an earlier one applicable.** -/
theorem stays_inapplicable {engine : Engine} {migration later : PackagedMigration} {db db' : Db}
    (hmem : migration ∈ packagedMigrations) (hlater : later ∈ packagedMigrations)
    (hlt : migration.version < later.version) (hmigrated : Migrated engine later db db')
    (h : migrationIsApplicable db migration = false) :
    migrationIsApplicable db' migration = false := by
  have hgrows := hmigrated.grows hlater
  have hmissing : ∀ {column}, NotAddedAfter migration.version column →
      db.columnExists column = false → db'.columnExists column = false :=
    fun hall => hgrows.missing (hall later hlater hlt)
  have hversion : migration.version ≤ db'.userVersion := by
    have hfits : ∀ m ∈ packagedMigrations, m.version < 2 ^ 31 := by decide
    rw [hmigrated.userVersion_eq, storedUserVersion, if_pos (hfits later hlater)]
    exact hlt.le
  have hmem' := hmem
  simp only [packagedMigrations, List.mem_cons, List.not_mem_nil, or_false] at hmem'
  rcases hmem' with rfl | rfl | rfl | rfl | rfl | rfl | rfl | rfl
  · rw [applicable_initial] at h
    cases h
  · rw [applicable_runEvidenceLinks] at h ⊢
    exact hmissing (by decide) h
  · rw [applicable_gapQueryFilters] at h ⊢
    simp only [Bool.and_eq_false_iff, Bool.not_eq_false'] at h ⊢
    rcases h with h | h
    · exact .inl (hmissing (by decide) h)
    · exact .inr (hgrows.keeps _ h)
  · exact evidenceLocators_stays_inapplicable hlater hlt hmigrated h
  · rw [applicable_resultQueryFilters] at h ⊢
    simp only [Bool.and_eq_false_iff, Bool.or_eq_false_iff, Bool.not_eq_false'] at h ⊢
    rcases h with h | h
    · exact .inl (hmissing (by decide) h)
    · exact .inr ⟨hgrows.keeps _ h.1, hgrows.keeps _ h.2⟩
  · exact inapplicable_of_le (.inl rfl) hversion
  · exact inapplicable_of_le (.inr rfl) hversion
  · have hlast : ∀ m ∈ packagedMigrations, m.version ≤ 8 := by decide
    have hle := hlast later hlater
    exact absurd hlt (not_lt.mpr hle)

/-! ### Interleaved openers -/

/-- Where an opener is in its stack. -/
inductive Opener where
  /-- About to read the ledger for the first migration left; done when none is left. -/
  | reading (left : List PackagedMigration)
  /-- The migration was not recorded; about to check whether it is applicable. -/
  | checking (migration : PackagedMigration) (left : List PackagedMigration)
  /-- The migration was applicable; about to run its transaction. -/
  | migrating (migration : PackagedMigration) (left : List PackagedMigration)
  | failed
  deriving DecidableEq

/-- One atomic step of an opener, with the bodies it executed. -/
inductive OpenerStep (engine : Engine) :
    Opener → Db → Opener → Db → List PackagedMigration → Prop where
  | recorded {migration : PackagedMigration} {left : List PackagedMigration} {db : Db}
      (h : migrationIsApplied db migration.version = true) :
      OpenerStep engine (.reading (migration :: left)) db (.reading left) db []
  | pending {migration : PackagedMigration} {left : List PackagedMigration} {db : Db}
      (h : migrationIsApplied db migration.version = false) :
      OpenerStep engine (.reading (migration :: left)) db (.checking migration left) db []
  | readFails {migration : PackagedMigration} {left : List PackagedMigration} {db : Db} :
      OpenerStep engine (.reading (migration :: left)) db .failed db []
  | applicable {migration : PackagedMigration} {left : List PackagedMigration} {db : Db}
      (h : migrationIsApplicable db migration = true) :
      OpenerStep engine (.checking migration left) db (.migrating migration left) db []
  | inapplicable {migration : PackagedMigration} {left : List PackagedMigration} {db : Db}
      (h : migrationIsApplicable db migration = false) :
      OpenerStep engine (.checking migration left) db (.reading left) db []
  | checkFails {migration : PackagedMigration} {left : List PackagedMigration} {db : Db} :
      OpenerStep engine (.checking migration left) db .failed db []
  | migrated {migration : PackagedMigration} {left : List PackagedMigration}
      {faults : ℕ → Bool} {db db' : Db}
      (h : applyPackagedMigration engine migration faults db = (.ok (), db')) :
      OpenerStep engine (.migrating migration left) db (.reading left) db'
        (if migrationIsApplied db migration.version then [] else [migration])
  | migrationFails {migration : PackagedMigration} {left : List PackagedMigration}
      {faults : ℕ → Bool} {e : LocalDatabaseError} {db db' : Db}
      (h : applyPackagedMigration engine migration faults db = (.error e, db')) :
      OpenerStep engine (.migrating migration left) db .failed db' []

/-- The database with its openers, and the bodies executed so far. -/
structure Opening (ι : Type) where
  db : Db
  openers : ι → Opener
  executed : List PackagedMigration

section Interleaving

variable {ι : Type} [DecidableEq ι] {engine : Engine}

/-- All openers are about to start on the stack. -/
def Opening.start (stack : List PackagedMigration) (db : Db) : Opening ι :=
  ⟨db, fun _ => .reading stack, []⟩

/-- One of the openers makes a step. -/
inductive Opening.Step (engine : Engine) : Opening ι → Opening ι → Prop where
  | mk {s : Opening ι} (i : ι) {opener : Opener} {db : Db} {executed : List PackagedMigration}
      (h : OpenerStep engine (s.openers i) s.db opener db executed) :
      Opening.Step engine s
        ⟨db, Function.update s.openers i opener, s.executed ++ executed⟩

/-- A stack whose openers may run at the same time. -/
structure Shareable (engine : Engine) (stack : List PackagedMigration) : Prop where
  ascending : stack.Pairwise (·.version < ·.version)
  leavesLedger : ∀ migration ∈ stack, LeavesLedger engine migration.sql
  stays : ∀ migration ∈ stack, ∀ later ∈ stack, migration.version < later.version →
    ∀ db db', Migrated engine later db db' → migrationIsApplicable db migration = false →
      migrationIsApplicable db' migration = false

/-- **The packaged migrations** can be shared by openers. -/
theorem shareable_packagedMigrations (engine : Engine) : Shareable engine packagedMigrations where
  ascending := by decide
  leavesLedger := by
    intro migration hmem hnot
    refine absurd ?_ hnot
    simp only [packagedMigrations, List.mem_cons, List.not_mem_nil, or_false] at hmem
    rcases hmem with rfl | rfl | rfl | rfl | rfl | rfl | rfl | rfl <;>
      simp [packagedTexts, initialMigration, runEvidenceLinksMigration, gapQueryFiltersMigration,
        evidenceLocatorsMigration, resultQueryFiltersMigration, runEvidenceIndexMigration,
        evidenceClassificationsMigration, exportReconstructionMigration]
  stays := fun _ hmem _ hlater hlt _ _ hmigrated h =>
    stays_inapplicable hmem hlater hlt hmigrated h

/-- What an opener may know when `left` is still ahead of the frontier: at the frontier its
findings still hold, and a migration it is late for has been recorded. -/
def Opener.Sound (stack left : List PackagedMigration) (db : Db) : Opener → Prop
  | .reading rest => left <:+ rest ∧ rest <:+ stack
  | .checking migration rest => migration :: rest <:+ stack ∧
      (migration :: rest = left ∧ migrationIsApplied db migration.version = false ∨
        left <:+ rest)
  | .migrating migration rest => migration :: rest <:+ stack ∧
      (migration :: rest = left ∧ migrationIsApplied db migration.version = false ∧
          migrationIsApplicable db migration = true ∨
        left <:+ rest ∧ migrationIsApplied db migration.version = true)
  | .failed => True

/-- The invariant of an interleaving: the database is the one a pass over the first part of
the stack leaves, and every opener is sound. -/
structure Frontier (engine : Engine) (stack : List PackagedMigration) (db₀ : Db)
    (s : Opening ι) (passed left : List PackagedMigration) : Prop where
  split : stack = passed ++ left
  pass : Pass engine passed db₀ s.db
  settled : Settled passed s.db
  kept : ∀ version, migrationIsApplied db₀ version = true → migrationIsApplied s.db version = true
  executed : s.executed.Sublist passed
  fresh : ∀ migration ∈ s.executed, migrationIsApplied db₀ migration.version = false
  sound : ∀ i, (s.openers i).Sound stack left s.db

variable {stack passed left rest : List PackagedMigration} {migration : PackagedMigration}
  {db₀ db : Db} {s : Opening ι} {i : ι}

/-- A migration before the frontier was passed. -/
theorem mem_passed (hsplit : stack = passed ++ left) (hstack : migration :: rest <:+ stack)
    (hleft : left <:+ rest) : migration ∈ passed := by
  obtain ⟨before, hbefore⟩ := hstack
  obtain ⟨between, rfl⟩ := hleft
  have hpassed : before ++ migration :: between = passed := by
    refine List.append_cancel_right (?_ : _ ++ left = _)
    rw [← hsplit, ← hbefore]
    simp
  simp [← hpassed]

/-- The frontier moves past a migration: the findings of the openers at it are used up. -/
theorem Opener.Sound.advance {opener : Opener} {db' : Db}
    (h : opener.Sound stack (migration :: rest) db)
    (hkept : ∀ version, migrationIsApplied db version = true →
      migrationIsApplied db' version = true)
    (hdone : migrationIsApplied db' migration.version = true ∨
      ¬ (migrationIsApplied db migration.version = false ∧
        migrationIsApplicable db migration = true)) : opener.Sound stack rest db' := by
  have hrest : rest <:+ migration :: rest := List.suffix_cons migration rest
  cases opener with
  | reading r => exact ⟨hrest.trans h.1, h.2⟩
  | checking m r =>
      obtain ⟨hstack, ⟨hfrontier, -⟩ | hbehind⟩ := h
      · obtain ⟨-, rfl⟩ := List.cons.inj hfrontier
        exact ⟨hstack, .inr (List.suffix_refl r)⟩
      · exact ⟨hstack, .inr (hrest.trans hbehind)⟩
  | migrating m r =>
      obtain ⟨hstack, ⟨hfrontier, hpending, happlicable⟩ | ⟨hbehind, happlied⟩⟩ := h
      · obtain ⟨rfl, rfl⟩ := List.cons.inj hfrontier
        rcases hdone with hdone | hdone
        · exact ⟨hstack, .inr ⟨List.suffix_refl r, hdone⟩⟩
        · exact absurd ⟨hpending, happlicable⟩ hdone
      · exact ⟨hstack, .inr ⟨hrest.trans hbehind, hkept _ happlied⟩⟩
  | failed => trivial

/-- An opener that moves leaves the others sound. -/
theorem sound_update {openers : ι → Opener} {opener : Opener}
    (h : ∀ j, (openers j).Sound stack left db) (hopener : opener.Sound stack left db) (j : ι) :
    (Function.update openers i opener j).Sound stack left db := by
  rw [Function.update_apply]
  split
  · exact hopener
  · exact h j

/-- A step of an opener that leaves the database and the frontier alone. -/
theorem Frontier.stay {opener : Opener} (hf : Frontier engine stack db₀ s passed left)
    (hopener : opener.Sound stack left s.db) :
    Frontier engine stack db₀ ⟨s.db, Function.update s.openers i opener, s.executed ++ []⟩
      passed left where
  split := hf.split
  pass := hf.pass
  settled := hf.settled
  kept := hf.kept
  executed := by simpa using hf.executed
  fresh := by simpa using hf.fresh
  sound := sound_update hf.sound hopener

/-- An opener passes over a migration that is applied or inapplicable. -/
theorem Frontier.skip (hf : Frontier engine stack db₀ s passed left)
    (hleft : left <:+ migration :: rest) (hstack : migration :: rest <:+ stack)
    (hskip : migrationIsApplied s.db migration.version = true ∨
      migrationIsApplicable s.db migration = false) :
    ∃ passed left, Frontier engine stack db₀
      ⟨s.db, Function.update s.openers i (.reading rest), s.executed ++ []⟩ passed left := by
  have hrest : rest <:+ stack := (List.suffix_cons migration rest).trans hstack
  rcases List.suffix_cons_iff.mp hleft with rfl | hbehind
  · have hdone : migrationIsApplied s.db migration.version = true ∨
        ¬ (migrationIsApplied s.db migration.version = false ∧
          migrationIsApplicable s.db migration = true) := by
      rcases hskip with h | h
      · exact .inl h
      · exact .inr fun hboth => by simp [h] at hboth
    refine ⟨passed ++ [migration], rest, ?_⟩
    refine
      { split := by rw [hf.split, List.append_assoc, List.singleton_append]
        pass := hf.pass.append_skip hskip
        settled := ?_
        kept := hf.kept
        executed := ?_
        fresh := by simpa using hf.fresh
        sound := sound_update (fun j => (hf.sound j).advance (fun _ h => h) hdone)
          ⟨List.suffix_refl rest, hrest⟩ }
    · intro m hm
      rcases List.mem_append.mp hm with hm | hm
      · exact hf.settled m hm
      · rw [List.mem_singleton.mp hm]
        exact hskip
    · rw [List.append_nil]
      exact hf.executed.trans (List.sublist_append_left passed [migration])
  · exact ⟨passed, left, hf.stay ⟨hbehind, hrest⟩⟩

/-- An opener executes the migration at the frontier. -/
theorem Frontier.execute (hshare : Shareable engine stack)
    (hf : Frontier engine stack db₀ s passed (migration :: rest)) {faults : ℕ → Bool} {db' : Db}
    (hpending : migrationIsApplied s.db migration.version = false)
    (happlicable : migrationIsApplicable s.db migration = true)
    (happly : applyPackagedMigration engine migration faults s.db = (.ok (), db')) :
    Frontier engine stack db₀
      ⟨db', Function.update s.openers i (.reading rest), s.executed ++ [migration]⟩
      (passed ++ [migration]) rest := by
  have hsplit := hf.split
  have hmem : migration ∈ stack := by simp [hsplit]
  have hmigrated := migrated_of_pending happly hpending
  have happlied := hmigrated.isApplied_iff (hshare.leavesLedger migration hmem)
  have hkept : ∀ version, migrationIsApplied s.db version = true →
      migrationIsApplied db' version = true := fun version h => (happlied version).mpr (.inr h)
  have hdone : migrationIsApplied db' migration.version = true :=
    (happlied migration.version).mpr (.inl rfl)
  have hrest : rest <:+ stack :=
    (List.suffix_cons migration rest).trans (hsplit ▸ List.suffix_append passed _)
  refine
    { split := by rw [hsplit, List.append_assoc, List.singleton_append]
      pass := hf.pass.append_execute hpending happlicable happly
      settled := ?_
      kept := fun version h => hkept version (hf.kept version h)
      executed := hf.executed.append (List.Sublist.refl _)
      fresh := ?_
      sound := sound_update (fun j => (hf.sound j).advance hkept (.inl hdone))
        ⟨List.suffix_refl rest, hrest⟩ }
  · intro m hm
    rcases List.mem_append.mp hm with hm | hm
    · have hlt : m.version < migration.version := by
        have hascending := hshare.ascending
        rw [hsplit, List.pairwise_append] at hascending
        exact hascending.2.2 m hm migration List.mem_cons_self
      rcases hf.settled m hm with h | h
      · exact .inl (hkept m.version h)
      · exact .inr (hshare.stays m (by simp [hsplit, hm]) migration hmem hlt _ _ hmigrated h)
    · rw [List.mem_singleton.mp hm]
      exact .inl hdone
  · intro m hm
    rcases List.mem_append.mp hm with hm | hm
    · exact hf.fresh m hm
    · rw [List.mem_singleton.mp hm, Bool.eq_false_iff]
      intro hbefore
      rw [hf.kept _ hbefore] at hpending
      cases hpending

/-- **One step of an opener** keeps the frontier where it is or moves it. -/
theorem Frontier.step (hshare : Shareable engine stack) {s' : Opening ι}
    (hf : Frontier engine stack db₀ s passed left) (hstep : Opening.Step engine s s') :
    ∃ passed left, Frontier engine stack db₀ s' passed left := by
  obtain ⟨i, h⟩ := hstep
  have hsound := hf.sound i
  generalize s.openers i = opener at h hsound
  generalize hdb : s.db = db at h
  cases h with
  | recorded h =>
      subst hdb
      exact hf.skip hsound.1 hsound.2 (.inl h)
  | pending h =>
      subst hdb
      refine ⟨passed, left, hf.stay ⟨hsound.2, ?_⟩⟩
      rcases List.suffix_cons_iff.mp hsound.1 with hfrontier | hbehind
      · exact .inl ⟨hfrontier.symm, h⟩
      · exact .inr hbehind
  | readFails =>
      subst hdb
      exact ⟨passed, left, hf.stay trivial⟩
  | applicable h =>
      subst hdb
      refine ⟨passed, left, hf.stay ⟨hsound.1, ?_⟩⟩
      rcases hsound.2 with ⟨hfrontier, hpending⟩ | hbehind
      · exact .inl ⟨hfrontier, hpending, h⟩
      · rcases hf.settled _ (mem_passed hf.split hsound.1 hbehind) with happlied | hnot
        · exact .inr ⟨hbehind, happlied⟩
        · rw [h] at hnot
          cases hnot
  | inapplicable h =>
      subst hdb
      refine hf.skip ?_ hsound.1 (.inr h)
      rcases hsound.2 with ⟨hfrontier, -⟩ | hbehind
      · exact hfrontier ▸ List.suffix_refl _
      · exact hbehind.trans (List.suffix_cons _ _)
  | checkFails =>
      subst hdb
      exact ⟨passed, left, hf.stay trivial⟩
  | migrated h =>
      subst hdb
      obtain ⟨hstack, ⟨hfrontier, hpending, happlicable⟩ | ⟨hbehind, happlied⟩⟩ := hsound
      · subst hfrontier
        rw [hpending, if_neg Bool.false_ne_true]
        exact ⟨_, _, hf.execute hshare hpending happlicable h⟩
      · -- Somebody else executed it in the meantime: the transaction does nothing.
        rcases applyPackagedMigration_ok h with ⟨-, rfl⟩ | ⟨hpending, -⟩
        · rw [if_pos happlied]
          exact ⟨passed, left, hf.stay ⟨hbehind, (List.suffix_cons _ _).trans hstack⟩⟩
        · rw [happlied] at hpending
          cases hpending
  | migrationFails h =>
      obtain rfl := applyPackagedMigration_error h
      subst hdb
      exact ⟨passed, left, hf.stay trivial⟩

/-- Every interleaving has a frontier. -/
theorem frontier_of_run (hshare : Shareable engine stack)
    (hrun : Relation.ReflTransGen (Opening.Step engine) (Opening.start stack db₀) s) :
    ∃ passed left, Frontier engine stack db₀ s passed left := by
  induction hrun with
  | refl =>
      refine ⟨[], stack, ?_⟩
      exact
        { split := rfl
          pass := .done db₀
          settled := fun m hm => by cases hm
          kept := fun _ h => h
          executed := List.Sublist.refl _
          fresh := fun m hm => by cases hm
          sound := fun _ => ⟨List.suffix_refl stack, List.suffix_refl stack⟩ }
  | tail _ hstep ih =>
      obtain ⟨passed, left, hf⟩ := ih
      exact hf.step hshare hstep

/-- Migrations of the caller that openers may share: in ascending order, always applicable,
and with texts that do not touch the ledger. -/
structure CallerStack (engine : Engine) (stack : List PackagedMigration) : Prop where
  ascending : stack.Pairwise (·.version < ·.version)
  applicable : ∀ migration ∈ stack, ∀ db, migrationIsApplicable db migration = true
  leavesLedger : ∀ migration ∈ stack, LeavesLedger engine migration.sql

/-- A stack of the caller can be shared by openers. -/
theorem CallerStack.shareable (h : CallerStack engine stack) : Shareable engine stack where
  ascending := h.ascending
  leavesLedger := h.leavesLedger
  stays := by
    intro migration hmem _ _ _ db _ _ hnot
    rw [h.applicable migration hmem db] at hnot
    cases hnot

/-- **Concurrent opens apply each migration once**: in every interleaving of any openers, over
any database, no body is executed twice, nor is one that was recorded before. Once all
openers are done, the database is the one a sequential open leaves, and applying the stack
again changes nothing. -/
theorem concurrent_opens_apply_once
    (hstack : stack = packagedMigrations ∨ CallerStack engine stack)
    (hrun : Relation.ReflTransGen (Opening.Step engine) (Opening.start stack db₀) s) :
    (∀ migration, s.executed.count migration ≤ 1) ∧
      (∀ migration ∈ s.executed, migrationIsApplied db₀ migration.version = false) ∧
      (Nonempty ι → (∀ i, s.openers i = .reading []) →
        applyPackagedMigrations engine stack noMigrationFaults db₀ = (.ok (), s.db) ∧
          ∀ faults, (applyPackagedMigrations engine stack faults s.db).2 = s.db) := by
  have hshare : Shareable engine stack := by
    rcases hstack with rfl | hcaller
    · exact shareable_packagedMigrations engine
    · exact hcaller.shareable
  obtain ⟨passed, left, hf⟩ := frontier_of_run hshare hrun
  refine ⟨fun migration => ?_, hf.fresh, fun hone hdone => ?_⟩
  · have hnodup : stack.Nodup := hshare.ascending.imp fun h heq => by simp [heq] at h
    rw [hf.split] at hnodup
    exact List.nodup_iff_count_le_one.mp ((List.nodup_append.mp hnodup).1.sublist hf.executed) _
  · obtain ⟨i⟩ := hone
    have hsound := hf.sound i
    rw [hdone i] at hsound
    obtain rfl := List.suffix_nil.mp hsound.1
    have hall : stack = passed := by rw [hf.split, List.append_nil]
    subst hall
    refine ⟨hf.pass.applyPackagedMigrations_eq, fun faults => ?_⟩
    obtain ⟨again, rest, hagain, hpass, -⟩ :=
      applyPackagedMigrations_passes (Prod.mk.eta (p := applyPackagedMigrations _ _ faults s.db)).symm
    exact hpass.eq_of_settled fun m hm => hf.settled m (by simp [hagain, hm])

/-! ### Schedules -/

/-- The step of an opener when nothing fails by itself. -/
def Opener.turn (engine : Engine) (opener : Opener) (db : Db) :
    Opener × Db × List PackagedMigration :=
  match opener with
  | .reading [] => (opener, db, [])
  | .reading (migration :: left) =>
      if migrationIsApplied db migration.version then (.reading left, db, [])
      else (.checking migration left, db, [])
  | .checking migration left =>
      if migrationIsApplicable db migration then (.migrating migration left, db, [])
      else (.reading left, db, [])
  | .migrating migration left =>
      match applyPackagedMigration engine migration (fun _ => false) db with
      | (.ok (), db') =>
          (.reading left, db', if migrationIsApplied db migration.version then [] else [migration])
      | (.error _, db') => (.failed, db', [])
  | .failed => (opener, db, [])

/-- The openers take turns. -/
def Opening.schedule (engine : Engine) (s : Opening ι) : List ι → Opening ι
  | [] => s
  | i :: turns =>
      let turn := (s.openers i).turn engine s.db
      schedule engine ⟨turn.2.1, Function.update s.openers i turn.1, s.executed ++ turn.2.2⟩ turns

/-- A turn is a step, or the opener has nothing left to do. -/
theorem Opener.turn_step (opener : Opener) (engine : Engine) (db : Db) :
    OpenerStep engine opener db (opener.turn engine db).1 (opener.turn engine db).2.1
        (opener.turn engine db).2.2 ∨
      opener.turn engine db = (opener, db, []) := by
  match opener with
  | .reading [] => exact .inr rfl
  | .reading (migration :: left) =>
      rw [Opener.turn]
      split
      · next h => exact .inl (.recorded h)
      · next h => exact .inl (.pending (by simpa using h))
  | .checking migration left =>
      rw [Opener.turn]
      split
      · next h => exact .inl (.applicable h)
      · next h => exact .inl (.inapplicable (by simpa using h))
  | .migrating migration left =>
      rw [Opener.turn]
      split
      · next h => exact .inl (.migrated h)
      · next h => exact .inl (.migrationFails h)
  | .failed => exact .inr rfl

/-- Every schedule is an interleaving. -/
theorem Opening.schedule_run (s : Opening ι) (turns : List ι) :
    Relation.ReflTransGen (Opening.Step engine) s (s.schedule engine turns) := by
  induction turns generalizing s with
  | nil => exact .refl
  | cons i turns ih =>
      rw [Opening.schedule]
      rcases (s.openers i).turn_step engine s.db with h | h
      · exact .head (.mk i h) (ih _)
      · have hstay : (⟨s.db, Function.update s.openers i (s.openers i), s.executed ++ []⟩ :
            Opening ι) = s := by simp
        rw [h]
        rw [hstay]
        exact ih s

end Interleaving

/-- Migrations that are not packaged are always applicable. -/
theorem applicable_of_not_packaged {migration : PackagedMigration}
    (h : migration ∉ packagedMigrations) (db : Db) :
    migrationIsApplicable db migration = true := by
  simp only [packagedMigrations, List.mem_cons, List.not_mem_nil, or_false, not_or] at h
  obtain ⟨-, h2, h3, h4, h5, h6, h7, h8⟩ := h
  rw [migrationIsApplicable, if_neg h2, if_neg h3, if_neg h4, if_neg h5, if_neg h6, if_neg h7,
    if_neg h8]

/-- Two openers of an empty file that reach the transaction of the first migration both. -/
def twoOpeners : Opening (Fin 2) :=
  (Opening.start [bareMigration 1, bareMigration 2] emptyDb).schedule noTexts
    [0, 1, 0, 1, 0, 1, 1, 1, 0, 1, 0, 0]

theorem concurrent_opens_apply_once_twoOpeners :
    (∀ migration, twoOpeners.executed.count migration ≤ 1) ∧
      applyPackagedMigrations noTexts [bareMigration 1, bareMigration 2] noMigrationFaults
        emptyDb = (.ok (), twoOpeners.db) := by
  have hcaller : CallerStack noTexts [bareMigration 1, bareMigration 2] :=
    { ascending := by decide
      applicable := by
        have hother : ∀ m ∈ [bareMigration 1, bareMigration 2], m ∉ packagedMigrations := by decide
        exact fun m hm => applicable_of_not_packaged (hother m hm)
      leavesLedger := fun _ _ => leavesLedger_noTexts _ }
  have hrun : Relation.ReflTransGen (Opening.Step noTexts)
      (Opening.start [bareMigration 1, bareMigration 2] emptyDb) twoOpeners :=
    Opening.schedule_run _ _
  obtain ⟨honce, -, hdone⟩ := concurrent_opens_apply_once (.inr hcaller) hrun
  exact ⟨honce, (hdone inferInstance (by decide)).1⟩

end SovriAgent
