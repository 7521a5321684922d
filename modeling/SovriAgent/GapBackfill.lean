import SovriAgent.Upgrade
import SovriAgent.RowIdentity
import SovriAgent.OrderBy

/-!
# What Back-filled Results Take from Gaps

Migration 5 fills the empty statuses of the results and migration 8 their empty severities,
both from the gaps. The sub-query selects the gaps of the run, the control and the rule of
a result and reads the one with the smallest id. It does not ask which framework a gap
belongs to, although a control and a rule may be graded under several frameworks.

Both back-fills are one statement with two parameters (`GapColumn`). What runs before it in
its migration prepares the results: columns that did not exist are added, and migration 5
reads runs, controls and rules off the row ids.

## Main results

* `prepared_resultQueryFilters`, `prepared_exportReconstruction`: the results each statement
  finds, by the rows before the migration.
* `backfills_from_own_gaps_iff`: values come from own gaps only, exactly when no gap of
  another framework comes first.
-/

namespace SovriAgent

open Keyed Transaction Transaction.Tx

/-! ### Gaps and results -/

/-- The gap has the run, the control and the rule of the result. -/
def GapOf (row : ControlResultRow) (gap : GapRow) : Prop :=
  gap.runId = some row.runId ∧ gap.controlId = some row.controlId ∧ gap.ruleId = some row.ruleId

instance (row : ControlResultRow) (gap : GapRow) : Decidable (GapOf row gap) := by
  unfold GapOf
  infer_instance

/-- The gap is another framework's: the ids of both rows can be read, and name different
frameworks. -/
def OtherFramework (gapId rowId : Str) : Prop :=
  ∃ gap result, complianceGapIdentity gapId = some gap ∧
    controlResultIdentity rowId = some result ∧ gap.frameworkId ≠ result.frameworkId

/-- The gap that a sub-query over the gaps of a result, ordered by id, answers. -/
structure FirstGap (gaps : Table Str GapRow) (row : ControlResultRow) (gapId : Str)
    (gap : GapRow) : Prop where
  stored : gaps.get gapId = some gap
  ofResult : GapOf row gap
  first : ∀ otherId other, gaps.get otherId = some other → GapOf row other →
    strLe gapId otherId = true

/-- A column of the results that is filled from a column of the gaps. -/
structure GapColumn where
  column : ColumnName
  ofResult : ControlResultRow → Str
  ofGap : GapRow → Option Str

/-- The statuses, filled by migration 5. -/
def statusColumn : GapColumn :=
  ⟨.status, (·.status), (·.status)⟩

/-- The severities, filled by migration 8. -/
def severityColumn : GapColumn :=
  ⟨.severity, (·.severity), (·.severity)⟩

/-- A result without a value: it is empty, or the column does not exist. -/
def GapColumn.Missing (c : GapColumn) (db : Db) (row : ControlResultRow) : Prop :=
  db.columnExists (.controlResults, c.column) = true → c.ofResult row = []

/-- Every value filled in is the value of the gap the sub-query answers, a gap of the same
run, control and rule, and that gap is not another framework's. -/
def TakenFromOwnGaps (c : GapColumn) (db db' : Db) : Prop :=
  ∀ rowId row row', db.controlResults.get rowId = some row →
    db'.controlResults.get rowId = some row' → c.Missing db row → c.ofResult row' ≠ [] →
      ∃ gapId gap, FirstGap db.complianceGaps row' gapId gap ∧
        c.ofGap gap = some (c.ofResult row') ∧ ¬ OtherFramework gapId rowId

/-- No gap of another framework with a value comes first, by id, among the gaps of the run,
control and rule of a result without a value. `identified` says which run, control and rule
a result row has when the back-fill reads it. -/
def OwnGapsFirst (c : GapColumn) (identified : Str → ControlResultRow → ControlResultRow)
    (db : Db) : Prop :=
  ∀ rowId row gapId gap value, db.controlResults.get rowId = some row → c.Missing db row →
    db.complianceGaps.get gapId = some gap → GapOf (identified rowId row) gap →
    c.ofGap gap = some value → value ≠ [] → OtherFramework gapId rowId →
      ∃ earlierId earlier, db.complianceGaps.get earlierId = some earlier ∧
        GapOf (identified rowId row) earlier ∧ strLe gapId earlierId = false

/-! ### The row a sub-query answers -/

/-- The first row in the order of the keys, when keys tell the rows apart. -/
theorem firstBy_eq_some_iff {ν : Type} {p : Str × ν → Bool} {t : Table Str ν} {r : Str × ν} :
    firstBy Prod.fst p t = some r ↔
      t.get r.1 = some r.2 ∧ p r = true ∧
        ∀ k v, t.get k = some v → p (k, v) = true → strLe r.1 k = true := by
  have hleast : ∀ {r' : Str × ν}, firstBy Prod.fst p t = some r' →
      ∀ k v, t.get k = some v → p (k, v) = true → strLe r'.1 k = true := by
    intro r' hfirst k v hget hp
    obtain ⟨rest, hsorted⟩ := List.head?_eq_some_iff.mp hfirst
    have hmem : (k, v) ∈ r' :: rest := by
      rw [← hsorted, sortBy, (List.perm_insertionSort _ _).mem_iff, List.mem_filter]
      exact ⟨Table.mem_rows_iff.mpr hget, hp⟩
    have hpairwise : (r' :: rest).Pairwise fun a b => strLe a.1 b.1 = true := by
      have : Std.Total fun a b : Str × ν => strLe a.1 b.1 = true :=
        ⟨fun a b => strLe_total a.1 b.1⟩
      have : IsTrans (Str × ν) fun a b => strLe a.1 b.1 = true := ⟨fun _ _ _ => strLe_trans⟩
      rw [← hsorted]
      exact List.pairwise_insertionSort _ _
    rcases List.mem_cons.mp hmem with heq | hrest
    · rw [← heq]
      exact (strLe_total k k).elim id id
    · exact (List.pairwise_cons.mp hpairwise).1 _ hrest
  constructor
  · intro hfirst
    exact ⟨(get_of_firstBy hfirst).1, (get_of_firstBy hfirst).2, hleast hfirst⟩
  · rintro ⟨hget, hp, hfirst⟩
    rcases hanswer : firstBy Prod.fst p t with _ | r'
    · have hempty : t.rows.filter p = [] := by
        rw [firstBy, List.head?_eq_none_iff] at hanswer
        exact List.perm_nil.mp (hanswer ▸ (List.perm_insertionSort _ _).symm)
      have hmem : r ∈ t.rows.filter p :=
        List.mem_filter.mpr ⟨Table.mem_rows_iff.mpr hget, hp⟩
      rw [hempty] at hmem
      cases hmem
    · obtain ⟨hget', hp'⟩ := get_of_firstBy hanswer
      have hkey : r'.1 = r.1 :=
        strLe_antisymm (hleast hanswer r.1 r.2 hget hp) (hfirst r'.1 r'.2 hget' hp')
      rw [hkey, hget] at hget'
      exact congrArg some (Prod.ext hkey (Option.some.inj hget').symm)

/-- The gap of a result is the one the sub-query answers. -/
theorem gapOfResult_eq_some_iff {gaps : Table Str GapRow} {row : ControlResultRow}
    {gap : GapRow} : gapOfResult gaps row = some gap ↔ ∃ gapId, FirstGap gaps row gapId gap := by
  rw [gapOfResult, Option.map_eq_some_iff]
  constructor
  · rintro ⟨⟨gapId, gap'⟩, hfirst, rfl⟩
    obtain ⟨hget, hgap, hleast⟩ := firstBy_eq_some_iff.mp hfirst
    exact ⟨gapId, hget, of_decide_eq_true hgap, fun otherId other hother hof =>
      hleast otherId other hother (decide_eq_true hof)⟩
  · rintro ⟨gapId, hfirst⟩
    refine ⟨(gapId, gap), firstBy_eq_some_iff.mpr ⟨hfirst.stored, decide_eq_true hfirst.ofResult,
      fun otherId other hother hof => ?_⟩, rfl⟩
    exact hfirst.first otherId other hother (of_decide_eq_true hof)

/-- There is one first gap of a result. -/
theorem FirstGap.unique {gaps : Table Str GapRow} {row : ControlResultRow} {gapId gapId' : Str}
    {gap gap' : GapRow} (h : FirstGap gaps row gapId gap) (h' : FirstGap gaps row gapId' gap') :
    gapId' = gapId :=
  strLe_antisymm (h'.first gapId gap h.stored h.ofResult)
    (h.first gapId' gap' h'.stored h'.ofResult)

/-! ### One back-fill -/

/-- The run, the control and the rule of a result. -/
def ControlResultRow.gradedAs (row : ControlResultRow) : Str × Str × Str :=
  (row.runId, row.controlId, row.ruleId)

/-- The value a result has after its column is filled. -/
def GapColumn.filled (c : GapColumn) (gaps : Table Str GapRow) (row : ControlResultRow) : Str :=
  if c.ofResult row = [] then ((gapOfResult gaps row).bind c.ofGap).getD [] else c.ofResult row

/-- What the statement finds: every result with the run, control and rule it is identified
by, and empty where it had no value. -/
structure Prepared (c : GapColumn) (identified : Str → ControlResultRow → ControlResultRow)
    (db before : Db) : Prop where
  gaps : before.complianceGaps = db.complianceGaps
  rows : db.controlResults.Carries (fun rowId row row' =>
    row'.gradedAs = (identified rowId row).gradedAs ∧ (c.ofResult row' = [] ↔ c.Missing db row))
    before.controlResults

/-- What the statement, and all that follows it, leaves of the results. -/
def BackFilled (c : GapColumn) (before db' : Db) : Prop :=
  before.controlResults.Carries (fun _ row row' => row'.gradedAs = row.gradedAs ∧
    c.ofResult row' = c.filled before.complianceGaps row) db'.controlResults

/-- A gap of a result is one of every result graded as it. -/
theorem GapOf.congr {row row' : ControlResultRow} (h : row'.gradedAs = row.gradedAs)
    {gap : GapRow} (hgap : GapOf row gap) : GapOf row' gap := by
  obtain ⟨hrun, hrest⟩ := Prod.mk.inj h
  obtain ⟨hcontrol, hrule⟩ := Prod.mk.inj hrest
  rwa [GapOf, hrun, hcontrol, hrule]

/-- So is the first one. -/
theorem FirstGap.congr {row row' : ControlResultRow} (h : row'.gradedAs = row.gradedAs)
    {gaps : Table Str GapRow} {gapId : Str} {gap : GapRow} (hfirst : FirstGap gaps row gapId gap) :
    FirstGap gaps row' gapId gap where
  stored := hfirst.stored
  ofResult := hfirst.ofResult.congr h
  first := fun otherId other hother hof =>
    hfirst.first otherId other hother (hof.congr h.symm)

/-- A value that was filled in is the value of the first gap. -/
theorem GapColumn.exists_firstGap {c : GapColumn} {gaps : Table Str GapRow}
    {row : ControlResultRow} (hempty : c.ofResult row = []) (hfilled : c.filled gaps row ≠ []) :
    ∃ gapId gap, FirstGap gaps row gapId gap ∧ c.ofGap gap = some (c.filled gaps row) := by
  rw [GapColumn.filled, if_pos hempty] at hfilled ⊢
  rcases hgap : gapOfResult gaps row with _ | gap
  · rw [hgap] at hfilled
    exact absurd rfl hfilled
  · obtain ⟨gapId, hfirst⟩ := gapOfResult_eq_some_iff.mp hgap
    refine ⟨gapId, gap, hfirst, ?_⟩
    rw [hgap, Option.bind_some] at hfilled
    rcases hvalue : c.ofGap gap with _ | value
    · rw [hvalue] at hfilled
      exact absurd rfl hfilled
    · simp [hvalue]

/-- An empty column is filled from the first gap. -/
theorem GapColumn.filled_of_firstGap {c : GapColumn} {gaps : Table Str GapRow}
    {row : ControlResultRow} {gapId value : Str} {gap : GapRow} (hempty : c.ofResult row = [])
    (hfirst : FirstGap gaps row gapId gap) (hvalue : c.ofGap gap = some value) :
    c.filled gaps row = value := by
  rw [GapColumn.filled, if_pos hempty, gapOfResult_eq_some_iff.mpr ⟨gapId, hfirst⟩,
    Option.bind_some, hvalue, Option.getD_some]

/-- **One back-fill** takes values from own gaps only exactly when no other framework's gap
comes first. -/
theorem takenFromOwnGaps_iff {c : GapColumn}
    {identified : Str → ControlResultRow → ControlResultRow} {db before db' : Db}
    (hprepared : Prepared c identified db before) (hfilled : BackFilled c before db') :
    TakenFromOwnGaps c db db' ↔ OwnGapsFirst c identified db := by
  -- the row before the statement and the row after it
  have hrows : ∀ rowId row, db.controlResults.get rowId = some row → c.Missing db row →
      ∃ found row', db'.controlResults.get rowId = some row' ∧ c.ofResult found = [] ∧
        found.gradedAs = (identified rowId row).gradedAs ∧ row'.gradedAs = found.gradedAs ∧
        c.ofResult row' = c.filled db.complianceGaps found := by
    intro rowId row hget hmissing
    obtain ⟨found, hfound, hgraded, hempty⟩ := hprepared.rows rowId row hget
    obtain ⟨row', hget', hgraded', hvalue⟩ := hfilled rowId found hfound
    rw [hprepared.gaps] at hvalue
    exact ⟨found, row', hget', hempty.mpr hmissing, hgraded, hgraded', hvalue⟩
  constructor
  · intro htaken rowId row gapId gap value hget hmissing hgap hof hvalue hne hother
    by_contra hnone
    obtain ⟨found, row', hget', hempty, hgraded, hgraded', hrow'⟩ := hrows rowId row hget hmissing
    have hfirst : FirstGap db.complianceGaps found gapId gap := by
      refine FirstGap.congr hgraded ⟨hgap, hof, fun earlierId earlier hearlier hofEarlier => ?_⟩
      by_contra hbefore
      exact hnone ⟨earlierId, earlier, hearlier, hofEarlier, Bool.eq_false_iff.mpr hbefore⟩
    rw [GapColumn.filled_of_firstGap hempty hfirst hvalue] at hrow'
    obtain ⟨gapId', gap', hfirst', -, hown⟩ :=
      htaken rowId row row' hget hget' hmissing (hrow' ▸ hne)
    exact hown ((hfirst.congr hgraded').unique hfirst' ▸ hother)
  · intro hown rowId row row' hget hget' hmissing hne
    obtain ⟨found, row'', hget'', hempty, hgraded, hgraded', hrow'⟩ :=
      hrows rowId row hget hmissing
    obtain rfl := Option.some.inj (hget'.symm.trans hget'')
    rw [hrow'] at hne ⊢
    obtain ⟨gapId, gap, hfirst, hvalue⟩ := GapColumn.exists_firstGap hempty hne
    refine ⟨gapId, gap, hfirst.congr hgraded', hvalue, fun hother => ?_⟩
    obtain ⟨earlierId, earlier, hearlier, hof, hbefore⟩ := hown rowId row gapId gap _ hget hmissing
      hfirst.stored (hfirst.ofResult.congr hgraded.symm) hvalue hne hother
    rw [hfirst.first earlierId earlier hearlier (hof.congr hgraded)] at hbefore
    cases hbefore

/-! ### Columns that are added first -/

/-- The results, their columns and the gaps are as before. -/
structure SameResults (db db' : Db) : Prop where
  results : db'.controlResults = db.controlResults
  gaps : db'.complianceGaps = db.complianceGaps
  columns : ∀ name, db'.columnExists (.controlResults, name) =
    db.columnExists (.controlResults, name)

theorem SameResults.refl (db : Db) : SameResults db db :=
  ⟨rfl, rfl, fun _ => rfl⟩

theorem SameResults.trans {db db' db'' : Db} (h : SameResults db db')
    (h' : SameResults db' db'') : SameResults db db'' :=
  ⟨h'.results.trans h.results, h'.gaps.trans h.gaps,
    fun name => (h'.columns name).trans (h.columns name)⟩

/-- A column of another table leaves results and gaps alone. -/
theorem sameResults_addColumn {column : Column} (hresults : column.1 ≠ .controlResults)
    (hgaps : column.1 ≠ .complianceGaps) (db : Db) : SameResults db (addColumn column db) := by
  obtain ⟨table, name⟩ := column
  refine ⟨?_, ?_, fun other => ?_⟩
  · cases table <;> first | rfl | exact absurd rfl hresults
  · cases table <;> first | rfl | exact absurd rfl hgaps
  · have hne : (TableName.controlResults, other) ≠ (table, name) := by
      rintro heq
      exact hresults (Prod.mk.inj heq).1.symm
    simp [Db.columnExists, addColumn, hne]

/-- Another table leaves results and gaps alone. -/
theorem sameResults_tableEnsured {table : TableName} (hresults : table ≠ .controlResults)
    (hgaps : table ≠ .complianceGaps) (names : List ColumnName) (db : Db) :
    SameResults db (tableEnsured table names db) := by
  rw [tableEnsured]
  split
  · exact .refl db
  · refine ⟨?_, ?_, fun other => ?_⟩
    · cases table <;> first | rfl | exact absurd rfl hresults
    · cases table <;> first | rfl | exact absurd rfl hgaps
    · have hnot : (TableName.controlResults, other) ∉ columnsOf table names := by
        intro hmem
        obtain ⟨name, -, heq⟩ := List.mem_map.mp hmem
        exact hresults (Prod.mk.inj heq).1
      simp [Db.columnExists, hnot]

theorem moves_sameResults_column {column : Column} (hresults : column.1 ≠ .controlResults)
    (hgaps : column.1 ≠ .complianceGaps) : (addColumnIfMissing column).Moves SameResults :=
  moves_bind (fun _ _ _ => .trans) (moves_ask .refl _ _) fun _ =>
    moves_ite (moves_pure .refl ())
      (moves_alterAddColumn fun db _ => sameResults_addColumn hresults hgaps db)

theorem moves_sameResults_columns {table : TableName} (hresults : table ≠ .controlResults)
    (hgaps : table ≠ .complianceGaps) (names : List ColumnName) :
    (addColumnsIfMissing table names).Moves SameResults := by
  refine moves_forM .refl (fun _ _ _ => .trans) fun column hcolumn => ?_
  obtain ⟨name, -, rfl⟩ := List.mem_map.mp hcolumn
  exact moves_sameResults_column hresults hgaps

theorem moves_sameResults_createTable {table : TableName} (hresults : table ≠ .controlResults)
    (hgaps : table ≠ .complianceGaps) (names : List ColumnName) :
    (createTable table names).Moves SameResults :=
  moves_sql fun db => sameResults_tableEnsured hresults hgaps names db

/-- A result row, with a column at its default if the column does not exist. -/
def defaulted (db : Db) (row : ControlResultRow) (name : ColumnName) : ControlResultRow :=
  if db.columnExists (.controlResults, name) then row else row.clear name

/-- A result column that is added if it does not exist. -/
theorem runs_addResultColumn {name : ColumnName} {db db' : Db}
    (h : (addColumnIfMissing (.controlResults, name)).Runs db () db') :
    db'.complianceGaps = db.complianceGaps ∧
      (∀ rowId, db'.controlResults.get rowId =
        (db.controlResults.get rowId).map fun row => defaulted db row name) ∧
      ∀ other, other ≠ name → db'.columnExists (.controlResults, other) =
        db.columnExists (.controlResults, other) := by
  obtain ⟨present, db₁, hask, h⟩ := h.of_bind
  obtain ⟨rfl, rfl⟩ := runs_ask hask
  by_cases hexists : db₁.columnExists (.controlResults, name) = true
  · rw [if_pos hexists] at h
    obtain ⟨-, rfl⟩ := h.of_pure
    simp [defaulted, hexists]
  · rw [if_neg hexists] at h
    obtain rfl : db' = addColumn (.controlResults, name) db₁ :=
      (Prod.mk.inj (hasEffect_alterAddColumn _ _ _ _ h)).2
    refine ⟨rfl, fun rowId => ?_, fun other hother => ?_⟩
    · rw [addColumn, clearColumn, Table.get_update]
      exact Option.map_congr fun row _ => (if_neg hexists).symm
    · simp [Db.columnExists, addColumn, hother]

/-- Result columns that are added where they do not exist. -/
theorem runs_addResultColumns {names : List ColumnName} (hnodup : names.Nodup) {db db' : Db}
    (h : (addColumnsIfMissing .controlResults names).Runs db () db') :
    db'.complianceGaps = db.complianceGaps ∧
      ∀ rowId, db'.controlResults.get rowId =
        (db.controlResults.get rowId).map fun row => names.foldl (defaulted db) row := by
  induction names generalizing db with
  | nil =>
      obtain ⟨-, rfl⟩ := h.of_pure
      simp
  | cons name names ih =>
      obtain ⟨hname, hnodup⟩ := List.nodup_cons.mp hnodup
      obtain ⟨⟨⟩, db₁, hfirst, hrest⟩ := h.of_bind
      obtain ⟨hgaps, hrows, hcolumns⟩ := runs_addResultColumn hfirst
      obtain ⟨hgaps', hrows'⟩ := ih hnodup hrest
      refine ⟨hgaps'.trans hgaps, fun rowId => ?_⟩
      rw [hrows', hrows, Option.map_map]
      refine Option.map_congr fun row _ => ?_
      -- the columns of the rest are there or not as before
      refine List.foldl_ext _ _ _ fun row' other hother => ?_
      rw [defaulted, defaulted, hcolumns other fun heq => hname (heq ▸ hother)]

/-- What clearing the columns does not change. -/
theorem foldl_defaulted {β : Type} {f : ControlResultRow → β} {names : List ColumnName}
    (h : ∀ name ∈ names, ∀ row : ControlResultRow, f (row.clear name) = f row) (db : Db)
    (row : ControlResultRow) : f (names.foldl (defaulted db) row) = f row := by
  induction names generalizing row with
  | nil => rfl
  | cons name names ih =>
      rw [List.foldl_cons, ih (fun other hother => h other (List.mem_cons_of_mem _ hother)),
        defaulted]
      split
      · rfl
      · exact h name List.mem_cons_self row

/-- After the columns are added, a result is empty exactly when it had no value. -/
theorem ofResult_foldl_defaulted (c : GapColumn) (before after : List ColumnName)
    (hclear : ∀ row : ControlResultRow, c.ofResult (row.clear c.column) = [])
    (h : ∀ name ∈ before ++ after, ∀ row : ControlResultRow,
      c.ofResult (row.clear name) = c.ofResult row) (db : Db) (row : ControlResultRow) :
    c.ofResult ((before ++ c.column :: after).foldl (defaulted db) row) = [] ↔
      c.Missing db row := by
  have hbefore := foldl_defaulted (f := c.ofResult)
    (fun name hname => h name (List.mem_append_left _ hname)) db row
  rw [List.foldl_append, List.foldl_cons,
    foldl_defaulted (fun name hname => h name (List.mem_append_right _ hname)), defaulted,
    GapColumn.Missing]
  split
  · next hexists => simp [hbefore, hexists]
  · next hexists => simp [hclear, hexists]

/-! ### Migration 5 -/

/-- A result row with the identity its id encodes, if it encodes one. -/
def identifiedRow (rowId : Str) (row : ControlResultRow) : ControlResultRow :=
  match controlResultIdentity rowId with
  | none => row
  | some identity => withIdentity identity row

/-- A result row with the run, control and rule migration 5 finds: columns that did not exist
are empty, and the id is read. -/
def identifiedResult (db : Db) (rowId : Str) (row : ControlResultRow) : ControlResultRow :=
  identifiedRow rowId (controlResultQueryFilterColumns.foldl (defaulted db) row)

/-- The identity of a row is filled in, and nothing else. -/
theorem runs_backfillIdentity {rowId : Str} {db db' : Db}
    (h : (backfillIdentity rowId).Runs db () db') :
    db'.complianceGaps = db.complianceGaps ∧
      db'.controlResults.Same (db.controlResults.updateAt rowId (identifiedRow rowId)) := by
  rw [backfillIdentity] at h
  split at h
  · next hnone =>
      obtain ⟨-, rfl⟩ := h.of_pure
      refine ⟨rfl, fun rowId' => ?_⟩
      have hrow : identifiedRow rowId = id := by
        funext row
        simp [identifiedRow, hnone]
      simp [hrow]
  · next identity hidentity =>
      obtain rfl := runs_sql h
      refine ⟨rfl, fun rowId' => ?_⟩
      have hrow : identifiedRow rowId = withIdentity identity := by
        funext row
        simp [identifiedRow, hidentity]
      rw [hrow]

/-- The loop over the row ids identifies the rows it reaches. -/
theorem runs_backfillIdentities {rowIds : List Str} (hnodup : rowIds.Nodup) {db db' : Db}
    (h : (rowIds.forM backfillIdentity).Runs db () db') :
    db'.complianceGaps = db.complianceGaps ∧ ∀ rowId, db'.controlResults.get rowId =
      (db.controlResults.get rowId).map fun row =>
        if rowId ∈ rowIds then identifiedRow rowId row else row := by
  induction rowIds generalizing db with
  | nil =>
      obtain ⟨-, rfl⟩ := h.of_pure
      simp
  | cons first rowIds ih =>
      obtain ⟨hfirst, hnodup⟩ := List.nodup_cons.mp hnodup
      obtain ⟨⟨⟩, db₁, hturn, hrest⟩ := h.of_bind
      obtain ⟨hgaps, hrows⟩ := runs_backfillIdentity hturn
      obtain ⟨hgaps', hrows'⟩ := ih hnodup hrest
      refine ⟨hgaps'.trans hgaps, fun rowId => ?_⟩
      rw [hrows', hrows rowId, Table.get_updateAt]
      by_cases heq : rowId = first
      · subst heq
        simp [hfirst, Option.map_map, Function.comp_def]
      · simp [heq]

/-- Every result is identified. -/
theorem runs_backfillControlResultIdentityFields {db db' : Db}
    (h : backfillControlResultIdentityFields.Runs db () db') :
    db'.complianceGaps = db.complianceGaps ∧ ∀ rowId,
      db'.controlResults.get rowId = (db.controlResults.get rowId).map (identifiedRow rowId) := by
  obtain ⟨rowIds, db₁, hask, hloop⟩ := h.of_bind
  obtain ⟨rfl, rfl⟩ := runs_ask hask
  obtain ⟨hgaps, hrows⟩ := runs_backfillIdentities db₁.controlResults.nodup hloop
  refine ⟨hgaps, fun rowId => ?_⟩
  rw [hrows]
  refine Option.map_congr fun row hrow => ?_
  have hmem : rowId ∈ db₁.controlResults.rows.map Prod.fst :=
    List.mem_map.mpr ⟨(rowId, row), Table.mem_rows_iff.mpr hrow, rfl⟩
  rw [if_pos hmem]

/-- Filling in the identity leaves the status of a row alone. -/
theorem status_identifiedRow (rowId : Str) (row : ControlResultRow) :
    (identifiedRow rowId row).status = row.status := by
  rw [identifiedRow]
  split <;> rfl

/-- The locator column is none of the results'. -/
theorem moves_sameResults_locator : addLocatorIfEvidence.Moves SameResults :=
  moves_bind (fun _ _ _ => .trans) (moves_ask .refl _ _) fun _ =>
    moves_ite (moves_sameResults_column (by decide) (by decide)) (moves_pure .refl ())

/-- The statuses of results after the statement of migration 5. -/
theorem backFilled_withGapStatus (before : Db) :
    BackFilled statusColumn before { before with
      controlResults := before.controlResults.update fun _ row =>
        withGapStatus before.complianceGaps row } := by
  refine (Table.Carries.refl (fun _ _ => rfl) _).update fun _ row row' _ heq => ?_
  obtain rfl : row = row' := heq
  rw [withGapStatus, GapColumn.filled, statusColumn]
  split
  · next hempty => simp [ControlResultRow.gradedAs, hempty]
  · simp

/-- **Migration 5**, up to its last statement. -/
theorem prepared_resultQueryFilters {db db' : Db}
    (h : applyResultQueryFiltersMigration.Runs db () db') :
    ∃ before, Prepared statusColumn (identifiedResult db) db before ∧
      BackFilled statusColumn before db' := by
  obtain ⟨⟨⟩, db₁, hcolumns, h⟩ := h.of_bind
  obtain ⟨⟨⟩, db₂, hlocator, h⟩ := h.of_bind
  obtain ⟨⟨⟩, before, hidentity, hstatus⟩ := h.of_bind
  obtain ⟨hgaps₁, hrows₁⟩ := runs_addResultColumns (by decide) hcolumns
  have hsame := moves_sameResults_locator _ _ _ hlocator
  obtain ⟨hgaps₂, hrows₂⟩ := runs_backfillControlResultIdentityFields hidentity
  obtain rfl := runs_sql hstatus
  refine ⟨before, ⟨hgaps₂.trans (hsame.gaps.trans hgaps₁), fun rowId row hget => ?_⟩,
    backFilled_withGapStatus before⟩
  refine ⟨identifiedResult db rowId row, ?_, rfl, ?_⟩
  · rw [hrows₂, hsame.results, hrows₁, hget]
    rfl
  · have hmissing := ofResult_foldl_defaulted statusColumn [.runId, .controlId, .ruleId]
      [.evidenceId] (fun _ => rfl)
      (by simp [statusColumn, ControlResultRow.clear]) db row
    exact (congrArg (· = []) (status_identifiedRow rowId _)).to_iff.trans hmissing

/-! ### Migration 8 -/

/-- The gaps are as before, and every result is there with the run, control, rule and
severity it had. -/
structure KeepsGraded (db db' : Db) : Prop where
  gaps : db'.complianceGaps = db.complianceGaps
  rows : db.controlResults.Carries (fun _ row row' =>
    row'.gradedAs = row.gradedAs ∧ row'.severity = row.severity) db'.controlResults

theorem KeepsGraded.refl (db : Db) : KeepsGraded db db :=
  ⟨rfl, .refl (fun _ _ => ⟨rfl, rfl⟩) _⟩

theorem KeepsGraded.trans {db db' db'' : Db} (h : KeepsGraded db db')
    (h' : KeepsGraded db' db'') : KeepsGraded db db'' := by
  refine ⟨h'.gaps.trans h.gaps, fun rowId row hget => ?_⟩
  obtain ⟨row', hget', hgraded, hseverity⟩ := h.rows rowId row hget
  obtain ⟨row'', hget'', hgraded', hseverity'⟩ := h'.rows rowId row' hget'
  exact ⟨row'', hget'', hgraded'.trans hgraded, hseverity'.trans hseverity⟩

/-- A statement that touches neither gaps nor results. -/
theorem keepsGraded_of_eq {db db' : Db} (hgaps : db'.complianceGaps = db.complianceGaps)
    (hresults : db'.controlResults = db.controlResults) : KeepsGraded db db' :=
  ⟨hgaps, hresults ▸ .refl (fun _ _ => ⟨rfl, rfl⟩) _⟩

/-- A statement that changes the frameworks or timestamps of results. -/
theorem keepsGraded_update {f : Str → ControlResultRow → ControlResultRow}
    (h : ∀ rowId row, (f rowId row).gradedAs = row.gradedAs ∧
      (f rowId row).severity = row.severity) (db : Db) :
    KeepsGraded db { db with controlResults := db.controlResults.update f } := by
  refine ⟨rfl, (Table.Carries.refl (fun _ _ => rfl) _).update fun rowId row row' _ heq => ?_⟩
  obtain rfl : row = row' := heq
  exact h rowId row

/-- Filling in a framework keeps how results are graded. -/
theorem keepsGraded_withFramework (rowId frameworkId : Str) (db : Db) :
    KeepsGraded db { db with
      controlResults := db.controlResults.updateAt rowId (withFramework frameworkId) } := by
  refine keepsGraded_update (fun rowId' row => ?_) db
  split
  · exact ⟨rfl, rfl⟩
  · exact ⟨rfl, rfl⟩

/-- Filling in a time keeps how results are graded. -/
theorem keepsGraded_withRunExecutedAt (db : Db) :
    KeepsGraded db { db with
      controlResults := db.controlResults.update fun _ row =>
        withRunExecutedAt db.scanRuns row } := by
  refine keepsGraded_update (fun _ row => ?_) db
  rw [withRunExecutedAt]
  split
  · exact ⟨rfl, rfl⟩
  · exact ⟨rfl, rfl⟩

theorem moves_keepsGraded_frameworkLinks (needs : List Column) (keys : Db → List (Str × Str)) :
    (insertFrameworkLinks needs keys).Moves KeepsGraded :=
  moves_sql fun _ => keepsGraded_of_eq rfl rfl

theorem moves_keepsGraded_controlLinks (needs : List Column)
    (keys : Db → List (Str × Str × Str)) : (insertControlLinks needs keys).Moves KeepsGraded :=
  moves_sql fun _ => keepsGraded_of_eq rfl rfl

/-- Filling the links of a result keeps how results are graded. -/
theorem moves_keepsGraded_backfillCatalogLinks (result : Str × Str × Str) :
    (backfillCatalogLinks result).Moves KeepsGraded := by
  rw [backfillCatalogLinks]
  split
  · exact moves_pure .refl ()
  · next identity _ =>
      have hencoded : ∀ runId,
          (insertEncodedFramework runId identity.frameworkId).Moves KeepsGraded :=
        fun _ => moves_ite (moves_pure .refl ()) (moves_keepsGraded_frameworkLinks _ _)
      exact moves_bind (fun _ _ _ => .trans)
        (moves_sql fun db => keepsGraded_withFramework result.1 identity.frameworkId db) fun _ =>
          moves_bind (fun _ _ _ => .trans) (hencoded _) fun _ =>
            moves_keepsGraded_controlLinks _ _

/-- Filling the run of all rows keeps how results are graded. -/
theorem moves_keepsGraded_backfillSingleRun (runIds : List Str) :
    (backfillSingleRun runIds).Moves KeepsGraded := by
  have hframework : ∀ runId frameworkIds,
      (backfillSingleFramework runId frameworkIds).Moves KeepsGraded := by
    intro runId frameworkIds
    rcases frameworkIds with _ | ⟨frameworkId, _ | ⟨_, _⟩⟩
    · exact moves_pure .refl ()
    · exact moves_keepsGraded_controlLinks _ _
    · exact moves_pure .refl ()
  rcases runIds with _ | ⟨runId, _ | ⟨_, _⟩⟩
  · exact moves_pure .refl ()
  · exact moves_bind (fun _ _ _ => .trans) (moves_keepsGraded_frameworkLinks _ _) fun _ =>
      moves_bind (fun _ _ _ => .trans) (moves_ask .refl _ _) (hframework runId)
  · exact moves_pure .refl ()

/-- The catalog links are filled without touching what the results are graded as. -/
theorem moves_keepsGraded_backfillExportCatalogLinks :
    backfillExportCatalogLinks.Moves KeepsGraded :=
  moves_bind (fun _ _ _ => .trans) (moves_ask .refl _ _) fun _ =>
    moves_bind (fun _ _ _ => .trans)
      (moves_forM .refl (fun _ _ _ => .trans) fun result _ =>
        moves_keepsGraded_backfillCatalogLinks result) fun _ =>
      moves_bind (fun _ _ _ => .trans) (moves_ask .refl _ _) moves_keepsGraded_backfillSingleRun

/-- The columns migration 8 adds to the results, and that the results are otherwise as
before. -/
theorem runs_ensureExportReconstructionSchema {db db' : Db}
    (h : ensureExportReconstructionSchema.Runs db () db') :
    db'.complianceGaps = db.complianceGaps ∧ ∀ rowId, db'.controlResults.get rowId =
      (db.controlResults.get rowId).map fun row => exportResultColumns.foldl (defaulted db) row := by
  obtain ⟨⟨⟩, db₁, hruns, h⟩ := h.of_bind
  obtain ⟨⟨⟩, db₂, hresults, h⟩ := h.of_bind
  have hfirst := moves_sameResults_column (by decide) (by decide) _ _ _ hruns
  obtain ⟨hgaps, hrows⟩ := runs_addResultColumns (by decide) hresults
  have hrest : SameResults db₂ db' := by
    refine moves_bind (fun _ _ _ => .trans)
      (moves_sameResults_createTable (by decide) (by decide) _) (fun _ => ?_) _ _ _ h
    refine moves_bind (fun _ _ _ => .trans)
      (moves_sameResults_createTable (by decide) (by decide) _) fun _ => ?_
    refine moves_bind (fun _ _ _ => .trans)
      (moves_sameResults_columns (by decide) (by decide) _) fun _ => ?_
    exact moves_bind (fun _ _ _ => .trans)
      (moves_sameResults_columns (by decide) (by decide) _) fun _ =>
        moves_sameResults_columns (by decide) (by decide) _
  refine ⟨hrest.gaps.trans (hgaps.trans hfirst.gaps), fun rowId => ?_⟩
  rw [hrest.results, hrows, hfirst.results]
  refine Option.map_congr fun row _ => List.foldl_ext _ _ _ fun row' name _ => ?_
  rw [defaulted, defaulted, hfirst.columns]

/-- The severities of results after the statement of migration 8. -/
theorem backFilled_withGapSeverity (before : Db) :
    BackFilled severityColumn before { before with
      controlResults := before.controlResults.update fun _ row =>
        withGapSeverity before.complianceGaps row } := by
  refine (Table.Carries.refl (fun _ _ => rfl) _).update fun _ row row' _ heq => ?_
  obtain rfl : row = row' := heq
  rw [withGapSeverity, GapColumn.filled, severityColumn]
  split
  · next hempty => simp [ControlResultRow.gradedAs, hempty]
  · simp

/-- What follows the statement keeps the severities. -/
theorem BackFilled.keepsGraded {before db db' : Db} (h : BackFilled severityColumn before db)
    (hkeeps : KeepsGraded db db') : BackFilled severityColumn before db' := by
  intro rowId row hget
  obtain ⟨row', hget', hgraded, hseverity⟩ := h rowId row hget
  obtain ⟨row'', hget'', hgraded', hseverity'⟩ := hkeeps.rows rowId row' hget'
  exact ⟨row'', hget'', hgraded'.trans hgraded, hseverity'.trans hseverity⟩

/-- **Migration 8**, up to the statement that fills the severities and from there to its
end. -/
theorem prepared_exportReconstruction {db db' : Db}
    (h : applyExportReconstructionMigration.Runs db () db') :
    ∃ before, Prepared severityColumn (fun _ row => row) db before ∧
      BackFilled severityColumn before db' := by
  obtain ⟨⟨⟩, db₁, hschema, h⟩ := h.of_bind
  obtain ⟨⟨⟩, before, hcatalog, h⟩ := h.of_bind
  obtain ⟨⟨⟩, db₃, hmetadata, hsnapshot⟩ := h.of_bind
  obtain ⟨hgaps, hrows⟩ := runs_ensureExportReconstructionSchema hschema
  have hkept := moves_keepsGraded_backfillExportCatalogLinks _ _ _ hcatalog
  refine ⟨before, ⟨hkept.gaps.trans hgaps, fun rowId row hget => ?_⟩, ?_⟩
  · obtain ⟨row', hget', hgraded, hseverity⟩ := hkept.rows rowId _ (by rw [hrows, hget]; rfl)
    refine ⟨row', hget', ?_, ?_⟩
    · rw [hgraded]
      exact foldl_defaulted (f := ControlResultRow.gradedAs)
        (by simp [exportResultColumns, ControlResultRow.clear, ControlResultRow.gradedAs]) db row
    · have hmissing := ofResult_foldl_defaulted severityColumn [.frameworkId]
        [.weight, .reason, .executedAt, .executionMetadata] (fun _ => rfl)
        (by simp [severityColumn, ControlResultRow.clear]) db row
      exact (congrArg (· = []) hseverity).to_iff.trans hmissing
  · obtain ⟨⟨⟩, db₂, hseverities, htimestamps⟩ := hmetadata.of_bind
    obtain rfl := runs_sql hseverities
    obtain rfl := runs_sql htimestamps
    obtain rfl := (Prod.mk.inj (hasEffect_backfillRunSnapshotMetadata _ _ _ hsnapshot)).2
    exact (backFilled_withGapSeverity before).keepsGraded
      ((keepsGraded_withRunExecutedAt _).trans (keepsGraded_of_eq rfl rfl))

/-! ### Own gaps only -/

/-- **Back-filled values come from own gaps only exactly when no other framework's gap comes
first** among the gaps of the run, the control and the rule of a result without a value: of
the statuses migration 5 fills in, and of the severities migration 8 fills in. -/
theorem backfills_from_own_gaps_iff (db db' : Db) :
    (applyResultQueryFiltersMigration.Runs db () db' →
      (TakenFromOwnGaps statusColumn db db' ↔
        OwnGapsFirst statusColumn (identifiedResult db) db)) ∧
    (applyExportReconstructionMigration.Runs db () db' →
      (TakenFromOwnGaps severityColumn db db' ↔
        OwnGapsFirst severityColumn (fun _ row => row) db)) := by
  constructor
  · intro h
    obtain ⟨before, hprepared, hfilled⟩ := prepared_resultQueryFilters h
    exact takenFromOwnGaps_iff hprepared hfilled
  · intro h
    obtain ⟨before, hprepared, hfilled⟩ := prepared_exportReconstruction h
    exact takenFromOwnGaps_iff hprepared hfilled

/-- The row ids of a result under one framework and of the gaps under two. -/
def soc2ResultId : Str :=
  controlResultRowId "run".toList "soc2".toList "c".toList "r".toList

/-- The id of a gap under one framework. -/
def soc2GapId : Str :=
  complianceGapRowId "run".toList "soc2".toList "c".toList "r".toList

/-- The id of a gap under another one. -/
def gdprGapId : Str :=
  complianceGapRowId "run".toList "gdpr".toList "c".toList "r".toList

/-- A partly migrated database, with the columns of version 7 but for the statuses of results:
one control and rule of a run is graded under two frameworks, with a gap under each. -/
def twoFrameworksDb : Db :=
  { emptyDb with
    schema := (columnsOf .scanRuns [.id] ++ columnsOf .frameworks [.id, .version] ++
      columnsOf .controls [.id] ++
      columnsOf .controlResults [.id, .runId, .controlId, .ruleId, .evidenceId] ++
      columnsOf .complianceGaps ([.id] ++ gapQueryFilterColumns) ++
      columnsOf .evidenceMetadata [.id, .digest, .locator, .classification] ++
      columnsOf .runEvidenceLinks [.runId, .evidenceId]).toFinset
    controlResults := Table.empty.insertOrIgnore soc2ResultId
      ⟨"run".toList, "c".toList, "r".toList, [], [], [], [], 0, none, [], []⟩
    complianceGaps := (Table.empty.insertOrIgnore gdprGapId
      ⟨some "run".toList, some "FAIL".toList, some "critical".toList, some "c".toList,
        some "r".toList⟩).insertOrIgnore soc2GapId
      ⟨some "run".toList, some "WARNING".toList, some "low".toList, some "c".toList,
        some "r".toList⟩ }

/-- What a body leaves when the environment makes nothing fail. -/
def afterBody (body : DbTx Unit) (db : Db) : Db :=
  (transaction .sqlite body (fun _ => false) db).2

/-- A transaction that succeeds runs its body. -/
theorem runs_afterBody {body : DbTx Unit} {db : Db}
    (h : (transaction .sqlite body (fun _ => false) db).1 = .ok ()) :
    body.Runs db () (afterBody body db) :=
  transaction_ok (Prod.ext h rfl)

theorem runs_twoFrameworksDb_statuses : applyResultQueryFiltersMigration.Runs twoFrameworksDb ()
    (afterBody applyResultQueryFiltersMigration twoFrameworksDb) :=
  runs_afterBody (by decide +kernel)

theorem runs_twoFrameworksDb_severities :
    applyExportReconstructionMigration.Runs twoFrameworksDb ()
      (afterBody applyExportReconstructionMigration twoFrameworksDb) :=
  runs_afterBody (by decide +kernel)

/-- Both migrations at the database with two frameworks. -/
theorem backfills_from_own_gaps_iff_two_frameworks :
    (TakenFromOwnGaps statusColumn twoFrameworksDb
        (afterBody applyResultQueryFiltersMigration twoFrameworksDb) ↔
      OwnGapsFirst statusColumn (identifiedResult twoFrameworksDb) twoFrameworksDb) ∧
    (TakenFromOwnGaps severityColumn twoFrameworksDb
        (afterBody applyExportReconstructionMigration twoFrameworksDb) ↔
      OwnGapsFirst severityColumn (fun _ row => row) twoFrameworksDb) :=
  ⟨(backfills_from_own_gaps_iff _ _).1 runs_twoFrameworksDb_statuses,
    (backfills_from_own_gaps_iff _ _).2 runs_twoFrameworksDb_severities⟩

theorem otherFramework_gdpr : OtherFramework gdprGapId soc2ResultId :=
  ⟨_, _,
    complianceGapIdentity_complianceGapRowId (by decide) (by decide) (by decide) (by decide)
      ⟨by simp, by simp, by simp⟩,
    controlResultIdentity_controlResultRowId (by decide) (by decide) (by decide)
      ⟨by simp, by simp, by simp⟩, by decide⟩

/-- The other framework's gap comes first. -/
theorem gdprGap_first {earlierId : Str} {earlier : GapRow}
    (h : twoFrameworksDb.complianceGaps.get earlierId = some earlier) :
    strLe gdprGapId earlierId = true := by
  have hmem := List.mem_map_of_mem (f := Prod.fst) (Table.mem_rows_iff.mpr h)
  have hids : twoFrameworksDb.complianceGaps.rows.map Prod.fst = [gdprGapId, soc2GapId] := by
    decide +kernel
  rw [hids, List.mem_pair] at hmem
  rcases hmem with rfl | rfl
  · decide
  · decide

/-- **A result takes another framework's gap**: its status and its severity become those of
the other framework's gap, although its own framework has a gap with other values. -/
theorem result_takes_other_frameworks_gap :
    ¬ (∀ db db', (applyResultQueryFiltersMigration.Runs db () db' →
          TakenFromOwnGaps statusColumn db db') ∧
        (applyExportReconstructionMigration.Runs db () db' →
          TakenFromOwnGaps severityColumn db db')) ∧
      ((afterBody applyResultQueryFiltersMigration twoFrameworksDb).controlResults.get
        soc2ResultId).map (·.status) = some "FAIL".toList ∧
      ((afterBody applyExportReconstructionMigration twoFrameworksDb).controlResults.get
        soc2ResultId).map (·.severity) = some "critical".toList ∧
      (twoFrameworksDb.complianceGaps.get soc2GapId).map (fun gap => (gap.status, gap.severity)) =
        some (some "WARNING".toList, some "low".toList) := by
  refine ⟨fun hall => ?_, by decide +kernel, by decide +kernel, by decide +kernel⟩
  have htaken := (hall _ _).2 runs_twoFrameworksDb_severities
  obtain ⟨before, hprepared, hfilled⟩ :=
    prepared_exportReconstruction runs_twoFrameworksDb_severities
  have hown := (takenFromOwnGaps_iff hprepared hfilled).mp htaken
  obtain ⟨earlierId, earlier, hearlier, -, hbefore⟩ := hown soc2ResultId
    ⟨"run".toList, "c".toList, "r".toList, [], [], [], [], 0, none, [], []⟩ gdprGapId
    ⟨some "run".toList, some "FAIL".toList, some "critical".toList, some "c".toList,
      some "r".toList⟩ "critical".toList (by decide +kernel) (fun _ => rfl) (by decide +kernel)
    ⟨rfl, rfl, rfl⟩ rfl (by simp) otherFramework_gdpr
  rw [gdprGap_first hearlier] at hbefore
  cases hbefore

end SovriAgent
