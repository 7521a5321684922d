import SovriAgent.DerivedTables
import SovriAgent.Report
import SovriAgent.Workbook

/-!
# The Gaps of a Corpus, in the Four Places that List Them

The report, the spreadsheet and the signed export each derive the gaps from the results with a
loop of their own, and a write stores them as rows. The spreadsheet, the signed export and the
database leave out a result without a framework; the report lists it under the framework
`unscoped`. The rows are written one after the other, and the legacy id of a gap may be the
row id of an earlier one, which is then deleted.

## Main results

* `mem_sheetGaps`, `mem_exportedGaps`, `mem_reportGaps`: the gaps listed, from the results.
* `storedGap_iff`: the gaps whose rows a write leaves.
* `sameGaps_iff`: the corpora whose gaps are the same in all four places.
-/

namespace SovriAgent

/-! ### Listings -/

/-- A gap as it is listed. -/
structure ListedGap where
  frameworkId : Str
  controlId : Str
  ruleId : Str
  status : Str
deriving DecidableEq

/-- The gap of a result under a framework. -/
def listedGap (frameworkId : Str) (result : ControlResult) : ListedGap :=
  ⟨frameworkId, result.controlId, result.ruleId, result.status.label⟩

/-- The line of a gap in the report. -/
def ListedGap.line (gap : ListedGap) : Str :=
  "Gap".toList ++ ": framework=".toList ++ gap.frameworkId ++ " control=".toList ++
    gap.controlId ++ " rule=".toList ++ gap.ruleId ++ " status=".toList ++ gap.status

/-- The gaps of the report. -/
def reportGaps (corpus : Corpus) : List ListedGap :=
  (reportedGaps corpus.results).map fun item => listedGap (reportedFramework item) item.result

/-- The report has one line for each of its gaps. -/
theorem gapSection_eq (corpus : Corpus) :
    gapSection corpus.results = (reportGaps corpus).map ListedGap.line := by
  rw [gapSection, reportGaps, List.map_map]
  rfl

/-- The gap of a row of the gaps sheet, read from its columns. -/
def rowGap : List Str → Option ListedGap
  | [_, frameworkId, controlId, ruleId, _, _, _, status, _, _] =>
      some ⟨frameworkId, controlId, ruleId, status⟩
  | _ => none

/-- The gaps of the spreadsheet. -/
def sheetGaps (corpus : Corpus) : List ListedGap :=
  (gapRowCells corpus).filterMap rowGap

/-- The text of a member of a record. -/
def Json.textAt (name : String) : Json → Option Str
  | .object members =>
      (members.find? fun m => m.1 = name.toList).bind fun m =>
        match m.2 with
        | .str text => some text
        | _ => none
  | _ => none

/-- The gap of a record of the signed export, read from its members. -/
def recordGap (record : Json) : Option ListedGap := do
  let frameworkId ← record.textAt "framework_id"
  let controlId ← record.textAt "control_id"
  let ruleId ← record.textAt "rule_id"
  let status ← record.textAt "status"
  return ⟨frameworkId, controlId, ruleId, status⟩

/-- The records of an array. -/
def Json.items : Json → List Json
  | .array items => items
  | _ => []

/-- The gaps of the signed export. -/
def exportedGaps (corpus : Corpus) : List ListedGap :=
  (gapsArray corpus.results corpus.controls corpus.frameworks).items.filterMap recordGap

/-- A run has a row for a gap. -/
def StoredGap (db : Db) (runId : Str) (gap : ListedGap) : Prop :=
  ∃ row, db.complianceGaps.get
      (complianceGapRowId runId gap.frameworkId gap.controlId gap.ruleId) = some row ∧
    row.runId = some runId ∧ row.controlId = some gap.controlId ∧
      row.ruleId = some gap.ruleId ∧ row.status = some gap.status

/-- The gaps of a corpus are the same in all places. -/
structure SameGaps (corpus : Corpus) (db : Db) : Prop where
  report : ∀ gap, gap ∈ reportGaps corpus ↔ gap ∈ sheetGaps corpus
  exported : ∀ gap, gap ∈ exportedGaps corpus ↔ gap ∈ sheetGaps corpus
  stored : ∀ gap, StoredGap db corpus.runId gap ↔ gap ∈ sheetGaps corpus

/-! ### What the listings hold -/

/-- The gaps of the results with a framework. -/
def scopedGaps (corpus : Corpus) : List ListedGap :=
  (corpusGaps corpus).map fun gap => listedGap gap.frameworkId gap.result

/-- A result that failed or warned, of a framework. -/
theorem mem_scopedGaps {corpus : Corpus} {gap : ListedGap} : gap ∈ scopedGaps corpus ↔
    ∃ item ∈ corpus.results, ∃ frameworkId, item.frameworkId = some frameworkId ∧
      isGapStatus item.result.status = true ∧ gap = listedGap frameworkId item.result := by
  simp only [scopedGaps, corpusGaps, List.mem_map, List.mem_filterMap]
  constructor
  · rintro ⟨found, ⟨item, hitem, hfound⟩, rfl⟩
    obtain ⟨hframework, hresult⟩ := scopedGap_eq_some hfound
    exact ⟨item, hitem, _, hframework, hresult ▸ found.isGap, by rw [hresult]⟩
  · rintro ⟨item, hitem, frameworkId, hframework, hstatus, rfl⟩
    refine ⟨⟨frameworkId, item.result, hstatus⟩, ⟨item, hitem, ?_⟩, rfl⟩
    rw [scopedGap, hframework, Option.bind_some, dif_pos hstatus]

theorem isGapStatus_iff {status : Status} :
    isGapStatus status = true ↔ status = .fail ∨ status = .warning := by
  cases status <;> decide

theorem mem_orderedScopedResults {results : List ScopedResult} {item : ScopedResult} :
    item ∈ orderedScopedResults results ↔ item ∈ results :=
  (List.perm_insertionSort _ _).mem_iff

/-- A member of a record is looked up by its name. -/
theorem textAt_jsonObject (name : String) (members : List (String × Json)) :
    (jsonObject members).textAt name = (members.find? fun m => m.1 = name).bind fun m =>
      match m.2 with
      | .str text => some text
      | _ => none := by
  have hnames : ((fun m : Str × Json => decide (m.1 = name.toList)) ∘
      fun m : String × Json => (m.1.toList, m.2)) = fun m => decide (m.1 = name) := by
    funext m
    simp only [Function.comp_apply, String.toList_inj]
  rw [jsonObject, Json.textAt, List.find?_map, hnames, Option.bind_map]
  rfl

/-- The record of a gap is read back. -/
theorem recordGap_gapMember (result : ControlResult) (frameworkId : Str) (controls : List Control)
    (frameworks : List Framework) :
    recordGap (gapMember result frameworkId controls frameworks) =
      some (listedGap frameworkId result) := by
  rw [recordGap, gapMember]
  simp only [textAt_jsonObject]
  simp [listedGap]

/-- The spreadsheet lists the gaps of the results with a framework. -/
theorem mem_sheetGaps {corpus : Corpus} {gap : ListedGap} :
    gap ∈ sheetGaps corpus ↔ gap ∈ scopedGaps corpus := by
  rw [mem_scopedGaps, sheetGaps, gapRowCells, List.filterMap_map, List.mem_filterMap]
  constructor
  · rintro ⟨found, hfound, hgap⟩
    obtain ⟨item, hitem, hitemGap⟩ := List.mem_filterMap.mp hfound
    obtain ⟨hframework, hresult⟩ := gapOf_eq_some hitemGap
    obtain ⟨frameworkId, -, hstatus⟩ := Option.bind_eq_some_iff.mp hitemGap
    refine ⟨item, (List.perm_insertionSort _ _).mem_iff.mp hitem, found.1, hframework, ?_, ?_⟩
    · rw [isGapStatus_iff]
      by_contra hnot
      rw [if_neg hnot] at hstatus
      cases hstatus
    · rw [hresult]
      exact (Option.some.inj hgap).symm
  · rintro ⟨item, hitem, frameworkId, hframework, hstatus, rfl⟩
    refine ⟨(frameworkId, item.result), List.mem_filterMap.mpr
      ⟨item, (List.perm_insertionSort _ _).mem_iff.mpr hitem, ?_⟩, rfl⟩
    rw [gapOf, hframework, Option.bind_some, if_pos (isGapStatus_iff.mp hstatus)]

/-- So does the signed export. -/
theorem mem_exportedGaps {corpus : Corpus} {gap : ListedGap} :
    gap ∈ exportedGaps corpus ↔ gap ∈ scopedGaps corpus := by
  have hstatus : ∀ status, isGap status = isGapStatus status := by
    intro status
    cases status <;> rfl
  rw [mem_scopedGaps, exportedGaps, gapsArray, Json.items, List.filterMap_filterMap,
    List.mem_filterMap]
  constructor
  · rintro ⟨item, hitem, hgap⟩
    obtain ⟨record, hrecord, hread⟩ := Option.bind_eq_some_iff.mp hgap
    obtain ⟨frameworkId, hframework, hmember⟩ := Option.bind_eq_some_iff.mp hrecord
    split_ifs at hmember with hisGap
    obtain rfl := Option.some.inj hmember
    rw [recordGap_gapMember] at hread
    exact ⟨item, mem_orderedScopedResults.mp hitem, frameworkId, hframework,
      hstatus _ ▸ hisGap, (Option.some.inj hread).symm⟩
  · rintro ⟨item, hitem, frameworkId, hframework, hisGap, rfl⟩
    refine ⟨item, mem_orderedScopedResults.mpr hitem, ?_⟩
    rw [gapRecord, hframework, Option.bind_some, hstatus, if_pos hisGap, Option.bind_some,
      recordGap_gapMember]

/-- The gap of a result without a framework, as the report lists it. -/
def UnscopedGap (corpus : Corpus) (gap : ListedGap) : Prop :=
  ∃ item ∈ corpus.results, item.frameworkId = none ∧ isGapStatus item.result.status = true ∧
    gap = listedGap "unscoped".toList item.result

/-- The report lists the gaps of all results. -/
theorem mem_reportGaps {corpus : Corpus} {gap : ListedGap} :
    gap ∈ reportGaps corpus ↔ gap ∈ scopedGaps corpus ∨ UnscopedGap corpus gap := by
  rw [mem_scopedGaps, reportGaps, List.mem_map]
  simp only [reportedGaps, List.mem_filter, decide_eq_true_iff, ← isGapStatus_iff,
    mem_orderedScopedResults]
  constructor
  · rintro ⟨item, ⟨hitem, hstatus⟩, rfl⟩
    cases hframework : item.frameworkId with
    | none =>
        refine .inr ⟨item, hitem, hframework, hstatus, ?_⟩
        rw [reportedFramework, hframework, Option.getD_none]
    | some frameworkId =>
        refine .inl ⟨item, hitem, frameworkId, hframework, hstatus, ?_⟩
        rw [reportedFramework, hframework, Option.getD_some]
  · rintro (⟨item, hitem, frameworkId, hframework, hstatus, rfl⟩ |
      ⟨item, hitem, hframework, hstatus, rfl⟩)
    · refine ⟨item, ⟨hitem, hstatus⟩, ?_⟩
      rw [reportedFramework, hframework, Option.getD_some]
    · refine ⟨item, ⟨hitem, hstatus⟩, ?_⟩
      rw [reportedFramework, hframework, Option.getD_none]

/-! ### The rows -/

/-- No gap has the row id of an earlier one as its legacy id. -/
def GapsApart (corpus : Corpus) : Prop :=
  (corpusGaps corpus).Pairwise fun gap later => gap.rowId corpus.runId ≠ later.legacyId

/-- Results with distinct keys have gaps with distinct rows. -/
theorem gapRowIds_pairwise {corpus : Corpus} (hkeys : (corpus.results.map resultKey).Nodup) :
    (corpusGaps corpus).Pairwise fun gap later =>
      gap.rowId corpus.runId ≠ later.rowId corpus.runId := by
  refine List.Pairwise.filterMap _ ?_ (List.pairwise_map.mp hkeys)
  intro item item' hne gap hgap gap' hgap' heq
  obtain ⟨hframework, hresult⟩ := scopedGap_eq_some hgap
  obtain ⟨hframework', hresult'⟩ := scopedGap_eq_some hgap'
  obtain ⟨-, h₁, h₂, h₃⟩ := complianceGapRowId_inj heq
  apply hne
  rw [resultKey, resultKey, hframework, hframework', hresult, hresult', h₁, h₂, h₃]

/-- All gaps of a list leave their rows if no later one deletes the row of an earlier one. -/
theorem forall_foldl_gapTurn_iff {runId : Str} {gaps : List ScopedGap}
    (hrows : gaps.Pairwise fun gap later => gap.rowId runId ≠ later.rowId runId) :
    (∀ gap ∈ gaps,
        gaps.foldl (gapTurn runId (gap.rowId runId)) none = some (gap.row runId)) ↔
      gaps.Pairwise fun gap later => gap.rowId runId ≠ later.legacyId := by
  induction gaps with
  | nil => simp
  | cons first gaps ih =>
      obtain ⟨hfirst, hrest⟩ := List.pairwise_cons.mp hrows
      have hhead : (first :: gaps).foldl (gapTurn runId (first.rowId runId)) none =
          some (first.row runId) ↔ ∀ later ∈ gaps, first.rowId runId ≠ later.legacyId := by
        have hturn : gapTurn runId (first.rowId runId) none first = some (first.row runId) := by
          simp [gapTurn]
        rw [List.foldl_cons, hturn, foldl_gapTurn_of_ne hfirst]
        split_ifs with hdeleted
        · obtain ⟨later, hlater, hid⟩ := hdeleted
          exact iff_of_false (by simp) fun h => h later hlater hid
        · exact iff_of_true rfl fun later hlater hid => hdeleted ⟨later, hlater, hid⟩
      have htail : ∀ gap ∈ gaps, (first :: gaps).foldl (gapTurn runId (gap.rowId runId)) none =
          gaps.foldl (gapTurn runId (gap.rowId runId)) none := by
        intro gap hgap
        have hturn : gapTurn runId (gap.rowId runId) none first = none := by
          simp [gapTurn, (hfirst gap hgap).symm]
        rw [List.foldl_cons, hturn]
      rw [List.forall_mem_cons, List.pairwise_cons, hhead, ← ih hrest]
      exact and_congr_right fun _ => forall₂_congr fun gap hgap => by rw [htail gap hgap]

section Written

variable {corpus : Corpus} {db : Db}

/-- A row that a write leaves for its run is the one of a gap. -/
theorem mem_of_get_written (hwf : WellFormed db) {rowId : Str} {row : GapRow}
    (hget : (written corpus db).complianceGaps.get rowId = some row)
    (hrun : row.runId = some corpus.runId) :
    ∃ gap ∈ corpusGaps corpus, rowId = gap.rowId corpus.runId ∧ row = gap.row corpus.runId := by
  rcases mem_of_foldl_gapTurn ((gapRows_written hwf corpus rowId row hrun).mp hget) with
    hnone | hgap
  · cases hnone
  · exact hgap

/-- The stored gaps are gaps of the corpus. -/
theorem mem_scopedGaps_of_stored (hwf : WellFormed db) {gap : ListedGap}
    (h : StoredGap (written corpus db) corpus.runId gap) : gap ∈ scopedGaps corpus := by
  obtain ⟨row, hget, hrun, -, -, hstatus⟩ := h
  obtain ⟨found, hfound, hid, rfl⟩ := mem_of_get_written hwf hget hrun
  obtain ⟨-, hframework, hcontrol, hrule⟩ := complianceGapRowId_inj hid
  refine List.mem_map.mpr ⟨found, hfound, ?_⟩
  obtain ⟨frameworkId, controlId, ruleId, status⟩ := gap
  obtain rfl := hframework
  obtain rfl := hcontrol
  obtain rfl := hrule
  obtain rfl := Option.some.inj hstatus
  rfl

/-- A gap is stored if its row is left. -/
theorem storedGap_iff (hwf : WellFormed db) {gap : ScopedGap} :
    StoredGap (written corpus db) corpus.runId (listedGap gap.frameworkId gap.result) ↔
      ∃ row, gapImage corpus (gap.rowId corpus.runId) = some row ∧
        row.status = some gap.result.status.label := by
  constructor
  · rintro ⟨row, hget, hrun, -, -, hstatus⟩
    exact ⟨row, (gapRows_written hwf corpus _ _ hrun).mp hget, hstatus⟩
  · rintro ⟨row, himage, hstatus⟩
    rcases mem_of_foldl_gapTurn himage with hnone | ⟨found, -, hid, rfl⟩
    · cases hnone
    · obtain ⟨-, -, hcontrol, hrule⟩ := complianceGapRowId_inj hid
      exact ⟨_, (gapRows_written hwf corpus _ _ rfl).mpr himage, rfl, congrArg some hcontrol.symm,
        congrArg some hrule.symm, hstatus⟩

/-- **The rows a write leaves** are those of all gaps, if no gap deletes an earlier one. -/
theorem stored_iff_gapsApart (hwf : WellFormed db)
    (hkeys : (corpus.results.map resultKey).Nodup) :
    (∀ gap, StoredGap (written corpus db) corpus.runId gap ↔ gap ∈ scopedGaps corpus) ↔
      GapsApart corpus := by
  have hrows := gapRowIds_pairwise hkeys
  rw [GapsApart, ← forall_foldl_gapTurn_iff hrows]
  constructor
  · intro hstored gap hgap
    obtain ⟨row, himage, -⟩ :=
      (storedGap_iff hwf).mp ((hstored _).mpr (List.mem_map_of_mem hgap))
    rcases mem_of_foldl_gapTurn himage with hnone | ⟨found, hfound, hid, rfl⟩
    · cases hnone
    · have hsame : found = gap := by
        by_contra hne
        have : Std.Symm fun gap later : ScopedGap =>
            gap.rowId corpus.runId ≠ later.rowId corpus.runId := ⟨fun _ _ h => h.symm⟩
        exact hrows.forall hfound hgap hne hid.symm
      rw [← hsame] at himage ⊢
      exact himage
  · intro hleft gap
    refine ⟨mem_scopedGaps_of_stored hwf, fun hgap => ?_⟩
    obtain ⟨found, hfound, rfl⟩ := List.mem_map.mp hgap
    exact (storedGap_iff hwf).mpr ⟨_, hleft found hfound, rfl⟩

end Written

/-! ### The four listings -/

/-- Every failed or warned result without a framework has a twin under the framework
`unscoped`. -/
def UnscopedMatched (results : List ScopedResult) : Prop :=
  ∀ item ∈ results, item.frameworkId = none → isGapStatus item.result.status = true →
    ∃ twin ∈ results, twin.frameworkId = some "unscoped".toList ∧
      twin.result.controlId = item.result.controlId ∧ twin.result.ruleId = item.result.ruleId ∧
      twin.result.status = item.result.status

/-- The report lists no more than the spreadsheet if the results without a framework are
matched. -/
theorem report_iff_unscopedMatched (corpus : Corpus) :
    (∀ gap, gap ∈ reportGaps corpus ↔ gap ∈ scopedGaps corpus) ↔
      UnscopedMatched corpus.results := by
  simp only [mem_reportGaps, or_iff_left_iff_imp]
  constructor
  · intro hscoped item hitem hnone hstatus
    obtain ⟨twin, htwin, frameworkId, hframework, -, hlisted⟩ :=
      mem_scopedGaps.mp (hscoped _ ⟨item, hitem, hnone, hstatus, rfl⟩)
    rw [listedGap, listedGap, ListedGap.mk.injEq] at hlisted
    obtain ⟨hname, hcontrol, hrule, hlabel⟩ := hlisted
    exact ⟨twin, htwin, hframework.trans (congrArg some hname.symm), hcontrol.symm, hrule.symm,
      (Status.label_injective hlabel).symm⟩
  · rintro hmatched gap ⟨item, hitem, hnone, hstatus, rfl⟩
    obtain ⟨twin, htwin, hframework, hcontrol, hrule, hsame⟩ := hmatched item hitem hnone hstatus
    refine mem_scopedGaps.mpr ⟨twin, htwin, _, hframework, hsame ▸ hstatus, ?_⟩
    rw [listedGap, listedGap, hcontrol, hrule, hsame]

/-- **The gaps of a corpus are the same** in the report, the spreadsheet, the signed export and
the database it was written to, if its failed and warned results have a framework (or a twin
that is listed like them) and no gap deletes an earlier one. -/
theorem sameGaps_iff {corpus : Corpus} {faults : ℕ → Bool} {db db' : Db}
    (hreach : Relation.ReflTransGen AcceptedStep freshDb db)
    (hwrite : writeCompletedCorpus corpus faults db = (.ok (), db'))
    (hkeys : (corpus.results.map resultKey).Nodup) :
    SameGaps corpus db' ↔ UnscopedMatched corpus.results ∧ GapsApart corpus := by
  have hwf := wellFormed_of_reachable hreach
  rw [(writeCompletedCorpus_ok hwrite).eq_written, ← report_iff_unscopedMatched,
    ← stored_iff_gapsApart hwf hkeys]
  constructor
  · intro hsame
    exact ⟨fun gap => (hsame.report gap).trans mem_sheetGaps,
      fun gap => (hsame.stored gap).trans mem_sheetGaps⟩
  · rintro ⟨hreport, hstored⟩
    exact
      { report := fun gap => (hreport gap).trans mem_sheetGaps.symm
        exported := fun gap => mem_exportedGaps.trans mem_sheetGaps.symm
        stored := fun gap => (hstored gap).trans mem_sheetGaps.symm }

/-- One failed result of a framework. -/
theorem sameGaps_iff_failed :
    SameGaps (failedCorpus "a".toList) (written (failedCorpus "a".toList) freshDb) := by
  have haccepted : writeCompletedCorpus (failedCorpus "a".toList) (fun _ => false) freshDb =
      (.ok (), written (failedCorpus "a".toList) freshDb) :=
    writeCompletedCorpus_accepts currentShape_freshDb (by decide) (by decide)
  refine (sameGaps_iff .refl haccepted (by decide)).mpr ⟨?_, List.pairwise_singleton _ _⟩
  intro item hitem hnone
  obtain rfl := List.mem_singleton.mp hitem
  cases hnone

/-- A corpus with a failed result of no framework. -/
def unscopedFailure : Corpus :=
  resultsCorpus [plainResult none "a".toList .fail]

/-- **A failure of no framework** is a gap in the report only. -/
theorem unscoped_gap_reported :
    (writeCompletedCorpus unscopedFailure (fun _ => false) freshDb).1 = .ok () ∧
      ¬ SameGaps unscopedFailure (afterWrite unscopedFailure freshDb) := by
  refine ⟨by decide +kernel, fun hsame => ?_⟩
  have hgap : listedGap "unscoped".toList (plainResult none "a".toList .fail).result ∈
      reportGaps unscopedFailure :=
    mem_reportGaps.mpr (.inr ⟨_, List.mem_singleton_self _, rfl, rfl, rfl⟩)
  have hnone : sheetGaps unscopedFailure = [] := by rfl
  rw [hsame.report, hnone] at hgap
  cases hgap

end SovriAgent
