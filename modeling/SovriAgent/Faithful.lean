import SovriAgent.Scores
import SovriAgent.Workbook

/-!
# Faithful Workbooks

When an exported workbook is a well-formed document from which the texts of the corpus are
read back. The export escapes the five characters that have a meaning in XML. There are
characters no document may contain, escaped or not, and a carriage return that is written
as it is, is read as a line feed.

## Main results

* `faithful_iff`: the sheets that are written faithfully.
* `matrixExport_faithful_iff`: the corpora that are.
-/

namespace SovriAgent

open Xml

/-- **A faithful workbook**: a well-formed document whose sheets are read as they were
written, with filters that cover them. -/
def Faithful (text : Str) (sheets : List Sheet) : Prop :=
  ∃ root, parseDocument text = some root ∧ readSheets root = sheets ∧
    ∀ sheet ∈ readSheets root, sheet.Covered

/-- A text of characters a document may contain, without carriage returns. -/
def Plain (text : Str) : Prop :=
  ∀ c ∈ text, isChar c = true ∧ c ≠ '\r'

theorem plain_iff {text : Str} : Plain text ↔ Admissible text ∧ '\r' ∉ text := by
  constructor
  · exact fun h => ⟨fun c hc => (h c hc).1, fun hmem => (h _ hmem).2 rfl⟩
  · rintro ⟨hadmissible, hreturn⟩ c hc
    exact ⟨hadmissible c hc, fun heq => hreturn (heq ▸ hc)⟩

/-- A sheet of plain texts. -/
def Sheet.Plain (sheet : Sheet) : Prop :=
  ∀ row ∈ sheet.rows, ∀ cell ∈ row, SovriAgent.Plain cell

/-- A function that changes no item of a list. -/
theorem map_eq_self_iff {α : Type} {f : α → α} {items : List α} :
    items.map f = items ↔ ∀ a ∈ items, f a = a := by
  induction items with
  | nil => simp
  | cons a items ih => simp [ih]

/-- Normalisation changes no cell of a sheet if there are no carriage returns in it. -/
theorem Sheet.normalized_eq_self_iff {sheet : Sheet} :
    sheet.normalized = sheet ↔ ∀ row ∈ sheet.rows, ∀ cell ∈ row, '\r' ∉ cell := by
  obtain ⟨name, rows, ranges⟩ := sheet
  simp only [normalized, Sheet.mk.injEq, true_and, and_true, map_eq_self_iff,
    normalizeLineEnds_eq_self_iff]

/-- A document whose texts are admissible, and whose cells have no carriage returns, is read
as it was written; and no other. -/
theorem faithful_iff {created runId : Str} {sheets : List Sheet}
    (hliteral : ∀ sheet ∈ sheets, sheet.Literal) (hcovered : ∀ sheet ∈ sheets, sheet.Covered) :
    Faithful (workbookText created runId sheets) sheets ↔
      Admissible created ∧ Admissible runId ∧ ∀ sheet ∈ sheets, sheet.Plain := by
  have hplain : (∀ sheet ∈ sheets, sheet.Plain) ↔ (∀ sheet ∈ sheets, sheet.Admissible) ∧
      ∀ sheet ∈ sheets, ∀ row ∈ sheet.rows, ∀ cell ∈ row, '\r' ∉ cell := by
    simp only [Sheet.Plain, plain_iff, Sheet.Admissible]
    exact ⟨fun h => ⟨fun s hs r hr c hc => (h s hs r hr c hc).1,
        fun s hs r hr c hc => (h s hs r hr c hc).2⟩,
      fun h s hs r hr c hc => ⟨h.1 s hs r hr c hc, h.2 s hs r hr c hc⟩⟩
  have hself : sheets.map Sheet.normalized = sheets ↔
      ∀ sheet ∈ sheets, ∀ row ∈ sheet.rows, ∀ cell ∈ row, '\r' ∉ cell := by
    rw [map_eq_self_iff]
    exact forall₂_congr fun sheet _ => Sheet.normalized_eq_self_iff
  have hchars : Admissible (workbookText created runId sheets) ↔
      Admissible created ∧ Admissible runId ∧ ∀ sheet ∈ sheets, sheet.Admissible :=
    admissible_workbookText hliteral
  rw [hplain]
  constructor
  · rintro ⟨root, hparse, hsheets, -⟩
    have hall : Admissible (workbookText created runId sheets) := by
      by_contra hnot
      rw [parseDocument, if_neg fun h => hnot (List.all_eq_true.mp h)] at hparse
      cases hparse
    obtain ⟨hcreated, hrun, hadmissible⟩ := hchars.mp hall
    rw [parseDocument_workbookText hliteral hall, Option.some.injEq] at hparse
    rw [← hparse, readSheets_workbookRoot] at hsheets
    exact ⟨hcreated, hrun, hadmissible, hself.mp hsheets⟩
  · rintro ⟨hcreated, hrun, hadmissible, hreturns⟩
    have hall := hchars.mpr ⟨hcreated, hrun, hadmissible⟩
    have hread : readSheets (workbookRoot (normalizeLineEnds created) (normalizeLineEnds runId)
        (sheets.map Sheet.normalized)) = sheets :=
      (readSheets_workbookRoot _ _ _).trans (hself.mpr hreturns)
    exact ⟨_, parseDocument_workbookText hliteral hall, hread, hread.symm ▸ hcovered⟩

/-! ### The texts of a corpus -/

/-- The texts of a corpus that are written to cells. -/
def cellTexts (corpus : Corpus) : List Str :=
  corpus.controls.flatMap (fun control =>
      [control.frameworkId, control.id, control.title, control.severity]) ++
    corpus.results.flatMap (fun item =>
      [item.frameworkId.getD [], item.result.controlId, item.result.ruleId, item.result.severity] ++
        item.result.evidenceRefs) ++
    (corpus.results.filterMap gapOf).map (fun gap =>
      gapReference corpus.controls gap.1 gap.2.controlId) ++
    corpus.evidence.flatMap (fun record =>
      [record.id, record.kind, record.location, record.integrity]) ++
    corpus.frameworks.flatMap fun framework =>
      [framework.id, framework.version, framework.sourceUrl]

/-- The corpora whose texts XML admits, and whose cells have no carriage returns. -/
def PlainCorpus (corpus : Corpus) : Prop :=
  Admissible corpus.executedAt ∧ Admissible corpus.runId ∧ ∀ text ∈ cellTexts corpus, Plain text

theorem plain_nil : Plain [] :=
  fun _ hc => absurd hc List.not_mem_nil

theorem plain_append {s t : Str} : Plain (s ++ t) ↔ Plain s ∧ Plain t :=
  List.forall_mem_append

/-- Printable texts are plain. -/
theorem Printable.plain {text : Str} (h : Printable text) : Plain text := by
  intro c hc
  have hrange := List.all_eq_true.mp h c hc
  simp only [Bool.and_eq_true, decide_eq_true_eq] at hrange
  refine ⟨?_, ?_⟩
  · have hchar : 0x20 ≤ c.toNat ∧ c.toNat ≤ 0xd7ff := ⟨hrange.1, by omega⟩
    simp [isChar, hchar]
  · rintro rfl
    exact absurd hrange.1 (by decide)

/-- Ids separated by commas are plain if they are. -/
theorem plain_joinEvidenceRefs {refs : List Str} :
    Plain (joinEvidenceRefs refs) ↔ ∀ ref ∈ refs, Plain ref := by
  have hseparator : Plain ", ".toList := Printable.plain rfl
  rw [joinEvidenceRefs, List.intercalate]
  induction refs with
  | nil => exact iff_of_true plain_nil fun _ h => absurd h List.not_mem_nil
  | cons ref refs ih =>
      rcases refs with _ | ⟨next, refs⟩
      · simp
      · rw [List.intersperse_cons_cons, List.flatten_cons, List.flatten_cons, plain_append,
          plain_append, List.forall_mem_cons]
        exact and_congr_right fun _ => (and_iff_right hseparator).trans ih

/-- The cells of a section that are not its own are those of its rows. -/
theorem sectionSheet_plain_iff {name : Str} {header : List Str} {rows : List (List Str)}
    {placeholder : Option Str} {filtered : Bool} (hheader : ∀ cell ∈ header, Printable cell)
    (hplaceholder : ∀ text ∈ placeholder, Printable text) :
    (sectionSheet name header rows placeholder filtered).Plain ↔
      ∀ row ∈ rows, ∀ cell ∈ row, Plain cell := by
  have hheaderPlain : ∀ cell ∈ header, Plain cell := fun cell hcell =>
    (hheader cell hcell).plain
  rw [Sheet.Plain, sectionSheet, List.forall_mem_cons, and_iff_right hheaderPlain]
  split_ifs with hrows
  · subst hrows
    refine iff_of_true ?_ fun _ h => absurd h List.not_mem_nil
    intro row hrow cell hcell
    obtain ⟨text, htext, rfl⟩ := List.mem_map.mp hrow
    rw [List.mem_singleton.mp hcell]
    exact (hplaceholder text (Option.mem_toList.mp htext)).plain
  · rfl

/-! ### The rows of the sheets -/

theorem plain_controlCells {control : Control} : (∀ cell ∈ controlCells control, Plain cell) ↔
    ∀ text ∈ [control.frameworkId, control.id, control.title, control.severity], Plain text := by
  have hweight : Plain (decimal control.weight.toNat) := (printable_decimal _).plain
  have happlicable : Plain "applicable".toList := Printable.plain rfl
  simp only [controlCells, List.forall_mem_cons, hweight, happlicable, plain_nil, true_and]

theorem plain_label (status : Status) : Plain status.label := by
  cases status <;> exact Printable.plain rfl

theorem plain_applicabilityFor (status : Status) : Plain (applicabilityFor status) := by
  rw [applicabilityFor]
  split_ifs <;> exact Printable.plain rfl

theorem plain_resultCells {item : ScopedResult} : (∀ cell ∈ resultCells item, Plain cell) ↔
    ∀ text ∈ [item.frameworkId.getD [], item.result.controlId, item.result.ruleId,
      item.result.severity] ++ item.result.evidenceRefs, Plain text := by
  simp only [resultCells, List.forall_mem_cons, List.forall_mem_append, plain_label, plain_nil,
    plain_joinEvidenceRefs, plain_applicabilityFor, true_and, List.not_mem_nil,
    IsEmpty.forall_iff, implies_true, and_true, and_assoc]

theorem plain_evidenceCells {record : Evidence} : (∀ cell ∈ evidenceCells record, Plain cell) ↔
    ∀ text ∈ [record.id, record.kind, record.location, record.integrity], Plain text := by
  have hintegrity : Plain (if record.integrity = [] then integrityUnavailable
      else record.integrity) ↔ Plain record.integrity := by
    split_ifs with hempty
    · rw [hempty]
      exact iff_of_true (Printable.plain rfl) plain_nil
    · rfl
  have hredaction : Plain (redactionStatus record.classification) := by
    cases record.classification <;> exact Printable.plain rfl
  simp only [evidenceCells, List.forall_mem_cons, plain_nil, hintegrity, hredaction, true_and]

theorem mem_resultsInReportingOrder {results : List ScopedResult} {item : ScopedResult} :
    item ∈ resultsInReportingOrder results ↔ item ∈ results :=
  (List.perm_insertionSort _ _).mem_iff

/-- The source URL of a framework is one of the corpus, or empty. -/
theorem plain_frameworkSourceUrl {frameworks : List Framework}
    (h : ∀ framework ∈ frameworks, Plain framework.sourceUrl) (frameworkId : Str) :
    Plain (frameworkSourceUrl frameworks frameworkId) := by
  rw [frameworkSourceUrl]
  split
  · next framework hfound => exact h framework (List.mem_of_find?_eq_some hfound)
  · exact plain_nil

/-- The cells of a gap beyond those of its result and its framework: the reference. -/
theorem plain_gapCells {corpus : Corpus} {item : ScopedResult} {gap : Str × ControlResult}
    (hgap : gapOf item = some gap) (hitem : ∀ cell ∈ resultCells item, Plain cell)
    (hframeworks : ∀ framework ∈ corpus.frameworks, Plain framework.sourceUrl) :
    (∀ cell ∈ gapCells corpus.controls corpus.frameworks gap, Plain cell) ↔
      Plain (gapReference corpus.controls gap.1 gap.2.controlId) := by
  obtain ⟨hframework, hresult⟩ := gapOf_eq_some hgap
  have htexts := plain_resultCells.mp hitem
  simp only [hframework, hresult, Option.getD_some, List.forall_mem_append,
    List.forall_mem_cons] at htexts
  obtain ⟨⟨hid, hcontrol, hrule, hseverity, -⟩, hrefs⟩ := htexts
  have hcolon : ∀ {text : Str}, Plain (':' :: text) ↔ Plain text := fun {text} =>
    and_iff_right (a := Plain ":".toList) (Printable.plain rfl) |>.symm.trans
      plain_append.symm |>.symm
  have hurl := plain_frameworkSourceUrl hframeworks gap.1
  simp only [gapCells, List.forall_mem_cons, plain_append, hcolon, hid, hcontrol, hrule, hseverity,
    hurl, plain_label, plain_joinEvidenceRefs.mpr hrefs, plain_nil, true_and, List.not_mem_nil,
    IsEmpty.forall_iff, implies_true, and_true]

/-- The texts of the summary are those of the results. -/
theorem plain_summaryRowCells {sdk : Scoring} (hsdk : ScoresFromInputs sdk) {corpus : Corpus}
    (h : ∀ item ∈ corpus.results, ∀ cell ∈ resultCells item, Plain cell) :
    ∀ row ∈ summaryRowCells sdk corpus, ∀ cell ∈ row, Plain cell := by
  have hframework : ∀ framework ∈ (environmentScore sdk corpus.results).frameworks,
      Plain framework.frameworkId := by
    intro framework hmem
    obtain ⟨item, hitem, hid⟩ := mem_scoringCatalog_frameworks.mp
      (hsdk.framework _ _ framework hmem)
    have hcell := h item hitem (item.frameworkId.getD []) List.mem_cons_self
    rwa [hid] at hcell
  have hcontrol : ∀ framework ∈ (environmentScore sdk corpus.results).frameworks,
      ∀ control ∈ framework.controls, Plain control.controlId ∧ Plain control.ruleId := by
    intro framework hmem control hcontrol
    obtain ⟨result, hresult, hid, hrule⟩ := hsdk.control _ _ framework hmem control hcontrol
    obtain ⟨item, hitem, rfl⟩ := List.mem_map.mp hresult
    rw [← hid, ← hrule]
    exact ⟨h item hitem _ (by simp [resultCells]), h item hitem _ (by simp [resultCells])⟩
  have hratio : ∀ ratio, Plain (sdk.render ratio) := fun ratio => (hsdk.printable ratio).plain
  intro row hrow
  rw [summaryRowCells] at hrow
  split_ifs at hrow
  · exact absurd hrow List.not_mem_nil
  · simp only [summaryRows, List.mem_append, List.mem_flatMap, List.mem_singleton] at hrow
    obtain ((⟨framework, hmem, hrow⟩ | ⟨framework, hmem, hrow⟩) | rfl) | hrow := hrow
    · obtain ⟨status, -, hstatus⟩ := List.mem_filterMap.mp hrow
      dsimp only at hstatus
      split_ifs at hstatus
      obtain rfl := Option.some.inj hstatus
      simp only [List.forall_mem_cons]
      exact ⟨hframework framework hmem, plain_label status, (printable_decimal _).plain,
        fun _ hcell => absurd hcell List.not_mem_nil⟩
    · rcases List.mem_append.mp hrow with hrow | hrow
      · obtain ⟨control, hmemControl, rfl⟩ := List.mem_map.mp hrow
        obtain ⟨hid, hrule⟩ := hcontrol framework hmem control hmemControl
        simp only [controlScoreRow, List.forall_mem_cons]
        exact ⟨Printable.plain rfl, hid, hrule, plain_label _,
          fun _ hcell => absurd hcell List.not_mem_nil⟩
      · obtain rfl := List.mem_singleton.mp hrow
        simp only [frameworkScoreRow, List.forall_mem_cons]
        exact ⟨Printable.plain rfl, hframework framework hmem, hratio _,
          fun _ hcell => absurd hcell List.not_mem_nil⟩
    · simp only [environmentScoreRow, List.forall_mem_cons]
      exact ⟨Printable.plain rfl, hratio _, fun _ hcell => absurd hcell List.not_mem_nil⟩
    · split_ifs at hrow
      · obtain rfl := List.mem_singleton.mp hrow
        simp only [scoresIncompleteRow, List.forall_mem_cons]
        exact ⟨Printable.plain rfl, fun _ hcell => absurd hcell List.not_mem_nil⟩
      · exact absurd hrow List.not_mem_nil

/-! ### Faithful corpora -/

/-- The sheets of a corpus stand in attributes as they are: the names are fixed, and ranges
are letters and digits. -/
theorem corpusSheets_literal (sdk : Scoring) (corpus : Corpus) :
    ∀ sheet ∈ corpusSheets sdk corpus, sheet.Literal := by
  have hdecimal : ∀ n, isLiteral (decimal n) = true := by
    refine fun n => List.all_eq_true.mpr fun c hc => ?_
    have hrange := isDigit_of_mem_decimal hc
    have hchar := ((printable_decimal n).plain c hc).1
    have hne : c ≠ '"' ∧ c ≠ '<' ∧ c ≠ '&' ∧ isBlank c = false := by
      have hdigits : ∀ d, isBlank d = true ∨ d = '"' ∨ d = '<' ∨ d = '&' → d.isDigit = false := by
        intro d hd
        simp only [isBlank, Bool.or_eq_true, decide_eq_true_eq] at hd
        rcases hd with (((rfl | rfl) | rfl) | rfl) | rfl | rfl | rfl <;> rfl
      have hnot : ¬ (isBlank c = true ∨ c = '"' ∨ c = '<' ∨ c = '&') := fun h =>
        absurd (hdigits c h) (by simp [hrange])
      simp only [not_or, Bool.not_eq_true] at hnot
      exact ⟨hnot.2.1, hnot.2.2.1, hnot.2.2.2, hnot.1⟩
    simp [hchar, hne]
  have hrange : ∀ m n, isLiteral (filterRange m n) = true := by
    intro m n
    have hstart : isLiteral "R1C1:R".toList = true := rfl
    have hcolumn : isLiteral ['C'] = true := rfl
    have hm := hdecimal m
    have hn := hdecimal n
    change isLiteral ("R1C1:R".toList ++ decimal m ++ (['C'] ++ decimal n)) = true
    rw [isLiteral] at hstart hcolumn hm hn ⊢
    rw [List.all_append, List.all_append, List.all_append, hstart, hm, hcolumn, hn]
    rfl
  have hsection : ∀ (name : Str) (header : List Str) (rows : List (List Str))
      (placeholder : Option Str) (filtered : Bool), isLiteral name = true →
      (sectionSheet name header rows placeholder filtered).Literal := by
    intro name header rows placeholder filtered hname
    refine ⟨hname, fun range hmem => ?_⟩
    simp only [sectionSheet] at hmem
    split_ifs at hmem
    · rw [List.mem_singleton.mp hmem]
      exact hrange _ _
    · exact absurd hmem List.not_mem_nil
  intro sheet hsheet
  simp only [corpusSheets, List.mem_cons, List.not_mem_nil, or_false] at hsheet
  rcases hsheet with rfl | rfl | rfl | rfl | rfl | rfl <;> exact hsection _ _ _ _ _ rfl

/-- The sheets of a corpus are plain if the texts written to cells are. -/
theorem corpusSheets_plain_iff {sdk : Scoring} (hsdk : ScoresFromInputs sdk) (corpus : Corpus) :
    (∀ sheet ∈ corpusSheets sdk corpus, sheet.Plain) ↔ ∀ text ∈ cellTexts corpus, Plain text := by
  have hsection : ∀ {name : Str} {header : List Str} {rows : List (List Str)}
      {placeholder : Option Str} {filtered : Bool}, (header.all fun cell =>
        cell.all fun c => 0x20 ≤ c.toNat && c.toNat ≤ 0x7e) = true →
      (placeholder.toList.all fun cell =>
        cell.all fun c => 0x20 ≤ c.toNat && c.toNat ≤ 0x7e) = true →
      ((sectionSheet name header rows placeholder filtered).Plain ↔
        ∀ row ∈ rows, ∀ cell ∈ row, Plain cell) := fun hheader hplaceholder =>
    sectionSheet_plain_iff (List.all_eq_true.mp hheader) fun text htext =>
      List.all_eq_true.mp hplaceholder text (Option.mem_toList.mpr htext)
  have hmap : ∀ {α : Type} {items : List α} {cells : α → List Str},
      (∀ row ∈ items.map cells, ∀ cell ∈ row, Plain cell) ↔
        ∀ a ∈ items, ∀ cell ∈ cells a, Plain cell := fun {_ _ _} => List.forall_mem_map
  have hflatMap : ∀ {α : Type} {items : List α} {texts : α → List Str},
      (∀ text ∈ items.flatMap texts, Plain text) ↔
        ∀ a ∈ items, ∀ text ∈ texts a, Plain text := by
    intro α items texts
    simp only [List.mem_flatMap, forall_exists_index, and_imp]
    exact ⟨fun h a ha text htext => h text a ha htext, fun h text a ha htext => h a ha text htext⟩
  have hplaceholder : ((some (summaryPlaceholder corpus)).toList.all fun cell =>
      cell.all fun c => 0x20 ≤ c.toNat && c.toNat ≤ 0x7e) = true := by
    rw [summaryPlaceholder]
    split_ifs <;> rfl
  simp only [corpusSheets, List.forall_mem_cons, List.not_mem_nil, IsEmpty.forall_iff,
    implies_true, and_true]
  rw [hsection rfl rfl, hsection rfl rfl, hsection rfl rfl, hsection rfl rfl, hsection rfl rfl,
    hsection rfl hplaceholder, hmap, hmap, hmap, hmap, gapRowCells, hmap]
  have hcontrols : (∀ control ∈ corpus.controls, ∀ cell ∈ controlCells control, Plain cell) ↔
      ∀ text ∈ corpus.controls.flatMap fun control =>
        [control.frameworkId, control.id, control.title, control.severity], Plain text :=
    (forall₂_congr fun _ _ => plain_controlCells).trans hflatMap.symm
  have hresults : (∀ item ∈ resultsInReportingOrder corpus.results, ∀ cell ∈ resultCells item,
      Plain cell) ↔ ∀ item ∈ corpus.results, ∀ cell ∈ resultCells item, Plain cell := by
    simp only [mem_resultsInReportingOrder]
  have hresultTexts : (∀ item ∈ corpus.results, ∀ cell ∈ resultCells item, Plain cell) ↔
      ∀ text ∈ corpus.results.flatMap fun item => [item.frameworkId.getD [], item.result.controlId,
        item.result.ruleId, item.result.severity] ++ item.result.evidenceRefs, Plain text :=
    (forall₂_congr fun _ _ => plain_resultCells).trans hflatMap.symm
  have hevidence : (∀ record ∈ corpus.evidence, ∀ cell ∈ evidenceCells record, Plain cell) ↔
      ∀ text ∈ corpus.evidence.flatMap fun record =>
        [record.id, record.kind, record.location, record.integrity], Plain text :=
    (forall₂_congr fun _ _ => plain_evidenceCells).trans hflatMap.symm
  have hframeworks : (∀ framework ∈ corpus.frameworks, ∀ cell ∈ frameworkCells framework,
      Plain cell) ↔ ∀ text ∈ corpus.frameworks.flatMap fun framework =>
        [framework.id, framework.version, framework.sourceUrl], Plain text :=
    hflatMap.symm
  -- Beyond the texts of its result and its framework a gap has the reference of its control.
  have hgaps : (∀ item ∈ corpus.results, ∀ cell ∈ resultCells item, Plain cell) →
      (∀ framework ∈ corpus.frameworks, ∀ cell ∈ frameworkCells framework, Plain cell) →
      ((∀ gap ∈ (resultsInReportingOrder corpus.results).filterMap gapOf,
          ∀ cell ∈ gapCells corpus.controls corpus.frameworks gap, Plain cell) ↔
        ∀ text ∈ (corpus.results.filterMap gapOf).map fun gap =>
          gapReference corpus.controls gap.1 gap.2.controlId, Plain text) := by
    intro hitems hurls
    have hmem : ∀ gap, gap ∈ (resultsInReportingOrder corpus.results).filterMap gapOf ↔
        gap ∈ corpus.results.filterMap gapOf := by
      simp only [List.mem_filterMap, mem_resultsInReportingOrder, implies_true]
    rw [List.forall_mem_map]
    simp only [hmem]
    refine forall₂_congr fun gap hgap => ?_
    obtain ⟨item, hitem, hof⟩ := List.mem_filterMap.mp hgap
    exact plain_gapCells hof (hitems item hitem) fun framework hframework =>
      hurls framework hframework _ (by simp [frameworkCells])
  simp only [cellTexts, List.forall_mem_append]
  rw [hcontrols, hresults, hevidence, hframeworks]
  constructor
  · rintro ⟨hcontrol, hresult, hgap, hrecord, hframework, -⟩
    exact ⟨⟨⟨⟨hcontrol, hresultTexts.mp hresult⟩, (hgaps hresult
      (hframeworks.mpr hframework)).mp hgap⟩, hrecord⟩, hframework⟩
  · rintro ⟨⟨⟨⟨hcontrol, hresult⟩, hgap⟩, hrecord⟩, hframework⟩
    have hitems := hresultTexts.mpr hresult
    exact ⟨hcontrol, hitems, (hgaps hitems (hframeworks.mpr hframework)).mpr hgap, hrecord,
      hframework, plain_summaryRowCells hsdk hitems⟩

/-- **The workbook of a corpus is well-formed and faithful** where XML admits the texts, and
the texts of cells have no carriage returns. -/
theorem matrixExport_faithful_iff {sdk : Scoring} (hsdk : ScoresFromInputs sdk) (corpus : Corpus) :
    Faithful (matrixExport sdk corpus) (corpusSheets sdk corpus) ↔ PlainCorpus corpus := by
  rw [matrixExport_eq, faithful_iff (corpusSheets_literal sdk corpus)
    (corpusSheets_covered sdk corpus), corpusSheets_plain_iff hsdk]
  rfl

/-- A corpus of a control with a title. -/
def titledCorpus (title : Str) : Corpus :=
  (Corpus.new "2026-06-24T13:16:28Z".toList).withControl
    ⟨"gdpr".toList, "consent".toList, title, "major".toList, 8, "Art. 7".toList⟩

/-- The workbook of a corpus whose texts have all five escaped characters. -/
theorem matrixExport_faithful_iff_escaped :
    Faithful (matrixExport catalogScoring (titledCorpus "a<b> & \"c\" 'd'".toList))
      (corpusSheets catalogScoring (titledCorpus "a<b> & \"c\" 'd'".toList)) := by
  refine (matrixExport_faithful_iff catalogScoring_fromInputs _).mpr ⟨.of_all rfl, .of_all rfl, ?_⟩
  have htexts : ((cellTexts (titledCorpus "a<b> & \"c\" 'd'".toList)).all fun text =>
      text.all fun c => 0x20 ≤ c.toNat && c.toNat ≤ 0x7e) = true := rfl
  exact fun text htext => Printable.plain (List.all_eq_true.mp htexts text htext)

/-- A control character in a title, which no document may contain. -/
theorem matrixExport_not_faithful :
    ¬ Faithful (matrixExport catalogScoring (titledCorpus "a\x01b".toList))
      (corpusSheets catalogScoring (titledCorpus "a\x01b".toList)) := by
  have htitle : "a\x01b".toList ∈ cellTexts (titledCorpus "a\x01b".toList) := by
    simp [cellTexts, titledCorpus, Corpus.withControl]
  rw [matrixExport_eq, faithful_iff (corpusSheets_literal _ _) (corpusSheets_covered _ _),
    corpusSheets_plain_iff catalogScoring_fromInputs]
  rintro ⟨-, -, htexts⟩
  have hcontrol := (htexts _ htitle (Char.ofNat 1) (by decide)).1
  exact absurd hcontrol (by decide)

end SovriAgent
