import SovriAgent.Matrix
import SovriAgent.Xml

/-!
# Reading the Workbook Back

What a parser reads of an exported workbook: the sheets with the texts of their cells, and
the ranges of their filters.

## Main results

* `matrixExport_eq`: the document is made of sheets, each a list of rows.
* `readSheets_workbookRoot`: the sheets are read back from the tree.
* `admissible_workbookText`: the documents of characters XML admits.
* `parseDocument_workbookText`: what is read of such a document.
-/

namespace SovriAgent

open Xml

/-! ### Sheets -/

/-- A sheet: its name, its rows with the header first, and the ranges of its filters. -/
structure Sheet where
  name : Str
  rows : List (List Str)
  ranges : List Str

/-- The filters of a sheet cover all of its rows and columns. -/
def Sheet.Covered (sheet : Sheet) : Prop :=
  ∀ range ∈ sheet.ranges, ∀ row ∈ sheet.rows, range = filterRange sheet.rows.length row.length

/-- The text of a sheet. -/
def sheetText (sheet : Sheet) : Str :=
  pushWorksheet sheet.name
    (tableStart ++ sheet.rows.flatMap pushRow ++ tableEnd ++ sheet.ranges.flatMap filterText)

/-- The text of a workbook. -/
def workbookText (created runId : Str) (sheets : List Sheet) : Str :=
  workbookStart (xmlEscape created) (runTitle runId) ++ sheets.flatMap sheetText ++
    workbookEnd

/-- The table of a section: its rows, with a filter or not, or a row that says why it is empty. -/
def pushSection (header : List Str) (rows : List (List Str)) (placeholder : Option Str)
    (filtered : Bool) : Str :=
  if rows = [] then pushEmptyTable header placeholder
  else
    pushTable header rows ++
      if filtered then pushAutofilter (rows.length + 1) header.length else []

/-- The sheet of a section. -/
def sectionSheet (name : Str) (header : List Str) (rows : List (List Str))
    (placeholder : Option Str) (filtered : Bool) : Sheet where
  name := name
  rows := header :: if rows = [] then placeholder.toList.map ([·]) else rows
  ranges :=
    if filtered = true ∧ rows ≠ [] then [filterRange (rows.length + 1) header.length] else []

/-- A worksheet with a section. -/
theorem pushWorksheet_section (name : Str) (header : List Str) (rows : List (List Str))
    (placeholder : Option Str) (filtered : Bool) :
    pushWorksheet name (pushSection header rows placeholder filtered) =
      sheetText (sectionSheet name header rows placeholder filtered) := by
  unfold sheetText sectionSheet
  refine congrArg (pushWorksheet name) ?_
  by_cases hrows : rows = []
  · rw [pushSection, if_pos hrows, if_pos hrows, if_neg fun h => h.2 hrows]
    cases placeholder <;> simp [pushEmptyTable]
  · rw [pushSection, if_neg hrows, if_neg hrows]
    cases filtered <;> simp [pushTable, hrows, pushAutofilter]

/-- A section whose rows have the columns of its header is covered by its filter. -/
theorem sectionSheet_covered (name : Str) {header : List Str} {rows : List (List Str)}
    (h : ∀ row ∈ rows, row.length = header.length) (placeholder : Option Str) (filtered : Bool) :
    (sectionSheet name header rows placeholder filtered).Covered := by
  intro range hrange row hrow
  simp only [sectionSheet] at hrange hrow ⊢
  split_ifs at hrange with hfiltered
  · rw [if_neg hfiltered.2] at hrow ⊢
    rw [List.mem_singleton.mp hrange, List.length_cons]
    rcases List.mem_cons.mp hrow with rfl | hrow
    · rfl
    · rw [h row hrow]
  · exact absurd hrange List.not_mem_nil

/-! ### The sheets of a corpus -/

/-- The rows of the gaps. -/
def gapRowCells (corpus : Corpus) : List (List Str) :=
  ((resultsInReportingOrder corpus.results).filterMap gapOf).map
    (gapCells corpus.controls corpus.frameworks)

/-- The rows of the summary; there are none without scored frameworks. -/
def summaryRowCells (sdk : Scoring) (corpus : Corpus) : List (List Str) :=
  let environment := environmentScore sdk corpus.results
  if environment.frameworks.isEmpty then [] else summaryRows sdk environment

/-- The row of a summary that has none. -/
def summaryPlaceholder (corpus : Corpus) : Str :=
  if corpus.results = [] then noControlsPlaceholder else noScoresPlaceholder

/-- The six sheets of a corpus. -/
def corpusSheets (sdk : Scoring) (corpus : Corpus) : List Sheet :=
  [sectionSheet "Controls".toList controlsHeader (corpus.controls.map controlCells) none true,
    sectionSheet "Results".toList resultsHeader
      ((resultsInReportingOrder corpus.results).map resultCells) none true,
    sectionSheet "Gaps".toList gapsHeader (gapRowCells corpus) (some noGapsPlaceholder) true,
    sectionSheet "Evidence".toList evidenceHeader (corpus.evidence.map evidenceCells)
      (some noEvidencePlaceholder) false,
    sectionSheet "Frameworks".toList frameworksHeader (corpus.frameworks.map frameworkCells) none
      false,
    sectionSheet "Summary".toList summaryHeader (summaryRowCells sdk corpus)
      (some (summaryPlaceholder corpus)) false]

/-- Ordering keeps the number of results. -/
theorem length_resultsInReportingOrder (results : List ScopedResult) :
    (resultsInReportingOrder results).length = results.length :=
  (List.perm_insertionSort _ _).length_eq

theorem pushControlsTable_eq (controls : List Control) : pushControlsTable controls =
    pushSection controlsHeader (controls.map controlCells) none true := by
  rw [pushControlsTable, pushSection, List.length_map]
  simp only [List.map_eq_nil_iff, if_true]

theorem pushResultsTable_eq (results : List ScopedResult) : pushResultsTable results =
    pushSection resultsHeader ((resultsInReportingOrder results).map resultCells) none true := by
  have hempty : resultsInReportingOrder results = [] ↔ results = [] := by
    rw [← List.length_eq_zero_iff, length_resultsInReportingOrder, List.length_eq_zero_iff]
  rw [pushResultsTable, pushSection, List.length_map, length_resultsInReportingOrder]
  simp only [List.map_eq_nil_iff, hempty, if_true]

theorem pushGapsTable_eq (corpus : Corpus) :
    pushGapsTable corpus.results corpus.controls corpus.frameworks =
      pushSection gapsHeader (gapRowCells corpus) (some noGapsPlaceholder) true := by
  rw [pushGapsTable, pushSection, gapRowCells, List.length_map]
  simp only [List.map_eq_nil_iff, if_true]

theorem pushEvidenceTable_eq (evidence : List Evidence) : pushEvidenceTable evidence =
    pushSection evidenceHeader (evidence.map evidenceCells) (some noEvidencePlaceholder)
      false := by
  rw [pushEvidenceTable, pushSection]
  simp

theorem pushFrameworksTable_eq (frameworks : List Framework) : pushFrameworksTable frameworks =
    pushSection frameworksHeader (frameworks.map frameworkCells) none false := by
  rw [pushFrameworksTable, pushSection]
  simp

theorem pushSummaryTable_eq (sdk : Scoring) (corpus : Corpus) :
    pushSummaryTable sdk corpus.results =
      pushSection summaryHeader (summaryRowCells sdk corpus) (some (summaryPlaceholder corpus))
        false := by
  rw [pushSummaryTable, pushSection, summaryRowCells, summaryPlaceholder]
  by_cases hempty : (environmentScore sdk corpus.results).frameworks.isEmpty = true
  · simp [hempty]
  · have hrows : summaryRows sdk (environmentScore sdk corpus.results) ≠ [] := by
      simp [summaryRows]
    simp [hempty, hrows]

/-- **The document is made of its sheets.** -/
theorem matrixExport_eq (sdk : Scoring) (corpus : Corpus) : matrixExport sdk corpus =
    workbookText corpus.executedAt corpus.runId (corpusSheets sdk corpus) := by
  have hsheets : (corpusSheets sdk corpus).flatMap sheetText =
      pushWorksheet "Controls".toList (pushControlsTable corpus.controls) ++
        pushWorksheet "Results".toList (pushResultsTable corpus.results) ++
        pushWorksheet "Gaps".toList
          (pushGapsTable corpus.results corpus.controls corpus.frameworks) ++
        pushWorksheet "Evidence".toList (pushEvidenceTable corpus.evidence) ++
        pushWorksheet "Frameworks".toList (pushFrameworksTable corpus.frameworks) ++
        pushWorksheet "Summary".toList (pushSummaryTable sdk corpus.results) := by
    rw [pushControlsTable_eq, pushResultsTable_eq, pushGapsTable_eq, pushEvidenceTable_eq,
      pushFrameworksTable_eq, pushSummaryTable_eq]
    simp only [pushWorksheet_section, corpusSheets, List.flatMap_cons, List.flatMap_nil,
      List.append_nil, List.append_assoc]
  unfold matrixExport workbookText
  rw [hsheets]

/-- The filters of all sheets cover them. -/
theorem corpusSheets_covered (sdk : Scoring) (corpus : Corpus) :
    ∀ sheet ∈ corpusSheets sdk corpus, sheet.Covered := by
  have hunfiltered : ∀ (name : Str) (header : List Str) (rows : List (List Str))
      (placeholder : Option Str), (sectionSheet name header rows placeholder false).Covered := by
    intro name header rows placeholder range hrange
    simp [sectionSheet] at hrange
  have hmap : ∀ {α : Type} {items : List α} {cells : α → List Str} {header : List Str},
      (∀ a, (cells a).length = header.length) →
      ∀ row ∈ items.map cells, row.length = header.length := by
    intro α items cells header h row hrow
    obtain ⟨a, -, rfl⟩ := List.mem_map.mp hrow
    exact h a
  have hcontrols : ∀ control, (controlCells control).length = controlsHeader.length :=
    fun _ => rfl
  have hresults : ∀ item, (resultCells item).length = resultsHeader.length := fun _ => rfl
  have hgaps : ∀ gap, (gapCells corpus.controls corpus.frameworks gap).length =
      gapsHeader.length := fun _ => rfl
  simp only [corpusSheets, List.forall_mem_cons, List.not_mem_nil, IsEmpty.forall_iff,
    implies_true, and_true]
  exact ⟨sectionSheet_covered _ (hmap hcontrols) _ _, sectionSheet_covered _ (hmap hresults) _ _,
    sectionSheet_covered _ (hmap hgaps) _ _, hunfiltered _ _ _ _, hunfiltered _ _ _ _,
    hunfiltered _ _ _ _⟩

/-! ### Reading sheets -/

/-- The texts of the cells of a row. -/
def readCells (row : List Node) : List Str :=
  (elements "Cell".toList row).flatMap fun cell =>
    (elements "Data".toList cell.2).map fun data => textOf data.2

/-- A sheet as a parser reads it. -/
def readSheet (worksheet : List (Str × Str) × List Node) : Sheet where
  name := (valuesOf "ss:Name".toList worksheet.1).flatten
  rows := (elements "Table".toList worksheet.2).flatMap fun table =>
    (elements "Row".toList table.2).map fun row => readCells row.2
  ranges := (elements "AutoFilter".toList worksheet.2).flatMap fun filter =>
    valuesOf "x:Range".toList filter.1

/-- The sheets of a workbook. -/
def readSheets : Node → List Sheet
  | .char _ => []
  | .element _ _ children => (elements "Worksheet".toList children).map readSheet

/-! ### The tree of a workbook -/

/-- The tag of a cell. -/
def cellTag : Tag := ⟨"Cell".toList, []⟩

/-- The tag of the text of a cell. -/
def dataTag : Tag := ⟨"Data".toList, [("ss:Type".toList, "String".toList)]⟩

/-- The tag of a row. -/
def rowTag : Tag := ⟨"Row".toList, []⟩

/-- The tag of a table. -/
def tableTag : Tag := ⟨"Table".toList, []⟩

/-- The tag of a filter. -/
def filterTag (range : Str) : Tag :=
  ⟨"AutoFilter".toList, [("x:Range".toList, range), ("xmlns:x".toList, excelNamespace)]⟩

/-- The tag of a sheet. -/
def worksheetTag (name : Str) : Tag :=
  ⟨"Worksheet".toList, [("ss:Name".toList, name)]⟩

/-- A cell. -/
def cellNode (value : Str) : Node :=
  .element cellTag.name cellTag.attributes
    [.element dataTag.name dataTag.attributes (value.map .char)]

/-- A row and the line feed after it. -/
def rowNodes (cells : List Str) : List Node :=
  [.element rowTag.name rowTag.attributes (cells.map cellNode), .char '\n']

/-- A filter and the line feed after it. -/
def filterNodes (range : Str) : List Node :=
  [.element (filterTag range).name (filterTag range).attributes [], .char '\n']

/-- The content of a sheet. -/
def worksheetNodes (sheet : Sheet) : List Node :=
  .char '\n' :: .element tableTag.name tableTag.attributes
    (.char '\n' :: sheet.rows.flatMap rowNodes) :: .char '\n' ::
      sheet.ranges.flatMap filterNodes

/-- A sheet and the line feed after it. -/
def sheetNodes (sheet : Sheet) : List Node :=
  [.element (worksheetTag sheet.name).name (worksheetTag sheet.name).attributes
    (worksheetNodes sheet), .char '\n']

/-- Cells are read back. -/
theorem readCells_map (cells : List Str) : readCells (cells.map cellNode) = cells := by
  rw [readCells]
  induction cells with
  | nil => rfl
  | cons value cells ih =>
      have hcell : elements "Cell".toList (cellNode value :: cells.map cellNode) =
          ([], [.element dataTag.name dataTag.attributes (value.map .char)]) ::
            elements "Cell".toList (cells.map cellNode) :=
        elements_element _ _ _ _
      rw [List.map_cons, hcell, List.flatMap_cons, ih]
      have hdata : elements "Data".toList
          [.element dataTag.name dataTag.attributes (value.map .char)] =
          [(dataTag.attributes, value.map .char)] :=
        elements_element _ _ _ _
      rw [hdata, List.map_singleton, textOf_map_char]
      rfl

/-- Rows are read back. -/
theorem elements_rowNodes (rows : List (List Str)) :
    (elements "Row".toList (rows.flatMap rowNodes)).map (fun row => readCells row.2) = rows := by
  rw [elements_flatMap]
  induction rows with
  | nil => rfl
  | cons cells rows ih =>
      have hrow : elements "Row".toList (rowNodes cells) = [([], cells.map cellNode)] :=
        elements_element _ _ _ _
      rw [List.flatMap_cons, hrow, List.map_append, ih, List.map_singleton, readCells_map]
      rfl

/-- Filters are read back. -/
theorem elements_filterNodes (ranges : List Str) :
    (elements "AutoFilter".toList (ranges.flatMap filterNodes)).flatMap
      (fun filter => valuesOf "x:Range".toList filter.1) = ranges := by
  rw [elements_flatMap]
  induction ranges with
  | nil => rfl
  | cons range ranges ih =>
      have hfilter : elements "AutoFilter".toList (filterNodes range) =
          [((filterTag range).attributes, [])] :=
        elements_element _ _ _ _
      rw [List.flatMap_cons, hfilter, List.flatMap_append, ih]
      rfl

/-- A sheet is read as it is. -/
theorem readSheet_worksheetNodes (sheet : Sheet) :
    readSheet ((worksheetTag sheet.name).attributes, worksheetNodes sheet) = sheet := by
  obtain ⟨name, rows, ranges⟩ := sheet
  have hfilter : "AutoFilter".toList ≠ "Table".toList := by decide
  have htables : "Table".toList ≠ "AutoFilter".toList := by decide
  have hnoTable : elements "Table".toList (ranges.flatMap filterNodes) = [] := by
    rw [elements_flatMap]
    exact List.flatMap_eq_nil_iff.mpr fun _ _ => elements_of_ne hfilter _ _ _
  have htable : elements "Table".toList (worksheetNodes ⟨name, rows, ranges⟩) =
      [([], .char '\n' :: rows.flatMap rowNodes)] :=
    (elements_element _ _ _ _).trans (congrArg (_ :: ·) hnoTable)
  have hfilters : elements "AutoFilter".toList (worksheetNodes ⟨name, rows, ranges⟩) =
      elements "AutoFilter".toList (ranges.flatMap filterNodes) :=
    elements_of_ne htables [] (.char '\n' :: rows.flatMap rowNodes)
      (.char '\n' :: ranges.flatMap filterNodes)
  have hrows : ((elements "Table".toList (worksheetNodes ⟨name, rows, ranges⟩)).flatMap
      fun table => (elements "Row".toList table.2).map fun row => readCells row.2) = rows := by
    rw [htable, List.flatMap_singleton]
    exact elements_rowNodes rows
  have hranges : ((elements "AutoFilter".toList (worksheetNodes ⟨name, rows, ranges⟩)).flatMap
      fun filter => valuesOf "x:Range".toList filter.1) = ranges := by
    rw [hfilters]
    exact elements_filterNodes ranges
  have hname : (valuesOf "ss:Name".toList (worksheetTag name).attributes).flatten = name :=
    List.append_nil name
  rw [readSheet, hrows, hranges, hname]

/-- Sheets are read back. -/
theorem readSheets_sheetNodes (sheets : List Sheet) :
    (elements "Worksheet".toList (sheets.flatMap sheetNodes)).map readSheet = sheets := by
  rw [elements_flatMap]
  induction sheets with
  | nil => rfl
  | cons sheet sheets ih =>
      have hsheet : elements "Worksheet".toList (sheetNodes sheet) =
          [((worksheetTag sheet.name).attributes, worksheetNodes sheet)] :=
        elements_element _ _ _ _
      rw [List.flatMap_cons, hsheet, List.map_append, ih, List.map_singleton,
        readSheet_worksheetNodes]
      rfl

/-! ### Reading the texts -/

/-- An escaped character is read back. -/
theorem readsText_xmlEscapeChar (c : Char) : ReadsText (xmlEscapeChar c) [c] := by
  rw [xmlEscapeChar]
  split_ifs with hand hless hgreater hquote hapos
  · subst hand
    exact ReadsText.reference "amp".toList rfl (by decide)
  · subst hless
    exact ReadsText.reference "lt".toList rfl (by decide)
  · subst hgreater
    exact ReadsText.reference "gt".toList rfl (by decide)
  · subst hquote
    exact ReadsText.reference "quot".toList rfl (by decide)
  · subst hapos
    exact ReadsText.reference "apos".toList rfl (by decide)
  · exact ReadsText.literal ⟨hless, hand, hgreater⟩

/-- **An escaped text is read as the text.** -/
theorem readsText_xmlEscape (value : Str) : ReadsText (xmlEscape value) value := by
  induction value with
  | nil => exact ReadsText.nil
  | cons c value ih => exact (readsText_xmlEscapeChar c).append ih

/-- A cell is read as one. -/
theorem reads_pushStringCell (value : Str) : Reads (pushStringCell value) [cellNode value] := by
  have hdata : dataTag.Valid := ⟨by decide, by decide, by decide⟩
  have hcell : cellTag.Valid := ⟨by decide, by decide, by decide⟩
  have hstart : cellStart = startTag cellTag ++ startTag dataTag := rfl
  have hend : cellEnd = endTag dataTag.name ++ endTag cellTag.name := rfl
  have htext : pushStringCell value = startTag cellTag ++
      (startTag dataTag ++ xmlEscape value ++ endTag dataTag.name) ++ endTag cellTag.name := by
    rw [pushStringCell, hstart, hend]
    simp only [List.append_assoc]
  rw [htext]
  exact (Reads.textElement hdata (readsText_xmlEscape value)).element hcell

/-- A row is read as one. -/
theorem reads_pushRow (cells : List Str) : Reads (pushRow cells) (rowNodes cells) := by
  have hrow : rowTag.Valid := ⟨by decide, by decide, by decide⟩
  have hstart : rowStart = startTag rowTag := rfl
  have hend : rowEnd = endTag rowTag.name ++ ['\n'] := rfl
  have hcells : Reads (cells.flatMap pushStringCell) (cells.map cellNode) := by
    rw [List.map_eq_flatMap]
    exact Reads.flatMap fun value _ => reads_pushStringCell value
  rw [pushRow, hstart, hend, ← List.append_assoc]
  exact (hcells.element hrow).append Reads.lineFeed

/-- A filter is read as one. -/
theorem reads_filterText {range : Str} (h : isLiteral range = true) :
    Reads (filterText range) (filterNodes range) := by
  have hrange : isName "x:Range".toList = true := by decide
  have hxmlns : isName "xmlns:x".toList = true ∧ isLiteral excelNamespace = true :=
    ⟨by decide, by decide⟩
  have hkeys : ["x:Range".toList, "xmlns:x".toList].Nodup := by decide
  have hname : isName "AutoFilter".toList = true := by decide
  have hvalid : (filterTag range).Valid := by
    refine ⟨hname, fun attr hattr => ?_, hkeys⟩
    rcases List.mem_pair.mp hattr with rfl | rfl
    · exact ⟨hrange, h⟩
    · exact hxmlns
  have hstart : filterStart =
      '<' :: ("AutoFilter".toList ++ ' ' :: ("x:Range".toList ++ ['=', '"'])) := rfl
  have hend : filterEnd = '"' :: (attributeText ("xmlns:x".toList, excelNamespace) ++
      ['/', '>', '\n']) := rfl
  have htag : ∀ name key key' value : Str,
      '<' :: (name ++ ' ' :: (key ++ ['=', '"'])) ++ range ++
        '"' :: (attributeText (key', value) ++ ['/', '>', '\n']) =
      emptyTag ⟨name, [(key, range), (key', value)]⟩ ++ ['\n'] := by
    intro name key key' value
    simp [emptyTag, tagText, attributeText]
  have htext : filterText range = emptyTag (filterTag range) ++ ['\n'] :=
    (congrArg₂ (fun before after => before ++ range ++ after) hstart hend).trans (htag _ _ _ _)
  rw [htext]
  exact (Reads.emptyElement hvalid).append Reads.lineFeed

/-- A sheet whose name and ranges stand in attributes as they are. -/
def Sheet.Literal (sheet : Sheet) : Prop :=
  isLiteral sheet.name = true ∧ ∀ range ∈ sheet.ranges, isLiteral range = true

/-- A sheet is read as one. -/
theorem reads_sheetText {sheet : Sheet} (h : sheet.Literal) :
    Reads (sheetText sheet) (sheetNodes sheet) := by
  have hworksheet : (worksheetTag sheet.name).Valid := by
    have hname : isName "Worksheet".toList = true ∧ isName "ss:Name".toList = true :=
      ⟨by decide, by decide⟩
    refine ⟨hname.1, fun attr hattr => ?_, List.nodup_singleton _⟩
    obtain rfl : attr = ("ss:Name".toList, sheet.name) := List.mem_singleton.mp hattr
    exact ⟨hname.2, h.1⟩
  have htable : tableTag.Valid := ⟨by decide, by decide, by decide⟩
  have hrows : Reads (startTag tableTag ++ ('\n' :: sheet.rows.flatMap pushRow) ++
      endTag tableTag.name) [.element tableTag.name tableTag.attributes
        (.char '\n' :: sheet.rows.flatMap rowNodes)] :=
    (Reads.lineFeed.append (Reads.flatMap fun cells _ => reads_pushRow cells)).element htable
  have hranges : Reads (sheet.ranges.flatMap filterText) (sheet.ranges.flatMap filterNodes) :=
    Reads.flatMap fun range hrange => reads_filterText (h.2 range hrange)
  have hcontent := Reads.lineFeed.append (hrows.append (Reads.lineFeed.append hranges))
  have htext : sheetText sheet = startTag (worksheetTag sheet.name) ++
      (['\n'] ++ (startTag tableTag ++ ('\n' :: sheet.rows.flatMap pushRow) ++
        endTag tableTag.name ++ (['\n'] ++ sheet.ranges.flatMap filterText))) ++
      endTag (worksheetTag sheet.name).name ++ ['\n'] := by
    have hstart : worksheetStart =
        '<' :: ("Worksheet".toList ++ ' ' :: ("ss:Name".toList ++ ['=', '"'])) := rfl
    have hname : worksheetName = ['"', '>', '\n'] := rfl
    have hend : worksheetEnd = endTag "Worksheet".toList ++ ['\n'] := rfl
    have htableStart : tableStart = startTag tableTag ++ ['\n'] := rfl
    have htableEnd : tableEnd = endTag tableTag.name ++ ['\n'] := rfl
    have htag : ∀ name key value rest : Str, '<' :: (name ++ ' ' :: (key ++ ['=', '"'])) ++ value ++
        (['"', '>', '\n'] ++ rest) = startTag ⟨name, [(key, value)]⟩ ++ ('\n' :: rest) := by
      intro name key value rest
      simp [startTag, tagText, attributeText]
    have hopen : ∀ rest : Str, worksheetStart ++ sheet.name ++ (worksheetName ++ rest) =
        startTag (worksheetTag sheet.name) ++ ('\n' :: rest) := fun rest =>
      (congrArg₂ (fun before after => before ++ sheet.name ++ (after ++ rest)) hstart hname).trans
        (htag _ _ _ _)
    have hclose : endTag (worksheetTag sheet.name).name = endTag "Worksheet".toList := rfl
    rw [sheetText, pushWorksheet, hend, htableStart, htableEnd, hclose]
    simp only [List.append_assoc, List.cons_append, List.nil_append] at hopen ⊢
    exact hopen _
  rw [htext]
  exact (hcontent.element hworksheet).append Reads.lineFeed

/-! ### The document -/

/-- The tag of the document properties. -/
def propertiesTag : Tag :=
  ⟨"DocumentProperties".toList, [("xmlns".toList, "urn:schemas-microsoft-com:office:office".toList)]⟩

/-- The tag of the workbook. -/
def workbookTag : Tag :=
  ⟨"Workbook".toList,
    [("xmlns".toList, "urn:schemas-microsoft-com:office:spreadsheet".toList),
      ("xmlns:ss".toList, "urn:schemas-microsoft-com:office:spreadsheet".toList)]⟩

/-- The document properties: the date, and the title of a run that has an id. -/
def propertiesNodes (created runId : Str) : List Node :=
  [.element propertiesTag.name propertiesTag.attributes
    (.char '\n' :: .element "Created".toList [] (created.map .char) :: .char '\n' ::
      if runId = [] then []
      else [.element "Title".toList [] (runId.map .char), .char '\n']), .char '\n']

/-- The root element of a workbook. -/
def workbookRoot (created runId : Str) (sheets : List Sheet) : Node :=
  .element workbookTag.name workbookTag.attributes
    (.char '\n' :: propertiesNodes created runId ++ sheets.flatMap sheetNodes)

/-- The sheets of a workbook are read back. -/
theorem readSheets_workbookRoot (created runId : Str) (sheets : List Sheet) :
    readSheets (workbookRoot created runId sheets) = sheets := by
  have hproperties : "DocumentProperties".toList ≠ "Worksheet".toList := by decide
  have hnone : ∀ children nodes, elements "Worksheet".toList (.char '\n' ::
      .element propertiesTag.name propertiesTag.attributes children :: .char '\n' :: nodes) =
      elements "Worksheet".toList nodes := fun children nodes =>
    elements_of_ne hproperties propertiesTag.attributes children (.char '\n' :: nodes)
  rw [workbookRoot, readSheets]
  exact (congrArg (List.map readSheet) (hnone _ _)).trans (readSheets_sheetNodes sheets)

/-- The text between the properties' start and their end. -/
theorem reads_properties (created runId : Str) :
    Reads (propertiesStart ++ xmlEscape created ++ createdEnd ++ runTitle runId ++ propertiesEnd)
      (propertiesNodes created runId) := by
  have hproperties : propertiesTag.Valid := ⟨by decide, by decide, by decide⟩
  have hcreated : Tag.Valid ⟨"Created".toList, []⟩ := ⟨by decide, by decide, by decide⟩
  have htitle : Tag.Valid ⟨"Title".toList, []⟩ := ⟨by decide, by decide, by decide⟩
  have hrun : Reads (runTitle runId) (if runId = [] then []
      else [.element "Title".toList [] (runId.map .char), .char '\n']) := by
    rw [runTitle]
    split_ifs
    · exact Reads.nil
    · have hstart : titleStart = startTag ⟨"Title".toList, []⟩ := rfl
      have hend : titleEnd = endTag "Title".toList ++ ['\n'] := rfl
      rw [hstart, hend, ← List.append_assoc]
      exact (Reads.textElement htitle (readsText_xmlEscape runId)).append Reads.lineFeed
  have hdate := Reads.textElement hcreated (readsText_xmlEscape created)
  have hcontent := Reads.lineFeed.append (hdate.append (Reads.lineFeed.append hrun))
  have hstart : propertiesStart =
      startTag propertiesTag ++ (['\n'] ++ startTag ⟨"Created".toList, []⟩) := rfl
  have hmiddle : createdEnd = endTag "Created".toList ++ ['\n'] := rfl
  have hend : propertiesEnd = endTag propertiesTag.name ++ ['\n'] := rfl
  have htext : propertiesStart ++ xmlEscape created ++ createdEnd ++ runTitle runId ++
      propertiesEnd = startTag propertiesTag ++ (['\n'] ++ (startTag ⟨"Created".toList, []⟩ ++
        xmlEscape created ++ endTag "Created".toList ++ (['\n'] ++ runTitle runId))) ++
        endTag propertiesTag.name ++ ['\n'] := by
    rw [hstart, hmiddle, hend]
    simp only [List.append_assoc]
  rw [htext]
  exact (hcontent.element hproperties).append Reads.lineFeed

/-! ### Line ends -/

/-- A sheet with normalised line ends in its cells. -/
def Sheet.normalized (sheet : Sheet) : Sheet :=
  { sheet with rows := sheet.rows.map (List.map normalizeLineEnds) }

/-- Escaping and normalising commute: the escapes have no line ends. -/
theorem normalizeLineEnds_xmlEscape (value : Str) :
    normalizeLineEnds (xmlEscape value) = xmlEscape (normalizeLineEnds value) := by
  induction value with
  | nil => rfl
  | cons c value ih =>
      have hcons : xmlEscape (c :: value) = xmlEscapeChar c ++ xmlEscape value := rfl
      by_cases hreturn : c = '\r'
      · subst hreturn
        have hhead : (xmlEscape value).head? = some '\n' ↔ value.head? = some '\n' := by
          rcases value with _ | ⟨d, value⟩
          · rfl
          · have hstep : xmlEscape (d :: value) = xmlEscapeChar d ++ xmlEscape value := rfl
            rw [hstep, xmlEscapeChar]
            split_ifs with hand hless hgreater hquote hapos
            · subst hand; simp
            · subst hless; simp
            · subst hgreater; simp
            · subst hquote; simp
            · subst hapos; simp
            · simp
        have hescape : xmlEscapeChar '\r' = ['\r'] := by decide
        rw [hcons, hescape, List.singleton_append, normalizeLineEnds, normalizeLineEnds, ih]
        simp only [hhead, if_true]
        split_ifs <;> rfl
      · have hplain : '\r' ∉ xmlEscapeChar c := by
          rw [xmlEscapeChar]
          split_ifs <;> simp [Ne.symm hreturn]
        rw [hcons, normal_of_not_mem hplain, ih, normalizeLineEnds, if_neg hreturn]
        rfl

/-- An escaped text before a tag. -/
theorem Normal.escaped {start ending : Str} (hstart : '\r' ∉ start) (hending : '\r' ∉ ending)
    (value : Str) : Normal (start ++ xmlEscape value ++ '<' :: ending)
      (start ++ xmlEscape (normalizeLineEnds value) ++ '<' :: ending) := by
  intro rest
  have hvalue := normalizeLineEnds_append (c := '<') (by decide) (by decide) (xmlEscape value)
    (ending ++ rest)
  rw [normalizeLineEnds_xmlEscape, normal_of_not_mem hending rest] at hvalue
  rw [List.append_assoc, List.append_assoc, normal_of_not_mem hstart, List.cons_append, hvalue,
    List.append_assoc, List.append_assoc, List.cons_append]

/-- The line ends of a cell are normalised. -/
theorem normal_pushStringCell (value : Str) :
    Normal (pushStringCell value) (pushStringCell (normalizeLineEnds value)) := by
  have hend : cellEnd = '<' :: cellEnd.tail := rfl
  have hstart : '\r' ∉ cellStart := by decide
  have hending : '\r' ∉ cellEnd.tail := by decide
  rw [pushStringCell, pushStringCell, hend]
  exact Normal.escaped hstart hending value

/-- The line ends of a row are normalised. -/
theorem normal_pushRow (cells : List Str) :
    Normal (pushRow cells) (pushRow (cells.map normalizeLineEnds)) := by
  have hstart : '\r' ∉ rowStart := by decide
  have hend : '\r' ∉ rowEnd := by decide
  rw [pushRow, pushRow, List.flatMap_map]
  exact ((normal_of_not_mem hstart).append
    (Normal.flatMap fun value _ => normal_pushStringCell value)).append (normal_of_not_mem hend)

/-- A literal has no carriage return. -/
theorem not_mem_of_isLiteral {value : Str} (h : isLiteral value = true) : '\r' ∉ value :=
  fun hmem => absurd (List.all_eq_true.mp h _ hmem) (by decide)

/-- The line ends of a sheet are normalised. -/
theorem normal_sheetText {sheet : Sheet} (h : sheet.Literal) :
    Normal (sheetText sheet) (sheetText sheet.normalized) := by
  have hstart : '\r' ∉ worksheetStart := by decide
  have hname : '\r' ∉ worksheetName := by decide
  have hend : '\r' ∉ worksheetEnd := by decide
  have htableStart : '\r' ∉ tableStart := by decide
  have htableEnd : '\r' ∉ tableEnd := by decide
  have hfilters : '\r' ∉ sheet.ranges.flatMap filterText := by
    intro hmem
    obtain ⟨range, hrange, hmem⟩ := List.mem_flatMap.mp hmem
    rw [filterText, List.mem_append, List.mem_append] at hmem
    rcases hmem with (hmem | hmem) | hmem
    · exact absurd hmem (by decide)
    · exact not_mem_of_isLiteral (h.2 range hrange) hmem
    · exact absurd hmem (by decide)
  have hrows : Normal (sheet.rows.flatMap pushRow) (sheet.normalized.rows.flatMap pushRow) := by
    rw [Sheet.normalized, List.flatMap_map]
    exact Normal.flatMap fun cells _ => normal_pushRow cells
  exact ((((normal_of_not_mem hstart).append (normal_of_not_mem (not_mem_of_isLiteral h.1))).append
    (normal_of_not_mem hname)).append ((((normal_of_not_mem htableStart).append hrows).append
      (normal_of_not_mem htableEnd)).append (normal_of_not_mem hfilters))).append
        (normal_of_not_mem hend)

/-- The line ends of a title are normalised. -/
theorem normal_runTitle (runId : Str) :
    Normal (runTitle runId) (runTitle (normalizeLineEnds runId)) := by
  have hempty : normalizeLineEnds runId = [] ↔ runId = [] := by
    rcases runId with _ | ⟨c, runId⟩
    · exact Iff.rfl
    · rw [normalizeLineEnds]
      split_ifs with hreturn hfeed
      · rcases runId with _ | ⟨d, runId⟩
        · simp at hfeed
        · obtain rfl : d = '\n' := by simpa using hfeed
          simp [normalizeLineEnds]
      · simp
      · simp
  rw [runTitle, runTitle]
  simp only [hempty]
  split_ifs
  · exact normal_of_not_mem List.not_mem_nil
  · have hend : titleEnd = '<' :: titleEnd.tail := rfl
    have hstart : '\r' ∉ titleStart := by decide
    have hending : '\r' ∉ titleEnd.tail := by decide
    rw [hend]
    exact Normal.escaped hstart hending runId

/-- **The document with normalised line ends** is the document of the normalised texts. -/
theorem normal_workbookText (created runId : Str) {sheets : List Sheet}
    (h : ∀ sheet ∈ sheets, sheet.Literal) :
    Normal (workbookText created runId sheets)
      (workbookText (normalizeLineEnds created) (normalizeLineEnds runId)
        (sheets.map Sheet.normalized)) := by
  have hprolog : '\r' ∉ xmlProlog := by decide
  have hopen : '\r' ∉ workbookOpen := by decide
  have hproperties : '\r' ∉ propertiesEnd := by decide
  have hend : '\r' ∉ workbookEnd := by decide
  have hmiddle : createdEnd = '<' :: createdEnd.tail := rfl
  have hcreated : Normal (propertiesStart ++ xmlEscape created ++ createdEnd)
      (propertiesStart ++ xmlEscape (normalizeLineEnds created) ++ createdEnd) := by
    have hstart : '\r' ∉ propertiesStart := by decide
    have hending : '\r' ∉ createdEnd.tail := by decide
    rw [hmiddle]
    exact Normal.escaped hstart hending created
  have hsheets : Normal (sheets.flatMap sheetText)
      ((sheets.map Sheet.normalized).flatMap sheetText) := by
    rw [List.flatMap_map]
    exact Normal.flatMap fun sheet hsheet => normal_sheetText (h sheet hsheet)
  have hwhole := (((((normal_of_not_mem hprolog).append (normal_of_not_mem hopen)).append
    hcreated).append (normal_runTitle runId)).append (normal_of_not_mem hproperties)).append
      (hsheets.append (normal_of_not_mem hend))
  simp only [workbookText, workbookStart, List.append_assoc] at hwhole ⊢
  exact hwhole

/-! ### Admissible characters -/

/-- A text of characters a document may contain. -/
def Admissible (text : Str) : Prop :=
  ∀ c ∈ text, isChar c = true

/-- The texts of the source are checked by evaluation. -/
theorem Admissible.of_all {text : Str} (h : text.all isChar = true) : Admissible text :=
  List.all_eq_true.mp h

@[simp] theorem admissible_append {s t : Str} :
    Admissible (s ++ t) ↔ Admissible s ∧ Admissible t :=
  List.forall_mem_append

theorem admissible_flatMap {α : Type} {items : List α} {text : α → Str} :
    Admissible (items.flatMap text) ↔ ∀ a ∈ items, Admissible (text a) := by
  simp only [Admissible, List.mem_flatMap, forall_exists_index, and_imp]
  exact ⟨fun h a ha c hc => h c a ha hc, fun h c a ha hc => h a ha c hc⟩

/-- Escaping adds no inadmissible characters, and leaves those there are. -/
theorem admissible_xmlEscape {value : Str} : Admissible (xmlEscape value) ↔ Admissible value := by
  have hchar : ∀ c, Admissible (xmlEscapeChar c) ↔ isChar c = true := by
    intro c
    have hescapes : Admissible "&amp;".toList ∧ Admissible "&lt;".toList ∧
        Admissible "&gt;".toList ∧ Admissible "&quot;".toList ∧ Admissible "&apos;".toList :=
      ⟨.of_all rfl, .of_all rfl, .of_all rfl, .of_all rfl, .of_all rfl⟩
    have hspecial : isChar '&' = true ∧ isChar '<' = true ∧ isChar '>' = true ∧
        isChar '"' = true ∧ isChar '\'' = true := by
      decide
    rw [xmlEscapeChar]
    split_ifs with hand hless hgreater hquote hapos
    · subst hand; exact iff_of_true hescapes.1 hspecial.1
    · subst hless; exact iff_of_true hescapes.2.1 hspecial.2.1
    · subst hgreater; exact iff_of_true hescapes.2.2.1 hspecial.2.2.1
    · subst hquote; exact iff_of_true hescapes.2.2.2.1 hspecial.2.2.2.1
    · subst hapos; exact iff_of_true hescapes.2.2.2.2 hspecial.2.2.2.2
    · exact List.forall_mem_singleton
  rw [xmlEscape, admissible_flatMap]
  exact forall₂_congr fun c _ => hchar c

/-- The texts of the cells of a sheet are admissible. -/
def Sheet.Admissible (sheet : Sheet) : Prop :=
  ∀ row ∈ sheet.rows, ∀ cell ∈ row, SovriAgent.Admissible cell

/-- A row is admissible if its cells are. -/
theorem admissible_pushRow {cells : List Str} :
    Admissible (pushRow cells) ↔ ∀ cell ∈ cells, Admissible cell := by
  have hconstants : Admissible cellStart ∧ Admissible cellEnd ∧ Admissible rowStart ∧
      Admissible rowEnd :=
    ⟨.of_all rfl, .of_all rfl, .of_all rfl, .of_all rfl⟩
  have hcell : ∀ value, Admissible (pushStringCell value) ↔ Admissible value := by
    intro value
    rw [pushStringCell, admissible_append, admissible_append, admissible_xmlEscape]
    exact ⟨fun h => h.1.2, fun h => ⟨⟨hconstants.1, h⟩, hconstants.2.1⟩⟩
  rw [pushRow, admissible_append, admissible_append, admissible_flatMap]
  simp only [hcell]
  exact ⟨fun h => h.1.2, fun h => ⟨⟨hconstants.2.2.1, h⟩, hconstants.2.2.2⟩⟩

/-- A literal is admissible. -/
theorem admissible_of_isLiteral {value : Str} (h : isLiteral value = true) :
    Admissible value := by
  intro c hc
  have hliteral := List.all_eq_true.mp h c hc
  simp only [Bool.and_eq_true] at hliteral
  exact hliteral.1.1.1.1

/-- A sheet is admissible if its cells are. -/
theorem admissible_sheetText {sheet : Sheet} (h : sheet.Literal) :
    Admissible (sheetText sheet) ↔ sheet.Admissible := by
  have hworksheet : Admissible worksheetStart ∧ Admissible worksheetName ∧
      Admissible worksheetEnd ∧ Admissible tableStart ∧ Admissible tableEnd :=
    ⟨.of_all rfl, .of_all rfl, .of_all rfl, .of_all rfl, .of_all rfl⟩
  have hfilter : Admissible filterStart ∧ Admissible filterEnd := ⟨.of_all rfl, .of_all rfl⟩
  have hranges : Admissible (sheet.ranges.flatMap filterText) := by
    refine admissible_flatMap.mpr fun range hrange => ?_
    rw [filterText, admissible_append, admissible_append]
    exact ⟨⟨hfilter.1, admissible_of_isLiteral (h.2 range hrange)⟩, hfilter.2⟩
  have hrows : Admissible (sheet.rows.flatMap pushRow) ↔ sheet.Admissible :=
    admissible_flatMap.trans (forall₂_congr fun _ _ => admissible_pushRow)
  simp only [sheetText, pushWorksheet, admissible_append, hrows, hworksheet, hranges,
    admissible_of_isLiteral h.1, true_and, and_true]

/-- The admissible documents are those of admissible texts. -/
theorem admissible_workbookText {created runId : Str} {sheets : List Sheet}
    (h : ∀ sheet ∈ sheets, sheet.Literal) :
    Admissible (workbookText created runId sheets) ↔
      Admissible created ∧ Admissible runId ∧ ∀ sheet ∈ sheets, sheet.Admissible := by
  have hconstants : Admissible xmlProlog ∧ Admissible workbookOpen ∧ Admissible propertiesStart ∧
      Admissible createdEnd ∧ Admissible propertiesEnd ∧ Admissible workbookEnd :=
    ⟨.of_all rfl, .of_all rfl, .of_all rfl, .of_all rfl, .of_all rfl, .of_all rfl⟩
  have htitle : Admissible titleStart ∧ Admissible titleEnd := ⟨.of_all rfl, .of_all rfl⟩
  have hrun : Admissible (runTitle runId) ↔ Admissible runId := by
    rw [runTitle]
    split_ifs with hempty
    · rw [hempty]
    · simp only [admissible_append, admissible_xmlEscape, htitle, true_and, and_true]
  have hsheets : Admissible (sheets.flatMap sheetText) ↔ ∀ sheet ∈ sheets, sheet.Admissible :=
    admissible_flatMap.trans (forall₂_congr fun sheet hsheet => admissible_sheetText (h sheet hsheet))
  simp only [workbookText, workbookStart, admissible_append, admissible_xmlEscape, hrun, hsheets,
    hconstants, true_and, and_true, and_assoc]

/-! ### Reading the document -/

/-- **The document of admissible texts** is well-formed, and read with normalised line ends. -/
theorem parseDocument_workbookText {created runId : Str} {sheets : List Sheet}
    (h : ∀ sheet ∈ sheets, sheet.Literal)
    (hchars : Admissible (workbookText created runId sheets)) :
    parseDocument (workbookText created runId sheets) =
      some (workbookRoot (normalizeLineEnds created) (normalizeLineEnds runId)
        (sheets.map Sheet.normalized)) := by
  have hworkbook : workbookTag.Valid := ⟨by decide, by decide, by decide⟩
  have hliteral : ∀ sheet ∈ sheets.map Sheet.normalized, sheet.Literal := by
    intro sheet hsheet
    obtain ⟨original, horiginal, rfl⟩ := List.mem_map.mp hsheet
    exact h original horiginal
  have hcontent := (Reads.lineFeed.append (reads_properties (normalizeLineEnds created)
    (normalizeLineEnds runId))).append
      (Reads.flatMap fun sheet hsheet => reads_sheetText (hliteral sheet hsheet))
  have hprolog : State.initial.feed
      "\n<?mso-application progid=\"Excel.Sheet\"?>\n".toList = some State.initial := rfl
  have hall : (workbookText created runId sheets).all isChar = true := List.all_eq_true.mpr hchars
  refine parseDocument_eq hall ?_ hprolog hworkbook hcontent
  have hstart : xmlProlog =
      declaration ++ "\n<?mso-application progid=\"Excel.Sheet\"?>\n".toList := rfl
  have hopen : workbookOpen = startTag workbookTag ++ ['\n'] := rfl
  have hend : workbookEnd = endTag workbookTag.name ++ ['\n'] := rfl
  have hnormal := normal_workbookText created runId h
  simp only [workbookText, workbookStart, hstart, hopen, hend, List.append_assoc] at hnormal ⊢
  exact hnormal

end SovriAgent
