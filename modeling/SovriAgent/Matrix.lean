import SovriAgent.SignedJson

/-!
# The Compliance Matrix

The spreadsheet export: one `Workbook` document with a sheet for the controls, the results,
the gaps, the evidence, the frameworks and the summary of the scores. The source appends to
an output buffer; the functions here return the text they append. The numbers of `usize` and
`u32` that are rendered are natural numbers.

`frameworkSourceUrl` of the signed export is the function of the same name here.

## Main results

* `matrixExport`: the document.
-/

namespace SovriAgent

/-! ### Cells and rows -/

/-- The escape of one character. -/
def xmlEscapeChar (c : Char) : Str :=
  if c = '&' then "&amp;".toList
  else if c = '<' then "&lt;".toList
  else if c = '>' then "&gt;".toList
  else if c = '"' then "&quot;".toList
  else if c = '\'' then "&apos;".toList
  else [c]

/-- Escapes the five metacharacters. -/
def xmlEscape (value : Str) : Str :=
  value.flatMap xmlEscapeChar

/-- What stands before the text of a cell. -/
def cellStart : Str := "<Cell><Data ss:Type=\"String\">".toList

/-- What stands after the text of a cell. -/
def cellEnd : Str := "</Data></Cell>".toList

/-- A cell with a text. -/
def pushStringCell (value : Str) : Str :=
  cellStart ++ xmlEscape value ++ cellEnd

/-- What stands before the cells of a row. -/
def rowStart : Str := "<Row>".toList

/-- What stands after the cells of a row. -/
def rowEnd : Str := "</Row>\n".toList

/-- A row of cells. -/
def pushRow (cells : List Str) : Str :=
  rowStart ++ cells.flatMap pushStringCell ++ rowEnd

/-- What stands before the rows of a table. -/
def tableStart : Str := "<Table>\n".toList

/-- What stands after the rows of a table. -/
def tableEnd : Str := "</Table>\n".toList

/-- The table of an empty section: its header, and a row that says why it is empty. -/
def pushEmptyTable (header : List Str) (placeholder : Option Str) : Str :=
  tableStart ++ pushRow header ++
    (match placeholder with
      | some text => pushRow [text]
      | none => []) ++ tableEnd

/-- The namespace of the filter. -/
def excelNamespace : Str :=
  "urn:schemas-microsoft-com:office:excel".toList

/-- The range of a filter over all rows and columns. -/
def filterRange (rowCount columnCount : ℕ) : Str :=
  "R1C1:R".toList ++ decimal rowCount ++ 'C' :: decimal columnCount

/-- What stands before the range of a filter. -/
def filterStart : Str := "<AutoFilter x:Range=\"".toList

/-- What stands after the range of a filter. -/
def filterEnd : Str := "\" xmlns:x=\"".toList ++ excelNamespace ++ "\"/>\n".toList

/-- The filter of a range. -/
def filterText (range : Str) : Str :=
  filterStart ++ range ++ filterEnd

/-- The filter over the header and the rows below it. -/
def pushAutofilter (rowCount columnCount : ℕ) : Str :=
  filterText (filterRange rowCount columnCount)

/-- A table of a header and some rows (the loops of the source). -/
def pushTable (header : List Str) (rows : List (List Str)) : Str :=
  tableStart ++ pushRow header ++ rows.flatMap pushRow ++ tableEnd

/-! ### The sheets -/

/-- The columns of the controls. -/
def controlsHeader : List Str :=
  ["Framework".toList, "Control".toList, "Title".toList, "Severity".toList, "Weight".toList,
    "Applicability".toList, "Applicability reason".toList]

/-- The columns of the results. -/
def resultsHeader : List Str :=
  ["Framework".toList, "Control".toList, "Rule".toList, "Status".toList, "Severity".toList,
    "Score impact".toList, "Evidence ids".toList, "Remediation".toList, "Applicability".toList]

/-- The columns of the gaps. -/
def gapsHeader : List Str :=
  ["Gap id".toList, "Framework".toList, "Control".toList, "Rule".toList, "Reference".toList,
    "Source URL".toList, "Severity".toList, "Gap type".toList, "Evidence ids".toList,
    "Remediation".toList]

/-- The columns of the evidence. -/
def evidenceHeader : List Str :=
  ["Evidence id".toList, "Type".toList, "Location".toList, "Collector".toList,
    "Integrity".toList, "Redaction status".toList]

/-- The columns of the frameworks. -/
def frameworksHeader : List Str :=
  ["Framework".toList, "Version".toList, "Source URL".toList]

/-- The columns of the summary. -/
def summaryHeader : List Str :=
  ["Framework".toList, "Status".toList, "Count".toList]

/-- The cells of a control. -/
def controlCells (control : Control) : List Str :=
  [control.frameworkId, control.id, control.title, control.severity,
    decimal control.weight.toNat, "applicable".toList, []]

/-- The controls sheet. -/
def pushControlsTable (controls : List Control) : Str :=
  if controls = [] then pushEmptyTable controlsHeader none
  else
    pushTable controlsHeader (controls.map controlCells) ++
      pushAutofilter (controls.length + 1) controlsHeader.length

/-- The results by control id, then rule id. -/
def resultsInReportingOrder (results : List ScopedResult) : List ScopedResult :=
  sortBy (leThen (·.result.controlId) (·.result.ruleId)) results

/-- The applicability of a result. -/
def applicabilityFor (status : Status) : Str :=
  if status = .skipped then "not applicable".toList else "applicable".toList

/-- Evidence ids separated by a comma and a blank (`join`). -/
def joinEvidenceRefs (evidenceRefs : List Str) : Str :=
  ", ".toList.intercalate evidenceRefs

/-- The cells of a result. -/
def resultCells (item : ScopedResult) : List Str :=
  [item.frameworkId.getD [], item.result.controlId, item.result.ruleId, item.result.status.label,
    item.result.severity, [], joinEvidenceRefs item.result.evidenceRefs, [],
    applicabilityFor item.result.status]

/-- The results sheet. -/
def pushResultsTable (results : List ScopedResult) : Str :=
  if results = [] then pushEmptyTable resultsHeader none
  else
    pushTable resultsHeader ((resultsInReportingOrder results).map resultCells) ++
      pushAutofilter (results.length + 1) resultsHeader.length

/-- The framework and the result of a gap: a result of a framework that failed or warned. -/
def gapOf (item : ScopedResult) : Option (Str × ControlResult) :=
  item.frameworkId.bind fun frameworkId =>
    if item.result.status = .fail ∨ item.result.status = .warning then
      some (frameworkId, item.result)
    else none

/-- A gap is the framework and the result of a scoped result. -/
theorem gapOf_eq_some {item : ScopedResult} {gap : Str × ControlResult}
    (h : gapOf item = some gap) : item.frameworkId = some gap.1 ∧ item.result = gap.2 := by
  obtain ⟨frameworkId, hframework, hgap⟩ := Option.bind_eq_some_iff.mp h
  split_ifs at hgap
  obtain rfl := Option.some.inj hgap
  exact ⟨hframework, rfl⟩

/-- The reference of the catalogued control a gap is on; empty when it is not catalogued. -/
def gapReference (controls : List Control) (frameworkId controlId : Str) : Str :=
  match controls.find? fun c => c.frameworkId = frameworkId ∧ c.id = controlId with
  | some control => control.reference
  | none => []

/-- The cells of a gap. -/
def gapCells (controls : List Control) (frameworks : List Framework)
    (gap : Str × ControlResult) : List Str :=
  [gap.1 ++ ':' :: (gap.2.controlId ++ ':' :: gap.2.ruleId), gap.1, gap.2.controlId, gap.2.ruleId,
    gapReference controls gap.1 gap.2.controlId, frameworkSourceUrl frameworks gap.1,
    gap.2.severity, gap.2.status.label, joinEvidenceRefs gap.2.evidenceRefs, []]

/-- The row of a sheet of gaps without gaps. -/
def noGapsPlaceholder : Str :=
  "No potential gaps observed".toList

/-- The gaps sheet. -/
def pushGapsTable (results : List ScopedResult) (controls : List Control)
    (frameworks : List Framework) : Str :=
  let gaps := (resultsInReportingOrder results).filterMap gapOf
  if gaps = [] then pushEmptyTable gapsHeader (some noGapsPlaceholder)
  else
    pushTable gapsHeader (gaps.map (gapCells controls frameworks)) ++
      pushAutofilter (gaps.length + 1) gapsHeader.length

/-- The integrity of a record without a digest. -/
def integrityUnavailable : Str :=
  "integrity metadata not available".toList

/-- The cells of an evidence record. -/
def evidenceCells (record : Evidence) : List Str :=
  [record.id, record.kind, record.location, [],
    if record.integrity = [] then integrityUnavailable else record.integrity,
    redactionStatus record.classification]

/-- The row of a sheet of evidence without evidence. -/
def noEvidencePlaceholder : Str :=
  "No evidence records were collected".toList

/-- The evidence sheet. -/
def pushEvidenceTable (evidence : List Evidence) : Str :=
  if evidence = [] then pushEmptyTable evidenceHeader (some noEvidencePlaceholder)
  else pushTable evidenceHeader (evidence.map evidenceCells)

/-- The cells of a framework. -/
def frameworkCells (framework : Framework) : List Str :=
  [framework.id, framework.version, framework.sourceUrl]

/-- The frameworks sheet. -/
def pushFrameworksTable (frameworks : List Framework) : Str :=
  if frameworks = [] then pushEmptyTable frameworksHeader none
  else pushTable frameworksHeader (frameworks.map frameworkCells)

/-! ### The summary -/

/-- The statuses the summary tallies, in their order. -/
def summaryStatusOrder : List Status :=
  [.pass, .fail, .warning, .skipped, .error]

/-- The number of results of a status. -/
def StatusCounts.statusCount (counts : StatusCounts) : Status → ℕ
  | .pass => counts.pass
  | .fail => counts.fail
  | .warning => counts.warning
  | .skipped => counts.skipped
  | .error => counts.error

section Summary

variable {sdk : Scoring}

/-- The cells of the statuses of a framework that have results. -/
def statusCountRows (framework : FrameworkScore sdk.Ratio) : List (List Str) :=
  summaryStatusOrder.filterMap fun status =>
    let count := framework.counts.statusCount status
    if 0 < count then some [framework.frameworkId, status.label, decimal count] else none

/-- The cells of the score of a control. -/
def controlScoreRow (control : ControlScore) : List Str :=
  ["Control score".toList, control.controlId, control.ruleId, control.status.label]

/-- The cells of the score of a framework. -/
def frameworkScoreRow (sdk : Scoring) (framework : FrameworkScore sdk.Ratio) : List Str :=
  ["Framework score".toList, framework.frameworkId, sdk.render framework.ratio]

/-- The rows of the scores of a framework. -/
def frameworkScoreRows (sdk : Scoring) (framework : FrameworkScore sdk.Ratio) :
    List (List Str) :=
  framework.controls.map controlScoreRow ++ [frameworkScoreRow sdk framework]

/-- The cells of the score of the environment. -/
def environmentScoreRow (sdk : Scoring) (environment : EnvironmentScore sdk.Ratio) : List Str :=
  ["Environment score".toList, sdk.render environment.ratio]

/-- The row that marks the scores as incomplete. -/
def scoresIncompleteRow : List Str :=
  ["Scores are incomplete: an ERROR result was excluded".toList]

/-- The rows below the header: the tally, the scores, and the marker. -/
def summaryRows (sdk : Scoring) (environment : EnvironmentScore sdk.Ratio) : List (List Str) :=
  environment.frameworks.flatMap statusCountRows ++
    environment.frameworks.flatMap (frameworkScoreRows sdk) ++
    [environmentScoreRow sdk environment] ++
    if environment.incomplete then [scoresIncompleteRow] else []

end Summary

/-- The row of a summary without scores. -/
def noScoresPlaceholder : Str :=
  "Scores are not available for this run".toList

/-- The row of a summary without results. -/
def noControlsPlaceholder : Str :=
  "No controls were evaluated".toList

/-- The environment score of some results. -/
def environmentScore (sdk : Scoring) (results : List ScopedResult) : EnvironmentScore sdk.Ratio :=
  sdk.compute (scoringCatalog results) (results.map (·.result))

/-- The summary sheet. -/
def pushSummaryTable (sdk : Scoring) (results : List ScopedResult) : Str :=
  let environment := environmentScore sdk results
  if environment.frameworks.isEmpty then
    pushEmptyTable summaryHeader
      (some (if results = [] then noControlsPlaceholder else noScoresPlaceholder))
  else pushTable summaryHeader (summaryRows sdk environment)

/-! ### The document -/

/-- What stands before the name of a worksheet. -/
def worksheetStart : Str := "<Worksheet ss:Name=\"".toList

/-- What stands between the name and the table of a worksheet. -/
def worksheetName : Str := "\">\n".toList

/-- What stands after the table of a worksheet. -/
def worksheetEnd : Str := "</Worksheet>\n".toList

/-- The worksheet of a name with its table. -/
def pushWorksheet (name table : Str) : Str :=
  worksheetStart ++ name ++ worksheetName ++ table ++ worksheetEnd

/-- The declaration, and the instruction that names the application. -/
def xmlProlog : Str :=
  "<?xml version=\"1.0\"?>\n<?mso-application progid=\"Excel.Sheet\"?>\n".toList

/-- The start of the workbook. -/
def workbookOpen : Str :=
  "<Workbook xmlns=\"urn:schemas-microsoft-com:office:spreadsheet\"".toList ++
    " xmlns:ss=\"urn:schemas-microsoft-com:office:spreadsheet\">\n".toList

/-- The start of the document properties, up to the date. -/
def propertiesStart : Str :=
  "<DocumentProperties xmlns=\"urn:schemas-microsoft-com:office:office\">\n<Created>".toList

/-- What stands after the date. -/
def createdEnd : Str := "</Created>\n".toList

/-- The end of the document properties. -/
def propertiesEnd : Str := "</DocumentProperties>\n".toList

/-- The text before the worksheets. -/
def workbookStart (created runProperty : Str) : Str :=
  xmlProlog ++ workbookOpen ++ propertiesStart ++ created ++ createdEnd ++ runProperty ++
    propertiesEnd

/-- What stands before the title. -/
def titleStart : Str := "<Title>".toList

/-- What stands after the title. -/
def titleEnd : Str := "</Title>\n".toList

/-- The title of a run that has an id. -/
def runTitle (runId : Str) : Str :=
  if runId = [] then [] else titleStart ++ xmlEscape runId ++ titleEnd

/-- The end of the workbook. -/
def workbookEnd : Str := "</Workbook>\n".toList

/-- Exports the corpus as a flat workbook document (`export`). -/
def matrixExport (sdk : Scoring) (corpus : Corpus) : Str :=
  workbookStart (xmlEscape corpus.executedAt) (runTitle corpus.runId) ++
    (pushWorksheet "Controls".toList (pushControlsTable corpus.controls) ++
      pushWorksheet "Results".toList (pushResultsTable corpus.results) ++
      pushWorksheet "Gaps".toList
        (pushGapsTable corpus.results corpus.controls corpus.frameworks) ++
      pushWorksheet "Evidence".toList (pushEvidenceTable corpus.evidence) ++
      pushWorksheet "Frameworks".toList (pushFrameworksTable corpus.frameworks) ++
      pushWorksheet "Summary".toList (pushSummaryTable sdk corpus.results)) ++
    workbookEnd

end SovriAgent
