import SovriAgent.RowId

/-!
# The PDF Writer

The report is a list of text lines, written as a PDF of numbered objects: the catalog, the
list of pages, the font, and for every page the page and the stream of its content. The
writer counts the bytes it hands to the sink; the counts become the cross-reference table,
and a function of its own computes the length of a stream before it is written.

The sink is a vector, which does not fail. The byte strings of the source are ASCII and are
texts here.

## Main results

* `pageContentLen_eq`: the computed length of a stream is the length of what is written.
* `Laid.writeObject`: what is known of the file after one more object.
* `writePdfWithSettings_correct`: every file written is structurally correct.
-/

namespace SovriAgent

/-! ### The counting writer -/

/-- A sink with the number of bytes written to it. -/
structure CountingWriter where
  sink : List UInt8
  offset : ℕ

/-- A writer before anything is written. -/
def CountingWriter.new : CountingWriter :=
  ⟨[], 0⟩

/-- Writes a text. -/
def CountingWriter.writeStr (writer : CountingWriter) (value : Str) : CountingWriter where
  sink := writer.sink ++ utf8 value
  offset := writer.offset + byteLen value

@[simp] theorem CountingWriter.writeStr_writeStr (writer : CountingWriter) (s t : Str) :
    (writer.writeStr s).writeStr t = writer.writeStr (s ++ t) := by
  simp [writeStr, utf8, Nat.add_assoc]

/-- A text stands at an offset of a file. -/
def FoundAt (file : List UInt8) (offset : ℕ) (text : Str) : Prop :=
  utf8 text <+: file.drop offset

/-- What stands in a file still does when more is written. -/
theorem FoundAt.append {file : List UInt8} {offset : ℕ} {text : Str}
    (h : FoundAt file offset text) (more : List UInt8) : FoundAt (file ++ more) offset text := by
  rw [FoundAt, List.drop_append]
  exact h.trans (List.prefix_append _ _)

/-- What is written stands where the writer was. -/
theorem foundAt_writeStr {writer : CountingWriter} (h : writer.offset = writer.sink.length)
    (text : Str) : FoundAt (writer.writeStr text).sink writer.offset text := by
  rw [FoundAt, CountingWriter.writeStr, h, List.drop_append, List.drop_length, List.nil_append,
    Nat.sub_self, List.drop_zero]

/-! ### Settings and pages -/

/-- The page and text settings of the renderer. -/
structure PdfSettings where
  pageWidthPoints : UInt16
  pageHeightPoints : UInt16
  leftMarginPoints : UInt16
  topBaselinePoints : UInt16
  bottomMarginPoints : UInt16
  fontResource : Str
  baseFont : Str
  fontSizePoints : UInt8
  lineHeightPoints : UInt8

/-- The settings of the reports. -/
def PdfSettings.default : PdfSettings where
  pageWidthPoints := 612
  pageHeightPoints := 792
  leftMarginPoints := 72
  topBaselinePoints := 760
  bottomMarginPoints := 72
  fontResource := "F1".toList
  baseFont := "Helvetica".toList
  fontSizePoints := 10
  lineHeightPoints := 14

/-- The chunks of a list of at most the given positive length, taking at most `fuel`. -/
def chunksFuel {α : Type} (size : ℕ) : ℕ → List α → List (List α)
  | 0, _ => []
  | _ + 1, [] => []
  | fuel + 1, a :: items =>
      (a :: items).take size :: chunksFuel size fuel ((a :: items).drop size)

/-- The chunks of a list of a positive length (`chunks`); the last one may be shorter. -/
def chunks {α : Type} (size : ℕ) (items : List α) : List (List α) :=
  chunksFuel size items.length items

theorem flatten_chunksFuel {α : Type} {size fuel : ℕ} (hsize : 0 < size) {items : List α}
    (h : items.length ≤ fuel) : (chunksFuel size fuel items).flatten = items := by
  induction fuel generalizing items with
  | zero =>
      rw [List.eq_nil_of_length_eq_zero (Nat.le_zero.mp h)]
      rfl
  | succ fuel ih =>
      rcases items with _ | ⟨a, items⟩
      · rfl
      · have hrest : ((a :: items).drop size).length ≤ fuel := by
          rw [List.length_drop]
          omega
        rw [chunksFuel, List.flatten_cons, ih hrest, List.take_append_drop]

/-- Why a report is not rendered; the division aborts the process. -/
inductive PdfError where
  | pageCountOverflow
  | divisionByZero
  deriving DecidableEq

/-- How many lines fit on a page. The subtraction saturates. -/
def linesPerPage (settings : PdfSettings) : Except PdfError ℕ :=
  if settings.lineHeightPoints = 0 then .error .divisionByZero
  else
    .ok ((settings.topBaselinePoints.toNat - settings.bottomMarginPoints.toNat) /
      settings.lineHeightPoints.toNat + 1)

/-- The lines of each page; there is at least one page. -/
def paginateLines (lines : List Str) (settings : PdfSettings) :
    Except PdfError (List (List Str)) := do
  let size ← linesPerPage settings
  if lines = [] then pure [lines] else pure (chunks (max size 1) lines)

/-- **The pages hold the lines**, none lost, repeated or reordered. -/
theorem paginateLines_ok (lines : List Str) {settings : PdfSettings}
    (h : settings.lineHeightPoints ≠ 0) :
    ∃ pages, paginateLines lines settings = .ok pages ∧ pages.flatten = lines := by
  rw [paginateLines, linesPerPage, if_neg h]
  by_cases hempty : lines = []
  · exact ⟨[lines], if_pos hempty, by rw [hempty]; rfl⟩
  · exact ⟨_, if_neg hempty,
      flatten_chunksFuel (lt_max_of_lt_right Nat.one_pos) (Nat.le_refl _)⟩

/-! ### Object numbers -/

/-- A number, if it fits (`usize`). -/
def checkedSize (n : ℕ) : Except PdfError ℕ :=
  if n ≤ usizeMax then .ok n else .error .pageCountOverflow

/-- The number of objects of a file: three, and two for each page. -/
def pdfObjectCount (pageCount : ℕ) : Except PdfError ℕ := do
  let pageObjects ← checkedSize (pageCount * 2)
  checkedSize (3 + pageObjects)

/-- The object number of a page. -/
def pageObjectNumber (index : ℕ) : Except PdfError ℕ := do
  let offset ← checkedSize (index * 2)
  checkedSize (4 + offset)

/-- The object number of the content of a page. -/
def contentObjectNumber (index : ℕ) : Except PdfError ℕ := do
  let number ← pageObjectNumber index
  checkedSize (number + 1)

/-- A computation that goes on after a result. -/
theorem ok_bind {ε α β : Type} (a : α) (f : α → Except ε β) : (Except.ok a >>= f) = f a := rfl

theorem checkedSize_eq {n : ℕ} (h : n ≤ usizeMax) : checkedSize n = .ok n :=
  if_pos h

theorem pdfObjectCount_eq {pageCount : ℕ} (h : 3 + pageCount * 2 ≤ usizeMax) :
    pdfObjectCount pageCount = .ok (3 + pageCount * 2) := by
  rw [pdfObjectCount, checkedSize_eq (by omega)]
  exact checkedSize_eq h

theorem pdfObjectCount_error {pageCount : ℕ} (h : usizeMax < 3 + pageCount * 2) :
    pdfObjectCount pageCount = .error .pageCountOverflow := by
  rw [pdfObjectCount]
  by_cases hpages : pageCount * 2 ≤ usizeMax
  · rw [checkedSize_eq hpages]
    exact if_neg (not_le.mpr h)
  · rw [checkedSize, if_neg hpages]
    rfl

theorem pageObjectNumber_eq {index : ℕ} (h : 5 + index * 2 ≤ usizeMax) :
    pageObjectNumber index = .ok (4 + index * 2) := by
  rw [pageObjectNumber, checkedSize_eq (by omega)]
  exact checkedSize_eq (by omega)

theorem contentObjectNumber_eq {index : ℕ} (h : 5 + index * 2 ≤ usizeMax) :
    contentObjectNumber index = .ok (5 + index * 2) := by
  rw [contentObjectNumber, pageObjectNumber_eq h]
  exact (checkedSize_eq (by omega)).trans (congrArg Except.ok (by omega))

/-! ### Texts in content streams -/

/-- Whether a character is a control character (`is_control`). -/
def isControl (c : Char) : Bool :=
  c.toNat < 0x20 || (0x7f ≤ c.toNat && c.toNat < 0xa0)

/-- Writes one escaped character. -/
def writeEscapedChar (writer : CountingWriter) (c : Char) : CountingWriter :=
  if c = '(' ∨ c = ')' ∨ c = '\\' then (writer.writeStr ['\\']).writeStr [c]
  else if c = '\n' then writer.writeStr ['\\', 'n']
  else if c = '\r' then writer.writeStr ['\\', 'r']
  else if c = '\t' then writer.writeStr ['\\', 't']
  else if c = '\x08' then writer.writeStr ['\\', 'b']
  else if c = '\x0c' then writer.writeStr ['\\', 'f']
  else if isControl c then writer.writeStr [' ']
  else writer.writeStr [c]

/-- Writes an escaped text. -/
def writeEscapedPdfText (writer : CountingWriter) (raw : Str) : CountingWriter :=
  raw.foldl writeEscapedChar writer

/-- The number of bytes one character is written as. -/
def escapedCharLen (c : Char) : ℕ :=
  if c = '(' ∨ c = ')' ∨ c = '\\' ∨ c = '\n' ∨ c = '\r' ∨ c = '\t' ∨ c = '\x08' ∨ c = '\x0c' then 2
  else if isControl c then 1
  else c.utf8Size

/-- The number of bytes a text is written as. -/
def escapedPdfTextLen (raw : Str) : ℕ :=
  (raw.map escapedCharLen).sum

/-- The beginning of a content stream: font and position. -/
def contentStart (settings : PdfSettings) : Str :=
  "BT\n/".toList ++ settings.fontResource ++ " ".toList ++
    decimal settings.fontSizePoints.toNat ++ " Tf\n".toList ++
    decimal settings.leftMarginPoints.toNat ++ " ".toList ++
    decimal settings.topBaselinePoints.toNat ++ " Td\n".toList

/-- What follows the text of a line: it is shown, and the next line is below it. -/
def lineEnd (settings : PdfSettings) : Str :=
  ") Tj\n0 -".toList ++ decimal settings.lineHeightPoints.toNat ++ " Td\n".toList

/-- The number of bytes of a content stream. -/
def pageContentLen (lines : List Str) (settings : PdfSettings) : ℕ :=
  lines.foldl (fun length line =>
    length + 1 + escapedPdfTextLen line + byteLen (lineEnd settings))
    (byteLen (contentStart settings)) + byteLen "ET\n".toList

/-- Writes a content stream. -/
def writePageContent (writer : CountingWriter) (lines : List Str) (settings : PdfSettings) :
    CountingWriter :=
  (lines.foldl (fun writer line =>
    (writeEscapedPdfText (writer.writeStr ['(']) line).writeStr (lineEnd settings))
    (writer.writeStr (contentStart settings))).writeStr "ET\n".toList

/-- A character as it stands in a content stream. -/
def escapedChar (c : Char) : Str :=
  if c = '(' ∨ c = ')' ∨ c = '\\' then ['\\', c]
  else if c = '\n' then ['\\', 'n']
  else if c = '\r' then ['\\', 'r']
  else if c = '\t' then ['\\', 't']
  else if c = '\x08' then ['\\', 'b']
  else if c = '\x0c' then ['\\', 'f']
  else if isControl c then [' ']
  else [c]

/-- A line as it stands in a content stream. -/
def contentLine (settings : PdfSettings) (line : Str) : Str :=
  '(' :: (line.flatMap escapedChar ++ lineEnd settings)

/-- The content stream of a page. -/
def pageContent (lines : List Str) (settings : PdfSettings) : Str :=
  contentStart settings ++ lines.flatMap (contentLine settings) ++ "ET\n".toList

theorem writeEscapedChar_eq (writer : CountingWriter) (c : Char) :
    writeEscapedChar writer c = writer.writeStr (escapedChar c) := by
  rw [writeEscapedChar, escapedChar]
  split_ifs
  · exact CountingWriter.writeStr_writeStr _ _ _
  all_goals rfl

theorem writeEscapedPdfText_eq (writer : CountingWriter) (raw : Str) :
    writeEscapedPdfText writer raw = writer.writeStr (raw.flatMap escapedChar) := by
  induction raw generalizing writer with
  | nil => simp [writeEscapedPdfText, CountingWriter.writeStr, utf8]
  | cons c raw ih =>
      have hstep : writeEscapedPdfText writer (c :: raw) =
          writeEscapedPdfText (writeEscapedChar writer c) raw := rfl
      rw [hstep, writeEscapedChar_eq, ih, CountingWriter.writeStr_writeStr, List.flatMap_cons]

/-- What the content writer writes. -/
theorem writePageContent_eq (writer : CountingWriter) (lines : List Str)
    (settings : PdfSettings) :
    writePageContent writer lines settings = writer.writeStr (pageContent lines settings) := by
  have hlines : ∀ writer : CountingWriter, lines.foldl (fun writer line =>
      (writeEscapedPdfText (writer.writeStr ['(']) line).writeStr (lineEnd settings)) writer =
      writer.writeStr (lines.flatMap (contentLine settings)) := by
    induction lines with
    | nil => simp [CountingWriter.writeStr, utf8]
    | cons line lines ih =>
        intro writer
        rw [List.foldl_cons, ih, writeEscapedPdfText_eq, CountingWriter.writeStr_writeStr,
          CountingWriter.writeStr_writeStr, CountingWriter.writeStr_writeStr, List.flatMap_cons,
          contentLine]
        simp
  rw [writePageContent, hlines, CountingWriter.writeStr_writeStr,
    CountingWriter.writeStr_writeStr, pageContent, List.append_assoc]

theorem byteLen_escapedChar (c : Char) : byteLen (escapedChar c) = escapedCharLen c := by
  rw [escapedCharLen]
  split
  · next hescaped => rcases hescaped with rfl | rfl | rfl | rfl | rfl | rfl | rfl | rfl <;> rfl
  · next hescaped =>
      simp only [not_or] at hescaped
      obtain ⟨hopen, hclose, hbackslash, hletter⟩ := hescaped
      rw [escapedChar, if_neg (by tauto), if_neg hletter.1, if_neg hletter.2.1,
        if_neg hletter.2.2.1, if_neg hletter.2.2.2.1, if_neg hletter.2.2.2.2]
      split
      · rfl
      · simp

theorem byteLen_escaped (raw : Str) :
    byteLen (raw.flatMap escapedChar) = escapedPdfTextLen raw := by
  induction raw with
  | nil => rfl
  | cons c raw ih =>
      rw [List.flatMap_cons, byteLen_append, byteLen_escapedChar, ih, escapedPdfTextLen,
        escapedPdfTextLen, List.map_cons, List.sum_cons]

/-- **The computed length of a stream** is the length of what is written, whatever the
characters of its lines. -/
theorem pageContentLen_eq (lines : List Str) (settings : PdfSettings) :
    pageContentLen lines settings = byteLen (pageContent lines settings) := by
  have hlines : ∀ start : ℕ, lines.foldl (fun length line =>
      length + 1 + escapedPdfTextLen line + byteLen (lineEnd settings)) start =
      start + byteLen (lines.flatMap (contentLine settings)) := by
    induction lines with
    | nil => intro start; rfl
    | cons line lines ih =>
        intro start
        have hline : byteLen (contentLine settings line) =
            1 + escapedPdfTextLen line + byteLen (lineEnd settings) := by
          rw [contentLine, byteLen_cons, byteLen_append, byteLen_escaped, Nat.add_assoc]
          rfl
        rw [List.foldl_cons, ih, List.flatMap_cons, byteLen_append, hline]
        omega
  rw [pageContentLen, hlines, pageContent, byteLen_append, byteLen_append]

/-! ### Objects -/

/-- The state of the renderer: the writer, and the offsets of the objects so far. -/
structure PdfState where
  writer : CountingWriter
  offsets : List ℕ

/-- Writes an object and notes its offset. -/
def writeObject (state : PdfState) (objectNumber : ℕ)
    (writeBody : CountingWriter → Except PdfError CountingWriter) : Except PdfError PdfState := do
  let offsets := state.offsets ++ [state.writer.offset]
  let writer ← writeBody (state.writer.writeStr (decimal objectNumber ++ " 0 obj\n".toList))
  pure ⟨writer.writeStr "endobj\n".toList, offsets⟩

/-- Writes the reference to a page. -/
def writeKid (writer : CountingWriter) (index : ℕ) : Except PdfError CountingWriter := do
  let writer := if 0 < index then writer.writeStr " ".toList else writer
  let number ← pageObjectNumber index
  pure (writer.writeStr (decimal number ++ " 0 R".toList))

/-- Writes the list of pages. -/
def writeKids (pageCount : ℕ) (writer : CountingWriter) : Except PdfError CountingWriter := do
  let writer ← (List.range pageCount).foldlM writeKid
    (writer.writeStr "<< /Type /Pages /Kids [".toList)
  pure (writer.writeStr ("] /Count ".toList ++ decimal pageCount ++ " >>\n".toList))

/-- The catalog. -/
def catalogBody : Str :=
  "<< /Type /Catalog /Pages 2 0 R >>\n".toList

/-- The font. -/
def fontBody (settings : PdfSettings) : Str :=
  "<< /Type /Font /Subtype /Type1 /BaseFont /".toList ++ settings.baseFont ++ " >>\n".toList

/-- A page with its content. -/
def pageBody (settings : PdfSettings) (contentObject : ℕ) : Str :=
  "<< /Type /Page /Parent 2 0 R /MediaBox [0 0 ".toList ++
    decimal settings.pageWidthPoints.toNat ++ " ".toList ++
    decimal settings.pageHeightPoints.toNat ++ "] /Resources << /Font << /".toList ++
    settings.fontResource ++ " 3 0 R >> >> /Contents ".toList ++ decimal contentObject ++
    " 0 R >>\n".toList

/-- Writes the content of a page as a stream. -/
def writeContent (settings : PdfSettings) (lines : List Str) (writer : CountingWriter) :
    CountingWriter :=
  (writePageContent (writer.writeStr ("<< /Length ".toList ++
    decimal (pageContentLen lines settings) ++ " >>\nstream\n".toList)) lines settings).writeStr
    "endstream\n".toList

/-- Writes a page and its content. -/
def writePage (settings : PdfSettings) (state : PdfState) (page : List Str × ℕ) :
    Except PdfError PdfState := do
  let pageObject ← pageObjectNumber page.2
  let contentObject ← contentObjectNumber page.2
  let state ← writeObject state pageObject fun writer =>
    pure (writer.writeStr (pageBody settings contentObject))
  writeObject state contentObject fun writer => pure (writeContent settings page.1 writer)

/-- An offset as ten digits. -/
def offsetDigits (offset : ℕ) : Str :=
  List.replicate (10 - (decimal offset).length) '0' ++ decimal offset

/-- An entry of the cross-reference table for an object in use. -/
def xrefEntry (offset : ℕ) : Str :=
  offsetDigits offset ++ " 00000 n \n".toList

/-- The beginning of the cross-reference table, with its size and its free entry. -/
def xrefStart (size : ℕ) : Str :=
  "xref\n0 ".toList ++ decimal size ++ "\n0000000000 65535 f \n".toList

/-- What follows the cross-reference table. -/
def trailer (size xrefOffset : ℕ) : Str :=
  "trailer\n<< /Size ".toList ++ decimal size ++ " /Root 1 0 R >>\nstartxref\n".toList ++
    decimal xrefOffset ++ "\n%%EOF\n".toList

/-- Writes the cross-reference table and the trailer. -/
def writeXref (state : PdfState) : CountingWriter :=
  ((state.offsets.drop 1).foldl (fun writer offset => writer.writeStr (xrefEntry offset))
    (state.writer.writeStr (xrefStart state.offsets.length))).writeStr
    (trailer state.offsets.length state.writer.offset)

/-- Writes the header and all objects. -/
def writeObjects (settings : PdfSettings) (pages : List (List Str)) :
    Except PdfError PdfState := do
  let state ← writeObject ⟨CountingWriter.new.writeStr "%PDF-1.4\n".toList, [0]⟩ 1 fun writer =>
    pure (writer.writeStr catalogBody)
  let state ← writeObject state 2 (writeKids pages.length)
  let state ← writeObject state 3 fun writer => pure (writer.writeStr (fontBody settings))
  pages.zipIdx.foldlM (writePage settings) state

/-- Renders lines as a PDF file. -/
def writePdfWithSettings (lines : List Str) (settings : PdfSettings) :
    Except PdfError (List UInt8) := do
  let pages ← paginateLines lines settings
  let _ ← pdfObjectCount pages.length
  let state ← writeObjects settings pages
  pure (writeXref state).sink

/-- Renders lines with the settings of the reports. -/
def writePdf (lines : List Str) : Except PdfError (List UInt8) :=
  writePdfWithSettings lines .default

/-! ### What is in a file -/

/-- An object with its number. -/
def numberedObject (objectNumber : ℕ) (body : Str) : Str :=
  decimal objectNumber ++ " 0 obj\n".toList ++ body ++ "endobj\n".toList

/-- The reference to an object. -/
def reference (number : ℕ) : Str :=
  decimal number ++ " 0 R".toList

/-- References to objects, separated by blanks. -/
def kidsText : List ℕ → Str
  | [] => []
  | [number] => reference number
  | first :: second :: numbers => reference first ++ ' ' :: kidsText (second :: numbers)

/-- The list of pages. -/
def kidsBody (numbers : List ℕ) : Str :=
  "<< /Type /Pages /Kids [".toList ++ kidsText numbers ++
    ("] /Count ".toList ++ decimal numbers.length ++ " >>\n".toList)

/-- The content of a page, with the length of its stream. -/
def contentBody (settings : PdfSettings) (lines : List Str) : Str :=
  "<< /Length ".toList ++ decimal (byteLen (pageContent lines settings)) ++
    " >>\nstream\n".toList ++ pageContent lines settings ++ "endstream\n".toList

/-- What is known of a file with some objects: each stands at its offset. -/
structure Laid (state : PdfState) (bodies : List Str) : Prop where
  counted : state.writer.offset = state.writer.sink.length
  offsets : state.offsets.length = bodies.length + 1
  found : ∀ n body, bodies[n]? = some body → ∃ offset, state.offsets[n + 1]? = some offset ∧
    FoundAt state.writer.sink offset (numberedObject (n + 1) body)

/-- **One more object** stands at the offset that is noted for it. -/
theorem Laid.writeObject {state : PdfState} {bodies : List Str} (h : Laid state bodies)
    (number : ℕ) (writeBody : CountingWriter → Except PdfError CountingWriter) {body : Str}
    (hbody : ∀ writer, writeBody writer = .ok (writer.writeStr body))
    (hnumber : number = bodies.length + 1) :
    ∃ state', SovriAgent.writeObject state number writeBody = .ok state' ∧
      Laid state' (bodies ++ [body]) := by
  subst hnumber
  refine ⟨⟨state.writer.writeStr (numberedObject (bodies.length + 1) body),
    state.offsets ++ [state.writer.offset]⟩, ?_, ?_, ?_, ?_⟩
  · have hwriter : ((state.writer.writeStr (decimal (bodies.length + 1) ++
        " 0 obj\n".toList)).writeStr body).writeStr "endobj\n".toList =
        state.writer.writeStr (numberedObject (bodies.length + 1) body) := by
      simp only [CountingWriter.writeStr_writeStr, numberedObject]
    rw [SovriAgent.writeObject, hbody, ← hwriter]
    rfl
  · simp [CountingWriter.writeStr, h.counted]
  · simp [h.offsets]
  · intro n body' hget
    rw [List.getElem?_append] at hget
    split at hget
    · next hn =>
        obtain ⟨offset, hoffset, hfound⟩ := h.found n body' hget
        refine ⟨offset, ?_, hfound.append _⟩
        rw [List.getElem?_append_left (by rw [h.offsets]; omega), hoffset]
    · next hn =>
        have hlast : n = bodies.length := by
          have hbound := (List.getElem?_eq_some_iff.mp hget).1
          simp only [List.length_singleton] at hbound
          omega
        subst hlast
        obtain rfl : body = body' := by simpa using hget
        refine ⟨state.writer.offset, ?_, foundAt_writeStr h.counted _⟩
        rw [← h.offsets, List.getElem?_concat_length]

/-! ### The list of pages -/

theorem kidsText_concat {numbers : List ℕ} (h : numbers ≠ []) (number : ℕ) :
    kidsText (numbers ++ [number]) = kidsText numbers ++ ' ' :: reference number := by
  induction numbers with
  | nil => exact absurd rfl h
  | cons first numbers ih =>
      rcases numbers with _ | ⟨second, numbers⟩
      · rfl
      · have hstep : kidsText (first :: second :: numbers ++ [number]) =
            reference first ++ ' ' :: kidsText (second :: numbers ++ [number]) := rfl
        rw [hstep, ih (List.cons_ne_nil _ _), kidsText, List.append_assoc, List.cons_append]

/-- The object numbers of the pages. -/
def pageNumbers (pageCount : ℕ) : List ℕ :=
  (List.range pageCount).map fun index => 4 + index * 2

theorem foldlM_writeKid (writer : CountingWriter) {pageCount : ℕ}
    (h : 3 + pageCount * 2 ≤ usizeMax) :
    (List.range pageCount).foldlM writeKid writer =
      .ok (writer.writeStr (kidsText (pageNumbers pageCount))) := by
  induction pageCount with
  | zero => simp [pageNumbers, kidsText, CountingWriter.writeStr, utf8]; rfl
  | succ n ih =>
      have hnumber := @pageObjectNumber_eq n (by omega)
      have hpages : pageNumbers (n + 1) = pageNumbers n ++ [4 + n * 2] := by
        rw [pageNumbers, List.range_succ, List.map_append]
        rfl
      have hkid : ∀ writer, writeKid writer n = .ok
          ((if 0 < n then writer.writeStr " ".toList else writer).writeStr
            (reference (4 + n * 2))) := by
        intro writer
        rw [writeKid, hnumber]
        rfl
      rw [List.range_succ, List.foldlM_append, ih (by omega), hpages]
      refine (bind_pure (writeKid _ n)).trans ((hkid _).trans (congrArg Except.ok ?_))
      rcases Nat.eq_zero_or_pos n with rfl | hn
      · rw [if_neg (lt_irrefl 0), CountingWriter.writeStr_writeStr]
        rfl
      · have hne : pageNumbers n ≠ [] := by
          simp [pageNumbers, hn.ne']
        rw [if_pos hn, kidsText_concat hne, CountingWriter.writeStr_writeStr,
          CountingWriter.writeStr_writeStr]
        rfl

/-- Three texts written after each other. -/
theorem writeStr_three (writer : CountingWriter) (s t u : Str) :
    ((writer.writeStr s).writeStr t).writeStr u = writer.writeStr (s ++ t ++ u) := by
  rw [CountingWriter.writeStr_writeStr, CountingWriter.writeStr_writeStr, List.append_assoc]

theorem writeKids_eq (writer : CountingWriter) {pageCount : ℕ}
    (h : 3 + pageCount * 2 ≤ usizeMax) :
    writeKids pageCount writer = .ok (writer.writeStr (kidsBody (pageNumbers pageCount))) := by
  have hlength : (pageNumbers pageCount).length = pageCount := by
    rw [pageNumbers, List.length_map, List.length_range]
  have hkids : writeKids pageCount writer =
      .ok (((writer.writeStr "<< /Type /Pages /Kids [".toList).writeStr
        (kidsText (pageNumbers pageCount))).writeStr
          ("] /Count ".toList ++ decimal pageCount ++ " >>\n".toList)) := by
    rw [writeKids, foldlM_writeKid _ h]
    rfl
  have hbody : kidsBody (pageNumbers pageCount) = "<< /Type /Pages /Kids [".toList ++
      kidsText (pageNumbers pageCount) ++
        ("] /Count ".toList ++ decimal pageCount ++ " >>\n".toList) := by
    unfold kidsBody
    rw [hlength]
  exact hkids.trans (congrArg Except.ok ((writeStr_three _ _ _ _).trans
    (congrArg writer.writeStr hbody.symm)))

theorem writeContent_eq (settings : PdfSettings) (lines : List Str) (writer : CountingWriter) :
    writeContent settings lines writer = writer.writeStr (contentBody settings lines) := by
  rw [writeContent, writePageContent_eq, pageContentLen_eq]
  exact writeStr_three _ _ _ _

/-! ### The pages -/

/-- The objects of a page. -/
def pageObjects (settings : PdfSettings) (page : List Str × ℕ) : List Str :=
  [pageBody settings (5 + page.2 * 2), contentBody settings page.1]

/-- A page and its content follow each other. -/
theorem Laid.writePage {state : PdfState} {bodies : List Str} (h : Laid state bodies)
    (settings : PdfSettings) (lines : List Str) {index : ℕ}
    (hindex : bodies.length = 3 + index * 2) (hfits : 5 + index * 2 ≤ usizeMax) :
    ∃ state', SovriAgent.writePage settings state (lines, index) = .ok state' ∧
      Laid state' (bodies ++ pageObjects settings (lines, index)) := by
  obtain ⟨page, hpage, hlaid⟩ := h.writeObject (4 + index * 2)
    (fun writer => pure (writer.writeStr (pageBody settings (5 + index * 2))))
    (fun _ => rfl) (by omega)
  obtain ⟨content, hcontent, hlaid'⟩ := hlaid.writeObject (5 + index * 2)
    (fun writer => pure (writeContent settings lines writer))
    (fun writer => congrArg Except.ok (writeContent_eq settings lines writer)) (by simp; omega)
  refine ⟨content, ?_, ?_⟩
  · rw [SovriAgent.writePage, pageObjectNumber_eq hfits, contentObjectNumber_eq hfits, ok_bind,
      ok_bind, hpage, ok_bind]
    exact hcontent
  · rwa [List.append_assoc] at hlaid'

/-- All pages, one after the other. -/
theorem Laid.writePages {settings : PdfSettings} {pages : List (List Str)} {index : ℕ}
    {state : PdfState} {bodies : List Str} (h : Laid state bodies)
    (hindex : bodies.length = 3 + index * 2)
    (hfits : 3 + (index + pages.length) * 2 ≤ usizeMax) :
    ∃ state', (pages.zipIdx index).foldlM (SovriAgent.writePage settings) state = .ok state' ∧
      Laid state' (bodies ++ (pages.zipIdx index).flatMap (pageObjects settings)) := by
  induction pages generalizing index state bodies with
  | nil => exact ⟨state, rfl, by simpa using h⟩
  | cons lines pages ih =>
      rw [List.length_cons] at hfits
      obtain ⟨next, hpage, hnext⟩ := h.writePage settings lines hindex (by omega)
      obtain ⟨last, hpages, hlast⟩ := @ih (index + 1) next _ hnext
        (by rw [List.length_append, hindex]; simp only [pageObjects, List.length_cons,
          List.length_nil]; omega) (by omega)
      refine ⟨last, ?_, ?_⟩
      · rw [List.zipIdx_cons, List.foldlM_cons, hpage, ok_bind]
        exact hpages
      · rwa [List.zipIdx_cons, List.flatMap_cons, ← List.append_assoc]

/-- The bodies of all objects of a file. -/
def pdfBodies (settings : PdfSettings) (pages : List (List Str)) : List Str :=
  [catalogBody, kidsBody (pageNumbers pages.length), fontBody settings] ++
    pages.zipIdx.flatMap (pageObjects settings)

/-- The objects of a file whose pages fit. -/
theorem writeObjects_ok (settings : PdfSettings) {pages : List (List Str)}
    (hfits : 3 + pages.length * 2 ≤ usizeMax) :
    ∃ state, writeObjects settings pages = .ok state ∧
      Laid state (pdfBodies settings pages) := by
  have hstart : Laid ⟨CountingWriter.new.writeStr "%PDF-1.4\n".toList, [0]⟩ [] :=
    ⟨by simp [CountingWriter.new, CountingWriter.writeStr], rfl, fun n body hget => by simp at hget⟩
  obtain ⟨catalog, hcatalog, hlaid⟩ := hstart.writeObject 1
    (fun writer => pure (writer.writeStr catalogBody)) (fun _ => rfl) rfl
  obtain ⟨kids, hkids, hlaid⟩ := hlaid.writeObject 2
    (writeKids pages.length) (fun writer => writeKids_eq writer hfits) rfl
  obtain ⟨font, hfont, hlaid⟩ := hlaid.writeObject 3
    (fun writer => pure (writer.writeStr (fontBody settings))) (fun _ => rfl) rfl
  obtain ⟨state, hpages, hlaid⟩ := @Laid.writePages settings pages 0 _ _ hlaid rfl
    (by omega)
  refine ⟨state, ?_, hlaid⟩
  rw [writeObjects, hcatalog, ok_bind, hkids, ok_bind, hfont, ok_bind]
  exact hpages

/-! ### The cross-reference table -/

theorem writeXref_eq (state : PdfState) :
    (writeXref state).sink = state.writer.sink ++ utf8 (xrefStart state.offsets.length ++
      (state.offsets.drop 1).flatMap xrefEntry ++
        trailer state.offsets.length state.writer.offset) := by
  have hentries : ∀ (offsets : List ℕ) (writer : CountingWriter),
      offsets.foldl (fun writer offset => writer.writeStr (xrefEntry offset)) writer =
        writer.writeStr (offsets.flatMap xrefEntry) := by
    intro offsets
    induction offsets with
    | nil => intro writer; simp [CountingWriter.writeStr, utf8]
    | cons offset offsets ih =>
        intro writer
        rw [List.foldl_cons, ih, CountingWriter.writeStr_writeStr, List.flatMap_cons]
  rw [writeXref, hentries, writeStr_three]
  rfl

/-- The digits of an offset, read as a number. -/
theorem ofDigitChars_offsetDigits (offset : ℕ) :
    Nat.ofDigitChars 10 (offsetDigits offset) 0 = offset := by
  rw [offsetDigits, Nat.ofDigitChars_append, Nat.ofDigitChars_replicate_zero, Nat.mul_zero]
  exact Nat.ofDigitChars_ten_toDigits

/-- Offsets below ten to the ten have ten digits. -/
theorem length_offsetDigits {offset : ℕ} (h : offset < 10 ^ 10) :
    (offsetDigits offset).length = 10 := by
  have hdecimal : (decimal offset).length ≤ 10 :=
    (Nat.length_toDigits_le_iff (by decide) (by decide)).mpr h
  rw [offsetDigits, List.length_append, List.length_replicate]
  omega

/-! ### Structurally correct files -/

/-- The parts of a structurally correct file: its pages, the offsets of its objects in the order
of their numbers, and the offset of the cross-reference table. -/
structure PdfParts (settings : PdfSettings) (lines : List Str) (file : List UInt8)
    (pages : List (List Str)) (offsets : List ℕ) (xrefOffset : ℕ) : Prop where
  /-- No line is lost, repeated or reordered. -/
  pages_lines : pages.flatten = lines
  /-- Every object is counted, and has an entry. -/
  bodies_length : (pdfBodies settings pages).length = 3 + pages.length * 2
  offsets_length : offsets.length = 3 + pages.length * 2
  /-- An entry gives the offset at which its object begins. -/
  found : ∀ n body, (pdfBodies settings pages)[n]? = some body →
    ∃ offset, offsets[n]? = some offset ∧ FoundAt file offset (numberedObject (n + 1) body)
  /-- The list of pages names the page objects, in order, and counts them. -/
  kids : (pdfBodies settings pages)[1]? = some (kidsBody (pageNumbers pages.length))
  /-- A page object names the stream of its content, whose length is the one declared. -/
  page : ∀ index lines, pages[index]? = some lines →
    (pdfBodies settings pages)[3 + index * 2]? = some (pageBody settings (5 + index * 2)) ∧
      (pdfBodies settings pages)[4 + index * 2]? = some (contentBody settings lines)
  /-- Entries have the width of the format, and are read as the offsets. -/
  digits : ∀ offset ∈ offsets, (offsetDigits offset).length = 10 ∧
    Nat.ofDigitChars 10 (offsetDigits offset) 0 = offset
  /-- The file ends with the table, its size and its own offset. -/
  xref : file.drop xrefOffset = utf8 (xrefStart (offsets.length + 1) ++
    offsets.flatMap xrefEntry ++ trailer (offsets.length + 1) xrefOffset)

/-- A structurally correct file of some lines. -/
def CorrectPdf (settings : PdfSettings) (lines : List Str) (file : List UInt8) : Prop :=
  ∃ pages offsets xrefOffset, PdfParts settings lines file pages offsets xrefOffset

theorem length_pageObjects (settings : PdfSettings) (pages : List (List Str)) (start : ℕ) :
    ((pages.zipIdx start).flatMap (pageObjects settings)).length = pages.length * 2 := by
  induction pages generalizing start with
  | nil => rfl
  | cons lines pages ih =>
      rw [List.zipIdx_cons, List.flatMap_cons, List.length_append, ih, List.length_cons]
      simp only [pageObjects, List.length_cons, List.length_nil]
      omega

/-- The page and the content of an index stand next to each other. -/
theorem getElem?_pageObjects (settings : PdfSettings) {pages : List (List Str)} (start : ℕ)
    {index : ℕ} {lines : List Str} (h : pages[index]? = some lines) :
    ((pages.zipIdx start).flatMap (pageObjects settings))[index * 2]? =
        some (pageBody settings (5 + (start + index) * 2)) ∧
      ((pages.zipIdx start).flatMap (pageObjects settings))[index * 2 + 1]? =
        some (contentBody settings lines) := by
  induction pages generalizing start index with
  | nil => simp at h
  | cons first pages ih =>
      rw [List.zipIdx_cons, List.flatMap_cons]
      rcases index with _ | index
      · obtain rfl : first = lines := by simpa using h
        exact ⟨rfl, rfl⟩
      · have hnext := @ih (start + 1) index (by simpa using h)
        have hskip : start + 1 + index = start + (index + 1) := by omega
        have htwo : (index + 1) * 2 = index * 2 + 2 := by omega
        rw [hskip] at hnext
        rw [htwo]
        exact hnext

theorem pdfBodies_page (settings : PdfSettings) {pages : List (List Str)} {index : ℕ}
    {lines : List Str} (h : pages[index]? = some lines) :
    (pdfBodies settings pages)[3 + index * 2]? = some (pageBody settings (5 + index * 2)) ∧
      (pdfBodies settings pages)[4 + index * 2]? = some (contentBody settings lines) := by
  have hpage := getElem?_pageObjects settings 0 h
  rw [Nat.zero_add] at hpage
  rw [pdfBodies, List.getElem?_append_right (by simp), List.getElem?_append_right (by simp; omega)]
  have hthree : 3 + index * 2 - [catalogBody, kidsBody (pageNumbers pages.length),
      fontBody settings].length = index * 2 := by
    simp only [List.length_cons, List.length_nil]
    omega
  have hfour : 4 + index * 2 - [catalogBody, kidsBody (pageNumbers pages.length),
      fontBody settings].length = index * 2 + 1 := by
    simp only [List.length_cons, List.length_nil]
    omega
  rw [hthree, hfour]
  exact hpage

/-- **A file whose objects are laid out** is correct once the table and the trailer follow. -/
theorem Laid.correct {settings : PdfSettings} {lines : List Str} {pages : List (List Str)}
    {state : PdfState} (h : Laid state (pdfBodies settings pages)) (hlines : pages.flatten = lines)
    (hsize : (writeXref state).sink.length < 10 ^ 10) :
    CorrectPdf settings lines (writeXref state).sink := by
  have hlength : (pdfBodies settings pages).length = 3 + pages.length * 2 := by
    rw [pdfBodies, List.length_append, length_pageObjects]
    rfl
  have hoffsets : (state.offsets.drop 1).length = 3 + pages.length * 2 := by
    rw [List.length_drop, h.offsets, hlength]
    omega
  have hsizes : (state.offsets.drop 1).length + 1 = state.offsets.length := by
    rw [List.length_drop, h.offsets]
    omega
  have hfound : ∀ n body, (pdfBodies settings pages)[n]? = some body →
      ∃ offset, (state.offsets.drop 1)[n]? = some offset ∧
        FoundAt state.writer.sink offset (numberedObject (n + 1) body) := by
    intro n body hbody
    obtain ⟨offset, hoffset, hobject⟩ := h.found n body hbody
    exact ⟨offset, by rwa [List.getElem?_drop, Nat.add_comm], hobject⟩
  refine ⟨pages, state.offsets.drop 1, state.writer.offset, hlines, hlength, hoffsets, ?_, rfl,
    fun _ _ => pdfBodies_page settings, ?_, ?_⟩
  · intro n body hbody
    obtain ⟨offset, hoffset, hobject⟩ := hfound n body hbody
    rw [writeXref_eq]
    exact ⟨offset, hoffset, hobject.append _⟩
  · intro offset hmem
    refine ⟨length_offsetDigits ?_, ofDigitChars_offsetDigits offset⟩
    obtain ⟨n, hn, rfl⟩ := List.getElem_of_mem hmem
    have hbody : n < (pdfBodies settings pages).length := by omega
    obtain ⟨offset, hoffset, hobject⟩ := hfound n _ (List.getElem?_eq_getElem hbody)
    rw [List.getElem?_eq_getElem hn, Option.some.injEq] at hoffset
    have hwithin : offset < state.writer.sink.length := by
      by_contra hbeyond
      rw [FoundAt, List.drop_eq_nil_of_le (not_lt.mp hbeyond), List.prefix_nil] at hobject
      have hempty := congrArg List.length hobject
      simp only [numberedObject, length_utf8, byteLen_append, List.length_nil,
        Nat.add_eq_zero_iff] at hempty
      exact absurd hempty.2 (by decide)
    rw [writeXref_eq, List.length_append] at hsize
    omega
  · rw [writeXref_eq, h.counted, List.drop_left, hsizes]

/-- **Every file written is structurally correct.** With a positive line height the renderer
fails only where the object numbers of the pages do not fit. -/
theorem writePdfWithSettings_correct (lines : List Str) {settings : PdfSettings}
    (hheight : settings.lineHeightPoints ≠ 0) :
    ∃ pages, paginateLines lines settings = .ok pages ∧
      (usizeMax < 3 + pages.length * 2 ∧
          writePdfWithSettings lines settings = .error .pageCountOverflow ∨
        ∃ file, writePdfWithSettings lines settings = .ok file ∧
          (file.length < 10 ^ 10 → CorrectPdf settings lines file)) := by
  obtain ⟨pages, hpages, hlines⟩ := paginateLines_ok lines hheight
  refine ⟨pages, hpages, ?_⟩
  rcases Nat.lt_or_ge usizeMax (3 + pages.length * 2) with hover | hfits
  · refine .inl ⟨hover, ?_⟩
    rw [writePdfWithSettings, hpages, ok_bind, pdfObjectCount_error hover]
    rfl
  · obtain ⟨state, hobjects, hlaid⟩ := writeObjects_ok settings hfits
    refine .inr ⟨(writeXref state).sink, ?_, hlaid.correct hlines⟩
    rw [writePdfWithSettings, hpages, ok_bind, pdfObjectCount_eq hfits, ok_bind, hobjects,
      ok_bind]
    rfl

/-- Lines with characters that are escaped, replaced, or longer than one byte. -/
def sampleLines : List Str :=
  ["Sovri (PDF)".toList, "Control: \x01é\t".toList]

theorem writePdfWithSettings_correct_sample :
    ∃ file, writePdf sampleLines = .ok file ∧ CorrectPdf .default sampleLines file := by
  obtain ⟨pages, hpages, ⟨hover, -⟩ | ⟨file, hfile, hcorrect⟩⟩ :=
    @writePdfWithSettings_correct sampleLines .default (by decide)
  · obtain rfl : [sampleLines] = pages := Except.ok.inj (hpages.symm.trans rfl).symm
    exact absurd hover (by decide)
  · have hsize : ∀ bytes, writePdf sampleLines = .ok bytes → bytes.length < 10 ^ 10 := by
      have hshort : (writePdf sampleLines).toOption.all (·.length < 10 ^ 10) = true := by
        decide +kernel
      intro bytes hbytes
      rw [hbytes] at hshort
      exact of_decide_eq_true hshort
    exact ⟨file, hfile, hcorrect (hsize file hfile)⟩

end SovriAgent
