import SovriAgent.PdfTokens
import SovriAgent.PdfWriter

/-!
# Page Contents and PDF Tokens

The lines of a report hold text from the scanned host. On a page each line is one string in
parentheses, escaped character by character. Here the content stream is read back by the
lexical conventions of PDF: the strings end where their lines end, whatever characters the
lines contain, and nothing but the operators of the writer stands between them.

## Main results

* `inString_escapedChar`: what one character of a line adds to the string.
* `writePageContent_tokens`: the tokens of a content stream.
-/

namespace SovriAgent

open Pdf

/-! ### What is shown of a line -/

/-- A character as a page shows it: a space for a control character without an escape. -/
def shownChar (c : Char) : Char :=
  if c = '\n' ∨ c = '\r' ∨ c = '\t' ∨ c = '\x08' ∨ c = '\x0c' then c
  else if isControl c then ' '
  else c

/-- A keyword of a content stream. -/
def operator (text : Str) : Token :=
  .word (utf8 text)

/-- The tokens a content stream begins with: font and position. -/
def prologueTokens (settings : PdfSettings) : List Token :=
  [operator ['B', 'T'], .name (utf8 settings.fontResource),
    .integer settings.fontSizePoints.toNat, operator ['T', 'f'],
    .integer settings.leftMarginPoints.toNat, .integer settings.topBaselinePoints.toNat,
    operator ['T', 'd']]

/-- The tokens of a line: its string is shown, and the position moves down. -/
def lineTokens (settings : PdfSettings) (line : Str) : List Token :=
  [.string (utf8 (line.map shownChar)), operator ['T', 'j'], .integer 0,
    .integer (-(settings.lineHeightPoints.toNat : ℤ)), operator ['T', 'd']]

/-! ### Strings -/

/-- The bytes of a character of several bytes are no ASCII bytes. -/
theorem ascii_lt_of_utf8Size_ne_one {c : Char} (h : c.utf8Size ≠ 1) :
    ∀ byte ∈ String.utf8EncodeChar c, 128 ≤ byte.toNat := by
  have hor : ∀ a b : UInt8, 128 ≤ b.toNat → 128 ≤ (a ||| b).toNat := by
    intro a b hb
    rw [UInt8.toNat_or]
    exact le_trans hb Nat.right_le_or
  rcases c.utf8Size_eq with h1 | h2 | h3 | h4
  · exact absurd h1 h
  · rw [String.utf8EncodeChar_eq_cons_cons h2]
    simp only [List.forall_mem_cons]
    exact ⟨hor _ _ (by decide), hor _ _ (by decide), by simp⟩
  · rw [String.utf8EncodeChar_eq_cons_cons_cons h3]
    simp only [List.forall_mem_cons]
    exact ⟨hor _ _ (by decide), hor _ _ (by decide), hor _ _ (by decide), by simp⟩
  · rw [String.utf8EncodeChar_eq_cons_cons_cons_cons h4]
    simp only [List.forall_mem_cons]
    exact ⟨hor _ _ (by decide), hor _ _ (by decide), hor _ _ (by decide), hor _ _ (by decide),
      by simp⟩

/-- Other characters stand for themselves in a string. -/
theorem isPlain_utf8 {c : Char} (hspecial : ¬ (c = '(' ∨ c = ')' ∨ c = '\\'))
    (hreturn : c ≠ '\r') : ∀ byte ∈ utf8 [c], isPlain byte = true := by
  rw [utf8, List.flatMap_singleton]
  by_cases hone : c.utf8Size = 1
  · have hascii : ∀ n < 128, (String.utf8EncodeChar (Char.ofNat n)).all isPlain = true ∨
        (Char.ofNat n = '(' ∨ Char.ofNat n = ')' ∨ Char.ofNat n = '\\') ∨
        Char.ofNat n = '\r' := by
      decide +kernel
    have hlt : c.toNat < 128 := by
      have hle := UInt32.le_iff_toNat_le.mp (Char.utf8Size_eq_one_iff.mp hone)
      exact Nat.lt_succ_of_le hle
    have hc := hascii c.toNat hlt
    rw [Char.ofNat_toNat] at hc
    exact List.all_eq_true.mp (hc.resolve_right (not_or.mpr ⟨hspecial, hreturn⟩))
  · intro byte hbyte
    have hbig := ascii_lt_of_utf8Size_ne_one hone byte hbyte
    have hne : ∀ other : UInt8, other.toNat < 128 → byte ≠ other := by
      rintro other hother rfl
      omega
    simp [isPlain, hne '('.toUInt8 (by decide), hne ')'.toUInt8 (by decide),
      hne '\\'.toUInt8 (by decide), hne 13 (by decide)]

/-- **A character of a line** adds to the string the character the page shows for it: no
character ends the string or begins an escape that reaches into the next one. -/
theorem inString_escapedChar (c : Char) : InString (utf8 (escapedChar c)) (utf8 [shownChar c]) := by
  rw [escapedChar]
  split_ifs with hspecial hfeed hreturn htab hback hform hcontrol
  · rcases hspecial with rfl | rfl | rfl <;> exact inString_escape rfl
  · subst hfeed
    exact inString_escape rfl
  · subst hreturn
    exact inString_escape rfl
  · subst htab
    exact inString_escape rfl
  · subst hback
    exact inString_escape rfl
  · subst hform
    exact inString_escape rfl
  · rw [shownChar, if_neg (by tauto), if_pos hcontrol]
    exact inString_plain (isPlain_utf8 (by decide) (by decide))
  · rw [shownChar, if_neg (by tauto), if_neg hcontrol]
    exact inString_plain (isPlain_utf8 hspecial hreturn)

theorem utf8_flatMap {α : Type} (f : α → Str) (items : List α) :
    utf8 (items.flatMap f) = items.flatMap fun item => utf8 (f item) :=
  List.flatMap_assoc

theorem utf8_append (s t : Str) : utf8 (s ++ t) = utf8 s ++ utf8 t :=
  List.flatMap_append

theorem utf8_singleton {c : Char} (h : c.utf8Size = 1) : utf8 [c] = [c.toUInt8] := by
  rw [utf8, List.flatMap_singleton, String.utf8EncodeChar_eq_singleton h]
  rfl

/-- The escaped text of a line, inside its string. -/
theorem inString_line (line : Str) :
    InString (utf8 (line.flatMap escapedChar)) (utf8 (line.map shownChar)) := by
  have hshown : utf8 (line.map shownChar) = line.flatMap fun c => utf8 [shownChar c] := by
    rw [utf8, List.flatMap_map]
    simp only [utf8, List.flatMap_singleton]
  rw [hshown, utf8_flatMap]
  exact InString.flatMap line fun c _ => inString_escapedChar c

/-! ### The stream -/

/-- The operators of a content stream, each on the end of a line. -/
theorem reads_operator {text : Str}
    (h : text ∈ [['B', 'T'], ['T', 'f'], ['T', 'd'], ['T', 'j'], ['E', 'T']]) :
    Reads (utf8 (text ++ ['\n'])) [operator text] := by
  have hall : ∀ text ∈ [['B', 'T'], ['T', 'f'], ['T', 'd'], ['T', 'j'], ['E', 'T']],
      utf8 text ≠ [] ∧ (utf8 text).all isRegular = true ∧ wordToken (utf8 text) = operator text := by
    decide +kernel
  obtain ⟨hne, hregular, htoken⟩ := hall text h
  rw [utf8_append, ← htoken]
  exact reads_word hne (List.all_eq_true.mp hregular) rfl

theorem reads_contentLine (settings : PdfSettings) (line : Str) :
    Reads (utf8 (contentLine settings line)) (lineTokens settings line) := by
  have hclose : ") Tj\n0 -".toList =
      [')'] ++ [' '] ++ (['T', 'j'] ++ ['\n']) ++ (decimal 0 ++ [' ']) ++ ['-'] := by
    decide +kernel
  have hdown : " Td\n".toList = [' '] ++ (['T', 'd'] ++ ['\n']) := by decide +kernel
  have hopen : ('(' : Char).utf8Size = 1 := rfl
  have hend : (')' : Char).utf8Size = 1 := rfl
  have hspace : (' ' : Char).utf8Size = 1 := rfl
  have hminus : ('-' : Char).utf8Size = 1 := rfl
  have hshape : utf8 (contentLine settings line) =
      ('('.toUInt8 :: (utf8 (line.flatMap escapedChar) ++ [')'.toUInt8])) ++
        ([' '.toUInt8] ++ (utf8 (['T', 'j'] ++ ['\n']) ++ ((utf8 (decimal 0) ++ [' '.toUInt8]) ++
          (('-'.toUInt8 :: (utf8 (decimal settings.lineHeightPoints.toNat) ++ [' '.toUInt8])) ++
            utf8 (['T', 'd'] ++ ['\n']))))) := by
    change utf8 (['('] ++ (line.flatMap escapedChar ++ (") Tj\n0 -".toList ++
      decimal settings.lineHeightPoints.toNat ++ " Td\n".toList))) = _
    simp only [hclose, hdown, utf8_append, utf8_singleton hopen, utf8_singleton hend,
      utf8_singleton hspace, utf8_singleton hminus]
    simp only [List.append_assoc, List.cons_append, List.nil_append]
  rw [hshape]
  exact (reads_string (inString_line line)).append ((reads_space rfl).append
    ((reads_operator (by simp)).append ((reads_decimal 0 rfl).append
      ((reads_neg_decimal _ rfl).append (reads_operator (by simp))))))

theorem reads_contentStart {settings : PdfSettings}
    (h : ∀ byte ∈ utf8 settings.fontResource, isRegular byte = true) :
    Reads (utf8 (contentStart settings)) (prologueTokens settings) := by
  have hbegin : "BT\n/".toList = (['B', 'T'] ++ ['\n']) ++ ['/'] := by decide +kernel
  have hblank : " ".toList = [' '] := by decide +kernel
  have hfont : " Tf\n".toList = [' '] ++ (['T', 'f'] ++ ['\n']) := by decide +kernel
  have hdown : " Td\n".toList = [' '] ++ (['T', 'd'] ++ ['\n']) := by decide +kernel
  have hsolidus : ('/' : Char).utf8Size = 1 := rfl
  have hspace : (' ' : Char).utf8Size = 1 := rfl
  have hshape : utf8 (contentStart settings) =
      utf8 (['B', 'T'] ++ ['\n']) ++
        (('/'.toUInt8 :: (utf8 settings.fontResource ++ [' '.toUInt8])) ++
          ((utf8 (decimal settings.fontSizePoints.toNat) ++ [' '.toUInt8]) ++
            (utf8 (['T', 'f'] ++ ['\n']) ++
              ((utf8 (decimal settings.leftMarginPoints.toNat) ++ [' '.toUInt8]) ++
                ((utf8 (decimal settings.topBaselinePoints.toNat) ++ [' '.toUInt8]) ++
                  utf8 (['T', 'd'] ++ ['\n'])))))) := by
    change utf8 ("BT\n/".toList ++ settings.fontResource ++ " ".toList ++
      decimal settings.fontSizePoints.toNat ++ " Tf\n".toList ++
      decimal settings.leftMarginPoints.toNat ++ " ".toList ++
      decimal settings.topBaselinePoints.toNat ++ " Td\n".toList) = _
    simp only [hbegin, hblank, hfont, hdown, utf8_append, utf8_singleton hsolidus,
      utf8_singleton hspace]
    simp only [List.append_assoc, List.cons_append, List.nil_append]
  rw [hshape]
  exact (reads_operator (by simp)).append ((reads_name h rfl).append
    ((reads_decimal _ rfl).append ((reads_operator (by simp)).append
      ((reads_decimal _ rfl).append ((reads_decimal _ rfl).append (reads_operator (by simp)))))))

/-- **No text escapes its string**: the content stream of a page is read as font and
position, then for every line its string, the operator that shows it and the move to the
next line, and the end of the text, whatever characters the lines contain. -/
theorem writePageContent_tokens {settings : PdfSettings}
    (h : ∀ byte ∈ utf8 settings.fontResource, isRegular byte = true) (writer : CountingWriter)
    (lines : List Str) :
    ∃ content, (writePageContent writer lines settings).sink = writer.sink ++ content ∧
      tokens content = some (prologueTokens settings ++ lines.flatMap (lineTokens settings) ++
        [operator ['E', 'T']]) := by
  refine ⟨utf8 (pageContent lines settings), ?_, ?_⟩
  · rw [writePageContent_eq]
    rfl
  · have hlines : Reads (utf8 (lines.flatMap (contentLine settings)))
        (lines.flatMap (lineTokens settings)) := by
      rw [utf8_flatMap]
      exact Reads.flatMap lines fun line _ => reads_contentLine settings line
    have hend : "ET\n".toList = ['E', 'T'] ++ ['\n'] := by decide +kernel
    rw [pageContent, hend, utf8_append, utf8_append]
    exact (((reads_contentStart h).append hlines).append (reads_operator (by simp))).tokens_eq

/-- With the settings of the reports, a line that looks like operators is one string. -/
theorem writePageContent_tokens_operators :
    ∃ content, (writePageContent .new [") Tj ET endstream\\".toList] .default).sink = [] ++ content ∧
      tokens content = some (prologueTokens .default ++
        [") Tj ET endstream\\".toList].flatMap (lineTokens .default) ++ [operator ['E', 'T']]) :=
  writePageContent_tokens (List.all_eq_true.mp (by decide +kernel)) .new _

end SovriAgent
