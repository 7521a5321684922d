import SovriAgent.Database

/-!
# Texts of Commands and Configuration Files

The functions of the standard library that the scanners take texts apart with: lines, fields,
words, prefixes and suffixes, and the ASCII case.
-/

namespace SovriAgent

/-- The parts of a text between occurrences of a character (`split`). -/
def splitChar (separator : Char) : Str → List Str
  | [] => [[]]
  | c :: text =>
      if c = separator then [] :: splitChar separator text
      else
        match splitChar separator text with
        | [] => [[c]]
        | part :: parts => (c :: part) :: parts

/-- A text without a suffix, if it has it (`strip_suffix`). -/
def stripSuffix (suffix text : Str) : Option Str :=
  (stripPrefix suffix.reverse text.reverse).map List.reverse

/-- The lines of a text that is cut at its line feeds: a line that ends in a line feed loses a
carriage return before it, and what is left after the last one is a line unless it is empty. -/
def endLines : List Str → List Str
  | [] => []
  | [last] => if last = [] then [] else [last]
  | line :: rest => (stripSuffix ['\r'] line).getD line :: endLines rest

/-- The lines of a text (`lines`). -/
def lines (text : Str) : List Str :=
  endLines (splitChar '\n' text)

example : lines "a\r\nb\n\nc\r".toList = ["a".toList, "b".toList, [], "c\r".toList] := by decide

/-- The first word of a text, if it has one (`split_whitespace().next()`). -/
def firstWord (text : Str) : Option Str :=
  match text.dropWhile isWhitespace with
  | [] => none
  | rest => some (rest.takeWhile fun c => !isWhitespace c)

/-- Whether a text occurs in another one (`contains`). -/
def containsText (needle text : Str) : Bool :=
  (splitFirst needle text).isSome

/-- Whether a text starts with another one (`starts_with`). -/
def startsWith (start text : Str) : Bool :=
  (stripPrefix start text).isSome

/-- Texts joined by a comma and a space. -/
def joinNames (names : List Str) : Str :=
  ", ".toList.intercalate names

/-- Texts joined by line feeds. -/
def joinLines (parts : List Str) : Str :=
  ['\n'].intercalate parts

/-! ### Searches and joined texts -/

/-- A text contains the texts that are infixes of it. -/
theorem containsText_iff {needle text : Str} :
    containsText needle text = true ↔ needle <:+: text := by
  rw [containsText, Option.isSome_iff_ne_none, ne_eq, splitFirst_eq_none_iff, not_not]

/-- A text is no text that starts otherwise. -/
theorem ne_of_startsWith {start text other : Str} (h : startsWith start text = true)
    (h' : startsWith start other = false) : text ≠ other := by
  rintro rfl
  exact Bool.false_ne_true (h'.symm.trans h)

/-- A character of joined names is one of a name, unless it is one of the separator. -/
theorem mem_joinNames {c : Char} (hc : c ∉ ", ".toList) {names : List Str} :
    c ∈ joinNames names ↔ ∃ name ∈ names, c ∈ name := by
  induction names with
  | nil => exact iff_of_false List.not_mem_nil (by simp)
  | cons name names ih =>
      cases names with
      | nil => simp [joinNames]
      | cons next names =>
          rw [joinNames, List.intercalate_cons_cons, ← joinNames, List.mem_append, List.mem_append,
            List.exists_mem_cons_iff, ih, or_iff_left hc]

/-- A name occurs in the joined names. -/
theorem infix_joinNames {name : Str} {names : List Str} (h : name ∈ names) :
    name <:+: joinNames names := by
  induction names with
  | nil => cases h
  | cons first names ih =>
      cases names with
      | nil =>
          obtain rfl := List.mem_singleton.mp h
          rw [joinNames, List.intercalate_singleton]
      | cons next names =>
          rw [joinNames, List.intercalate_cons_cons, ← joinNames, List.append_assoc]
          rcases List.mem_cons.mp h with rfl | h
          · exact (List.prefix_append _ _).isInfix
          · rw [← List.append_assoc]
            exact (ih h).trans (List.suffix_append _ _).isInfix

end SovriAgent
