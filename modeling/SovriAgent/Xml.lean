import SovriAgent.Text

/-!
# XML Documents

A parser of XML 1.0 documents that reads one character at a time, for documents without a
document type declaration, comments and character data sections, and without white space
around the equals signs of attributes and in end tags. Line ends are normalised before
anything else is read, and a document with a character XML does not admit is rejected.

Character data is kept as one node for each character, which is how the information set of
a document has it, so that what is read of two texts is what is read of one and then of the
other.

## Main results

* `Reads.append`, `Reads.element`: what is read of a text, from what is read of its parts.
* `Normal.append`: normalisation of line ends, part by part.
* `parseDocument_eq`: a declaration, the instructions before the root element, and the root.
-/

namespace Xml

open SovriAgent

/-! ### Characters, names and references -/

/-- The characters a document may contain (`Char`). -/
def isChar (c : Char) : Bool :=
  c = '\t' || c = '\n' || c = '\r' || (0x20 ≤ c.toNat && c.toNat ≤ 0xd7ff) ||
    (0xe000 ≤ c.toNat && c.toNat ≤ 0xfffd) || 0x10000 ≤ c.toNat

/-- White space (`S`). -/
def isBlank (c : Char) : Bool :=
  c = ' ' || c = '\t' || c = '\n' || c = '\r'

/-- The ranges of the characters a name may start with. -/
def nameStartRanges : List (ℕ × ℕ) :=
  [(0x3a, 0x3a), (0x41, 0x5a), (0x5f, 0x5f), (0x61, 0x7a), (0xc0, 0xd6), (0xd8, 0xf6),
    (0xf8, 0x2ff), (0x370, 0x37d), (0x37f, 0x1fff), (0x200c, 0x200d), (0x2070, 0x218f),
    (0x2c00, 0x2fef), (0x3001, 0xd7ff), (0xf900, 0xfdcf), (0xfdf0, 0xfffd), (0x10000, 0xeffff)]

/-- The ranges of the further characters of a name. -/
def nameFurtherRanges : List (ℕ × ℕ) :=
  [(0x2d, 0x2e), (0x30, 0x39), (0xb7, 0xb7), (0x300, 0x36f), (0x203f, 0x2040)]

/-- The characters a name may start with (`NameStartChar`). -/
def isNameStart (c : Char) : Bool :=
  nameStartRanges.any fun range => range.1 ≤ c.toNat && c.toNat ≤ range.2

/-- The characters of a name (`NameChar`). -/
def isNameChar (c : Char) : Bool :=
  isNameStart c || nameFurtherRanges.any fun range => range.1 ≤ c.toNat && c.toNat ≤ range.2

/-- Whether a text is a name. -/
def isName : Str → Bool
  | [] => false
  | c :: name => isNameStart c && name.all isNameChar

/-- Whether a text names a processing instruction; the name of the declaration does not. -/
def isTarget (name : Str) : Bool :=
  isName name && decide (name.map Char.toLower ≠ "xml".toList)

/-- The character a number refers to. -/
def numbered (number : ℕ) : Option Char :=
  (if number.isValidChar then some (Char.ofNat number) else none).filter isChar

/-- The character a reference stands for: one of the five predefined entities, or a
character number. -/
def resolve (reference : Str) : Option Char :=
  if reference = "amp".toList then some '&'
  else if reference = "lt".toList then some '<'
  else if reference = "gt".toList then some '>'
  else if reference = "quot".toList then some '"'
  else if reference = "apos".toList then some '\''
  else
    match reference with
    | '#' :: 'x' :: c :: digits => (digitsValue 16 0 (c :: digits)).bind numbered
    | '#' :: c :: digits => (digitsValue 10 0 (c :: digits)).bind numbered
    | _ => none

/-- Line ends become line feeds: a carriage return before a line feed is dropped, any other
is replaced. -/
def normalizeLineEnds : Str → Str
  | [] => []
  | c :: text =>
      if c = '\r' then
        if text.head? = some '\n' then normalizeLineEnds text else '\n' :: normalizeLineEnds text
      else c :: normalizeLineEnds text

/-! ### The tree of a document -/

/-- A node of a document: a character, or an element with its attributes and its content. -/
inductive Node where
  | char (c : Char)
  | element (name : Str) (attributes : List (Str × Str)) (children : List Node)

/-- The character data directly in some content. -/
def textOf (nodes : List Node) : Str :=
  nodes.filterMap fun node =>
    match node with
    | .char c => some c
    | .element _ _ _ => none

/-- The elements of a name directly in some content: their attributes and their content. -/
def elements (name : Str) (nodes : List Node) : List (List (Str × Str) × List Node) :=
  nodes.filterMap fun node =>
    match node with
    | .char _ => none
    | .element name' attributes children =>
        if name' = name then some (attributes, children) else none

/-- The values of the attributes of a name. -/
def valuesOf (name : Str) (attributes : List (Str × Str)) : List Str :=
  attributes.filterMap fun attr => if attr.1 = name then some attr.2 else none

@[simp] theorem textOf_map_char (text : Str) : textOf (text.map .char) = text := by
  induction text with
  | nil => rfl
  | cons c text ih => exact congrArg (c :: ·) ih

@[simp] theorem elements_nil (name : Str) : elements name [] = [] := rfl

@[simp] theorem elements_append (name : Str) (nodes nodes' : List Node) :
    elements name (nodes ++ nodes') = elements name nodes ++ elements name nodes' :=
  List.filterMap_append

@[simp] theorem elements_char (name : Str) (c : Char) (nodes : List Node) :
    elements name (.char c :: nodes) = elements name nodes := rfl

@[simp] theorem elements_element (name : Str) (attributes : List (Str × Str))
    (children nodes : List Node) : elements name (.element name attributes children :: nodes) =
      (attributes, children) :: elements name nodes := by
  simp [elements]

theorem elements_of_ne {name name' : Str} (h : name' ≠ name) (attributes : List (Str × Str))
    (children nodes : List Node) :
    elements name (.element name' attributes children :: nodes) = elements name nodes := by
  simp [elements, h]

/-- The elements of content that is put together item by item. -/
theorem elements_flatMap {α : Type} (name : Str) (items : List α) (nodes : α → List Node) :
    elements name (items.flatMap nodes) = items.flatMap fun a => elements name (nodes a) := by
  induction items with
  | nil => rfl
  | cons a items ih => rw [List.flatMap_cons, elements_append, ih, List.flatMap_cons]

/-- A start tag. -/
structure Tag where
  name : Str
  attributes : List (Str × Str)

/-- An element whose end is not read yet. -/
structure Frame where
  tag : Tag
  children : List Node

/-- An open element with more content. -/
def Frame.add (frame : Frame) (nodes : List Node) : Frame :=
  { frame with children := frame.children ++ nodes }

@[simp] theorem Frame.add_nil (frame : Frame) : frame.add [] = frame := by
  simp [add]

@[simp] theorem Frame.add_add (frame : Frame) (nodes nodes' : List Node) :
    (frame.add nodes).add nodes' = frame.add (nodes ++ nodes') := by
  simp [add]

/-! ### The parser -/

/-- What is being read. -/
inductive Mode where
  /-- Content, after some closing brackets. -/
  | content (brackets : ℕ)
  | reference (text : Str)
  /-- The character after `<`. -/
  | markup
  | target (name : Str)
  /-- A processing instruction, after a question mark or not. -/
  | instruction (question : Bool)
  | start (name : Str)
  /-- Between the attributes of a start tag, after white space or not. -/
  | inside (tag : Tag) (blank : Bool)
  | attributeName (tag : Tag) (name : Str)
  /-- After the equals sign of an attribute. -/
  | equals (tag : Tag) (name : Str)
  | value (tag : Tag) (name : Str) (quote : Char) (value : Str)
  | valueReference (tag : Tag) (name : Str) (quote : Char) (value text : Str)
  /-- After the slash of an empty element. -/
  | slash (tag : Tag)
  | finish (name : Str)

/-- The state of the parser: what is being read, the open elements, the innermost first, and
the elements outside of all others. -/
structure State where
  mode : Mode
  opened : List Frame
  finished : List Node

/-- Adds a character to the content. Outside of the root element there is only white space. -/
def State.addChar (state : State) (c : Char) (mode : Mode) : Option State :=
  match state.opened with
  | [] => if isBlank c then some { state with mode } else none
  | frame :: frames => some { state with mode, opened := frame.add [.char c] :: frames }

/-- Adds a character that a reference stands for. -/
def State.addReferenced (state : State) (c : Char) : Option State :=
  match state.opened with
  | [] => none
  | frame :: frames =>
      some { state with mode := .content 0, opened := frame.add [.char c] :: frames }

/-- Opens an element. -/
def State.openElement (state : State) (tag : Tag) : State :=
  { state with mode := .content 0, opened := ⟨tag, []⟩ :: state.opened }

/-- Adds an element that is complete. -/
def State.addElement (state : State) (node : Node) (frames : List Frame) : State :=
  match frames with
  | [] => ⟨.content 0, [], state.finished ++ [node]⟩
  | frame :: frames => ⟨.content 0, frame.add [node] :: frames, state.finished⟩

/-- Closes the innermost element, whose name the end tag repeats. -/
def State.closeElement (state : State) (name : Str) : Option State :=
  match state.opened with
  | [] => none
  | frame :: frames =>
      if frame.tag.name = name then
        some (state.addElement (.element name frame.tag.attributes frame.children) frames)
      else none

/-- Adds an attribute to a start tag, which has no other of its name. -/
def Tag.addAttribute (tag : Tag) (name value : Str) : Option Tag :=
  if name ∈ tag.attributes.map Prod.fst then none
  else some { tag with attributes := tag.attributes ++ [(name, value)] }

/-- A character of content. -/
def State.stepContent (state : State) (brackets : ℕ) (c : Char) : Option State :=
  if c = '<' then some { state with mode := .markup }
  else if c = '&' then some { state with mode := .reference [] }
  else if c = '>' ∧ 2 ≤ brackets then none
  else state.addChar c (.content (if c = ']' then brackets + 1 else 0))

/-- A character of a start tag that is neither in a name nor in a value. -/
def State.stepTag (state : State) (tag : Tag) (c : Char) : Option State :=
  if c = '>' then some (state.openElement tag)
  else if c = '/' then some { state with mode := .slash tag }
  else if isBlank c then some { state with mode := .inside tag true }
  else none

/-- A character of the value of an attribute. -/
def State.stepValue (state : State) (tag : Tag) (name : Str) (quote : Char) (value : Str)
    (c : Char) : Option State :=
  if c = quote then
    (tag.addAttribute name value).map fun tag => { state with mode := .inside tag false }
  else if c = '<' then none
  else if c = '&' then some { state with mode := .valueReference tag name quote value [] }
  else
    some { state with mode := .value tag name quote (value ++ [if isBlank c then ' ' else c]) }

/-- Reads one character. -/
def State.step (state : State) (c : Char) : Option State :=
  match state.mode with
  | .content brackets => state.stepContent brackets c
  | .reference text =>
      if c = ';' then (resolve text).bind state.addReferenced
      else some { state with mode := .reference (text ++ [c]) }
  | .markup =>
      if c = '/' then some { state with mode := .finish [] }
      else if c = '?' then some { state with mode := .target [] }
      else if isNameStart c then some { state with mode := .start [c] }
      else none
  | .target name =>
      if isBlank c then
        if isTarget name then some { state with mode := .instruction false } else none
      else some { state with mode := .target (name ++ [c]) }
  | .instruction question =>
      if question = true ∧ c = '>' then some { state with mode := .content 0 }
      else some { state with mode := .instruction (c = '?') }
  | .start name =>
      if isNameChar c then some { state with mode := .start (name ++ [c]) }
      else state.stepTag ⟨name, []⟩ c
  | .inside tag blank =>
      if blank = true ∧ isNameStart c = true then some { state with mode := .attributeName tag [c] }
      else state.stepTag tag c
  | .attributeName tag name =>
      if c = '=' then some { state with mode := .equals tag name }
      else if isNameChar c then some { state with mode := .attributeName tag (name ++ [c]) }
      else none
  | .equals tag name =>
      if c = '"' ∨ c = '\'' then some { state with mode := .value tag name c [] } else none
  | .value tag name quote value => state.stepValue tag name quote value c
  | .valueReference tag name quote value text =>
      if c = ';' then
        (resolve text).map fun d => { state with mode := .value tag name quote (value ++ [d]) }
      else some { state with mode := .valueReference tag name quote value (text ++ [c]) }
  | .slash tag =>
      if c = '>' then some (state.addElement (.element tag.name tag.attributes []) state.opened)
      else none
  | .finish name =>
      if c = '>' then state.closeElement name
      else some { state with mode := .finish (name ++ [c]) }

/-- Reads a text. -/
def State.feed (state : State) (text : Str) : Option State :=
  text.foldlM State.step state

/-- Before anything is read. -/
def State.initial : State :=
  ⟨.content 0, [], []⟩

/-- The root element, once the document is read. -/
def State.document (state : State) : Option Node :=
  match state.mode, state.opened, state.finished with
  | .content _, [], [root] => some root
  | _, _, _ => none

/-- The declaration of a document. -/
def declaration : Str :=
  "<?xml version=\"1.0\"?>".toList

/-- Parses a document; its root element, if it is well-formed. -/
def parseDocument (text : Str) : Option Node :=
  if text.all isChar then
    let text := normalizeLineEnds text
    (State.initial.feed ((stripPrefix declaration text).getD text)).bind State.document
  else none

/-! ### Reading text by text -/

theorem State.feed_append (state : State) (s t : Str) :
    state.feed (s ++ t) = (state.feed s).bind (·.feed t) := by
  rw [feed, List.foldlM_append]
  rfl

theorem State.feed_cons (state : State) (c : Char) (text : Str) :
    state.feed (c :: text) = (state.step c).bind (·.feed text) :=
  List.foldlM_cons

@[simp] theorem State.feed_nil (state : State) : state.feed [] = some state := rfl

/-- Characters that are collected one by one: the mode holds what was collected before. -/
theorem feed_collect (mode : Str → Mode) {opened : List Frame} {finished : List Node}
    {text : Str} (h : ∀ c ∈ text, ∀ before, State.step ⟨mode before, opened, finished⟩ c =
      some ⟨mode (before ++ [c]), opened, finished⟩) (before rest : Str) :
    State.feed ⟨mode before, opened, finished⟩ (text ++ rest) =
      State.feed ⟨mode (before ++ text), opened, finished⟩ rest := by
  induction text generalizing before with
  | nil => rw [List.nil_append, List.append_nil]
  | cons c text ih =>
      rw [List.cons_append, State.feed_cons, h c List.mem_cons_self, Option.bind_some,
        ih fun d hd => h d (List.mem_cons_of_mem c hd), List.append_assoc]
      rfl

/-- A text is read as some nodes, wherever it stands in the content of an element. -/
def Reads (raw : Str) (nodes : List Node) : Prop :=
  ∀ frame frames finished, State.feed ⟨.content 0, frame :: frames, finished⟩ raw =
    some ⟨.content 0, frame.add nodes :: frames, finished⟩

theorem Reads.nil : Reads [] [] := by
  intro frame frames finished
  rw [Frame.add_nil, State.feed_nil]

/-- A text is read in one way. -/
theorem Reads.unique {raw : Str} {nodes nodes' : List Node} (h : Reads raw nodes)
    (h' : Reads raw nodes') : nodes = nodes' := by
  have heq := (h ⟨⟨[], []⟩, []⟩ [] []).symm.trans (h' ⟨⟨[], []⟩, []⟩ [] [])
  simpa [Frame.add] using heq

theorem Reads.append {raw raw' : Str} {nodes nodes' : List Node} (h : Reads raw nodes)
    (h' : Reads raw' nodes') : Reads (raw ++ raw') (nodes ++ nodes') := by
  intro frame frames finished
  rw [State.feed_append, h, Option.bind_some, h', Frame.add_add]

/-- Texts after each other, one for each item of a list. -/
theorem Reads.flatMap {α : Type} {items : List α} {raw : α → Str} {nodes : α → List Node}
    (h : ∀ a ∈ items, Reads (raw a) (nodes a)) :
    Reads (items.flatMap raw) (items.flatMap nodes) :=
  related_flatMap Reads.nil Reads.append h

theorem Reads.lineFeed : Reads ['\n'] [.char '\n'] := by
  intro frame frames finished
  rfl

/-! ### Character data -/

/-- A text is read as some characters. Where it ends in closing brackets the parser
remembers them. -/
def ReadsText (raw text : Str) : Prop :=
  ∀ brackets frame frames finished, ∃ brackets',
    State.feed ⟨.content brackets, frame :: frames, finished⟩ raw =
      some ⟨.content brackets', frame.add (text.map .char) :: frames, finished⟩

theorem ReadsText.nil : ReadsText [] [] := by
  intro brackets frame frames finished
  exact ⟨brackets, by rw [List.map_nil, Frame.add_nil, State.feed_nil]⟩

theorem ReadsText.append {raw raw' text text' : Str} (h : ReadsText raw text)
    (h' : ReadsText raw' text') : ReadsText (raw ++ raw') (text ++ text') := by
  intro brackets frame frames finished
  obtain ⟨brackets', hfirst⟩ := h brackets frame frames finished
  obtain ⟨brackets'', hsecond⟩ := h' brackets' (frame.add (text.map .char)) frames finished
  refine ⟨brackets'', ?_⟩
  rw [State.feed_append, hfirst, Option.bind_some, hsecond, Frame.add_add, List.map_append]

/-- A character without a meaning of its own. -/
theorem ReadsText.literal {c : Char} (h : c ≠ '<' ∧ c ≠ '&' ∧ c ≠ '>') : ReadsText [c] [c] := by
  intro brackets frame frames finished
  have hstep : State.step ⟨.content brackets, frame :: frames, finished⟩ c =
      some ⟨.content (if c = ']' then brackets + 1 else 0), frame.add [.char c] :: frames,
        finished⟩ :=
    (if_neg h.1).trans ((if_neg h.2.1).trans (if_neg fun hend => h.2.2 hend.1))
  exact ⟨_, by rw [State.feed_cons, hstep]; rfl⟩

/-- The characters of a reference are collected until its semicolon. -/
theorem feed_reference (opened : List Frame) (finished : List Node) {text : Str}
    (h : ';' ∉ text) (rest : Str) :
    State.feed ⟨.reference [], opened, finished⟩ (text ++ rest) =
      State.feed ⟨.reference text, opened, finished⟩ rest :=
  feed_collect Mode.reference (fun _ hc _ => if_neg (ne_of_mem_of_not_mem hc h)) [] rest

/-- A reference is read as the character it stands for. -/
theorem ReadsText.reference (text : Str) {c : Char} (hresolve : resolve text = some c)
    (h : ';' ∉ text) : ReadsText ('&' :: (text ++ [';'])) [c] := by
  intro brackets frame frames finished
  refine ⟨0, ?_⟩
  have hopen : State.step ⟨.content brackets, frame :: frames, finished⟩ '&' =
      some ⟨.reference [], frame :: frames, finished⟩ := rfl
  have hclose : State.step ⟨.reference text, frame :: frames, finished⟩ ';' =
      some ⟨.content 0, frame.add [.char c] :: frames, finished⟩ :=
    congrArg (Option.bind · (State.addReferenced ⟨.reference text, frame :: frames, finished⟩))
      hresolve
  rw [State.feed_cons, hopen, Option.bind_some, feed_reference _ _ h, State.feed_cons, hclose]
  rfl

/-! ### Tags -/

/-- The text of an attribute. -/
def attributeText (attr : Str × Str) : Str :=
  ' ' :: (attr.1 ++ '=' :: '"' :: (attr.2 ++ ['"']))

/-- The text of a tag up to its end. -/
def tagText (tag : Tag) : Str :=
  '<' :: (tag.name ++ tag.attributes.flatMap attributeText)

/-- The text of a start tag. -/
def startTag (tag : Tag) : Str :=
  tagText tag ++ ['>']

/-- The text of an end tag. -/
def endTag (name : Str) : Str :=
  '<' :: '/' :: (name ++ ['>'])

/-- The text of an element without content. -/
def emptyTag (tag : Tag) : Str :=
  tagText tag ++ ['/', '>']

/-- A value that stands in an attribute as it is. -/
def isLiteral (value : Str) : Bool :=
  value.all fun c => isChar c && c ≠ '"' && c ≠ '<' && c ≠ '&' && (c = ' ' || !isBlank c)

/-- A tag whose text is read as the tag: names are names, no attribute is there twice, and
values need no escape. -/
structure Tag.Valid (tag : Tag) : Prop where
  name : isName tag.name = true
  attributes : ∀ attr ∈ tag.attributes,
    isName attr.1 = true ∧ isLiteral attr.2 = true
  nodup : (tag.attributes.map Prod.fst).Nodup

/-- The characters of a name in a start tag. -/
theorem feed_start (opened : List Frame) (finished : List Node) {name : Str}
    (h : name.all isNameChar = true) (before rest : Str) :
    State.feed ⟨.start before, opened, finished⟩ (name ++ rest) =
      State.feed ⟨.start (before ++ name), opened, finished⟩ rest :=
  feed_collect Mode.start (fun c hc _ => if_pos (List.all_eq_true.mp h c hc)) before rest

/-- The characters of the name of an attribute. -/
theorem feed_attribute (tag : Tag) (opened : List Frame) (finished : List Node) {name : Str}
    (h : name.all isNameChar = true) (before rest : Str) :
    State.feed ⟨.attributeName tag before, opened, finished⟩ (name ++ rest) =
      State.feed ⟨.attributeName tag (before ++ name), opened, finished⟩ rest := by
  refine feed_collect (Mode.attributeName tag) (fun c hc before => ?_) before rest
  have hname := List.all_eq_true.mp h c hc
  have hne : c ≠ '=' := by
    rintro rfl
    exact absurd hname (by decide)
  exact (if_neg hne).trans (if_pos hname)

/-- The characters of a value that stands as it is. -/
theorem feed_value (tag : Tag) (name : Str) (opened : List Frame) (finished : List Node)
    {value : Str} (h : isLiteral value = true) (before rest : Str) :
    State.feed ⟨.value tag name '"' before, opened, finished⟩ (value ++ rest) =
      State.feed ⟨.value tag name '"' (before ++ value), opened, finished⟩ rest := by
  refine feed_collect (Mode.value tag name '"') (fun c hc before => ?_) before rest
  have hliteral := List.all_eq_true.mp h c hc
  simp only [Bool.and_eq_true, decide_eq_true_eq, Bool.or_eq_true, Bool.not_eq_true'] at hliteral
  obtain ⟨⟨⟨⟨-, hquote⟩, hless⟩, hand⟩, hblank⟩ := hliteral
  have hkept : (if isBlank c = true then ' ' else c) = c := by
    rcases hblank with rfl | hblank
    · rfl
    · rw [hblank]
      rfl
  have hstep : State.step ⟨.value tag name '"' before, opened, finished⟩ c =
      some ⟨.value tag name '"' (before ++ [if isBlank c then ' ' else c]), opened, finished⟩ :=
    (if_neg hquote).trans ((if_neg hless).trans (if_neg hand))
  rw [hstep, hkept]

/-- One attribute, after the name of the tag or another attribute. -/
theorem feed_attributeText (tag : Tag) (opened : List Frame) (finished : List Node)
    {attr : Str × Str} {mode : Mode} (hmode : mode = .start tag.name ∧ tag.attributes = [] ∨
      mode = .inside tag false) (hname : isName attr.1 = true)
    (hvalue : isLiteral attr.2 = true) (hnew : attr.1 ∉ tag.attributes.map Prod.fst)
    (rest : Str) :
    State.feed ⟨mode, opened, finished⟩ (attributeText attr ++ rest) =
      State.feed ⟨.inside ⟨tag.name, tag.attributes ++ [attr]⟩ false, opened, finished⟩
        rest := by
  obtain ⟨name, attributes⟩ := tag
  obtain ⟨key, value⟩ := attr
  have hblank : State.step ⟨mode, opened, finished⟩ ' ' =
      some ⟨.inside ⟨name, attributes⟩ true, opened, finished⟩ := by
    rcases hmode with ⟨rfl, hnone⟩ | rfl
    · obtain rfl : attributes = [] := hnone
      rfl
    · rfl
  rcases key with _ | ⟨c, key⟩
  · exact absurd hname Bool.false_ne_true
  · rw [isName, Bool.and_eq_true] at hname
    have hstart : State.step ⟨.inside ⟨name, attributes⟩ true, opened, finished⟩ c =
        some ⟨.attributeName ⟨name, attributes⟩ [c], opened, finished⟩ :=
      if_pos ⟨rfl, hname.1⟩
    have hend : State.step ⟨.value ⟨name, attributes⟩ (c :: key) '"' value, opened, finished⟩ '"' =
        some ⟨.inside ⟨name, attributes ++ [(c :: key, value)]⟩ false, opened, finished⟩ :=
      congrArg (Option.map fun tag => (⟨.inside tag false, opened, finished⟩ : State))
        (if_neg hnew)
    have htext : attributeText (c :: key, value) ++ rest =
        ' ' :: c :: (key ++ '=' :: '"' :: (value ++ '"' :: rest)) := by
      simp [attributeText]
    rw [htext, State.feed_cons, hblank, Option.bind_some, State.feed_cons, hstart,
      Option.bind_some, feed_attribute _ _ _ hname.2]
    refine (feed_value ⟨name, attributes⟩ (c :: key) _ _ hvalue [] _).trans ?_
    rw [State.feed_cons, List.nil_append, hend, Option.bind_some]

/-- The attributes of a tag, one after the other. -/
theorem feed_attributes (tag : Tag) (opened : List Frame) (finished : List Node)
    {attributes : List (Str × Str)} (h : ∀ attr ∈ attributes,
      isName attr.1 = true ∧ isLiteral attr.2 = true)
    (hnodup : ((tag.attributes ++ attributes).map Prod.fst).Nodup) (rest : Str) :
    State.feed ⟨.inside tag false, opened, finished⟩ (attributes.flatMap attributeText ++ rest) =
      State.feed ⟨.inside ⟨tag.name, tag.attributes ++ attributes⟩ false, opened, finished⟩
        rest := by
  induction attributes generalizing tag with
  | nil => rw [List.append_nil]; rfl
  | cons attr attributes ih =>
      obtain ⟨hname, hvalue⟩ := h attr List.mem_cons_self
      have hnew : attr.1 ∉ tag.attributes.map Prod.fst := by
        rw [List.map_append, List.nodup_append] at hnodup
        exact fun hmem => hnodup.2.2 _ hmem _ List.mem_cons_self rfl
      rw [List.flatMap_cons, List.append_assoc,
        feed_attributeText tag opened finished (.inr rfl) hname hvalue hnew,
        ih ⟨tag.name, tag.attributes ++ [attr]⟩ (fun a ha => h a (List.mem_cons_of_mem _ ha))
          (by simpa using hnodup),
        List.append_assoc]
      rfl

/-- **A tag up to its end**, which what ends it then closes as the source of `stepTag`. -/
theorem feed_tagText {tag : Tag} (hvalid : tag.Valid) {brackets : ℕ} (opened : List Frame)
    (finished : List Node) {c : Char} (hc : c ∈ ['>', '/']) (rest : Str) :
    State.feed ⟨.content brackets, opened, finished⟩ (tagText tag ++ c :: rest) =
      (State.stepTag ⟨.inside tag false, opened, finished⟩ tag c).bind (·.feed rest) := by
  obtain ⟨name, attributes⟩ := tag
  obtain ⟨hname, hattributes, hnodup⟩ := hvalid
  rcases name with _ | ⟨d, name⟩
  · exact absurd hname Bool.false_ne_true
  · rw [isName, Bool.and_eq_true] at hname
    have hslash : d ≠ '/' := by
      rintro rfl
      exact absurd hname.1 (by decide)
    have hquestion : d ≠ '?' := by
      rintro rfl
      exact absurd hname.1 (by decide)
    have hstart : State.step ⟨.markup, opened, finished⟩ d =
        some ⟨.start [d], opened, finished⟩ :=
      (if_neg hslash).trans ((if_neg hquestion).trans (if_pos hname.1))
    have htext : tagText ⟨d :: name, attributes⟩ ++ c :: rest =
        '<' :: d :: (name ++ (attributes.flatMap attributeText ++ c :: rest)) := by
      simp [tagText]
    have hopen : State.step ⟨.content brackets, opened, finished⟩ '<' =
        some ⟨.markup, opened, finished⟩ := rfl
    rw [htext, State.feed_cons, hopen, Option.bind_some, State.feed_cons, hstart,
      Option.bind_some, feed_start _ _ hname.2]
    rcases attributes with _ | ⟨attr, attributes⟩
    · have hend : isNameChar c = false := by
        rcases List.mem_pair.mp hc with rfl | rfl <;> decide
      rw [List.flatMap_nil, List.nil_append, State.feed_cons]
      exact congrArg (Option.bind · _) (if_neg (by simp [hend]))
    · obtain ⟨hkey, hvalue⟩ := hattributes attr List.mem_cons_self
      have hfirst := feed_attributeText ⟨d :: name, []⟩ opened finished
        (.inl ⟨rfl, rfl⟩) hkey hvalue List.not_mem_nil
      have hothers := feed_attributes ⟨d :: name, [attr]⟩ opened finished
        (fun a ha => hattributes a (List.mem_cons_of_mem _ ha)) hnodup
      rw [List.flatMap_cons, List.append_assoc]
      refine (hfirst _).trans ((hothers _).trans ?_)
      rw [State.feed_cons]
      rfl

/-- A start tag opens its element. -/
theorem feed_startTag {tag : Tag} (hvalid : tag.Valid) (brackets : ℕ) (opened : List Frame)
    (finished : List Node) :
    State.feed ⟨.content brackets, opened, finished⟩ (startTag tag) =
      some ⟨.content 0, ⟨tag, []⟩ :: opened, finished⟩ :=
  feed_tagText hvalid opened finished (by decide) []

/-- The characters of an end tag are collected. -/
theorem feed_finish (opened : List Frame) (finished : List Node) {name : Str} (h : '>' ∉ name)
    (rest : Str) :
    State.feed ⟨.finish [], opened, finished⟩ (name ++ rest) =
      State.feed ⟨.finish name, opened, finished⟩ rest :=
  feed_collect Mode.finish (fun _ hc _ => if_neg (ne_of_mem_of_not_mem hc h)) [] rest

theorem not_mem_of_isName {name : Str} (h : isName name = true) : '>' ∉ name := by
  rcases name with _ | ⟨c, name⟩
  · exact List.not_mem_nil
  · rw [isName, Bool.and_eq_true, List.all_eq_true] at h
    intro hmem
    rcases List.mem_cons.mp hmem with rfl | hmem
    · exact absurd h.1 (by decide)
    · exact absurd (h.2 _ hmem) (by decide)

/-- An end tag closes the element of its name. -/
theorem feed_endTag (frame : Frame) (h : isName frame.tag.name = true) (brackets : ℕ)
    (frames : List Frame) (finished : List Node) :
    State.feed ⟨.content brackets, frame :: frames, finished⟩ (endTag frame.tag.name) =
      some (State.addElement ⟨.finish frame.tag.name, frame :: frames, finished⟩
        (.element frame.tag.name frame.tag.attributes frame.children) frames) := by
  have hopen : ∀ rest, State.feed ⟨.content brackets, frame :: frames, finished⟩
      ('<' :: '/' :: rest) = State.feed ⟨.finish [], frame :: frames, finished⟩ rest :=
    fun _ => rfl
  have hclose : State.step ⟨.finish frame.tag.name, frame :: frames, finished⟩ '>' =
      some (State.addElement ⟨.finish frame.tag.name, frame :: frames, finished⟩
        (.element frame.tag.name frame.tag.attributes frame.children) frames) :=
    if_pos rfl
  rw [endTag, hopen, feed_finish _ _ (not_mem_of_isName h), State.feed_cons, hclose]
  rfl

/-! ### Elements -/

/-- **An element** is read as its content between its tags. -/
theorem Reads.element {tag : Tag} (hvalid : tag.Valid) {raw : Str} {nodes : List Node}
    (h : Reads raw nodes) :
    Reads (startTag tag ++ raw ++ endTag tag.name) [.element tag.name tag.attributes nodes] := by
  intro frame frames finished
  rw [State.feed_append, State.feed_append, feed_startTag hvalid, Option.bind_some, h,
    Option.bind_some]
  exact feed_endTag (Frame.add ⟨tag, []⟩ nodes) hvalid.name 0 (frame :: frames) finished

/-- **An element with character data only.** -/
theorem Reads.textElement {tag : Tag} (hvalid : tag.Valid) {raw text : Str}
    (h : ReadsText raw text) :
    Reads (startTag tag ++ raw ++ endTag tag.name)
      [.element tag.name tag.attributes (text.map .char)] := by
  intro frame frames finished
  obtain ⟨brackets, htext⟩ := h 0 ⟨tag, []⟩ (frame :: frames) finished
  rw [State.feed_append, State.feed_append, feed_startTag hvalid, Option.bind_some, htext,
    Option.bind_some]
  exact feed_endTag (Frame.add ⟨tag, []⟩ (text.map .char)) hvalid.name brackets
    (frame :: frames) finished

/-- **An element without content.** -/
theorem Reads.emptyElement {tag : Tag} (hvalid : tag.Valid) :
    Reads (emptyTag tag) [.element tag.name tag.attributes []] := by
  intro frame frames finished
  exact feed_tagText hvalid (frame :: frames) finished (by decide) ['>']

/-! ### Line ends -/

/-- A text whose line ends are normalised on its own, whatever follows it. -/
def Normal (raw normal : Str) : Prop :=
  ∀ rest, normalizeLineEnds (raw ++ rest) = normal ++ normalizeLineEnds rest

theorem Normal.append {raw raw' normal normal' : Str} (h : Normal raw normal)
    (h' : Normal raw' normal') : Normal (raw ++ raw') (normal ++ normal') := by
  intro rest
  rw [List.append_assoc, h, h', List.append_assoc]

theorem Normal.flatMap {α : Type} {items : List α} {raw normal : α → Str}
    (h : ∀ a ∈ items, Normal (raw a) (normal a)) :
    Normal (items.flatMap raw) (items.flatMap normal) :=
  related_flatMap (fun _ => rfl) Normal.append h

/-- A text without carriage returns is normal. -/
theorem normal_of_not_mem {text : Str} (h : '\r' ∉ text) : Normal text text := by
  intro rest
  induction text with
  | nil => rfl
  | cons c text ih =>
      rw [List.mem_cons, not_or] at h
      rw [List.cons_append, normalizeLineEnds, if_neg (Ne.symm h.1), ih h.2, List.cons_append]

/-- Before a character other than a line feed a text is normalised on its own. -/
theorem normalizeLineEnds_append {c : Char} (hfeed : c ≠ '\n') (hreturn : c ≠ '\r')
    (text rest : Str) :
    normalizeLineEnds (text ++ c :: rest) =
      normalizeLineEnds text ++ c :: normalizeLineEnds rest := by
  induction text with
  | nil => exact if_neg hreturn
  | cons d text ih =>
      have hhead : (text ++ c :: rest).head? = some '\n' ↔ text.head? = some '\n' := by
        rcases text with _ | ⟨e, text⟩
        · simp [hfeed]
        · simp
      rw [List.cons_append, normalizeLineEnds, normalizeLineEnds, ih]
      simp only [hhead]
      split_ifs <;> rfl

/-- The carriage returns are what normalisation changes. -/
theorem normalizeLineEnds_eq_self_iff {text : Str} :
    normalizeLineEnds text = text ↔ '\r' ∉ text := by
  constructor
  · intro heq hmem
    have hnone : ∀ text : Str, '\r' ∉ normalizeLineEnds text := by
      intro text
      clear heq hmem
      induction text with
      | nil => exact List.not_mem_nil
      | cons c text ih =>
          rw [normalizeLineEnds]
          split_ifs with hreturn hhead
          · exact ih
          · exact fun hmem => ih (List.mem_of_ne_of_mem (by decide) hmem)
          · exact fun hmem => ih (List.mem_of_ne_of_mem (Ne.symm hreturn) hmem)
    exact hnone text (heq.symm ▸ hmem)
  · intro h
    simpa [normalizeLineEnds] using normal_of_not_mem h []

/-! ### Documents -/

/-- **A document**: the declaration, what is read outside of the root element, the root, and
a line feed. -/
theorem parseDocument_eq {text prolog raw : Str} {tag : Tag} {nodes : List Node}
    (hchars : text.all isChar = true)
    (hnormal : Normal text
      (declaration ++ prolog ++ (startTag tag ++ raw ++ endTag tag.name) ++ ['\n']))
    (hprolog : State.initial.feed prolog = some State.initial) (hvalid : tag.Valid)
    (h : Reads raw nodes) :
    parseDocument text = some (.element tag.name tag.attributes nodes) := by
  have htext : normalizeLineEnds text =
      declaration ++ (prolog ++ (startTag tag ++ (raw ++ (endTag tag.name ++ ['\n'])))) := by
    simpa [normalizeLineEnds] using hnormal []
  have hraw := h ⟨tag, []⟩ [] []
  have hend := feed_endTag (Frame.add ⟨tag, []⟩ nodes) hvalid.name 0 [] []
  have hfeed : State.initial.feed
      (prolog ++ (startTag tag ++ (raw ++ (endTag tag.name ++ ['\n'])))) =
      some ⟨.content 0, [], [.element tag.name tag.attributes nodes]⟩ := by
    have hstart := feed_startTag hvalid 0 [] []
    rw [State.feed_append, hprolog, Option.bind_some, State.feed_append, State.initial, hstart,
      Option.bind_some, State.feed_append, hraw, Option.bind_some, State.feed_append]
    exact (congrArg (Option.bind · _) hend).trans rfl
  rw [parseDocument, if_pos hchars, htext]
  simp only [stripPrefix_append, Option.getD_some, hfeed]
  rfl

end Xml
