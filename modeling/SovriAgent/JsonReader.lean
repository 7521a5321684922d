import SovriAgent.DockerScanner
import SovriAgent.JsonLexemes

/-!
# What the Reader of daemon.json Accepts

The reader of `daemon.json` is compared with the grammar of JSON. It reads every text of the
grammar and nothing else, with one exception: a text with an escape of a surrogate, so also one
with a surrogate pair, which stands for one character, is rejected, and the configuration
counts as malformed.

## Main results

* `IsJsonValue.readAs`: what is read of a value of the grammar.
* `Sound.parseValue`: what is read is a value of the grammar.
* `parse_json_iff`: the texts on which the reader is a reader of JSON.
-/

namespace SovriAgent

open JsonParser JsonTree

/-! ### What a tree stands for -/

/-- The value of a literal name or a number, whose digits are dropped. -/
def literalValue (t : Str) : JsonValue :=
  if t = "true".toList then .bool true
  else if t = "false".toList then .bool false
  else if t = "null".toList then .null
  else .num

mutual

/-- The value of a tree, if its strings and keys have texts. -/
def valueWith (text : Str → Option Str) : JsonTree → Option JsonValue
  | .str raw => (text raw).map JsonValue.str
  | .token t => some (literalValue t)
  | .array items => (itemsWith text items).map JsonValue.array
  | .object members => (membersWith text members).map JsonValue.object

/-- The values of items. -/
def itemsWith (text : Str → Option Str) : List JsonTree → Option (List JsonValue)
  | [] => some []
  | item :: items =>
      (valueWith text item).bind fun value => (itemsWith text items).map (value :: ·)

/-- The keys and values of members. -/
def membersWith (text : Str → Option Str) :
    List (Str × JsonTree) → Option (List (Str × JsonValue))
  | [] => some []
  | (key, item) :: members =>
      (text key).bind fun key => (valueWith text item).bind fun value =>
        (membersWith text members).map ((key, value) :: ·)

end

/-- The value of a tree: in its strings, two escapes of surrogates make one character. -/
def jsonValue (tree : JsonTree) : Option JsonValue :=
  valueWith stringValue tree

/-- The value of a tree none of whose escapes is a surrogate. -/
def scalarValue (tree : JsonTree) : Option JsonValue :=
  valueWith scalarText tree

/-! ### Values of the grammar -/

/-- A text is read as a result, whatever white space stands before it and whatever token may
follow it, by every budget above three times the length of all that. -/
def ReadAs (text : Str) (result : Option JsonValue) : Prop :=
  ∀ before rest fuel, JsonSpace before → EndsToken rest →
    3 * (before ++ (text ++ rest)).length < fuel →
    parseValue fuel (before ++ (text ++ rest)) = result.map fun value => (value, rest)

/-- White space ends a token. -/
theorem endsToken_of_space {space : Str} (h : JsonSpace space) : EndsToken space := by
  cases space with
  | nil => exact endsToken_nil
  | cons d space =>
      refine endsToken_cons.mpr ?_
      rcases h d List.mem_cons_self with rfl | rfl | rfl | rfl <;> rfl

/-- So does a character that is part of no token, also after white space. -/
theorem endsToken_space {space : Str} (h : JsonSpace space) {c : Char} (hc : isTokenChar c = false)
    (rest : Str) : EndsToken (space ++ c :: rest) := by
  cases space with
  | nil => exact endsToken_cons.mpr hc
  | cons d space => exact endsToken_cons.mpr (endsToken_cons.mp (endsToken_of_space h))

/-- A string is read as the text it denotes. -/
theorem readAs_str {raw : Str} (h : StringBody raw) :
    ReadAs (quoted raw) (scalarValue (.str raw)) := by
  intro before rest fuel hbefore _ hfuel
  obtain ⟨fuel, rfl⟩ : ∃ n, fuel = n + 1 := ⟨fuel - 1, by omega⟩
  have hskip : skipWhitespace (before ++ (quoted raw ++ rest)) = '"' :: (raw ++ '"' :: rest) := by
    have hshape : quoted raw ++ rest = '"' :: (raw ++ '"' :: rest) := by simp [quoted]
    rw [hshape]
    exact skipWhitespace_eq hbefore (by decide) _
  rw [parseValue, hskip]
  change (parseString (raw ++ '"' :: rest)).map _ = _
  rw [parseString_body h, scalarValue, valueWith, Option.map_map, Option.map_map]
  rfl

/-- A keyword is read as its value. -/
theorem readAs_keyword {word : String} {c : Char} {tail : Str} {value : JsonValue}
    (hword : word.toList = c :: tail) (hspace : ¬ (c = ' ' ∨ c = '\t' ∨ c = '\n' ∨ c = '\r'))
    (hdispatch : ∀ fuel rest text, skipWhitespace text = c :: rest →
      parseValue (fuel + 1) text = parseKeyword word value (c :: rest)) :
    ReadAs word.toList (some value) := by
  intro before rest fuel hbefore _ hfuel
  obtain ⟨fuel, rfl⟩ : ∃ n, fuel = n + 1 := ⟨fuel - 1, by omega⟩
  have hskip : skipWhitespace (before ++ (word.toList ++ rest)) = c :: (tail ++ rest) := by
    rw [hword]
    exact skipWhitespace_eq hbefore hspace _
  rw [hdispatch fuel _ _ hskip, parseKeyword, ← List.cons_append, ← hword, stripPrefix_append]
  rfl

/-- A number starts with a digit or a minus sign. -/
theorem head_number {t : Str} (h : NumberToken t) :
    ∃ c tail, t = c :: tail ∧ (c = '-' ∨ c.isDigit = true) := by
  obtain ⟨sign, whole, fraction, exponent, rfl, hsign, hwhole, -⟩ := h
  rcases hsign with rfl | rfl
  · obtain ⟨c, digits, rfl⟩ := List.exists_cons_of_ne_nil hwhole.1
    exact ⟨c, _, rfl, .inr (hwhole.2 c List.mem_cons_self)⟩
  · exact ⟨'-', _, rfl, .inl rfl⟩

/-- A number is read as a number. -/
theorem readAs_number {t : Str} (h : NumberToken t) : ReadAs t (some .num) := by
  intro before rest fuel hbefore hrest hfuel
  obtain ⟨fuel, rfl⟩ : ∃ n, fuel = n + 1 := ⟨fuel - 1, by omega⟩
  have hnumber := parseNumber_token h hrest
  obtain ⟨c, tail, rfl, hc⟩ := head_number h
  have hne : ∀ d : Char, d ≠ '-' → d.isDigit = false → c ≠ d := by
    rintro d hminus hdigit rfl
    rcases hc with rfl | hc
    · exact hminus rfl
    · rw [hdigit] at hc
      cases hc
  have hskip : skipWhitespace (before ++ (c :: tail ++ rest)) = c :: (tail ++ rest) := by
    refine skipWhitespace_eq hbefore ?_ _
    rintro (h | h | h | h)
    · exact hne ' ' (by decide) rfl h
    · exact hne '\t' (by decide) rfl h
    · exact hne '\n' (by decide) rfl h
    · exact hne '\r' (by decide) rfl h
  rw [parseValue, hskip]
  split
  · next heq => cases heq
  · next heq => exact absurd (List.cons.inj heq).1 (hne '{' (by decide) rfl)
  · next heq => exact absurd (List.cons.inj heq).1 (hne '[' (by decide) rfl)
  · next heq => exact absurd (List.cons.inj heq).1 (hne '"' (by decide) rfl)
  · next heq => exact absurd (List.cons.inj heq).1 (hne 't' (by decide) rfl)
  · next heq => exact absurd (List.cons.inj heq).1 (hne 'f' (by decide) rfl)
  · next heq => exact absurd (List.cons.inj heq).1 (hne 'n' (by decide) rfl)
  · next heq =>
      obtain ⟨rfl, rfl⟩ := List.cons.inj heq
      rw [if_pos hc, ← List.cons_append, hnumber]
      rfl

/-- A token is read as its value. -/
theorem readAs_token {t : Str} (h : IsToken t) : ReadAs t (scalarValue (.token t)) := by
  rw [scalarValue, valueWith]
  rcases h with rfl | rfl | rfl | h
  · have hword : "true".toList = 't' :: ['r', 'u', 'e'] := by decide
    refine readAs_keyword hword (by decide) fun fuel rest text hskip => ?_
    rw [parseValue, hskip]
    rfl
  · have hword : "false".toList = 'f' :: ['a', 'l', 's', 'e'] := by decide
    refine readAs_keyword hword (by decide) fun fuel rest text hskip => ?_
    rw [parseValue, hskip]
    rfl
  · have hword : "null".toList = 'n' :: ['u', 'l', 'l'] := by decide
    refine readAs_keyword hword (by decide) fun fuel rest text hskip => ?_
    rw [parseValue, hskip]
    rfl
  · have hne : ∀ word : Str, word.head?.any (fun c => c = '-' ∨ c.isDigit = true) = false →
        t ≠ word := by
      rintro word hword rfl
      obtain ⟨c, tail, rfl, hc⟩ := head_number h
      simp only [List.head?_cons, Option.any_some, decide_eq_false_iff_not] at hword
      exact hword hc
    rw [literalValue, if_neg (hne _ (by decide)), if_neg (hne _ (by decide)),
      if_neg (hne _ (by decide))]
    exact readAs_number h

/-! ### Arrays and objects -/

/-- The values of an array, one by one. -/
theorem itemsWith_cons (item : JsonTree) (items : List JsonTree) :
    itemsWith scalarText (item :: items) =
      (scalarValue item).bind fun value => (itemsWith scalarText items).map (value :: ·) := by
  rw [itemsWith, scalarValue]

/-- The values of an object, one by one. -/
theorem membersWith_cons (m : Str × JsonTree) (members : List (Str × JsonTree)) :
    membersWith scalarText (m :: members) =
      (scalarText m.1).bind fun key => (scalarValue m.2).bind fun value =>
        (membersWith scalarText members).map ((key, value) :: ·) := by
  rw [membersWith, scalarValue]

/-- The last item of an array. -/
theorem parseItems_last {fuel : ℕ} {text after rest : Str} {result : Option JsonValue}
    (hafter : JsonSpace after)
    (h : parseValue fuel text = result.map fun value => (value, after ++ ']' :: rest)) :
    parseItems (fuel + 1) text = result.map fun value => ([value], rest) := by
  rw [parseItems, h]
  cases result with
  | none => rfl
  | some value =>
      have hskip : skipWhitespace (after ++ ']' :: rest) = ']' :: rest :=
        skipWhitespace_eq hafter (by decide) rest
      rw [Option.map_some, Option.bind_some]
      dsimp only
      rw [hskip]
      rfl

/-- An item of an array that others follow. -/
theorem parseItems_more {fuel : ℕ} {text after more : Str} {result : Option JsonValue}
    (hafter : JsonSpace after)
    (h : parseValue fuel text = result.map fun value => (value, after ++ ',' :: more)) :
    parseItems (fuel + 1) text = result.bind fun value =>
      (parseItems fuel more).map fun parsed => (value :: parsed.1, parsed.2) := by
  rw [parseItems, h]
  cases result with
  | none => rfl
  | some value =>
      have hskip : skipWhitespace (after ++ ',' :: more) = ',' :: more :=
        skipWhitespace_eq hafter (by decide) more
      rw [Option.map_some, Option.bind_some]
      dsimp only
      rw [hskip]
      rfl

/-- The items of an array are read one after the other, up to its bracket. -/
theorem parseItems_written {items : List SpacedValue} (hne : items ≠ [])
    (hspaced : ∀ item ∈ items, item.Spaced)
    (hread : ∀ item ∈ items, ReadAs item.text (scalarValue item.tree)) (rest : Str) (fuel : ℕ)
    (hfuel : 3 * (joinComma (items.map SpacedValue.written) ++ ']' :: rest).length + 1 < fuel) :
    parseItems fuel (joinComma (items.map SpacedValue.written) ++ ']' :: rest) =
      (itemsWith scalarText (items.map SpacedValue.tree)).map fun values => (values, rest) := by
  induction items generalizing fuel with
  | nil => exact absurd rfl hne
  | cons item items ih =>
      obtain ⟨fuel, rfl⟩ : ∃ n, fuel = n + 1 := ⟨fuel - 1, by omega⟩
      obtain ⟨hbefore, hafter⟩ := hspaced item List.mem_cons_self
      have hitem := hread item List.mem_cons_self
      cases items with
      | nil =>
          have hshape : joinComma ([item].map SpacedValue.written) ++ ']' :: rest =
              item.before ++ (item.text ++ (item.after ++ ']' :: rest)) := by
            simp [joinComma, SpacedValue.written]
          rw [hshape] at hfuel ⊢
          rw [parseItems_last hafter
            (hitem _ _ fuel hbefore (endsToken_space hafter rfl _) (by omega)),
            List.map_singleton, itemsWith_cons, itemsWith]
          cases scalarValue item.tree <;> rfl
      | cons next items =>
          have hshape : joinComma ((item :: next :: items).map SpacedValue.written) ++ ']' :: rest =
              item.before ++ (item.text ++ (item.after ++
                ',' :: (joinComma ((next :: items).map SpacedValue.written) ++ ']' :: rest))) := by
            simp [joinComma, SpacedValue.written]
          rw [hshape] at hfuel ⊢
          have hlength : 3 * (joinComma ((next :: items).map SpacedValue.written) ++
              ']' :: rest).length + 1 < fuel := by
            simp only [List.length_append, List.length_cons] at hfuel ⊢
            omega
          have hmap : (item :: next :: items).map SpacedValue.tree =
              item.tree :: (next :: items).map SpacedValue.tree := rfl
          rw [parseItems_more hafter
            (hitem _ _ fuel hbefore (endsToken_space hafter rfl _) (by omega)),
            ih (List.cons_ne_nil _ _) (fun i hi => hspaced i (List.mem_cons_of_mem _ hi))
              (fun i hi => hread i (List.mem_cons_of_mem _ hi)) fuel hlength,
            hmap, itemsWith_cons item.tree]
          cases scalarValue item.tree with
          | none => rfl
          | some value =>
              rw [Option.bind_some, Option.bind_some, Option.map_map, Option.map_map]
              rfl

/-- A member of an object: its key and its value are read, and then what follows them. -/
theorem parseEntries_key {fuel : ℕ} {before key after text : Str} (hbefore : JsonSpace before)
    (hkey : StringBody key) (hafter : JsonSpace after) :
    parseEntries (fuel + 1) (before ++ (quoted key ++ (after ++ ':' :: text))) =
      (scalarText key).bind fun key => (parseValue fuel text).bind fun read =>
        match skipWhitespace read.2 with
        | ',' :: rest => (parseEntries fuel rest).map fun parsed =>
            ((key, read.1) :: parsed.1, parsed.2)
        | '}' :: rest => some ([(key, read.1)], rest)
        | _ => none := by
  have hshape : quoted key ++ (after ++ ':' :: text) =
      '"' :: (key ++ '"' :: (after ++ ':' :: text)) := by
    simp [quoted]
  rw [parseEntries, hshape, skipWhitespace_eq hbefore (by decide)]
  change (parseString (key ++ '"' :: (after ++ ':' :: text))).bind _ = _
  rw [parseString_body hkey]
  cases scalarText key with
  | none => rfl
  | some key =>
      have hskip : skipWhitespace (after ++ ':' :: text) = ':' :: text :=
        skipWhitespace_eq hafter (by decide) text
      rw [Option.map_some, Option.bind_some]
      dsimp only
      rw [hskip]
      rfl

/-- The last member of an object. -/
theorem parseEntries_last {fuel : ℕ} {before key after text valueAfter rest : Str}
    {result : Option JsonValue} (hbefore : JsonSpace before) (hkey : StringBody key)
    (hafter : JsonSpace after) (hvalueAfter : JsonSpace valueAfter)
    (h : parseValue fuel text = result.map fun value => (value, valueAfter ++ '}' :: rest)) :
    parseEntries (fuel + 1) (before ++ (quoted key ++ (after ++ ':' :: text))) =
      (scalarText key).bind fun key => result.map fun value => ([(key, value)], rest) := by
  have hskip : skipWhitespace (valueAfter ++ '}' :: rest) = '}' :: rest :=
    skipWhitespace_eq hvalueAfter (by decide) rest
  rw [parseEntries_key hbefore hkey hafter, h]
  cases scalarText key with
  | none => rfl
  | some key =>
      cases result with
      | none => rfl
      | some value =>
          simp only [Option.map_some, Option.bind_some, hskip]

/-- A member of an object that others follow. -/
theorem parseEntries_more {fuel : ℕ} {before key after text valueAfter more : Str}
    {result : Option JsonValue} (hbefore : JsonSpace before) (hkey : StringBody key)
    (hafter : JsonSpace after) (hvalueAfter : JsonSpace valueAfter)
    (h : parseValue fuel text = result.map fun value => (value, valueAfter ++ ',' :: more)) :
    parseEntries (fuel + 1) (before ++ (quoted key ++ (after ++ ':' :: text))) =
      (scalarText key).bind fun key => result.bind fun value =>
        (parseEntries fuel more).map fun parsed => ((key, value) :: parsed.1, parsed.2) := by
  have hskip : skipWhitespace (valueAfter ++ ',' :: more) = ',' :: more :=
    skipWhitespace_eq hvalueAfter (by decide) more
  rw [parseEntries_key hbefore hkey hafter, h]
  cases scalarText key with
  | none => rfl
  | some key =>
      cases result with
      | none => rfl
      | some value =>
          simp only [Option.map_some, Option.bind_some, hskip]

/-- The members of an object are read one after the other, up to its brace. -/
theorem parseEntries_written {entries : List SpacedMember} (hne : entries ≠ [])
    (hspaced : ∀ entry ∈ entries, entry.Spaced)
    (hread : ∀ entry ∈ entries, ReadAs entry.value.text (scalarValue entry.value.tree))
    (rest : Str) (fuel : ℕ)
    (hfuel : 3 * (joinComma (entries.map SpacedMember.written) ++ '}' :: rest).length + 1 <
      fuel) :
    parseEntries fuel (joinComma (entries.map SpacedMember.written) ++ '}' :: rest) =
      (membersWith scalarText (entries.map SpacedMember.tree)).map fun values => (values, rest) := by
  induction entries generalizing fuel with
  | nil => exact absurd rfl hne
  | cons entry entries ih =>
      obtain ⟨fuel, rfl⟩ : ∃ n, fuel = n + 1 := ⟨fuel - 1, by omega⟩
      obtain ⟨hbefore, hkey, hafter, hvalueBefore, hvalueAfter⟩ := hspaced entry List.mem_cons_self
      have hentry := hread entry List.mem_cons_self
      cases entries with
      | nil =>
          have hshape : joinComma ([entry].map SpacedMember.written) ++ '}' :: rest =
              entry.before ++ (quoted entry.key ++ (entry.after ++ ':' :: (entry.value.before ++
                (entry.value.text ++ (entry.value.after ++ '}' :: rest))))) := by
            simp [joinComma, SpacedMember.written, SpacedValue.written]
          rw [hshape] at hfuel ⊢
          have hlength : 3 * (entry.value.before ++ (entry.value.text ++
              (entry.value.after ++ '}' :: rest))).length < fuel := by
            simp only [List.length_append, List.length_cons] at hfuel ⊢
            omega
          rw [parseEntries_last hbefore hkey hafter hvalueAfter
            (hentry _ _ fuel hvalueBefore (endsToken_space hvalueAfter rfl _) hlength),
            List.map_singleton, membersWith_cons, membersWith, SpacedMember.tree]
          cases scalarText entry.key with
          | none => rfl
          | some key => cases scalarValue entry.value.tree <;> rfl
      | cons next entries =>
          have hshape : joinComma ((entry :: next :: entries).map SpacedMember.written) ++
              '}' :: rest = entry.before ++ (quoted entry.key ++ (entry.after ++
                ':' :: (entry.value.before ++ (entry.value.text ++ (entry.value.after ++
                  ',' :: (joinComma ((next :: entries).map SpacedMember.written) ++
                    '}' :: rest)))))) := by
            simp [joinComma, SpacedMember.written, SpacedValue.written]
          rw [hshape] at hfuel ⊢
          have hlength : 3 * (entry.value.before ++ (entry.value.text ++ (entry.value.after ++
              ',' :: (joinComma ((next :: entries).map SpacedMember.written) ++
                '}' :: rest)))).length < fuel := by
            simp only [List.length_append, List.length_cons] at hfuel ⊢
            omega
          have htail : 3 * (joinComma ((next :: entries).map SpacedMember.written) ++
              '}' :: rest).length + 1 < fuel := by
            simp only [List.length_append, List.length_cons] at hfuel ⊢
            omega
          have hmap : (entry :: next :: entries).map SpacedMember.tree =
              (entry.key, entry.value.tree) :: (next :: entries).map SpacedMember.tree := rfl
          rw [parseEntries_more hbefore hkey hafter hvalueAfter
            (hentry _ _ fuel hvalueBefore (endsToken_space hvalueAfter rfl _) hlength),
            ih (List.cons_ne_nil _ _) (fun e he => hspaced e (List.mem_cons_of_mem _ he))
              (fun e he => hread e (List.mem_cons_of_mem _ he)) fuel htail,
            hmap, membersWith_cons (entry.key, entry.value.tree)]
          cases scalarText entry.key with
          | none => rfl
          | some key =>
              cases scalarValue entry.value.tree with
              | none => rfl
              | some value =>
                  simp only [Option.bind_some, Option.map_map]
                  rfl

/-- White space is skipped once. -/
theorem skipWhitespace_skip (text : Str) :
    skipWhitespace (skipWhitespace text) = skipWhitespace text :=
  List.dropWhile_idempotent _ text

/-- White space in front of items does not matter. -/
theorem parseItems_skip (fuel : ℕ) (text : Str) :
    parseItems fuel (skipWhitespace text) = parseItems fuel text := by
  have hvalue : ∀ fuel, parseValue fuel (skipWhitespace text) = parseValue fuel text := by
    intro fuel
    cases fuel with
    | zero => rfl
    | succ fuel => rw [parseValue, parseValue, skipWhitespace_skip]
  cases fuel with
  | zero => rfl
  | succ fuel => rw [parseItems, parseItems, hvalue]

/-- White space in front of entries does not matter. -/
theorem parseEntries_skip (fuel : ℕ) (text : Str) :
    parseEntries fuel (skipWhitespace text) = parseEntries fuel text := by
  cases fuel with
  | zero => rfl
  | succ fuel => rw [parseEntries, parseEntries, skipWhitespace_skip]

/-- An array that does not end at once is its items. -/
theorem parseArray_items {text : Str} (h : ∀ tail, skipWhitespace text ≠ ']' :: tail) (fuel : ℕ) :
    parseArray (fuel + 1) text =
      (parseItems fuel text).map fun parsed => (.array parsed.1, parsed.2) := by
  rw [parseArray]
  split
  · next tail hskip => exact absurd hskip (h tail)
  · rw [parseItems_skip]

/-- An object that does not end at once is its entries. -/
theorem parseObject_entries {text : Str} (h : ∀ tail, skipWhitespace text ≠ '}' :: tail)
    (fuel : ℕ) :
    parseObject (fuel + 1) text =
      (parseEntries fuel text).map fun parsed => (.object parsed.1, parsed.2) := by
  rw [parseObject]
  split
  · next tail hskip => exact absurd hskip (h tail)
  · rw [parseEntries_skip]

/-- An array or object, past its opening bracket. -/
theorem readAs_bracket {o : Char} {body : Str} {result : Option JsonValue}
    {parseBody : ℕ → Str → Option (JsonValue × Str)}
    (hspace : ¬ (o = ' ' ∨ o = '\t' ∨ o = '\n' ∨ o = '\r'))
    (hdispatch : ∀ fuel text rest, skipWhitespace text = o :: rest →
      parseValue (fuel + 1) text = parseBody fuel rest)
    (hbody : ∀ fuel rest, 3 * (body ++ rest).length + 2 < fuel →
      parseBody fuel (body ++ rest) = result.map fun value => (value, rest)) :
    ReadAs (o :: body) result := by
  intro before rest fuel hbefore _ hfuel
  obtain ⟨fuel, rfl⟩ : ∃ n, fuel = n + 1 := ⟨fuel - 1, by omega⟩
  have hskip : skipWhitespace (before ++ (o :: body ++ rest)) = o :: (body ++ rest) :=
    skipWhitespace_eq hbefore hspace _
  rw [hdispatch fuel _ _ hskip]
  refine hbody fuel rest ?_
  simp only [List.length_append, List.length_cons] at hfuel ⊢
  omega

/-- A bracket starts an array. -/
theorem dispatch_array (fuel : ℕ) (text rest : Str) (h : skipWhitespace text = '[' :: rest) :
    parseValue (fuel + 1) text = parseArray fuel rest := by
  rw [parseValue, h]
  rfl

/-- A brace starts an object. -/
theorem dispatch_object (fuel : ℕ) (text rest : Str) (h : skipWhitespace text = '{' :: rest) :
    parseValue (fuel + 1) text = parseObject fuel rest := by
  rw [parseValue, h]
  rfl

/-- An empty array is read as one. -/
theorem readAs_emptyArray {space : Str} (h : JsonSpace space) :
    ReadAs ('[' :: (space ++ [']'])) (scalarValue (.array [])) := by
  refine readAs_bracket (by decide) dispatch_array fun fuel rest hfuel => ?_
  obtain ⟨fuel, rfl⟩ : ∃ n, fuel = n + 1 := ⟨fuel - 1, by omega⟩
  have hskip : skipWhitespace (space ++ ']' :: rest) = ']' :: rest :=
    skipWhitespace_eq h (by decide) rest
  rw [List.append_assoc, List.singleton_append, parseArray, hskip]
  rfl

/-- An empty object is read as one. -/
theorem readAs_emptyObject {space : Str} (h : JsonSpace space) :
    ReadAs ('{' :: (space ++ ['}'])) (scalarValue (.object [])) := by
  refine readAs_bracket (by decide) dispatch_object fun fuel rest hfuel => ?_
  obtain ⟨fuel, rfl⟩ : ∃ n, fuel = n + 1 := ⟨fuel - 1, by omega⟩
  have hskip : skipWhitespace (space ++ '}' :: rest) = '}' :: rest :=
    skipWhitespace_eq h (by decide) rest
  rw [List.append_assoc, List.singleton_append, parseObject, hskip]
  rfl

/-- Past white space, the items of an array start with the first of them. -/
theorem skip_items {items : List SpacedValue} (hne : items ≠ [])
    (hspaced : ∀ item ∈ items, item.Spaced)
    (hvalues : ∀ item ∈ items, IsJsonValue item.text item.tree) (rest tail : Str) :
    skipWhitespace (joinComma (items.map SpacedValue.written) ++ rest) ≠ ']' :: tail := by
  obtain ⟨item, items, rfl⟩ := List.exists_cons_of_ne_nil hne
  obtain ⟨c, text, htext, hspace, hclose, -⟩ := (hvalues item List.mem_cons_self).head
  obtain ⟨more, hmore⟩ : ∃ more, joinComma ((item :: items).map SpacedValue.written) ++ rest =
      item.before ++ c :: more := by
    cases items with
    | nil => exact ⟨text ++ (item.after ++ rest), by simp [joinComma, SpacedValue.written, htext]⟩
    | cons next items => simp [joinComma, SpacedValue.written, htext]
  rw [hmore, skipWhitespace_eq (hspaced item List.mem_cons_self).1 hspace]
  exact fun heq => hclose (List.cons.inj heq).1

/-- Past white space, the members of an object start with a key. -/
theorem skip_entries {entries : List SpacedMember} (hne : entries ≠ [])
    (hspaced : ∀ entry ∈ entries, entry.Spaced) (rest tail : Str) :
    skipWhitespace (joinComma (entries.map SpacedMember.written) ++ rest) ≠ '}' :: tail := by
  obtain ⟨entry, entries, rfl⟩ := List.exists_cons_of_ne_nil hne
  obtain ⟨more, hmore⟩ : ∃ more, joinComma ((entry :: entries).map SpacedMember.written) ++ rest =
      entry.before ++ '"' :: more := by
    cases entries with
    | nil => simp [joinComma, SpacedMember.written, quoted]
    | cons next entries => simp [joinComma, SpacedMember.written, quoted]
  rw [hmore, skipWhitespace_eq (hspaced entry List.mem_cons_self).1 (by decide)]
  exact fun heq => absurd (List.cons.inj heq).1 (by decide)

/-- **What is read of a value of the grammar**: the value of its tree, if no escape of it is a
surrogate, and an error otherwise. -/
theorem IsJsonValue.readAs {text : Str} {tree : JsonTree} (h : IsJsonValue text tree) :
    ReadAs text (scalarValue tree) := by
  induction h with
  | str hraw => exact readAs_str hraw
  | token ht => exact readAs_token ht
  | emptyArray hspace => exact readAs_emptyArray hspace
  | @array items hne hspaced hvalues ih =>
      refine readAs_bracket (by decide) dispatch_array fun fuel rest hfuel => ?_
      obtain ⟨fuel, rfl⟩ : ∃ n, fuel = n + 1 := ⟨fuel - 1, by omega⟩
      rw [List.append_assoc, List.singleton_append] at hfuel ⊢
      rw [parseArray_items (skip_items hne hspaced hvalues _),
        parseItems_written hne hspaced ih rest fuel (by omega), scalarValue, valueWith,
        Option.map_map, Option.map_map]
      rfl
  | emptyObject hspace => exact readAs_emptyObject hspace
  | @object entries hne hspaced _ ih =>
      refine readAs_bracket (by decide) dispatch_object fun fuel rest hfuel => ?_
      obtain ⟨fuel, rfl⟩ : ∃ n, fuel = n + 1 := ⟨fuel - 1, by omega⟩
      rw [List.append_assoc, List.singleton_append] at hfuel ⊢
      rw [parseObject_entries (skip_entries hne hspaced _),
        parseEntries_written hne hspaced ih rest fuel (by omega), scalarValue, valueWith,
        Option.map_map, Option.map_map]
      rfl

/-! ### What is read follows the grammar -/

/-- What a budget reads follows the grammar. -/
structure Sound (fuel : ℕ) : Prop where
  value : ∀ {text parsed}, parseValue fuel text = some parsed →
    ∃ before value tree, JsonSpace before ∧ IsJsonValue value tree ∧
      text = before ++ (value ++ parsed.2)
  array : ∀ {text parsed}, parseArray fuel text = some parsed →
    ∃ body tree, IsJsonValue ('[' :: body) tree ∧ text = body ++ parsed.2
  items : ∀ {text parsed}, parseItems fuel text = some parsed →
    ∃ items : List SpacedValue, items ≠ [] ∧ (∀ item ∈ items, item.Spaced) ∧
      (∀ item ∈ items, IsJsonValue item.text item.tree) ∧
      text = joinComma (items.map SpacedValue.written) ++ ']' :: parsed.2
  object : ∀ {text parsed}, parseObject fuel text = some parsed →
    ∃ body tree, IsJsonValue ('{' :: body) tree ∧ text = body ++ parsed.2
  entries : ∀ {text parsed}, parseEntries fuel text = some parsed →
    ∃ entries : List SpacedMember, entries ≠ [] ∧ (∀ entry ∈ entries, entry.Spaced) ∧
      (∀ entry ∈ entries, IsJsonValue entry.value.text entry.value.tree) ∧
      text = joinComma (entries.map SpacedMember.written) ++ '}' :: parsed.2

/-- Skipped white space and what stands past it. -/
theorem exists_space_of_skip {text rest : Str} {c : Char} (h : skipWhitespace text = c :: rest) :
    ∃ space, JsonSpace space ∧ text = space ++ c :: rest := by
  obtain ⟨space, hspace, heq⟩ := exists_space text
  exact ⟨space, hspace, by rw [← h]; exact heq⟩

/-- What is read as a keyword is one. -/
theorem exists_keyword {word : String} {value : JsonValue} {text : Str} {parsed : JsonValue × Str}
    (hword : IsToken word.toList) (h : parseKeyword word value text = some parsed) :
    ∃ t tree, IsJsonValue t tree ∧ text = t ++ parsed.2 := by
  obtain ⟨rest, hrest, rfl⟩ := Option.map_eq_some_iff.mp h
  exact ⟨word.toList, _, .token hword, stripPrefix_eq_some_iff.mp hrest⟩

/-- What is read as a value is one, after white space. -/
theorem Sound.parseValue {fuel : ℕ} (ih : Sound fuel) {text : Str} {parsed : JsonValue × Str}
    (h : JsonParser.parseValue (fuel + 1) text = some parsed) :
    ∃ before value tree, JsonSpace before ∧ IsJsonValue value tree ∧
      text = before ++ (value ++ parsed.2) := by
  have hvalue : ∀ {c rest}, skipWhitespace text = c :: rest →
      (∃ value tree, IsJsonValue value tree ∧ c :: rest = value ++ parsed.2) →
      ∃ before value tree, JsonSpace before ∧ IsJsonValue value tree ∧
        text = before ++ (value ++ parsed.2) := by
    rintro c rest hskip ⟨value, tree, hv, heq⟩
    obtain ⟨space, hspace, htext⟩ := exists_space_of_skip hskip
    exact ⟨space, value, tree, hspace, hv, by rw [htext, heq]⟩
  rw [JsonParser.parseValue] at h
  split at h
  · cases h
  · next rest hskip =>
      obtain ⟨body, tree, hv, rfl⟩ := ih.object h
      exact hvalue hskip ⟨_, tree, hv, rfl⟩
  · next rest hskip =>
      obtain ⟨body, tree, hv, rfl⟩ := ih.array h
      exact hvalue hskip ⟨_, tree, hv, rfl⟩
  · next rest hskip =>
      obtain ⟨read, hread, rfl⟩ := Option.map_eq_some_iff.mp h
      obtain ⟨raw, hraw, rfl⟩ := exists_string hread
      exact hvalue hskip ⟨_, _, .str hraw, by simp [quoted]⟩
  · next rest hskip => exact hvalue hskip (exists_keyword (.inl rfl) h)
  · next rest hskip => exact hvalue hskip (exists_keyword (.inr (.inl rfl)) h)
  · next rest hskip => exact hvalue hskip (exists_keyword (.inr (.inr (.inl rfl))) h)
  · next c rest _ _ _ _ _ _ hskip =>
      split at h
      · obtain ⟨read, hread, rfl⟩ := Option.map_eq_some_iff.mp h
        obtain ⟨t, ht, heq⟩ := exists_number hread
        exact hvalue hskip ⟨t, _, .token (.inr (.inr (.inr ht))), heq⟩
      · cases h

/-- What is read as an array is one. -/
theorem Sound.parseArray {fuel : ℕ} (ih : Sound fuel) {text : Str} {parsed : JsonValue × Str}
    (h : JsonParser.parseArray (fuel + 1) text = some parsed) :
    ∃ body tree, IsJsonValue ('[' :: body) tree ∧ text = body ++ parsed.2 := by
  by_cases hclose : ∃ tail, skipWhitespace text = ']' :: tail
  · obtain ⟨tail, hskip⟩ := hclose
    obtain ⟨space, hspace, rfl⟩ := exists_space_of_skip hskip
    rw [JsonParser.parseArray, hskip] at h
    obtain rfl := Option.some.inj h
    exact ⟨_, _, .emptyArray hspace, by simp⟩
  · rw [parseArray_items (not_exists.mp hclose)] at h
    obtain ⟨read, hread, rfl⟩ := Option.map_eq_some_iff.mp h
    obtain ⟨items, hne, hspaced, hvalues, rfl⟩ := ih.items hread
    exact ⟨_, _, .array hne hspaced hvalues, by simp⟩

/-- What is read as an object is one. -/
theorem Sound.parseObject {fuel : ℕ} (ih : Sound fuel) {text : Str} {parsed : JsonValue × Str}
    (h : JsonParser.parseObject (fuel + 1) text = some parsed) :
    ∃ body tree, IsJsonValue ('{' :: body) tree ∧ text = body ++ parsed.2 := by
  by_cases hclose : ∃ tail, skipWhitespace text = '}' :: tail
  · obtain ⟨tail, hskip⟩ := hclose
    obtain ⟨space, hspace, rfl⟩ := exists_space_of_skip hskip
    rw [JsonParser.parseObject, hskip] at h
    obtain rfl := Option.some.inj h
    exact ⟨_, _, .emptyObject hspace, by simp⟩
  · rw [parseObject_entries (not_exists.mp hclose)] at h
    obtain ⟨read, hread, rfl⟩ := Option.map_eq_some_iff.mp h
    obtain ⟨entries, hne, hspaced, hvalues, rfl⟩ := ih.entries hread
    exact ⟨_, _, .object hne hspaced hvalues, by simp⟩

/-- What is read as items is values between commas, up to the bracket. -/
theorem Sound.parseItems {fuel : ℕ} (ih : Sound fuel) {text : Str}
    {parsed : List JsonValue × Str} (h : JsonParser.parseItems (fuel + 1) text = some parsed) :
    ∃ items : List SpacedValue, items ≠ [] ∧ (∀ item ∈ items, item.Spaced) ∧
      (∀ item ∈ items, IsJsonValue item.text item.tree) ∧
      text = joinComma (items.map SpacedValue.written) ++ ']' :: parsed.2 := by
  rw [JsonParser.parseItems] at h
  obtain ⟨⟨item, rest⟩, hitem, hafterItem⟩ := Option.bind_eq_some_iff.mp h
  obtain ⟨before, value, tree, hbefore, hvalue, rfl⟩ := ih.value hitem
  dsimp only at hafterItem ⊢
  split at hafterItem
  · next tail hskip =>
      obtain ⟨after, hafter, rfl⟩ := exists_space_of_skip hskip
      obtain ⟨read, hread, rfl⟩ := Option.map_eq_some_iff.mp hafterItem
      obtain ⟨items, hne, hspaced, hvalues, rfl⟩ := ih.items hread
      obtain ⟨next, items, rfl⟩ := List.exists_cons_of_ne_nil hne
      refine ⟨⟨before, value, tree, after⟩ :: next :: items, List.cons_ne_nil _ _,
        List.forall_mem_cons.mpr ⟨⟨hbefore, hafter⟩, hspaced⟩,
        List.forall_mem_cons.mpr ⟨hvalue, hvalues⟩, ?_⟩
      simp [joinComma, SpacedValue.written]
  · next tail hskip =>
      obtain ⟨after, hafter, rfl⟩ := exists_space_of_skip hskip
      obtain rfl := Option.some.inj hafterItem
      refine ⟨[⟨before, value, tree, after⟩], List.cons_ne_nil _ _,
        List.forall_mem_singleton.mpr ⟨hbefore, hafter⟩, List.forall_mem_singleton.mpr hvalue, ?_⟩
      simp [joinComma, SpacedValue.written]
  · cases hafterItem

/-- What is read as entries is members between commas, up to the brace. -/
theorem Sound.parseEntries {fuel : ℕ} (ih : Sound fuel) {text : Str}
    {parsed : List (Str × JsonValue) × Str}
    (h : JsonParser.parseEntries (fuel + 1) text = some parsed) :
    ∃ entries : List SpacedMember, entries ≠ [] ∧ (∀ entry ∈ entries, entry.Spaced) ∧
      (∀ entry ∈ entries, IsJsonValue entry.value.text entry.value.tree) ∧
      text = joinComma (entries.map SpacedMember.written) ++ '}' :: parsed.2 := by
  rw [JsonParser.parseEntries] at h
  split at h
  · next afterQuote hquote =>
      obtain ⟨before, hbefore, rfl⟩ := exists_space_of_skip hquote
      obtain ⟨⟨key, afterKey⟩, hkey, hafterKey⟩ := Option.bind_eq_some_iff.mp h
      obtain ⟨raw, hraw, rfl⟩ := exists_string hkey
      dsimp only at hafterKey ⊢
      split at hafterKey
      · next afterColon hcolon =>
          obtain ⟨after, hafter, rfl⟩ := exists_space_of_skip hcolon
          obtain ⟨⟨value, afterValue⟩, hread, hafterValue⟩ :=
            Option.bind_eq_some_iff.mp hafterKey
          obtain ⟨valueBefore, valueText, tree, hvalueBefore, hvalue, rfl⟩ := ih.value hread
          dsimp only at hafterValue ⊢
          split at hafterValue
          · next tail hskip =>
              obtain ⟨valueAfter, hvalueAfter, rfl⟩ := exists_space_of_skip hskip
              obtain ⟨read, hmore, rfl⟩ := Option.map_eq_some_iff.mp hafterValue
              obtain ⟨entries, hne, hspaced, hvalues, rfl⟩ := ih.entries hmore
              obtain ⟨next, entries, rfl⟩ := List.exists_cons_of_ne_nil hne
              refine ⟨⟨before, raw, after, ⟨valueBefore, valueText, tree, valueAfter⟩⟩ ::
                next :: entries, List.cons_ne_nil _ _, List.forall_mem_cons.mpr
                  ⟨⟨hbefore, hraw, hafter, hvalueBefore, hvalueAfter⟩, hspaced⟩,
                List.forall_mem_cons.mpr ⟨hvalue, hvalues⟩, ?_⟩
              simp [joinComma, SpacedMember.written, SpacedValue.written, quoted]
          · next tail hskip =>
              obtain ⟨valueAfter, hvalueAfter, rfl⟩ := exists_space_of_skip hskip
              obtain rfl := Option.some.inj hafterValue
              refine ⟨[⟨before, raw, after, ⟨valueBefore, valueText, tree, valueAfter⟩⟩],
                List.cons_ne_nil _ _, List.forall_mem_singleton.mpr
                  ⟨hbefore, hraw, hafter, hvalueBefore, hvalueAfter⟩,
                List.forall_mem_singleton.mpr hvalue, ?_⟩
              simp [joinComma, SpacedMember.written, SpacedValue.written, quoted]
          · cases hafterValue
      · cases hafterKey
  · cases h

/-- **What the parser reads is JSON**, whatever the fuel. -/
theorem sound (fuel : ℕ) : Sound fuel := by
  induction fuel with
  | zero => constructor <;> intro text parsed h <;> cases h
  | succ fuel ih => exact ⟨ih.parseValue, ih.parseArray, ih.parseItems, ih.parseObject,
      ih.parseEntries⟩

/-- What the reader accepts is a JSON text. -/
theorem exists_jsonText {text : Str} {value : JsonValue} (h : parse text = some value) :
    ∃ tree, IsJsonText text tree := by
  obtain ⟨⟨value', rest⟩, hvalue, h⟩ := Option.bind_eq_some_iff.mp h
  obtain ⟨before, t, tree, hbefore, ht, heq⟩ := (sound _).value hvalue
  dsimp only at h heq
  split_ifs at h with hrest
  obtain ⟨after, hafter, hshape⟩ := exists_space rest
  rw [hrest, List.append_nil] at hshape
  exact ⟨tree, before, t, rest, hbefore, ht, hshape ▸ hafter, heq⟩

/-- What is read of a JSON text: the value of its tree, if no escape of it is a surrogate. -/
theorem parse_jsonText {text : Str} {tree : JsonTree} (h : IsJsonText text tree) :
    parse text = scalarValue tree := by
  obtain ⟨before, t, after, hbefore, ht, hafter, rfl⟩ := h
  have hends : EndsToken after := endsToken_of_space hafter
  have hskip : skipWhitespace after = [] := by
    have hall := skipWhitespace_append hafter []
    rwa [List.append_nil] at hall
  rw [parse, ht.readAs before after _ hbefore hends (Nat.lt_succ_self _)]
  cases scalarValue tree with
  | none => rfl
  | some value => exact if_pos hskip

/-! ### Surrogates -/

/-- A tree has an escape of a surrogate and no value by itself, or it has none and its value by
itself is its value. -/
def Decoded (tree : JsonTree) : Prop :=
  (tree.SurrogateEscape ∧ scalarValue tree = none) ∨
    (¬ tree.SurrogateEscape ∧ ∃ value, scalarValue tree = some value ∧
      jsonValue tree = some value)

/-- A string has a value unless it escapes a surrogate. -/
theorem decoded_str {raw : Str} (h : StringBody raw) : Decoded (.str raw) := by
  rcases h.scalars with ⟨hsurrogate, hnone⟩ | ⟨hnot, text, hscalar, hvalue⟩
  · exact .inl ⟨.str hsurrogate, by rw [scalarValue, valueWith, hnone]; rfl⟩
  · refine .inr ⟨?_, .str text, ?_, ?_⟩
    · intro hescape
      cases hescape with
      | str hsurrogate => exact hnot hsurrogate
    · rw [scalarValue, valueWith, hscalar]
      rfl
    · rw [jsonValue, valueWith, hvalue]
      rfl

/-- The items of an array have values unless one of them escapes a surrogate. -/
theorem decoded_items {items : List JsonTree} (h : ∀ item ∈ items, Decoded item) :
    ((∃ item ∈ items, item.SurrogateEscape) ∧ itemsWith scalarText items = none) ∨
      ((∀ item ∈ items, ¬ item.SurrogateEscape) ∧ ∃ values,
        itemsWith scalarText items = some values ∧ itemsWith stringValue items = some values) := by
  induction items with
  | nil => exact .inr ⟨by simp, [], rfl, rfl⟩
  | cons item items ih =>
      rw [itemsWith_cons]
      rcases h item List.mem_cons_self with ⟨hescape, hnone⟩ | ⟨hnot, value, hscalar, hvalue⟩
      · exact .inl ⟨⟨item, List.mem_cons_self, hescape⟩, by rw [hnone]; rfl⟩
      · rcases ih fun i hi => h i (List.mem_cons_of_mem _ hi) with
          ⟨⟨i, hi, hescape⟩, hnone⟩ | ⟨hnots, values, hscalars, hvalues⟩
        · exact .inl ⟨⟨i, List.mem_cons_of_mem _ hi, hescape⟩, by rw [hscalar, hnone]; rfl⟩
        · refine .inr ⟨List.forall_mem_cons.mpr ⟨hnot, hnots⟩, value :: values, ?_, ?_⟩
          · rw [hscalar, hscalars]
            rfl
          · rw [itemsWith, ← jsonValue, hvalue, hvalues]
            rfl

/-- The members of an object have values unless one of them escapes a surrogate. -/
theorem decoded_members {members : List (Str × JsonTree)} (hkeys : ∀ m ∈ members, StringBody m.1)
    (h : ∀ m ∈ members, Decoded m.2) :
    ((∃ m ∈ members, SurrogateString m.1 ∨ m.2.SurrogateEscape) ∧
        membersWith scalarText members = none) ∨
      ((∀ m ∈ members, ¬ (SurrogateString m.1 ∨ m.2.SurrogateEscape)) ∧ ∃ values,
        membersWith scalarText members = some values ∧
          membersWith stringValue members = some values) := by
  induction members with
  | nil => exact .inr ⟨by simp, [], rfl, rfl⟩
  | cons m members ih =>
      rw [membersWith_cons]
      rcases (hkeys m List.mem_cons_self).scalars with
        ⟨hsurrogate, hnone⟩ | ⟨hnotKey, key, hkeyScalar, hkeyValue⟩
      · exact .inl ⟨⟨m, List.mem_cons_self, .inl hsurrogate⟩, by rw [hnone]; rfl⟩
      · rcases h m List.mem_cons_self with ⟨hescape, hnone⟩ | ⟨hnot, value, hscalar, hvalue⟩
        · exact .inl ⟨⟨m, List.mem_cons_self, .inr hescape⟩, by rw [hkeyScalar, hnone]; rfl⟩
        · rcases ih (fun n hn => hkeys n (List.mem_cons_of_mem _ hn))
            (fun n hn => h n (List.mem_cons_of_mem _ hn)) with
            ⟨⟨n, hn, hescape⟩, hnone⟩ | ⟨hnots, values, hscalars, hvalues⟩
          · refine .inl ⟨⟨n, List.mem_cons_of_mem _ hn, hescape⟩, ?_⟩
            rw [hkeyScalar, hscalar, hnone]
            rfl
          · refine .inr ⟨List.forall_mem_cons.mpr ⟨not_or.mpr ⟨hnotKey, hnot⟩, hnots⟩,
              (key, value) :: values, ?_, ?_⟩
            · rw [hkeyScalar, hscalar, hscalars]
              rfl
            · rw [membersWith, ← jsonValue, hkeyValue, hvalue, hvalues]
              rfl

/-- An array has a value unless it escapes a surrogate. -/
theorem decoded_array {items : List JsonTree} (h : ∀ item ∈ items, Decoded item) :
    Decoded (.array items) := by
  rcases decoded_items h with ⟨⟨item, hitem, hescape⟩, hnone⟩ | ⟨hnots, values, hscalar, hvalue⟩
  · exact .inl ⟨.item hitem hescape, by rw [scalarValue, valueWith, hnone]; rfl⟩
  · refine .inr ⟨?_, .array values, ?_, ?_⟩
    · intro hescape
      cases hescape with
      | item hitem hescape => exact hnots _ hitem hescape
    · rw [scalarValue, valueWith, hscalar]
      rfl
    · rw [jsonValue, valueWith, hvalue]
      rfl

/-- An object has a value unless it escapes a surrogate. -/
theorem decoded_object {members : List (Str × JsonTree)} (hkeys : ∀ m ∈ members, StringBody m.1)
    (h : ∀ m ∈ members, Decoded m.2) : Decoded (.object members) := by
  rcases decoded_members hkeys h with
    ⟨⟨m, hm, hsurrogate | hescape⟩, hnone⟩ | ⟨hnots, values, hscalar, hvalue⟩
  · exact .inl ⟨.key hm hsurrogate, by rw [scalarValue, valueWith, hnone]; rfl⟩
  · exact .inl ⟨.value hm hescape, by rw [scalarValue, valueWith, hnone]; rfl⟩
  · refine .inr ⟨?_, .object values, ?_, ?_⟩
    · intro hescape
      cases hescape with
      | key hm hsurrogate => exact hnots _ hm (.inl hsurrogate)
      | value hm hescape => exact hnots _ hm (.inr hescape)
    · rw [scalarValue, valueWith, hscalar]
      rfl
    · rw [jsonValue, valueWith, hvalue]
      rfl

/-- **A JSON value** has a value for the parser unless it escapes a surrogate. -/
theorem IsJsonValue.decoded {text : Str} {tree : JsonTree} (h : IsJsonValue text tree) :
    Decoded tree := by
  induction h with
  | str hraw => exact decoded_str hraw
  | token => exact .inr ⟨(fun hescape => by cases hescape), _, rfl, rfl⟩
  | emptyArray => exact decoded_array (by simp)
  | array _ _ _ ih =>
      refine decoded_array fun tree htree => ?_
      obtain ⟨item, hitem, rfl⟩ := List.mem_map.mp htree
      exact ih item hitem
  | emptyObject => exact decoded_object (by simp) (by simp)
  | object _ hspaced _ ih =>
      refine decoded_object (fun m hm => ?_) fun m hm => ?_
      · obtain ⟨entry, hentry, rfl⟩ := List.mem_map.mp hm
        exact (hspaced entry hentry).2.1
      · obtain ⟨entry, hentry, rfl⟩ := List.mem_map.mp hm
        exact ih entry hentry

/-! ### The reader -/

/-- On a text the reader is one of JSON: of a JSON text it reads the value, and any other text
is an error and makes the configuration malformed. -/
def ReadsJson (text : Str) : Prop :=
  (∀ tree, IsJsonText text tree → ∃ value, parse text = some value ∧
      jsonValue tree = some value) ∧
    ((¬ ∃ tree, IsJsonText text tree) → parse text = none ∧
      ∀ builder : DockerSnapshotBuilder,
        (builder.daemonJson text).daemonJsonState = .malformed)

/-- **When the reader is one of JSON**: on every text but the JSON texts with an escape of a
surrogate in one of their strings. -/
theorem parse_json_iff (text : Str) :
    ReadsJson text ↔ ∀ tree, IsJsonText text tree → ¬ tree.SurrogateEscape := by
  constructor
  · intro h tree htree hescape
    obtain ⟨value, hvalue, -⟩ := h.1 tree htree
    have hparse := parse_jsonText htree
    obtain ⟨_, _, _, _, ht, _, _⟩ := htree
    rcases ht.decoded with ⟨-, hnone⟩ | ⟨hnot, -⟩
    · rw [hvalue, hnone] at hparse
      cases hparse
    · exact hnot hescape
  · intro h
    refine ⟨fun tree htree => ?_, fun hnone => ?_⟩
    · have hparse := parse_jsonText htree
      have hnot := h tree htree
      obtain ⟨_, _, _, _, ht, _, _⟩ := htree
      obtain ⟨-, value, hscalar, hvalue⟩ := ht.decoded.resolve_left fun hd => hnot hd.1
      exact ⟨value, hparse.trans hscalar, hvalue⟩
    · have hparse : parse text = none := by
        cases hvalue : parse text with
        | none => rfl
        | some value => exact absurd (exists_jsonText hvalue) hnone
      refine ⟨hparse, fun builder => ?_⟩
      rw [DockerSnapshotBuilder.daemonJson, hparse]
      rfl

/-- A configuration whose one member is a surrogate pair, which stands for one character. -/
def surrogatePairConfig : Str :=
  "\x7b\"a\":\"\\ud83d\\ude00\"\x7d".toList

/-- A surrogate pair makes the configuration malformed. -/
theorem parse_rejects_surrogate_pair : ¬ ∀ text, ReadsJson text := by
  intro h
  have hlow : StringBody ('\\' :: 'u' :: (['d', 'e', '0', '0'] ++ [])) :=
    .code rfl (List.all_eq_true.mp rfl) .nil
  have hpair : StringBody ('\\' :: 'u' :: (['d', '8', '3', 'd'] ++ _)) :=
    .code rfl (List.all_eq_true.mp rfl) hlow
  have hkey : StringBody ['a'] := .plain (by decide) (by decide) (by decide) .nil
  have hvalue := @IsJsonValue.object [⟨[], ['a'], [], ⟨[], _, _, []⟩⟩] (List.cons_ne_nil _ _)
    (List.forall_mem_singleton.mpr ⟨.nil, hkey, .nil, .nil, .nil⟩)
    (List.forall_mem_singleton.mpr (IsJsonValue.str hpair))
  have htext : IsJsonText surrogatePairConfig _ := ⟨[], _, [], .nil, hvalue, .nil, by decide⟩
  obtain ⟨value, hparse, -⟩ := (h surrogatePairConfig).1 _ htext
  have hnone : (parse surrogatePairConfig).isNone = true := by decide +kernel
  rw [hparse] at hnone
  cases hnone

end SovriAgent
