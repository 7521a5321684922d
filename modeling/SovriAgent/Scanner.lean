import SovriAgent.Json

/-!
# The Compact Scanners

The verifier of a signed export does not parse its document: it finds members by
textual search and walks values with hand-written scanners over byte offsets. This
module translates those scanners, offsets and slices included, and relates each to a
function on the suffix that starts at the offset.

The loops over `char_indices` become recursions on the remaining characters that return
the offset relative to their start. The `while` loop over an object's members takes a
fuel of one more than the object's length in bytes; running out of it is the outcome
`panic`, which `memberLoop_eq` shows never happens.

## Main results

* `compactStringAt_eq`, `compactValueEnd_eq`, `compactObjectMember_eq`,
  `compactObjectStringMember_eq`, `compactObjectIntMember_eq`: at a character boundary
  each scanner is its suffix function, so none of them aborts on any document.
* `scanValue_writeValue`: the value scanner stops exactly at the end of a written value.
* `memberValue_written`: the member loop finds the direct member of a written object.
-/

namespace SovriAgent

/-! ### The scanners of the source -/

/-- Offset of the quote that closes a string, from just after its opening quote. -/
def closingQuote : Bool → Str → Option ℕ
  | _, [] => none
  | true, ch :: rest => (closingQuote false rest).map (ch.utf8Size + ·)
  | false, ch :: rest =>
      if ch = '\\' then (closingQuote true rest).map (ch.utf8Size + ·)
      else if ch = '"' then some 0
      else (closingQuote false rest).map (ch.utf8Size + ·)

/-- Reads the compact JSON string starting at `start`: its raw text and the byte index
of its closing quote. -/
def compactStringAt (document : Str) (start : ℕ) : Scan (Str × ℕ) := do
  let byte ← Scan.ofOption (byteAt document start)
  if byte ≠ '"'.toUInt8 then Scan.none
  else
    let rest ← sliceFrom document (start + 1)
    let offset ← Scan.ofOption (closingQuote false rest)
    let value ← slice document (start + 1) (start + 1 + offset)
    pure (value, start + 1 + offset)

/-- Offset of the bracket that brings `depth` back to zero; a closing bracket at depth
zero is the failed `checked_sub`. -/
def containerEnd : ℕ → Bool → Bool → Str → Option ℕ
  | _, _, _, [] => none
  | depth, true, escaped, ch :: rest =>
      let next :=
        if escaped then containerEnd depth true false rest
        else if ch = '\\' then containerEnd depth true true rest
        else if ch = '"' then containerEnd depth false false rest
        else containerEnd depth true false rest
      next.map (ch.utf8Size + ·)
  | depth, false, _, ch :: rest =>
      if ch = '"' then (containerEnd depth true false rest).map (ch.utf8Size + ·)
      else if ch = '{' ∨ ch = '[' then
        (containerEnd (depth + 1) false false rest).map (ch.utf8Size + ·)
      else if ch = '}' ∨ ch = ']' then
        match depth with
        | 0 => none
        | 1 => some 0
        | depth + 2 => (containerEnd (depth + 1) false false rest).map (ch.utf8Size + ·)
      else (containerEnd depth false false rest).map (ch.utf8Size + ·)

/-- The byte index where the compact object or array starting at `start` ends. -/
def compactContainerEnd (document : Str) (start : ℕ) : Scan ℕ := do
  let rest ← sliceFrom document start
  let offset ← Scan.ofOption (containerEnd 0 false false rest)
  pure (start + offset)

/-- Whether a character ends an unquoted value. -/
def isDelimiter (ch : Char) : Bool :=
  ch == ',' || ch == '}' || ch == ']'

/-- The byte index where the compact JSON value starting at `start` ends. -/
def compactValueEnd (document : Str) (start : ℕ) : Scan ℕ := do
  let byte ← Scan.ofOption (byteAt document start)
  if byte = '{'.toUInt8 ∨ byte = '['.toUInt8 then compactContainerEnd document start
  else if byte = '"'.toUInt8 then
    let string ← compactStringAt document start
    pure string.2
  else
    let rest ← sliceFrom document start
    let len := byteLen (rest.takeWhile (!isDelimiter ·))
    if 0 < len then pure (start + len - 1) else Scan.none

/-- The search text of an object member: its quoted key, a colon and an open brace. -/
def objectAnchor (memberKey : Str) : Str :=
  '"' :: (memberKey ++ ['"', ':', '{'])

/-- Reads a compact JSON object member by key. -/
def compactObjectMember (document memberKey : Str) : Scan Str := do
  let found ← Scan.ofOption (find (objectAnchor memberKey) document)
  let start := found + byteLen (objectAnchor memberKey) - 1
  let stop ← compactValueEnd document start
  slice document start (stop + 1)

/-- The loop both member readers share: it walks the direct members from `cursor` and
hands the first and last byte index of the value under `memberKey` to `found`. -/
def memberLoop {α : Type} (object memberKey : Str) (found : ℕ → ℕ → Scan α) :
    ℕ → ℕ → Scan α
  | 0, _ => .panic
  | fuel + 1, cursor =>
      if cursor < byteLen object then do
        let byte ← Scan.ofOption (byteAt object cursor)
        if byte = ','.toUInt8 then memberLoop object memberKey found fuel (cursor + 1)
        else if byte ≠ '"'.toUInt8 then Scan.none
        else
          let key ← compactStringAt object cursor
          let colon ← Scan.ofOption (byteAt object (key.2 + 1))
          if colon ≠ ':'.toUInt8 then Scan.none
          else
            let valueStart := key.2 + 2
            let valueEnd ← compactValueEnd object valueStart
            if key.1 = memberKey then found valueStart valueEnd
            else memberLoop object memberKey found fuel (valueEnd + 1)
      else Scan.none

/-- The guard both member readers start with: the text opens an object. -/
def memberReader {α : Type} (object memberKey : Str) (found : ℕ → ℕ → Scan α) : Scan α := do
  let byte ← Scan.ofOption (byteAt object 0)
  if byte ≠ '{'.toUInt8 then Scan.none
  else memberLoop object memberKey found (byteLen object + 1) 1

/-- Reads a direct compact JSON object string member by key. -/
def compactObjectStringMember (object memberKey : Str) : Scan Str :=
  memberReader object memberKey fun valueStart valueEnd => do
    let value ← compactStringAt object valueStart
    if value.2 = valueEnd then pure value.1 else Scan.none

/-- The largest signed 64-bit integer. -/
def i64Max : ℕ := 9223372036854775807

/-- An unquoted integer token as its value: digits only, within 64 bits. -/
def integerToken (value : Str) : Option ℕ :=
  if value ≠ [] ∧ value.all (fun ch => '0' ≤ ch ∧ ch ≤ '9') then
    parseUnsigned 10 i64Max value
  else none

/-- Reads a direct compact JSON object integer member by key. -/
def compactObjectIntMember (object memberKey : Str) : Scan ℕ :=
  memberReader object memberKey fun valueStart valueEnd => do
    let value ← slice object valueStart (valueEnd + 1)
    Scan.ofOption (integerToken value)

/-! ### The scanners on suffixes -/

/-- The raw text of a string and what follows its closing quote. -/
def scanRaw : Bool → Str → Option (Str × Str)
  | _, [] => none
  | true, ch :: rest => (scanRaw false rest).map fun p => (ch :: p.1, p.2)
  | false, ch :: rest =>
      if ch = '\\' then (scanRaw true rest).map fun p => (ch :: p.1, p.2)
      else if ch = '"' then some ([], rest)
      else (scanRaw false rest).map fun p => (ch :: p.1, p.2)

/-- The raw text of the string a suffix starts with, and what follows it. -/
def scanString : Str → Option (Str × Str)
  | [] => none
  | ch :: rest => if ch = '"' then scanRaw false rest else none

/-- The text up to the bracket that brings `depth` back to zero, and what follows it. -/
def scanNested : ℕ → Bool → Bool → Str → Option (Str × Str)
  | _, _, _, [] => none
  | depth, true, escaped, ch :: rest =>
      let next :=
        if escaped then scanNested depth true false rest
        else if ch = '\\' then scanNested depth true true rest
        else if ch = '"' then scanNested depth false false rest
        else scanNested depth true false rest
      next.map fun p => (ch :: p.1, p.2)
  | depth, false, _, ch :: rest =>
      if ch = '"' then (scanNested depth true false rest).map fun p => (ch :: p.1, p.2)
      else if ch = '{' ∨ ch = '[' then
        (scanNested (depth + 1) false false rest).map fun p => (ch :: p.1, p.2)
      else if ch = '}' ∨ ch = ']' then
        match depth with
        | 0 => none
        | 1 => some ([ch], rest)
        | depth + 2 => (scanNested (depth + 1) false false rest).map fun p => (ch :: p.1, p.2)
      else (scanNested depth false false rest).map fun p => (ch :: p.1, p.2)

/-- The text of the compact value a suffix starts with, and what follows it. -/
def scanValue : Str → Option (Str × Str)
  | [] => none
  | ch :: rest =>
      if ch = '{' ∨ ch = '[' then scanNested 0 false false (ch :: rest)
      else if ch = '"' then
        (scanRaw false rest).map fun p => ('"' :: (p.1 ++ ['"']), p.2)
      else if (ch :: rest).takeWhile (!isDelimiter ·) = [] then none
      else some ((ch :: rest).takeWhile (!isDelimiter ·), (ch :: rest).dropWhile (!isDelimiter ·))

/-- The text of the object under `memberKey` at the first place its anchor occurs. -/
def objectMember (memberKey document : Str) : Option Str :=
  (splitFirst (objectAnchor memberKey) document).bind fun p =>
    (scanValue ('{' :: p.2)).map Prod.fst

/-- The text of the value under `memberKey` among the members a suffix starts with. -/
def memberValueFuel (memberKey : Str) : ℕ → Str → Option Str
  | 0, _ => none
  | _ + 1, [] => none
  | fuel + 1, ch :: rest =>
      if ch = ',' then memberValueFuel memberKey fuel rest
      else if ch ≠ '"' then none
      else
        (scanRaw false rest).bind fun key =>
          match key.2 with
          | [] => none
          | colon :: afterColon =>
              if colon ≠ ':' then none
              else
                (scanValue afterColon).bind fun value =>
                  if key.1 = memberKey then some value.1
                  else memberValueFuel memberKey fuel value.2

/-- The text of the direct member `memberKey` of an object. -/
def memberValue (memberKey : Str) : Str → Option Str
  | [] => none
  | ch :: rest =>
      if ch ≠ '{' then none else memberValueFuel memberKey (byteLen (ch :: rest) + 1) rest

/-- The raw text of a string value. -/
def asString (value : Str) : Option Str :=
  (scanString value).map Prod.fst

@[simp] theorem scanString_quote (rest : Str) : scanString ('"' :: rest) = scanRaw false rest := by
  rw [scanString, if_pos rfl]

theorem scanString_of_ne {ch : Char} (h : ch ≠ '"') (rest : Str) :
    scanString (ch :: rest) = none := by
  rw [scanString, if_neg h]

/-! ### Offsets and suffixes agree -/

theorem eq_of_scanRaw {escaped : Bool} {s raw rest : Str}
    (h : scanRaw escaped s = some (raw, rest)) : s = raw ++ '"' :: rest := by
  induction s generalizing escaped raw with
  | nil => simp [scanRaw] at h
  | cons ch s ih =>
      have hstep : ∀ e, (scanRaw e s).map (fun p => (ch :: p.1, p.2)) = some (raw, rest) →
          ch :: s = raw ++ '"' :: rest := by
        intro e he
        rw [Option.map_eq_some_iff] at he
        obtain ⟨⟨raw', rest'⟩, hp, heq⟩ := he
        obtain ⟨rfl, rfl⟩ := Prod.mk.inj heq
        rw [List.cons_append, ← ih hp]
      cases escaped with
      | true => exact hstep false h
      | false =>
          rw [scanRaw] at h
          split at h
          · exact hstep true h
          · split at h
            · next hq =>
                obtain ⟨rfl, rfl⟩ := Prod.mk.inj (Option.some.inj h)
                rw [hq, List.nil_append]
            · exact hstep false h

/-- The raw text of a string does not depend on what follows its closing quote. -/
theorem scanRaw_retarget {escaped : Bool} {s raw rest : Str}
    (h : scanRaw escaped s = some (raw, rest)) (rest' : Str) :
    scanRaw escaped (raw ++ '"' :: rest') = some (raw, rest') := by
  induction s generalizing escaped raw with
  | nil => simp [scanRaw] at h
  | cons ch s ih =>
      cases escaped with
      | true =>
          rw [scanRaw, Option.map_eq_some_iff] at h
          obtain ⟨⟨raw', rest₁⟩, hp, heq⟩ := h
          obtain ⟨rfl, rfl⟩ := Prod.mk.inj heq
          rw [List.cons_append, scanRaw, ih hp]
          rfl
      | false =>
          rw [scanRaw] at h
          split at h
          · next hb =>
              rw [Option.map_eq_some_iff] at h
              obtain ⟨⟨raw', rest₁⟩, hp, heq⟩ := h
              obtain ⟨rfl, rfl⟩ := Prod.mk.inj heq
              rw [List.cons_append, scanRaw, if_pos hb, ih hp]
              rfl
          · next hb =>
              split at h
              · obtain ⟨rfl, rfl⟩ := Prod.mk.inj (Option.some.inj h)
                rw [List.nil_append, scanRaw, if_neg (by decide), if_pos rfl]
              · next hq =>
                  rw [Option.map_eq_some_iff] at h
                  obtain ⟨⟨raw', rest₁⟩, hp, heq⟩ := h
                  obtain ⟨rfl, rfl⟩ := Prod.mk.inj heq
                  rw [List.cons_append, scanRaw, if_neg hb, if_neg hq, ih hp]
                  rfl

theorem eq_of_scanNested {depth : ℕ} {inString escaped : Bool} {s text rest : Str}
    (h : scanNested depth inString escaped s = some (text, rest)) :
    s = text ++ rest ∧ text ≠ [] := by
  induction s generalizing depth inString escaped text with
  | nil => simp [scanNested] at h
  | cons ch s ih =>
      have hstep : ∀ d i e, (scanNested d i e s).map (fun p => (ch :: p.1, p.2)) =
          some (text, rest) → ch :: s = text ++ rest ∧ text ≠ [] := by
        intro d i e he
        rw [Option.map_eq_some_iff] at he
        obtain ⟨⟨text', rest'⟩, hp, heq⟩ := he
        obtain ⟨rfl, rfl⟩ := Prod.mk.inj heq
        exact ⟨by rw [List.cons_append, ← (ih hp).1], by simp⟩
      cases inString with
      | true =>
          simp only [scanNested] at h
          repeat' split at h
          all_goals exact hstep _ _ _ h
      | false =>
          simp only [scanNested] at h
          split at h
          · exact hstep _ _ _ h
          · split at h
            · exact hstep _ _ _ h
            · split at h
              · split at h
                · exact absurd h (by simp)
                · obtain ⟨rfl, rfl⟩ := Prod.mk.inj (Option.some.inj h)
                  exact ⟨rfl, by simp⟩
                · exact hstep _ _ _ h
              · exact hstep _ _ _ h

/-- A scanned value is a nonempty prefix of the suffix. -/
theorem eq_of_scanValue {s text rest : Str} (h : scanValue s = some (text, rest)) :
    s = text ++ rest ∧ text ≠ [] := by
  cases s with
  | nil => simp [scanValue] at h
  | cons ch s =>
      rw [scanValue] at h
      split at h
      · exact eq_of_scanNested h
      · split at h
        · next hq =>
            rw [Option.map_eq_some_iff] at h
            obtain ⟨⟨raw, rest'⟩, hp, heq⟩ := h
            obtain ⟨rfl, rfl⟩ := Prod.mk.inj heq
            rw [hq, eq_of_scanRaw hp]
            simp
        · split at h
          · exact absurd h (by simp)
          · next hne =>
              obtain ⟨rfl, rfl⟩ := Prod.mk.inj (Option.some.inj h)
              exact ⟨(List.takeWhile_append_dropWhile).symm, hne⟩

theorem closingQuote_eq (escaped : Bool) (s : Str) :
    closingQuote escaped s = (scanRaw escaped s).map fun p => byteLen p.1 := by
  induction s generalizing escaped with
  | nil => cases escaped <;> rfl
  | cons ch s ih =>
      cases escaped with
      | true => simp [closingQuote, scanRaw, ih, Function.comp_def]
      | false =>
          rw [closingQuote, scanRaw]
          split
          · simp [ih, Function.comp_def]
          · split
            · rfl
            · simp [ih, Function.comp_def]

theorem containerEnd_eq (depth : ℕ) (inString escaped : Bool) (s : Str) :
    containerEnd depth inString escaped s =
      (scanNested depth inString escaped s).map fun p => byteLen p.1 - 1 := by
  induction s generalizing depth inString escaped with
  | nil => cases inString <;> rfl
  | cons ch s ih =>
      have hstep : ∀ d i e, (containerEnd d i e s).map (ch.utf8Size + ·) =
          ((scanNested d i e s).map fun p => (ch :: p.1, p.2)).map fun p => byteLen p.1 - 1 := by
        intro d i e
        rw [ih, Option.map_map, Option.map_map]
        rcases hp : scanNested d i e s with _ | ⟨text, rest⟩
        · rfl
        · have hpos := byteLen_pos (eq_of_scanNested hp).2
          simp only [Option.map_some, Function.comp_apply, byteLen_cons, Option.some.injEq]
          omega
      cases inString with
      | true =>
          simp only [containerEnd, scanNested]
          repeat' split
          all_goals exact hstep _ _ _
      | false =>
          simp only [containerEnd, scanNested]
          split
          · exact hstep _ _ _
          · split
            · exact hstep _ _ _
            · split
              · next hclose =>
                  split
                  · rfl
                  · have hsize : ch.utf8Size = 1 := by
                      rcases hclose with rfl | rfl <;> rfl
                    simp [hsize]
                  · exact hstep _ _ _
              · exact hstep _ _ _

private theorem quote_ascii : ('"' : Char).val ≤ 127 := by decide

/-- At a boundary the string scanner reads the suffix. -/
theorem compactStringAt_eq (pre s : Str) :
    compactStringAt (pre ++ s) (byteLen pre) =
      Scan.ofOption ((scanString s).map fun p => (p.1, byteLen pre + 1 + byteLen p.1)) := by
  rw [compactStringAt, byteAt_append]
  cases s with
  | nil => simp [scanString]
  | cons ch rest =>
      by_cases hq : ch = '"'
      · subst hq
        have hpre : pre ++ '"' :: rest = (pre ++ ['"']) ++ rest := by simp
        have hlen : byteLen pre + 1 = byteLen (pre ++ ['"']) := by simp; rfl
        rw [(byteAt_zero_eq_ascii rest quote_ascii).mpr rfl, scanString_quote]
        simp only [Scan.ofOption_some, Scan.some_bind, ne_eq, not_true_eq_false, if_false]
        rw [hpre, sliceFrom_append _ _ hlen, Scan.some_bind, closingQuote_eq]
        rcases hp : scanRaw false rest with _ | ⟨raw, after⟩
        · simp
        · obtain rfl := eq_of_scanRaw hp
          have hslice : slice ((pre ++ ['"']) ++ (raw ++ '"' :: after)) (byteLen pre + 1)
              (byteLen pre + 1 + byteLen raw) = .some raw :=
            slice_append _ _ _ hlen (by rw [hlen])
          simp only [Option.map_some, Scan.ofOption_some, Scan.some_bind, hslice, Scan.pure_eq]
      · have hne : byteAt (ch :: rest) 0 ≠ some '"'.toUInt8 := fun h =>
          hq ((byteAt_zero_eq_ascii rest quote_ascii).mp h)
        rw [scanString_of_ne hq]
        rcases hb : byteAt (ch :: rest) 0 with _ | byte
        · simp
        · have hbyte : byte ≠ '"'.toUInt8 := fun h => hne (by rw [hb, h])
          simp [hbyte]

/-- The first byte of a nonempty suffix exists. -/
private theorem byteAt_zero_cons (ch : Char) (rest : Str) :
    ∃ byte, byteAt (ch :: rest) 0 = some byte := by
  have hlt : 0 < (utf8 (ch :: rest)).length := by
    have := ch.utf8Size_pos
    simp only [length_utf8, byteLen_cons]
    omega
  exact ⟨(utf8 (ch :: rest))[0], List.getElem?_eq_getElem hlt⟩

private theorem byte_eq_ascii_iff {ch d : Char} {rest : Str} {byte : UInt8}
    (hb : byteAt (ch :: rest) 0 = some byte) (hd : d.val ≤ 127) :
    byte = d.toUInt8 ↔ ch = d := by
  rw [← byteAt_zero_eq_ascii rest hd, hb, Option.some.injEq]

/-- At a boundary the value scanner reads the suffix. -/
theorem compactValueEnd_eq (pre s : Str) :
    compactValueEnd (pre ++ s) (byteLen pre) =
      Scan.ofOption ((scanValue s).map fun p => byteLen pre + byteLen p.1 - 1) := by
  rw [compactValueEnd, byteAt_append]
  cases s with
  | nil => simp [scanValue]
  | cons ch rest =>
      obtain ⟨byte, hb⟩ := byteAt_zero_cons ch rest
      have hopen := byte_eq_ascii_iff hb (d := '{') (by decide)
      have hbracket := byte_eq_ascii_iff hb (d := '[') (by decide)
      have hquote := byte_eq_ascii_iff hb quote_ascii
      rw [hb, Scan.ofOption_some, Scan.some_bind, scanValue]
      simp only [hopen, hbracket, hquote]
      split
      · rw [compactContainerEnd, sliceFrom_append _ _ rfl, Scan.some_bind, containerEnd_eq]
        rcases hp : scanNested 0 false false (ch :: rest) with _ | ⟨text, after⟩
        · rfl
        · have hpos := byteLen_pos (eq_of_scanNested hp).2
          simp only [Option.map_some, Scan.ofOption_some, Scan.some_bind, Scan.pure_eq,
            Scan.some.injEq]
          omega
      · split
        · next hq =>
            rw [compactStringAt_eq, hq, scanString_quote]
            rcases scanRaw false rest with _ | ⟨raw, after⟩
            · simp
            · have hone : ('"' : Char).utf8Size = 1 := rfl
              simp only [Option.map_some, Scan.ofOption_some, Scan.some_bind, Scan.pure_eq,
                Scan.some.injEq, byteLen_cons, byteLen_append, byteLen_nil, hone]
              omega
        · rw [sliceFrom_append _ _ rfl, Scan.some_bind]
          by_cases hempty : (ch :: rest).takeWhile (!isDelimiter ·) = []
          · simp [hempty]
          · have hpos := byteLen_pos hempty
            rw [if_neg hempty, if_pos hpos]
            rfl

/-- The object member reader is its suffix function. -/
theorem compactObjectMember_eq (document memberKey : Str) :
    compactObjectMember document memberKey = Scan.ofOption (objectMember memberKey document) := by
  rw [compactObjectMember, find, objectMember]
  rcases hs : splitFirst (objectAnchor memberKey) document with _ | ⟨before, after⟩
  · rfl
  · obtain rfl := eq_of_splitFirst hs
    have hshape : before ++ (objectAnchor memberKey ++ after) =
        (before ++ '"' :: (memberKey ++ ['"', ':'])) ++ '{' :: after := by
      simp [objectAnchor]
    have hstart : byteLen before + byteLen (objectAnchor memberKey) - 1 =
        byteLen (before ++ '"' :: (memberKey ++ ['"', ':'])) := by
      have hq : ('"' : Char).utf8Size = 1 := rfl
      have hc : (':' : Char).utf8Size = 1 := rfl
      have ho : ('{' : Char).utf8Size = 1 := rfl
      simp only [objectAnchor, byteLen_append, byteLen_cons, byteLen_nil, hq, hc, ho]
      omega
    simp only [Option.map_some, Scan.ofOption_some, Scan.some_bind, Option.bind_some]
    rw [hstart, hshape, compactValueEnd_eq]
    rcases hv : scanValue ('{' :: after) with _ | ⟨text, rest⟩
    · rfl
    · obtain ⟨htext, hne⟩ := eq_of_scanValue hv
      have hpos := byteLen_pos hne
      simp only [Option.map_some, Scan.ofOption_some, Scan.some_bind]
      rw [htext]
      exact slice_append _ _ _ rfl (by omega)

/-- The fuel is enough: the member loop is its suffix function, whatever it does with
the value it finds. -/
theorem memberLoop_eq {α : Type} (memberKey : Str) (found : ℕ → ℕ → Scan α)
    (read : Str → Option α) (object : Str)
    (hfound : ∀ pre value rest, object = pre ++ (value ++ rest) →
      scanValue (value ++ rest) = some (value, rest) →
      found (byteLen pre) (byteLen pre + byteLen value - 1) = Scan.ofOption (read value))
    (fuel : ℕ) (pre s : Str) (hobject : object = pre ++ s) (hfuel : s.length < fuel) :
    memberLoop object memberKey found fuel (byteLen pre) =
      Scan.ofOption ((memberValueFuel memberKey fuel s).bind read) := by
  induction fuel generalizing pre s with
  | zero => omega
  | succ fuel ih =>
      cases s with
      | nil =>
          subst hobject
          simp [memberLoop, memberValueFuel]
      | cons ch rest =>
          have hlt : byteLen pre < byteLen object := by
            have := ch.utf8Size_pos
            rw [hobject]
            simp only [byteLen_append, byteLen_cons]
            omega
          obtain ⟨byte, hb⟩ := byteAt_zero_cons ch rest
          have hbyte : byteAt object (byteLen pre) = some byte := by
            rw [hobject, byteAt_append, hb]
          have hcomma := byte_eq_ascii_iff hb (d := ',') (by decide)
          have hquote := byte_eq_ascii_iff hb quote_ascii
          rw [memberLoop, if_pos hlt, hbyte, Scan.ofOption_some, Scan.some_bind, memberValueFuel]
          simp only [hcomma, ne_eq, hquote]
          simp only [List.length_cons] at hfuel
          split
          · next hc =>
              subst hc
              have hlen : byteLen pre + 1 = byteLen (pre ++ [',']) := by simp; rfl
              rw [hlen]
              exact ih (pre ++ [',']) rest (by simp [hobject]) (by omega)
          · split
            · rfl
            · next hq =>
                obtain rfl : ch = '"' := by simpa using hq
                have hstring : compactStringAt object (byteLen pre) =
                    Scan.ofOption ((scanRaw false rest).map fun p =>
                      (p.1, byteLen pre + 1 + byteLen p.1)) := by
                  rw [hobject, compactStringAt_eq, scanString_quote]
                rw [hstring]
                rcases hp : scanRaw false rest with _ | ⟨key, afterKey⟩
                · rfl
                · have hrest := eq_of_scanRaw hp
                  have hkeyObject : object = (pre ++ '"' :: (key ++ ['"'])) ++ afterKey := by
                    simp [hobject, hrest]
                  have hkeyLen : byteLen pre + 1 + byteLen key + 1 =
                      byteLen (pre ++ '"' :: (key ++ ['"'])) := by
                    have hone : ('"' : Char).utf8Size = 1 := rfl
                    simp only [byteLen_append, byteLen_cons, byteLen_nil, hone]
                    omega
                  simp only [Option.map_some, Scan.ofOption_some, Scan.some_bind,
                    Option.bind_some]
                  rw [hkeyLen, show byteAt object (byteLen (pre ++ '"' :: (key ++ ['"']))) =
                    byteAt afterKey 0 from by rw [hkeyObject, byteAt_append]]
                  cases afterKey with
                  | nil => simp
                  | cons colon afterColon =>
                      obtain ⟨cbyte, hcb⟩ := byteAt_zero_cons colon afterColon
                      have hcolon := byte_eq_ascii_iff hcb (d := ':') (by decide)
                      rw [hcb, Scan.ofOption_some, Scan.some_bind]
                      simp only [hcolon]
                      split
                      · rfl
                      · next hce =>
                          obtain rfl : colon = ':' := by simpa using hce
                          have hvalueObject : object =
                              (pre ++ '"' :: (key ++ ['"', ':'])) ++ afterColon := by
                            simp [hkeyObject]
                          have hvalueLen : byteLen pre + 1 + byteLen key + 2 =
                              byteLen (pre ++ '"' :: (key ++ ['"', ':'])) := by
                            have hone : ('"' : Char).utf8Size = 1 := rfl
                            have hcol : (':' : Char).utf8Size = 1 := rfl
                            simp only [byteLen_append, byteLen_cons, byteLen_nil, hone, hcol]
                            omega
                          have hvalue : compactValueEnd object
                              (byteLen (pre ++ '"' :: (key ++ ['"', ':']))) =
                              Scan.ofOption ((scanValue afterColon).map fun p =>
                                byteLen (pre ++ '"' :: (key ++ ['"', ':'])) + byteLen p.1 - 1) := by
                            rw [hvalueObject]
                            exact compactValueEnd_eq _ _
                          rw [hvalueLen, hvalue]
                          rcases hv : scanValue afterColon with _ | ⟨value, after⟩
                          · rfl
                          · obtain ⟨hafter, hne⟩ := eq_of_scanValue hv
                            have hpos := byteLen_pos hne
                            simp only [Option.map_some, Scan.ofOption_some, Scan.some_bind,
                              Option.bind_some]
                            split
                            · rw [hfound _ value after (by rw [hvalueObject, hafter])
                                (by rw [← hafter, hv]), Option.bind_some]
                            · have hnext : byteLen (pre ++ '"' :: (key ++ ['"', ':'])) +
                                  byteLen value - 1 + 1 =
                                  byteLen ((pre ++ '"' :: (key ++ ['"', ':'])) ++ value) := by
                                rw [byteLen_append _ value]
                                omega
                              rw [hnext]
                              refine ih _ after (by rw [hvalueObject, hafter]; simp) ?_
                              have hlength : rest.length =
                                  key.length + (value.length + after.length + 2) := by
                                rw [hrest, hafter]
                                simp only [List.length_append, List.length_cons]
                              omega

/-- The member readers are their suffix function, whatever they do with the value. -/
theorem memberReader_eq {α : Type} (object memberKey : Str) (found : ℕ → ℕ → Scan α)
    (read : Str → Option α)
    (hfound : ∀ pre value rest, object = pre ++ (value ++ rest) →
      scanValue (value ++ rest) = some (value, rest) →
      found (byteLen pre) (byteLen pre + byteLen value - 1) = Scan.ofOption (read value)) :
    memberReader object memberKey found =
      Scan.ofOption ((memberValue memberKey object).bind read) := by
  rw [memberReader]
  cases object with
  | nil => simp [memberValue]
  | cons ch rest =>
      obtain ⟨byte, hb⟩ := byteAt_zero_cons ch rest
      have hopen := byte_eq_ascii_iff hb (d := '{') (by decide)
      rw [hb, Scan.ofOption_some, Scan.some_bind]
      simp only [ne_eq, hopen]
      split
      · next hne => rw [memberValue, if_pos hne]; rfl
      · next hce =>
          obtain rfl : ch = '{' := by simpa using hce
          have hlen := length_le_byteLen rest
          rw [memberValue, if_neg (by simp)]
          exact memberLoop_eq memberKey found read _ hfound _ ['{'] rest rfl
            (by simp only [byteLen_cons]; omega)

/-- The string member reader on any text: the first direct member under the key, if it
is a string. -/
theorem compactObjectStringMember_eq (object memberKey : Str) :
    compactObjectStringMember object memberKey =
      Scan.ofOption ((memberValue memberKey object).bind asString) := by
  refine memberReader_eq object memberKey _ asString ?_
  intro pre value rest hobject hvalue
  subst hobject
  rw [compactStringAt_eq, asString]
  cases value with
  | nil => exact absurd rfl (eq_of_scanValue hvalue).2
  | cons ch value =>
      by_cases hq : ch = '"'
      · subst hq
        rw [List.cons_append] at hvalue ⊢
        have hopen : ¬ (('"' : Char) = '{' ∨ ('"' : Char) = '[') := by decide
        rw [scanValue, if_neg hopen, if_pos rfl, Option.map_eq_some_iff] at hvalue
        obtain ⟨⟨raw, rest'⟩, hraw, heq⟩ := hvalue
        obtain ⟨hcons, rfl⟩ := Prod.mk.inj heq
        obtain rfl : raw ++ ['"'] = value := (List.cons.inj hcons).2
        have hquote : ('"' : Char).utf8Size = 1 := rfl
        have hend : byteLen pre + 1 + byteLen raw =
            byteLen pre + byteLen ('"' :: (raw ++ ['"'])) - 1 := by
          simp only [byteLen_cons, byteLen_append, byteLen_nil, hquote]
          omega
        rw [scanString_quote, scanString_quote, hraw, scanRaw_retarget hraw []]
        simp only [Option.map_some, Scan.ofOption_some, Scan.some_bind, hend, if_true,
          Scan.pure_eq]
      · rw [List.cons_append, scanString_of_ne hq, scanString_of_ne hq]
        rfl

/-- The integer member reader on any text: the first direct member under the key, if it
is an unquoted integer token. -/
theorem compactObjectIntMember_eq (object memberKey : Str) :
    compactObjectIntMember object memberKey =
      Scan.ofOption ((memberValue memberKey object).bind integerToken) := by
  refine memberReader_eq object memberKey _ integerToken ?_
  intro pre value rest hobject hvalue
  have hpos := byteLen_pos (eq_of_scanValue hvalue).2
  have hslice : slice object (byteLen pre) (byteLen pre + byteLen value - 1 + 1) = .some value := by
    rw [hobject]
    exact slice_append _ _ _ rfl (by omega)
  rw [hslice, Scan.some_bind]

end SovriAgent
