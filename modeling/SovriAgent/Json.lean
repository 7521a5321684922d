import SovriAgent.Text

/-!
# Canonical JSON and Hexadecimal Text

The value type of the signed export and its canonical serializer: object keys in
lexicographic order, fixed string escaping, integers verbatim, no insignificant white
space. The source appends to an output buffer; the functions here return the text they
append.

The hexadecimal codec of the verification block is here too. The decoder reads byte
slices of length two and hands each to the unsigned integer parser, so it accepts
upper-case digits and, since that parser admits a sign, a `+` before a single digit.

## Main results

* `writeValue_object`: an object is written as its members in key order.
* `fromHex_eq_hexPairs`: the slice-based decoder reads pairs of one-byte characters.
* `fromHex_toHex`: the codec round trip.
* `fromHex_chars`: a decodable text consists of hexadecimal digits and plus signs.
-/

namespace SovriAgent

/-- A minimal JSON value the canonical serializer emits. -/
inductive Json where
  | str (text : Str)
  | bool (flag : Bool)
  | int (number : ℤ)
  | array (items : List Json)
  | object (members : List (Str × Json))

/-- A nibble as its lowercase hexadecimal digit. -/
def hexDigit (nibble : ℕ) : Char :=
  if nibble < 10 then Char.ofNat ('0'.toNat + nibble)
  else if nibble < 16 then Char.ofNat ('a'.toNat + (nibble - 10))
  else '0'

/-- The escape of one character inside a JSON string. -/
def escapeChar (ch : Char) : Str :=
  if ch = '"' then ['\\', '"']
  else if ch = '\\' then ['\\', '\\']
  else if ch = '\n' then ['\\', 'n']
  else if ch = '\r' then ['\\', 'r']
  else if ch = '\t' then ['\\', 't']
  else if ch.toNat < 0x20 then
    ['\\', 'u', '0', '0', hexDigit ((ch.toNat >>> 4) &&& 0xf), hexDigit (ch.toNat &&& 0xf)]
  else [ch]

/-- The escaped characters of a string, without the quotes. -/
def escape (text : Str) : Str :=
  text.flatMap escapeChar

/-- A quoted, escaped JSON string. -/
def writeString (text : Str) : Str :=
  '"' :: (escape text ++ ['"'])

/-- The decimal text of an integer. -/
def integerText : ℤ → Str
  | .ofNat n => decimal n
  | .negSucc n => '-' :: decimal (n + 1)

/-- Members in key order. The serializer's unstable sort is only ever used on distinct
keys, where it agrees with this stable one. -/
def sortByKey {α : Type} (members : List (Str × α)) : List (Str × α) :=
  members.insertionSort fun a b => strLe a.1 b.1 = true

/-- One written member: its key, a colon, its value's text. -/
def memberText (member : Str × Str) : Str :=
  writeString member.1 ++ ':' :: member.2

mutual

/-- Writes a single JSON value. -/
def writeValue : Json → Str
  | .str text => writeString text
  | .bool flag => if flag then "true".toList else "false".toList
  | .int number => integerText number
  | .array items => '[' :: (joinComma (writeItems items) ++ [']'])
  | .object members =>
      '{' :: (joinComma ((sortByKey (writeMembers members)).map memberText) ++ ['}'])

/-- The texts of an array's elements, in the order given. -/
def writeItems : List Json → List Str
  | [] => []
  | item :: items => writeValue item :: writeItems items

/-- The members of an object with their values written. -/
def writeMembers : List (Str × Json) → List (Str × Str)
  | [] => []
  | (key, value) :: members => (key, writeValue value) :: writeMembers members

end

/-- The canonical text of a set of object members. -/
def canonicalObject (members : List (Str × Json)) : Str :=
  writeValue (.object members)

/-! ### The writer's equations -/

theorem writeItems_eq_map (items : List Json) : writeItems items = items.map writeValue := by
  induction items with
  | nil => simp [writeItems]
  | cons item items ih => simp [writeItems, ih]

theorem writeMembers_eq_map (members : List (Str × Json)) :
    writeMembers members = members.map fun m => (m.1, writeValue m.2) := by
  induction members with
  | nil => simp [writeMembers]
  | cons m members ih => simp [writeMembers, ih]

/-- Sorting by key commutes with a map that keeps the keys. -/
theorem sortByKey_map {α β : Type} (f : Str × α → Str × β) (hf : ∀ m, (f m).1 = m.1)
    (members : List (Str × α)) :
    sortByKey (members.map f) = (sortByKey members).map f := by
  have hinsert : ∀ (m : Str × α) (l : List (Str × α)),
      (l.map f).orderedInsert (fun a b => strLe a.1 b.1 = true) (f m) =
        (l.orderedInsert (fun a b => strLe a.1 b.1 = true) m).map f := by
    intro m l
    induction l with
    | nil => rfl
    | cons n l ih =>
        simp only [List.map_cons, List.orderedInsert, hf]
        by_cases h : strLe m.1 n.1 = true
        · simp [h]
        · simp [h, ih]
  induction members with
  | nil => rfl
  | cons m members ih =>
      simp only [sortByKey, List.map_cons, List.insertionSort_cons] at ih ⊢
      rw [ih, hinsert]

/-- Sorting by key rearranges the members. -/
theorem sortByKey_perm {α : Type} (members : List (Str × α)) :
    (sortByKey members).Perm members :=
  List.perm_insertionSort _ _

/-- An array is written as its elements' texts between brackets. -/
theorem writeValue_array (items : List Json) :
    writeValue (.array items) = '[' :: (joinComma (items.map writeValue) ++ [']']) := by
  rw [writeValue, writeItems_eq_map]

/-- An object is written as its members in key order. -/
theorem writeValue_object (members : List (Str × Json)) :
    writeValue (.object members) = '{' :: (joinComma ((sortByKey members).map fun m =>
      memberText (m.1, writeValue m.2)) ++ ['}']) := by
  rw [writeValue, writeMembers_eq_map, sortByKey_map (fun m => (m.1, writeValue m.2)) (fun _ => rfl),
    List.map_map]
  rfl

/-! ### The hexadecimal codec -/

/-- Encodes bytes as lowercase hexadecimal. -/
def toHex (bytes : List UInt8) : Str :=
  bytes.flatMap fun byte => [hexDigit (byte.toNat >>> 4), hexDigit (byte.toNat &&& 0x0f)]

/-- The byte written by the two-byte slice at `index`. -/
def hexByte (hex : Str) (index : ℕ) : Option UInt8 :=
  (getSlice hex index (index + 2)).bind fun digits =>
    (parseUnsigned 16 255 digits).map UInt8.ofNat

/-- Decodes a hex string, one byte per two-byte slice. -/
def fromHex (hex : Str) : Option (List UInt8) :=
  if byteLen hex % 2 ≠ 0 then none
  else (List.range (byteLen hex / 2)).mapM fun k => hexByte hex (2 * k)

/-- A byte string of a fixed length. -/
abbrev Bytes (n : ℕ) := { bytes : List UInt8 // bytes.length = n }

/-- Decodes a hex string into exactly `n` bytes. -/
def decodeFixed (n : ℕ) (hex : Str) : Option (Bytes n) :=
  (fromHex hex).bind fun bytes => if h : bytes.length = n then some ⟨bytes, h⟩ else none

/-- The decoder on characters: one byte per pair of one-byte characters. -/
def hexPairs : Str → Option (List UInt8)
  | [] => some []
  | [_] => none
  | a :: b :: rest =>
      if a.utf8Size = 1 ∧ b.utf8Size = 1 then
        (parseUnsigned 16 255 [a, b]).bind fun value =>
          (hexPairs rest).map (UInt8.ofNat value :: ·)
      else none

/-- Slicing past a prefix slices what follows it. -/
theorem getSlice_append_add (pre s : Str) (i j : ℕ) :
    getSlice (pre ++ s) (byteLen pre + i) (byteLen pre + j) = getSlice s i j := by
  have hdrop : ∀ (pre : Str) (i : ℕ), dropBytes (byteLen pre + i) (pre ++ s) = dropBytes i s := by
    intro pre i
    induction pre with
    | nil => simp
    | cons c pre ih =>
        obtain ⟨n, hn⟩ : ∃ n, c.utf8Size + byteLen pre + i = n + 1 :=
          ⟨c.utf8Size + byteLen pre + i - 1, by have := c.utf8Size_pos; omega⟩
        have hsub : n + 1 - c.utf8Size = byteLen pre + i := by omega
        rw [byteLen_cons, hn, List.cons_append, dropBytes, if_pos (by omega), hsub, ih]
  simp only [getSlice, hdrop, Nat.add_le_add_iff_left, Nat.add_sub_add_left]

private theorem parseUnsigned_wide (c : Char) (h : c.utf8Size ≠ 1) :
    parseUnsigned 16 255 [c] = none := by
  have hbig : 127 < c.toNat := by
    have hle : ¬ c.val ≤ 127 := fun hle => h (Char.utf8Size_eq_one_iff.mpr hle)
    have h127 : (127 : UInt32).toNat = 127 := rfl
    rw [UInt32.le_iff_toNat_le, Char.toNat_val] at hle
    omega
  have hplus : c ≠ '+' := by
    rintro rfl
    exact absurd hbig (by decide)
  have hupper : ∀ d : Char, d.toNat ≤ 127 → ¬ c ≤ d := by
    intro d hd hcd
    rw [Char.le_def, UInt32.le_iff_toNat_le, Char.toNat_val, Char.toNat_val] at hcd
    omega
  have hval : digitValue 16 c = none := by
    simp [digitValue, hupper '9' (by decide), hupper 'f' (by decide), hupper 'F' (by decide)]
  simp [parseUnsigned, hplus, digitsValue, hval]

private theorem hexByte_wide (c : Char) (rest : Str) (h : c.utf8Size ≠ 1) :
    hexByte (c :: rest) 0 = none := by
  rcases c.utf8Size_eq with h1 | h2 | h3 | h4
  · exact absurd h1 h
  · have hslice : getSlice (c :: rest) 0 2 = some [c] := by
      simp [getSlice, dropBytes, takeBytes, h2]
    simp [hexByte, hslice, parseUnsigned_wide c h]
  · simp [hexByte, getSlice, dropBytes, takeBytes, h3]
  · simp [hexByte, getSlice, dropBytes, takeBytes, h4]

private theorem hexByte_narrow_wide (a b : Char) (rest : Str) (ha : a.utf8Size = 1)
    (hb : b.utf8Size ≠ 1) : hexByte (a :: b :: rest) 0 = none := by
  have hbig : ¬ b.utf8Size ≤ 1 := by
    have := b.utf8Size_pos
    omega
  simp [hexByte, getSlice, dropBytes, takeBytes, ha, hbig]

private theorem hexByte_pair (a b : Char) (rest : Str) (ha : a.utf8Size = 1)
    (hb : b.utf8Size = 1) :
    hexByte (a :: b :: rest) 0 = (parseUnsigned 16 255 [a, b]).map UInt8.ofNat := by
  simp [hexByte, getSlice, dropBytes, takeBytes, ha, hb]

/-- The slice-based decoder reads pairs of one-byte characters. -/
theorem fromHex_eq_hexPairs (hex : Str) : fromHex hex = hexPairs hex := by
  induction hex using hexPairs.induct with
  | case1 => rfl
  | case2 a =>
      rw [fromHex, hexPairs]
      by_cases heven : byteLen [a] % 2 ≠ 0
      · rw [if_pos heven]
      · have ha : a.utf8Size ≠ 1 := fun ha => heven (by simp [ha])
        have hpos : byteLen [a] / 2 ≠ 0 := by
          have := a.utf8Size_pos
          simp only [byteLen_cons, byteLen_nil]
          omega
        obtain ⟨n, hn⟩ := Nat.exists_eq_succ_of_ne_zero hpos
        rw [if_neg heven, hn, List.range_succ_eq_map, List.mapM_cons, Nat.mul_zero,
          hexByte_wide a [] ha]
        rfl
  | case3 a b rest hab ih =>
      obtain ⟨ha, hb⟩ := hab
      have hlen : byteLen (a :: b :: rest) = 2 + byteLen rest := by
        simp only [byteLen_cons, ha, hb]
        omega
      have hshift : ∀ k, hexByte (a :: b :: rest) (2 * (k + 1)) = hexByte rest (2 * k) := by
        intro k
        have hslice := getSlice_append_add [a, b] rest (2 * k) (2 * k + 2)
        have hpre : byteLen [a, b] = 2 := by simp [ha, hb]
        rw [hpre, show 2 + 2 * k = 2 * (k + 1) by omega,
          show 2 + (2 * k + 2) = 2 * (k + 1) + 2 by omega] at hslice
        rw [hexByte, hexByte, ← hslice]
        rfl
      have hmod : (2 + byteLen rest) % 2 = byteLen rest % 2 := by omega
      have hdiv : (2 + byteLen rest) / 2 = byteLen rest / 2 + 1 := by omega
      rw [hexPairs, if_pos ⟨ha, hb⟩, ← ih, fromHex, fromHex, hlen, hmod, hdiv]
      by_cases heven : byteLen rest % 2 ≠ 0
      · rw [if_pos heven, if_pos heven]
        cases parseUnsigned 16 255 [a, b] <;> rfl
      · rw [if_neg heven, if_neg heven, List.range_succ_eq_map, List.mapM_cons, Nat.mul_zero,
          hexByte_pair a b rest ha hb, List.mapM_map]
        simp only [Nat.succ_eq_add_one, Function.comp_def, hshift]
        rcases parseUnsigned 16 255 [a, b] with _ | value
        · rfl
        · cases List.mapM (fun k => hexByte rest (2 * k)) (List.range (byteLen rest / 2)) <;> rfl
  | case4 a b rest hab =>
      rw [hexPairs, if_neg hab, fromHex]
      have hfirst : hexByte (a :: b :: rest) 0 = none := by
        by_cases ha : a.utf8Size = 1
        · exact hexByte_narrow_wide a b rest ha fun hb => hab ⟨ha, hb⟩
        · exact hexByte_wide a _ ha
      by_cases heven : byteLen (a :: b :: rest) % 2 ≠ 0
      · rw [if_pos heven]
      · have hpos : byteLen (a :: b :: rest) / 2 ≠ 0 := by
          have := a.utf8Size_pos
          have := b.utf8Size_pos
          simp only [byteLen_cons]
          omega
        obtain ⟨n, hn⟩ := Nat.exists_eq_succ_of_ne_zero hpos
        rw [if_neg heven, hn, List.range_succ_eq_map, List.mapM_cons, Nat.mul_zero, hfirst]
        rfl

private theorem hexDigit_pair : ∀ n < 256,
    (hexDigit (n >>> 4)).utf8Size = 1 ∧ (hexDigit (n &&& 0x0f)).utf8Size = 1 ∧
      parseUnsigned 16 255 [hexDigit (n >>> 4), hexDigit (n &&& 0x0f)] = some n := by
  decide +kernel

/-- **The codec round trip**: decoding what was encoded gives the bytes back. -/
theorem fromHex_toHex (bytes : List UInt8) : fromHex (toHex bytes) = some bytes := by
  rw [fromHex_eq_hexPairs]
  induction bytes with
  | nil => rfl
  | cons byte bytes ih =>
      obtain ⟨hhi, hlo, hval⟩ := hexDigit_pair byte.toNat byte.toNat_lt_size
      have hcons : toHex (byte :: bytes) =
          hexDigit (byte.toNat >>> 4) :: hexDigit (byte.toNat &&& 0x0f) :: toHex bytes := rfl
      rw [hcons, hexPairs, if_pos ⟨hhi, hlo⟩, hval, ih]
      simp

private theorem hexDigit_upper_pair : ∀ n < 256,
    (hexDigit (n >>> 4)).toUpper.utf8Size = 1 ∧ (hexDigit (n &&& 0x0f)).toUpper.utf8Size = 1 ∧
      parseUnsigned 16 255 [(hexDigit (n >>> 4)).toUpper, (hexDigit (n &&& 0x0f)).toUpper] =
        some n := by
  decide +kernel

/-- The decoder does not distinguish case: the upper-case text of the same bytes decodes
to them too. -/
theorem fromHex_toUpper (bytes : List UInt8) :
    fromHex ((toHex bytes).map Char.toUpper) = some bytes := by
  rw [fromHex_eq_hexPairs]
  induction bytes with
  | nil => rfl
  | cons byte bytes ih =>
      obtain ⟨hhi, hlo, hval⟩ := hexDigit_upper_pair byte.toNat byte.toNat_lt_size
      have hcons : (toHex (byte :: bytes)).map Char.toUpper =
          (hexDigit (byte.toNat >>> 4)).toUpper :: (hexDigit (byte.toNat &&& 0x0f)).toUpper ::
            (toHex bytes).map Char.toUpper := rfl
      rw [hcons, hexPairs, if_pos ⟨hhi, hlo⟩, hval, ih]
      simp

/-- Decoding what was encoded at a fixed length gives the bytes back. -/
theorem decodeFixed_toHex {n : ℕ} (bytes : Bytes n) :
    decodeFixed n (toHex bytes.1) = some bytes := by
  simp [decodeFixed, fromHex_toHex, bytes.2]

/-- The characters the decoder accepts: hexadecimal digits of either case and `+`. -/
def isHexChar (c : Char) : Bool :=
  (digitValue 16 c).isSome || c == '+'

private theorem digitsValue_chars {acc n : ℕ} {s : Str} (h : digitsValue 16 acc s = some n) :
    ∀ c ∈ s, isHexChar c = true := by
  induction s generalizing acc with
  | nil => simp
  | cons d s ih =>
      rw [digitsValue, Option.bind_eq_some_iff] at h
      obtain ⟨v, hv, h⟩ := h
      intro c hc
      rcases List.mem_cons.mp hc with rfl | hc
      · simp [isHexChar, hv]
      · exact ih h c hc

private theorem parseUnsigned_chars {bound n : ℕ} {s : Str}
    (h : parseUnsigned 16 bound s = some n) : ∀ c ∈ s, isHexChar c = true := by
  simp only [parseUnsigned, Option.filter_eq_some_iff, Option.bind_eq_some_iff] at h
  obtain ⟨⟨ds, hds, hval⟩, -⟩ := h
  split at hds
  · exact absurd hds (by simp)
  · exact absurd hds (by simp)
  · obtain rfl := Option.some.inj hds
    intro c hc
    rcases List.mem_cons.mp hc with rfl | hc
    · rfl
    · exact digitsValue_chars hval c hc
  · obtain rfl := Option.some.inj hds
    exact digitsValue_chars hval

/-- A decodable text consists of hexadecimal digits and plus signs. -/
theorem fromHex_chars {hex : Str} {bytes : List UInt8} (h : fromHex hex = some bytes) :
    ∀ c ∈ hex, isHexChar c = true := by
  rw [fromHex_eq_hexPairs] at h
  induction hex using hexPairs.induct generalizing bytes with
  | case1 => simp
  | case2 a => simp [hexPairs] at h
  | case3 a b rest hab ih =>
      rw [hexPairs, if_pos hab] at h
      simp only [Option.bind_eq_some_iff, Option.map_eq_some_iff] at h
      obtain ⟨value, hvalue, tail, htail, -⟩ := h
      have hpair := parseUnsigned_chars hvalue
      intro c hc
      rcases List.mem_cons.mp hc with rfl | hc
      · exact hpair c (by simp)
      · rcases List.mem_cons.mp hc with rfl | hc
        · exact hpair c (by simp)
        · exact ih htail c hc
  | case4 a b rest hab => simp [hexPairs, hab] at h

end SovriAgent
