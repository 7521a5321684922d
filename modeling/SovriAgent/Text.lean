import Mathlib

/-!
# Text with Byte Offsets

The program's strings are UTF-8, and its code addresses them by byte offset: a slice
whose ends are not character boundaries aborts the process. A string is modelled here
as its list of Unicode scalar values, and the byte-offset operations of the language
(`as_bytes().get`, slices, `find`, `replacen`, integer parsing) are defined over it.

`Scan` is the outcome of a computation that uses such operations: it aborts, yields
nothing, or yields a value. The lemmas of this module reduce every offset operation
at `byteLen pre` in `pre ++ suf` to an operation on `suf`, which is how the scanners
built on them are related to functions on suffixes.

## Main results

* `byteAt_append`, `dropBytes_append`, `takeBytes_append`: offset operations at a
  character boundary.
* `byteAt_zero_eq_ascii`: a byte test against an ASCII character is a character test.
* `splitFirst_eq_some_iff`, `splitFirst_eq_none_iff`: the textual search returns the
  leftmost occurrence, and fails exactly when there is none.
-/

namespace SovriAgent

/-- A string, as its sequence of Unicode scalar values. -/
abbrev Str := List Char

/-- Strings are equal if their characters are. -/
instance : LawfulBEq Str := inferInstance

/-- The order of strings: by their first different character, which is also the order of
their UTF-8 bytes. -/
def strLe : Str → Str → Bool
  | [], _ => true
  | _ :: _, [] => false
  | a :: s, b :: t => if a = b then strLe s t else decide (a.toNat < b.toNat)

/-- A relation of empty lists that holds of appended ones holds of the lists of items. -/
theorem related_flatMap {α β γ : Type} {related : List β → List γ → Prop} {first : α → List β}
    {second : α → List γ} {items : List α} (hnil : related [] [])
    (happend : ∀ {s t s' t'}, related s s' → related t t' → related (s ++ t) (s' ++ t'))
    (h : ∀ item ∈ items, related (first item) (second item)) :
    related (items.flatMap first) (items.flatMap second) := by
  induction items with
  | nil => exact hnil
  | cons item items ih =>
      rw [List.flatMap_cons, List.flatMap_cons]
      exact happend (h item List.mem_cons_self) (ih fun i hi => h i (List.mem_cons_of_mem item hi))

/-! ### Outcomes of fallible scans -/

/-- The outcome of a scan: the process aborts, the scan yields nothing (`None`), or it
yields a value. -/
inductive Scan (α : Type) where
  | panic
  | none
  | some (a : α)
  deriving DecidableEq

namespace Scan

variable {α β : Type}

/-- Sequencing: `?` on the outcome of the first scan. -/
protected def bind : Scan α → (α → Scan β) → Scan β
  | .panic, _ => .panic
  | .none, _ => .none
  | .some a, f => f a

instance : Monad Scan where
  pure := Scan.some
  bind := Scan.bind

/-- An `Option` never aborts. -/
def ofOption : Option α → Scan α
  | Option.none => .none
  | Option.some a => .some a

@[simp] theorem panic_bind (f : α → Scan β) : ((Scan.panic : Scan α) >>= f) = .panic := rfl

@[simp] theorem none_bind (f : α → Scan β) : ((Scan.none : Scan α) >>= f) = .none := rfl

@[simp] theorem some_bind (a : α) (f : α → Scan β) : (Scan.some a >>= f) = f a := rfl

@[simp] theorem pure_eq (a : α) : (pure a : Scan α) = .some a := rfl

@[simp] theorem ofOption_none : ofOption (Option.none : Option α) = .none := rfl

@[simp] theorem ofOption_some (a : α) : ofOption (Option.some a) = .some a := rfl

/-- A scan that is an `Option` in disguise binds like one. -/
theorem ofOption_bind (o : Option α) (f : α → Option β) :
    (ofOption o >>= fun a => ofOption (f a)) = ofOption (o.bind f) := by
  cases o <;> rfl

end Scan

/-! ### Bytes and slices -/

/-- The UTF-8 encoding of a string. -/
def utf8 (s : Str) : List UInt8 :=
  s.flatMap String.utf8EncodeChar

/-- The length of a string in bytes (`len`). -/
def byteLen (s : Str) : ℕ :=
  (s.map Char.utf8Size).sum

/-- The byte at offset `i` (`as_bytes().get(i)`). -/
def byteAt (s : Str) (i : ℕ) : Option UInt8 :=
  (utf8 s)[i]?

/-- The suffix from byte offset `i`, when `i` is a character boundary. -/
def dropBytes : ℕ → Str → Option Str
  | 0, s => some s
  | _ + 1, [] => none
  | n + 1, c :: s => if c.utf8Size ≤ n + 1 then dropBytes (n + 1 - c.utf8Size) s else none

/-- The prefix up to byte offset `i`, when `i` is a character boundary. -/
def takeBytes : ℕ → Str → Option Str
  | 0, _ => some []
  | _ + 1, [] => none
  | n + 1, c :: s =>
      if c.utf8Size ≤ n + 1 then (takeBytes (n + 1 - c.utf8Size) s).map (c :: ·) else none

/-- `s[i..]`, which aborts when `i` is not a character boundary of `s`. -/
def sliceFrom (s : Str) (i : ℕ) : Scan Str :=
  match dropBytes i s with
  | some t => .some t
  | none => .panic

/-- `s.get(i..j)`, the checked slice. -/
def getSlice (s : Str) (i j : ℕ) : Option Str :=
  if i ≤ j then (dropBytes i s).bind (takeBytes (j - i)) else none

/-- `s[i..j]`, which aborts unless `i ≤ j` are character boundaries of `s`. -/
def slice (s : Str) (i j : ℕ) : Scan Str :=
  match getSlice s i j with
  | some t => .some t
  | none => .panic

@[simp] theorem byteLen_nil : byteLen [] = 0 := rfl

@[simp] theorem byteLen_cons (c : Char) (s : Str) : byteLen (c :: s) = c.utf8Size + byteLen s := by
  simp [byteLen]

@[simp] theorem byteLen_append (s t : Str) : byteLen (s ++ t) = byteLen s + byteLen t := by
  simp [byteLen]

@[simp] theorem length_utf8 (s : Str) : (utf8 s).length = byteLen s := by
  induction s with
  | nil => rfl
  | cons c s ih => simp [utf8] at ih ⊢; simp [ih]

/-- Two strings with the same encoding are the same. -/
theorem utf8_injective {s t : Str} (h : utf8 s = utf8 t) : s = t := by
  have hbytes : (String.ofList s).toByteArray = (String.ofList t).toByteArray :=
    congrArg List.toByteArray h
  have hstring := congrArg String.toList (String.toByteArray_inj.mp hbytes)
  simpa using hstring

/-- Every character takes at least one byte. -/
theorem length_le_byteLen (s : Str) : s.length ≤ byteLen s := by
  induction s with
  | nil => simp
  | cons c s ih =>
      have hpos := c.utf8Size_pos
      simp only [List.length_cons, byteLen_cons]
      omega

theorem byteLen_pos {s : Str} (h : s ≠ []) : 0 < byteLen s := by
  have hlen := length_le_byteLen s
  have hpos := List.length_pos_of_ne_nil h
  omega

@[simp] theorem dropBytes_append (pre suf : Str) :
    dropBytes (byteLen pre) (pre ++ suf) = some suf := by
  induction pre with
  | nil => simp [dropBytes]
  | cons c pre ih =>
      obtain ⟨n, hn⟩ : ∃ n, c.utf8Size + byteLen pre = n + 1 :=
        ⟨c.utf8Size + byteLen pre - 1, by have := c.utf8Size_pos; omega⟩
      have hsub : n + 1 - c.utf8Size = byteLen pre := by omega
      rw [byteLen_cons, hn, List.cons_append, dropBytes, if_pos (by omega), hsub, ih]

@[simp] theorem takeBytes_append (pre suf : Str) :
    takeBytes (byteLen pre) (pre ++ suf) = some pre := by
  induction pre with
  | nil => simp [takeBytes]
  | cons c pre ih =>
      obtain ⟨n, hn⟩ : ∃ n, c.utf8Size + byteLen pre = n + 1 :=
        ⟨c.utf8Size + byteLen pre - 1, by have := c.utf8Size_pos; omega⟩
      have hsub : n + 1 - c.utf8Size = byteLen pre := by omega
      rw [byteLen_cons, hn, List.cons_append, takeBytes, if_pos (by omega), hsub, ih]
      rfl

/-- A suffix starts at a character boundary. -/
theorem eq_append_of_dropBytes {n : ℕ} {s t : Str} (h : dropBytes n s = some t) :
    ∃ pre, s = pre ++ t ∧ byteLen pre = n := by
  induction s generalizing n with
  | nil =>
      cases n with
      | zero => exact ⟨[], by simpa [dropBytes] using h.symm, rfl⟩
      | succ n => cases h
  | cons c s ih =>
      cases n with
      | zero => exact ⟨[], by simpa [dropBytes] using h, rfl⟩
      | succ n =>
          rw [dropBytes] at h
          split at h
          · next hle =>
              obtain ⟨pre, rfl, hlen⟩ := ih h
              exact ⟨c :: pre, rfl, by rw [byteLen_cons]; omega⟩
          · cases h

/-- A prefix ends at a character boundary. -/
theorem eq_prefix_of_takeBytes {n : ℕ} {s value : Str} (h : takeBytes n s = some value) :
    ∃ rest, s = value ++ rest ∧ byteLen value = n := by
  induction s generalizing n value with
  | nil =>
      cases n with
      | zero => exact ⟨[], by simpa [takeBytes] using h, by simp_all [takeBytes]⟩
      | succ n => cases h
  | cons c s ih =>
      cases n with
      | zero =>
          obtain rfl : [] = value := by simpa [takeBytes] using h
          exact ⟨c :: s, rfl, rfl⟩
      | succ n =>
          rw [takeBytes] at h
          split at h
          · next hle =>
              obtain ⟨tail, htail, rfl⟩ := Option.map_eq_some_iff.mp h
              obtain ⟨rest, rfl, hlen⟩ := ih htail
              exact ⟨rest, rfl, by rw [byteLen_cons]; omega⟩
          · cases h

/-- Slicing from a character boundary never aborts. -/
theorem sliceFrom_append (pre suf : Str) {i : ℕ} (hi : i = byteLen pre) :
    sliceFrom (pre ++ suf) i = .some suf := by
  subst hi
  simp [sliceFrom]

/-- The checked slice between two character boundaries. -/
theorem getSlice_append (pre mid suf : Str) {i j : ℕ} (hi : i = byteLen pre)
    (hj : j = byteLen pre + byteLen mid) :
    getSlice (pre ++ (mid ++ suf)) i j = some mid := by
  subst hi hj
  simp [getSlice]

/-- Slicing between character boundaries never aborts. -/
theorem slice_append (pre mid suf : Str) {i j : ℕ} (hi : i = byteLen pre)
    (hj : j = byteLen pre + byteLen mid) :
    slice (pre ++ (mid ++ suf)) i j = .some mid := by
  rw [slice, getSlice_append pre mid suf hi hj]

/-- The byte at a character boundary is the first byte of what follows it. -/
theorem byteAt_append (pre suf : Str) : byteAt (pre ++ suf) (byteLen pre) = byteAt suf 0 := by
  have hsplit : utf8 (pre ++ suf) = utf8 pre ++ utf8 suf := by simp [utf8]
  rw [byteAt, byteAt, hsplit, List.getElem?_append_right (by simp), length_utf8, Nat.sub_self]

@[simp] theorem byteAt_nil (i : ℕ) : byteAt [] i = none := by
  simp [byteAt, utf8]

/-- The first byte of a multi-byte character is no ASCII byte. -/
private theorem ascii_lt_of_two_le_utf8Size {c : Char} (h : c.utf8Size ≠ 1) :
    ∀ b ∈ (String.utf8EncodeChar c).head?, 128 ≤ b.toNat := by
  intro b hb
  rcases c.utf8Size_eq with h1 | h2 | h3 | h4
  · exact absurd h1 h
  · rw [String.utf8EncodeChar_eq_cons_cons h2] at hb
    obtain rfl : _ = b := by simpa using hb
    rw [UInt8.toNat_or]
    exact le_trans (by decide) Nat.right_le_or
  · rw [String.utf8EncodeChar_eq_cons_cons_cons h3] at hb
    obtain rfl : _ = b := by simpa using hb
    rw [UInt8.toNat_or]
    exact le_trans (by decide) Nat.right_le_or
  · rw [String.utf8EncodeChar_eq_cons_cons_cons_cons h4] at hb
    obtain rfl : _ = b := by simpa using hb
    rw [UInt8.toNat_or]
    exact le_trans (by decide) Nat.right_le_or

/-- Testing the byte at a boundary against an ASCII character tests the character. -/
theorem byteAt_zero_eq_ascii {c d : Char} (s : Str) (hd : d.val ≤ 127) :
    byteAt (c :: s) 0 = some d.toUInt8 ↔ c = d := by
  have hhead : byteAt (c :: s) 0 = (String.utf8EncodeChar c).head? := by
    have hne : String.utf8EncodeChar c ≠ [] := String.utf8EncodeChar_ne_nil
    rw [byteAt, utf8, List.flatMap_cons, List.getElem?_append_left (List.length_pos_of_ne_nil hne),
      List.head?_eq_getElem?]
  have hdNat : d.val.toNat ≤ 127 := by simpa [UInt32.le_iff_toNat_le] using hd
  rw [hhead]
  by_cases h1 : c.utf8Size = 1
  · have hc : c.val.toNat ≤ 127 := by
      simpa [UInt32.le_iff_toNat_le] using Char.utf8Size_eq_one_iff.mp h1
    rw [String.utf8EncodeChar_eq_singleton h1, List.head?_cons, Option.some.injEq]
    constructor
    · intro h
      have hnat := congrArg UInt8.toNat h
      simp only [Char.toUInt8, UInt32.toNat_toUInt8] at hnat
      exact Char.ext (UInt32.toNat_inj.mp (by omega))
    · rintro rfl
      rfl
  · have hbig := ascii_lt_of_two_le_utf8Size h1
    constructor
    · intro h
      have hb := hbig _ (by rw [h]; rfl)
      simp only [Char.toUInt8, UInt32.toNat_toUInt8] at hb
      omega
    · rintro rfl
      exact absurd (Char.utf8Size_eq_one_iff.mpr hd) h1

/-! ### Textual search -/

/-- `hay` without its prefix `needle`, when it has that prefix. -/
def stripPrefix : Str → Str → Option Str
  | [], hay => some hay
  | _ :: _, [] => none
  | n :: needle, h :: hay => if n = h then stripPrefix needle hay else none

/-- The parts of `hay` before and after the leftmost occurrence of `needle`. -/
def splitFirst (needle : Str) : Str → Option (Str × Str)
  | [] => if needle = [] then some ([], []) else none
  | c :: hay =>
      match stripPrefix needle (c :: hay) with
      | some rest => some ([], rest)
      | none => (splitFirst needle hay).map fun p => (c :: p.1, p.2)

/-- A text with its ASCII letters in lower case. -/
def asciiLowercase (s : Str) : Str :=
  s.map Char.toLower

/-- Equality up to the case of ASCII letters. -/
def eqIgnoreAsciiCase (s t : Str) : Bool :=
  asciiLowercase s == asciiLowercase t

/-- The byte offset of the leftmost occurrence of `needle` (`find`). -/
def find (needle hay : Str) : Option ℕ :=
  (splitFirst needle hay).map fun p => byteLen p.1

/-- `hay` with its leftmost occurrence of `needle` removed (`replacen(needle, "", 1)`). -/
def removeFirst (needle hay : Str) : Str :=
  match splitFirst needle hay with
  | some (before, after) => before ++ after
  | none => hay

theorem stripPrefix_eq_some_iff {needle hay rest : Str} :
    stripPrefix needle hay = some rest ↔ hay = needle ++ rest := by
  induction needle generalizing hay with
  | nil => simp [stripPrefix, eq_comm]
  | cons n needle ih =>
      cases hay with
      | nil => simp [stripPrefix]
      | cons h hay =>
          by_cases hnh : n = h
          · simp [stripPrefix, hnh, ih]
          · simp [stripPrefix, hnh, Ne.symm hnh]

@[simp] theorem stripPrefix_append (needle rest : Str) :
    stripPrefix needle (needle ++ rest) = some rest :=
  stripPrefix_eq_some_iff.mpr rfl

/-- The search succeeds at the leftmost occurrence and nowhere else. -/
theorem splitFirst_eq_some_iff {needle hay before after : Str} :
    splitFirst needle hay = some (before, after) ↔
      hay = before ++ (needle ++ after) ∧
        ∀ b a, hay = b ++ (needle ++ a) → before.length ≤ b.length := by
  induction hay generalizing before with
  | nil =>
      by_cases hn : needle = []
      · subst hn
        simp only [splitFirst, if_pos, Option.some.injEq, Prod.mk.injEq, List.nil_append]
        constructor
        · rintro ⟨rfl, rfl⟩
          simp
        · rintro ⟨h, -⟩
          obtain ⟨rfl, rfl⟩ : before = [] ∧ after = [] := by simpa using h.symm
          exact ⟨rfl, rfl⟩
      · simp only [splitFirst, if_neg hn, reduceCtorEq, false_iff, not_and]
        intro h
        simp [hn] at h
  | cons c hay ih =>
      rw [splitFirst]
      rcases hs : stripPrefix needle (c :: hay) with _ | rest
      · have hno : ∀ a, c :: hay ≠ needle ++ a := by
          intro a ha
          rw [ha, stripPrefix_append] at hs
          exact absurd hs (by simp)
        simp only [Option.map_eq_some_iff, Prod.mk.injEq]
        constructor
        · rintro ⟨⟨b, a⟩, hba, rfl, rfl⟩
          obtain ⟨rfl, hmin⟩ := ih.mp hba
          refine ⟨rfl, ?_⟩
          intro b' a' h'
          cases b' with
          | nil => exact absurd h' (hno a')
          | cons d b' =>
              have htail := (List.cons.inj h').2
              simpa using hmin b' a' htail
        · rintro ⟨h, hmin⟩
          cases before with
          | nil => exact absurd h (hno after)
          | cons d before =>
              obtain ⟨rfl, htail⟩ := List.cons.inj h
              refine ⟨(before, after), ih.mpr ⟨htail, ?_⟩, rfl, rfl⟩
              intro b a hba
              simpa using hmin (c :: b) a (by simp [hba])
      · rw [stripPrefix_eq_some_iff] at hs
        simp only [Option.some.injEq, Prod.mk.injEq]
        constructor
        · rintro ⟨rfl, rfl⟩
          exact ⟨hs, by simp⟩
        · rintro ⟨h, hmin⟩
          have hzero := hmin [] rest hs
          obtain rfl : before = [] := by simpa using hzero
          rw [hs] at h
          exact ⟨rfl, by simpa using h⟩

theorem eq_of_splitFirst {needle hay before after : Str}
    (h : splitFirst needle hay = some (before, after)) : hay = before ++ (needle ++ after) :=
  (splitFirst_eq_some_iff.mp h).1

/-- The search fails exactly when the needle does not occur. -/
theorem splitFirst_eq_none_iff {needle hay : Str} :
    splitFirst needle hay = none ↔ ¬ needle <:+: hay := by
  induction hay with
  | nil =>
      by_cases hn : needle = [] <;> simp [splitFirst, hn]
  | cons c hay ih =>
      rw [splitFirst, List.infix_cons_iff, not_or]
      rcases hs : stripPrefix needle (c :: hay) with _ | rest
      · have hno : ¬ needle <+: c :: hay := by
          rintro ⟨a, ha⟩
          rw [← ha, stripPrefix_append] at hs
          exact absurd hs (by simp)
        simp [hno, ih]
      · rw [stripPrefix_eq_some_iff] at hs
        simp only [reduceCtorEq, false_iff, not_and_or, not_not]
        exact Or.inl ⟨rest, hs.symm⟩

/-- Skipping a character at which the needle does not start. -/
theorem splitFirst_cons_of_not_prefix {needle : Str} {c : Char} {hay : Str}
    (h : ¬ needle <+: c :: hay) :
    splitFirst needle (c :: hay) = (splitFirst needle hay).map fun p => (c :: p.1, p.2) := by
  have hs : stripPrefix needle (c :: hay) = none := by
    rcases hs : stripPrefix needle (c :: hay) with _ | rest
    · rfl
    · exact absurd ⟨rest, (stripPrefix_eq_some_iff.mp hs).symm⟩ h
  rw [splitFirst, hs]

/-- A needle at the very start is found there. -/
theorem splitFirst_append_self (needle rest : Str) :
    splitFirst needle (needle ++ rest) = some ([], rest) :=
  splitFirst_eq_some_iff.mpr ⟨rfl, by simp⟩

/-- A single-character needle is found right after a text without that character. -/
theorem splitFirst_char {c : Char} {text rest : Str} (h : c ∉ text) :
    splitFirst [c] (text ++ c :: rest) = some (text, rest) := by
  rw [splitFirst_eq_some_iff]
  refine ⟨rfl, ?_⟩
  intro b a hba
  by_contra hlt
  have hget := congrArg (·[b.length]?) hba
  simp only [List.singleton_append,
    List.getElem?_append_left (not_le.mp hlt)] at hget
  rw [List.getElem?_append_right (le_refl _), Nat.sub_self, List.getElem?_cons_zero] at hget
  exact h (List.mem_of_getElem? hget)

/-- A text the single-character search passed over does not contain the character. -/
theorem not_mem_of_splitFirst_char {c : Char} {hay before after : Str}
    (h : splitFirst [c] hay = some (before, after)) : c ∉ before := by
  intro hc
  obtain ⟨s, t, rfl⟩ := List.append_of_mem hc
  obtain ⟨hhay, hmin⟩ := splitFirst_eq_some_iff.mp h
  have hle := hmin s (t ++ c :: after) (by simp [hhay])
  simp only [List.length_append, List.length_cons] at hle
  omega

/-- The leftmost occurrence of a needle, extended by what surrounds it there. -/
theorem splitFirst_extend {needle before after tail rest : Str} {c : Char}
    (h : splitFirst needle (before ++ c :: (needle ++ after)) = some (before ++ [c], after))
    (htail : after = tail ++ rest) :
    splitFirst (c :: (needle ++ tail)) (before ++ c :: (needle ++ after)) =
      some (before, rest) := by
  subst htail
  rw [splitFirst_eq_some_iff] at h ⊢
  refine ⟨by simp, ?_⟩
  intro b a hba
  have hle := h.2 (b ++ [c]) (tail ++ a) (by rw [hba]; simp)
  simpa using hle

/-- A needle inserted after a character it does not contain, behind a text it does not
occur in, is found where it was inserted. -/
theorem splitFirst_inserted {needle before rest : Str} {c : Char} (hc : c ∉ needle)
    (hbefore : ¬ needle <:+: before) :
    splitFirst needle (before ++ c :: (needle ++ rest)) = some (before ++ [c], rest) := by
  rw [splitFirst_eq_some_iff]
  refine ⟨by simp, ?_⟩
  intro b a hba
  by_contra hlt
  have hle : b.length ≤ before.length := by
    simp only [List.length_append, List.length_singleton] at hlt
    omega
  -- the earlier occurrence covers `c`, or lies inside `before`
  obtain ⟨gap, rfl⟩ : ∃ gap, before = b ++ gap := by
    have hprefix : b <+: before ++ c :: (needle ++ rest) := ⟨needle ++ a, hba.symm⟩
    obtain ⟨gap, hgap⟩ := List.prefix_of_prefix_length_le hprefix (List.prefix_append _ _) hle
    exact ⟨gap, hgap.symm⟩
  have htail : gap ++ c :: (needle ++ rest) = needle ++ a := by simpa using hba
  rcases List.append_eq_append_iff.mp htail with ⟨mid, hneedle, hmid⟩ | ⟨mid, hgap, -⟩
  · cases mid with
    | nil => exact hbefore ⟨b, [], by simp [hneedle]⟩
    | cons d mid =>
        obtain ⟨rfl, -⟩ := List.cons.inj hmid
        exact hc (by simp [hneedle])
  · exact hbefore ⟨b, mid, by simp [hgap]⟩

/-- Texts separated by commas. -/
def joinComma : List Str → Str
  | [] => []
  | [t] => t
  | t :: u :: ts => t ++ ',' :: joinComma (u :: ts)

/-! ### Numbers as text -/

/-- The value of a digit in bases up to sixteen (`char::to_digit`). -/
def digitValue (radix : ℕ) (c : Char) : Option ℕ :=
  let value : Option ℕ :=
    if '0' ≤ c ∧ c ≤ '9' then some (c.toNat - '0'.toNat)
    else if 'a' ≤ c ∧ c ≤ 'f' then some (c.toNat - 'a'.toNat + 10)
    else if 'A' ≤ c ∧ c ≤ 'F' then some (c.toNat - 'A'.toNat + 10)
    else none
  value.filter (· < radix)

/-- The value of a digit string read left to right from `acc`. -/
def digitsValue (radix : ℕ) : ℕ → Str → Option ℕ
  | acc, [] => some acc
  | acc, c :: s => (digitValue radix c).bind fun d => digitsValue radix (radix * acc + d) s

/-- Unsigned integer parsing (`from_str_radix`): a leading `+` is accepted, the empty
string and a lone sign are not, and a value above `bound` overflows. -/
def parseUnsigned (radix bound : ℕ) (s : Str) : Option ℕ :=
  let digits : Option Str :=
    match s with
    | [] => none
    | '+' :: [] => none
    | '+' :: rest => some rest
    | rest => some rest
  (digits.bind (digitsValue radix 0)).filter (· ≤ bound)

/-- The decimal text of a natural number (`to_string`). -/
def decimal (n : ℕ) : Str :=
  Nat.toDigits 10 n

end SovriAgent
