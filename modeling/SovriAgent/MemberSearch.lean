import SovriAgent.CanonicalText
import SovriAgent.SignedJson

/-!
# The Members the Gates Read

The verifier locates an object member by searching the text of the document for its quoted
key, a colon and an open brace, wherever that text occurs. This module says, for every
compact JSON document, which member that is: the first one in document order that is an
object and whose key is the searched one, or ends in an escaped quote and the searched one.
Members of that object are then read directly.

## Main results

* `scans_text`, `memberValue_text`: values and direct members of any document.
* `splitFirst_text`, `objectMember_text`: the textual search over the text of a tree.
* `gatesReadPath_iff`: the gates read the members at their paths exactly when the first
  members they come across agree with them.
-/

namespace SovriAgent

/-! ### Scanning trees -/

/-- The string scanner reads a string body up to its closing quote. -/
theorem scanRaw_body {raw : Str} (h : StringBody raw) : Closes raw := by
  intro rest
  induction h with
  | nil => rfl
  | @plain c s hq hb _ _ ih => rw [List.cons_append, scanRaw, if_neg hb, if_neg hq, ih]; rfl
  | @short c s _ _ ih =>
      rw [List.cons_append, List.cons_append, scanRaw, if_pos rfl, scanRaw, ih]
      rfl
  | @code digits s _ hhex _ ih =>
      have hordinary : ∀ c ∈ digits, c ≠ '"' ∧ c ≠ '\\' := by
        intro c hc
        have hhexc := hhex c hc
        refine ⟨?_, ?_⟩ <;> (rintro rfl; exact absurd hhexc (by decide))
      rw [List.cons_append, List.cons_append, scanRaw, if_pos rfl, scanRaw, List.append_assoc,
        scanRaw_ordinary digits _ hordinary, ih]
      rfl

theorem skips_quoted {raw : Str} (h : StringBody raw) : Skips (JsonTree.quoted raw) := by
  intro depth rest
  have hshape : JsonTree.quoted raw ++ rest = '"' :: (raw ++ '"' :: rest) := by
    simp [JsonTree.quoted]
  rw [hshape, scanNested_quote, scanNested_of_scanRaw (scanRaw_body h rest), Option.map_map]
  simp only [Function.comp_def, JsonTree.quoted, List.cons_append, List.append_assoc,
    List.nil_append]

theorem scans_quoted {raw : Str} (h : StringBody raw) : Scans (JsonTree.quoted raw) := by
  intro rest _
  have hshape : JsonTree.quoted raw ++ rest = '"' :: (raw ++ '"' :: rest) := by
    simp [JsonTree.quoted]
  rw [hshape, scanValue, if_neg (by decide), if_pos rfl, scanRaw_body h]
  rfl

/-- The characters of tokens mean nothing to the scanners. -/
theorem isPlainToken_of_isTokenChar {c : Char} (h : isTokenChar c = true) :
    isPlainToken c = true := by
  have hne : ∀ d : Char, isTokenChar d = false → c ≠ d := by
    rintro d hd rfl
    simp [hd] at h
  simp [isPlainToken, isInert, isDelimiter, hne '"' (by decide), hne '{' (by decide),
    hne '[' (by decide), hne '}' (by decide), hne ']' (by decide), hne ',' (by decide)]

theorem IsToken.plain {t : Str} (h : IsToken t) : t.all isPlainToken = true :=
  List.all_eq_true.mpr fun c hc => isPlainToken_of_isTokenChar (h.chars.2 c hc)

theorem skips_line {m : Str × JsonTree} (hkey : StringBody m.1) (h : Skips m.2.text) :
    Skips (JsonTree.line m) := by
  have hcolon : Skips [':'] := skips_inert rfl
  exact skips_append (skips_quoted hkey) (skips_append hcolon h)

/-- The texts of items are passed over if each is. -/
theorem skips_itemTexts {items : List JsonTree} (h : ∀ item ∈ items, Skips item.text) :
    Skips (joinComma (items.map JsonTree.text)) := by
  refine skips_joinComma ?_
  simpa using h

/-- The texts of members are passed over if their values are. -/
theorem skips_lines {members : List (Str × JsonTree)} (hkeys : ∀ m ∈ members, StringBody m.1)
    (h : ∀ m ∈ members, Skips m.2.text) : Skips (joinComma (members.map JsonTree.line)) := by
  refine skips_joinComma fun t ht => ?_
  obtain ⟨m, hm, rfl⟩ := List.mem_map.mp ht
  exact skips_line (hkeys m hm) (h m hm)

/-- The container scanner passes over the text of a tree. -/
theorem skips_text {tree : JsonTree} (h : tree.WellFormed) : Skips tree.text := by
  induction h with
  | str hraw =>
      rw [JsonTree.text]
      exact skips_quoted hraw
  | @token t ht =>
      rw [JsonTree.text]
      refine skips_inert (List.all_eq_true.mpr fun c hc => ?_)
      exact isInert_of_isPlainToken (List.all_eq_true.mp ht.plain c hc)
  | array _ ih =>
      rw [JsonTree.text_array]
      exact skips_bracket (.inr rfl) (.inr rfl) (skips_itemTexts ih)
  | object _ hkeys _ ih =>
      rw [JsonTree.text_object]
      exact skips_bracket (.inl rfl) (.inl rfl) (skips_lines hkeys ih)

/-- **The value scanner stops exactly at the end of the text of a tree.** -/
theorem scans_text {tree : JsonTree} (h : tree.WellFormed) : Scans tree.text := by
  cases h with
  | str hraw =>
      rw [JsonTree.text]
      exact scans_quoted hraw
  | token ht =>
      rw [JsonTree.text]
      exact scans_token ht.chars.1 ht.plain
  | array hitems =>
      rw [JsonTree.text_array]
      have htexts := skips_itemTexts fun item hitem => skips_text (hitems item hitem)
      exact scans_bracket (.inr rfl) (.inr rfl) htexts
  | object _ hkeys hvalues =>
      rw [JsonTree.text_object]
      have hlines := skips_lines hkeys fun m hm => skips_text (hvalues m hm)
      exact scans_bracket (.inl rfl) (.inl rfl) hlines

/-! ### Members and values of trees -/

namespace JsonTree

/-- The direct member of an object under a key as written. -/
def member (key : Str) : JsonTree → Option JsonTree
  | .object members => (members.find? (·.1 = key)).map Prod.snd
  | _ => none

/-- The text of a string as written. -/
def string : JsonTree → Option Str
  | .str raw => some raw
  | _ => none

/-- The value of a non-negative integer within 64 bits. -/
def natural : JsonTree → Option ℕ
  | .token t => (digitsNumber t).filter (· ≤ i64Max)
  | _ => none

/-- Whether a tree is an object. -/
def isObject : JsonTree → Bool
  | .object _ => true
  | _ => false

theorem WellFormed.of_member {key : Str} {tree value : JsonTree} (h : tree.WellFormed)
    (hvalue : tree.member key = some value) : value.WellFormed := by
  cases h with
  | str => cases hvalue
  | token => cases hvalue
  | array => cases hvalue
  | object _ _ hvalues =>
      obtain ⟨m, hm, rfl⟩ := Option.map_eq_some_iff.mp hvalue
      exact hvalues m (List.mem_of_find?_eq_some hm)

end JsonTree

/-- **The member loop reads the direct member of any tree.** -/
theorem memberValue_text {tree : JsonTree} (h : tree.WellFormed) (key : Str) :
    memberValue key tree.text = (tree.member key).map JsonTree.text := by
  cases h with
  | str => rfl
  | @token t ht =>
      obtain ⟨hne, hchars⟩ := ht.chars
      obtain ⟨c, t, rfl⟩ := List.exists_cons_of_ne_nil hne
      have hc : c ≠ '{' := by
        rintro rfl
        exact absurd (hchars '{' List.mem_cons_self) (by decide)
      rw [JsonTree.text, memberValue, if_pos hc]
      rfl
  | array => rw [JsonTree.text_array]; rfl
  | @object members _ hkeys hvalues =>
      have hlines : members.map JsonTree.line =
          (members.map fun m => (m.1, m.2.text)).map JsonTree.memberLine := by
        rw [List.map_map]
        rfl
      rw [JsonTree.text_object, hlines, memberValue_lines, List.find?_map, Option.map_map,
        JsonTree.member, Option.map_map]
      · rfl
      · intro m hm
        obtain ⟨n, hn, rfl⟩ := List.mem_map.mp hm
        exact scanRaw_body (hkeys n hn)
      · intro m hm
        obtain ⟨n, hn, rfl⟩ := List.mem_map.mp hm
        exact scans_text (hvalues n hn)

/-- The string reader on the text of a tree. -/
theorem asString_text {tree : JsonTree} (h : tree.WellFormed) :
    asString tree.text = tree.string := by
  cases h with
  | @str raw hraw =>
      have hshape : JsonTree.text (.str raw) = '"' :: (raw ++ '"' :: []) := by
        simp [JsonTree.text, JsonTree.quoted]
      rw [asString, hshape, scanString_quote, scanRaw_body hraw]
      rfl
  | @token t ht =>
      obtain ⟨hne, hchars⟩ := ht.chars
      obtain ⟨c, t, rfl⟩ := List.exists_cons_of_ne_nil hne
      have hc : c ≠ '"' := by
        rintro rfl
        exact absurd (hchars '"' List.mem_cons_self) (by decide)
      rw [asString, JsonTree.text, scanString_of_ne hc]
      rfl
  | array =>
      rw [asString, JsonTree.text_array, scanString_of_ne (by decide)]
      rfl
  | object =>
      rw [asString, JsonTree.text_object, scanString_of_ne (by decide)]
      rfl

/-- The integer reader on a text: the value of its digits, when it is nothing else. -/
theorem integerToken_eq (t : Str) : integerToken t = (digitsNumber t).filter (· ≤ i64Max) := by
  have hdigit : ∀ c, (digitValue 10 c).isSome = true → '0' ≤ c ∧ c ≤ '9' := by
    intro c hc
    by_contra hnot
    have hnone : digitValue 10 c = none := by
      unfold digitValue
      rw [if_neg hnot]
      split_ifs <;> simp [Option.filter]
    rw [hnone] at hc
    cases hc
  have hdigits : ∀ (s : Str) acc n, digitsValue 10 acc s = some n →
      s.all (fun ch => '0' ≤ ch ∧ ch ≤ '9') = true := by
    intro s
    induction s with
    | nil => exact fun _ _ _ => rfl
    | cons c s ih =>
        intro acc n h
        obtain ⟨d, hd, h⟩ := Option.bind_eq_some_iff.mp h
        rw [List.all_cons, ih _ n h, Bool.and_true, decide_eq_true_iff]
        exact hdigit c (by rw [hd]; rfl)
  rw [integerToken, digitsNumber]
  cases t with
  | nil => rfl
  | cons c t =>
      rw [if_neg (List.cons_ne_nil c t)]
      split
      · next hall =>
          have hsign : c ≠ '+' := by
            rintro rfl
            have hplus := List.all_eq_true.mp hall.2 '+' List.mem_cons_self
            exact absurd hplus (by decide)
          exact parseUnsigned_of_not_sign 10 i64Max t hsign
      · next hnot =>
          cases hvalue : digitsValue 10 0 (c :: t) with
          | none => rfl
          | some n => exact absurd ⟨List.cons_ne_nil c t, hdigits _ 0 n hvalue⟩ hnot

/-- The integer reader on the text of a tree. -/
theorem integerToken_text {tree : JsonTree} : integerToken tree.text = tree.natural := by
  have hnone : ∀ c s, digitValue 10 c = none → integerToken (c :: s) = none := by
    intro c s hc
    rw [integerToken_eq, digitsNumber, if_neg (List.cons_ne_nil c s), digitsValue, hc]
    rfl
  cases tree with
  | str raw => exact hnone _ _ (by decide)
  | token t => exact integerToken_eq t
  | array items =>
      rw [JsonTree.text_array]
      exact hnone _ _ (by decide)
  | object members =>
      rw [JsonTree.text_object]
      exact hnone _ _ (by decide)

/-! ### The textual search -/

/-- Whether a key as written is the searched one or ends in an escaped quote and it: then its
closing quote is that of the searched key. -/
def endsIn (key written : Str) : Bool :=
  ('"' :: key).isSuffixOf ('"' :: written)

theorem endsIn_iff {key written : Str} :
    endsIn key written = true ↔ written = key ∨ '"' :: key <:+ written := by
  rw [endsIn, List.isSuffixOf_iff_suffix, List.suffix_cons_iff]
  constructor
  · rintro (h | h)
    · exact .inl (List.cons.inj h).2.symm
    · exact .inr h
  · rintro (rfl | h)
    · exact .inl rfl
    · exact .inr h

/-- A plain text up to a quote, read in a string body, is the whole of it. -/
theorem eq_of_plain_body {k s x y : Str} (hk : ∀ c ∈ k, c ≠ '"' ∧ c ≠ '\\')
    (hs : StringBody s) (h : k ++ '"' :: x = s ++ '"' :: y) : s = k ∧ x = y := by
  induction hs generalizing k with
  | nil =>
      cases k with
      | nil => exact ⟨rfl, (List.cons.inj h).2⟩
      | cons c k => exact absurd (List.cons.inj h).1 (hk c List.mem_cons_self).1
  | @plain c s hq _ _ _ ih =>
      cases k with
      | nil => exact absurd (List.cons.inj h).1.symm hq
      | cons d k =>
          obtain ⟨rfl, htail⟩ := List.cons.inj h
          obtain ⟨rfl, hxy⟩ := ih (fun c hc => hk c (List.mem_cons_of_mem _ hc)) htail
          exact ⟨rfl, hxy⟩
  | short =>
      cases k with
      | nil => exact absurd (List.cons.inj h).1 (by decide)
      | cons d k => exact absurd (List.cons.inj h).1 (hk d List.mem_cons_self).2
  | code =>
      cases k with
      | nil => exact absurd (List.cons.inj h).1 (by decide)
      | cons d k => exact absurd (List.cons.inj h).1 (hk d List.mem_cons_self).2

section Search

variable {key : Str}

theorem PlainKey.ordinary (hkey : PlainKey key) : ∀ c ∈ key, c ≠ '"' ∧ c ≠ '\\' :=
  fun _ hc => ⟨hkey.ne hc rfl (by decide), hkey.ne hc rfl (by decide)⟩

/-- An anchor that starts at the quote before a string body is closed by the quote after it. -/
theorem eq_of_anchor_prefix (hkey : PlainKey key) {s rest : Str} (hs : StringBody s)
    (h : objectAnchor key <+: '"' :: (s ++ '"' :: rest)) : s = key ∧ [':', '{'] <+: rest := by
  obtain ⟨t, ht⟩ := h
  have htail : key ++ '"' :: (':' :: '{' :: t) = s ++ '"' :: rest := by
    simpa [objectAnchor] using ht
  obtain ⟨hsame, hrest⟩ := eq_of_plain_body hkey.ordinary hs htail
  exact ⟨hsame, t, hrest⟩

theorem not_anchor_start {c : Char} {rest : Str} (hc : c ≠ '"') :
    ¬ objectAnchor key <+: c :: rest := by
  rintro ⟨t, ht⟩
  exact hc (List.cons.inj ht).1.symm

theorem not_anchor_closing (hkey : PlainKey key) {rest : Str}
    (hclose : ∀ c t, rest = c :: t → c ∉ key) : ¬ objectAnchor key <+: '"' :: rest := by
  rintro ⟨t, ht⟩
  obtain ⟨c, k, rfl⟩ := List.exists_cons_of_ne_nil hkey.1
  exact hclose c _ (List.cons.inj ht).2.symm (by simp)

theorem free_anchor_of_no_quote {text rest : Str} (h : ∀ c ∈ text, c ≠ '"') :
    Free (objectAnchor key) text rest := by
  induction text with
  | nil => trivial
  | cons c text ih =>
      exact ⟨not_anchor_start (h c List.mem_cons_self),
        ih fun d hd => h d (List.mem_cons_of_mem _ hd)⟩

theorem no_quote_of_hex {digits : Str} (h : ∀ c ∈ digits, isHexDigit c = true) :
    ∀ c ∈ digits, c ≠ '"' := by
  rintro c hc rfl
  exact absurd (h _ hc) (by decide)

/-- No anchor starts inside a string body or at its closing quote, unless the body ends in an
escaped quote and the key, and an object follows. -/
theorem free_body (hkey : PlainKey key) {s rest : Str} (hs : StringBody s)
    (hclose : ∀ c t, rest = c :: t → c ∉ key)
    (hends : [':', '{'] <+: rest → ¬ '"' :: key <:+ s) :
    Free (objectAnchor key) (s ++ ['"']) rest := by
  induction hs with
  | nil => exact ⟨not_anchor_closing hkey hclose, trivial⟩
  | @plain c s hq _ _ _ ih =>
      refine ⟨not_anchor_start hq, ih fun hrest hsuffix => ?_⟩
      exact hends hrest (hsuffix.trans (List.suffix_cons c s))
  | @short c s _ hs ih =>
      refine ⟨not_anchor_start (by decide), ?_, ih fun hrest hsuffix => ?_⟩
      · by_cases hc : c = '"'
        · subst hc
          intro hanchor
          have hclosed : objectAnchor key <+: '"' :: (s ++ '"' :: rest) := by simpa using hanchor
          obtain ⟨rfl, hrest⟩ := eq_of_anchor_prefix hkey hs hclosed
          exact hends hrest (List.suffix_cons _ _)
        · exact not_anchor_start hc
      · exact hends hrest (hsuffix.trans ((List.suffix_cons c s).trans (List.suffix_cons _ _)))
  | @code digits s _ hhex _ ih =>
      refine ⟨not_anchor_start (by decide), not_anchor_start (by decide), ?_⟩
      have hassoc : List.append (digits ++ s) ['"'] = digits ++ (s ++ ['"']) :=
        List.append_assoc digits s _
      rw [hassoc, free_append]
      refine ⟨free_anchor_of_no_quote (no_quote_of_hex hhex), ih fun hrest hsuffix => ?_⟩
      refine hends hrest (hsuffix.trans ?_)
      exact ⟨'\\' :: 'u' :: digits, rfl⟩

/-- No anchor starts in a quoted string, unless it ends in the key and an object follows. -/
theorem free_quoted (hkey : PlainKey key) {s rest : Str} (hs : StringBody s)
    (hclose : ∀ c t, rest = c :: t → c ∉ key)
    (hends : [':', '{'] <+: rest → endsIn key s = false) :
    Free (objectAnchor key) (JsonTree.quoted s) rest := by
  refine ⟨?_, free_body hkey hs hclose fun hrest hsuffix => ?_⟩
  · intro hanchor
    have hclosed : objectAnchor key <+: '"' :: (s ++ '"' :: rest) := by simpa using hanchor
    obtain ⟨hsame, hrest⟩ := eq_of_anchor_prefix hkey hs hclosed
    have hends' := hends hrest
    rw [endsIn_iff.mpr (.inl hsame)] at hends'
    cases hends'
  · have hends' := hends hrest
    rw [endsIn_iff.mpr (.inr hsuffix)] at hends'
    cases hends'

/-- A key that ends in the searched one, before an object, is where the search stops. -/
theorem splitFirst_body (hkey : PlainKey key) {s : Str} (hs : StringBody s)
    (hends : '"' :: key <:+ s) (rest : Str) :
    ∃ before, splitFirst (objectAnchor key) (s ++ '"' :: ':' :: '{' :: rest) =
      some (before, rest) := by
  have hskip : ∀ (c : Char) (s : Str), ¬ objectAnchor key <+: c :: s →
      (∃ before, splitFirst (objectAnchor key) s = some (before, rest)) →
      ∃ before, splitFirst (objectAnchor key) (c :: s) = some (before, rest) := by
    rintro c s hnot ⟨before, hbefore⟩
    exact ⟨c :: before, by rw [ splitFirst_cons_of_not_prefix hnot, hbefore]; rfl⟩
  induction hs with
  | nil => exact absurd (List.suffix_nil.mp hends) (by simp)
  | @plain c s hq _ _ _ ih =>
      refine hskip c _ (not_anchor_start hq) (ih ?_)
      rcases List.suffix_cons_iff.mp hends with heq | hsuffix
      · exact absurd (List.cons.inj heq).1.symm hq
      · exact hsuffix
  | @short c s _ hs ih =>
      refine hskip '\\' _ (not_anchor_start (by decide)) ?_
      rcases List.suffix_cons_iff.mp hends with heq | hsuffix
      · exact absurd (List.cons.inj heq).1 (by decide)
      rcases List.suffix_cons_iff.mp hsuffix with heq | hinner
      · obtain ⟨rfl, rfl⟩ := List.cons.inj heq
        have hshape : ('"' :: key).append ('"' :: ':' :: '{' :: rest) =
            objectAnchor key ++ rest := by
          simp [objectAnchor]
        rw [hshape]
        exact ⟨[], splitFirst_append_self _ _⟩
      · refine hskip c _ ?_ (ih hinner)
        by_cases hc : c = '"'
        · subst hc
          intro hanchor
          obtain ⟨hsame, -⟩ := eq_of_anchor_prefix hkey hs hanchor
          have hlen := hinner.length_le
          rw [hsame, List.length_cons] at hlen
          omega
        · exact not_anchor_start hc
  | @code digits s _ hhex _ ih =>
      have hdigits : ∀ c ∈ 'u' :: digits, c ≠ '"' := by
        rw [List.forall_mem_cons]
        exact ⟨by decide, no_quote_of_hex hhex⟩
      have hsuffix : '"' :: key <:+ s := by
        have hdrop : ∀ (t : Str), (∀ c ∈ t, c ≠ '"') → '"' :: key <:+ t ++ s → '"' :: key <:+ s := by
          intro t
          induction t with
          | nil => exact fun _ h => h
          | cons c t iht =>
              intro ht h
              rcases List.suffix_cons_iff.mp h with heq | h
              · exact absurd (List.cons.inj heq).1.symm (ht c List.mem_cons_self)
              · exact iht (fun d hd => ht d (List.mem_cons_of_mem _ hd)) h
        refine hdrop ('\\' :: 'u' :: digits) ?_ hends
        rw [List.forall_mem_cons]
        exact ⟨by decide, hdigits⟩
      obtain ⟨before, hbefore⟩ := ih hsuffix
      refine hskip '\\' _ (not_anchor_start (by decide)) ?_
      have hfree : Free (objectAnchor key) ('u' :: digits) (s ++ '"' :: ':' :: '{' :: rest) :=
        free_anchor_of_no_quote hdigits
      have hassoc : ('u' :: (digits ++ s)).append ('"' :: ':' :: '{' :: rest) =
          ('u' :: digits) ++ (s ++ '"' :: ':' :: '{' :: rest) := by simp
      refine ⟨'u' :: digits ++ before, ?_⟩
      rw [hassoc, splitFirst_of_free hfree, hbefore]
      rfl

/-- The search stops at a member whose key ends in the searched one and that is an object. -/
theorem splitFirst_quoted (hkey : PlainKey key) {s : Str} (hs : StringBody s)
    (hends : endsIn key s = true) (rest : Str) :
    ∃ before, splitFirst (objectAnchor key) (JsonTree.quoted s ++ ':' :: '{' :: rest) =
      some (before, rest) := by
  have hshape : JsonTree.quoted s ++ ':' :: '{' :: rest =
      '"' :: (s ++ '"' :: ':' :: '{' :: rest) := by
    simp [JsonTree.quoted]
  rw [hshape]
  rcases endsIn_iff.mp hends with rfl | hsuffix
  · have hanchor : '"' :: (s ++ '"' :: ':' :: '{' :: rest) = objectAnchor s ++ rest := by
      simp [objectAnchor]
    rw [hanchor]
    exact ⟨[], splitFirst_append_self _ _⟩
  · obtain ⟨before, hbefore⟩ := splitFirst_body hkey hs hsuffix rest
    refine ⟨'"' :: before, ?_⟩
    have hnot : ¬ objectAnchor key <+: '"' :: (s ++ '"' :: ':' :: '{' :: rest) := by
      intro hanchor
      obtain ⟨hsame, -⟩ := eq_of_anchor_prefix hkey hs hanchor
      have hlen := hsuffix.length_le
      rw [hsame, List.length_cons] at hlen
      omega
    rw [ splitFirst_cons_of_not_prefix hnot, hbefore]
    rfl

end Search

/-! ### The first member found -/

namespace JsonTree

mutual

/-- The first object, in document order, that is a member under a key ending in `key`. -/
def firstUnder (key : Str) : JsonTree → Option JsonTree
  | .str _ => none
  | .token _ => none
  | .array items => firstOfItems key items
  | .object members => firstOfMembers key members

/-- The first such object among items. -/
def firstOfItems (key : Str) : List JsonTree → Option JsonTree
  | [] => none
  | item :: items => (firstUnder key item).or (firstOfItems key items)

/-- The first such object among members. -/
def firstOfMembers (key : Str) : List (Str × JsonTree) → Option JsonTree
  | [] => none
  | (written, value) :: members =>
      (if endsIn key written && value.isObject then some value else firstUnder key value).or
        (firstOfMembers key members)

end

/-- What the search finds in one member. -/
def firstOfMember (key : Str) (m : Str × JsonTree) : Option JsonTree :=
  if endsIn key m.1 && m.2.isObject then some m.2 else firstUnder key m.2

theorem firstOfItems_eq (key : Str) (items : List JsonTree) :
    firstOfItems key items = items.findSome? (firstUnder key) := by
  induction items with
  | nil => rfl
  | cons item items ih =>
      rw [firstOfItems, ih, List.findSome?_cons]
      cases firstUnder key item <;> rfl

theorem firstOfMembers_eq (key : Str) (members : List (Str × JsonTree)) :
    firstOfMembers key members = members.findSome? (firstOfMember key) := by
  induction members with
  | nil => rfl
  | cons m members ih =>
      rw [firstOfMembers, ih, List.findSome?_cons, ← firstOfMember]
      cases firstOfMember key m <;> rfl

/-- The text of an object starts with an open brace. -/
theorem text_eq_of_isObject {tree : JsonTree} (h : tree.isObject = true) :
    ∃ body, tree.text = '{' :: body := by
  cases tree with
  | str => cases h
  | token => cases h
  | array => cases h
  | object members => exact ⟨_, text_object members⟩

/-- Only the text of an object starts with an open brace. -/
theorem WellFormed.head_eq_brace {tree : JsonTree} (h : tree.WellFormed) {s : Str}
    (hbrace : ['{'] <+: tree.text ++ s) : tree.isObject = true := by
  have hhead : (tree.text ++ s).head? = some '{' := by
    obtain ⟨t, ht⟩ := hbrace
    rw [← ht]
    rfl
  cases h with
  | str => exact absurd (Option.some.inj hhead) (by decide)
  | @token t ht =>
      obtain ⟨hne, hchars⟩ := ht.chars
      obtain ⟨c, t, rfl⟩ := List.exists_cons_of_ne_nil hne
      obtain rfl : c = '{' := Option.some.inj hhead
      exact absurd (hchars '{' List.mem_cons_self) (by decide)
  | array =>
      rw [text_array] at hhead
      exact absurd (Option.some.inj hhead) (by decide)
  | object => rfl

end JsonTree

/-- A search stops right past the opening brace of an object. -/
def StopsAt (key s : Str) (found : JsonTree) : Prop :=
  found.WellFormed ∧ ∃ before after rest, splitFirst (objectAnchor key) s = some (before, after) ∧
    '{' :: after = found.text ++ rest ∧ Delimited rest

/-- What the search comes across in a text: nothing, or an object. -/
def Searches (key text : Str) (found : Option JsonTree) : Prop :=
  ∀ rest, Delimited rest →
    match found with
    | none => Free (objectAnchor key) text rest
    | some tree => StopsAt key (text ++ rest) tree

section Trees

variable {key : Str}

theorem StopsAt.append {before s : Str} {found : JsonTree} (h : StopsAt key s found)
    (hfree : Free (objectAnchor key) before s) : StopsAt key (before ++ s) found := by
  obtain ⟨hfound, prior, after, rest, hsplit, hafter, hrest⟩ := h
  refine ⟨hfound, before ++ prior, after, rest, ?_, hafter, hrest⟩
  rw [splitFirst_of_free hfree, hsplit]
  rfl

/-- A text in which no anchor starts can stand before the searched one. -/
theorem Searches.append {before text : Str} {found : Option JsonTree}
    (h : Searches key text found)
    (hfree : ∀ rest, Delimited rest → Free (objectAnchor key) before (text ++ rest)) :
    Searches key (before ++ text) found := by
  intro rest hrest
  have htext := h rest hrest
  cases found with
  | none => exact free_append.mpr ⟨hfree rest hrest, htext⟩
  | some tree =>
      rw [List.append_assoc]
      exact htext.append (hfree rest hrest)

/-- The search goes through the parts of a list until it finds something. -/
theorem searches_joinComma {α : Type} {items : List α} {text : α → Str}
    {found : α → Option JsonTree} (h : ∀ a ∈ items, Searches key (text a) (found a)) :
    Searches key (joinComma (items.map text)) (items.findSome? found) := by
  induction items with
  | nil => exact fun _ _ => trivial
  | cons a items ih =>
      have hfirst := h a List.mem_cons_self
      have hrest := ih fun b hb => h b (List.mem_cons_of_mem _ hb)
      rw [List.findSome?_cons]
      cases items with
      | nil =>
          simp only [List.map_cons, List.map_nil, joinComma, List.findSome?_nil]
          cases hfound : found a with
          | none => rwa [hfound] at hfirst
          | some tree => rwa [hfound] at hfirst
      | cons b items =>
          have hshape : joinComma ((a :: b :: items).map text) =
              (text a ++ [',']) ++ joinComma ((b :: items).map text) := by
            simp [joinComma]
          have hcomma : ∀ s, Delimited (',' :: s) := fun s => delimited_cons.mpr rfl
          rw [hshape]
          cases hfound : found a with
          | none =>
              refine hrest.append fun rest _ => ?_
              have hfree := hfirst _ (hcomma (joinComma ((b :: items).map text) ++ rest))
              rw [hfound] at hfree
              exact free_append.mpr ⟨hfree, not_anchor_start (by decide), trivial⟩
          | some tree =>
              intro rest _
              have hstop := hfirst _ (hcomma (joinComma ((b :: items).map text) ++ rest))
              rw [hfound] at hstop
              simpa using hstop

/-- Brackets around a text change nothing. -/
theorem searches_bracket {body : Str} {o c : Char} (ho : o ≠ '"') (hc : isDelimiter c = true)
    {found : Option JsonTree} (h : Searches key body found) :
    Searches key (o :: (body ++ [c])) found := by
  have hquote : c ≠ '"' := by
    rintro rfl
    exact absurd hc (by decide)
  intro rest _
  have hbody := h (c :: rest) (delimited_cons.mpr hc)
  cases found with
  | none =>
      exact ⟨not_anchor_start ho, free_append.mpr ⟨hbody, not_anchor_start hquote, trivial⟩⟩
  | some tree =>
      have hfree : Free (objectAnchor key) [o] (body ++ c :: rest) := ⟨not_anchor_start ho, trivial⟩
      have hstop := hbody.append hfree
      simpa using hstop

/-- A quoted string that no object follows is passed over. -/
theorem searches_quoted (hkey : PlainKey key) {raw : Str} (h : StringBody raw) :
    Searches key (JsonTree.quoted raw) none := by
  intro rest hrest
  refine free_quoted hkey h (hrest.not_mem hkey) fun hcolon => ?_
  exact absurd ((List.prefix_append [':'] ['{']).trans hcolon) hrest.not_colon

/-- The search at a member. -/
theorem searches_line (hkey : PlainKey key) {m : Str × JsonTree} (hm : StringBody m.1)
    (hvalue : m.2.WellFormed) (ih : Searches key m.2.text (m.2.firstUnder key)) :
    Searches key (JsonTree.line m) (JsonTree.firstOfMember key m) := by
  rw [JsonTree.firstOfMember]
  split
  · next hfound =>
      obtain ⟨hends, hobject⟩ := Bool.and_eq_true_iff.mp hfound
      intro rest hrest
      obtain ⟨body, hbody⟩ := JsonTree.text_eq_of_isObject hobject
      obtain ⟨before, hbefore⟩ := splitFirst_quoted hkey hm hends (body ++ rest)
      refine ⟨hvalue, before, body ++ rest, rest, ?_, by rw [hbody]; rfl, hrest⟩
      rw [JsonTree.line, JsonTree.memberLine, hbody, List.append_assoc]
      exact hbefore
  · next hnot =>
      have hshape : JsonTree.line m = (JsonTree.quoted m.1 ++ [':']) ++ m.2.text := by
        simp [JsonTree.line, JsonTree.memberLine]
      rw [hshape]
      refine ih.append fun rest hrest => free_append.mpr ⟨?_, not_anchor_start (by decide), trivial⟩
      refine free_quoted hkey hm ?_ ?_
      · rintro c t heq hc
        obtain ⟨rfl, -⟩ := List.cons.inj heq
        exact hkey.ne hc (d := ':') rfl (by decide) rfl
      · intro hopen
        have hbrace : ['{'] <+: m.2.text ++ rest := (List.cons_prefix_cons.mp hopen).2
        have hobject := hvalue.head_eq_brace hbrace
        by_contra hends
        exact hnot (by rw [Bool.eq_true_of_not_eq_false hends, hobject]; rfl)

/-- **The search over the text of a tree** comes across the first object under the key. -/
theorem searches_text (hkey : PlainKey key) {tree : JsonTree} (h : tree.WellFormed) :
    Searches key tree.text (tree.firstUnder key) := by
  induction h with
  | str hraw =>
      rw [JsonTree.text, JsonTree.firstUnder]
      exact searches_quoted hkey hraw
  | @token t ht =>
      rw [JsonTree.text, JsonTree.firstUnder]
      intro rest _
      refine free_anchor_of_no_quote ?_
      rintro c hc rfl
      exact absurd (ht.chars.2 _ hc) (by decide)
  | array _ ih =>
      rw [JsonTree.text_array, JsonTree.firstUnder, JsonTree.firstOfItems_eq]
      exact searches_bracket (by decide) rfl (searches_joinComma ih)
  | object _ hkeys hvalues ih =>
      rw [JsonTree.text_object, JsonTree.firstUnder, JsonTree.firstOfMembers_eq]
      refine searches_bracket (by decide) rfl (searches_joinComma fun m hm => ?_)
      exact searches_line hkey (hkeys m hm) (hvalues m hm) (ih m hm)

/-- The found object is well formed. -/
theorem wellFormed_of_firstUnder (hkey : PlainKey key) {tree found : JsonTree}
    (h : tree.WellFormed) (hfound : tree.firstUnder key = some found) : found.WellFormed := by
  have hsearch := searches_text hkey h [] delimited_nil
  rw [hfound] at hsearch
  exact hsearch.1

/-- **The object member reader on the text of a tree** returns the first object under the
key. -/
theorem objectMember_text (hkey : PlainKey key) {tree : JsonTree} (h : tree.WellFormed) :
    objectMember key tree.text = (tree.firstUnder key).map JsonTree.text := by
  have hsearch := searches_text hkey h [] delimited_nil
  cases hfound : tree.firstUnder key with
  | none =>
      rw [hfound] at hsearch
      have hnone := splitFirst_of_free hsearch
      rw [List.append_nil] at hnone
      rw [objectMember, hnone]
      rfl
  | some found =>
      rw [hfound, List.append_nil] at hsearch
      obtain ⟨hwell, before, after, rest, hsplit, hafter, hrest⟩ := hsearch
      rw [objectMember, hsplit, Option.bind_some, hafter, scans_text hwell rest hrest]
      rfl

end Trees

/-! ### What the gates read -/

namespace JsonTree

/-- The schema version at its path. -/
def schemaVersionAt (document : JsonTree) : Option ℕ :=
  (document.member "payload".toList).bind fun payload =>
    (payload.member "schema".toList).bind fun schema =>
      (schema.member "schema_version".toList).bind natural

/-- A string of the verification block at its path. -/
def verificationAt (key : Str) (document : JsonTree) : Option Str :=
  (document.member verificationMemberKey).bind fun block => (block.member key).bind string

/-- The schema version that the first objects under the keys of its path lead to. -/
def firstSchemaVersion (document : JsonTree) : Option ℕ :=
  (document.firstUnder "payload".toList).bind fun payload =>
    (payload.firstUnder "schema".toList).bind fun schema =>
      (schema.member "schema_version".toList).bind natural

/-- A string of the first object under the key of the verification block. -/
def firstVerification (key : Str) (document : JsonTree) : Option Str :=
  (document.firstUnder verificationMemberKey).bind fun block => (block.member key).bind string

end JsonTree

/-- The gates return what stands at the path they name, and nothing when it is absent or of
another kind. -/
structure GatesReadPath (document : JsonTree) : Prop where
  version : declaredSchemaVersion document.text = Scan.ofOption document.schemaVersionAt
  algorithm : declaredAlgorithm document.text =
    Scan.ofOption (document.verificationAt algorithmMemberKey)
  publicKey : embeddedPublicKey document.text =
    Scan.ofOption (document.verificationAt publicKeyMemberKey)

/-- The first objects under the keys of the paths lead to what stands at the paths. -/
structure FirstAgree (document : JsonTree) : Prop where
  version : document.firstSchemaVersion = document.schemaVersionAt
  algorithm : document.firstVerification algorithmMemberKey =
    document.verificationAt algorithmMemberKey
  publicKey : document.firstVerification publicKeyMemberKey =
    document.verificationAt publicKeyMemberKey

theorem Scan.ofOption_injective {α : Type} :
    Function.Injective (Scan.ofOption : Option α → Scan α) := by
  intro a b h
  cases a with
  | none =>
      cases b with
      | none => rfl
      | some b => cases h
  | some a =>
      cases b with
      | none => cases h
      | some b => exact congrArg Option.some (Scan.some.inj h)

section Gates

variable {document : JsonTree}

theorem declaredSchemaVersion_text (h : document.WellFormed) :
    declaredSchemaVersion document.text = Scan.ofOption document.firstSchemaVersion := by
  have hpayload : PlainKey "payload".toList := by decide
  have hschema : PlainKey "schema".toList := by decide
  rw [declaredSchemaVersion_eq, schemaVersionOf, objectMember_text hpayload h,
    JsonTree.firstSchemaVersion]
  cases hp : document.firstUnder "payload".toList with
  | none => rfl
  | some payload =>
      have hpw := wellFormed_of_firstUnder hpayload h hp
      rw [Option.map_some, Option.bind_some, Option.bind_some, objectMember_text hschema hpw]
      cases hs : payload.firstUnder "schema".toList with
      | none => rfl
      | some schema =>
          have hsw := wellFormed_of_firstUnder hschema hpw hs
          rw [Option.map_some, Option.bind_some, Option.bind_some, memberValue_text hsw]
          cases schema.member "schema_version".toList with
          | none => rfl
          | some value => exact congrArg Scan.ofOption integerToken_text

theorem verificationMember_text (h : document.WellFormed) (key : Str) :
    verificationMember key document.text = document.firstVerification key := by
  have hblock : PlainKey verificationMemberKey := by decide
  rw [verificationMember, objectMember_text hblock h, JsonTree.firstVerification]
  cases hb : document.firstUnder verificationMemberKey with
  | none => rfl
  | some block =>
      have hbw := wellFormed_of_firstUnder hblock h hb
      rw [Option.map_some, Option.bind_some, Option.bind_some, stringMember, memberValue_text hbw]
      cases hv : block.member key with
      | none => rfl
      | some value => exact asString_text (hbw.of_member hv)

/-- **The gates read the members at their paths exactly when the first members they come
across agree with them.** -/
theorem gatesReadPath_iff (h : document.WellFormed) :
    GatesReadPath document ↔ FirstAgree document := by
  have halgorithm : declaredAlgorithm document.text =
      Scan.ofOption (document.firstVerification algorithmMemberKey) := by
    rw [declaredAlgorithm_eq, verificationMember_text h]
  have hpublic : embeddedPublicKey document.text =
      Scan.ofOption (document.firstVerification publicKeyMemberKey) := by
    rw [embeddedPublicKey_eq, verificationMember_text h]
  constructor
  · rintro ⟨hv, ha, hk⟩
    rw [declaredSchemaVersion_text h] at hv
    rw [halgorithm] at ha
    rw [hpublic] at hk
    exact ⟨Scan.ofOption_injective hv, Scan.ofOption_injective ha, Scan.ofOption_injective hk⟩
  · rintro ⟨hv, ha, hk⟩
    exact ⟨by rw [declaredSchemaVersion_text h, hv], by rw [halgorithm, ha], by rw [hpublic, hk]⟩

end Gates

/-- The object at a direct member is the first one under its key: no other object before it in
the document has a key that ends in it. -/
def Unshadowed (key : Str) (tree : JsonTree) : Prop :=
  tree.firstUnder key = (tree.member key).filter JsonTree.isObject

/-- Without decoys the gates read their paths. -/
theorem firstAgree_of_unshadowed {document : JsonTree}
    (hpayload : Unshadowed "payload".toList document)
    (hschema : ∀ payload, document.member "payload".toList = some payload →
      Unshadowed "schema".toList payload)
    (hblock : Unshadowed verificationMemberKey document) : FirstAgree document := by
  have hfilter : ∀ {α : Type} (o : Option JsonTree) (f : JsonTree → Option α),
      (∀ tree, tree.isObject = false → f tree = none) →
      (o.filter JsonTree.isObject).bind f = o.bind f := by
    intro α o f hf
    cases o with
    | none => rfl
    | some tree =>
        cases hobject : tree.isObject with
        | true => rw [Option.filter_some_pos hobject]
        | false =>
            rw [Option.filter_some_neg (by simp [hobject]), Option.bind_none, Option.bind_some,
              hf tree hobject]
  have hmember : ∀ key tree, JsonTree.isObject tree = false → tree.member key = none := by
    intro key tree hobject
    cases tree with
    | object => cases hobject
    | _ => rfl
  have hstring : ∀ key, document.firstVerification key = document.verificationAt key := by
    intro key
    rw [JsonTree.firstVerification, hblock, JsonTree.verificationAt]
    exact hfilter _ _ fun tree hobject => by rw [hmember key tree hobject]; rfl
  refine ⟨?_, hstring _, hstring _⟩
  rw [JsonTree.firstSchemaVersion, hpayload, JsonTree.schemaVersionAt]
  cases hp : document.member "payload".toList with
  | none => rfl
  | some payload =>
      cases hobject : payload.isObject with
      | true =>
          rw [Option.filter_some_pos hobject, Option.bind_some, Option.bind_some,
            hschema payload hp]
          exact hfilter _ _ fun tree hobject => by rw [hmember _ tree hobject]; rfl
      | false =>
          rw [Option.filter_some_neg (by simp [hobject]), Option.bind_none, Option.bind_some,
            hmember _ payload hobject]
          rfl

/-! ### Documents -/

/-- A plain key needs no escapes. -/
theorem stringBody_of_plain {key : Str} (h : PlainKey key) : StringBody key := by
  have hbody := stringBody_escape key
  rwa [escape_plain h] at hbody

/-- An object with one member under a plain key. -/
theorem wellFormed_single {key : Str} {value : JsonTree} (hkey : PlainKey key)
    (h : value.WellFormed) : (JsonTree.object [(key, value)]).WellFormed := by
  refine .object (List.nodup_singleton _) ?_ ?_
  · simpa using stringBody_of_plain hkey
  · simpa using h

/-- The payload of a schema version. -/
def versionPayload (version : ℕ) : JsonTree :=
  .object [("schema".toList, .object [("schema_version".toList, .token (decimal version))])]

theorem wellFormed_versionPayload (version : ℕ) : (versionPayload version).WellFormed := by
  have hnumber : NumberToken (decimal version) := numberToken_integerText version
  refine wellFormed_single (by decide) (wellFormed_single (by decide) ?_)
  exact .token (.inr (.inr (.inr hnumber)))

/-- A document with a supported payload and nothing else. -/
theorem gatesReadPath_iff_payload :
    GatesReadPath (.object [("payload".toList, versionPayload 1)]) :=
  (gatesReadPath_iff (wellFormed_single (by decide) (wellFormed_versionPayload 1))).mpr
    ⟨by decide, by decide, by decide⟩

/-- A document of an unsupported version, behind a member that holds a payload of version 1. -/
def decoyDocument : JsonTree :=
  .object [("note".toList, .object [("payload".toList, versionPayload 1)]),
    ("payload".toList, versionPayload 2)]

/-- **A decoy satisfies the version gate**: the first payload found is not the document's. -/
theorem decoy_satisfies_gate :
    decoyDocument.WellFormed ∧ ¬ GatesReadPath decoyDocument ∧
      declaredSchemaVersion decoyDocument.text = .some 1 ∧
      decoyDocument.schemaVersionAt = some 2 := by
  have hpayload : PlainKey "payload".toList := by decide
  have hnote := wellFormed_single hpayload (wellFormed_versionPayload 1)
  have hwell : decoyDocument.WellFormed := by
    refine .object (by decide) ?_ ?_
    · simp only [List.forall_mem_cons]
      exact ⟨stringBody_of_plain (by decide), stringBody_of_plain hpayload, by simp⟩
    · simp only [List.forall_mem_cons]
      exact ⟨hnote, wellFormed_versionPayload 2, by simp⟩
  have hfirst : decoyDocument.firstSchemaVersion = some 1 := by decide
  have hpath : decoyDocument.schemaVersionAt = some 2 := by decide
  have hread : declaredSchemaVersion decoyDocument.text = .some 1 := by
    rw [declaredSchemaVersion_text hwell, hfirst]
    rfl
  refine ⟨hwell, fun hgates => ?_, hread, hpath⟩
  have hversion := hgates.version
  rw [hread, hpath] at hversion
  exact absurd (Scan.some.inj hversion) (by decide)

end SovriAgent
