import SovriAgent.CompactJson
import SovriAgent.OrderBy
import SovriAgent.Written

/-!
# Decoding the Canonical Text

The signature of an export covers the text of its canonical serializer. This module shows
that the text determines what was serialized: it is the text of a well-formed compact JSON
tree, a decoder of such texts gives the value back with the members of every object in
ascending order, and two values share a text only if they differ in the order of members.

## Main results

* `text_jsonTree`, `wellFormed_jsonTree`: the written text follows the grammar.
* `decode_writeValue`: decoding a written text.
* `canonical_text_determines`: two values have one text exactly when one is the other with
  members of its objects in another order.
-/

namespace SovriAgent

/-! ### The decoder -/

/-- The value of an unquoted token; the serializer's values have no null and no fractions. -/
def tokenValue (t : Str) : Option Json :=
  if t = "true".toList then some (.bool true)
  else if t = "false".toList then some (.bool false)
  else (integerValue t).map .int

namespace JsonTree

mutual

/-- The value a tree stands for. -/
def value : JsonTree → Option Json
  | .str raw => (stringValue raw).map .str
  | .token t => tokenValue t
  | .array items => (itemValues items).map .array
  | .object members => (memberValues members).map .object

/-- The values of items. -/
def itemValues : List JsonTree → Option (List Json)
  | [] => some []
  | item :: items =>
      (value item).bind fun v => (itemValues items).map (v :: ·)

/-- The members of an object with their keys and values. -/
def memberValues : List (Str × JsonTree) → Option (List (Str × Json))
  | [] => some []
  | (key, tree) :: members =>
      (stringValue key).bind fun k =>
        (value tree).bind fun v => (memberValues members).map ((k, v) :: ·)

end

end JsonTree

/-- Decodes a compact JSON text. -/
def decode (text : Str) : Option Json :=
  (JsonTree.readTree (2 * text.length + 1) text).bind fun p =>
    if p.2 = [] then p.1.value else none

/-! ### Orders of members -/

mutual

/-- A value with the members of every object in ascending order of their keys. -/
def Json.sorted : Json → Json
  | .str text => .str text
  | .bool flag => .bool flag
  | .int number => .int number
  | .array items => .array (sortedItems items)
  | .object members => .object (sortByKey (sortedMembers members))

/-- Items with their members in order. -/
def sortedItems : List Json → List Json
  | [] => []
  | item :: items => item.sorted :: sortedItems items

/-- Members whose values have their members in order. -/
def sortedMembers : List (Str × Json) → List (Str × Json)
  | [] => []
  | (key, value) :: members => (key, value.sorted) :: sortedMembers members

end

/-- The keys of every object in a value are distinct. -/
inductive UniqueKeys : Json → Prop
  | str (text : Str) : UniqueKeys (.str text)
  | bool (flag : Bool) : UniqueKeys (.bool flag)
  | int (number : ℤ) : UniqueKeys (.int number)
  | array {items : List Json} : (∀ item ∈ items, UniqueKeys item) → UniqueKeys (.array items)
  | object {members : List (Str × Json)} : (members.map Prod.fst).Nodup →
      (∀ m ∈ members, UniqueKeys m.2) → UniqueKeys (.object members)

/-- The keys of every object in a value are in ascending order. -/
inductive Ascending : Json → Prop
  | str (text : Str) : Ascending (.str text)
  | bool (flag : Bool) : Ascending (.bool flag)
  | int (number : ℤ) : Ascending (.int number)
  | array {items : List Json} : (∀ item ∈ items, Ascending item) → Ascending (.array items)
  | object {members : List (Str × Json)} :
      (members.Pairwise fun m m' => m.1 ≠ m'.1 ∧ strLe m.1 m'.1 = true) →
      (∀ m ∈ members, Ascending m.2) → Ascending (.object members)

/-- Two values are equal up to the order of object members: members of an object may be
rearranged, in any object inside. -/
inductive Reordered : Json → Json → Prop
  | refl (value : Json) : Reordered value value
  | symm {v w : Json} : Reordered v w → Reordered w v
  | trans {u v w : Json} : Reordered u v → Reordered v w → Reordered u w
  | members {ms ms' : List (Str × Json)} : ms.Perm ms' → Reordered (.object ms) (.object ms')
  | item {v w : Json} (before after : List Json) : Reordered v w →
      Reordered (.array (before ++ v :: after)) (.array (before ++ w :: after))
  | member {v w : Json} (before after : List (Str × Json)) (key : Str) : Reordered v w →
      Reordered (.object (before ++ (key, v) :: after)) (.object (before ++ (key, w) :: after))

/-! ### Equations -/

theorem sortedItems_eq_map (items : List Json) : sortedItems items = items.map Json.sorted := by
  induction items with
  | nil => rw [sortedItems, List.map_nil]
  | cons item items ih => rw [sortedItems, ih, List.map_cons]

theorem sortedMembers_eq_map (members : List (Str × Json)) :
    sortedMembers members = members.map fun m => (m.1, m.2.sorted) := by
  induction members with
  | nil => rw [sortedMembers, List.map_nil]
  | cons m members ih => rw [sortedMembers, ih, List.map_cons]

theorem sorted_array (items : List Json) :
    (Json.array items).sorted = .array (items.map Json.sorted) := by
  rw [Json.sorted, sortedItems_eq_map]

theorem sorted_object (members : List (Str × Json)) :
    (Json.object members).sorted =
      .object ((sortByKey members).map fun m => (m.1, m.2.sorted)) := by
  rw [Json.sorted, sortedMembers_eq_map,
    sortByKey_map (fun m : Str × Json => (m.1, m.2.sorted)) (fun _ => rfl)]

/-- Sorting by key is sorting by one column. -/
theorem sortByKey_eq {α : Type} (members : List (Str × α)) :
    sortByKey members = orderBy [Prod.fst] members := by
  have hle : (fun a b : Str × α => strLe a.1 b.1 = true) =
      fun a b => lexLe [Prod.fst] a b = true := by
    funext a b
    rw [lexLe, lexLe]
    split
    · next heq => rw [heq, strLe_refl]
    · rfl
  unfold sortByKey orderBy sortBy
  congr 1

/-- Members with distinct keys have one order by key. -/
theorem sortByKey_congr {α : Type} {members members' : List (Str × α)}
    (hkeys : (members.map Prod.fst).Nodup) (h : members.Perm members') :
    sortByKey members = sortByKey members' := by
  rw [sortByKey_eq, sortByKey_eq]
  refine orderBy_congr h fun a ha b hb hagree => List.inj_on_of_nodup_map hkeys ha hb ?_
  exact hagree Prod.fst List.mem_cons_self

/-- Sorting distinct keys puts them in ascending order. -/
theorem sortByKey_pairwise {α : Type} {members : List (Str × α)}
    (hkeys : (members.map Prod.fst).Nodup) :
    (sortByKey members).Pairwise fun m m' => m.1 ≠ m'.1 ∧ strLe m.1 m'.1 = true := by
  have hdistinct : ((sortByKey members).map Prod.fst).Nodup :=
    ((sortByKey_perm members).map Prod.fst).nodup_iff.mpr hkeys
  have horder := orderBy_pairwise [Prod.fst] members
  rw [← sortByKey_eq] at horder
  refine (List.pairwise_map.mp hdistinct).and (horder.imp ?_)
  intro m m' hle
  rw [lexLe, lexLe] at hle
  split at hle
  · next heq => rw [heq, strLe_refl]
  · exact hle

/-! ### The written text follows the grammar -/

mutual

/-- The syntax tree of a written value. -/
def jsonTree : Json → JsonTree
  | .str text => .str (escape text)
  | .bool flag => .token (if flag then "true".toList else "false".toList)
  | .int number => .token (integerText number)
  | .array items => .array (itemTrees items)
  | .object members => .object ((sortByKey (memberTrees members)).map fun m => (escape m.1, m.2))

/-- The syntax trees of written items. -/
def itemTrees : List Json → List JsonTree
  | [] => []
  | item :: items => jsonTree item :: itemTrees items

/-- The members of a written object, before they are escaped and sorted. -/
def memberTrees : List (Str × Json) → List (Str × JsonTree)
  | [] => []
  | (key, value) :: members => (key, jsonTree value) :: memberTrees members

end

theorem itemTrees_eq_map (items : List Json) : itemTrees items = items.map jsonTree := by
  induction items with
  | nil => rw [itemTrees, List.map_nil]
  | cons item items ih => rw [itemTrees, ih, List.map_cons]

theorem memberTrees_eq_map (members : List (Str × Json)) :
    memberTrees members = members.map fun m => (m.1, jsonTree m.2) := by
  induction members with
  | nil => rw [memberTrees, List.map_nil]
  | cons m members ih => rw [memberTrees, ih, List.map_cons]

theorem jsonTree_array (items : List Json) :
    jsonTree (.array items) = .array (items.map jsonTree) := by
  rw [jsonTree, itemTrees_eq_map]

theorem jsonTree_object (members : List (Str × Json)) :
    jsonTree (.object members) =
      .object ((sortByKey members).map fun m => (escape m.1, jsonTree m.2)) := by
  rw [jsonTree, memberTrees_eq_map, sortByKey_map (fun m : Str × Json => (m.1, jsonTree m.2)) (fun _ => rfl),
    List.map_map]
  rfl

/-- **The written text is that of its tree.** -/
theorem text_jsonTree (value : Json) : (jsonTree value).text = writeValue value := by
  induction value using Json.induction with
  | str text => rw [jsonTree, writeValue]; rfl
  | bool flag => rw [jsonTree, writeValue, JsonTree.text]
  | int number => rw [jsonTree, writeValue, JsonTree.text]
  | array items ih =>
      rw [jsonTree_array, JsonTree.text_array, writeValue_array, List.map_map,
        List.map_congr_left fun item hitem => by rw [Function.comp_apply, ih item hitem]]
  | object members ih =>
      have hlines : ∀ m ∈ sortByKey members,
          (JsonTree.line ∘ fun m => (escape m.1, jsonTree m.2)) m =
            memberText (m.1, writeValue m.2) := by
        intro m hm
        rw [Function.comp_apply, JsonTree.line, ih m ((sortByKey_perm members).mem_iff.mp hm)]
        rfl
      rw [jsonTree_object, JsonTree.text_object, writeValue_object, List.map_map,
        List.map_congr_left hlines]

/-- A character is escaped into what a string may hold. -/
theorem stringBody_escapeChar (ch : Char) {s : Str} (h : StringBody s) :
    StringBody (escapeChar ch ++ s) := by
  have hdigits : ∀ n < 16, isHexDigit (hexDigit n) = true := by decide
  have hnibble : ∀ m, m &&& 0xf < 16 := fun m => Nat.and_lt_two_pow m (n := 4) (by decide)
  unfold escapeChar
  split_ifs with hquote hslash hfeed hreturn htab hcontrol
  · exact .short (by decide) h
  · exact .short (by decide) h
  · exact .short (by decide) h
  · exact .short (by decide) h
  · exact .short (by decide) h
  · have hcode : ∀ c ∈ ['0', '0', hexDigit ((ch.toNat >>> 4) &&& 0xf),
        hexDigit (ch.toNat &&& 0xf)], isHexDigit c = true := by
      simp only [List.forall_mem_cons]
      exact ⟨rfl, rfl, hdigits _ (hnibble _), hdigits _ (hnibble _), by simp⟩
    exact .code rfl hcode h
  · exact .plain hquote hslash (by omega) h

theorem stringBody_escape (text : Str) : StringBody (escape text) := by
  induction text with
  | nil => exact .nil
  | cons ch text ih => exact stringBody_escapeChar ch ih

theorem digits_decimal (n : ℕ) : Digits (decimal n) :=
  ⟨decimal_ne_nil n, fun _ hc => isDigit_of_mem_decimal hc⟩

/-- The text of an integer is a number without fraction and exponent. -/
theorem numberToken_integerText (number : ℤ) : NumberToken (integerText number) := by
  have hleading : ∀ n, (decimal n).head? = some '0' → decimal n = ['0'] := by
    intro n h
    rw [eq_zero_of_head_decimal h]
    rfl
  cases number with
  | ofNat n =>
      exact ⟨[], decimal n, [], [], by simp [integerText], .inl rfl, digits_decimal n, hleading n,
        .inl rfl, .inl rfl⟩
  | negSucc n =>
      exact ⟨['-'], decimal (n + 1), [], [], by simp [integerText], .inr rfl, digits_decimal _,
        hleading _, .inl rfl, .inl rfl⟩

/-- The codes of an escaped character. -/
theorem codes_escapeChar (ch : Char) (s : Str) :
    codes (escapeChar ch ++ s) = (codes s).map (ch.toNat :: ·) := by
  have hcode : ∀ n < 0x20, digitsValue 16 0
      ['0', '0', hexDigit ((n >>> 4) &&& 0xf), hexDigit (n &&& 0xf)] = some n := by
    decide
  unfold escapeChar
  split_ifs with hquote hslash hfeed hreturn htab hcontrol
  · subst hquote; rfl
  · subst hslash; rfl
  · subst hfeed; rfl
  · subst hreturn; rfl
  · subst htab; rfl
  · simp only [List.cons_append, List.nil_append, codes, hcode ch.toNat hcontrol,
      Option.bind_some]
  · have hplain : ¬ (ch = '"' ∨ ch = '\\' ∨ ch.toNat < 0x20) := by tauto
    rw [List.singleton_append, codes.eq_4 _ _ (by simp_all) (by simp_all), if_neg hplain]

/-- An escaped text stands for the text. -/
theorem stringValue_escape (text : Str) : stringValue (escape text) = some text := by
  have hcodes : codes (escape text) = some (text.map Char.toNat) := by
    induction text with
    | nil => rfl
    | cons ch text ih =>
        rw [escape_cons, codes_escapeChar, ih]
        rfl
  rw [stringValue, hcodes, Option.bind_some, characters_map_toNat]

theorem escape_injective : Function.Injective escape := by
  intro s t h
  have hvalue := stringValue_escape s
  rw [h, stringValue_escape] at hvalue
  exact (Option.some.inj hvalue).symm

/-- **The written text follows the grammar.** -/
theorem wellFormed_jsonTree {value : Json} (h : UniqueKeys value) :
    (jsonTree value).WellFormed := by
  induction h with
  | str text =>
      rw [jsonTree]
      exact .str (stringBody_escape text)
  | bool flag =>
      rw [jsonTree]
      cases flag
      · exact .token (.inr (.inl rfl))
      · exact .token (.inl rfl)
  | int number =>
      rw [jsonTree]
      exact .token (.inr (.inr (.inr (numberToken_integerText number))))
  | @array items _ ih =>
      rw [jsonTree_array]
      refine .array ?_
      intro tree htree
      obtain ⟨item, hitem, rfl⟩ := List.mem_map.mp htree
      exact ih item hitem
  | @object members hkeys _ ih =>
      rw [jsonTree_object]
      refine .object ?_ ?_ ?_
      · have hsorted := ((sortByKey_perm members).map Prod.fst).nodup_iff.mpr hkeys
        have hescaped := hsorted.map escape_injective
        rwa [List.map_map] at hescaped ⊢
      · intro m hm
        obtain ⟨n, -, rfl⟩ := List.mem_map.mp hm
        exact stringBody_escape n.1
      · intro m hm
        obtain ⟨n, hn, rfl⟩ := List.mem_map.mp hm
        exact ih n ((sortByKey_perm members).mem_iff.mp hn)

/-! ### Decoding -/

theorem integerValue_integerText (number : ℤ) : integerValue (integerText number) = some number := by
  have hdigits : ∀ n, digitsNumber (decimal n) = some n := by
    intro n
    rw [digitsNumber, if_neg (decimal_ne_nil n), digitsValue_decimal]
  cases number with
  | ofNat n =>
      obtain ⟨c, s, hcs⟩ := List.exists_cons_of_ne_nil (decimal_ne_nil n)
      have hsign : c ≠ '-' := by
        rintro rfl
        have hdigit := isDigit_of_mem_decimal (n := n) (c := '-') (by simp [hcs])
        exact absurd hdigit (by decide)
      rw [integerText, hcs, integerValue.eq_2 _ (by simpa using hsign), ← hcs, hdigits]
      rfl
  | negSucc n =>
      rw [integerText, integerValue, hdigits]
      rfl

/-- A written integer is no literal name. -/
theorem tokenValue_integerText (number : ℤ) :
    tokenValue (integerText number) = some (.int number) := by
  have hne : ∀ name : Str, integerValue name = none → integerText number ≠ name := by
    rintro name hnone rfl
    rw [integerValue_integerText] at hnone
    cases hnone
  rw [tokenValue, if_neg (hne _ (by decide)), if_neg (hne _ (by decide)), integerValue_integerText]
  rfl

/-- The items of an array are decoded one by one. -/
theorem itemValues_map {items : List Json}
    (h : ∀ item ∈ items, (jsonTree item).value = some item.sorted) :
    JsonTree.itemValues (items.map jsonTree) = some (items.map Json.sorted) := by
  induction items with
  | nil => rw [List.map_nil, JsonTree.itemValues, List.map_nil]
  | cons item items ih =>
      rw [List.map_cons, JsonTree.itemValues, h item List.mem_cons_self, Option.bind_some,
        ih fun i hi => h i (List.mem_cons_of_mem _ hi)]
      rfl

/-- The members of an object are decoded one by one. -/
theorem memberValues_map {members : List (Str × Json)}
    (h : ∀ m ∈ members, (jsonTree m.2).value = some m.2.sorted) :
    JsonTree.memberValues (members.map fun m => (escape m.1, jsonTree m.2)) =
      some (members.map fun m => (m.1, m.2.sorted)) := by
  induction members with
  | nil => rw [List.map_nil, JsonTree.memberValues, List.map_nil]
  | cons m members ih =>
      rw [List.map_cons, JsonTree.memberValues, stringValue_escape, Option.bind_some,
        h m List.mem_cons_self, Option.bind_some, ih fun n hn => h n (List.mem_cons_of_mem _ hn)]
      rfl

/-- The tree of a written value stands for the value with its members in order. -/
theorem value_jsonTree (value : Json) : (jsonTree value).value = some value.sorted := by
  induction value using Json.induction with
  | str text =>
      rw [jsonTree, JsonTree.value, stringValue_escape, Json.sorted]
      rfl
  | bool flag => cases flag <;> rfl
  | int number => rw [jsonTree, JsonTree.value, tokenValue_integerText, Json.sorted]
  | array items ih =>
      rw [jsonTree_array, JsonTree.value, itemValues_map ih, sorted_array]
      rfl
  | object members ih =>
      rw [jsonTree_object, JsonTree.value, memberValues_map ?_, sorted_object]
      · rfl
      · exact fun m hm => ih m ((sortByKey_perm members).mem_iff.mp hm)

/-- **Decoding a written text gives the value back, its members in order.** -/
theorem decode_writeValue {value : Json} (h : UniqueKeys value) :
    decode (writeValue value) = some value.sorted := by
  have hread := JsonTree.readTree_text (wellFormed_jsonTree h) (2 * (writeValue value).length + 1)
    [] JsonTree.endsToken_nil (by rw [text_jsonTree]; omega)
  rw [text_jsonTree, List.append_nil] at hread
  rw [decode, hread, Option.bind_some, if_pos rfl, value_jsonTree]

/-! ### Orders of members -/

theorem ascending_sorted {value : Json} (h : UniqueKeys value) : Ascending value.sorted := by
  induction h with
  | str text => rw [Json.sorted]; exact .str text
  | bool flag => rw [Json.sorted]; exact .bool flag
  | int number => rw [Json.sorted]; exact .int number
  | @array items _ ih =>
      rw [sorted_array]
      exact .array (by simpa using ih)
  | @object members hkeys _ ih =>
      rw [sorted_object]
      refine .object (List.pairwise_map.mpr (sortByKey_pairwise hkeys)) ?_
      intro m hm
      obtain ⟨n, hn, rfl⟩ := List.mem_map.mp hm
      exact ih n ((sortByKey_perm members).mem_iff.mp hn)

/-- Items are replaced one after the other. -/
theorem reordered_items {items : List Json} (h : ∀ item ∈ items, Reordered item item.sorted)
    (before : List Json) :
    Reordered (.array (before ++ items)) (.array (before ++ items.map Json.sorted)) := by
  induction items generalizing before with
  | nil => exact .refl _
  | cons item items ih =>
      have hrest := ih (fun i hi => h i (List.mem_cons_of_mem _ hi)) (before ++ [item.sorted])
      rw [List.append_assoc, List.append_assoc] at hrest
      exact .trans (.item before items (h item List.mem_cons_self)) hrest

/-- The values of members are replaced one after the other. -/
theorem reordered_members {members : List (Str × Json)}
    (h : ∀ m ∈ members, Reordered m.2 m.2.sorted) (before : List (Str × Json)) :
    Reordered (.object (before ++ members))
      (.object (before ++ members.map fun m => (m.1, m.2.sorted))) := by
  induction members generalizing before with
  | nil => exact .refl _
  | cons m members ih =>
      have hrest := ih (fun n hn => h n (List.mem_cons_of_mem _ hn)) (before ++ [(m.1, m.2.sorted)])
      rw [List.append_assoc, List.append_assoc] at hrest
      exact .trans (.member before members m.1 (h m List.mem_cons_self)) hrest

theorem reordered_sorted (value : Json) : Reordered value value.sorted := by
  induction value using Json.induction with
  | str text => rw [Json.sorted]; exact .refl _
  | bool flag => rw [Json.sorted]; exact .refl _
  | int number => rw [Json.sorted]; exact .refl _
  | array items ih =>
      rw [sorted_array]
      exact reordered_items ih []
  | object members ih =>
      rw [sorted_object]
      refine .trans (.members (sortByKey_perm members).symm) ?_
      exact reordered_members (fun m hm => ih m ((sortByKey_perm members).mem_iff.mp hm)) []

/-- Rearranging members keeps the keys distinct and the text. -/
theorem Reordered.writeValue_eq {v w : Json} (h : Reordered v w) :
    (UniqueKeys v ↔ UniqueKeys w) ∧ (UniqueKeys v → writeValue v = writeValue w) := by
  induction h with
  | refl value => exact ⟨Iff.rfl, fun _ => rfl⟩
  | symm _ ih => exact ⟨ih.1.symm, fun hw => (ih.2 (ih.1.mpr hw)).symm⟩
  | trans _ _ ih ih' =>
      exact ⟨ih.1.trans ih'.1, fun hu => (ih.2 hu).trans (ih'.2 (ih.1.mp hu))⟩
  | @members ms ms' hperm =>
      have hdistinct : ∀ {ms ms' : List (Str × Json)}, ms.Perm ms' → UniqueKeys (.object ms) →
          UniqueKeys (.object ms') := by
        rintro ms ms' hperm (_ | _ | _ | _ | ⟨hkeys, hvalues⟩)
        exact .object ((hperm.map Prod.fst).nodup_iff.mp hkeys)
          fun m hm => hvalues m (hperm.mem_iff.mpr hm)
      refine ⟨⟨hdistinct hperm, hdistinct hperm.symm⟩, ?_⟩
      rintro (_ | _ | _ | _ | ⟨hkeys, -⟩)
      rw [writeValue_object, writeValue_object, sortByKey_congr hkeys hperm]
  | @item v w before after _ ih =>
      have hdistinct : ∀ {v w : Json}, (UniqueKeys v → UniqueKeys w) →
          UniqueKeys (.array (before ++ v :: after)) →
          UniqueKeys (.array (before ++ w :: after)) := by
        rintro v w himp (_ | _ | _ | hitems | _)
        simp only [List.forall_mem_append, List.forall_mem_cons] at hitems
        refine .array ?_
        simp only [List.forall_mem_append, List.forall_mem_cons]
        exact ⟨hitems.1, himp hitems.2.1, hitems.2.2⟩
      refine ⟨⟨hdistinct ih.1.mp, hdistinct ih.1.mpr⟩, ?_⟩
      rintro (_ | _ | _ | hitems | _)
      have hv := ih.2 (hitems v (by simp))
      rw [writeValue_array, writeValue_array, List.map_append, List.map_append, List.map_cons,
        List.map_cons, hv]
  | @member v w before after key _ ih =>
      have hdistinct : ∀ {v w : Json}, (UniqueKeys v → UniqueKeys w) →
          UniqueKeys (.object (before ++ (key, v) :: after)) →
          UniqueKeys (.object (before ++ (key, w) :: after)) := by
        rintro v w himp (_ | _ | _ | _ | ⟨hkeys, hvalues⟩)
        simp only [List.forall_mem_append, List.forall_mem_cons] at hvalues
        refine .object (by simpa using hkeys) ?_
        simp only [List.forall_mem_append, List.forall_mem_cons]
        exact ⟨hvalues.1, himp hvalues.2.1, hvalues.2.2⟩
      refine ⟨⟨hdistinct ih.1.mp, hdistinct ih.1.mpr⟩, ?_⟩
      rintro (_ | _ | _ | _ | ⟨-, hvalues⟩)
      have hv := ih.2 (hvalues (key, v) (by simp))
      rw [writeValue, writeValue, writeMembers_eq_map, writeMembers_eq_map, List.map_append,
        List.map_append, List.map_cons, List.map_cons, hv]

/-- **The canonical text is compact JSON, decodes to the value with its members in order, and
determines the value up to the order of members.** -/
theorem canonical_text_determines :
    (∀ value, UniqueKeys value →
      (∃ tree : JsonTree, tree.WellFormed ∧ tree.text = writeValue value) ∧
        decode (writeValue value) = some value.sorted ∧
        Reordered value value.sorted ∧ Ascending value.sorted) ∧
    ∀ v w, UniqueKeys v → UniqueKeys w → (writeValue v = writeValue w ↔ Reordered v w) := by
  refine ⟨?_, ?_⟩
  · intro value h
    exact ⟨⟨jsonTree value, wellFormed_jsonTree h, text_jsonTree value⟩, decode_writeValue h,
      reordered_sorted value, ascending_sorted h⟩
  · intro v w hv hw
    constructor
    · intro heq
      have hdecode := decode_writeValue hv
      rw [heq, decode_writeValue hw] at hdecode
      have hsame : w.sorted = v.sorted := Option.some.inj hdecode
      exact .trans (reordered_sorted v) (hsame ▸ (reordered_sorted w).symm)
    · exact fun h => h.writeValue_eq.2 hv

/-- A value with control characters, a quote and unordered keys. -/
def unorderedValue : Json :=
  .object [("b".toList, .array [.int (-7), .str ['\x00', '"', 'é']]), ("a".toList, .bool true)]

theorem canonical_text_determines_unordered :
    decode (writeValue unorderedValue) = some unorderedValue.sorted ∧
      Reordered unorderedValue unorderedValue.sorted ∧ Ascending unorderedValue.sorted := by
  have hdistinct : UniqueKeys unorderedValue := by
    refine .object (by decide) ?_
    simp only [List.forall_mem_cons]
    refine ⟨.array ?_, .bool true, by simp⟩
    simp only [List.forall_mem_cons]
    exact ⟨.int _, .str _, by simp⟩
  exact (canonical_text_determines.1 unorderedValue hdistinct).2

end SovriAgent
