import SovriAgent.MemberSearch

/-!
# The Scanners on Written Text

The compact scanners work by byte offset on text they take to be compact JSON. On the text
the canonical serializer writes they agree with the value that was written: the value
scanner ends where the value ends, whatever closes or continues the text around it, and the
member readers find the direct member of an object, whatever its values hold.

The readers do not decode: a string member is returned as it is escaped, and a key is
compared as it is written, so the keys are ones the writer leaves as they are.

## Main results

* `compactValueEnd_writeValue`: the value scanner ends at the last byte of a written value.
* `memberReaders_writeValue`: the member readers return the direct member of the object.
* `scanners_agree_with_writer`: both.
-/

namespace SovriAgent

/-! ### What the readers are to return -/

/-- A key the writer leaves as it is: none of its characters needs escaping. -/
def Unescaped (key : Str) : Prop :=
  ∀ c ∈ key, escapeChar c = [c]

/-- The text of a string as it stands between the quotes. -/
def Json.escapedText : Json → Option Str
  | .str text => some (escape text)
  | _ => none

/-- A non-negative integer, within the 64 bits that the integers of the export have. -/
def Json.nonNegative : Json → Option ℕ
  | .int number => if 0 ≤ number ∧ number ≤ (i64Max : ℤ) then some number.toNat else none
  | _ => none

/-- The direct member of an object under a key. -/
def directMember (members : List (Str × Json)) (memberKey : Str) : Option Json :=
  (members.find? (·.1 = memberKey)).map Prod.snd

theorem Unescaped.escape_eq {key : Str} (h : Unescaped key) : escape key = key := by
  induction key with
  | nil => rfl
  | cons c key ih =>
      rw [escape_cons, h c List.mem_cons_self, ih fun d hd => h d (List.mem_cons_of_mem c hd)]
      rfl

/-- With distinct keys the direct member does not depend on the order of the members. -/
theorem directMember_perm {members members' : List (Str × Json)} (h : members.Perm members')
    (hkeys : (members.map Prod.fst).Nodup) (memberKey : Str) :
    directMember members memberKey = directMember members' memberKey := by
  have hmem : ∀ {ms : List (Str × Json)}, (ms.map Prod.fst).Nodup → ∀ m,
      ms.find? (·.1 = memberKey) = some m ↔ m ∈ ms ∧ m.1 = memberKey := by
    intro ms hnodup m
    constructor
    · intro hfind
      exact ⟨List.mem_of_find?_eq_some hfind, by simpa using List.find?_some hfind⟩
    · rintro ⟨hm, hkey⟩
      obtain ⟨m', hfind⟩ : ∃ m', ms.find? (·.1 = memberKey) = some m' :=
        Option.isSome_iff_exists.mp (List.find?_isSome.mpr ⟨m, hm, by simpa using hkey⟩)
      have hkey' : m'.1 = memberKey := by simpa using List.find?_some hfind
      rw [hfind, List.inj_on_of_nodup_map hnodup (List.mem_of_find?_eq_some hfind) hm
        (hkey'.trans hkey.symm)]
  have hkeys' : (members'.map Prod.fst).Nodup := (h.map Prod.fst).nodup_iff.mp hkeys
  rw [directMember, directMember]
  congr 1
  ext m
  rw [hmem hkeys m, hmem hkeys' m, h.mem_iff]

/-! ### The readers of a written value -/

theorem asString_writeValue (value : Json) : asString (writeValue value) = value.escapedText := by
  cases value with
  | str text =>
      rw [writeValue, asString, writeString, scanString_quote, scanRaw_escape]
      rfl
  | bool flag => cases flag <;> rfl
  | int number =>
      obtain ⟨c, s, hcs⟩ := List.exists_cons_of_ne_nil (integerText_ne_nil number)
      have hc : c ≠ '"' := by
        rintro rfl
        have hplain := List.all_eq_true.mp (integerText_chars number) '"' (by simp [hcs])
        exact absurd hplain (by decide)
      rw [writeValue, hcs, asString, scanString_of_ne hc]
      rfl
  | array items =>
      rw [writeValue_array, asString, scanString_of_ne (by decide)]
      rfl
  | object members =>
      rw [writeValue_object, asString, scanString_of_ne (by decide)]
      rfl

theorem integerToken_writeValue (value : Json) :
    integerToken (writeValue value) = value.nonNegative := by
  have hnone : ∀ c s, digitValue 10 c = none → integerToken (c :: s) = none := by
    intro c s hc
    rw [integerToken_eq, digitsNumber, if_neg (List.cons_ne_nil c s), digitsValue, hc]
    rfl
  cases value with
  | str text =>
      rw [writeValue, writeString]
      exact hnone _ _ (by decide)
  | bool flag => cases flag <;> exact hnone _ _ (by decide)
  | int number =>
      rw [writeValue]
      cases number with
      | ofNat n =>
          rw [integerText, integerToken_eq, digitsNumber, if_neg (decimal_ne_nil n),
            digitsValue_decimal]
          simp [Json.nonNegative, Option.filter]
      | negSucc n =>
          rw [integerText]
          exact hnone _ _ (by decide)
  | array items =>
      rw [writeValue_array]
      exact hnone _ _ (by decide)
  | object members =>
      rw [writeValue_object]
      exact hnone _ _ (by decide)

/-- The member loop over a written object finds its direct member. -/
theorem memberValue_writeValue {members : List (Str × Json)}
    (hkeys : (members.map Prod.fst).Nodup) (hplain : ∀ m ∈ members, Unescaped m.1)
    (memberKey : Str) :
    memberValue memberKey (writeValue (.object members)) =
      (directMember members memberKey).map writeValue := by
  have hmem : ∀ {m}, m ∈ sortByKey members → m ∈ members := (sortByKey_perm members).mem_iff.mp
  have hlines : ∀ m ∈ sortByKey members,
      memberText (m.1, writeValue m.2) = JsonTree.memberLine (m.1, writeValue m.2) := by
    intro m hm
    rw [memberText, writeString, (hplain m (hmem hm)).escape_eq]
    rfl
  have hshape : (sortByKey members).map (fun m => memberText (m.1, writeValue m.2)) =
      ((sortByKey members).map fun m => (m.1, writeValue m.2)).map JsonTree.memberLine := by
    rw [List.map_congr_left hlines, List.map_map]
    rfl
  rw [writeValue_object, hshape, memberValue_lines, List.find?_map, Option.map_map,
    directMember_perm (sortByKey_perm members).symm hkeys, directMember, Option.map_map]
  · rfl
  · intro m hm rest
    obtain ⟨n, hn, rfl⟩ := List.mem_map.mp hm
    rw [← (hplain n (hmem hn)).escape_eq]
    exact scanRaw_escape n.1 rest
  · intro m hm
    obtain ⟨n, -, rfl⟩ := List.mem_map.mp hm
    exact scanValue_writeValue n.2

/-! ### The scanners -/

/-- The value scanner ends at the last byte of a written value, wherever it stands. -/
theorem compactValueEnd_writeValue (pre : Str) (value : Json) {suffix : Str}
    (h : Delimited suffix) :
    compactValueEnd (pre ++ (writeValue value ++ suffix)) (byteLen pre) =
      .some (byteLen pre + byteLen (writeValue value) - 1) := by
  rw [compactValueEnd_eq, scanValue_writeValue value suffix h]
  rfl

/-- The member readers return the direct member of a written object. -/
theorem memberReaders_writeValue {members : List (Str × Json)}
    (hkeys : (members.map Prod.fst).Nodup) (hplain : ∀ m ∈ members, Unescaped m.1)
    (memberKey : Str) :
    compactObjectStringMember (writeValue (.object members)) memberKey =
        Scan.ofOption ((directMember members memberKey).bind Json.escapedText) ∧
      compactObjectIntMember (writeValue (.object members)) memberKey =
        Scan.ofOption ((directMember members memberKey).bind Json.nonNegative) := by
  rw [compactObjectStringMember_eq, compactObjectIntMember_eq,
    memberValue_writeValue hkeys hplain, Option.bind_map, Option.bind_map]
  constructor
  · congr 2
    exact funext asString_writeValue
  · congr 2
    exact funext integerToken_writeValue

/-- **The compact scanners agree with the writer**: a written value ends where it ends,
whatever comma or bracket follows it, and of a written object the member readers return the
direct member: its escaped text if it is a string, its number if it is a non-negative
integer, and nothing otherwise. -/
theorem scanners_agree_with_writer :
    (∀ (value : Json) (suffix : Str), Delimited suffix →
      compactValueEnd (writeValue value ++ suffix) 0 =
        .some (byteLen (writeValue value) - 1)) ∧
    ∀ members : List (Str × Json), (members.map Prod.fst).Nodup →
      (∀ m ∈ members, Unescaped m.1) → ∀ memberKey,
        compactObjectStringMember (writeValue (.object members)) memberKey =
            Scan.ofOption ((directMember members memberKey).bind Json.escapedText) ∧
          compactObjectIntMember (writeValue (.object members)) memberKey =
            Scan.ofOption ((directMember members memberKey).bind Json.nonNegative) := by
  refine ⟨fun value suffix h => ?_, fun members hkeys hplain => ?_⟩
  · simpa using compactValueEnd_writeValue [] value h
  · exact memberReaders_writeValue hkeys hplain

/-- A member of the same name deeper in the object is passed over. -/
theorem scanners_skip_deeper_member :
    compactObjectIntMember
        (writeValue (.object [(['a'], .object [(['b'], .str ['c'])]), (['b'], .int 7)])) ['b'] =
      .some 7 := by
  rw [(scanners_agree_with_writer.2 _ (by decide) (by simp [Unescaped]; decide) ['b']).2]
  rfl

end SovriAgent
