import SovriAgent.SignedJson

/-!
# The Signed Export Verifies

The verifier recovers from an exported document exactly what the exporter signed. The
payload may contain any text, so each textual search has to pass over it: the keys of
the payload are fixed (`payloadKeys`), none of them is a member the verifier searches
for before it gets there, and escaping keeps the markers of all other members out of
the payload's strings.

## Main results

* `objectMember_written`: the object member reader finds a member of a written object.
* `signedPart_export`: the verifier reconstructs exactly the text that was signed.
* `verify_exportCorpus`: the verifier accepts every export.
-/

namespace SovriAgent

/-! ### Members of written objects -/

/-- A plain member is written as its marker and its value. -/
theorem memberText_plain {key : Str} (h : PlainKey key) (value : Str) :
    memberText (key, value) = keyMarker key ++ value := by
  simp [memberText, writeString, keyMarker, escape_plain h]

/-- A text among others between commas. -/
theorem joinComma_append_cons (before : List Str) (t : Str) (after : List Str) :
    joinComma (before ++ t :: after) =
      before.flatMap (· ++ [',']) ++ (t ++ after.flatMap (',' :: ·)) := by
  have hafter : ∀ (after : List Str) (t : Str),
      joinComma (t :: after) = t ++ after.flatMap (',' :: ·) := by
    intro after
    induction after with
    | nil => simp [joinComma]
    | cons u after ih => intro t; simp [joinComma, ih]
  induction before with
  | nil => simp [hafter]
  | cons s before ih =>
      cases before with
      | nil => simp [hafter]
      | cons s' before => simpa [joinComma] using ih

/-- The text of an object from its written members. -/
def objectText (members : List (Str × Str)) : Str :=
  '{' :: (joinComma (members.map memberText) ++ ['}'])

/-- What precedes the value of a member in the text of an object. -/
def beforeValue (before : List (Str × Str)) (key : Str) : Str :=
  '{' :: (before.flatMap (fun m => memberText m ++ [',']) ++ keyMarker key)

/-- What follows the value of a member in the text of an object. -/
def afterValue (after : List (Str × Str)) : Str :=
  after.flatMap (fun m => ',' :: memberText m) ++ ['}']

/-- The text of an object, around one of its values. -/
theorem objectText_split {key : Str} (h : PlainKey key) (before after : List (Str × Str))
    (value : Str) :
    objectText (before ++ (key, value) :: after) =
      beforeValue before key ++ (value ++ afterValue after) := by
  simp [objectText, beforeValue, afterValue, joinComma_append_cons, memberText_plain h,
    List.flatMap_map]

/-- A value of an object is delimited. -/
theorem delimited_afterValue (after : List (Str × Str)) : Delimited (afterValue after) := by
  cases after with
  | nil => exact delimited_cons.mpr rfl
  | cons m after => exact delimited_cons.mpr rfl

/-- Members whose text contains no marker of the key. -/
def MembersFree (key : Str) (members : List (Str × Str)) : Prop :=
  ∀ m ∈ members, PlainKey m.1 ∧ m.1 ≠ key ∧
    ∀ rest, Delimited rest → Free (keyMarker key) m.2 rest

/-- The marker of a key starts in the text of an object first at the member's own key. -/
theorem free_before {key : Str} (hkey : PlainKey key) {before : List (Str × Str)}
    (hbefore : MembersFree key before) (rest : Str) :
    Free (keyMarker key) ('{' :: before.flatMap fun m => memberText m ++ [',']) rest := by
  refine ⟨?_, ?_⟩
  · rintro ⟨t, ht⟩
    exact absurd (List.cons.inj ht).1 (by decide)
  · induction before with
    | nil => trivial
    | cons m before ih =>
        obtain ⟨hplain, hne, hfree⟩ := hbefore m (by simp)
        rw [List.flatMap_cons, free_append, free_append, memberText, free_append]
        have hcolon : Free (keyMarker key) (':' :: m.2)
            ([','] ++ ((before.flatMap fun m => memberText m ++ [',']) ++ rest)) := by
          refine ⟨?_, hfree _ (by simp; rfl)⟩
          rintro ⟨t, ht⟩
          exact absurd (List.cons.inj ht).1 (by decide)
        exact ⟨⟨⟨free_key hkey hplain hne, hcolon⟩, free_of_no_quote (by simp)⟩,
          ih fun m hm => hbefore m (by simp [hm])⟩

/-- **The object member reader finds a member of a written object**, when no earlier
member contains the marker of its key. -/
theorem objectMember_written {key : Str} (hkey : PlainKey key) {before after : List (Str × Str)}
    (hbefore : MembersFree key before) (inner : List (Str × Json)) :
    objectMember key (objectText (before ++ (key, writeValue (.object inner)) :: after)) =
      some (writeValue (.object inner)) := by
  obtain ⟨body, hbody⟩ : ∃ body, writeValue (.object inner) = '{' :: body :=
    ⟨_, writeValue_object inner⟩
  have hanchor : objectAnchor key = keyMarker key ++ ['{'] := by
    simp [objectAnchor, keyMarker]
  have htext : objectText (before ++ (key, writeValue (.object inner)) :: after) =
      ('{' :: before.flatMap fun m => memberText m ++ [',']) ++
        (objectAnchor key ++ (body ++ afterValue after)) := by
    rw [objectText_split hkey, hanchor, hbody]
    simp [beforeValue]
  have hfree : Free (objectAnchor key) ('{' :: before.flatMap fun m => memberText m ++ [','])
      (objectAnchor key ++ (body ++ afterValue after)) :=
    (free_before hkey hbefore _).mono ⟨['{'], hanchor.symm⟩
  have hscan := scanValue_writeValue (.object inner) _ (delimited_afterValue after)
  rw [hbody, List.cons_append] at hscan
  rw [htext, objectMember, splitFirst_of_free hfree, splitFirst_append_self]
  simp only [Option.map_some, Option.bind_some, hscan, hbody]

/-- A written object as the text of its members in key order. -/
theorem writeValue_object_eq (members : List (Str × Json)) :
    writeValue (.object members) =
      objectText ((sortByKey members).map fun m => (m.1, writeValue m.2)) := by
  rw [writeValue_object, objectText, List.map_map]
  rfl

/-- Values whose keys are plain and different from `key` have no marker of it. -/
theorem membersFree_of_keysIn {keys : List Str} {key : Str} (hkey : PlainKey key)
    (hkeys : ∀ k ∈ keys, PlainKey k) (hnot : key ∉ keys) (members : List (Str × Json))
    (h : ∀ m ∈ members, m.1 ∈ keys ∧ KeysIn keys m.2) :
    MembersFree key (members.map fun m => (m.1, writeValue m.2)) := by
  intro t ht
  obtain ⟨m, hm, rfl⟩ := List.mem_map.mp ht
  obtain ⟨hmem, hin⟩ := h m hm
  refine ⟨hkeys _ hmem, fun heq => hnot (heq ▸ hmem), ?_⟩
  intro rest hrest
  exact free_writeValue hkey hkeys hnot hin hrest

/-- The member loop reads the direct members of a written object. -/
theorem memberValue_written {members : List (Str × Json)} (hplain : ∀ m ∈ members, PlainKey m.1)
    (key : Str) :
    memberValue key (writeValue (.object members)) =
      ((sortByKey members).find? (·.1 = key)).map fun m => writeValue m.2 := by
  rw [writeValue_object_eq, objectText, memberValue_members key, List.find?_map, Option.map_map]
  · rfl
  · intro t ht
    obtain ⟨m, hm, rfl⟩ := List.mem_map.mp ht
    exact hplain m ((sortByKey_perm members).mem_iff.mp hm)
  · intro t ht
    obtain ⟨m, hm, rfl⟩ := List.mem_map.mp ht
    exact scanValue_writeValue m.2

/-- A written string read as one. -/
theorem asString_writeString (text : Str) : asString (writeString text) = some (escape text) := by
  rw [asString, writeString, scanString_quote, scanRaw_escape]
  rfl

/-! ### The exported document -/

/-- Every key of the payload outside its schema section, at any depth. -/
def recordKeys : List Str :=
  ["control", "control_id", "controls", "environment", "evidence", "executed_at", "framework",
    "framework_id", "frameworks", "gaps", "id", "incomplete", "integrity", "locator",
    "redaction_status", "reference", "results", "rule_id", "scan", "score", "scores", "severity",
    "source_url", "status", "type", "version"].map String.toList

/-- Every key of the payload, at any depth. -/
def payloadKeys : List Str :=
  ["format", "schema", "schema_version"].map String.toList ++ recordKeys

/-- The keys of a payload are plain. -/
theorem payloadKeys_plain : ∀ k ∈ payloadKeys, PlainKey k := by decide +kernel

theorem recordKeys_subset : ∀ k ∈ recordKeys, k ∈ payloadKeys := fun _ hk =>
  List.mem_append_right _ hk

/-- A value with some keys has keys of more. -/
theorem KeysIn.mono {keys keys' : List Str} (h : ∀ k ∈ keys, k ∈ keys') {value : Json}
    (hvalue : KeysIn keys value) : KeysIn keys' value := by
  induction hvalue with
  | str text => exact .str text
  | bool flag => exact .bool flag
  | int number => exact .int number
  | array items _ ih => exact .array items ih
  | object members hkeys _ ih => exact .object members (fun m hm => h _ (hkeys m hm)) ih

/-- The keys of an object. -/
theorem keysIn_jsonObject {keys : List Str} {members : List (String × Json)}
    (h : ∀ m ∈ members, m.1.toList ∈ keys ∧ KeysIn keys m.2) : KeysIn keys (jsonObject members) := by
  refine .object _ ?_ ?_
  · intro t ht
    obtain ⟨m, hm, rfl⟩ := List.mem_map.mp ht
    exact (h m hm).1
  · intro t ht
    obtain ⟨m, hm, rfl⟩ := List.mem_map.mp ht
    exact (h m hm).2

/-- The keys of an array of values. -/
theorem keysIn_array_map {α : Type} {keys : List Str} (items : List α) (f : α → Json)
    (h : ∀ a, KeysIn keys (f a)) : KeysIn keys (.array (items.map f)) := by
  refine .array _ fun item hitem => ?_
  obtain ⟨a, -, rfl⟩ := List.mem_map.mp hitem
  exact h a

/-- Whether a value is a string. -/
def Json.isStr : Json → Bool
  | .str _ => true
  | _ => false

/-- An object of string members has the keys it lists. -/
theorem keysIn_strings {keys : List Str} {members : List (String × Json)} (names : List String)
    (hkeys : ∀ name ∈ names, name.toList ∈ keys) (hnames : members.map Prod.fst = names)
    (hstr : (members.all fun m => m.2.isStr) = true) : KeysIn keys (jsonObject members) := by
  refine keysIn_jsonObject fun m hm => ⟨hkeys _ ?_, ?_⟩
  · rw [← hnames]
    exact List.mem_map_of_mem hm
  · have hvalue := List.all_eq_true.mp hstr m hm
    cases h : m.2 with
    | str text => exact .str text
    | _ => simp [h, Json.isStr] at hvalue

/-- The keys of a result. -/
theorem keysIn_resultMember (item : ScopedResult) : KeysIn recordKeys (resultMember item) := by
  cases h : item.frameworkId with
  | none =>
      rw [resultMember, h]
      exact keysIn_strings ["control_id", "id", "rule_id", "status"] (by decide) rfl rfl
  | some frameworkId =>
      rw [resultMember, h]
      exact keysIn_strings ["control_id", "id", "rule_id", "status", "framework_id"]
        (by decide) rfl rfl

/-- The keys of the gaps. -/
theorem keysIn_gapsArray (results : List ScopedResult) (controls : List Control)
    (frameworks : List Framework) :
    KeysIn recordKeys (gapsArray results controls frameworks) := by
  refine .array _ fun gap hgap => ?_
  obtain ⟨item, -, hitem⟩ := List.mem_filterMap.mp hgap
  obtain ⟨frameworkId, -, hrecord⟩ := Option.bind_eq_some_iff.mp hitem
  split at hrecord
  · obtain rfl := Option.some.inj hrecord
    exact keysIn_strings ["control_id", "framework_id", "id", "reference", "rule_id", "severity",
      "source_url", "status"] (by decide) rfl rfl
  · exact absurd hrecord (by simp)

/-- The keys of the scores. -/
theorem keysIn_scoresObject (sdk : Scoring) (environment : EnvironmentScore sdk.Ratio) :
    KeysIn recordKeys (scoresObject sdk environment) := by
  have hcontrol : KeysIn recordKeys (controlScores sdk environment) :=
    keysIn_array_map _ _ fun _ =>
      keysIn_strings ["control_id", "rule_id", "score"] (by decide) rfl rfl
  have hframework : KeysIn recordKeys (frameworkScores sdk environment) :=
    keysIn_array_map _ _ fun _ =>
      keysIn_strings ["framework_id", "score"] (by decide) rfl rfl
  refine keysIn_jsonObject ?_
  simp only [List.forall_mem_cons, List.not_mem_nil, false_imp_iff, implies_true, and_true]
  exact ⟨⟨by decide, hcontrol⟩, ⟨by decide, .str _⟩, ⟨by decide, hframework⟩,
    ⟨by decide, .bool _⟩⟩

/-- The keys of the schema. -/
theorem keysIn_schemaObject : KeysIn payloadKeys schemaObject := by
  refine keysIn_jsonObject ?_
  simp only [List.forall_mem_cons, List.not_mem_nil, false_imp_iff, implies_true, and_true]
  exact ⟨⟨by decide, .str _⟩, ⟨by decide, .int _⟩⟩

/-- The members of the payload that precede the schema in key order. -/
def membersBeforeSchema (corpus : Corpus) : List (Str × Json) :=
  [("controls".toList, idArray corpus.controlIds),
    ("evidence".toList, evidenceArray corpus.evidenceRecords),
    ("frameworks".toList, frameworksArray corpus.frameworks),
    ("gaps".toList, gapsArray corpus.results corpus.controls corpus.frameworks),
    ("results".toList, resultsArray corpus.results),
    ("scan".toList, jsonObject
      [("executed_at", .str corpus.executedAt), ("id", .str corpus.runId)])]

/-- The keys of what is written before the schema. -/
theorem membersBeforeSchema_keysIn (corpus : Corpus) :
    ∀ m ∈ membersBeforeSchema corpus, m.1 ∈ recordKeys ∧ KeysIn recordKeys m.2 := by
  simp only [membersBeforeSchema, List.forall_mem_cons, List.not_mem_nil, false_imp_iff,
    implies_true, and_true]
  refine ⟨⟨by decide, ?_⟩, ⟨by decide, ?_⟩, ⟨by decide, ?_⟩, ⟨by decide, ?_⟩, ⟨by decide, ?_⟩,
    ⟨by decide, ?_⟩⟩
  · exact keysIn_array_map _ _ fun _ => keysIn_strings ["id"] (by decide) rfl rfl
  · exact keysIn_array_map _ _ fun _ => keysIn_strings
      ["id", "integrity", "locator", "redaction_status", "type"] (by decide) rfl rfl
  · exact keysIn_array_map _ _ fun _ =>
      keysIn_strings ["id", "version", "source_url"] (by decide) rfl rfl
  · exact keysIn_gapsArray _ _ _
  · exact keysIn_array_map _ _ keysIn_resultMember
  · exact keysIn_strings ["executed_at", "id"] (by decide) rfl rfl

/-- **Every key of the payload is one of the fixed keys**, whatever the corpus holds. -/
theorem payload_keysIn (sdk : Scoring) (corpus : Corpus) :
    KeysIn payloadKeys (payload sdk corpus) := by
  have hbefore := membersBeforeSchema_keysIn corpus
  simp only [membersBeforeSchema, List.forall_mem_cons, List.not_mem_nil, false_imp_iff,
    implies_true, and_true] at hbefore
  obtain ⟨hcontrols, hevidence, hframeworks, hgaps, hresults, hscan⟩ := hbefore
  have hrecord : ∀ {key value}, key ∈ recordKeys ∧ KeysIn recordKeys value →
      key ∈ payloadKeys ∧ KeysIn payloadKeys value :=
    fun h => ⟨recordKeys_subset _ h.1, h.2.mono recordKeys_subset⟩
  refine keysIn_jsonObject ?_
  simp only [List.forall_mem_cons, List.not_mem_nil, false_imp_iff, implies_true, and_true]
  exact ⟨⟨by decide, keysIn_schemaObject⟩, hrecord hscan, hrecord hframeworks,
    hrecord hcontrols, hrecord hresults, hrecord hgaps, hrecord hevidence,
    hrecord ⟨by decide, keysIn_scoresObject _ _⟩⟩

/-- The payload's text, split at its schema. -/
theorem payload_text (sdk : Scoring) (corpus : Corpus) :
    writeValue (payload sdk corpus) =
      objectText ((membersBeforeSchema corpus).map (fun m => (m.1, writeValue m.2)) ++
        ("schema".toList, writeValue schemaObject) ::
          [("scores".toList, writeValue (scoresObject sdk (corpus.environmentScore sdk)))]) := by
  have hsorted : sortByKey
      [("schema".toList, schemaObject),
        ("scan".toList, jsonObject
          [("executed_at", .str corpus.executedAt), ("id", .str corpus.runId)]),
        ("frameworks".toList, frameworksArray corpus.frameworks),
        ("controls".toList, idArray corpus.controlIds),
        ("results".toList, resultsArray corpus.results),
        ("gaps".toList, gapsArray corpus.results corpus.controls corpus.frameworks),
        ("evidence".toList, evidenceArray corpus.evidenceRecords),
        ("scores".toList, scoresObject sdk (corpus.environmentScore sdk))] =
      membersBeforeSchema corpus ++ ("schema".toList, schemaObject) ::
        [("scores".toList, scoresObject sdk (corpus.environmentScore sdk))] := rfl
  rw [payload, jsonObject, writeValue_object_eq]
  simp only [List.map_cons, List.map_nil] at hsorted ⊢
  rw [hsorted]
  simp

/-! ### Hexadecimal text in a document -/

/-- A hexadecimal character is printable. -/
theorem isHexChar_range {c : Char} (h : isHexChar c = true) : 0x2b ≤ c.toNat ∧ c ≠ '\\' := by
  simp only [isHexChar, Bool.or_eq_true, beq_iff_eq] at h
  rcases h with h | rfl
  · have hrange : ('0' ≤ c ∧ c ≤ '9') ∨ ('a' ≤ c ∧ c ≤ 'f') ∨ ('A' ≤ c ∧ c ≤ 'F') := by
      by_contra hnot
      simp only [not_or] at hnot
      simp [digitValue, hnot.1, hnot.2.1, hnot.2.2] at h
    have hle : ∀ a b : Char, a ≤ b ↔ a.toNat ≤ b.toNat := fun a b => by
      rw [Char.le_def, UInt32.le_iff_toNat_le, Char.toNat_val, Char.toNat_val]
    simp only [hle] at hrange
    have hbounds : '0'.toNat = 48 ∧ '9'.toNat = 57 ∧ 'a'.toNat = 97 ∧ 'f'.toNat = 102 ∧
        'A'.toNat = 65 ∧ 'F'.toNat = 70 := by decide
    refine ⟨by omega, ?_⟩
    rintro rfl
    have hbackslash : '\\'.toNat = 92 := rfl
    omega
  · decide

/-- A hexadecimal character is not escaped. -/
theorem escapeChar_hex {c : Char} (h : isHexChar c = true) : escapeChar c = [c] := by
  obtain ⟨hlow, hbackslash⟩ := isHexChar_range h
  have hne : ∀ d : Char, d.toNat < 0x2b → c ≠ d := by
    rintro d hd rfl
    omega
  have hcontrol : ¬ c.toNat < 0x20 := by omega
  simp [escapeChar, hne '"' (by decide), hbackslash, hne '\n' (by decide), hne '\r' (by decide),
    hne '\t' (by decide), hcontrol]

/-- Hexadecimal text is written as it is. -/
theorem escape_hex {hex : Str} (h : ∀ c ∈ hex, isHexChar c = true) : escape hex = hex := by
  induction hex with
  | nil => rfl
  | cons c hex ih =>
      rw [escape_cons, escapeChar_hex (h c (by simp)), ih fun d hd => h d (by simp [hd])]
      rfl

/-- Hexadecimal text has hexadecimal characters. -/
theorem toHex_chars (bytes : List UInt8) : ∀ c ∈ toHex bytes, isHexChar c = true :=
  fromHex_chars (fromHex_toHex bytes)

/-! ### What the verifier reads -/

section Document

variable (sdk : Scoring) (crypto : Crypto) (corpus : Corpus) (seed : Bytes 32)

/-- The document with a given text as its signature. -/
def documentWith (signatureHex : Str) : Str :=
  objectText
    ([("payload".toList, writeValue (payload sdk corpus))] ++
      ("signature".toList, writeString signatureHex) ::
        [(verificationMemberKey, writeValue (verification crypto (crypto.verifyingKey seed)))])

/-- An export is the document with its own signature. -/
theorem exportCorpus_eq :
    exportCorpus sdk crypto corpus seed =
      documentWith sdk crypto corpus seed (toHex (signature sdk crypto corpus seed).1) := by
  rw [exportCorpus, canonicalObject, writeValue_object_eq]
  have hsorted : sortByKey (signedMembers sdk crypto corpus seed ++
      [("signature".toList, .str (toHex (signature sdk crypto corpus seed).1))]) =
      [("payload".toList, payload sdk corpus),
        ("signature".toList, .str (toHex (signature sdk crypto corpus seed).1)),
        (verificationMemberKey, verification crypto (crypto.verifyingKey seed))] := rfl
  rw [hsorted, documentWith]
  simp [writeValue]

/-- The signed text is the document without its signature member. -/
theorem signedText_eq :
    signedText sdk crypto corpus seed =
      objectText [("payload".toList, writeValue (payload sdk corpus)),
        (verificationMemberKey, writeValue (verification crypto (crypto.verifyingKey seed)))] := by
  have hsorted : sortByKey (signedMembers sdk crypto corpus seed) =
      signedMembers sdk crypto corpus seed := rfl
  rw [signedText, canonicalObject, writeValue_object_eq, hsorted]
  simp [signedMembers]

theorem plain_payload : PlainKey "payload".toList := by decide

theorem plain_signature : PlainKey "signature".toList := by decide

theorem plain_verification : PlainKey verificationMemberKey := by decide

/-- The payload member has no marker of a key that is not a key of the payload. -/
theorem membersFree_payload {key : Str} (hkey : PlainKey key) (hnot : key ∉ payloadKeys)
    (hne : key ≠ "payload".toList) :
    MembersFree key [("payload".toList, writeValue (payload sdk corpus))] := by
  intro m hm
  obtain rfl := List.mem_singleton.mp hm
  refine ⟨plain_payload, hne.symm, fun rest hrest => ?_⟩
  exact free_writeValue hkey payloadKeys_plain hnot (payload_keysIn sdk corpus) hrest

/-- The payload is found in the document. -/
theorem objectMember_payload (signatureHex : Str) :
    objectMember "payload".toList (documentWith sdk crypto corpus seed signatureHex) =
      some (writeValue (payload sdk corpus)) := by
  have hbefore : MembersFree "payload".toList [] := by simp [MembersFree]
  exact objectMember_written plain_payload hbefore _

/-- **The schema version gate reads the exporter's own member.** -/
theorem schemaVersionOf_document (signatureHex : Str) :
    schemaVersionOf (documentWith sdk crypto corpus seed signatureHex) = some schemaVersion := by
  have hschema : objectMember "schema".toList (writeValue (payload sdk corpus)) =
      some (writeValue schemaObject) := by
    rw [payload_text]
    exact objectMember_written (by decide) (membersFree_of_keysIn (by decide)
      (fun k hk => payloadKeys_plain k (recordKeys_subset k hk)) (by decide) _
      (membersBeforeSchema_keysIn corpus)) _
  have hvalue : memberValue "schema_version".toList (writeValue schemaObject) =
      some (integerText schemaVersion) := by
    rw [schemaObject, jsonObject, memberValue_written (by decide +kernel)]
    rfl
  rw [schemaVersionOf, objectMember_payload, Option.bind_some, hschema, Option.bind_some, hvalue,
    Option.bind_some]
  decide

/-- The verification block is read whole. -/
theorem objectMember_verification (signatureHex : Str) :
    objectMember verificationMemberKey (documentWith sdk crypto corpus seed signatureHex) =
      some (writeValue (verification crypto (crypto.verifyingKey seed))) := by
  have hfree : MembersFree verificationMemberKey
      ([("payload".toList, writeValue (payload sdk corpus))] ++
        [("signature".toList, writeString signatureHex)]) := by
    intro m hm
    rcases List.mem_append.mp hm with hm | hm
    · exact membersFree_payload sdk corpus plain_verification (by decide) (by decide) m hm
    · obtain rfl := List.mem_singleton.mp hm
      have hne : "signature".toList ≠ verificationMemberKey := by decide
      refine ⟨plain_signature, hne, fun rest hrest => ?_⟩
      exact free_writeString plain_verification hrest.not_colon (hrest.not_mem plain_verification)
  exact objectMember_written plain_verification hfree
    [(algorithmMemberKey, .str algorithm),
      ("key_id".toList, .str (keyFingerprint crypto (crypto.verifyingKey seed))),
      (publicKeyMemberKey, .str (toHex (crypto.verifyingKey seed).1))]

/-- The direct string members of the verification block. -/
theorem verificationMember_document (signatureHex : Str) {key value : Str}
    (hfind : (sortByKey
      [(algorithmMemberKey, Json.str algorithm),
        ("key_id".toList, .str (keyFingerprint crypto (crypto.verifyingKey seed))),
        (publicKeyMemberKey, .str (toHex (crypto.verifyingKey seed).1))]).find? (·.1 = key) =
      some (key, .str value)) (hescape : escape value = value) :
    verificationMember key (documentWith sdk crypto corpus seed signatureHex) = some value := by
  rw [verificationMember, objectMember_verification sdk crypto corpus seed, Option.bind_some,
    stringMember, verification, memberValue_written, hfind, Option.map_some, Option.bind_some,
    writeValue, asString_writeString, hescape]
  simp only [List.forall_mem_cons, List.not_mem_nil, false_imp_iff, implies_true, and_true]
  decide

/-- **The algorithm gate reads the exporter's own member.** -/
theorem algorithm_document (signatureHex : Str) :
    verificationMember algorithmMemberKey (documentWith sdk crypto corpus seed signatureHex) =
      some algorithm :=
  verificationMember_document sdk crypto corpus seed _ rfl (by decide)

/-- **The public key read is the exporter's own.** -/
theorem publicKey_document (signatureHex : Str) :
    verificationMember publicKeyMemberKey (documentWith sdk crypto corpus seed signatureHex) =
      some (toHex (crypto.verifyingKey seed).1) :=
  verificationMember_document sdk crypto corpus seed _ rfl (escape_hex (toHex_chars _))

/-- The text before and after the place of the signature member. -/
def beforeSignature : Str :=
  '{' :: memberText ("payload".toList, writeValue (payload sdk corpus))

/-- What follows the signature of a signed document. -/
@[inherit_doc beforeSignature]
def afterSignature : Str :=
  afterValue
    [(verificationMemberKey, writeValue (verification crypto (crypto.verifyingKey seed)))]

/-- What is signed, around the place of the signature. -/
theorem signedText_split :
    signedText sdk crypto corpus seed =
      beforeSignature sdk corpus ++ afterSignature crypto seed := by
  rw [signedText_eq, objectText]
  simp [beforeSignature, afterSignature, afterValue, joinComma]

/-- A document with a signature, around it. -/
theorem documentWith_split {signatureHex : Str}
    (hhex : ∀ c ∈ signatureHex, isHexChar c = true) :
    documentWith sdk crypto corpus seed signatureHex =
      beforeSignature sdk corpus ++
        (signatureMember signatureHex ++ afterSignature crypto seed) := by
  have hanchor : signatureAnchor = keyMarker "signature".toList ++ ['"'] := rfl
  rw [documentWith, objectText_split plain_signature]
  simp [beforeValue, beforeSignature, afterSignature, signatureMember, hanchor, writeString,
    escape_hex hhex]

/-- The signature's marker does not start before its member. -/
theorem free_beforeSignature (rest : Str) :
    Free signatureAnchor (beforeSignature sdk corpus ++ [',']) rest := by
  have hfree := free_before plain_signature
    (membersFree_payload sdk corpus plain_signature (by decide) (by decide)) rest
  have hanchor : keyMarker "signature".toList <+: signatureAnchor := ⟨['"'], rfl⟩
  have hmono := hfree.mono hanchor
  simpa [beforeSignature] using hmono

/-- **The verifier reconstructs exactly the text that was signed**, and the signature
member as it stands. -/
theorem signedPart_document {signatureHex : Str}
    (hhex : ∀ c ∈ signatureHex, isHexChar c = true) :
    signedPart (documentWith sdk crypto corpus seed signatureHex) =
      some (signedText sdk crypto corpus seed, signatureHex) := by
  have hquote : '"' ∉ signatureHex := fun hmem => absurd (hhex _ hmem) (by decide)
  have hdocument : documentWith sdk crypto corpus seed signatureHex =
      beforeSignature sdk corpus ++
        ',' :: (signatureAnchor ++ (signatureHex ++ '"' :: afterSignature crypto seed)) := by
    rw [documentWith_split sdk crypto corpus seed hhex]
    simp [signatureMember]
  have hfirst : splitFirst signatureAnchor
      (beforeSignature sdk corpus ++
        ',' :: (signatureAnchor ++ (signatureHex ++ '"' :: afterSignature crypto seed))) =
      some (beforeSignature sdk corpus ++ [','], signatureHex ++ '"' :: afterSignature crypto seed) := by
    have hfree := free_beforeSignature sdk corpus
      (signatureAnchor ++ (signatureHex ++ '"' :: afterSignature crypto seed))
    have hskip := splitFirst_of_free hfree
    rw [splitFirst_append_self] at hskip
    simpa using hskip
  have hmember : splitFirst (signatureMember signatureHex)
      (beforeSignature sdk corpus ++
        ',' :: (signatureAnchor ++ (signatureHex ++ '"' :: afterSignature crypto seed))) =
      some (beforeSignature sdk corpus, afterSignature crypto seed) := by
    have hextend := splitFirst_extend hfirst
      (show _ = (signatureHex ++ ['"']) ++ afterSignature crypto seed by simp)
    simpa [signatureMember] using hextend
  rw [signedPart, hdocument, hfirst, Option.bind_some]
  simp only [splitFirst_char hquote, Option.map_some, removeFirst, hmember]
  rw [signedText_split]

end Document

/-- **The signed-JSON round trip.** The verifier accepts what the exporter wrote, for
every corpus and every seed: the text it reconstructs is exactly the one that was
digested and signed, and the members it reads are the exporter's own. -/
theorem verify_exportCorpus (sdk : Scoring) (crypto : Crypto) (hcrypto : crypto.AcceptsSigned)
    (corpus : Corpus) (seed : Bytes 32) :
    verify crypto (exportCorpus sdk crypto corpus seed) = .ok ∧
      Accepted crypto (exportCorpus sdk crypto corpus seed) (signedText sdk crypto corpus seed)
        (toHex (signature sdk crypto corpus seed).1) (crypto.verifyingKey seed)
        (signature sdk crypto corpus seed) := by
  have hhex := toHex_chars (signature sdk crypto corpus seed).1
  have haccepted : Accepted crypto (exportCorpus sdk crypto corpus seed)
      (signedText sdk crypto corpus seed) (toHex (signature sdk crypto corpus seed).1)
      (crypto.verifyingKey seed) (signature sdk crypto corpus seed) := by
    rw [exportCorpus_eq]
    exact
      { version := schemaVersionOf_document sdk crypto corpus seed _
        algorithm := algorithm_document sdk crypto corpus seed _
        signed := signedPart_document sdk crypto corpus seed hhex
        key := by
          rw [publicKey_document sdk crypto corpus seed, Option.bind_some]
          exact decodeFixed_toHex _
        decoded := decodeFixed_toHex _
        decodes := (hcrypto seed []).1
        verified := (hcrypto seed _).2 }
  exact ⟨(verify_eq_ok_iff _ _).mpr ⟨_, _, _, _, haccepted⟩, haccepted⟩

/-! ### A transparent stand-in for the libraries -/

/-- A scheme that hides nothing: the digest of a text is the text, a key is its seed, and
a signature is the key followed by the message, cut or filled to length. It accepts its
signatures over the messages `signs` selects. -/
def standInCrypto (signs : List UInt8 → Bool) : Crypto where
  contentDigest bytes :=
    { bytes, hex := List.replicate 64 '0', hex_length := List.length_replicate
      hex_chars := by simp only [List.mem_replicate]; rintro c ⟨-, rfl⟩; rfl }
  verifyingKey seed := seed
  sign := standInSignature
  decodesKey _ := true
  verifyStrict key message signature :=
    signs message && decide (signature = standInSignature key message)
where
  /-- The key followed by the message, cut or filled to length. -/
  standInSignature (key : Bytes 32) (message : List UInt8) : Bytes 64 :=
    ⟨key.1 ++ (message ++ List.replicate 32 0).take 32, by simp [key.2]⟩

/-- Scores of a corpus without scoped results. -/
def standInScoring : Scoring where
  Ratio := Unit
  compute _ _ := ⟨(), [], false⟩
  fromWeights _ _ := ()
  render _ := "no applicable controls".toList

/-- A corpus whose texts look like the document's own markers. -/
def markerCorpus : Corpus where
  executedAt := "2026-01-01T00:00:00Z".toList
  runId := ",\"signature\":\"00\"".toList
  controls := []
  results := []
  evidence := [⟨"e\\".toList, "\"payload\":\x7b".toList, [], [], .unclassified⟩]
  frameworks := []

/-- The seed of 32 bytes `0xab`. -/
def sampleSeed : Bytes 32 :=
  ⟨List.replicate 32 0xab, List.length_replicate⟩

theorem standInCrypto_acceptsSigned : (standInCrypto fun _ => true).AcceptsSigned := by
  intro seed message
  exact ⟨rfl, by simp [standInCrypto]⟩

/-- The round trip at a corpus that imitates the document's markers. -/
theorem verify_exportCorpus_markerCorpus :
    verify (standInCrypto fun _ => true)
        (exportCorpus standInScoring (standInCrypto fun _ => true) markerCorpus sampleSeed) = .ok :=
  (verify_exportCorpus standInScoring _ standInCrypto_acceptsSigned markerCorpus sampleSeed).1

end SovriAgent
