import SovriAgent.RoundTrip

/-!
# Tamper Evidence of the Signed Export

The signature is modelled ideally: exactly one message is signed under the key of the
export, and the digest is injective. The verifier cuts the signature member out of a
text wherever it stands and decodes it with a lenient hexadecimal decoder, so the texts
it accepts under that key are the export, the export with its signature spelled another
way, and the texts in which the signature member stands in another place. Every other
change is detected.

## Main results

* `accepted_iff`: the texts accepted under the key of an export.
* `tamper_evident_iff`: a text is evidence of tampering unless it is one of the two kinds.
* `upper_case_signature_verifies`: an accepted text that is not the export.
-/

namespace SovriAgent

/-! ### Ideal signatures -/

/-- An ideal scheme for one key: `message` is the only message signed under it, with the
bytes produced for it, and the digest is injective. -/
structure Crypto.Ideal (crypto : Crypto) (seed : Bytes 32) (message : List UInt8) : Prop where
  decodes : crypto.decodesKey (crypto.verifyingKey seed) = true
  verifies : ∀ m bytes, crypto.verifyStrict (crypto.verifyingKey seed) m bytes = true ↔
    m = message ∧ bytes = crypto.sign seed message
  injective : ∀ a b, (crypto.contentDigest a).bytes = (crypto.contentDigest b).bytes → a = b

/-- The public key embedded in a document. -/
def embeddedKey (document : Str) : Option (Bytes 32) :=
  (verificationMember publicKeyMemberKey document).bind (decodeFixed 32)

section

variable (sdk : Scoring) (crypto : Crypto) (corpus : Corpus) (seed : Bytes 32)

/-- The digest of the document without its signature member: the message it signs. -/
def signedDigest : List UInt8 :=
  (crypto.contentDigest (utf8 (signedText sdk crypto corpus seed))).bytes

/-- A text decodes to the signature of the export. -/
def SpellsSignature (signatureHex : Str) : Prop :=
  fromHex signatureHex = some (signature sdk crypto corpus seed).1

/-- The changes of an export that the verifier does not detect: the signature is spelled
another way, or its member stands elsewhere in the signed text, where the gates and the
key scan still read what they require. -/
inductive Undetected (document : Str) : Prop
  | respelled (signatureHex : Str) :
      SpellsSignature sdk crypto corpus seed signatureHex →
      signatureHex ≠ toHex (signature sdk crypto corpus seed).1 →
      document = beforeSignature sdk corpus ++
        (signatureMember signatureHex ++ afterSignature crypto seed) → Undetected document
  | relocated (before after signatureHex : Str) :
      SpellsSignature sdk crypto corpus seed signatureHex →
      before ++ after = signedText sdk crypto corpus seed →
      before ≠ beforeSignature sdk corpus →
      document = before ++ (signatureMember signatureHex ++ after) →
      schemaVersionOf document = some schemaVersion →
      verificationMember algorithmMemberKey document = some algorithm →
      embeddedKey document = some (crypto.verifyingKey seed) → Undetected document

/-! ### The place of the signature -/

/-- The keys of the signed text, at any depth. -/
def signedKeys : List Str :=
  ["payload".toList, verificationMemberKey, algorithmMemberKey, "key_id".toList,
    publicKeyMemberKey] ++ payloadKeys

/-- The signed text contains no signature member. -/
theorem signedText_no_anchor :
    ¬ signatureAnchor <:+: signedText sdk crypto corpus seed := by
  have hverification : KeysIn signedKeys (verification crypto (crypto.verifyingKey seed)) := by
    refine .object _ ?_ ?_
    · simp only [List.forall_mem_cons, List.not_mem_nil, false_imp_iff, implies_true, and_true]
      decide
    · simp only [List.forall_mem_cons, List.not_mem_nil, false_imp_iff, implies_true, and_true]
      exact ⟨.str _, .str _, .str _⟩
  have hpayload : KeysIn signedKeys (payload sdk corpus) :=
    (payload_keysIn sdk corpus).mono fun _ hk => List.mem_append_right _ hk
  have hsigned : KeysIn signedKeys (.object (signedMembers sdk crypto corpus seed)) := by
    refine .object _ ?_ ?_
    · simp only [signedMembers, List.forall_mem_cons, List.not_mem_nil, false_imp_iff,
        implies_true, and_true]
      decide
    · simp only [signedMembers, List.forall_mem_cons, List.not_mem_nil, false_imp_iff,
        implies_true, and_true]
      exact ⟨hpayload, hverification⟩
  have hplain : ∀ k ∈ signedKeys, PlainKey k := by
    intro k hk
    rcases List.mem_append.mp hk with hk | hk
    · revert k
      decide
    · exact payloadKeys_plain k hk
  have hfree : Free (keyMarker "signature".toList) (signedText sdk crypto corpus seed) [] :=
    free_writeValue plain_signature hplain (by decide) hsigned delimited_nil
  exact no_occurrence_of_free (by decide) (hfree.mono ⟨['"'], rfl⟩)

/-- An inserted signature member is found where it stands. -/
theorem splitFirst_signature {before after : Str} (signatureHex : Str)
    (hsplit : before ++ after = signedText sdk crypto corpus seed) :
    splitFirst signatureAnchor (before ++ (signatureMember signatureHex ++ after)) =
      some (before ++ [','], signatureHex ++ '"' :: after) := by
  have hbefore : ¬ signatureAnchor <:+: before := by
    rintro ⟨s, t, hst⟩
    refine signedText_no_anchor sdk crypto corpus seed ⟨s, t ++ after, ?_⟩
    rw [← hsplit, ← hst]
    simp
  have hcomma : ',' ∉ signatureAnchor := by decide
  simpa [signatureMember] using splitFirst_inserted hcomma hbefore

/-- The verifier reconstructs the text a signature member was inserted into. -/
theorem signedPart_inserted {before after signatureHex : Str}
    (hsplit : before ++ after = signedText sdk crypto corpus seed) (hquote : '"' ∉ signatureHex) :
    signedPart (before ++ (signatureMember signatureHex ++ after)) =
      some (signedText sdk crypto corpus seed, signatureHex) := by
  have hfirst := splitFirst_signature sdk crypto corpus seed signatureHex hsplit
  have hshape : before ++ (signatureMember signatureHex ++ after) =
      before ++ ',' :: (signatureAnchor ++ (signatureHex ++ '"' :: after)) := by
    simp [signatureMember]
  rw [hshape] at hfirst ⊢
  have hmember : splitFirst (signatureMember signatureHex)
      (before ++ ',' :: (signatureAnchor ++ (signatureHex ++ '"' :: after))) =
      some (before, after) := by
    have hextend := splitFirst_extend hfirst
      (show _ = (signatureHex ++ ['"']) ++ after by simp)
    simpa [signatureMember] using hextend
  rw [signedPart, hfirst, Option.bind_some]
  simp only [splitFirst_char hquote, Option.map_some, removeFirst, hmember, hsplit]

/-- A text whose reconstruction is the signed text is the signed text with the signature
member inserted. -/
theorem inserted_of_signedPart {document signatureHex : Str}
    (h : signedPart document = some (signedText sdk crypto corpus seed, signatureHex)) :
    ∃ before after, before ++ after = signedText sdk crypto corpus seed ∧
      document = before ++ (signatureMember signatureHex ++ after) := by
  obtain ⟨⟨b, a⟩, hanchor, hrest⟩ := Option.bind_eq_some_iff.mp h
  obtain ⟨⟨hex, tail⟩, -, heq⟩ := Option.map_eq_some_iff.mp hrest
  obtain ⟨hremoved, rfl⟩ := Prod.mk.inj heq
  rw [removeFirst] at hremoved
  rcases hmember : splitFirst (signatureMember hex) document with _ | ⟨before, after⟩
  · -- nothing was cut out, so the anchor is still there
    rw [hmember] at hremoved
    simp only at hremoved
    refine absurd ⟨b, a, ?_⟩ (signedText_no_anchor sdk crypto corpus seed)
    rw [← hremoved, eq_of_splitFirst hanchor, List.append_assoc]
  · rw [hmember] at hremoved
    exact ⟨before, after, hremoved, eq_of_splitFirst hmember⟩

theorem spellsSignature_iff {signatureHex : Str} :
    SpellsSignature sdk crypto corpus seed signatureHex ↔
      decodeFixed 64 signatureHex = some (signature sdk crypto corpus seed) := by
  constructor
  · intro h
    rw [decodeFixed, h, Option.bind_some, dif_pos (signature sdk crypto corpus seed).2]
  · intro h
    obtain ⟨bytes, hbytes, hlen⟩ := Option.bind_eq_some_iff.mp h
    split at hlen
    · obtain heq := Option.some.inj hlen
      rw [SpellsSignature, hbytes, ← heq]
    · exact absurd hlen (by simp)

theorem SpellsSignature.no_quote {signatureHex : Str}
    (h : SpellsSignature sdk crypto corpus seed signatureHex) : '"' ∉ signatureHex :=
  fun hmem => absurd (fromHex_chars h _ hmem) (by decide)

/-- An export is the signed text with its own signature in place. -/
theorem exportCorpus_split :
    exportCorpus sdk crypto corpus seed =
      beforeSignature sdk corpus ++ (signatureMember (toHex (signature sdk crypto corpus seed).1) ++
        afterSignature crypto seed) := by
  rw [exportCorpus_eq, documentWith_split sdk crypto corpus seed (toHex_chars _)]

/-! ### The accepted texts -/

variable {sdk crypto corpus seed}

/-- **The texts accepted under the key of an export** are the export and the undetected
changes of it. -/
theorem accepted_iff (hideal : crypto.Ideal seed (signedDigest sdk crypto corpus seed))
    (document : Str) :
    (verify crypto document = .ok ∧ embeddedKey document = some (crypto.verifyingKey seed)) ↔
      document = exportCorpus sdk crypto corpus seed ∨
        Undetected sdk crypto corpus seed document := by
  have hexport := exportCorpus_split sdk crypto corpus seed
  have hsplit := signedText_split sdk crypto corpus seed
  constructor
  · rintro ⟨hok, hkey⟩
    obtain ⟨signedBytes, signatureHex, publicKey, sig, h⟩ := (verify_eq_ok_iff _ _).mp hok
    obtain rfl : crypto.verifyingKey seed = publicKey := by
      exact Option.some.inj (hkey.symm.trans h.key)
    obtain ⟨hdigest, rfl⟩ := (hideal.verifies _ _).mp h.verified
    obtain rfl := utf8_injective (hideal.injective _ _ hdigest)
    have hspells : SpellsSignature sdk crypto corpus seed signatureHex :=
      (spellsSignature_iff sdk crypto corpus seed).mpr h.decoded
    obtain ⟨before, after, hba, hdocument⟩ := inserted_of_signedPart sdk crypto corpus seed h.signed
    by_cases hplace : before = beforeSignature sdk corpus
    · subst hplace
      obtain rfl : after = afterSignature crypto seed :=
        List.append_cancel_left (hba.trans hsplit)
      by_cases hhex : signatureHex = toHex (signature sdk crypto corpus seed).1
      · exact .inl (by rw [hdocument, hhex, hexport])
      · exact .inr (.respelled signatureHex hspells hhex hdocument)
    · exact .inr (.relocated before after signatureHex hspells hba hplace hdocument h.version
        h.algorithm hkey)
  · have hinserted : ∀ before after signatureHex, SpellsSignature sdk crypto corpus seed signatureHex →
        before ++ after = signedText sdk crypto corpus seed →
        document = before ++ (signatureMember signatureHex ++ after) →
        schemaVersionOf document = some schemaVersion →
        verificationMember algorithmMemberKey document = some algorithm →
        embeddedKey document = some (crypto.verifyingKey seed) →
        verify crypto document = .ok ∧ embeddedKey document = some (crypto.verifyingKey seed) := by
      intro before after signatureHex hspells hba hdocument hversion halgorithm hkey
      refine ⟨(verify_eq_ok_iff _ _).mpr ⟨_, signatureHex, _, _, hversion, halgorithm, ?_, hkey,
        (spellsSignature_iff sdk crypto corpus seed).mp hspells, hideal.decodes,
        (hideal.verifies _ _).mpr ⟨rfl, rfl⟩⟩, hkey⟩
      rw [hdocument]
      exact signedPart_inserted sdk crypto corpus seed hba (hspells.no_quote sdk crypto corpus seed)
    have hplaced : ∀ signatureHex, SpellsSignature sdk crypto corpus seed signatureHex →
        document = beforeSignature sdk corpus ++
          (signatureMember signatureHex ++ afterSignature crypto seed) →
        verify crypto document = .ok ∧ embeddedKey document = some (crypto.verifyingKey seed) := by
      intro signatureHex hspells hdocument
      have hdocument' : document = documentWith sdk crypto corpus seed signatureHex := by
        rw [documentWith_split sdk crypto corpus seed (fromHex_chars hspells), hdocument]
      refine hinserted _ _ signatureHex hspells hsplit.symm hdocument ?_ ?_ ?_
      · rw [hdocument', schemaVersionOf_document]
      · rw [hdocument', algorithm_document]
      · rw [hdocument', embeddedKey, publicKey_document, Option.bind_some, decodeFixed_toHex]
    rintro (hdocument | hundetected)
    · exact hplaced _ (fromHex_toHex _) (hdocument.trans hexport)
    · cases hundetected with
      | respelled signatureHex hspells _ hdocument => exact hplaced signatureHex hspells hdocument
      | relocated before after signatureHex hspells hba _ hdocument hversion halgorithm hkey =>
          exact hinserted before after signatureHex hspells hba hdocument hversion halgorithm hkey

/-- An undetected change is a change. -/
theorem Undetected.ne_export {document : Str} (h : Undetected sdk crypto corpus seed document) :
    document ≠ exportCorpus sdk crypto corpus seed := by
  have hexport := exportCorpus_split sdk crypto corpus seed
  have hown : SpellsSignature sdk crypto corpus seed
      (toHex (signature sdk crypto corpus seed).1) := fromHex_toHex _
  have hsplit := signedText_split sdk crypto corpus seed
  intro heq
  cases h with
  | respelled signatureHex hspells hne hdocument =>
      have hpart := signedPart_inserted sdk crypto corpus seed hsplit.symm
        (hspells.no_quote sdk crypto corpus seed)
      have hpart' := signedPart_inserted sdk crypto corpus seed hsplit.symm
        (hown.no_quote sdk crypto corpus seed)
      rw [← hdocument, heq, hexport, hpart'] at hpart
      exact hne (Prod.mk.inj (Option.some.inj hpart)).2.symm
  | relocated before after signatureHex hspells hba hne hdocument _ _ _ =>
      have hhere := splitFirst_signature sdk crypto corpus seed signatureHex hba
      rw [← hdocument, heq, hexport,
        splitFirst_signature sdk crypto corpus seed _ hsplit.symm] at hhere
      have hprefix := (Prod.mk.inj (Option.some.inj hhere)).1
      exact hne (List.append_cancel_right hprefix).symm

/-- **Tamper evidence, exactly.** A text accepted under the key of an export is the
export, if and only if it is not one of the undetected changes. -/
theorem tamper_evident_iff (hideal : crypto.Ideal seed (signedDigest sdk crypto corpus seed))
    (document : Str) :
    (verify crypto document = .ok ∧ embeddedKey document = some (crypto.verifyingKey seed) →
        document = exportCorpus sdk crypto corpus seed) ↔
      ¬ Undetected sdk crypto corpus seed document := by
  rw [accepted_iff hideal]
  constructor
  · intro h hundetected
    exact hundetected.ne_export (h (.inr hundetected))
  · rintro h (heq | hundetected)
    · exact heq
    · exact absurd hundetected h

end

/-! ### A changed export that is accepted -/

/-- The stand-in scheme is ideal for a message when it signs that message only. -/
theorem standInCrypto_ideal {signs : List UInt8 → Bool} {message : List UInt8}
    (h : ∀ m, signs m = true ↔ m = message) (seed : Bytes 32) :
    (standInCrypto signs).Ideal seed message where
  decodes := rfl
  verifies m bytes := by
    have hverify : (standInCrypto signs).verifyStrict seed m bytes =
        (signs m && decide (bytes = standInCrypto.standInSignature seed m)) := rfl
    change (standInCrypto signs).verifyStrict seed m bytes = true ↔
      m = message ∧ bytes = standInCrypto.standInSignature seed message
    rw [hverify, Bool.and_eq_true, h, decide_eq_true_eq]
    constructor
    · rintro ⟨rfl, hbytes⟩
      exact ⟨rfl, hbytes⟩
    · rintro ⟨rfl, hbytes⟩
      exact ⟨rfl, hbytes⟩
  injective _ _ heq := heq

/-- The text of the sample export without its signature member, as bytes. -/
def sampleMessage : List UInt8 :=
  utf8 (signedText standInScoring (standInCrypto fun _ => true) markerCorpus sampleSeed)

/-- The stand-in scheme that signs the sample export and nothing else. -/
def sampleCrypto : Crypto :=
  standInCrypto fun m => decide (m = sampleMessage)

theorem sampleCrypto_ideal :
    sampleCrypto.Ideal sampleSeed
      (signedDigest standInScoring sampleCrypto markerCorpus sampleSeed) := by
  have hdigest : signedDigest standInScoring sampleCrypto markerCorpus sampleSeed =
      sampleMessage := rfl
  rw [hdigest]
  exact standInCrypto_ideal (fun m => decide_eq_true_iff) sampleSeed

/-- The sample export with its signature in upper-case digits. -/
def upperCaseExport : Str :=
  documentWith standInScoring sampleCrypto markerCorpus sampleSeed
    ((toHex (signature standInScoring sampleCrypto markerCorpus sampleSeed).1).map Char.toUpper)

theorem upperCaseExport_undetected :
    Undetected standInScoring sampleCrypto markerCorpus sampleSeed upperCaseExport := by
  have hspells : SpellsSignature standInScoring sampleCrypto markerCorpus sampleSeed
      ((toHex (signature standInScoring sampleCrypto markerCorpus sampleSeed).1).map
        Char.toUpper) := fromHex_toUpper _
  refine .respelled _ hspells ?_ (documentWith_split _ _ _ _ (fromHex_chars hspells))
  -- the signature starts with the seed, whose first digit is a letter
  intro heq
  have hhead := congrArg List.head? heq
  exact absurd hhead (by decide)

/-- Tamper evidence fails: an export whose signature is respelled in upper case is
accepted under the same key, although it is not the export. -/
theorem upper_case_signature_verifies :
    sampleCrypto.Ideal sampleSeed
        (signedDigest standInScoring sampleCrypto markerCorpus sampleSeed) ∧
      verify sampleCrypto upperCaseExport = .ok ∧
      embeddedKey upperCaseExport = some (sampleCrypto.verifyingKey sampleSeed) ∧
      upperCaseExport ≠ exportCorpus standInScoring sampleCrypto markerCorpus sampleSeed := by
  obtain ⟨hok, hkey⟩ := (accepted_iff sampleCrypto_ideal _).mpr (.inr upperCaseExport_undetected)
  exact ⟨sampleCrypto_ideal, hok, hkey, upperCaseExport_undetected.ne_export⟩

/-- The characterization at the respelled sample export. -/
theorem tamper_evident_iff_upperCaseExport :
    (verify sampleCrypto upperCaseExport = .ok ∧
        embeddedKey upperCaseExport = some (sampleCrypto.verifyingKey sampleSeed) →
      upperCaseExport = exportCorpus standInScoring sampleCrypto markerCorpus sampleSeed) ↔
      ¬ Undetected standInScoring sampleCrypto markerCorpus sampleSeed upperCaseExport :=
  tamper_evident_iff sampleCrypto_ideal upperCaseExport

end SovriAgent
