import SovriAgent.Corpus
import SovriAgent.Written

/-!
# The Signed JSON Export

The exporter serializes a corpus into a canonical document of three members, `payload`,
`signature` and `verification`, and signs the digest of the first and the last. The
verifier finds the signature by textual search, cuts it out, and checks it over what is
left; before that it gates on the declared schema version and algorithm, which it reads
with the compact scanners.

SHA-256 and Ed25519 come from libraries and are parameters (`Crypto`). The outcome of
the verifier distinguishes an abort of the process from a verdict, since it slices its
input at computed byte offsets.

## Main results

* `verify_ne_panic`: the verifier returns a verdict on every text.
* `verify_eq_ok_iff`: the gates and checks an accepted text passed.
* `verify_exportCorpus`: the verifier accepts every export.
-/

namespace SovriAgent

/-! ### Cryptographic parameters -/

/-- A content digest: its bytes, and their text as 64 hexadecimal digits. -/
structure ContentDigest where
  bytes : List UInt8
  hex : Str
  hex_length : hex.length = 64
  hex_chars : ∀ c ∈ hex, isHexChar c = true

/-- The hash and signature functions of the libraries the export is built on. -/
structure Crypto where
  contentDigest : List UInt8 → ContentDigest
  verifyingKey : Bytes 32 → Bytes 32
  sign : Bytes 32 → List UInt8 → Bytes 64
  decodesKey : Bytes 32 → Bool
  verifyStrict : Bytes 32 → List UInt8 → Bytes 64 → Bool

/-- Verification accepts what was signed under the same key. -/
def Crypto.AcceptsSigned (crypto : Crypto) : Prop :=
  ∀ seed message, crypto.decodesKey (crypto.verifyingKey seed) = true ∧
    crypto.verifyStrict (crypto.verifyingKey seed) message (crypto.sign seed message) = true

/-! ### The exporter -/

/-- The self-describing schema format the export declares. -/
def schemaFormat : Str := "sovri.compliance-export/v1".toList

/-- The supported schema version the verifier gates on. -/
def schemaVersion : ℕ := 1

/-- The signature algorithm the verification block names. -/
def algorithm : Str := "Ed25519".toList

/-- The top-level member that carries verification metadata. -/
def verificationMemberKey : Str := "verification".toList

/-- The verification-block member that carries the signature algorithm. -/
def algorithmMemberKey : Str := "algorithm".toList

/-- The verification-block member that carries the embedded public key. -/
def publicKeyMemberKey : Str := "public_key".toList

/-- Hex length of the truncated public-key fingerprint carried as the key id. -/
def keyIdHexLen : ℕ := 16

/-- An object whose keys are string literals. -/
def jsonObject (members : List (String × Json)) : Json :=
  .object (members.map fun m => (m.1.toList, m.2))

/-- A JSON array of single-id records. -/
def idArray (ids : List Str) : Json :=
  .array (ids.map fun id => jsonObject [("id", .str id)])

/-- The `evidence` section. -/
def evidenceArray (records : List EvidenceRecord) : Json :=
  .array (records.map fun record => jsonObject
    [("id", .str record.id), ("integrity", .str record.integrity),
      ("locator", .str record.locator), ("redaction_status", .str record.redactionStatus),
      ("type", .str record.kind)])

/-- The `frameworks` section. -/
def frameworksArray (frameworks : List Framework) : Json :=
  .array (frameworks.map fun framework => jsonObject
    [("id", .str framework.id), ("version", .str framework.version),
      ("source_url", .str framework.sourceUrl)])

/-- Results by control id, then rule id, then framework id. -/
def scopedResultLe (a b : ScopedResult) : Bool :=
  if a.result.controlId = b.result.controlId then
    if a.result.ruleId = b.result.ruleId then optionLe a.frameworkId b.frameworkId
    else strLe a.result.ruleId b.result.ruleId
  else strLe a.result.controlId b.result.controlId

/-- Results in the order the payload lists them. -/
def orderedScopedResults (results : List ScopedResult) : List ScopedResult :=
  sortBy scopedResultLe results

/-- The stable derived id of a control result. -/
def derivedId (frameworkId : Option Str) (result : ControlResult) : Str :=
  match frameworkId with
  | some frameworkId => frameworkId ++ ':' :: (result.controlId ++ ':' :: result.ruleId)
  | none => result.controlId ++ ':' :: result.ruleId

/-- The record of the results section. -/
def resultMember (item : ScopedResult) : Json :=
  jsonObject
    ([("control_id", .str item.result.controlId),
      ("id", .str (derivedId item.frameworkId item.result)),
      ("rule_id", .str item.result.ruleId),
      ("status", .str item.result.status.label)] ++
      match item.frameworkId with
      | some frameworkId => [("framework_id", .str frameworkId)]
      | none => [])

/-- The `results` section. -/
def resultsArray (results : List ScopedResult) : Json :=
  .array ((orderedScopedResults results).map resultMember)

/-- The catalogued control's severity and framework reference; empty texts when the
control is not catalogued. -/
def cataloguedControl (controls : List Control) (frameworkId controlId : Str) : Str × Str :=
  match controls.find? fun c => c.frameworkId = frameworkId ∧ c.id = controlId with
  | some control => (control.severity, control.reference)
  | none => ([], [])

/-- The framework's source URL; the empty text when the framework is not listed. -/
def frameworkSourceUrl (frameworks : List Framework) (frameworkId : Str) : Str :=
  match frameworks.find? fun f => f.id = frameworkId with
  | some framework => framework.sourceUrl
  | none => []

/-- Whether a result of this status is a compliance gap. -/
def isGap : Status → Bool
  | .fail => true
  | .warning => true
  | _ => false

/-- The record of the gaps section. -/
def gapMember (result : ControlResult) (frameworkId : Str) (controls : List Control)
    (frameworks : List Framework) : Json :=
  let catalogued := cataloguedControl controls frameworkId result.controlId
  jsonObject
    [("control_id", .str result.controlId), ("framework_id", .str frameworkId),
      ("id", .str (derivedId (some frameworkId) result)), ("reference", .str catalogued.2),
      ("rule_id", .str result.ruleId), ("severity", .str catalogued.1),
      ("source_url", .str (frameworkSourceUrl frameworks frameworkId)),
      ("status", .str result.status.label)]

/-- The gap record of a result, when it is a framework-scoped gap. -/
def gapRecord (controls : List Control) (frameworks : List Framework) (item : ScopedResult) :
    Option Json :=
  item.frameworkId.bind fun frameworkId =>
    if isGap item.result.status then
      some (gapMember item.result frameworkId controls frameworks)
    else none

/-- The `gaps` section. -/
def gapsArray (results : List ScopedResult) (controls : List Control)
    (frameworks : List Framework) : Json :=
  .array ((orderedScopedResults results).filterMap (gapRecord controls frameworks))

/-- The ratio of a single control, as rendered by the SDK. -/
def controlRatio (sdk : Scoring) (control : ControlScore) : Str :=
  sdk.render (sdk.fromWeights control.earned (if control.isApplicable then control.weight else 0))

/-- The framework scores, ordered by framework id. -/
def frameworkScores (sdk : Scoring) (environment : EnvironmentScore sdk.Ratio) : Json :=
  let ordered := sortBy (fun a b => strLe a.frameworkId b.frameworkId) environment.frameworks
  .array (ordered.map fun framework => jsonObject
    [("framework_id", .str framework.frameworkId), ("score", .str (sdk.render framework.ratio))])

/-- The control scores of every framework, ordered by control id then rule id. -/
def controlScores (sdk : Scoring) (environment : EnvironmentScore sdk.Ratio) : Json :=
  let ordered := sortBy (leThen (·.controlId) (·.ruleId))
    (environment.frameworks.flatMap (·.controls))
  .array (ordered.map fun control => jsonObject
    [("control_id", .str control.controlId), ("rule_id", .str control.ruleId),
      ("score", .str (controlRatio sdk control))])

/-- The `scores` section. -/
def scoresObject (sdk : Scoring) (environment : EnvironmentScore sdk.Ratio) : Json :=
  jsonObject
    [("control", controlScores sdk environment),
      ("environment", .str (sdk.render environment.ratio)),
      ("framework", frameworkScores sdk environment),
      ("incomplete", .bool environment.incomplete)]

/-- The `schema` section. -/
def schemaObject : Json :=
  jsonObject [("format", .str schemaFormat), ("schema_version", .int schemaVersion)]

/-- The compliance data of the export. -/
def payload (sdk : Scoring) (corpus : Corpus) : Json :=
  jsonObject
    [("schema", schemaObject),
      ("scan", jsonObject [("executed_at", .str corpus.executedAt), ("id", .str corpus.runId)]),
      ("frameworks", frameworksArray corpus.frameworks),
      ("controls", idArray corpus.controlIds),
      ("results", resultsArray corpus.results),
      ("gaps", gapsArray corpus.results corpus.controls corpus.frameworks),
      ("evidence", evidenceArray corpus.evidenceRecords),
      ("scores", scoresObject sdk (corpus.environmentScore sdk))]

/-- The truncated fingerprint of a public key. The digest's text is ASCII, so its byte
slice is a prefix of its characters. -/
def keyFingerprint (crypto : Crypto) (publicKey : Bytes 32) : Str :=
  "sha256:".toList ++ (crypto.contentDigest publicKey.1).hex.take keyIdHexLen

/-- The verification block: algorithm, key id, embedded public key. -/
def verification (crypto : Crypto) (publicKey : Bytes 32) : Json :=
  .object
    [(algorithmMemberKey, .str algorithm),
      ("key_id".toList, .str (keyFingerprint crypto publicKey)),
      (publicKeyMemberKey, .str (toHex publicKey.1))]

/-- The two members the signature covers. -/
def signedMembers (sdk : Scoring) (crypto : Crypto) (corpus : Corpus) (seed : Bytes 32) :
    List (Str × Json) :=
  [("payload".toList, payload sdk corpus),
    (verificationMemberKey, verification crypto (crypto.verifyingKey seed))]

/-- The canonical text the signature covers. -/
def signedText (sdk : Scoring) (crypto : Crypto) (corpus : Corpus) (seed : Bytes 32) : Str :=
  canonicalObject (signedMembers sdk crypto corpus seed)

/-- The signature over the digest of the signed text. -/
def signature (sdk : Scoring) (crypto : Crypto) (corpus : Corpus) (seed : Bytes 32) : Bytes 64 :=
  crypto.sign seed (crypto.contentDigest (utf8 (signedText sdk crypto corpus seed))).bytes

/-- Exports the corpus as a signed JSON document (`export`). -/
def exportCorpus (sdk : Scoring) (crypto : Crypto) (corpus : Corpus) (seed : Bytes 32) : Str :=
  canonicalObject (signedMembers sdk crypto corpus seed ++
    [("signature".toList, .str (toHex (signature sdk crypto corpus seed).1))])

/-! ### The verifier -/

/-- Why a signed export failed verification. -/
inductive VerifyError where
  | unsupportedVersion
  | unsupportedAlgorithm
  | invalidSignature
  | missingVerificationKey
  deriving DecidableEq, Repr

/-- What a call of the verifier comes to. -/
inductive Verdict where
  | panic
  | ok
  | err (error : VerifyError)
  deriving DecidableEq, Repr

/-- Continues with the optional value a scan yields, unless it aborted. -/
def Scan.observe {α : Type} : Scan α → (Option α → Verdict) → Verdict
  | .panic, _ => .panic
  | .none, k => k Option.none
  | .some a, k => k (Option.some a)

@[simp] theorem Scan.observe_ofOption {α : Type} (o : Option α) (k : Option α → Verdict) :
    (Scan.ofOption o).observe k = k o := by
  cases o <;> rfl

/-- The search text of the signature member: its key, a colon and an opening quote. -/
def signatureAnchor : Str := "\"signature\":\"".toList

/-- The signature member with its leading comma. -/
def signatureMember (signatureHex : Str) : Str :=
  ',' :: (signatureAnchor ++ signatureHex ++ ['"'])

/-- Reconstructs the text a signed export's signature was computed over, and returns it
with the signature hex. -/
def reconstructSigned (document : Str) : Scan (Str × Str) := do
  let found ← Scan.ofOption (find signatureAnchor document)
  let hexStart := found + byteLen signatureAnchor
  let rest ← sliceFrom document hexStart
  let hexLen ← Scan.ofOption (find ['"'] rest)
  let signatureHex ← slice document hexStart (hexStart + hexLen)
  pure (removeFirst (signatureMember signatureHex) document, signatureHex)

/-- The compact top-level `verification` object slice. -/
def verificationBlock (document : Str) : Scan Str :=
  compactObjectMember document verificationMemberKey

/-- The hex of the public key embedded in the document's `verification` block. -/
def embeddedPublicKey (document : Str) : Scan Str := do
  let block ← verificationBlock document
  compactObjectStringMember block publicKeyMemberKey

/-- The signature algorithm the document declares. -/
def declaredAlgorithm (document : Str) : Scan Str := do
  let block ← verificationBlock document
  compactObjectStringMember block algorithmMemberKey

/-- The `schema_version` integer the document declares. -/
def declaredSchemaVersion (document : Str) : Scan ℕ := do
  let payload ← compactObjectMember document "payload".toList
  let schema ← compactObjectMember payload "schema".toList
  compactObjectIntMember schema "schema_version".toList

/-- Checks the signature of a schema- and algorithm-valid document. -/
def verifySignature (crypto : Crypto) (document : Str) : Verdict :=
  (reconstructSigned document).observe fun reconstructed =>
    match reconstructed with
    | none => .err .invalidSignature
    | some (signedBytes, signatureHex) =>
        (embeddedPublicKey document).observe fun publicKeyHex =>
          match publicKeyHex with
          | none => .err .missingVerificationKey
          | some publicKeyHex =>
              match decodeFixed 32 publicKeyHex, decodeFixed 64 signatureHex with
              | some publicKey, some signature =>
                  if crypto.decodesKey publicKey ∧ crypto.verifyStrict publicKey
                      (crypto.contentDigest (utf8 signedBytes)).bytes signature then .ok
                  else .err .invalidSignature
              | _, _ => .err .invalidSignature

/-- Verifies a signed JSON document. -/
def verify (crypto : Crypto) (document : Str) : Verdict :=
  (declaredSchemaVersion document).observe fun version =>
    if version ≠ some schemaVersion then .err .unsupportedVersion
    else
      (declaredAlgorithm document).observe fun declared =>
        if declared ≠ some algorithm then .err .unsupportedAlgorithm
        else verifySignature crypto document

/-! ### The verifier on suffixes -/

/-- The text of a string member of an object. -/
def stringMember (memberKey object : Str) : Option Str :=
  (memberValue memberKey object).bind asString

/-- The schema version a document declares. -/
def schemaVersionOf (document : Str) : Option ℕ :=
  (objectMember "payload".toList document).bind fun payload =>
    (objectMember "schema".toList payload).bind fun schema =>
      (memberValue "schema_version".toList schema).bind integerToken

/-- A string member of the verification block of a document. -/
def verificationMember (memberKey document : Str) : Option Str :=
  (objectMember verificationMemberKey document).bind (stringMember memberKey)

/-- The signed text and the signature hex of a document. -/
def signedPart (document : Str) : Option (Str × Str) :=
  (splitFirst signatureAnchor document).bind fun p =>
    (splitFirst ['"'] p.2).map fun q => (removeFirst (signatureMember q.1) document, q.1)

theorem declaredSchemaVersion_eq (document : Str) :
    declaredSchemaVersion document = Scan.ofOption (schemaVersionOf document) := by
  simp only [declaredSchemaVersion, compactObjectMember_eq, compactObjectIntMember_eq,
    Scan.ofOption_bind, schemaVersionOf]

theorem declaredAlgorithm_eq (document : Str) :
    declaredAlgorithm document =
      Scan.ofOption (verificationMember algorithmMemberKey document) := by
  simp only [declaredAlgorithm, verificationBlock, compactObjectMember_eq,
    compactObjectStringMember_eq, Scan.ofOption_bind]
  rfl

theorem embeddedPublicKey_eq (document : Str) :
    embeddedPublicKey document =
      Scan.ofOption (verificationMember publicKeyMemberKey document) := by
  simp only [embeddedPublicKey, verificationBlock, compactObjectMember_eq,
    compactObjectStringMember_eq, Scan.ofOption_bind]
  rfl

theorem reconstructSigned_eq (document : Str) :
    reconstructSigned document = Scan.ofOption (signedPart document) := by
  rw [reconstructSigned, signedPart, find]
  rcases hs : splitFirst signatureAnchor document with _ | ⟨before, after⟩
  · rfl
  · have hdocument : document = (before ++ signatureAnchor) ++ after := by
      rw [eq_of_splitFirst hs, List.append_assoc]
    have hlen : byteLen before + byteLen signatureAnchor = byteLen (before ++ signatureAnchor) := by
      simp
    have hslice : sliceFrom document (byteLen before + byteLen signatureAnchor) = .some after := by
      rw [hdocument]
      exact sliceFrom_append _ _ hlen
    simp only [Option.map_some, Scan.ofOption_some, Scan.some_bind, hslice, Option.bind_some, find]
    rcases hq : splitFirst ['"'] after with _ | ⟨hex, tail⟩
    · rfl
    · have hafter : after = hex ++ ('"' :: tail) := eq_of_splitFirst hq
      have hhex : slice document (byteLen before + byteLen signatureAnchor)
          (byteLen before + byteLen signatureAnchor + byteLen hex) = .some hex := by
        rw [hdocument, hafter]
        exact slice_append _ _ _ hlen (by rw [hlen])
      simp only [Option.map_some, Scan.ofOption_some, Scan.some_bind, hhex, Scan.pure_eq]

/-- The verifier, with every scan replaced by its suffix function. -/
theorem verify_eq (crypto : Crypto) (document : Str) :
    verify crypto document =
      if schemaVersionOf document ≠ some schemaVersion then .err .unsupportedVersion
      else if verificationMember algorithmMemberKey document ≠ some algorithm then
        .err .unsupportedAlgorithm
      else verifySignature crypto document := by
  simp only [verify, declaredSchemaVersion_eq, declaredAlgorithm_eq, Scan.observe_ofOption]

/-- **The verifier returns a verdict on every text**: none of its slices leaves a
character boundary. -/
theorem verify_ne_panic (crypto : Crypto) (document : Str) : verify crypto document ≠ .panic := by
  have hsignature : verifySignature crypto document ≠ .panic := by
    rw [verifySignature, reconstructSigned_eq, Scan.observe_ofOption]
    split
    · simp
    · rw [embeddedPublicKey_eq, Scan.observe_ofOption]
      split
      · simp
      · split
        · split <;> simp
        · simp
  rw [verify_eq]
  split
  · simp
  · split
    · simp
    · exact hsignature

/-- What an accepted text passed: both gates, and the check of the signature found in it
over the text left when that signature is cut out. -/
structure Accepted (crypto : Crypto) (document signedBytes signatureHex : Str)
    (publicKey : Bytes 32) (signature : Bytes 64) : Prop where
  version : schemaVersionOf document = some schemaVersion
  algorithm : verificationMember algorithmMemberKey document = some algorithm
  signed : signedPart document = some (signedBytes, signatureHex)
  key : (verificationMember publicKeyMemberKey document).bind (decodeFixed 32) = some publicKey
  decoded : decodeFixed 64 signatureHex = some signature
  decodes : crypto.decodesKey publicKey = true
  verified : crypto.verifyStrict publicKey (crypto.contentDigest (utf8 signedBytes)).bytes
    signature = true

/-- **The verifier accepts a text exactly when it passes both gates and the check.** -/
theorem verify_eq_ok_iff (crypto : Crypto) (document : Str) :
    verify crypto document = .ok ↔
      ∃ signedBytes signatureHex publicKey signature,
        Accepted crypto document signedBytes signatureHex publicKey signature := by
  constructor
  · intro h
    rw [verify_eq] at h
    split at h
    · simp at h
    next hversion =>
    split at h
    · simp at h
    next halgorithm =>
    rw [verifySignature, reconstructSigned_eq, Scan.observe_ofOption] at h
    split at h
    · simp at h
    next signedBytes signatureHex hsigned =>
    rw [embeddedPublicKey_eq, Scan.observe_ofOption] at h
    split at h
    · simp at h
    next keyHex hkey =>
    split at h
    next publicKey signature hpublic hsignature =>
      split at h
      next hverified =>
        exact ⟨signedBytes, signatureHex, publicKey, signature, not_not.mp hversion,
          not_not.mp halgorithm, hsigned, by rw [hkey]; exact hpublic, hsignature,
          hverified.1, hverified.2⟩
      · simp at h
    · simp at h
  · rintro ⟨signedBytes, signatureHex, publicKey, signature, h⟩
    obtain ⟨keyHex, hkey, hpublic⟩ := Option.bind_eq_some_iff.mp h.key
    rw [verify_eq, if_neg (not_not.mpr h.version), if_neg (not_not.mpr h.algorithm),
      verifySignature, reconstructSigned_eq, Scan.observe_ofOption, h.signed]
    simp only
    rw [embeddedPublicKey_eq, Scan.observe_ofOption, hkey]
    simp only [hpublic, h.decoded, h.decodes, h.verified, and_self, if_true]

end SovriAgent
