import SovriAgent.EvidenceReport

/-!
# Stores With Records That Lack Their Hash

The report opens the evidence store of the SDK. Where that fails because a record lacks its
content hash, the record files are read once more by a decoder of the report, which keeps the id
and the locator of each record without a hash. The records that have one are not read again, so
they are in no section of the report.

How the SDK decodes a record file and opens a store is not part of the agent. It is a parameter;
what is relied on is that a store opens with the records of its files, or fails with the error
of one of them.

## Main results

* `missingIntegrityRecords_ok`: the second reading of a store.
* `missing_hash_iff`: the stores none of whose records is hidden.
* `missing_hash_hides`: a store one of whose records is.
-/

namespace SovriAgent

namespace EvidenceReport

/-! ### Record files -/

/-- An error of an evidence store. -/
inductive StoreError where
  | io (operation path message : Str)
  | decode (path message : Str)
deriving DecidableEq

/-- A record file of the object tree, with its text or the error of reading it. Files are listed
in the order of their paths. -/
structure RecordFile where
  path : Str
  content : Except Str Str

/-- The header of a record file. -/
def recordHeader : Str :=
  "format\tevidence-record-v1".toList

/-- The fields of a record that the second reading passes over. -/
def optionalRecordFields : List Str :=
  ["kind".toList, "classification".toList, "line".toList, "key".toList, "signal".toList,
    "size-bytes".toList, "reviewer-status".toList, "control-id".toList, "control".toList]

/-- What was read of a record so far. -/
structure RawMissingIntegrityFields where
  id : Option Str
  locator : Option Str
  hasContentHash : Bool

/-- What the second reading keeps of a record. -/
structure MissingIntegrityFields where
  id : Str
  locator : Str
  hasContentHash : Bool
deriving DecidableEq

/-- A value without its escapes. -/
def unescapeStoreValue : Str → Except Str Str
  | [] => .ok []
  | [c] => if c = '\\' then .error "value ends with a dangling escape".toList else .ok [c]
  | c :: other :: rest =>
      if c = '\\' then
        if other = '\\' then (unescapeStoreValue rest).map ('\\' :: ·)
        else if other = 't' then (unescapeStoreValue rest).map ('\t' :: ·)
        else if other = 'n' then (unescapeStoreValue rest).map ('\n' :: ·)
        else if other = 'r' then (unescapeStoreValue rest).map ('\r' :: ·)
        else .error ("unknown escape '\\".toList ++ other :: "'".toList)
      else (unescapeStoreValue (other :: rest)).map (c :: ·)

/-- Reads one line of a record. -/
def readFieldLine (path : Str) (fields : RawMissingIntegrityFields) (line : Str) :
    Except StoreError RawMissingIntegrityFields :=
  if line = [] then .ok fields
  else
    match splitFirst ['\t'] line with
    | none => .error (.decode path "record line has no field separator".toList)
    | some (key, raw) =>
        match unescapeStoreValue raw with
        | .error message => .error (.decode path message)
        | .ok value =>
            if key = "id".toList then .ok { fields with id := some value }
            else if key = "locator".toList then .ok { fields with locator := some value }
            else if key = "content-hash".toList then .ok { fields with hasContentHash := true }
            else if key ∈ optionalRecordFields then .ok fields
            else .error (.decode path ("unknown record field '".toList ++ key ++ "'".toList))

/-- A field a record has to have. -/
def requiredReportRecordField (path : Str) (value : Option Str) (field : Str) :
    Except StoreError Str :=
  match value with
  | some value => .ok value
  | none => .error (.decode path ("record is missing an ".toList ++ field))

/-- What the text of a record file says. -/
def decodeMissingIntegrityRecord (path text : Str) : Except StoreError MissingIntegrityFields :=
  match lines text with
  | [] => .error (.decode path "missing or unknown record header".toList)
  | header :: rest =>
      if header = recordHeader then do
        let fields ← rest.foldlM (readFieldLine path) ⟨none, none, false⟩
        let id ← requiredReportRecordField path fields.id "id".toList
        let locator ← requiredReportRecordField path fields.locator "locator".toList
        return ⟨id, locator, fields.hasContentHash⟩
      else .error (.decode path "missing or unknown record header".toList)

/-- What a record file says. -/
def readFields (file : RecordFile) : Except StoreError MissingIntegrityFields :=
  match file.content with
  | .ok text => decodeMissingIntegrityRecord file.path text
  | .error message => .error (.io "read record file".toList file.path message)

/-- The record of a file, if it has no content hash. -/
def missingIntegrityRecord (file : RecordFile) :
    Except StoreError (Option MissingIntegrityRecord) :=
  (readFields file).map fun fields =>
    if fields.hasContentHash then none else some ⟨fields.id, fields.locator⟩

/-- The records without a content hash, by their ids. -/
def missingIntegrityRecords (files : List RecordFile) :
    Except StoreError (List MissingIntegrityRecord) := do
  let found ← files.mapM missingIntegrityRecord
  return sortBy (fun a b => strLe a.id b.id) (found.filterMap id)

/-! ### Reading a store -/

/-- The evidence store of the SDK: what it makes of a record file, and of a store. -/
structure StoreSdk where
  decode : RecordFile → Except Str StoreRecord
  openStore : List RecordFile → Except StoreError (List StoreRecord)

/-- What the agent relies on: a store opens with the records of its files, or fails with the
error of a file that does not decode. -/
structure StoreSdk.Opens (sdk : StoreSdk) : Prop where
  opened : ∀ files, (∀ file ∈ files, ∃ record, sdk.decode file = .ok record) →
    ∃ log, sdk.openStore files = .ok log ∧
      ∀ record, record ∈ log ↔ ∃ file ∈ files, sdk.decode file = .ok record
  refused : ∀ files, (∃ file ∈ files, ∃ message, sdk.decode file = .error message) →
    ∃ file ∈ files, ∃ message, sdk.decode file = .error message ∧
      sdk.openStore files = .error (.decode file.path message)

/-- What the SDK says of a record without a content hash. -/
def missingContentHashMessage : Str :=
  "record is missing a content hash".toList

/-- Whether a store did not open for want of a content hash. -/
def isMissingIntegrityError : StoreError → Bool
  | .io _ _ _ => false
  | .decode _ message => message = missingContentHashMessage

/-- Reads an evidence store. -/
def reportEvidenceMetadata (sdk : StoreSdk) (files : List RecordFile) :
    Except StoreError Metadata :=
  match sdk.openStore files with
  | .ok log => .ok ⟨log, []⟩
  | .error error =>
      if isMissingIntegrityError error then
        (missingIntegrityRecords files).map fun missing => ⟨[], missing⟩
      else .error error

/-- The lines of the report of a store. -/
def execute (sdk : StoreSdk) (config : Config) (files : List RecordFile) :
    Except StoreError (List Str) :=
  (reportEvidenceMetadata sdk files).map (executeLines config)

/-- The sections of what was read stand in the report. -/
theorem execute_sections {sdk : StoreSdk} {config : Config} {files : List RecordFile}
    {evidence : Metadata} (h : reportEvidenceMetadata sdk files = .ok evidence) (part : Section) :
    ∃ report, execute sdk config files = .ok report ∧
      part.heading :: sectionLines config evidence part <:+: report := by
  refine ⟨executeLines config evidence, by rw [execute, h]; rfl, ?_⟩
  exact section_infix_executeLines config evidence part

/-! ### What a report hides -/

/-- Whether a record file has a content hash. -/
def hasContentHash (file : RecordFile) : Bool :=
  match readFields file with
  | .ok fields => fields.hasContentHash
  | .error _ => false

/-- A store whose records all decode, except that some lack their content hash. -/
def LegacyStore (sdk : StoreSdk) (files : List RecordFile) : Prop :=
  ∀ file ∈ files, ∃ fields, readFields file = .ok fields ∧
    ((fields.hasContentHash = true ∧ ∃ record, sdk.decode file = .ok record ∧
        record.id = fields.id ∧ record.locator = fields.locator) ∨
      (fields.hasContentHash = false ∧ sdk.decode file = .error missingContentHashMessage))

/-- The report lists every record in its appendix, and its counts and gaps are those of the
records with a content hash. -/
structure HidesNothing (sdk : StoreSdk) (config : Config) (files : List RecordFile)
    (evidence hashed : Metadata) : Prop where
  read : reportEvidenceMetadata sdk files = .ok evidence
  readHashed : reportEvidenceMetadata sdk (files.filter hasContentHash) = .ok hashed
  listed : ∀ file ∈ files, ∀ fields, readFields file = .ok fields →
    appendixHead fields.id fields.locator <:+: sectionLines config evidence .evidenceAppendix
  counts : sectionLines config evidence .executiveSummary =
    sectionLines config hashed .executiveSummary
  gaps : sectionLines config evidence .gaps = sectionLines config hashed .gaps

/-! ### The second reading -/

theorem hasContentHash_of_readFields {file : RecordFile} {fields : MissingIntegrityFields}
    (h : readFields file = .ok fields) : hasContentHash file = fields.hasContentHash := by
  rw [hasContentHash, h]

/-- Files that can all be read are read one by one. -/
theorem mapM_missingIntegrityRecord {files : List RecordFile}
    (h : ∀ file ∈ files, ∃ fields, readFields file = .ok fields) :
    ∃ found, files.mapM missingIntegrityRecord = .ok found ∧
      ∀ file ∈ files, ∀ fields, readFields file = .ok fields → fields.hasContentHash = false →
        some ⟨fields.id, fields.locator⟩ ∈ found := by
  induction files with
  | nil => exact ⟨[], rfl, fun file hfile => absurd hfile List.not_mem_nil⟩
  | cons file files ih =>
      obtain ⟨fields, hfields⟩ := h file List.mem_cons_self
      obtain ⟨found, hfound, hmem⟩ := ih fun other hother => h other (List.mem_cons_of_mem _ hother)
      refine ⟨(if fields.hasContentHash then none else some ⟨fields.id, fields.locator⟩) :: found,
        ?_, ?_⟩
      · rw [List.mapM_cons, hfound, missingIntegrityRecord, hfields]
        rfl
      · intro other hother otherFields hread hhash
        rcases List.mem_cons.mp hother with rfl | hother
        · obtain rfl := Except.ok.inj (hfields.symm.trans hread)
          rw [hhash]
          exact List.mem_cons_self
        · exact List.mem_cons_of_mem _ (hmem other hother otherFields hread hhash)

/-- **The second reading** has every record without a content hash. -/
theorem missingIntegrityRecords_ok {files : List RecordFile}
    (h : ∀ file ∈ files, ∃ fields, readFields file = .ok fields) :
    ∃ missing, missingIntegrityRecords files = .ok missing ∧
      ∀ file ∈ files, ∀ fields, readFields file = .ok fields → fields.hasContentHash = false →
        ⟨fields.id, fields.locator⟩ ∈ missing := by
  obtain ⟨found, hfound, hmem⟩ := mapM_missingIntegrityRecord h
  refine ⟨sortBy (fun a b => strLe a.id b.id) (found.filterMap id), ?_, ?_⟩
  · rw [missingIntegrityRecords, hfound]
    rfl
  · intro file hfile fields hread hhash
    have hperm : (sortBy (fun a b => strLe a.id b.id) (found.filterMap id)).Perm
      (found.filterMap id) := List.perm_insertionSort _ _
    exact hperm.mem_iff.mpr (List.mem_filterMap.mpr ⟨_, hmem file hfile fields hread hhash, rfl⟩)

/-! ### The two readings -/

variable {sdk : StoreSdk} {config : Config} {files : List RecordFile}

/-- Every record of a legacy store can be read. -/
theorem LegacyStore.readable (h : LegacyStore sdk files) :
    ∀ file ∈ files, ∃ fields, readFields file = .ok fields := fun file hfile =>
  (h file hfile).imp fun _ hfields => hfields.1

/-- A record with a hash decodes, with its id and locator. -/
theorem LegacyStore.decode_of_hash (h : LegacyStore sdk files) {file : RecordFile}
    (hfile : file ∈ files) {fields : MissingIntegrityFields}
    (hread : readFields file = .ok fields) (hhash : fields.hasContentHash = true) :
    ∃ record, sdk.decode file = .ok record ∧ record.id = fields.id ∧
      record.locator = fields.locator := by
  obtain ⟨others, hothers, hcases⟩ := h file hfile
  obtain rfl := Except.ok.inj (hread.symm.trans hothers)
  rcases hcases with ⟨-, hdecode⟩ | ⟨hnone, -⟩
  · exact hdecode
  · exact absurd (hhash.symm.trans hnone) Bool.false_ne_true.symm

/-- A record that does not decode lacks its hash. -/
theorem LegacyStore.message_of_error (h : LegacyStore sdk files) {file : RecordFile}
    (hfile : file ∈ files) {message : Str} (herror : sdk.decode file = .error message) :
    message = missingContentHashMessage := by
  obtain ⟨fields, -, ⟨-, record, hdecode, -⟩ | ⟨-, hdecode⟩⟩ := h file hfile
  · cases herror.symm.trans hdecode
  · exact Except.error.inj (herror.symm.trans hdecode)

/-- A store whose records all have their hash is the one that is opened. -/
theorem metadata_of_hashed (hsdk : sdk.Opens) (hfiles : LegacyStore sdk files)
    (hhashed : ∀ file ∈ files, hasContentHash file = true) :
    ∃ log, reportEvidenceMetadata sdk files = .ok ⟨log, []⟩ ∧
      ∀ file ∈ files, ∀ fields, readFields file = .ok fields →
        ∃ record ∈ log, record.id = fields.id ∧ record.locator = fields.locator := by
  have hdecodes : ∀ file ∈ files, ∀ fields, readFields file = .ok fields →
      ∃ record, sdk.decode file = .ok record ∧ record.id = fields.id ∧
        record.locator = fields.locator := fun file hfile fields hread =>
    hfiles.decode_of_hash hfile hread ((hasContentHash_of_readFields hread).symm.trans
      (hhashed file hfile))
  have hopens : ∀ file ∈ files, ∃ record, sdk.decode file = .ok record := by
    intro file hfile
    obtain ⟨fields, hread⟩ := hfiles.readable file hfile
    exact (hdecodes file hfile fields hread).imp fun _ hrecord => hrecord.1
  obtain ⟨log, hopen, hlog⟩ := hsdk.opened files hopens
  refine ⟨log, by rw [reportEvidenceMetadata, hopen], fun file hfile fields hread => ?_⟩
  obtain ⟨record, hdecode, hsame⟩ := hdecodes file hfile fields hread
  exact ⟨record, (hlog record).mpr ⟨file, hfile, hdecode⟩, hsame⟩

/-- A store with a record without a hash is read a second time. -/
theorem metadata_of_missing (hsdk : sdk.Opens) (hfiles : LegacyStore sdk files)
    (hmissing : ∃ file ∈ files, hasContentHash file = false) :
    ∃ missing, reportEvidenceMetadata sdk files = .ok ⟨[], missing⟩ ∧
      ∀ file ∈ files, ∀ fields, readFields file = .ok fields → fields.hasContentHash = false →
        ⟨fields.id, fields.locator⟩ ∈ missing := by
  obtain ⟨file, hfile, hnone⟩ := hmissing
  have herror : sdk.decode file = .error missingContentHashMessage := by
    obtain ⟨fields, hread, ⟨hhash, -⟩ | ⟨-, hdecode⟩⟩ := hfiles file hfile
    · rw [hasContentHash_of_readFields hread, hhash] at hnone
      cases hnone
    · exact hdecode
  obtain ⟨other, hother, message, hmessage, hopen⟩ := hsdk.refused files ⟨file, hfile, _, herror⟩
  obtain rfl := hfiles.message_of_error hother hmessage
  obtain ⟨missing, hread, hmem⟩ := missingIntegrityRecords_ok hfiles.readable
  refine ⟨missing, ?_, hmem⟩
  have hkind : isMissingIntegrityError (.decode other.path missingContentHashMessage) = true := by
    rw [isMissingIntegrityError]
    exact decide_eq_true rfl
  rw [reportEvidenceMetadata, hopen]
  dsimp only
  rw [if_pos hkind, hread]
  rfl

/-! ### The appendix -/

/-- A record that was opened is in the appendix. -/
theorem appendixHead_of_record {evidence : Metadata} {record : StoreRecord}
    (h : record ∈ evidence.records) :
    appendixHead record.id record.locator <:+: appendixLines evidence := by
  have hperm : (recordsOrderedByControl evidence.records).Perm evidence.records :=
    List.perm_insertionSort _ _
  have hhead : appendixHead record.id record.locator <+: integrityAppendixLines record := by
    rw [integrityAppendixLines, List.append_assoc]
    exact List.prefix_append _ _
  have hlines : integrityAppendixLines record <:+:
      (recordsOrderedByControl evidence.records).flatMap integrityAppendixLines :=
    List.infix_of_mem_flatten (List.mem_map_of_mem (hperm.mem_iff.mpr h))
  exact (hhead.isInfix.trans hlines).trans (List.prefix_append _ _).isInfix

/-- A record of the second reading is in the appendix. -/
theorem appendixHead_of_missing {evidence : Metadata} {record : MissingIntegrityRecord}
    (h : record ∈ evidence.missingIntegrity) :
    appendixHead record.id record.locator <:+: appendixLines evidence := by
  have hhead : appendixHead record.id record.locator <+: missingIntegrityAppendixLines record :=
    List.prefix_append _ _
  have hlines : missingIntegrityAppendixLines record <:+:
      evidence.missingIntegrity.flatMap missingIntegrityAppendixLines :=
    List.infix_of_mem_flatten (List.mem_map_of_mem h)
  exact (hhead.isInfix.trans hlines).trans (List.suffix_append _ _).isInfix

/-! ### When nothing is hidden -/

/-- The summary of a store without records is that of no other. -/
theorem eq_nil_of_summaryLines {records : List StoreRecord}
    (h : summaryLines config [] = summaryLines config records) : records = [] := by
  by_contra hne
  rw [summaryLines, summaryLines, if_pos rfl, if_neg hne, List.append_assoc, List.append_assoc]
    at h
  have hcounts := (List.cons.inj (List.append_cancel_left h)).1
  have hstart : startsWith "No controls".toList "No controls were evaluated".toList = true := rfl
  exact absurd hcounts (ne_of_startsWith hstart rfl)

/-- An empty store has no records. -/
theorem metadata_nil (hsdk : sdk.Opens) : reportEvidenceMetadata sdk [] = .ok ⟨[], []⟩ := by
  obtain ⟨log, hopen, hlog⟩ := hsdk.opened [] fun file hfile => absurd hfile List.not_mem_nil
  obtain rfl : log = [] := by
    refine List.eq_nil_iff_forall_not_mem.mpr fun record hrecord => ?_
    obtain ⟨file, hfile, -⟩ := (hlog record).mp hrecord
    exact List.not_mem_nil hfile
  rw [reportEvidenceMetadata, hopen]

/-- A report that hides nothing is one of records that all have a content hash, or all lack it:
of a mixed store it has no counts, which the records with a hash have alone. -/
theorem HidesNothing.uniform {evidence hashed : Metadata} (hsdk : sdk.Opens)
    (hfiles : LegacyStore sdk files) (h : HidesNothing sdk config files evidence hashed) :
    (∀ file ∈ files, hasContentHash file = true) ∨ ∀ file ∈ files, hasContentHash file = false := by
  by_contra hmixed
  obtain ⟨hsome, hother⟩ := not_or.mp hmixed
  push Not at hsome hother
  obtain ⟨file, hfile, hnone⟩ := hsome
  obtain ⟨other, hother, hhash⟩ := hother
  obtain ⟨missing, hread, -⟩ := metadata_of_missing hsdk hfiles
    ⟨file, hfile, Bool.eq_false_iff.mpr hnone⟩
  obtain rfl := Except.ok.inj (hread.symm.trans h.read)
  have hsub : ∀ file ∈ files.filter hasContentHash, file ∈ files ∧ hasContentHash file = true :=
    fun file hfile => List.mem_filter.mp hfile
  obtain ⟨log, hreadHashed, hlog⟩ := metadata_of_hashed hsdk
    (fun file hfile => hfiles file (hsub file hfile).1) fun file hfile => (hsub file hfile).2
  obtain rfl := Except.ok.inj (hreadHashed.symm.trans h.readHashed)
  -- both stores have the counts of no records, but one has the record of `other`
  obtain rfl : log = [] := eq_nil_of_summaryLines h.counts
  have hmem := List.mem_filter.mpr ⟨hother, Bool.ne_false_iff.mp hhash⟩
  obtain ⟨fields, hfields⟩ := hfiles.readable other hother
  obtain ⟨record, hrecord, -⟩ := hlog other hmem fields hfields
  exact List.not_mem_nil hrecord

/-- Nothing is hidden of records that all have a content hash. -/
theorem hidesNothing_of_hashed (hsdk : sdk.Opens) (hfiles : LegacyStore sdk files)
    (hhashed : ∀ file ∈ files, hasContentHash file = true) :
    ∃ evidence hashed, HidesNothing sdk config files evidence hashed := by
  obtain ⟨log, hread, hlog⟩ := metadata_of_hashed hsdk hfiles hhashed
  have hfilter : files.filter hasContentHash = files := List.filter_eq_self.mpr hhashed
  refine ⟨⟨log, []⟩, ⟨log, []⟩, hread, hfilter.symm ▸ hread, ?_, rfl, rfl⟩
  intro file hfile fields hfields
  obtain ⟨record, hrecord, hid, hlocator⟩ := hlog file hfile fields hfields
  rw [← hid, ← hlocator]
  exact appendixHead_of_record hrecord

/-- Nothing is hidden of records that all lack their content hash. -/
theorem hidesNothing_of_missing (hsdk : sdk.Opens) (hfiles : LegacyStore sdk files)
    (hnone : ∀ file ∈ files, hasContentHash file = false) (hempty : files ≠ []) :
    ∃ evidence hashed, HidesNothing sdk config files evidence hashed := by
  obtain ⟨first, hfirst⟩ := List.exists_mem_of_ne_nil files hempty
  obtain ⟨missing, hread, hmem⟩ := metadata_of_missing hsdk hfiles
    ⟨first, hfirst, hnone first hfirst⟩
  have hfilter : files.filter hasContentHash = [] :=
    List.filter_eq_nil_iff.mpr fun file hfile => Bool.eq_false_iff.mp (hnone file hfile)
  refine ⟨⟨[], missing⟩, ⟨[], []⟩, hread, hfilter.symm ▸ metadata_nil hsdk, ?_, rfl, rfl⟩
  intro file hfile fields hfields
  have hhash := (hasContentHash_of_readFields hfields).symm.trans (hnone file hfile)
  have hmissing : ⟨fields.id, fields.locator⟩ ∈ (Metadata.mk [] missing).missingIntegrity :=
    hmem file hfile fields hfields hhash
  exact appendixHead_of_missing hmissing

/-- **A report hides nothing** of a legacy store exactly if all records have a content hash, or
none has. -/
theorem missing_hash_iff (hsdk : sdk.Opens) (hfiles : LegacyStore sdk files) (config : Config) :
    (∃ evidence hashed, HidesNothing sdk config files evidence hashed) ↔
      (∀ file ∈ files, hasContentHash file = true) ∨
        (∀ file ∈ files, hasContentHash file = false) := by
  constructor
  · rintro ⟨evidence, hashed, h⟩
    exact h.uniform hsdk hfiles
  · rintro (hhashed | hnone)
    · exact hidesNothing_of_hashed hsdk hfiles hhashed
    · by_cases hempty : files = []
      · have hnil : ∀ file ∈ files, hasContentHash file = true := by
          rw [hempty]
          exact fun file hfile => absurd hfile List.not_mem_nil
        exact hidesNothing_of_hashed hsdk hfiles hnil
      · exact hidesNothing_of_missing hsdk hfiles hnone hempty

/-! ### A hidden record -/

/-- Opens a store file by file, up to the first that does not decode. -/
def openFiles (decode : RecordFile → Except Str StoreRecord) :
    List RecordFile → Except StoreError (List StoreRecord)
  | [] => .ok []
  | file :: files =>
      match decode file with
      | .ok record => (openFiles decode files).map (record :: ·)
      | .error message => .error (.decode file.path message)

/-- An SDK that opens its stores file by file. -/
theorem opens_openFiles (decode : RecordFile → Except Str StoreRecord) :
    StoreSdk.Opens ⟨decode, openFiles decode⟩ where
  opened files := by
    induction files with
    | nil => exact fun _ => ⟨[], rfl, fun record => iff_of_false List.not_mem_nil (by simp)⟩
    | cons file files ih =>
        intro hfiles
        obtain ⟨record, hrecord⟩ := hfiles file List.mem_cons_self
        obtain ⟨log, hopen, hlog⟩ := ih fun other hother =>
          hfiles other (List.mem_cons_of_mem _ hother)
        refine ⟨record :: log, ?_, fun other => ?_⟩
        · change openFiles decode files = .ok log at hopen
          change openFiles decode (file :: files) = _
          rw [openFiles, show decode file = .ok record from hrecord, hopen]
          rfl
        · rw [List.mem_cons, hlog, List.exists_mem_cons_iff]
          change _ ↔ decode file = .ok other ∨ _
          rw [show decode file = .ok record from hrecord, Except.ok.injEq, eq_comm]
  refused files := by
    induction files with
    | nil =>
        rintro ⟨file, hfile, -⟩
        exact absurd hfile List.not_mem_nil
    | cons file files ih =>
        rintro ⟨bad, hbad, message, herror⟩
        change ∃ file' ∈ file :: files, ∃ message, decode file' = .error message ∧
          openFiles decode (file :: files) = .error (.decode file'.path message)
        cases hdecode : decode file with
        | error reason =>
            refine ⟨file, List.mem_cons_self, reason, hdecode, ?_⟩
            rw [openFiles, hdecode]
        | ok record =>
            have hrest : bad ∈ files := by
              rcases List.mem_cons.mp hbad with rfl | hrest
              · cases hdecode.symm.trans herror
              · exact hrest
            obtain ⟨other, hother, reason, hreason, hopen⟩ := ih ⟨bad, hrest, message, herror⟩
            change openFiles decode files = _ at hopen
            refine ⟨other, List.mem_cons_of_mem _ hother, reason, hreason, ?_⟩
            rw [openFiles, hdecode, hopen]
            rfl

/-- A record without a signal. -/
def plainRecord (fields : MissingIntegrityFields) : StoreRecord where
  id := fields.id
  kind := "route-build".toList
  locator := fields.locator
  key := none
  classification := none
  signal := none
  controlId := none
  contentHash := "sha256:00".toList

/-- A decoder of such records, by the fields of the second reading. -/
def plainDecode (file : RecordFile) : Except Str StoreRecord :=
  match readFields file with
  | .ok fields =>
      if fields.hasContentHash then .ok (plainRecord fields)
      else .error missingContentHashMessage
  | .error _ => .error "missing or unknown record header".toList

/-- An SDK that decodes so. -/
def plainSdk : StoreSdk :=
  ⟨plainDecode, openFiles plainDecode⟩

/-- Files that can be read are a legacy store of that SDK. -/
theorem legacyStore_plainSdk (hread : ∀ file ∈ files, ∃ fields, readFields file = .ok fields) :
    LegacyStore plainSdk files := by
  intro file hfile
  obtain ⟨fields, hfields⟩ := hread file hfile
  refine ⟨fields, hfields, ?_⟩
  have hdecode : plainSdk.decode file = if fields.hasContentHash then .ok (plainRecord fields)
      else .error missingContentHashMessage := by
    change plainDecode file = _
    rw [plainDecode, hfields]
  rw [hdecode]
  cases fields.hasContentHash with
  | true => exact .inl ⟨rfl, _, rfl, rfl, rfl⟩
  | false => exact .inr ⟨rfl, rfl⟩

/-- A record file with a content hash. -/
def hashedFile : RecordFile :=
  ⟨"objects/00/a.rec".toList, .ok ("format\tevidence-record-v1\nid\tev-0001\n".toList ++
    "kind\troute-build\nlocator\tdist/main.js\ncontent-hash\tsha256:00\n".toList)⟩

/-- A record file without one. -/
def unhashedFile : RecordFile :=
  ⟨"objects/00/b.rec".toList, .ok ("format\tevidence-record-v1\nid\tev-0003\n".toList ++
    "kind\troute-build\nlocator\tdist/main.js\n".toList)⟩

/-- What a report of them is made with. -/
def legacyConfig : Config :=
  ⟨"run-1".toList, "2026-06-24T13:16:28Z".toList, "0.0%".toList⟩

theorem readFields_hashedFile :
    readFields hashedFile = .ok ⟨"ev-0001".toList, "dist/main.js".toList, true⟩ := by
  decide

theorem readFields_unhashedFile :
    readFields unhashedFile = .ok ⟨"ev-0003".toList, "dist/main.js".toList, false⟩ := by
  decide

theorem missing_hash_iff_hashed :
    (∃ evidence hashed, HidesNothing plainSdk legacyConfig [hashedFile] evidence hashed) ↔
      (∀ file ∈ [hashedFile], hasContentHash file = true) ∨
        (∀ file ∈ [hashedFile], hasContentHash file = false) :=
  missing_hash_iff (opens_openFiles plainDecode)
    (legacyStore_plainSdk (List.forall_mem_singleton.mpr ⟨_, readFields_hashedFile⟩)) legacyConfig

/-- The record with a hash is hidden by the one without. -/
theorem missing_hash_hides :
    ¬ ∀ (sdk : StoreSdk) (config : Config) (files : List RecordFile), sdk.Opens →
      LegacyStore sdk files → ∃ evidence hashed, HidesNothing sdk config files evidence hashed := by
  intro h
  have hfiles : LegacyStore plainSdk [hashedFile, unhashedFile] := by
    refine legacyStore_plainSdk ?_
    simp only [List.forall_mem_cons]
    exact ⟨⟨_, readFields_hashedFile⟩, ⟨_, readFields_unhashedFile⟩, List.forall_mem_nil _⟩
  obtain ⟨evidence, hashed, hnothing⟩ := h plainSdk legacyConfig [hashedFile, unhashedFile]
    (opens_openFiles plainDecode) hfiles
  have hhashed := hasContentHash_of_readFields readFields_hashedFile
  have hunhashed := hasContentHash_of_readFields readFields_unhashedFile
  rcases hnothing.uniform (opens_openFiles plainDecode) hfiles with hall | hnone
  · have htrue := hall unhashedFile (List.mem_cons_of_mem _ (List.mem_singleton_self _))
    cases hunhashed.symm.trans htrue
  · have hfalse := hnone hashedFile List.mem_cons_self
    cases hhashed.symm.trans hfalse

end EvidenceReport

end SovriAgent
