import SovriAgent.Blocks
import SovriAgent.Report
import SovriAgent.ReportAgreement

/-!
# What a Report Shows of a Store

The report is a list of lines without quotes or separators, and the lines of a record vary in
number: a record may have no control, no signal, and no mark of redaction. Every line still has
a prefix of its own, so the lines of a list of records delimit themselves, and a report can be
read back. What can be read of it is what it shows of the store.

The report sorts the records by control and id. Records that agree on both are shown in the
order they were stored in, so the order of storage is seen in a report exactly where such
records are shown differently.

## Main results

* `reports_agree_iff`: two reports are the same where they show the same.
* `report_order_independent_iff`: the stores whose report is the same in every order of storage.
-/

namespace SovriAgent

namespace EvidenceReport

open Blocks

/-! ### What is shown -/

/-- What a report shows of a record. -/
structure Shown where
  id : Str
  controlId : Option Str
  locator : Str
  signal : Option Str
  contentHash : Str
  kind : Str
  redacted : Bool
deriving DecidableEq

/-- What the lines of a record show. -/
def shown (record : StoreRecord) : Shown where
  id := record.id
  controlId := record.controlId
  locator := record.locator
  signal := record.signal
  contentHash := record.contentHash
  kind := evidenceKindLabel record
  redacted := evidenceRequiresRedaction record

/-- The reports of two stores show the same: the score only counts where there are records. -/
structure ShowSame (config config' : Config) (evidence evidence' : Metadata) : Prop where
  runId : config.runId = config'.runId
  executedAt : config.executedAt = config'.executedAt
  frameworkScore : evidence.records ≠ [] → config.frameworkScore = config'.frameworkScore
  records : (recordsOrderedByControl evidence.records).map shown =
    (recordsOrderedByControl evidence'.records).map shown
  missingIntegrity : evidence.missingIntegrity = evidence'.missingIntegrity

/-! ### The order of the records -/

/-- The columns the records are sorted by. -/
def recordColumns : List (StoreRecord → Str) :=
  [fun record => frameworkKey record.controlId, (·.id)]

/-- The columns of what is shown of them. -/
def shownColumns : List (Shown → Str) :=
  [fun record => frameworkKey record.controlId, (·.id)]

/-- Records are compared by their columns. -/
theorem recordLe_eq : recordLe = lexLe recordColumns := by
  funext a b
  rw [recordLe, recordColumns, lexLe, lexLe, lexLe, optionLe_eq]
  by_cases hcontrol : a.controlId = b.controlId
  · rw [if_pos hcontrol, hcontrol, if_pos rfl]
    split
    · next hid => rw [hid, strLe_refl]
    · rfl
  · have hkey : frameworkKey a.controlId ≠ frameworkKey b.controlId :=
      fun h => hcontrol (frameworkKey_injective h)
    rw [if_neg hcontrol, if_neg hkey, if_neg hkey]

/-- The order of a report is that of some columns. -/
theorem recordsOrderedByControl_eq (records : List StoreRecord) :
    recordsOrderedByControl records = orderBy recordColumns records := by
  rw [recordsOrderedByControl, recordLe_eq, orderBy]

/-- Ordering keeps the records. -/
theorem recordsOrderedByControl_perm (records : List StoreRecord) :
    (recordsOrderedByControl records).Perm records := by
  rw [recordsOrderedByControl_eq]
  exact orderBy_perm _ _

/-! ### The lines of what is shown -/

variable {a b : StoreRecord} {records records' : List StoreRecord}

/-- What the counts, the control matrix and the gaps are made of. -/
def concluded (record : StoreRecord) : Option Str × Option Str :=
  (record.controlId, record.signal)

/-- What is concluded from a record is shown of it. -/
theorem concluded_of_shown (h : shown a = shown b) : concluded a = concluded b :=
  congrArg₂ Prod.mk (congrArg Shown.controlId h) (congrArg Shown.signal h)

theorem nonConclusiveRecordStatus_congr (h : concluded a = concluded b) :
    nonConclusiveRecordStatus a = nonConclusiveRecordStatus b := by
  obtain ⟨hcontrol, hsignal⟩ := Prod.mk.inj h
  rw [nonConclusiveRecordStatus, nonConclusiveRecordStatus, hcontrol, hsignal]

/-- Records with the same conclusions count alike. -/
theorem recordCount_congr (h : concluded a = concluded b) (status : Status) :
    recordCount a status = recordCount b status := by
  obtain ⟨hcontrol, hsignal⟩ := Prod.mk.inj h
  rw [recordCount, recordCount, appendRecordResultCounts, appendRecordResultCounts,
    nonConclusiveRecordStatus_congr h, hcontrol, hsignal]

/-- Records with the same conclusions are summarised alike. -/
theorem potentialGapSummary_congr (h : concluded a = concluded b) :
    potentialGapSummary a = potentialGapSummary b := by
  obtain ⟨hcontrol, hsignal⟩ := Prod.mk.inj h
  rw [potentialGapSummary, potentialGapSummary, hcontrol, hsignal]

section SameView

variable {γ δ : Type} {view : StoreRecord → γ}
  (h : (recordsOrderedByControl records).map view = (recordsOrderedByControl records').map view)

include h

/-- A view of the records determines what is made of the view of each. -/
theorem map_congr_view {f : StoreRecord → δ} (hf : ∀ a b, view a = view b → f a = f b) :
    (recordsOrderedByControl records).map f = (recordsOrderedByControl records').map f :=
  map_eq_of_views (fun a b hab _ => hf a b hab) h h

/-- Lines that depend on the view of a record alone. -/
theorem flatMap_congr_view {f : StoreRecord → List δ} (hf : ∀ a b, view a = view b → f a = f b) :
    (recordsOrderedByControl records).flatMap f = (recordsOrderedByControl records').flatMap f := by
  rw [List.flatMap_def, List.flatMap_def, map_congr_view h hf]

/-- Lines of some records that depend on their view alone. -/
theorem filterMap_congr_view {f : StoreRecord → Option δ}
    (hf : ∀ a b, view a = view b → f a = f b) :
    (recordsOrderedByControl records).filterMap f =
      (recordsOrderedByControl records').filterMap f := by
  have hmap := congrArg (List.filterMap id) (map_congr_view h hf)
  rwa [List.filterMap_map, List.filterMap_map] at hmap

/-- Stores with the same views have equally many records. -/
theorem length_congr_view : records.length = records'.length := by
  have hlength := congrArg List.length h
  rwa [List.length_map, List.length_map, (recordsOrderedByControl_perm records).length_eq,
    (recordsOrderedByControl_perm records').length_eq] at hlength

/-- Stores with the same views are both empty, or none is. -/
theorem eq_nil_congr_view : records = [] ↔ records' = [] := by
  rw [← List.length_eq_zero_iff, length_congr_view h, List.length_eq_zero_iff]

/-- Stores with the same views count alike. -/
theorem countP_congr_view {p : StoreRecord → Bool} (hp : ∀ a b, view a = view b → p a = p b) :
    records.countP p = records'.countP p := by
  have hcount := congrArg (List.countP id) (map_congr_view h hp)
  rw [List.countP_map, List.countP_map] at hcount
  rw [← (recordsOrderedByControl_perm records).countP_eq,
    ← (recordsOrderedByControl_perm records').countP_eq]
  exact hcount

end SameView

section SameConcluded

variable (h : (recordsOrderedByControl records).map concluded =
  (recordsOrderedByControl records').map concluded)

include h

/-- The counts of results depend on the views alone. -/
theorem resultCounts_congr : resultCounts records = resultCounts records' := by
  have hcount : ∀ status, (resultCounts records).count status =
      (resultCounts records').count status := by
    intro status
    have hsum := congrArg List.sum
      (map_congr_view h fun a b hab => recordCount_congr hab status)
    rw [count_resultCounts, count_resultCounts,
      ← ((recordsOrderedByControl_perm records).map _).sum_eq,
      ← ((recordsOrderedByControl_perm records').map _).sum_eq]
    exact hsum
  cases hcounts : resultCounts records
  cases hcounts' : resultCounts records'
  rw [hcounts, hcounts'] at hcount
  exact congr (congr (congr (congrArg₂ ResultCounts.mk (hcount .fail) (hcount .pass))
    (hcount .warning)) (hcount .skipped)) (hcount .error)

/-- The count of errors depends on the views alone. -/
theorem errorControlCount_congr : errorControlCount records = errorControlCount records' := by
  rw [errorControlCount, errorControlCount, ← List.countP_eq_length_filter,
    ← List.countP_eq_length_filter]
  refine countP_congr_view h fun a b hab => ?_
  rw [nonConclusiveRecordStatus_congr hab]

/-- The lines of the matrix depend on the views alone. -/
theorem matrixLines_congr : matrixLines records = matrixLines records' := by
  have hwarning : (records.any fun record => record.signal = some warningReason) =
      records'.any fun record => record.signal = some warningReason := by
    have hcount := countP_congr_view h (p := fun record => record.signal = some warningReason)
      fun a b hab => by rw [(Prod.mk.inj hab).2]
    rw [Bool.eq_iff_iff, List.any_eq_true, List.any_eq_true, ← List.countP_pos_iff, hcount,
      List.countP_pos_iff]
  rw [matrixLines, matrixLines, hwarning,
    filterMap_congr_view h fun a b => nonConclusiveRecordStatus_congr]

/-- The lines of the gaps depend on the views alone. -/
theorem gapLines_congr : gapLines records = gapLines records' := by
  have hgaps : potentialGaps records = potentialGaps records' :=
    filterMap_congr_view h fun a b => potentialGapSummary_congr
  rw [gapLines, gapLines, hgaps]

end SameConcluded

/-! ### The lines of a report, read back -/

/-- The lines of a record before the control matrix. -/
def evidenceBlock (record : StoreRecord) : List Str :=
  ["Evidence: ".toList ++ record.id] ++
    (record.controlId.map ("  Control: ".toList ++ ·)).toList ++
    ["  Locator: ".toList ++ record.locator] ++
    (record.signal.map ("  Signal: ".toList ++ ·)).toList ++
    ["  Integrity: ".toList ++ record.contentHash]

/-- The line of a record that is redacted. -/
def redactedLine : Str :=
  "  Redacted: yes".toList

/-- The lines of a record in the evidence summary. -/
def summaryBlock (record : StoreRecord) : List Str :=
  ["Evidence: ".toList ++ record.id,
    "  Kind: ".toList ++ evidenceKindLabel record,
    "  Locator: ".toList ++ record.locator,
    "  Integrity: ".toList ++ record.contentHash] ++
  (if evidenceRequiresRedaction record then [redactedLine] else [])

/-- An optional line is told apart from the line after it. -/
theorem option_lines_inj {p q : Str} (hdiffer : (p.zip q).any (fun c => c.1 != c.2) = true)
    {s s' : Option Str} {t t' : Str} {rest rest' : List Str}
    (h : (s.map (p ++ ·)).toList ++ (q ++ t) :: rest =
      (s'.map (p ++ ·)).toList ++ (q ++ t') :: rest') : s = s' ∧ t = t' ∧ rest = rest' := by
  cases s with
  | none =>
      cases s' with
      | none =>
          obtain ⟨hline, hrest⟩ := List.cons.inj h
          exact ⟨rfl, List.append_cancel_left hline, hrest⟩
      | some s' => exact absurd (List.cons.inj h).1.symm (append_ne_append hdiffer s' t)
  | some s =>
      cases s' with
      | none => exact absurd (List.cons.inj h).1 (append_ne_append hdiffer s t')
      | some s' =>
          obtain ⟨hfirst, htail⟩ := List.cons.inj h
          obtain ⟨hline, hrest⟩ := List.cons.inj htail
          rw [List.append_cancel_left hfirst]
          exact ⟨rfl, List.append_cancel_left hline, hrest⟩

/-- **The lines of a record** before the control matrix delimit themselves. -/
theorem selfDelimiting_evidenceBlock : SelfDelimiting evidenceBlock
    (fun record => (record.id, record.controlId, record.locator, record.signal,
      record.contentHash)) (fun _ => True) where
  follows_block _ _ := trivial
  decode {a b rest rest'} _ _ h := by
    simp only [evidenceBlock, List.append_assoc, List.cons_append, List.nil_append] at h
    obtain ⟨hid, h⟩ := List.cons.inj h
    obtain ⟨hcontrol, hlocator, h⟩ := option_lines_inj rfl h
    obtain ⟨hsignal, hhash, hrest⟩ := option_lines_inj rfl h
    exact ⟨by rw [List.append_cancel_left hid, hcontrol, hlocator, hsignal, hhash], hrest⟩

/-- **The lines of a record in the evidence summary** delimit themselves, where what follows
them is no mark of redaction. -/
theorem selfDelimiting_summaryBlock : SelfDelimiting summaryBlock
    (fun record => (evidenceKindLabel record, evidenceRequiresRedaction record))
    (fun rest => rest.head? ≠ some redactedLine) where
  follows_block a rest h := append_ne rfl a.id (Option.some.inj h)
  decode {a b rest rest'} hrest hrest' h := by
    simp only [summaryBlock, List.cons_append, List.nil_append,
      List.cons.injEq, List.append_cancel_left_eq] at h
    obtain ⟨-, hkind, -, -, h⟩ := h
    cases ha : evidenceRequiresRedaction a <;> cases hb : evidenceRequiresRedaction b <;>
      simp only [ha, hb, if_true, if_false, Bool.false_eq_true, List.cons_append,
        List.nil_append] at h
    · exact ⟨by rw [hkind], h⟩
    · rw [h] at hrest
      exact absurd rfl hrest
    · rw [← h] at hrest'
      exact absurd rfl hrest'
    · exact ⟨by rw [hkind], (List.cons.inj h).2⟩

/-- **The lines of the records without a content hash** delimit themselves. -/
theorem selfDelimiting_missing : SelfDelimiting missingIntegrityAppendixLines id
    (fun _ => True) where
  follows_block _ _ := trivial
  decode {a b rest rest'} _ _ h := by
    simp only [missingIntegrityAppendixLines, appendixHead, List.cons_append, List.nil_append,
      List.cons.injEq, List.append_cancel_left_eq] at h
    obtain ⟨hid, hlocator, -, hrest⟩ := h
    cases a
    cases b
    exact ⟨congrArg₂ MissingIntegrityRecord.mk hid hlocator, hrest⟩

theorem incompleteResultsLine_starts (n : ℕ) :
    ∃ s, incompleteResultsLine n = "Results incomplete: ".toList ++ s := by
  refine ⟨decimal n ++ (' ' ::
    (if n = 1 then "control".toList else "controls".toList) ++ " errored".toList), ?_⟩
  unfold incompleteResultsLine
  generalize "Results incomplete: ".toList = text
  simp only [List.append_assoc]

theorem incompleteResultsLine_ne (n : ℕ) :
    incompleteResultsLine n ≠ Section.frameworkCoverage.heading := by
  obtain ⟨s, hs⟩ := incompleteResultsLine_starts n
  rw [hs]
  exact append_ne rfl s

/-- **The executive summary** and what follows it are told apart: the runs are named and dated
the same, and both stores have records or neither has. -/
theorem summaryLines_append_inj {config config' : Config} {rest rest' : List Str}
    (h : summaryLines config records ++ Section.frameworkCoverage.heading :: rest =
      summaryLines config' records' ++ Section.frameworkCoverage.heading :: rest') :
    config.runId = config'.runId ∧ config.executedAt = config'.executedAt ∧
      (records = [] ↔ records' = []) ∧ rest = rest' := by
  have herrors : ∀ {first first' : Str},
      first :: ((if 0 < errorControlCount records then
        [incompleteResultsLine (errorControlCount records)] else []) ++
          Section.frameworkCoverage.heading :: rest) =
      first' :: ((if 0 < errorControlCount records' then
        [incompleteResultsLine (errorControlCount records')] else []) ++
          Section.frameworkCoverage.heading :: rest') → rest = rest' := by
    intro first first' h
    have htail := (List.cons.inj h).2
    split_ifs at htail
    · exact (List.cons.inj (List.cons.inj htail).2).2
    · exact absurd (List.cons.inj htail).1 (incompleteResultsLine_ne _)
    · exact absurd (List.cons.inj htail).1.symm (incompleteResultsLine_ne _)
    · exact (List.cons.inj htail).2
  have hcounted : ∀ counts : Str,
      "Result counts: ".toList ++ counts ≠ "No controls were evaluated".toList :=
    append_ne rfl
  simp only [summaryLines, List.append_assoc, List.cons_append, List.nil_append, List.cons.injEq,
    List.append_cancel_left_eq] at h
  obtain ⟨hrun, -, -, hdate, -, h⟩ := h
  refine ⟨hrun, hdate, ?_⟩
  by_cases hnil : records = [] <;> by_cases hnil' : records' = []
  · rw [if_pos hnil, if_pos hnil'] at h
    exact ⟨iff_of_true hnil hnil', herrors h⟩
  · rw [if_pos hnil, if_neg hnil'] at h
    exact absurd (List.cons.inj h).1.symm (hcounted _)
  · rw [if_neg hnil, if_pos hnil'] at h
    exact absurd (List.cons.inj h).1 (hcounted _)
  · rw [if_neg hnil, if_neg hnil'] at h
    exact ⟨iff_of_false hnil hnil', herrors h⟩

/-- The scores of stores that both have records, or neither, are told apart. -/
theorem scoreLines_append_inj {config config' : Config} {rest rest' : List Str}
    (hnil : records = [] ↔ records' = [])
    (h : scoreLines config records ++ rest = scoreLines config' records' ++ rest') :
    (records ≠ [] → config.frameworkScore = config'.frameworkScore) ∧ rest = rest' := by
  rw [scoreLines, scoreLines] at h
  by_cases hrecords : records = []
  · rw [if_pos hrecords, if_pos (hnil.mp hrecords)] at h
    exact ⟨fun hne => absurd hrecords hne, (List.cons.inj h).2⟩
  · rw [if_neg hrecords, if_neg fun hrecords' => hrecords (hnil.mpr hrecords')] at h
    simp only [List.cons_append, List.nil_append, List.cons.injEq, true_and,
      List.append_cancel_left_eq] at h
    exact ⟨fun _ => h.1, h.2⟩

/-- The evidence summary, with the lines of each record as a block. -/
theorem evidenceSummaryLines_eq (records : List StoreRecord) :
    evidenceSummaryLines records =
      ("Evidence records: ".toList ++ decimal records.length) ::
        if records = [] then ["No evidence records were collected".toList]
        else (recordsOrderedByControl records).flatMap summaryBlock :=
  rfl

/-- The evidence summary is told apart. -/
theorem evidenceSummaryLines_append_inj {rest rest' : List Str}
    (hnil : records = [] ↔ records' = [])
    (h : evidenceSummaryLines records ++ Section.evidenceAppendix.heading :: rest =
      evidenceSummaryLines records' ++ Section.evidenceAppendix.heading :: rest') :
    (recordsOrderedByControl records).map
        (fun record => (evidenceKindLabel record, evidenceRequiresRedaction record)) =
      (recordsOrderedByControl records').map
        (fun record => (evidenceKindLabel record, evidenceRequiresRedaction record)) ∧
    rest = rest' := by
  have hends : ∀ rest, EndsBlocks summaryBlock (fun rest => rest.head? ≠ some redactedLine)
      (Section.evidenceAppendix.heading :: rest) := by
    intro rest
    have hheading : Section.evidenceAppendix.heading ≠ redactedLine := by decide
    refine ⟨fun heq => hheading (Option.some.inj heq), fun a more heq => ?_⟩
    exact append_ne rfl a.id (List.cons.inj heq).1
  by_cases hrecords : records = []
  · rw [hrecords, hnil.mp hrecords] at h ⊢
    exact ⟨rfl, (List.cons.inj (List.append_cancel_left h)).2⟩
  · rw [evidenceSummaryLines_eq, evidenceSummaryLines_eq, if_neg hrecords,
      if_neg fun hrecords' => hrecords (hnil.mpr hrecords'), List.cons_append,
      List.cons_append] at h
    obtain ⟨hviews, hrest⟩ := selfDelimiting_summaryBlock.flatMap_append_inj (hends rest)
      (hends rest') (List.cons.inj h).2
    exact ⟨hviews, (List.cons.inj hrest).2⟩

/-- The report, section by section. -/
theorem executeLines_eq (config : Config) (evidence : Metadata) :
    executeLines config evidence =
      "Sovri PDF compliance report".toList :: Section.executiveSummary.heading ::
        (summaryLines config evidence.records ++ Section.frameworkCoverage.heading ::
          Section.scores.heading :: (scoreLines config evidence.records ++
            (evidenceLines evidence.records ++ Section.controlMatrix.heading ::
              (matrixLines evidence.records ++ Section.gaps.heading ::
                (gapLines evidence.records ++ Section.evidenceSummary.heading ::
                  (evidenceSummaryLines evidence.records ++ Section.evidenceAppendix.heading ::
                    ((recordsOrderedByControl evidence.records).flatMap integrityAppendixLines ++
                      (evidence.missingIntegrity.flatMap missingIntegrityAppendixLines ++
                        [Section.remediation.heading])))))))) := by
  simp only [executeLines, requiredSections, sectionLines, appendixLines, List.flatMap_cons,
    List.flatMap_nil, reduceCtorEq, if_false, if_true, List.nil_append, List.append_nil,
    List.append_assoc, List.cons_append]

/-- The appendix is told apart from what is shown of the records it lists. -/
theorem integrityAppendix_congr {evidence evidence' : Metadata}
    (h : (recordsOrderedByControl evidence.records).map shown =
      (recordsOrderedByControl evidence'.records).map shown) :
    (recordsOrderedByControl evidence.records).flatMap integrityAppendixLines =
      (recordsOrderedByControl evidence'.records).flatMap integrityAppendixLines := by
  refine flatMap_congr_view h fun a b hab => ?_
  simp only [shown, Shown.mk.injEq] at hab
  obtain ⟨hid, hcontrol, hlocator, hsignal, hhash, hkind, hredacted⟩ := hab
  rw [integrityAppendixLines, integrityAppendixLines, hid, hlocator, hhash]

/-- A report shows what it is made of. -/
theorem ShowSame.of_executeLines_eq {config config' : Config} {evidence evidence' : Metadata}
    (h : executeLines config evidence = executeLines config' evidence') :
    ShowSame config config' evidence evidence' := by
  rw [executeLines_eq, executeLines_eq] at h
  have hsummary := (List.cons.inj (List.cons.inj h).2).2
  obtain ⟨hrun, hdate, hnil, hscores⟩ := summaryLines_append_inj hsummary
  obtain ⟨hscore, hevidence⟩ := scoreLines_append_inj hnil (List.cons.inj hscores).2
  have hends : ∀ rest, EndsBlocks evidenceBlock (fun _ => True)
      (Section.controlMatrix.heading :: rest) := by
    refine fun rest => ⟨trivial, fun a more heq => ?_⟩
    exact append_ne rfl a.id (List.cons.inj heq).1
  obtain ⟨hlocated, hmatrix⟩ := selfDelimiting_evidenceBlock.flatMap_append_inj (hends _)
    (hends _) hevidence
  have hconcluded : (recordsOrderedByControl evidence.records).map concluded =
      (recordsOrderedByControl evidence'.records).map concluded := by
    refine map_congr_view hlocated fun a b hab => ?_
    simp only [Prod.mk.injEq] at hab
    obtain ⟨-, hcontrol, -, hsignal, -⟩ := hab
    rw [concluded, concluded, hcontrol, hsignal]
  -- The matrix and the gaps are made of controls and signals, which were just read.
  have hgaps := List.cons.inj hmatrix
  rw [matrixLines_congr hconcluded] at hgaps
  have hsummaries := (List.cons.inj (List.append_cancel_left hgaps.2)).2
  rw [gapLines_congr hconcluded] at hsummaries
  obtain ⟨hmarked, happendix⟩ := evidenceSummaryLines_append_inj hnil
    (List.cons.inj (List.append_cancel_left hsummaries)).2
  have hshown : (recordsOrderedByControl evidence.records).map shown =
      (recordsOrderedByControl evidence'.records).map shown := by
    refine map_eq_of_views (fun a b hab hmark => ?_) hlocated hmarked
    simp only [Prod.mk.injEq] at hab hmark
    obtain ⟨hid, hcontrol, hlocator, hsignal, hhash⟩ := hab
    rw [shown, shown, hid, hcontrol, hlocator, hsignal, hhash, hmark.1, hmark.2]
  rw [integrityAppendix_congr hshown] at happendix
  have hremediation : EndsBlocks missingIntegrityAppendixLines (fun _ => True)
      [Section.remediation.heading] := by
    refine ⟨trivial, fun a more heq => ?_⟩
    exact append_ne rfl a.id (List.cons.inj heq).1
  have hmissing := (selfDelimiting_missing.flatMap_append_inj hremediation hremediation
    (List.append_cancel_left happendix)).1
  rw [List.map_id, List.map_id] at hmissing
  exact ⟨hrun, hdate, hscore, hshown, hmissing⟩

/-- Reports that show the same are the same. -/
theorem ShowSame.executeLines_eq {config config' : Config} {evidence evidence' : Metadata}
    (h : ShowSame config config' evidence evidence') :
    executeLines config evidence = executeLines config' evidence' := by
  have hconcluded : (recordsOrderedByControl evidence.records).map concluded =
      (recordsOrderedByControl evidence'.records).map concluded :=
    map_congr_view h.records fun a b => concluded_of_shown
  have hnil := eq_nil_congr_view h.records
  have hsummary : summaryLines config evidence.records =
      summaryLines config' evidence'.records := by
    rw [summaryLines, summaryLines, h.runId, h.executedAt, executiveResultCounts,
      executiveResultCounts, resultCounts_congr hconcluded, errorControlCount_congr hconcluded]
    simp only [hnil]
  have hscores : scoreLines config evidence.records = scoreLines config' evidence'.records := by
    rw [scoreLines, scoreLines]
    by_cases hrecords : evidence.records = []
    · rw [if_pos hrecords, if_pos (hnil.mp hrecords)]
    · rw [if_neg hrecords, if_neg fun hrecords' => hrecords (hnil.mpr hrecords'),
        h.frameworkScore hrecords]
  have hevidence : evidenceLines evidence.records = evidenceLines evidence'.records := by
    refine flatMap_congr_view h.records fun a b hab => ?_
    simp only [shown, Shown.mk.injEq] at hab
    obtain ⟨hid, hcontrol, hlocator, hsignal, hhash, hkind, hredacted⟩ := hab
    rw [hid, hcontrol, hlocator, hsignal, hhash]
  have hsummaries : evidenceSummaryLines evidence.records =
      evidenceSummaryLines evidence'.records := by
    have hblocks : (recordsOrderedByControl evidence.records).flatMap summaryBlock =
        (recordsOrderedByControl evidence'.records).flatMap summaryBlock := by
      refine flatMap_congr_view h.records fun a b hab => ?_
      simp only [shown, Shown.mk.injEq] at hab
      obtain ⟨hid, hcontrol, hlocator, hsignal, hhash, hkind, hredacted⟩ := hab
      rw [summaryBlock, summaryBlock, hid, hlocator, hhash, hkind, hredacted]
    rw [evidenceSummaryLines_eq, evidenceSummaryLines_eq, hblocks, length_congr_view h.records]
    simp only [hnil]
  rw [EvidenceReport.executeLines_eq, EvidenceReport.executeLines_eq, hsummary, hscores,
    hevidence, matrixLines_congr hconcluded, gapLines_congr hconcluded, hsummaries,
    integrityAppendix_congr h.records, h.missingIntegrity]

/-- **Two reports are the same where they show the same**: the run and its date, what is shown
of the records in order, the records without a content hash, and the score if there is any
record. -/
theorem reports_agree_iff (config config' : Config) (evidence evidence' : Metadata) :
    executeLines config evidence = executeLines config' evidence' ↔
      ShowSame config config' evidence evidence' :=
  ⟨ShowSame.of_executeLines_eq, ShowSame.executeLines_eq⟩

/-! ### The order of storage -/

/-- A record that is stored first is shown first of those with its control and its id. -/
theorem shown_of_tie {records records' : List StoreRecord} (hcontrol : a.controlId = b.controlId)
    (hid : a.id = b.id)
    (h : (recordsOrderedByControl (a :: records)).map shown =
      (recordsOrderedByControl (b :: records')).map shown) : shown a = shown b := by
  let tied : StoreRecord → Bool := fun record => record.controlId = a.controlId ∧ record.id = a.id
  let tiedShown : Shown → Bool := fun record => record.controlId = a.controlId ∧ record.id = a.id
  have hstable : ∀ records, (recordsOrderedByControl records).filter tied =
      records.filter tied := by
    intro records
    rw [recordsOrderedByControl_eq]
    refine filter_orderBy (fun x y hx hy => ?_) records
    obtain ⟨hxc, hxi⟩ := of_decide_eq_true hx
    obtain ⟨hyc, hyi⟩ := of_decide_eq_true hy
    simp only [recordColumns, List.forall_mem_cons]
    exact ⟨congrArg frameworkKey (hxc.trans hyc.symm), hxi.trans hyi.symm,
      fun _ hc => absurd hc List.not_mem_nil⟩
  have hrows : ∀ records, ((recordsOrderedByControl records).map shown).filter tiedShown =
      (records.filter tied).map shown := by
    intro records
    rw [List.filter_map, ← hstable]
    rfl
  have hfirst := congrArg (List.filter tiedShown) h
  rw [hrows, hrows, List.filter_cons_of_pos (by simp [tied]),
    List.filter_cons_of_pos (by simp [tied, hcontrol, hid]), List.map_cons,
    List.map_cons] at hfirst
  exact (List.cons.inj hfirst).1

/-- Records that are shown alike where they are tied are shown the same in every order. -/
theorem map_shown_of_perm (h : records.Perm records')
    (hties : ∀ a ∈ records, ∀ b ∈ records, a.controlId = b.controlId → a.id = b.id →
      shown a = shown b) :
    (recordsOrderedByControl records).map shown = (recordsOrderedByControl records').map shown := by
  have hle : ∀ a b r s, (some ∘ shown) a = some r → (some ∘ shown) b = some s →
      lexLe recordColumns a b = lexLe shownColumns r s := by
    rintro a b r s hr hs
    obtain rfl := Option.some.inj hr
    obtain rfl := Option.some.inj hs
    exact (lexLe_map shown shownColumns a b).symm
  rw [recordsOrderedByControl_eq, recordsOrderedByControl_eq, ← List.filterMap_eq_map]
  refine filterMap_orderBy_congr hle h fun r hr s hs hagree => ?_
  rw [List.filterMap_eq_map] at hr hs
  obtain ⟨a, ha, rfl⟩ := List.mem_map.mp hr
  obtain ⟨b, hb, rfl⟩ := List.mem_map.mp hs
  simp only [shownColumns, List.forall_mem_cons] at hagree
  exact hties a ha b hb (frameworkKey_injective hagree.1) hagree.2.1

/-- **The report does not depend on the order of storage** if and only if no two records of one
control and one id are shown differently. -/
theorem report_order_independent_iff (config : Config) (evidence : Metadata) :
    (∀ records', evidence.records.Perm records' →
      executeLines config ⟨records', evidence.missingIntegrity⟩ = executeLines config evidence) ↔
    ∀ a ∈ evidence.records, ∀ b ∈ evidence.records, a.controlId = b.controlId → a.id = b.id →
      shown a = shown b := by
  constructor
  · intro hsame a ha b hb hcontrol hid
    have hshown : ∀ {records'}, evidence.records.Perm records' →
        (recordsOrderedByControl records').map shown =
          (recordsOrderedByControl evidence.records).map shown :=
      fun h => (ShowSame.of_executeLines_eq (hsame _ h)).records
    have hfirst := hshown (List.perm_cons_erase ha)
    have hsecond := hshown (List.perm_cons_erase hb)
    exact shown_of_tie hcontrol hid (hfirst.trans hsecond.symm)
  · intro hties records' h
    exact ShowSame.executeLines_eq
      ⟨rfl, rfl, fun _ => rfl, (map_shown_of_perm h hties).symm, rfl⟩

end EvidenceReport

end SovriAgent
