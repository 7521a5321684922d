import SovriAgent.Decimal
import SovriAgent.EvidenceReport

/-!
# Counts and Gaps of a Report

The executive summary of a report counts results, and the section of the gaps lists potential
gaps. Each is read off the lines of its section, and compared with the other: a status is
counted if the line of the counts has its label, and listed if a gap has its line.

What a record adds to the counts is said once, status by status; the counts of a store are the
sums over its records, and a store whose records add nothing is reported with the counts of the
consent corpus.

## Main results

* `countsStatus_iff`: the statuses that are counted.
* `statusLine_mem_iff`: the statuses of the gaps that are listed.
* `sections_agree_iff`: the stores whose counts and gaps agree.
* `sections_disagree`: a store of one failed record without gaps.
-/

namespace SovriAgent

namespace EvidenceReport

/-! ### What the sections say -/

/-- The lines count a result of some status. -/
def CountsStatus (lines : List Str) (status : Status) : Prop :=
  ∃ line ∈ lines, startsWith "Result counts: ".toList line = true ∧
    containsText status.label line = true

/-- The executive summary counts a failure, or a warning, exactly if the section of the gaps
lists one; and it counts none where that section says that there are no gaps. -/
structure SectionsAgree (config : Config) (evidence : Metadata) : Prop where
  fail : CountsStatus (sectionLines config evidence .executiveSummary) .fail ↔
    statusLine .fail ∈ sectionLines config evidence .gaps
  warning : CountsStatus (sectionLines config evidence .executiveSummary) .warning ↔
    statusLine .warning ∈ sectionLines config evidence .gaps
  noGaps : noGapsPlaceholder ∈ sectionLines config evidence .gaps →
    ¬CountsStatus (sectionLines config evidence .executiveSummary) .fail

/-! ### Records -/

/-- A record with a signal that is neither a pass nor a control without a conclusion. -/
def Failing (record : StoreRecord) : Prop :=
  record.signal ≠ none ∧ record.signal ≠ some passSignal ∧
    nonConclusiveRecordStatus record = none

/-- A record of some control. -/
def Linked (record : StoreRecord) : Prop :=
  record.controlId ≠ none

/-- What a store has to be like for its counts to agree with its gaps. -/
structure CountsFollowGaps (records : List StoreRecord) : Prop where
  /-- A failed record, or a store without signals, comes with a gap that is a failure. -/
  failed : ((∃ record ∈ records, Failing record) ∨
      (records ≠ [] ∧ ∀ record ∈ records, record.signal = none)) →
    ∃ record ∈ records, Linked record ∧
      (record.signal = none ∨ (Failing record ∧ record.signal ≠ some warningReason))
  /-- A record that is a gap for want of a signal comes with a failed one, unless no record has
  a signal. -/
  unsignalled : (∃ record ∈ records, Linked record ∧ record.signal = none) →
    (∃ record ∈ records, Failing record) ∨ ∀ record ∈ records, record.signal = none
  /-- A warning is linked to a control. -/
  warned : (∃ record ∈ records, record.signal = some warningReason) →
    ∃ record ∈ records, Linked record ∧ record.signal = some warningReason

/-! ### The counts of the records -/

namespace ResultCounts

theorem count_increment (counts : ResultCounts) (status other : Status) :
    (counts.increment status).count other =
      counts.count other + if status = other then 1 else 0 := by
  cases status <;> cases other <;> rfl

end ResultCounts

/-- What a record adds to the count of a status. -/
def recordCount (record : StoreRecord) (status : Status) : ℕ :=
  (appendRecordResultCounts .zero record).count status

/-- A record adds to the counts what it adds to none. -/
theorem count_appendRecordResultCounts (counts : ResultCounts) (record : StoreRecord)
    (status : Status) :
    (appendRecordResultCounts counts record).count status =
      counts.count status + recordCount record status := by
  have hzero : ResultCounts.zero.count status = 0 := by cases status <;> rfl
  rw [recordCount, appendRecordResultCounts, appendRecordResultCounts]
  cases nonConclusiveRecordStatus record with
  | some conclusion => simp only [ResultCounts.count_increment, hzero, Nat.zero_add]
  | none =>
      cases record.signal with
      | none => simp only [hzero, Nat.add_zero]
      | some signal =>
          dsimp only
          split_ifs <;> simp only [ResultCounts.count_increment, hzero, Nat.zero_add, Nat.add_assoc]

/-- The counts of a store are the sums over its records. -/
theorem count_resultCounts (records : List StoreRecord) (status : Status) :
    (resultCounts records).count status =
      (records.map fun record => recordCount record status).sum := by
  have hfold : ∀ counts : ResultCounts,
      (records.foldl appendRecordResultCounts counts).count status =
        counts.count status + (records.map fun record => recordCount record status).sum := by
    induction records with
    | nil => exact fun counts => rfl
    | cons record records ih =>
        intro counts
        rw [List.foldl_cons, ih, count_appendRecordResultCounts, List.map_cons, List.sum_cons,
          Nat.add_assoc]
  have hzero : ResultCounts.zero.count status = 0 := by cases status <;> rfl
  rw [resultCounts, hfold, hzero, Nat.zero_add]

/-- A status is counted if a record adds to it. -/
theorem count_resultCounts_pos {records : List StoreRecord} {status : Status} :
    0 < (resultCounts records).count status ↔
      ∃ record ∈ records, 0 < recordCount record status := by
  rw [count_resultCounts, Nat.pos_iff_ne_zero, ne_eq, List.sum_eq_zero_iff]
  simp only [List.mem_map, forall_exists_index, and_imp, forall_apply_eq_imp_iff₂, not_forall,
    Nat.pos_iff_ne_zero, exists_prop]

/-! ### What one record adds -/

theorem nonConclusiveRecordStatus_eq_some {record : StoreRecord} {controlId reason : Str}
    {status : Status} (h : nonConclusiveRecordStatus record = some (controlId, reason, status)) :
    record.controlId = some controlId ∧ record.signal = some reason ∧
      nonConclusiveStatus controlId reason = some status := by
  rw [nonConclusiveRecordStatus] at h
  obtain ⟨controlId', hcontrol, h⟩ := Option.bind_eq_some_iff.mp h
  obtain ⟨reason', hreason, h⟩ := Option.bind_eq_some_iff.mp h
  obtain ⟨status', hstatus, h⟩ := Option.bind_eq_some_iff.mp h
  cases h
  exact ⟨hcontrol, hreason, hstatus⟩

/-- A control without a conclusion was skipped or errored, and says so by its own signal. -/
theorem nonConclusiveStatus_cases {controlId reason : Str} {status : Status}
    (h : nonConclusiveStatus controlId reason = some status) :
    (status = .skipped ∧ reason = dockerSkippedReason) ∨
      (status = .error ∧ reason = sshErrorReason) := by
  rw [nonConclusiveStatus] at h
  split_ifs at h with hskipped herror
  · exact .inl ⟨(Option.some.inj h).symm, hskipped.2⟩
  · exact .inr ⟨(Option.some.inj h).symm, herror.2⟩

theorem nonConclusiveStatus_ne_fail {controlId reason : Str} :
    nonConclusiveStatus controlId reason ≠ some .fail := fun h => by
  rcases nonConclusiveStatus_cases h with ⟨h, -⟩ | ⟨h, -⟩ <;> cases h

theorem nonConclusiveStatus_ne_warning {controlId reason : Str} :
    nonConclusiveStatus controlId reason ≠ some .warning := fun h => by
  rcases nonConclusiveStatus_cases h with ⟨h, -⟩ | ⟨h, -⟩ <;> cases h

theorem warningReason_ne_passSignal : warningReason ≠ passSignal := by
  decide

/-- A warning comes to a conclusion. -/
theorem nonConclusive_of_warning {record : StoreRecord}
    (h : record.signal = some warningReason) : nonConclusiveRecordStatus record = none := by
  have hskipped : warningReason ≠ dockerSkippedReason := by decide
  have herror : warningReason ≠ sshErrorReason := by decide
  by_contra hne
  obtain ⟨⟨controlId, reason, status⟩, hsome⟩ := Option.ne_none_iff_exists'.mp hne
  obtain ⟨-, hreason, hstatus⟩ := nonConclusiveRecordStatus_eq_some hsome
  obtain rfl := Option.some.inj (h.symm.trans hreason)
  rcases nonConclusiveStatus_cases hstatus with ⟨-, heq⟩ | ⟨-, heq⟩
  · exact hskipped heq
  · exact herror heq

/-- What the record of a conclusion adds. -/
theorem recordCount_of_conclusive {record : StoreRecord}
    (hnone : nonConclusiveRecordStatus record = none) {signal : Str}
    (hsignal : record.signal = some signal) (status : Status) :
    recordCount record status =
      if signal = passSignal then (if Status.pass = status then 1 else 0)
      else if signal = warningReason then
        (if Status.fail = status then 1 else 0) + (if Status.warning = status then 1 else 0)
      else if record.controlId = some consentControlId ∧ signal = trackerSignal then
        (if Status.fail = status then 1 else 0) + (if Status.pass = status then 1 else 0)
      else if Status.fail = status then 1 else 0 := by
  have hzero : ResultCounts.zero.count status = 0 := by cases status <;> rfl
  rw [recordCount, appendRecordResultCounts, hnone, hsignal]
  dsimp only
  split_ifs <;> simp_all only [ResultCounts.count_increment] <;> rfl

/-- A record without a signal adds nothing. -/
theorem recordCount_of_unsignalled {record : StoreRecord} (hsignal : record.signal = none)
    (status : Status) : recordCount record status = 0 := by
  have hnone : nonConclusiveRecordStatus record = none := by
    by_contra hne
    obtain ⟨⟨controlId, reason, other⟩, hsome⟩ := Option.ne_none_iff_exists'.mp hne
    have hreason := (nonConclusiveRecordStatus_eq_some hsome).2.1
    cases hsignal.symm.trans hreason
  rw [recordCount, appendRecordResultCounts, hnone, hsignal]
  cases status <;> rfl

/-- A record without a conclusion adds to its own status. -/
theorem recordCount_of_nonConclusive {record : StoreRecord} {controlId reason : Str}
    {status : Status} (h : nonConclusiveRecordStatus record = some (controlId, reason, status))
    (other : Status) : recordCount record other = if status = other then 1 else 0 := by
  have hzero : ResultCounts.zero.count other = 0 := by cases other <;> rfl
  rw [recordCount, appendRecordResultCounts, h]
  dsimp only
  rw [ResultCounts.count_increment, hzero, Nat.zero_add]

/-- A record adds to the failures if it failed. -/
theorem recordCount_fail_pos {record : StoreRecord} :
    0 < recordCount record .fail ↔ Failing record := by
  cases hconclusion : nonConclusiveRecordStatus record with
  | some conclusion =>
      obtain ⟨controlId, reason, status⟩ := conclusion
      have hstatus := (nonConclusiveRecordStatus_eq_some hconclusion).2.2
      have hne : status ≠ .fail := by
        rintro rfl
        exact nonConclusiveStatus_ne_fail hstatus
      rw [recordCount_of_nonConclusive hconclusion, if_neg hne]
      exact iff_of_false (lt_irrefl 0) fun h => by cases hconclusion.symm.trans h.2.2
  | none =>
      cases hsignal : record.signal with
      | none =>
          rw [recordCount_of_unsignalled hsignal]
          exact iff_of_false (lt_irrefl 0) fun h => h.1 hsignal
      | some signal =>
          rw [recordCount_of_conclusive hconclusion hsignal]
          by_cases hpass : signal = passSignal
          · rw [if_pos hpass, if_neg (by decide)]
            refine iff_of_false (lt_irrefl 0) fun h => h.2.1 ?_
            rw [hsignal, hpass]
          · have hfailing : Failing record := by
              refine ⟨by rw [hsignal]; exact Option.some_ne_none _, ?_, hconclusion⟩
              rw [hsignal]
              exact fun heq => hpass (Option.some.inj heq)
            refine iff_of_true ?_ hfailing
            simp only [if_neg hpass, eq_self, reduceCtorEq, if_true, if_false]
            split_ifs <;> decide

/-- A record adds to the warnings if its signal is the warning. -/
theorem recordCount_warning_pos {record : StoreRecord} :
    0 < recordCount record .warning ↔ record.signal = some warningReason := by
  by_cases hwarning : record.signal = some warningReason
  · refine iff_of_true ?_ hwarning
    rw [recordCount_of_conclusive (nonConclusive_of_warning hwarning) hwarning,
      if_neg warningReason_ne_passSignal, if_pos rfl]
    decide
  · refine iff_of_false ?_ hwarning
    cases hconclusion : nonConclusiveRecordStatus record with
    | some conclusion =>
        obtain ⟨controlId, reason, status⟩ := conclusion
        have hstatus := (nonConclusiveRecordStatus_eq_some hconclusion).2.2
        have hne : status ≠ .warning := by
          rintro rfl
          exact nonConclusiveStatus_ne_warning hstatus
        rw [recordCount_of_nonConclusive hconclusion, if_neg hne]
        exact lt_irrefl 0
    | none =>
        cases hsignal : record.signal with
        | none =>
            rw [recordCount_of_unsignalled hsignal]
            exact lt_irrefl 0
        | some signal =>
            have hne : signal ≠ warningReason := fun heq => hwarning (heq ▸ hsignal)
            rw [recordCount_of_conclusive hconclusion hsignal, if_neg hne]
            simp only [reduceCtorEq, if_false]
            split_ifs <;> decide

/-- A record with a signal adds to some count. -/
theorem exists_recordCount_pos {record : StoreRecord} (hsignal : record.signal ≠ none) :
    ∃ status, 0 < recordCount record status := by
  cases hconclusion : nonConclusiveRecordStatus record with
  | some conclusion =>
      refine ⟨conclusion.2.2, ?_⟩
      rw [recordCount_of_nonConclusive hconclusion, if_pos rfl]
      exact Nat.one_pos
  | none =>
      by_cases hpass : record.signal = some passSignal
      · refine ⟨.pass, ?_⟩
        rw [recordCount_of_conclusive hconclusion hpass, if_pos rfl]
        decide
      · exact ⟨.fail, recordCount_fail_pos.mpr ⟨hsignal, hpass, hconclusion⟩⟩

/-! ### The line of the counts -/

/-- The character the label of a status is told by, `F` for failures and `W` for warnings; the
counts of the consent corpus have a failure and no warning. -/
structure Marks (mark : Char) (status : Status) : Prop where
  heading : mark ∉ "Result counts: ".toList
  separator : mark ∉ ", ".toList
  digit : mark.isDigit = false
  label : ∀ other : Status, mark ∈ ' ' :: other.label ↔ other = status
  consent : containsText status.label ("Result counts: ".toList ++ consentResultCounts) = true ↔
    status = .fail

theorem marks_fail : Marks 'F' .fail :=
  ⟨by decide, by decide, by decide, fun other => by cases other <;> decide, by decide⟩

theorem marks_warning : Marks 'W' .warning :=
  ⟨by decide, by decide, by decide, fun other => by cases other <;> decide, by decide⟩

variable {mark : Char} {status : Status}

/-- The mark of a status is in the counts if it is counted. -/
theorem Marks.mem_compact (h : Marks mark status) (counts : ResultCounts) :
    mark ∈ counts.compact ↔ 0 < counts.count status := by
  have hpart : ∀ other, (∃ name ∈ counts.nonZeroCount other, mark ∈ name) ↔
      0 < counts.count other ∧ other = status := by
    intro other
    rw [ResultCounts.nonZeroCount]
    split_ifs with hpos
    · have hdecimal : mark ∉ decimal (counts.count other) := fun hmem =>
        absurd (isDigit_of_mem_decimal hmem) (by rw [h.digit]; exact Bool.false_ne_true)
      simp only [List.mem_singleton, exists_eq_left]
      rw [List.mem_append, or_iff_right hdecimal, h.label, and_iff_right hpos]
    · exact iff_of_false (by simp) fun hand => hpos hand.1
  rw [ResultCounts.compact, mem_joinNames h.separator]
  simp only [List.mem_flatMap]
  constructor
  · rintro ⟨name, ⟨other, -, hname⟩, hmark⟩
    obtain ⟨hpos, rfl⟩ := (hpart other).mp ⟨name, hname, hmark⟩
    exact hpos
  · intro hpos
    obtain ⟨name, hname, hmark⟩ := (hpart status).mpr ⟨hpos, rfl⟩
    exact ⟨name, ⟨status, by cases status <;> decide, hname⟩, hmark⟩

/-- The label of a status is in the counts if it is counted. -/
theorem label_infix_compact {counts : ResultCounts} (hpos : 0 < counts.count status) :
    status.label <:+: counts.compact := by
  have hpart : decimal (counts.count status) ++ ' ' :: status.label ∈
      [Status.fail, .pass, .warning, .skipped, .error].flatMap counts.nonZeroCount := by
    refine List.mem_flatMap.mpr ⟨status, by cases status <;> decide, ?_⟩
    rw [ResultCounts.nonZeroCount, if_pos hpos]
    exact List.mem_singleton_self _
  have hlabel : status.label <:+: decimal (counts.count status) ++ ' ' :: status.label :=
    ⟨decimal (counts.count status) ++ [' '], [], by simp⟩
  exact hlabel.trans (infix_joinNames hpart)

/-- A status is read in the line of the counts if it is counted. -/
theorem Marks.containsText_compact (h : Marks mark status) (counts : ResultCounts) :
    containsText status.label ("Result counts: ".toList ++ counts.compact) = true ↔
      0 < counts.count status := by
  rw [containsText_iff]
  constructor
  · intro hoccurs
    have hmem : mark ∈ status.label := by
      have hmark := (h.label status).mpr rfl
      rcases List.mem_cons.mp hmark with rfl | hmark
      · exact absurd (by decide) h.heading
      · exact hmark
    rcases List.mem_append.mp (hoccurs.subset hmem) with hheading | hcompact
    · exact absurd hheading h.heading
    · exact (h.mem_compact counts).mp hcompact
  · intro hpos
    exact (label_infix_compact hpos).trans (List.suffix_append _ _).isInfix

/-! ### The statuses that are counted -/

/-- No result is counted if no record has a signal. -/
theorem compact_resultCounts_eq_nil {records : List StoreRecord} :
    (resultCounts records).compact = [] ↔ ∀ record ∈ records, record.signal = none := by
  have hnil : (resultCounts records).compact = [] ↔
      ∀ status, ¬0 < (resultCounts records).count status := by
    constructor
    · intro hnil other hpos
      have hlabel := label_infix_compact hpos
      rw [hnil, List.infix_nil] at hlabel
      cases other <;> cases hlabel
    · intro hzero
      have hparts : ([Status.fail, .pass, .warning, .skipped, .error].flatMap
          (resultCounts records).nonZeroCount) = [] := by
        refine List.flatMap_eq_nil_iff.mpr fun other _ => ?_
        rw [ResultCounts.nonZeroCount, if_neg (hzero other)]
      rw [ResultCounts.compact, hparts]
      rfl
  rw [hnil]
  simp only [count_resultCounts_pos]
  constructor
  · intro hzero record hrecord
    by_contra hsignal
    obtain ⟨other, hpos⟩ := exists_recordCount_pos hsignal
    exact hzero other ⟨record, hrecord, hpos⟩
  · rintro hsignals other ⟨record, hrecord, hpos⟩
    rw [recordCount_of_unsignalled (hsignals record hrecord)] at hpos
    exact lt_irrefl 0 hpos

theorem countsStatus_append {first second : List Str} :
    CountsStatus (first ++ second) status ↔
      CountsStatus first status ∨ CountsStatus second status := by
  simp only [CountsStatus, List.mem_append, or_and_right, exists_or]

/-- Lines that do not start as the line of the counts count nothing. -/
theorem not_countsStatus {lines : List Str}
    (h : ∀ line ∈ lines, startsWith "Result counts: ".toList line = false) :
    ¬CountsStatus lines status := by
  rintro ⟨line, hline, hstart, -⟩
  exact Bool.false_ne_true ((h line hline).symm.trans hstart)

/-- The line of the counts is the one that starts as such. -/
theorem countsStatus_summaryLines (config : Config) (records : List StoreRecord)
    (status : Status) :
    CountsStatus (summaryLines config records) status ↔ records ≠ [] ∧
      containsText status.label ("Result counts: ".toList ++ executiveResultCounts records) =
        true := by
  have hhead : ¬CountsStatus ["Run: ".toList ++ config.runId,
      "Framework covered: gdpr-eprivacy".toList, "Scan target: shopfront".toList,
      "Generated date: ".toList ++ config.executedAt, "Catalog version: 2016-679".toList]
      status := by
    refine not_countsStatus ?_
    simp only [List.forall_mem_cons]
    exact ⟨rfl, rfl, rfl, rfl, rfl, List.forall_mem_nil _⟩
  have herrors : ¬CountsStatus (if 0 < errorControlCount records then
      [incompleteResultsLine (errorControlCount records)] else []) status := by
    refine not_countsStatus ?_
    split_ifs
    · exact List.forall_mem_singleton.mpr rfl
    · exact List.forall_mem_nil _
  rw [summaryLines, countsStatus_append, countsStatus_append, or_iff_right hhead,
    or_iff_left herrors]
  by_cases hempty : records = []
  · rw [if_pos hempty]
    refine iff_of_false (not_countsStatus ?_) fun h => h.1 hempty
    exact List.forall_mem_singleton.mpr rfl
  · have hstart : startsWith "Result counts: ".toList
        ("Result counts: ".toList ++ executiveResultCounts records) = true := by
      rw [startsWith, stripPrefix_append]
      rfl
    rw [if_neg hempty, and_iff_right hempty]
    constructor
    · rintro ⟨line, hline, -, hcontains⟩
      exact List.mem_singleton.mp hline ▸ hcontains
    · exact fun hcontains => ⟨_, List.mem_singleton_self _, hstart, hcontains⟩

/-- **The statuses that are counted**: those a record adds to, and a failure in a store without
signals. -/
theorem Marks.countsStatus_iff (h : Marks mark status) (config : Config)
    (records : List StoreRecord) :
    CountsStatus (summaryLines config records) status ↔
      (∃ record ∈ records, 0 < recordCount record status) ∨
        (status = .fail ∧ records ≠ [] ∧ ∀ record ∈ records, record.signal = none) := by
  rw [countsStatus_summaryLines, executiveResultCounts]
  by_cases hsignals : ∀ record ∈ records, record.signal = none
  · have hnone : ¬∃ record ∈ records, 0 < recordCount record status := by
      rintro ⟨record, hrecord, hpos⟩
      rw [recordCount_of_unsignalled (hsignals record hrecord)] at hpos
      exact lt_irrefl 0 hpos
    rw [if_pos (compact_resultCounts_eq_nil.mpr hsignals), h.consent, or_iff_right hnone]
    exact ⟨fun ⟨hne, hfail⟩ => ⟨hfail, hne, hsignals⟩, fun ⟨hfail, hne, _⟩ => ⟨hne, hfail⟩⟩
  · rw [if_neg (mt compact_resultCounts_eq_nil.mp hsignals), h.containsText_compact,
      count_resultCounts_pos, or_iff_left fun hand => hsignals hand.2.2]
    refine and_iff_right_of_imp fun _ hempty => hsignals ?_
    rw [hempty]
    exact List.forall_mem_nil _

/-! ### The gaps that are listed -/

/-- A record is a gap of some status. -/
def GapOfStatus (record : StoreRecord) (status : Status) : Prop :=
  ∃ controlId, record.controlId = some controlId ∧ gapStatus controlId record.signal = some status

/-- The line of a status is no line that starts otherwise. -/
theorem statusLine_ne {line : Str} (h : startsWith "Status: ".toList line = false) :
    statusLine status ≠ line := by
  have hstart : startsWith "Status: ".toList (statusLine status) = true := by
    change (stripPrefix "Status: ".toList ("Status: ".toList ++ status.label)).isSome = true
    rw [stripPrefix_append]
    rfl
  exact ne_of_startsWith hstart h

theorem statusLine_mem_gapControlLines {gap : Str × Status} :
    statusLine status ∈ gapControlLines gap ↔ gap.2 = status := by
  rw [gapControlLines]
  simp only [List.mem_cons, List.not_mem_nil, or_false]
  rw [or_iff_right (statusLine_ne rfl), or_iff_left]
  · constructor
    · exact fun h => Status.label_injective (List.append_cancel_left h).symm
    · rintro rfl
      rfl
  · rintro (h | h | h | h) <;> exact absurd h (statusLine_ne rfl)

theorem potentialGapSummary_eq_some {record : StoreRecord} {gap : Str × Status} :
    potentialGapSummary record = some gap ↔
      record.controlId = some gap.1 ∧ gapStatus gap.1 record.signal = some gap.2 := by
  rw [potentialGapSummary]
  cases record.controlId with
  | none => exact iff_of_false nofun nofun
  | some controlId =>
      rw [Option.bind_eq_bind, Option.bind_some, Option.some.injEq]
      constructor
      · intro h
        obtain ⟨other, hother, h⟩ := Option.bind_eq_some_iff.mp h
        cases h
        exact ⟨rfl, hother⟩
      · rintro ⟨rfl, hother⟩
        rw [hother]
        rfl

/-- The gaps of a store are those of its records. -/
theorem mem_potentialGaps {records : List StoreRecord} {gap : Str × Status} :
    gap ∈ potentialGaps records ↔ ∃ record ∈ records,
      record.controlId = some gap.1 ∧ gapStatus gap.1 record.signal = some gap.2 := by
  have hperm : (recordsOrderedByControl records).Perm records := List.perm_insertionSort _ _
  rw [potentialGaps, List.mem_filterMap]
  simp only [hperm.mem_iff, potentialGapSummary_eq_some]

/-- **The statuses that are listed** are those of the gaps of records. -/
theorem statusLine_mem_iff (records : List StoreRecord) (status : Status) :
    statusLine status ∈ gapLines records ↔ ∃ record ∈ records, GapOfStatus record status := by
  have hplaceholder : statusLine status ∉ [noGapsPlaceholder] := fun h =>
    statusLine_ne rfl (List.mem_singleton.mp h)
  have hremediation : statusLine status ∉ [remediationLine] := fun h =>
    statusLine_ne rfl (List.mem_singleton.mp h)
  have hgaps : (∃ record ∈ records, GapOfStatus record status) ↔
      ∃ gap ∈ potentialGaps records, gap.2 = status := by
    simp only [mem_potentialGaps, GapOfStatus]
    constructor
    · rintro ⟨record, hrecord, controlId, hgap⟩
      exact ⟨(controlId, status), ⟨record, hrecord, hgap⟩, rfl⟩
    · rintro ⟨gap, ⟨record, hrecord, hgap⟩, rfl⟩
      exact ⟨record, hrecord, gap.1, hgap⟩
  rw [gapLines, List.mem_append, or_iff_left hremediation, hgaps]
  split_ifs with hempty
  · rw [hempty]
    exact iff_of_false hplaceholder (by simp)
  · simp only [List.mem_flatMap, statusLine_mem_gapControlLines]

theorem configuredGapSignalPolicy_eq (signal : Str) :
    configuredGapSignalPolicy signal =
      if signal = passSignal then some .suppress
      else if signal = warningReason then some (.status .warning) else none := by
  rw [configuredGapSignalPolicy, gapSignalStatusPolicies]
  by_cases hpass : signal = passSignal
  · rw [List.find?_cons_of_pos (by simpa using hpass.symm), if_pos hpass]
    rfl
  rw [List.find?_cons_of_neg (by simpa using Ne.symm hpass), if_neg hpass]
  by_cases hwarning : signal = warningReason
  · rw [List.find?_cons_of_pos (by simpa using hwarning.symm), if_pos hwarning]
    rfl
  · rw [List.find?_cons_of_neg (by simpa using Ne.symm hwarning), if_neg hwarning]
    rfl

/-- The conclusion of a record of some control with some signal. -/
theorem nonConclusiveRecordStatus_linked {record : StoreRecord} {controlId signal : Str}
    (hcontrol : record.controlId = some controlId) (hsignal : record.signal = some signal) :
    nonConclusiveRecordStatus record =
      (nonConclusiveStatus controlId signal).map fun status => (controlId, signal, status) := by
  rw [nonConclusiveRecordStatus, hcontrol, hsignal]
  cases hstatus : nonConclusiveStatus controlId signal with
  | none => simp only [Option.bind_eq_bind, Option.bind_some, hstatus, Option.bind_none,
      Option.map_none]
  | some status => simp only [Option.bind_eq_bind, Option.bind_some, hstatus, Option.map_some,
      Option.pure_def]

/-- The gap of a linked record. -/
theorem gapStatus_linked {record : StoreRecord} {controlId signal : Str}
    (hcontrol : record.controlId = some controlId) (hsignal : record.signal = some signal) :
    gapStatus controlId record.signal =
      if nonConclusiveRecordStatus record = none then
        if signal = passSignal then none
        else if signal = warningReason then some .warning else some .fail
      else nonConclusiveStatus controlId signal := by
  rw [nonConclusiveRecordStatus_linked hcontrol hsignal, hsignal, gapStatus,
    configuredGapSignalPolicy_eq]
  cases nonConclusiveStatus controlId signal with
  | some status => rfl
  | none =>
      rw [Option.map_none, if_pos rfl]
      split_ifs <;> rfl

/-- A record is a failure if it is linked, and failed without a warning or has no signal. -/
theorem gapOfStatus_fail_iff {record : StoreRecord} :
    GapOfStatus record .fail ↔ Linked record ∧
      (record.signal = none ∨ (Failing record ∧ record.signal ≠ some warningReason)) := by
  rw [GapOfStatus, Linked]
  cases hcontrol : record.controlId with
  | none => exact iff_of_false (by rintro ⟨_, h, -⟩; cases h) fun h => h.1 rfl
  | some controlId =>
      rw [and_iff_right (Option.some_ne_none _)]
      simp only [Option.some.injEq, exists_eq_left']
      cases hsignal : record.signal with
      | none => exact iff_of_true rfl (.inl rfl)
      | some signal =>
          rw [← hsignal, gapStatus_linked hcontrol hsignal, Failing, hsignal]
          by_cases hconclusive : nonConclusiveRecordStatus record = none
          · rw [if_pos hconclusive]
            by_cases hpass : signal = passSignal
            · simp [hpass]
            · by_cases hwarning : signal = warningReason <;> simp [hpass, hwarning, hconclusive]
          · rw [if_neg hconclusive]
            exact iff_of_false nonConclusiveStatus_ne_fail (by simp [hconclusive])

/-- A record is a warning if it is linked, and its signal is the warning. -/
theorem gapOfStatus_warning_iff {record : StoreRecord} :
    GapOfStatus record .warning ↔ Linked record ∧ record.signal = some warningReason := by
  rw [GapOfStatus, Linked]
  cases hcontrol : record.controlId with
  | none => exact iff_of_false (by rintro ⟨_, h, -⟩; cases h) fun h => h.1 rfl
  | some controlId =>
      rw [and_iff_right (Option.some_ne_none _)]
      simp only [Option.some.injEq, exists_eq_left']
      cases hsignal : record.signal with
      | none => exact iff_of_false nofun nofun
      | some signal =>
          rw [← hsignal, gapStatus_linked hcontrol hsignal, hsignal, Option.some.injEq]
          by_cases hwarning : signal = warningReason
          · rw [hwarning, if_pos (nonConclusive_of_warning (hwarning ▸ hsignal)),
              if_neg warningReason_ne_passSignal, if_pos rfl]
            exact iff_of_true rfl rfl
          · refine iff_of_false ?_ hwarning
            rw [if_neg hwarning]
            split_ifs
            · nofun
            · nofun
            · exact nonConclusiveStatus_ne_warning

/-- The line that stands for no gaps is that of a store without gaps. -/
theorem noGapsPlaceholder_mem {records : List StoreRecord}
    (h : noGapsPlaceholder ∈ gapLines records) : potentialGaps records = [] := by
  have hstart : startsWith "No potential".toList noGapsPlaceholder = true := rfl
  by_contra hne
  rw [gapLines, if_neg hne] at h
  rcases List.mem_append.mp h with h | h
  · obtain ⟨gap, -, h⟩ := List.mem_flatMap.mp h
    rw [gapControlLines] at h
    simp only [List.mem_cons, List.not_mem_nil, or_false] at h
    rcases h with h | h | h | h | h | h <;> exact absurd h (ne_of_startsWith hstart rfl)
  · exact absurd (List.mem_singleton.mp h) (ne_of_startsWith hstart rfl)

/-! ### When the sections agree -/

/-- **The counts and the gaps of a report agree** for the stores whose counts follow from their
gaps. -/
theorem sections_agree_iff (config : Config) (evidence : Metadata) :
    SectionsAgree config evidence ↔ CountsFollowGaps evidence.records := by
  have hfail := marks_fail.countsStatus_iff config evidence.records
  have hwarning := marks_warning.countsStatus_iff config evidence.records
  have hgapFail := statusLine_mem_iff evidence.records .fail
  have hgapWarning := statusLine_mem_iff evidence.records .warning
  simp only [recordCount_fail_pos, recordCount_warning_pos, true_and, reduceCtorEq, false_and,
    or_false] at hfail hwarning
  simp only [gapOfStatus_fail_iff] at hgapFail
  simp only [gapOfStatus_warning_iff] at hgapWarning
  constructor
  · intro h
    refine ⟨fun hcounted => hgapFail.mp (h.fail.mp (hfail.mpr hcounted)), ?_,
      fun hcounted => hgapWarning.mp (h.warning.mp (hwarning.mpr hcounted))⟩
    rintro ⟨record, hrecord, hlinked, hsignal⟩
    have hlisted := hgapFail.mpr ⟨record, hrecord, hlinked, .inl hsignal⟩
    exact (hfail.mp (h.fail.mpr hlisted)).imp_right And.right
  · intro h
    have hcounted : CountsStatus (summaryLines config evidence.records) .fail →
        statusLine .fail ∈ gapLines evidence.records :=
      fun hcounted => hgapFail.mpr (h.failed (hfail.mp hcounted))
    refine ⟨⟨hcounted, fun hlisted => hfail.mpr ?_⟩,
      ⟨fun hcounted => hgapWarning.mpr (h.warned (hwarning.mp hcounted)),
        fun hlisted => hwarning.mpr ?_⟩, fun hnone hfailed => ?_⟩
    · obtain ⟨record, hrecord, hlinked, hsignal | ⟨hfailing, -⟩⟩ := hgapFail.mp hlisted
      · exact (h.unsignalled ⟨record, hrecord, hlinked, hsignal⟩).imp_right fun hsignals =>
          ⟨List.ne_nil_of_mem hrecord, hsignals⟩
      · exact .inl ⟨record, hrecord, hfailing⟩
    · obtain ⟨record, hrecord, -, hsignal⟩ := hgapWarning.mp hlisted
      exact ⟨record, hrecord, hsignal⟩
    · have hlisted := hcounted hfailed
      rw [gapLines, if_pos (noGapsPlaceholder_mem hnone)] at hlisted
      rcases List.mem_append.mp hlisted with hlisted | hlisted
      · exact absurd (List.mem_singleton.mp hlisted) (statusLine_ne rfl)
      · exact absurd (List.mem_singleton.mp hlisted) (statusLine_ne rfl)

/-- A failed record that is linked to no control. -/
def unlinkedRecord : StoreRecord where
  id := "ev-0001".toList
  kind := "route-build".toList
  locator := "dist/main.js".toList
  key := none
  classification := none
  signal := some trackerSignal
  controlId := none
  contentHash := "sha256:00".toList

/-- What its report is made with. -/
def unlinkedConfig : Config :=
  ⟨"run-1".toList, "2026-06-24T13:16:28Z".toList, "0.0%".toList⟩

/-- A failure is counted, and there are no potential gaps. -/
theorem sections_disagree :
    ¬ ∀ (config : Config) (evidence : Metadata), SectionsAgree config evidence := by
  intro h
  have hfailing : Failing unlinkedRecord := ⟨by decide, by decide, by decide⟩
  have hcounted : CountsStatus (summaryLines unlinkedConfig [unlinkedRecord]) .fail :=
    (marks_fail.countsStatus_iff _ _).mpr
      (.inl ⟨unlinkedRecord, List.mem_singleton_self _, recordCount_fail_pos.mpr hfailing⟩)
  exact (h unlinkedConfig ⟨[unlinkedRecord], []⟩).noGaps (by decide) hcounted

end EvidenceReport

end SovriAgent
