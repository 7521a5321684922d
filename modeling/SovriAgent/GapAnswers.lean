import SovriAgent.StoreAnswers

/-!
# The Gaps that Queries Answer

The gaps of a run are those of its newest corpus, but for the rows that writes have deleted
since: before a gap is written the row under its legacy id is deleted, whatever run that row is
of. `shownGaps` follows the journal of the accepted corpora, of all runs, and the queries about
gaps answer from it.

A legacy id is the id of a current row only if the rule looks like a length-prefixed field
followed by a rule. Where no rule does, the gaps of a run depend on its newest corpus alone,
like everything else that is shown of it, and each of them is the gap of a stored result.

## Main results

* `gaps_answer_journal`: the queries about gaps answer from the journal.
* `gaps_of_plain_rules`: what they answer where no rule looks like a row id.
-/

namespace SovriAgent

open Keyed Transaction Transaction.Tx Journal

/-! ### The gaps that are left -/

/-- The gaps of a run with one more: it takes the place of the gap under its legacy id, and is
left out if its row is there. -/
def keepGap (runId : Str) (kept : List ScopedGap) (gap : ScopedGap) : List ScopedGap :=
  let others := kept.filter fun g => g.rowId runId ≠ gap.legacyId
  if gap.rowId runId ∈ others.map (ScopedGap.rowId runId) then others else others ++ [gap]

/-- The gaps a corpus leaves of its run. -/
def keptGaps (corpus : Corpus) : List ScopedGap :=
  (corpusGaps corpus).foldl (keepGap corpus.runId) []

/-- The gaps that are left of a run: those of its newest corpus, without the ones under the
legacy ids of corpora accepted since. -/
def shownGaps : List Corpus → Str → List ScopedGap
  | [], _ => []
  | corpus :: journal, runId =>
      if runId = corpus.runId then keptGaps corpus
      else
        (shownGaps journal runId).filter fun gap =>
          gap.rowId runId ∉ (corpusGaps corpus).map ScopedGap.legacyId

/-- The row of a run's gaps under an id. -/
def gapRowOf (runId : Str) (gaps : List ScopedGap) (rowId : Str) : Option GapRow :=
  Table.lastOf (ScopedGap.rowId runId) (ScopedGap.row runId) gaps rowId

/-- A filter of ids keeps the rows under the ids it keeps. -/
theorem gapRowOf_filter (runId : Str) (keep : Str → Bool) (gaps : List ScopedGap) (rowId : Str) :
    gapRowOf runId (gaps.filter fun gap => keep (gap.rowId runId)) rowId =
      if keep rowId then gapRowOf runId gaps rowId else none := by
  induction gaps with
  | nil => cases hkeep : keep rowId <;> rfl
  | cons gap gaps ih =>
      have hcons : gapRowOf runId (gap :: gaps) rowId = (gapRowOf runId gaps rowId).or
          (if rowId = gap.rowId runId then some (gap.row runId) else none) :=
        Table.lastOf_cons _ _ _ _ _
      rw [hcons, List.filter_cons]
      by_cases hgap : keep (gap.rowId runId) = true
      · have hkept : gapRowOf runId (gap :: gaps.filter fun gap => keep (gap.rowId runId)) rowId =
            (gapRowOf runId (gaps.filter fun gap => keep (gap.rowId runId)) rowId).or
              (if rowId = gap.rowId runId then some (gap.row runId) else none) :=
          Table.lastOf_cons _ _ _ _ _
        rw [if_pos hgap, hkept, ih]
        by_cases hrow : keep rowId = true
        · rw [if_pos hrow, if_pos hrow]
        · have hne : rowId ≠ gap.rowId runId := fun heq => hrow (heq ▸ hgap)
          rw [if_neg hrow, if_neg hrow, if_neg hne]
          rfl
      · rw [if_neg hgap, ih]
        by_cases hrow : keep rowId = true
        · have hne : rowId ≠ gap.rowId runId := fun heq => hgap (heq ▸ hrow)
          rw [if_pos hrow, if_pos hrow, if_neg hne, Option.or_none]
        · rw [if_neg hrow, if_neg hrow]

/-- A gap is kept as its row is. -/
theorem gapRowOf_keepGap (runId : Str) (kept : List ScopedGap) (gap : ScopedGap) (rowId : Str) :
    gapRowOf runId (keepGap runId kept gap) rowId =
      gapTurn runId rowId (gapRowOf runId kept rowId) gap := by
  have hothers := gapRowOf_filter runId (fun id => decide (id ≠ gap.legacyId)) kept
  rw [keepGap, gapTurn]
  by_cases hstored : gap.rowId runId ∈ (kept.filter fun g => g.rowId runId ≠ gap.legacyId).map
      (ScopedGap.rowId runId)
  · rw [if_pos hstored, hothers rowId]
    by_cases hid : rowId = gap.rowId runId
    · -- the row is there, and is not the legacy one
      obtain ⟨other, hother, hsame⟩ := List.mem_map.mp hstored
      obtain ⟨hmem, hlegacy⟩ := List.mem_filter.mp hother
      have hne : rowId ≠ gap.legacyId := by
        rw [hid, ← hsame]
        exact of_decide_eq_true hlegacy
      obtain ⟨row, hrow⟩ := Table.exists_lastOf (ScopedGap.rowId runId) (ScopedGap.row runId) hmem
      have hget : gapRowOf runId kept rowId = some row := by
        rw [hid, ← hsame]
        exact hrow
      rw [if_pos (decide_eq_true hne), if_pos hid, if_neg hne, hget]
      rfl
    · rw [if_neg hid]
      by_cases hlegacy : rowId = gap.legacyId
      · simp [hlegacy]
      · simp [hlegacy]
  · have hconcat : gapRowOf runId ((kept.filter fun g => g.rowId runId ≠ gap.legacyId) ++ [gap])
        rowId = if rowId = gap.rowId runId then some (gap.row runId)
          else gapRowOf runId (kept.filter fun g => g.rowId runId ≠ gap.legacyId) rowId :=
      Table.lastOf_concat _ _ _ _ _
    rw [if_neg hstored, hconcat, hothers rowId]
    by_cases hid : rowId = gap.rowId runId
    · rw [if_pos hid, if_pos hid]
      by_cases hlegacy : rowId = gap.legacyId
      · rw [if_pos hlegacy]
        rfl
      · have hnone : gapRowOf runId kept rowId = none := by
          rw [Option.eq_none_iff_forall_ne_some]
          intro row hrow
          obtain ⟨other, hother, hsame, -⟩ := Table.mem_of_lastOf hrow
          refine hstored (List.mem_map.mpr ⟨other, List.mem_filter.mpr ⟨hother, ?_⟩, ?_⟩)
          · exact decide_eq_true fun heq => hlegacy (hsame.symm.trans heq)
          · exact hsame.trans hid
        rw [if_neg hlegacy, hnone]
        rfl
    · rw [if_neg hid, if_neg hid]
      by_cases hlegacy : rowId = gap.legacyId
      · simp [hlegacy]
      · simp [hlegacy]

/-- The kept gaps of a corpus are the rows it leaves. -/
theorem gapRowOf_keptGaps (corpus : Corpus) (rowId : Str) :
    gapRowOf corpus.runId (keptGaps corpus) rowId = gapImage corpus rowId := by
  have hloop : ∀ kept, gapRowOf corpus.runId ((corpusGaps corpus).foldl (keepGap corpus.runId) kept)
      rowId = (corpusGaps corpus).foldl (gapTurn corpus.runId rowId)
        (gapRowOf corpus.runId kept rowId) := by
    induction corpusGaps corpus with
    | nil => exact fun _ => rfl
    | cons gap gaps ih =>
        intro kept
        rw [List.foldl_cons, List.foldl_cons, ih, gapRowOf_keepGap]
  exact hloop []

/-- Kept gaps have rows of their own. -/
theorem nodup_keepGap {runId : Str} {kept : List ScopedGap} {gap : ScopedGap}
    (h : (kept.map (ScopedGap.rowId runId)).Nodup) :
    ((keepGap runId kept gap).map (ScopedGap.rowId runId)).Nodup := by
  have hothers : ((kept.filter fun g => g.rowId runId ≠ gap.legacyId).map
      (ScopedGap.rowId runId)).Nodup := h.sublist (List.filter_sublist.map _)
  rw [keepGap]
  split
  · exact hothers
  · next hnew =>
      rw [List.map_append, List.map_singleton]
      refine List.nodup_append.mpr ⟨hothers, List.nodup_singleton _, ?_⟩
      rintro id hid _ hgap rfl
      exact hnew (List.mem_singleton.mp hgap ▸ hid)

theorem nodup_shownGaps (journal : List Corpus) (runId : Str) :
    ((shownGaps journal runId).map (ScopedGap.rowId runId)).Nodup := by
  induction journal with
  | nil => exact List.nodup_nil
  | cons corpus journal ih =>
      rw [shownGaps]
      split
      · next hrun =>
          subst hrun
          have hloop : ∀ kept : List ScopedGap, (kept.map (ScopedGap.rowId corpus.runId)).Nodup →
              (((corpusGaps corpus).foldl (keepGap corpus.runId) kept).map
                (ScopedGap.rowId corpus.runId)).Nodup := by
            induction corpusGaps corpus with
            | nil => exact fun _ h => h
            | cons gap gaps ih => exact fun kept h => ih _ (nodup_keepGap h)
          exact hloop [] List.nodup_nil
      · exact ih.sublist (List.filter_sublist.map _)

/-! ### The rows of the gaps -/

/-- A write of another run deletes the gaps under the legacy ids of its own. -/
theorem gaps_written_of_ne {db : Db} (h : WellFormed db) {corpus : Corpus} {runId : Str}
    (hne : runId ≠ corpus.runId) {rowId : Str} {row : GapRow} (hrun : row.runId = some runId) :
    (written corpus db).complianceGaps.get rowId = some row ↔
      db.complianceGaps.get rowId = some row ∧
        rowId ∉ (corpusGaps corpus).map ScopedGap.legacyId := by
  have hothers : ∀ hget : db.complianceGaps.get rowId = some row,
      (db.complianceGaps.deleteWhere fun _ row => row.runId = some corpus.runId).get rowId =
        some row := by
    intro hget
    rw [Table.get_deleteWhere, hget, Option.filter_eq_some_iff]
    simp [hrun, hne]
  have hwritten : ∀ hget : db.complianceGaps.get rowId = some row,
      (written corpus db).complianceGaps.get rowId =
        if ∃ gap ∈ corpusGaps corpus, rowId = gap.legacyId then none else some row := by
    intro hget
    rw [get_complianceGaps_written, hothers hget,
      foldl_gapTurn_of_ne fun gap _ => h.ne_gapRowId (hothers hget) gap]
  have hlegacy : rowId ∈ (corpusGaps corpus).map ScopedGap.legacyId ↔
      ∃ gap ∈ corpusGaps corpus, rowId = gap.legacyId := by
    rw [List.mem_map]
    exact exists_congr fun gap => and_congr_right fun _ => eq_comm
  rw [hlegacy]
  constructor
  · intro hget
    have hold := gaps_of_other_run hrun hne hget
    refine ⟨hold, fun hdeleted => ?_⟩
    rw [hwritten hold, if_pos hdeleted] at hget
    cases hget
  · rintro ⟨hold, hkept⟩
    rw [hwritten hold, if_neg hkept]

/-- **The gap rows of a run** are those of the gaps that are shown. -/
theorem gapRows_of_records {journal : List Corpus} {db : Db}
    (h : Records freshDb Accepts journal db) (runId : Str) :
    db.complianceGaps.Agrees (fun _ row => row.runId = some runId)
      (gapRowOf runId (shownGaps journal runId)) := by
  induction h with
  | init =>
      intro rowId row _
      constructor
      · intro hget
        cases hget
      · intro hget
        cases hget
  | @accept journal corpus db db' hrecords haccepts ih =>
      have hwf := showsHistories.inv_of_records hrecords
      obtain ⟨faults, hwrite⟩ := haccepts
      obtain ⟨-, -, rfl⟩ := writeCompletedCorpus_ok hwrite
      intro rowId row hrun
      rw [shownGaps]
      split
      · next hown =>
          subst hown
          rw [gapRowOf_keptGaps]
          exact gapRows_written hwf corpus rowId row hrun
      · next hne =>
          have hfilter := gapRowOf_filter runId
            (fun id => decide (id ∉ (corpusGaps corpus).map ScopedGap.legacyId))
            (shownGaps journal runId) rowId
          rw [gaps_written_of_ne hwf hne hrun, ih rowId row hrun, hfilter]
          by_cases hdeleted : rowId ∈ (corpusGaps corpus).map ScopedGap.legacyId
          · simp [hdeleted]
          · simp [hdeleted]

/-! ### What the queries answer -/

/-- The listed gap. -/
def ScopedGap.listed (gap : ScopedGap) : LocalDatabaseGap :=
  ⟨gap.result.controlId, gap.result.ruleId, gap.result.status.label⟩

/-- The listed gap of a row, where `NULL` is the empty text. -/
def GapRow.shown (row : GapRow) : LocalDatabaseGap :=
  ⟨nullable GapRow.controlId row, nullable GapRow.ruleId row, nullable GapRow.status row⟩

/-- The record of a gap as it is read back from its row id. -/
def ScopedGap.record (runId : Str) (gap : ScopedGap) : Str :=
  gapRecordText (gap.rowId runId)

/-- The gaps of a run with a status and a severity, in the order of the list. -/
def listedGaps (status severity : Str) (gaps : List ScopedGap) : List LocalDatabaseGap :=
  (orderBy [fun gap => gap.result.controlId, fun gap => gap.result.ruleId]
    (gaps.filter fun gap => gap.result.status.label = status ∧ gap.result.severity = severity)).map
    ScopedGap.listed

/-- The gap records of a run, in the order of the row ids. -/
def gapRecords (runId : Str) (gaps : List ScopedGap) : List Str :=
  (orderBy [ScopedGap.rowId runId] gaps).map (ScopedGap.record runId)

section Answers

variable {journal : List Corpus} {db : Db}

theorem gapRows_perm (h : Records freshDb Accepts journal db) (runId : Str) :
    (db.complianceGaps.rows.filter fun r => r.2.runId = some runId).Perm
      ((shownGaps journal runId).map fun gap => (gap.rowId runId, gap.row runId)) :=
  (gapRows_of_records h runId).perm (nodup_shownGaps journal runId) fun _ _ => rfl

theorem answers_gapRecords (h : Records freshDb Accepts journal db) (runId : Str) :
    (complianceGapRecordsForRun runId).Answers db
      (gapRecords runId (shownGaps journal runId)) := by
  have hshape := (showsHistories.inv_of_records h).toCurrentShape
  have hids := (gapRows_perm h runId).map Prod.fst
  rw [List.map_map] at hids
  have hrows : orderBy [id] ((db.complianceGaps.rows.filter fun r =>
      r.2.runId = some runId).map Prod.fst) =
        (orderBy [ScopedGap.rowId runId] (shownGaps journal runId)).map (ScopedGap.rowId runId) := by
    rw [orderBy_id_congr hids, orderBy_map]
    rfl
  have hstored : (ask (columnsOf .complianceGaps [.id, .runId]) fun db => orderBy [id]
      ((db.complianceGaps.rows.filter fun r => r.2.runId = some runId).map Prod.fst)).Answers db
        ((orderBy [ScopedGap.rowId runId] (shownGaps journal runId)).map
          (ScopedGap.rowId runId)) :=
    hrows ▸ answers_ask hshape _
  have hrecords : gapRecords runId (shownGaps journal runId) =
      ((orderBy [ScopedGap.rowId runId] (shownGaps journal runId)).map
        (ScopedGap.rowId runId)).map gapRecordText := by
    rw [List.map_map]
    rfl
  rw [hrecords]
  exact answers_bind hstored (answers_pure _ db)

theorem answers_listedGaps (h : Records freshDb Accepts journal db)
    (runId status severity : Str) :
    (queryGaps runId status severity).Answers db
      (listedGaps status severity (shownGaps journal runId)) := by
  have hshape := (showsHistories.inv_of_records h).toCurrentShape
  refine answers_fetch hshape ?_
  have hperm : ((db.complianceGaps.rows.filter fun r => r.2.runId = some runId ∧
      r.2.status = some status ∧ r.2.severity = some severity).map Prod.snd).Perm
        (((shownGaps journal runId).filter fun gap => gap.result.status.label = status ∧
          gap.result.severity = severity).map (ScopedGap.row runId)) := by
    have hrows := ((gapRows_perm h runId).filter fun r =>
      decide (r.2.status = some status ∧ r.2.severity = some severity)).map Prod.snd
    rw [List.filter_filter, List.filter_map, List.map_map] at hrows
    have hleft : ∀ r : Str × GapRow, (decide (r.2.status = some status ∧
        r.2.severity = some severity) && decide (r.2.runId = some runId)) =
          decide (r.2.runId = some runId ∧ r.2.status = some status ∧
            r.2.severity = some severity) := by
      intro r
      rw [Bool.and_comm, Bool.decide_and, Bool.decide_and, Bool.decide_and]
    have hright : ((fun r : Str × GapRow => decide (r.2.status = some status ∧
        r.2.severity = some severity)) ∘ fun gap : ScopedGap => (gap.rowId runId, gap.row runId)) =
          fun gap => decide (gap.result.status.label = status ∧
            gap.result.severity = severity) := by
      funext gap
      simp [ScopedGap.row]
    rw [List.filter_congr fun r _ => hleft r, hright] at hrows
    exact hrows
  have hlisted : ∀ row ∈ orderBy [nullable GapRow.controlId, nullable GapRow.ruleId]
      ((db.complianceGaps.rows.filter fun r => r.2.runId = some runId ∧
        r.2.status = some status ∧ r.2.severity = some severity).map Prod.snd),
      ∃ gap : ScopedGap, row = gap.row runId ∧ gap.result.status.label = status := by
    intro row hrow
    obtain ⟨gap, hgap, rfl⟩ :=
      List.mem_map.mp (hperm.mem_iff.mp ((orderBy_perm _ _).mem_iff.mp hrow))
    exact ⟨gap, rfl, (of_decide_eq_true (List.mem_filter.mp hgap).2).1⟩
  rw [mapM_some (g := GapRow.shown) fun row hrow => ?_]
  · refine congrArg some (eq_of_perm_of_sorted
      [LocalDatabaseGap.controlId, LocalDatabaseGap.ruleId] ?_ ?_ ?_ ?_)
    · refine (((orderBy_perm _ _).trans hperm).map _).trans ?_
      rw [List.map_map]
      exact ((orderBy_perm _ _).map _).symm
    · exact List.pairwise_map.mpr ((orderBy_pairwise _ _).imp fun h => (lexLe_map _ _ _ _).trans h)
    · exact List.pairwise_map.mpr ((orderBy_pairwise _ _).imp fun h => (lexLe_map _ _ _ _).trans h)
    · -- rows the order does not tell apart are listed alike: their status is the one asked for
      intro listed hrows listed' hgaps hagree
      obtain ⟨row, hrow, rfl⟩ := List.mem_map.mp hrows
      obtain ⟨gap, rfl, hstatus⟩ := hlisted row hrow
      obtain ⟨gap', hgap', rfl⟩ := List.mem_map.mp hgaps
      have hstatus' := (of_decide_eq_true
        (List.mem_filter.mp ((orderBy_perm _ _).mem_iff.mp hgap')).2).1
      exact LocalDatabaseGap.mk.injEq .. ▸ ⟨hagree LocalDatabaseGap.controlId (by simp),
        hagree LocalDatabaseGap.ruleId (by simp), hstatus.trans hstatus'.symm⟩
  · obtain ⟨gap, rfl, -⟩ := hlisted row hrow
    rfl

end Answers

/-- **The queries about gaps answer from the journal** of the accepted corpora. -/
theorem gaps_answer_journal (writes : List (Corpus × (ℕ → Bool))) (runId : Str) :
    (complianceGapRecordsForRun runId).Answers (attemptWrites writes).2
        (gapRecords runId (shownGaps (attemptWrites writes).1 runId)) ∧
      ∀ status severity, (queryGaps runId status severity).Answers (attemptWrites writes).2
        (listedGaps status severity (shownGaps (attemptWrites writes).1 runId)) := by
  have hrecords := records_attemptWrites writes
  exact ⟨answers_gapRecords hrecords runId, answers_listedGaps hrecords runId⟩

/-! ### Plain rules -/

/-- A gap whose rule is no length-prefixed field followed by a text, and whose row id is read
back: the control and the rule have a name, and the sizes are those of the language. -/
structure PlainGap (runId : Str) (gap : ScopedGap) : Prop where
  plain : ∀ field rest, gap.result.ruleId ≠ lengthPrefixed field rest
  named : gap.result.controlId ≠ [] ∧ gap.result.ruleId ≠ []
  run : byteLen runId ≤ usizeMax
  framework : byteLen gap.frameworkId ≤ usizeMax
  control : byteLen gap.result.controlId ≤ usizeMax
  rule : byteLen gap.result.ruleId ≤ usizeMax

/-- The gaps of the corpora of a journal are plain. -/
def PlainGaps (journal : List Corpus) : Prop :=
  ∀ corpus ∈ journal, ∀ gap ∈ corpusGaps corpus, PlainGap corpus.runId gap

/-- A rule without a colon is plain. -/
theorem ne_lengthPrefixed_of_not_mem {rule : Str} (h : ':' ∉ rule) (field rest : Str) :
    rule ≠ lengthPrefixed field rest := by
  rintro rfl
  exact h (List.mem_append_right _ List.mem_cons_self)

/-- The legacy id of a plain gap is no row id. -/
theorem PlainGap.rowId_ne_legacyId {runId : Str} {gap : ScopedGap} (h : PlainGap runId gap)
    (runId' : Str) (other : ScopedGap) : other.rowId runId' ≠ gap.legacyId := by
  intro heq
  obtain ⟨-, hrest⟩ := lengthPrefixed_inj heq
  obtain ⟨-, hrule⟩ := lengthPrefixed_inj hrest
  exact h.plain _ _ hrule.symm

/-- The framework, control and rule of a gap. -/
def gapColumnKey (gap : ScopedGap) : Str × Str × Str :=
  (gap.frameworkId, gap.result.controlId, gap.result.ruleId)

/-- The record of a framework, a control and a rule. -/
def keyRecord (key : Str × Str × Str) : Str :=
  recordText key.1 key.2.1 key.2.2

/-- The row id of a plain gap is read back. -/
theorem PlainGap.record_eq {runId : Str} {gap : ScopedGap} (h : PlainGap runId gap)
    (hrun : runId ≠ []) : gap.record runId = keyRecord (gapColumnKey gap) := by
  rw [ScopedGap.record, gapRecordText, ScopedGap.rowId,
    complianceGapIdentity_complianceGapRowId h.run h.framework h.control h.rule
      ⟨hrun, h.named.1, h.named.2⟩]
  rfl

/-- The kept gaps are gaps of the corpus. -/
theorem mem_corpusGaps_of_mem_keptGaps {corpus : Corpus} {gap : ScopedGap}
    (h : gap ∈ keptGaps corpus) : gap ∈ corpusGaps corpus := by
  have hloop : ∀ kept gaps : List ScopedGap, gap ∈ gaps.foldl (keepGap corpus.runId) kept →
      gap ∈ kept ∨ gap ∈ gaps := by
    intro kept gaps
    induction gaps generalizing kept with
    | nil => exact .inl
    | cons first gaps ih =>
        intro hgap
        rcases ih _ hgap with hkept | hlater
        · rw [keepGap] at hkept
          split at hkept
          · exact .inl (List.mem_of_mem_filter hkept)
          · rcases List.mem_append.mp hkept with hold | hnew
            · exact .inl (List.mem_of_mem_filter hold)
            · exact .inr (List.mem_singleton.mp hnew ▸ List.mem_cons_self)
        · exact .inr (List.mem_cons_of_mem _ hlater)
  exact (hloop [] _ h).resolve_left List.not_mem_nil

/-- No row of plain gaps is lost: the kept gaps have the rows of all gaps. -/
theorem mem_keptGaps_rowIds {corpus : Corpus}
    (h : ∀ gap ∈ corpusGaps corpus, PlainGap corpus.runId gap) {gap : ScopedGap}
    (hgap : gap ∈ corpusGaps corpus) :
    gap.rowId corpus.runId ∈ (keptGaps corpus).map (ScopedGap.rowId corpus.runId) := by
  have hturn : ∀ (kept : List ScopedGap) (later : ScopedGap), PlainGap corpus.runId later →
      ∀ id, id ∈ kept.map (ScopedGap.rowId corpus.runId) ∨ id = later.rowId corpus.runId →
        id ∈ (keepGap corpus.runId kept later).map (ScopedGap.rowId corpus.runId) := by
    intro kept later hlater id hid
    have hothers : kept.filter (fun g => g.rowId corpus.runId ≠ later.legacyId) = kept :=
      List.filter_eq_self.mpr fun g _ => decide_eq_true (hlater.rowId_ne_legacyId _ g)
    rw [keepGap, hothers]
    split
    · next hstored =>
        rcases hid with hkept | rfl
        · exact hkept
        · exact hstored
    · rw [List.map_append, List.mem_append, List.map_singleton, List.mem_singleton]
      exact hid
  have hloop : ∀ (gaps kept : List ScopedGap), (∀ g ∈ gaps, PlainGap corpus.runId g) →
      ∀ id, id ∈ kept.map (ScopedGap.rowId corpus.runId) ∨
          id ∈ gaps.map (ScopedGap.rowId corpus.runId) →
        id ∈ (gaps.foldl (keepGap corpus.runId) kept).map (ScopedGap.rowId corpus.runId) := by
    intro gaps
    induction gaps with
    | nil => exact fun kept _ id hid => hid.resolve_right List.not_mem_nil
    | cons first gaps ih =>
        intro kept hplain id hid
        refine ih _ (fun g hg => hplain g (List.mem_cons_of_mem _ hg)) id ?_
        rcases hid with hkept | hmem
        · exact .inl (hturn kept first (hplain first List.mem_cons_self) id (.inl hkept))
        · rcases List.mem_cons.mp hmem with rfl | hlater
          · exact .inl (hturn kept first (hplain first List.mem_cons_self) _ (.inr rfl))
          · exact .inr hlater
  exact hloop _ [] h _ (.inr (List.mem_map_of_mem hgap))

/-- The gaps that are shown where all are plain: those of the newest corpus. -/
theorem shownGaps_of_plain {journal : List Corpus} (h : PlainGaps journal) (runId : Str) :
    shownGaps journal runId =
      keptGaps (shownCorpus runId (history Corpus.runId journal runId)) := by
  induction journal with
  | nil => rfl
  | cons corpus journal ih =>
      rw [shownGaps, history_cons]
      split
      · rfl
      · have hkept : ∀ gap : ScopedGap,
            gap.rowId runId ∉ (corpusGaps corpus).map ScopedGap.legacyId := by
          intro gap hmem
          obtain ⟨other, hother, heq⟩ := List.mem_map.mp hmem
          exact (h corpus List.mem_cons_self other hother).rowId_ne_legacyId runId gap heq.symm
        rw [List.filter_eq_self.mpr fun gap _ => decide_eq_true (hkept gap)]
        exact ih fun earlier hearlier => h earlier (List.mem_cons_of_mem _ hearlier)

/-- The gap of a result has its framework, control and rule. -/
theorem gapColumnKey_eq {item : ScopedResult} {gap : ScopedGap} (h : scopedGap item = some gap) :
    gapColumnKey gap = resultColumnKey item := by
  obtain ⟨hframework, hresult⟩ := scopedGap_eq_some h
  rw [gapColumnKey, resultColumnKey, frameworkColumn, hframework, hresult]
  rfl

/-- The kept gaps stand for results, each for one of its own. -/
theorem keptGaps_subperm (corpus : Corpus) :
    ((keptGaps corpus).map gapColumnKey).Subperm
      ((finalResults corpus).map resultColumnKey) := by
  have hrows : ((keptGaps corpus).map (ScopedGap.rowId corpus.runId)).Nodup := by
    have hshown := nodup_shownGaps [corpus] corpus.runId
    rwa [shownGaps, if_pos rfl] at hshown
  have hkeys : ((keptGaps corpus).map gapColumnKey).Nodup := by
    refine (List.nodup_map_iff_inj_on (hrows.of_map _)).mpr fun gap hgap gap' hgap' heq => ?_
    refine List.inj_on_of_nodup_map hrows hgap hgap' ?_
    obtain ⟨hframework, hrest⟩ := Prod.mk.inj heq
    obtain ⟨hcontrol, hrule⟩ := Prod.mk.inj hrest
    rw [ScopedGap.rowId, ScopedGap.rowId, hframework, hcontrol, hrule]
  refine List.subperm_of_subset hkeys fun key hkey => ?_
  obtain ⟨gap, hgap, rfl⟩ := List.mem_map.mp hkey
  obtain ⟨item, hitem, hscoped⟩ := List.mem_filterMap.mp (mem_corpusGaps_of_mem_keptGaps hgap)
  rw [finalResults, Table.mem_map_finals, gapColumnKey_eq hscoped]
  exact List.mem_map_of_mem hitem

/-- **Plain gaps are those of the newest corpus**: interleaved writes of other runs make no
difference, each gap record is the record of a result of its own, and every result that failed
or warned has one. -/
theorem gaps_of_plain_rules {writes : List (Corpus × (ℕ → Bool))}
    (h : PlainGaps (attemptWrites writes).1) (runId : Str) :
    (∀ status severity, (queryGaps runId status severity).Answers (attemptWrites writes).2
        (listedGaps status severity (keptGaps (shownCorpus runId (runHistory writes runId))))) ∧
      ∃ gaps, (complianceGapRecordsForRun runId).Answers (attemptWrites writes).2 gaps ∧
        gaps.Subperm (RunView.of runId (runHistory writes runId)).resultRecords ∧
        ∀ record, record ∈ gaps ↔
          ∃ item ∈ (shownCorpus runId (runHistory writes runId)).results,
            (scopedGap item).isSome = true ∧ record = item.record := by
  have hrecords := records_attemptWrites writes
  have hshown := shownGaps_of_plain h runId
  have hanswers := answers_gapRecords hrecords runId
  have hgaps := answers_listedGaps hrecords runId
  rw [hshown] at hanswers hgaps
  refine ⟨hgaps, _, hanswers, ?_⟩
  have hrun := runShown_attemptWrites writes runId
  have hplain : ∀ gap ∈ corpusGaps (shownCorpus runId (runHistory writes runId)),
      PlainGap runId gap ∧ runId ≠ [] := by
    intro gap hgap
    rcases hentries : runHistory writes runId with _ | ⟨corpus, entries⟩
    · rw [hentries] at hgap
      cases hgap
    · have hmem : corpus ∈ runHistory writes runId := hentries ▸ List.mem_cons_self
      obtain ⟨haccepted, rfl⟩ := mem_history.mp hmem
      rw [hentries] at hgap
      exact ⟨h corpus haccepted gap hgap, hrun.named (hentries ▸ List.cons_ne_nil _ _)⟩
  have hread : ∀ gap ∈ keptGaps (shownCorpus runId (runHistory writes runId)),
      gap.record runId = keyRecord (gapColumnKey gap) := by
    intro gap hgap
    obtain ⟨hplain, hnamed⟩ := hplain gap (mem_corpusGaps_of_mem_keptGaps hgap)
    exact hplain.record_eq hnamed
  have hperm : (gapRecords runId (keptGaps (shownCorpus runId (runHistory writes runId)))).Perm
      (((keptGaps (shownCorpus runId (runHistory writes runId))).map gapColumnKey).map
        keyRecord) := by
    have hsame : ((keptGaps (shownCorpus runId (runHistory writes runId))).map gapColumnKey).map
        keyRecord = (keptGaps (shownCorpus runId (runHistory writes runId))).map
          (ScopedGap.record runId) := by
      rw [List.map_map]
      exact List.map_congr_left fun gap hgap => (hread gap hgap).symm
    rw [hsame]
    exact (orderBy_perm _ _).map _
  constructor
  · obtain ⟨keys, hkeys, hsublist⟩ :=
      keptGaps_subperm (shownCorpus runId (runHistory writes runId))
    refine hperm.subperm.trans ((hkeys.map keyRecord).symm.subperm.trans
      ((hsublist.map keyRecord).subperm.trans ?_))
    rw [List.map_map]
    exact ((orderBy_perm _ _).map _).symm.subperm
  · intro record
    have hmem := hperm.mem_iff (a := record)
    refine hmem.trans ?_
    rw [List.mem_map]
    constructor
    · rintro ⟨key, hkey, rfl⟩
      obtain ⟨gap, hgap, rfl⟩ := List.mem_map.mp hkey
      obtain ⟨item, hitem, hscoped⟩ := List.mem_filterMap.mp (mem_corpusGaps_of_mem_keptGaps hgap)
      refine ⟨item, hitem, Option.isSome_iff_exists.mpr ⟨gap, hscoped⟩, ?_⟩
      rw [gapColumnKey_eq hscoped]
      rfl
    · rintro ⟨item, hitem, hscoped, rfl⟩
      obtain ⟨gap, hscoped⟩ := Option.isSome_iff_exists.mp hscoped
      have hgap : gap ∈ corpusGaps (shownCorpus runId (runHistory writes runId)) :=
        List.mem_filterMap.mpr ⟨item, hitem, hscoped⟩
      obtain ⟨kept, hkept, hrow⟩ := List.mem_map.mp (mem_keptGaps_rowIds
        (fun g hg => hrun.runId_eq.symm ▸ (hplain g hg).1) hgap)
      obtain ⟨-, hframework, hcontrol, hrule⟩ := complianceGapRowId_inj hrow
      refine ⟨_, List.mem_map_of_mem hkept, ?_⟩
      have hkey : gapColumnKey kept = gapColumnKey gap :=
        Prod.ext hframework (Prod.ext hcontrol hrule)
      rw [hkey, gapColumnKey_eq hscoped]
      rfl

theorem gaps_of_plain_rules_failed :
    ∃ gaps, (complianceGapRecordsForRun "a".toList).Answers
      (attemptWrites [attempt (failedCorpus "a".toList)]).2 gaps ∧
        "gdpr:c1:r1".toList ∈ gaps := by
  have haccepted : (attemptWrites [attempt (failedCorpus "a".toList)]).1 =
      [failedCorpus "a".toList] := by
    decide +kernel
  have hplain : PlainGaps (attemptWrites [attempt (failedCorpus "a".toList)]).1 := by
    rw [haccepted]
    intro corpus hcorpus gap hgap
    obtain rfl := List.mem_singleton.mp hcorpus
    obtain ⟨item, hitem, hscoped⟩ := List.mem_filterMap.mp hgap
    obtain rfl := List.mem_singleton.mp hitem
    obtain ⟨hframework, hresult⟩ := scopedGap_eq_some hscoped
    have hgdpr : gap.frameworkId = "gdpr".toList := (Option.some.inj hframework).symm
    exact
      { plain := ne_lengthPrefixed_of_not_mem (hresult ▸ by decide)
        named := hresult ▸ by decide
        run := by decide
        framework := hgdpr ▸ by decide
        control := hresult ▸ by decide
        rule := hresult ▸ by decide }
  obtain ⟨gaps, hanswers, -, hmem⟩ := (gaps_of_plain_rules hplain "a".toList).2
  refine ⟨gaps, hanswers, (hmem _).mpr ?_⟩
  have hhistory : runHistory [attempt (failedCorpus "a".toList)] "a".toList =
      [failedCorpus "a".toList] := by
    rw [runHistory, haccepted]
    rfl
  rw [hhistory]
  exact ⟨_, List.mem_singleton_self _, rfl, rfl⟩

end SovriAgent
