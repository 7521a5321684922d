import SovriAgent.RunHistory

/-!
# The Store as a Journal

Any sequence of attempted writes, some accepted and some not, from a fresh database. What the
queries answer afterwards is a function of the accepted corpora, and for each run of those of
that run: how the writes of different runs were interleaved, which of them were rejected, and
which corpora were superseded since cannot be told from the answers.

## Main results

* `queries_answer_history`: the queries about a run answer from its history.
* `runs_listed`: the runs that are listed are those of the accepted corpora.
* `filtered_results_select`: the filtered results are a part of the results of the run.
* `interleavings_answer_alike`, `superseded_writes_do_not_show`: what makes no difference.
-/

namespace SovriAgent

open Keyed Transaction Transaction.Tx Journal

/-! ### Attempted writes -/

/-- A write that is attempted: the corpora accepted so far, the newest first, and the
database. -/
def attemptWrite (state : List Corpus × Db) (write : Corpus × (ℕ → Bool)) : List Corpus × Db :=
  match writeCompletedCorpus write.1 write.2 state.2 with
  | (.ok (), db') => (write.1 :: state.1, db')
  | (.error _, db') => (state.1, db')

/-- The corpora accepted out of a sequence of attempted writes, and the database they leave. -/
def attemptWrites (writes : List (Corpus × (ℕ → Bool))) : List Corpus × Db :=
  writes.foldl attemptWrite ([], freshDb)

/-- An attempted write is recorded if it is accepted, and leaves no trace otherwise. -/
theorem records_attemptWrite {state : List Corpus × Db}
    (h : Records freshDb Accepts state.1 state.2) (write : Corpus × (ℕ → Bool)) :
    Records freshDb Accepts (attemptWrite state write).1 (attemptWrite state write).2 := by
  rcases hwrite : writeCompletedCorpus write.1 write.2 state.2 with ⟨e | ⟨⟩, db'⟩
  · rw [attemptWrite, hwrite]
    obtain rfl := writeCompletedCorpus_error hwrite
    exact h
  · rw [attemptWrite, hwrite]
    exact h.accept ⟨write.2, hwrite⟩

/-- The database records what was accepted. -/
theorem records_attemptWrites (writes : List (Corpus × (ℕ → Bool))) :
    Records freshDb Accepts (attemptWrites writes).1 (attemptWrites writes).2 := by
  have hloop : ∀ state : List Corpus × Db, Records freshDb Accepts state.1 state.2 →
      Records freshDb Accepts (writes.foldl attemptWrite state).1
        (writes.foldl attemptWrite state).2 := by
    induction writes with
    | nil => exact fun _ h => h
    | cons write writes ih => exact fun _ h => ih _ (records_attemptWrite h write)
  exact hloop _ .init

/-- The history of a run in a sequence of attempted writes. -/
def runHistory (writes : List (Corpus × (ℕ → Bool))) (runId : Str) : List Corpus :=
  history Corpus.runId (attemptWrites writes).1 runId

theorem wellFormed_attemptWrites (writes : List (Corpus × (ℕ → Bool))) :
    WellFormed (attemptWrites writes).2 :=
  showsHistories.inv_of_records (records_attemptWrites writes)

theorem runShown_attemptWrites (writes : List (Corpus × (ℕ → Bool))) (runId : Str) :
    RunShown (attemptWrites writes).2 runId (runHistory writes runId) :=
  showsHistories.of_records (records_attemptWrites writes) runId

/-- A run is stored if one of its corpora was accepted. -/
theorem stored_iff (writes : List (Corpus × (ℕ → Bool))) (runId : Str) :
    (∃ run, (attemptWrites writes).2.scanRuns.get runId = some run) ↔
      runId ∈ (attemptWrites writes).1.map Corpus.runId := by
  rw [← latest_isSome_iff, latest, (runShown_attemptWrites writes runId).run, runHistory]
  cases (history Corpus.runId (attemptWrites writes).1 runId).head? <;> simp

/-- The keys of the run table. -/
theorem mem_runs_iff {db : Db} {runId : Str} :
    runId ∈ db.scanRuns.rows.map Prod.fst ↔ ∃ run, db.scanRuns.get runId = some run := by
  rw [List.mem_map]
  constructor
  · rintro ⟨⟨runId, run⟩, hmem, rfl⟩
    exact ⟨run, Table.mem_rows_iff.mp hmem⟩
  · rintro ⟨run, hget⟩
    exact ⟨(runId, run), Table.mem_rows_iff.mpr hget, rfl⟩

/-- The rows of the run table are the accepted runs. -/
theorem scanRuns_eq (writes : List (Corpus × (ℕ → Bool))) :
    orderBy [id] ((attemptWrites writes).2.scanRuns.rows.map Prod.fst) =
      orderedSet ((attemptWrites writes).1.map Corpus.runId) := by
  refine orderBy_id_eq (attemptWrites writes).2.scanRuns.nodup fun runId => ?_
  rw [mem_runs_iff, stored_iff]

/-- A stored run is found under its id. -/
theorem filter_scanRuns_eq (db : Db) (runId : Str) :
    (db.scanRuns.rows.filter fun r => r.1 = runId).map Prod.fst =
      if (db.scanRuns.get runId).isSome then [runId] else [] := by
  rcases hget : db.scanRuns.get runId with _ | run
  · have hnone : db.scanRuns.rows.filter (fun r => r.1 = runId) = [] := by
      refine List.filter_eq_nil_iff.mpr fun r hr hrun => ?_
      exact Table.get_eq_none_iff.mp hget
        (List.mem_map.mpr ⟨r, hr, of_decide_eq_true hrun⟩)
    rw [hnone]
    rfl
  · have hone : db.scanRuns.rows.filter (fun r => r.1 = runId) = [(runId, run)] :=
      filter_key_eq_singleton db.scanRuns.nodup (Table.mem_rows_iff.mpr hget)
    rw [hone]
    rfl

/-! ### Answers in a faulty environment -/

/-- A read of the scores, whatever fails: the database stays, and an answer is the answer. -/
theorem readScores_faulty {α : Type} {select : DbTx α} {db db' : Db} {a : α}
    (h : CurrentShape db) (hselect : select.Answers db a) {reads faults queries : ℕ → Bool}
    {result : Except LocalDatabaseError α}
    (hread : readScores select reads faults queries db = (result, db')) :
    db' = db ∧ ∀ b, result = .ok b → b = a := by
  have hcurrent : ∀ current, readScoreSummarySchemaIsCurrent.answer reads db = .ok current →
      current = true := by
    intro current hcheck
    have hfaultless := answer_faultless hcheck
    rw [answer_readScoreSummarySchemaIsCurrent, h.scoreSchema] at hfaultless
    exact (Except.ok.inj hfaultless).symm
  rw [readScores, ensureScoreSummarySchema] at hread
  rcases hcheck : readScoreSummarySchemaIsCurrent.answer reads db with e | current
  · rw [hcheck] at hread
    obtain ⟨rfl, rfl⟩ := Prod.mk.inj hread
    exact ⟨rfl, fun b hb => by cases hb⟩
  · obtain rfl := hcurrent current hcheck
    rw [hcheck] at hread
    obtain ⟨rfl, rfl⟩ := Prod.mk.inj hread
    exact ⟨rfl, fun b hb => hselect.eq_of_answer hb⟩

/-- Whatever the environment makes fail, no query about a run answers anything but a view, and
reading scores leaves the database alone. -/
structure AnswersOnly (db : Db) (runId : Str) (view : RunView) : Prop where
  executedAt : ∀ {faults a}, (completedRunExecutedAt runId).answer faults db = .ok a →
    a = view.executedAt
  frameworks : ∀ {faults a}, (frameworkRecordsForRun runId).answer faults db = .ok a →
    a = view.frameworks
  controls : ∀ {faults a}, (controlRecordsForRun runId).answer faults db = .ok a →
    a = view.controls
  results : ∀ {faults a}, (queryResultsForRun runId).answer faults db = .ok a → a = view.results
  resultRecords : ∀ {faults a}, (controlResultRecordsForRun runId).answer faults db = .ok a →
    a = view.resultRecords
  evidence : ∀ {faults a}, (evidenceMetadataRecordsForRun runId).answer faults db = .ok a →
    a = view.evidence
  scoreRecords : ∀ {reads faults queries result db'},
    scoreSummaryRecordsForRun runId reads faults queries db = (result, db') →
      db' = db ∧ ∀ a, result = .ok a → a = view.scores.map ScoreSummaryRecord.frameworkId
  scores : ∀ {reads faults queries result db'},
    scoreSummariesForRun runId reads faults queries db = (result, db') →
      db' = db ∧ ∀ a, result = .ok a → a = view.scores

theorem answersOnly_of_shown {db : Db} {runId : Str} {entries : List Corpus}
    (hdb : CurrentShape db) (h : RunShown db runId entries) :
    AnswersOnly db runId (RunView.of runId entries) := by
  have hanswered := answered_of_shown hdb h
  obtain ⟨hframeworks, hsummaries⟩ := answers_scores hdb h
  exact
    { executedAt := hanswered.executedAt.eq_of_answer
      frameworks := hanswered.frameworks.eq_of_answer
      controls := hanswered.controls.eq_of_answer
      results := hanswered.results.eq_of_answer
      resultRecords := hanswered.resultRecords.eq_of_answer
      evidence := hanswered.evidence.eq_of_answer
      scoreRecords := readScores_faulty hdb hframeworks
      scores := readScores_faulty hdb hsummaries }

/-! ### What the answers depend on -/

/-- **The queries about a run answer from its history**, after any sequence of attempted
writes, and nothing that fails makes them answer anything else. -/
theorem queries_answer_history (writes : List (Corpus × (ℕ → Bool))) (runId : Str) :
    Answered (attemptWrites writes).2 runId (RunView.of runId (runHistory writes runId)) ∧
      AnswersOnly (attemptWrites writes).2 runId
        (RunView.of runId (runHistory writes runId)) := by
  have hshape := (wellFormed_attemptWrites writes).toCurrentShape
  have hshown := runShown_attemptWrites writes runId
  exact ⟨answered_of_shown hshape hshown, answersOnly_of_shown hshape hshown⟩

/-- **The runs that are listed** are those of the accepted corpora, each once and in order; a
run is found, and has a timestamp, if it is listed. -/
theorem runs_listed (writes : List (Corpus × (ℕ → Bool))) :
    queryRuns.Answers (attemptWrites writes).2
        (orderedSet ((attemptWrites writes).1.map Corpus.runId)) ∧
      ∀ runId, ∃ executedAt,
        (completedRunExecutedAt runId).Answers (attemptWrites writes).2 executedAt ∧
        (queryRun runId).Answers (attemptWrites writes).2
          (if executedAt.isSome then [runId] else []) ∧
        (executedAt.isSome = true ↔ runId ∈ (attemptWrites writes).1.map Corpus.runId) := by
  have hshape := (wellFormed_attemptWrites writes).toCurrentShape
  refine ⟨?_, fun runId => ?_⟩
  · rw [← scanRuns_eq]
    exact answers_ask hshape _
  · have hstored : ((attemptWrites writes).2.scanRuns.get runId).isSome =
        (RunView.of runId (runHistory writes runId)).executedAt.isSome := by
      rw [(runShown_attemptWrites writes runId).run, RunView.of]
      cases (runHistory writes runId).head? <;> rfl
    refine ⟨_, (answered_of_shown hshape (runShown_attemptWrites writes runId)).executedAt, ?_, ?_⟩
    · rw [← hstored, ← filter_scanRuns_eq]
      exact answers_ask hshape _
    · rw [← hstored, ← stored_iff, Option.isSome_iff_exists]

/-- **The filtered results** are the part of the results of a run with the control and the
status that are asked for, and no result of another run is among them. -/
theorem filtered_results_select (writes : List (Corpus × (ℕ → Bool)))
    (runId controlId status : Str) : ∃ results,
      (queryResultsForRun runId).Answers (attemptWrites writes).2 results ∧
      (queryResults runId controlId status).Answers (attemptWrites writes).2
        (results.filter fun result => result.controlId = controlId ∧ result.status = status) ∧
      ∀ result ∈ results, result.runId = runId := by
  have hshape := (wellFormed_attemptWrites writes).toCurrentShape
  have hshown := runShown_attemptWrites writes runId
  refine ⟨_, (answered_of_shown hshape hshown).results, ?_, fun result hresult => ?_⟩
  · rw [← hshown.results_eq, ← listed_filter]
    exact answers_ask hshape _
  · obtain ⟨item, -, rfl⟩ := List.mem_map.mp hresult
    rfl

/-! ### What makes no difference -/

/-- Two databases answer every query about runs alike, their gaps aside. -/
structure AnswerAlike (db db' : Db) : Prop where
  runs : ∃ runs, queryRuns.Answers db runs ∧ queryRuns.Answers db' runs
  run : ∀ runId, ∃ view, Answered db runId view ∧ Answered db' runId view

/-- Histories that show the same are answered alike. -/
theorem answerAlike_of_views {writes writes' : List (Corpus × (ℕ → Bool))}
    (h : ∀ runId, RunView.of runId (runHistory writes runId) =
      RunView.of runId (runHistory writes' runId)) :
    AnswerAlike (attemptWrites writes).2 (attemptWrites writes').2 := by
  have hshape := (wellFormed_attemptWrites writes).toCurrentShape
  have hshape' := (wellFormed_attemptWrites writes').toCurrentShape
  have hlisted : ∀ runId, runId ∈ (attemptWrites writes).1.map Corpus.runId ↔
      runId ∈ (attemptWrites writes').1.map Corpus.runId := by
    intro runId
    have hstored := congrArg (fun view => view.executedAt.isSome) (h runId)
    simp only [RunView.of, Option.isSome_map] at hstored
    rw [← latest_isSome_iff, ← latest_isSome_iff]
    exact Eq.to_iff (congrArg (· = true) hstored)
  constructor
  · refine ⟨orderedSet ((attemptWrites writes).1.map Corpus.runId), ?_, ?_⟩
    · rw [← scanRuns_eq]
      exact answers_ask hshape _
    · have hsame : orderBy [id] ((attemptWrites writes').2.scanRuns.rows.map Prod.fst) =
          orderedSet ((attemptWrites writes).1.map Corpus.runId) := by
        refine orderBy_id_eq (attemptWrites writes').2.scanRuns.nodup fun runId => ?_
        rw [mem_runs_iff, stored_iff, hlisted]
      rw [← hsame]
      exact answers_ask hshape' _
  · intro runId
    refine ⟨_, answered_of_shown hshape (runShown_attemptWrites writes runId), ?_⟩
    rw [h runId]
    exact answered_of_shown hshape' (runShown_attemptWrites writes' runId)

/-- **Interleavings do not show**: two sequences of writes in which every run has the same
accepted corpora in the same order leave databases that answer alike, however the writes of
different runs were interleaved and whatever was rejected between them. -/
theorem interleavings_answer_alike {writes writes' : List (Corpus × (ℕ → Bool))}
    (h : SameHistories Corpus.runId (attemptWrites writes).1 (attemptWrites writes').1) :
    AnswerAlike (attemptWrites writes).2 (attemptWrites writes').2 :=
  answerAlike_of_views fun runId => congrArg (RunView.of runId) (h runId)

/-- An attempt in which nothing fails by itself. -/
def attempt (corpus : Corpus) : Corpus × (ℕ → Bool) :=
  (corpus, fun _ => false)

theorem interleavings_answer_alike_swapped :
    AnswerAlike
      (attemptWrites [attempt (failedCorpus "a".toList), attempt (failedCorpus "b".toList)]).2
      (attemptWrites [attempt (failedCorpus "b".toList), attempt (failedCorpus "a".toList)]).2 := by
  have hfirst : (attemptWrites [attempt (failedCorpus "a".toList),
      attempt (failedCorpus "b".toList)]).1 =
        [failedCorpus "b".toList, failedCorpus "a".toList] := by
    decide +kernel
  have hsecond : (attemptWrites [attempt (failedCorpus "b".toList),
      attempt (failedCorpus "a".toList)]).1 =
        [failedCorpus "a".toList, failedCorpus "b".toList] := by
    decide +kernel
  refine interleavings_answer_alike ?_
  rw [hfirst, hsecond]
  exact SameHistories.of_perm (List.Perm.swap _ _ _) (by decide)

/-- **Superseded writes do not show**: two sequences of writes after which every run has the
same newest corpus, all with a timestamp, leave databases that answer alike. -/
theorem superseded_writes_do_not_show {writes writes' : List (Corpus × (ℕ → Bool))}
    (h : ∀ runId, latest Corpus.runId (attemptWrites writes).1 runId =
      latest Corpus.runId (attemptWrites writes').1 runId)
    (htime : ∀ runId corpus, latest Corpus.runId (attemptWrites writes).1 runId = some corpus →
      corpus.executedAt ≠ []) :
    AnswerAlike (attemptWrites writes).2 (attemptWrites writes').2 := by
  refine answerAlike_of_views fun runId => ?_
  have hview : ∀ entries : List Corpus,
      (∀ corpus, entries.head? = some corpus → corpus.executedAt ≠ []) →
        RunView.of runId entries = RunView.of runId entries.head?.toList := by
    intro entries hstamped
    rcases entries with _ | ⟨corpus, entries⟩
    · rfl
    · have hne := hstamped corpus rfl
      simp [RunView.of, shownCorpus, shownTimestamp, hne]
  have hhead : (runHistory writes runId).head? = (runHistory writes' runId).head? := h runId
  have hstamped : ∀ corpus, (runHistory writes' runId).head? = some corpus →
      corpus.executedAt ≠ [] := by
    rw [← hhead]
    exact htime runId
  exact (hview _ (htime runId)).trans
    ((congrArg (fun newest => RunView.of runId newest.toList) hhead).trans
      (hview _ hstamped).symm)

theorem superseded_writes_do_not_show_rewritten :
    AnswerAlike
      (attemptWrites [attempt (failedCorpus "a".toList), attempt passedCorpus]).2
      (attemptWrites [attempt passedCorpus]).2 := by
  have htwice : (attemptWrites [attempt (failedCorpus "a".toList), attempt passedCorpus]).1 =
      [passedCorpus, failedCorpus "a".toList] := by
    decide +kernel
  have honce : (attemptWrites [attempt passedCorpus]).1 = [passedCorpus] := by
    decide +kernel
  have hlatest : ∀ runId, latest Corpus.runId
      (attemptWrites [attempt (failedCorpus "a".toList), attempt passedCorpus]).1 runId =
        if runId = passedCorpus.runId then some passedCorpus else none := by
    intro runId
    rw [htwice, latest, history_cons, history_cons]
    by_cases hrun : runId = passedCorpus.runId
    · rw [if_pos hrun, if_pos hrun]
      rfl
    · have hfailed : runId ≠ (failedCorpus "a".toList).runId := hrun
      rw [if_neg hrun, if_neg hfailed, if_neg hrun]
      rfl
  refine superseded_writes_do_not_show (fun runId => ?_) fun runId corpus hnewest => ?_
  · rw [hlatest, honce, latest, history_cons]
    split <;> rfl
  · rw [hlatest] at hnewest
    split at hnewest
    · obtain rfl := Option.some.inj hnewest
      decide
    · cases hnewest

end SovriAgent
