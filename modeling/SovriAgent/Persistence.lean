import SovriAgent.ExportRun
import SovriAgent.Rewrite

/-!
# Reading a Persisted Run Back

A corpus without repeated keys, written to a fresh database and read back, is the corpus in
the stored order. Of each result the store keeps one evidence reference, a reason that is
not blank and a timestamp; where a result carries these, nothing of it is lost.

## Main results

* `rebuiltCorpus_eq`: what is read is put together field by field.
* `exportFrameworks_eq`, `exportResults_eq`, `exportControls_eq`, `exportEvidence_eq`: the
  rows read are the items written, in the stored order.
* `persisted_run_reconstructs`: the corpus read back.
* `persisting_loses_references`: what of a result is not read back.
-/

namespace SovriAgent

open Keyed Transaction Transaction.Tx

/-! ### What the store keeps -/

/-- A result as the store keeps it. -/
def keptResult (sdk : ResultSdk) (runExecutedAt : Str) (result : ControlResult) : ControlResult :=
  { result with
    evidenceRefs := if result.evidenceRefs.head?.getD [] = [] then []
      else [result.evidenceRefs.head?.getD []]
    reason := restoredReason sdk result.status result.reason
    executedAt := if result.executedAt = [] then runExecutedAt else result.executedAt }

/-- A scoped result as the store keeps it. -/
def keptScopedResult (sdk : ResultSdk) (runExecutedAt : Str) (item : ScopedResult) :
    ScopedResult :=
  { item with result := keptResult sdk runExecutedAt item.result }

/-- A corpus as the store keeps it, in the stored order. -/
def storedCorpus (sdk : ResultSdk) (corpus : Corpus) : Corpus where
  executedAt := corpus.executedAt
  runId := corpus.runId
  controls := orderBy [Control.frameworkId, Control.id] corpus.controls
  results := (orderBy [fun item => item.result.controlId, fun item => item.result.ruleId,
    frameworkColumn] corpus.results).map (keptScopedResult sdk corpus.executedAt)
  evidence := orderBy [Evidence.id] corpus.evidence
  frameworks := orderBy [Framework.id] corpus.frameworks

/-- A result of which the store keeps everything. -/
structure KeptWhole (result : ControlResult) : Prop where
  references : result.evidenceRefs.length ≤ 1
  reference_ne : [] ∉ result.evidenceRefs
  reason : result.reason = none → result.status = .pass
  reason_ne : ∀ reason, result.reason = some reason → trim reason ≠ []
  executedAt : result.executedAt ≠ []

theorem keptResult_eq {result : ControlResult} (h : KeptWhole result) (sdk : ResultSdk)
    (runExecutedAt : Str) : keptResult sdk runExecutedAt result = result := by
  obtain ⟨controlId, ruleId, status, severity, weight, refs, reason, executedAt, metadata⟩ := result
  have hrefs : (if refs.head?.getD [] = [] then [] else [refs.head?.getD []]) = refs := by
    have hlength : refs.length ≤ 1 := h.references
    have hne : [] ∉ refs := h.reference_ne
    match refs with
    | [] => rfl
    | [reference] => exact if_neg fun hempty => hne (by simpa using hempty.symm)
    | _ :: _ :: _ => simp at hlength
  have hreason : restoredReason sdk status reason = reason := by
    rw [restoredReason]
    rcases reason with _ | reason
    · have hpass : status = .pass := h.reason rfl
      rw [Option.filter_none, hpass]
      rfl
    · have hblank : trim reason ≠ [] := h.reason_ne reason rfl
      have hkept : (some reason).filter (trim · ≠ []) = some reason :=
        Option.filter_eq_some_iff.mpr ⟨rfl, decide_eq_true hblank⟩
      rw [hkept]
  have hexecuted : (if executedAt = [] then runExecutedAt else executedAt) = executedAt :=
    if_neg h.executedAt
  simp only [keptResult, hrefs, hreason, hexecuted]

/-! ### Putting a corpus together -/

/-- A loop that pushes one item after the other. -/
theorem foldl_push {α β : Type} {push : β → α → β} {f : List α → β}
    (h : ∀ items a, push (f items) a = f (items ++ [a])) (before items : List α) :
    items.foldl push (f before) = f (before ++ items) := by
  induction items generalizing before with
  | nil => rw [List.append_nil, List.foldl_nil]
  | cons a items ih => rw [List.foldl_cons, h, ih, List.append_assoc, List.singleton_append]

/-- **What is read is put together field by field.** -/
theorem rebuiltCorpus_eq (runId executedAt : Str) (frameworks : List Framework)
    (controls : List Control) (results : List ScopedResult) (evidence : List Evidence) :
    rebuiltCorpus runId executedAt frameworks controls results evidence =
      ⟨executedAt, runId, controls, results, evidence, frameworks⟩ := by
  have hframeworks : frameworks.foldl Corpus.withFramework
      ((Corpus.new executedAt).withRunId runId) = ⟨executedAt, runId, [], [], [], frameworks⟩ :=
    foldl_push (f := fun frameworks => (⟨executedAt, runId, [], [], [], frameworks⟩ : Corpus))
      (fun _ _ => rfl) [] frameworks
  have hcontrols : controls.foldl Corpus.withControl ⟨executedAt, runId, [], [], [], frameworks⟩ =
      ⟨executedAt, runId, controls, [], [], frameworks⟩ :=
    foldl_push (f := fun controls => (⟨executedAt, runId, controls, [], [], frameworks⟩ : Corpus))
      (fun _ _ => rfl) [] controls
  have hscoped : ∀ (corpus : Corpus) (item : ScopedResult), corpus.withScopedResult item =
      { corpus with results := corpus.results ++ [item] } := by
    rintro corpus ⟨_ | frameworkId, result⟩
    · rfl
    · rfl
  have hresults : results.foldl Corpus.withScopedResult
      ⟨executedAt, runId, controls, [], [], frameworks⟩ =
      ⟨executedAt, runId, controls, results, [], frameworks⟩ :=
    foldl_push (f := fun results =>
        (⟨executedAt, runId, controls, results, [], frameworks⟩ : Corpus))
      (fun _ _ => hscoped _ _) [] results
  rw [rebuiltCorpus, hframeworks, hcontrols, hresults]
  exact foldl_push (f := fun evidence =>
      (⟨executedAt, runId, controls, results, evidence, frameworks⟩ : Corpus))
    (fun _ _ => rfl) [] evidence

/-! ### The rows of a run, in order -/

/-- A corpus without repeated keys. -/
structure DistinctKeys (corpus : Corpus) : Prop where
  named : ∀ item ∈ corpus.results, item.frameworkId ≠ some []
  results : (corpus.results.map fun item =>
    (item.frameworkId, item.result.controlId, item.result.ruleId)).Nodup
  evidence : (corpus.evidence.map Evidence.id).Nodup
  digests : ∀ evidence ∈ corpus.evidence, evidence.integrity ≠ []
  frameworks : (corpus.frameworks.map Framework.id).Nodup
  controls : (corpus.controls.map fun control => (control.frameworkId, control.id)).Nodup

/-- A framework column that comes from no empty id determines the scope. -/
theorem frameworkId_eq_of_column {item item' : ScopedResult} (h : item.frameworkId ≠ some [])
    (h' : item'.frameworkId ≠ some []) (heq : frameworkColumn item = frameworkColumn item') :
    item.frameworkId = item'.frameworkId := by
  rw [frameworkColumn, frameworkColumn] at heq
  rcases hid : item.frameworkId with _ | frameworkId <;>
    rcases hid' : item'.frameworkId with _ | frameworkId' <;>
    rw [hid, hid'] at heq <;> simp_all

namespace DistinctKeys

variable {corpus : Corpus}

/-- Results that agree on the three columns of their order are the same. -/
theorem result_eq (h : DistinctKeys corpus) {item item' : ScopedResult}
    (hitem : item ∈ corpus.results) (hitem' : item' ∈ corpus.results)
    (hcolumn : frameworkColumn item = frameworkColumn item')
    (hcontrol : item.result.controlId = item'.result.controlId)
    (hrule : item.result.ruleId = item'.result.ruleId) : item = item' := by
  have hframework :=
    frameworkId_eq_of_column (h.named item hitem) (h.named item' hitem') hcolumn
  refine List.inj_on_of_nodup_map h.results hitem hitem' ?_
  simp only [hframework, hcontrol, hrule]

theorem resultRowIds (h : DistinctKeys corpus) (runId : Str) :
    (corpus.results.map (resultRowId runId)).Nodup := by
  refine List.Nodup.map_on (fun item hitem item' hitem' heq => ?_) (List.Nodup.of_map _ h.results)
  obtain ⟨-, hcolumn, hcontrol, hrule⟩ := controlResultRowId_inj heq
  exact h.result_eq hitem hitem' hcolumn hcontrol hrule

end DistinctKeys

section Rows

variable {corpus : Corpus} {db : Db}

theorem exportFrameworks_eq (hrows : RunRows corpus db) (h : DistinctKeys corpus) :
    (orderBy [Framework.id] ((db.runFrameworkLinks.rows.filter fun r =>
      r.1.1 = corpus.runId).map fun r => ⟨r.1.2, r.2.version, r.2.sourceUrl⟩)) =
      orderBy [Framework.id] corpus.frameworks := by
  have hkeys : (corpus.frameworks.map fun f => (corpus.runId, f.id)).Nodup := by
    have hid := h.frameworks.map (Prod.mk_right_injective corpus.runId)
    rwa [List.map_map] at hid
  have hperm := (hrows.frameworkLinks.perm hkeys fun _ _ => rfl).map
    fun r : (Str × Str) × FrameworkLinkRow => (⟨r.1.2, r.2.version, r.2.sourceUrl⟩ : Framework)
  rw [List.map_map] at hperm
  refine (orderBy_congr (hperm.trans (by simp [Function.comp_def, frameworkLink])).symm ?_).symm
  intro f hf f' hf' heq
  exact List.inj_on_of_nodup_map h.frameworks hf hf' (heq _ List.mem_cons_self)

theorem exportControls_eq (hrows : RunRows corpus db) (h : DistinctKeys corpus) :
    (orderBy [Control.frameworkId, Control.id] ((db.runControlLinks.rows.filter fun r =>
      r.1.1 = corpus.runId).map fun r =>
        ⟨r.1.2.1, r.1.2.2, r.2.title, r.2.severity, r.2.weight, r.2.reference⟩)) =
      orderBy [Control.frameworkId, Control.id] corpus.controls := by
  have hkeys : (corpus.controls.map fun c => (corpus.runId, c.frameworkId, c.id)).Nodup := by
    have hid := h.controls.map (Prod.mk_right_injective corpus.runId)
    rwa [List.map_map] at hid
  have hperm := (hrows.controlLinks.perm hkeys fun _ _ => rfl).map
    fun r : (Str × Str × Str) × ControlLinkRow =>
      (⟨r.1.2.1, r.1.2.2, r.2.title, r.2.severity, r.2.weight, r.2.reference⟩ : Control)
  rw [List.map_map] at hperm
  refine (orderBy_congr (hperm.trans (by simp [Function.comp_def, controlLink])).symm ?_).symm
  intro c hc c' hc' heq
  refine List.inj_on_of_nodup_map h.controls hc hc' (Prod.ext ?_ ?_)
  · exact heq Control.frameworkId (by simp)
  · exact heq Control.id (by simp)

theorem exportResults_eq (hrows : RunRows corpus db) (h : DistinctKeys corpus) :
    (orderBy [ControlResultRow.controlId, ControlResultRow.ruleId, ControlResultRow.frameworkId]
      ((db.controlResults.rows.filter fun r => r.2.runId = corpus.runId).map Prod.snd)) =
      (orderBy [fun item => item.result.controlId, fun item => item.result.ruleId,
        frameworkColumn] corpus.results).map (resultRow corpus.runId) := by
  have hperm := (hrows.results.perm (h.resultRowIds _) fun _ _ => rfl).map Prod.snd
  rw [List.map_map] at hperm
  refine (orderBy_congr hperm.symm ?_).symm.trans (orderBy_map (resultRow corpus.runId) _ _)
  intro row hrow row' hrow' heq
  obtain ⟨item, hitem, rfl⟩ := List.mem_map.mp hrow
  obtain ⟨item', hitem', rfl⟩ := List.mem_map.mp hrow'
  refine congrArg _ (h.result_eq hitem hitem' ?_ ?_ ?_)
  · exact heq ControlResultRow.frameworkId (by simp)
  · exact heq ControlResultRow.controlId (by simp)
  · exact heq ControlResultRow.ruleId (by simp)

/-- A link made of an evidence record stands for it. -/
theorem linkedEvidence_link {evidence : Evidence} (hdigest : evidence.integrity ≠ [])
    {record : EvidenceRecord} (hrecord : record.kind = evidence.kind ∧
      record.locator = evidence.location ∧ record.integrity = evidence.integrity ∧
      record.classification = evidence.classification.asStr) (metadata : EvidenceRow) :
    linkedEvidence evidence.id (evidenceLink record metadata) = evidence := by
  obtain ⟨hkind, hlocator, hintegrity, hclass⟩ := hrecord
  rw [linkedEvidence, evidenceLink, hintegrity, if_neg hdigest, if_neg hdigest, hkind, hlocator,
    hclass, Classification.fromPersisted_asStr]
  rfl

theorem exportEvidence_eq (hlinks : db.runEvidenceLinks.Agrees
      (fun key _ => key.1 = corpus.runId) (Table.lastOf (fun e => (corpus.runId, e.id))
        (fun e => evidenceLink e (evidenceRow [] e)) corpus.evidenceRecords))
    (h : DistinctKeys corpus) :
    (orderBy [Evidence.id] ((db.runEvidenceLinks.rows.filter fun r =>
      r.1.1 = corpus.runId).map fun r => linkedEvidence r.1.2 r.2)) =
      orderBy [Evidence.id] corpus.evidence := by
  have hkeys : (corpus.evidenceRecords.map fun e => (corpus.runId, e.id)).Nodup := by
    have hid := h.evidence.map (Prod.mk_right_injective corpus.runId)
    rw [List.map_map] at hid
    rw [Corpus.evidenceRecords, List.map_map]
    exact hid
  have hperm := (hlinks.perm hkeys fun _ _ => rfl).map fun r => linkedEvidence r.1.2 r.2
  have hitems : (corpus.evidenceRecords.map fun e =>
      (((corpus.runId, e.id), evidenceLink e (evidenceRow [] e)) :
        (Str × Str) × EvidenceLinkRow)).map (fun r => linkedEvidence r.1.2 r.2) =
      corpus.evidence := by
    rw [Corpus.evidenceRecords, List.map_map, List.map_map]
    refine (List.map_congr_left fun evidence hmem => ?_).trans (List.map_id _)
    exact linkedEvidence_link (h.digests evidence hmem) ⟨rfl, rfl, rfl, rfl⟩ _
  rw [hitems] at hperm
  refine (orderBy_congr hperm.symm ?_).symm
  intro e he e' he' heq
  exact List.inj_on_of_nodup_map h.evidence he he' (heq _ List.mem_cons_self)

end Rows

/-! ### Results -/

theorem persistedStatus_label (sdk : ResultSdk) (status : Status) :
    persistedStatus sdk status.label = .ok status := by
  cases status <;> rfl

/-- A stored result is rebuilt as the store keeps it. -/
theorem reconstructScopedResult_eq {sdk : ResultSdk} {runId runExecutedAt : Str}
    {item : ScopedResult} (hnamed : item.frameworkId ≠ some [])
    (htime : (keptResult sdk runExecutedAt item.result).executedAt ≠ [])
    (hsdk : sdk.build (keptResult sdk runExecutedAt item.result) =
      .ok (keptResult sdk runExecutedAt item.result)) :
    reconstructScopedResult sdk runExecutedAt (resultRow runId item) =
      .ok (keptScopedResult sdk runExecutedAt item) := by
  have hfields : restoredFields sdk (resultRow runId item) item.result.status
      (keptResult sdk runExecutedAt item.result).executedAt =
      keptResult sdk runExecutedAt item.result := rfl
  have hresult : reconstructControlResult sdk (resultRow runId item) runExecutedAt =
      .ok (keptResult sdk runExecutedAt item.result) := by
    have hstatus : persistedStatus sdk (resultRow runId item).status = .ok item.result.status :=
      persistedStatus_label sdk _
    have hexecuted : (if (resultRow runId item).executedAt = [] then runExecutedAt
        else (resultRow runId item).executedAt) =
        (keptResult sdk runExecutedAt item.result).executedAt := rfl
    rw [reconstructControlResult, hstatus]
    simp only [hexecuted, if_neg htime, hfields, hsdk]
  have hscope : (if (resultRow runId item).frameworkId = [] then none
      else some (resultRow runId item).frameworkId) = item.frameworkId := by
    change (if frameworkColumn item = [] then none else some (frameworkColumn item)) = _
    rcases hframework : item.frameworkId with _ | frameworkId
    · rw [frameworkColumn, hframework]
      rfl
    · have hne : frameworkId ≠ [] := fun hempty => hnamed (by rw [hframework, hempty])
      rw [frameworkColumn, hframework, Option.getD_some, if_neg hne]
  rw [reconstructScopedResult, hresult]
  simp only [hscope]
  rfl

/-- A loop in which every turn succeeds. -/
theorem mapM_ok {α β γ ε : Type} {f : β → Except ε γ} {row : α → β} {kept : α → γ}
    {items : List α} (h : ∀ a ∈ items, f (row a) = .ok (kept a)) :
    (items.map row).mapM f = .ok (items.map kept) := by
  induction items with
  | nil => rfl
  | cons a items ih =>
      rw [List.map_cons, List.mapM_cons, h a List.mem_cons_self,
        ih fun b hb => h b (List.mem_cons_of_mem a hb)]
      rfl

/-! ### Writing and reading back -/

theorem answers_ask {α : Type} {needs : List Column} {db : Db} (h : CurrentShape db)
    (read : Db → α) (hneeds : needs ⊆ initialColumns := by decide) :
    (ask needs read).Answers db (read db) :=
  answers_query (if_pos (h.all_columnExists hneeds))

/-- A run stored without repeated keys is read back in the stored order. -/
theorem answers_reconstruct {sdk : ResultSdk} {corpus : Corpus} {db : Db} (hdb : CurrentShape db)
    (hrun : db.scanRuns.get corpus.runId = some ⟨corpus.executedAt⟩) (hrows : RunRows corpus db)
    (hlinks : db.runEvidenceLinks.Agrees (fun key _ => key.1 = corpus.runId)
      (Table.lastOf (fun e => (corpus.runId, e.id)) (fun e => evidenceLink e (evidenceRow [] e))
        corpus.evidenceRecords))
    (hkeys : DistinctKeys corpus)
    (htime : ∀ item ∈ corpus.results,
      (keptResult sdk corpus.executedAt item.result).executedAt ≠ [])
    (hsdk : ∀ item ∈ corpus.results, sdk.build (keptResult sdk corpus.executedAt item.result) =
      .ok (keptResult sdk corpus.executedAt item.result)) :
    (reconstructExportCorpus sdk corpus.runId).Answers db (storedCorpus sdk corpus) := by
  refine answers_bind (answers_ask hdb fun db => db.scanRuns.get corpus.runId) ?_
  rw [hrun]
  refine answers_bind (answers_ask hdb _) (answers_bind (answers_ask hdb _)
    (answers_bind (answers_ask hdb _) ?_))
  rw [exportResults_eq hrows hkeys, exportFrameworks_eq hrows hkeys, exportControls_eq hrows hkeys]
  have hresults : ∀ item ∈ orderBy [fun item => item.result.controlId,
      fun item => item.result.ruleId, frameworkColumn] corpus.results,
      reconstructScopedResult sdk corpus.executedAt (resultRow corpus.runId item) =
        .ok (keptScopedResult sdk corpus.executedAt item) := by
    intro item hitem
    have hmem : item ∈ corpus.results := (orderBy_perm _ _).mem_iff.mp hitem
    exact reconstructScopedResult_eq (hkeys.named item hmem) (htime item hmem) (hsdk item hmem)
  refine answers_bind (answers_lift (mapM_ok hresults) db) (answers_bind (answers_ask hdb _) ?_)
  rw [exportEvidence_eq hlinks hkeys, rebuiltCorpus_eq]
  exact answers_pure _ db

/-- Two corpora are the same up to the order of their lists. -/
structure SameCorpus (corpus corpus' : Corpus) : Prop where
  executedAt : corpus.executedAt = corpus'.executedAt
  runId : corpus.runId = corpus'.runId
  controls : corpus.controls.Perm corpus'.controls
  results : corpus.results.Perm corpus'.results
  evidence : corpus.evidence.Perm corpus'.evidence
  frameworks : corpus.frameworks.Perm corpus'.frameworks

/-- What the store keeps of a corpus, up to order. -/
theorem storedCorpus_same (sdk : ResultSdk) (corpus : Corpus) :
    SameCorpus (storedCorpus sdk corpus)
      { corpus with results := corpus.results.map (keptScopedResult sdk corpus.executedAt) } where
  executedAt := rfl
  runId := rfl
  controls := orderBy_perm _ _
  results := (orderBy_perm _ _).map _
  evidence := orderBy_perm _ _
  frameworks := orderBy_perm _ _

/-- A corpus of which the store keeps every result whole. -/
theorem kept_eq {corpus : Corpus} (h : ∀ item ∈ corpus.results, KeptWhole item.result)
    (sdk : ResultSdk) :
    { corpus with results := corpus.results.map (keptScopedResult sdk corpus.executedAt) } =
      corpus := by
  have hresults : corpus.results.map (keptScopedResult sdk corpus.executedAt) = corpus.results := by
    refine (List.map_congr_left fun item hitem => ?_).trans (List.map_id _)
    rw [keptScopedResult, keptResult_eq (h item hitem)]
    rfl
  rw [hresults]

/-- **A persisted run is read back** as the store keeps it, and exported as that corpus is; a
corpus whose results are kept whole comes back the same, up to the order of its lists. -/
theorem persisted_run_reconstructs {sdk : ResultSdk} {exporters : Exporters} {corpus : Corpus}
    {faults : ℕ → Bool} {db : Db}
    (hwrite : writeCompletedCorpus corpus faults freshDb = (.ok (), db))
    (hkeys : DistinctKeys corpus)
    (htime : ∀ item ∈ corpus.results,
      (keptResult sdk corpus.executedAt item.result).executedAt ≠ [])
    (hsdk : ∀ item ∈ corpus.results, sdk.build (keptResult sdk corpus.executedAt item.result) =
      .ok (keptResult sdk corpus.executedAt item.result)) :
    (reconstructExportCorpus sdk corpus.runId).answer (fun _ => false) db =
        .ok (storedCorpus sdk corpus) ∧
      (∀ format seed, (exportRun sdk exporters format corpus.runId seed).answer (fun _ => false)
        db = exportAs exporters format seed (storedCorpus sdk corpus)) ∧
      SameCorpus (storedCorpus sdk corpus)
        { corpus with results := corpus.results.map (keptScopedResult sdk corpus.executedAt) } ∧
      ((∀ item ∈ corpus.results, KeptWhole item.result) →
        SameCorpus (storedCorpus sdk corpus) corpus) := by
  obtain rfl := (writeCompletedCorpus_ok hwrite).eq_written
  have hrun : (written corpus freshDb).scanRuns.get corpus.runId = some ⟨corpus.executedAt⟩ := by
    rw [get_scanRuns_written, if_pos rfl]
    rfl
  have hanswers := answers_reconstruct (currentShape_freshDb.written corpus) hrun
    (runRows_written currentShape_freshDb corpus)
    (evidenceLinks_written currentShape_freshDb hkeys.digests) hkeys htime hsdk
  refine ⟨hanswers.answer_eq, fun format seed => ?_, storedCorpus_same sdk corpus, fun h => ?_⟩
  · exact hanswers.answer_lift (exportAs exporters format seed)
  · have hsame := storedCorpus_same sdk corpus
    rwa [kept_eq h sdk] at hsame

/-- An SDK that accepts every result. -/
def acceptingSdk : ResultSdk :=
  ⟨.ok, fun status => status.label, id⟩

/-- Exporters that render nothing. -/
def blankExporters : Exporters :=
  ⟨fun _ => .ok [], fun _ => [], fun _ _ => []⟩

theorem persisted_run_reconstructs_passed :
    (reconstructExportCorpus acceptingSdk passedCorpus.runId).answer (fun _ => false)
        (written passedCorpus freshDb) = .ok (storedCorpus acceptingSdk passedCorpus) := by
  have haccepted : writeCompletedCorpus passedCorpus (fun _ => false) freshDb =
      (.ok (), written passedCorpus freshDb) :=
    writeCompletedCorpus_accepts currentShape_freshDb (by decide) (by decide)
  have hkeys : DistinctKeys passedCorpus :=
    ⟨by decide, by decide, by decide, by decide, by decide, by decide⟩
  have hread := @persisted_run_reconstructs acceptingSdk blankExporters passedCorpus
    (fun _ => false) (written passedCorpus freshDb) haccepted hkeys (by decide) fun _ _ => rfl
  exact hread.1

/-- A corpus with a result that names two evidence references, one that failed without a reason,
and one without a timestamp. -/
def lossyCorpus : Corpus :=
  { failedCorpus "a".toList with
    results := [
      ⟨some "gdpr".toList, ⟨"c1".toList, "r1".toList, .pass, "major".toList, 1,
        ["e1".toList, "e2".toList], none, "now".toList, []⟩⟩,
      ⟨some "gdpr".toList, ⟨"c2".toList, "r1".toList, .fail, "major".toList, 1, [], none,
        "now".toList, []⟩⟩,
      ⟨some "gdpr".toList, ⟨"c3".toList, "r1".toList, .pass, "major".toList, 1, [], none, [],
        []⟩⟩] }

/-- A corpus without any timestamp. -/
def timelessCorpus : Corpus :=
  { lossyCorpus with executedAt := [], results := lossyCorpus.results.drop 2 }

/-- **What of a result is not read back**: further evidence references, a missing reason, a
missing timestamp; and without any timestamp nothing is. -/
theorem persisting_loses_references :
    DistinctKeys lossyCorpus ∧
      (writeCompletedCorpus lossyCorpus (fun _ => false) freshDb).1 = .ok () ∧
      (reconstructExportCorpus acceptingSdk lossyCorpus.runId).answer (fun _ => false)
        (afterWrite lossyCorpus freshDb) = .ok (storedCorpus acceptingSdk lossyCorpus) ∧
      (∀ item ∈ lossyCorpus.results, item ∉ (storedCorpus acceptingSdk lossyCorpus).results) ∧
      (writeCompletedCorpus timelessCorpus (fun _ => false) freshDb).1 = .ok () ∧
      (reconstructExportCorpus acceptingSdk timelessCorpus.runId).answer (fun _ => false)
        (afterWrite timelessCorpus freshDb) =
          .error (.schema "persisted result c3:r1 execution timestamp is missing".toList) := by
  refine ⟨⟨by decide, by decide, by decide, by decide, by decide, by decide⟩, ?_⟩
  decide +kernel

end SovriAgent
