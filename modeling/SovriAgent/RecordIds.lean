import SovriAgent.GapListings

/-!
# The Ids of Exported Records

A record of the signed export is named by its framework, if it has one, its control and its
rule, joined by colons, and so is a gap of the spreadsheet. The parts may hold colons
themselves, so two keys may be joined to one id.

## Main results

* `splitOn_derivedId`: the pieces of an id between its colons are those of its parts.
* `unique_ids_iff`: the ids of a corpus are unique exactly when no two of its results
  differ only in where their parts end.
-/

namespace SovriAgent

/-- The parts of the key of a result: its framework, if it has one, its control, its rule. -/
def keyParts (item : ScopedResult) : List Str :=
  item.frameworkId.toList ++ [item.result.controlId, item.result.ruleId]

/-- The parts of a key, cut at the colons they hold. -/
def keyPieces (item : ScopedResult) : List Str :=
  (keyParts item).flatMap fun part => part.splitOn ':'

/-- Two results with different keys that fall into the same pieces: the keys differ only in
which of their colons end a part. -/
def Shifted (item item' : ScopedResult) : Prop :=
  keyParts item ≠ keyParts item' ∧ keyPieces item = keyPieces item'

/-- The ids of the exported records are unique: those of the results and the gaps of the
signed export, and those of the gaps sheet. -/
structure UniqueIds (corpus : Corpus) : Prop where
  results : ((resultsArray corpus.results).items.map (Json.textAt "id")).Nodup
  gaps : ((gapsArray corpus.results corpus.controls corpus.frameworks).items.map
    (Json.textAt "id")).Nodup
  sheet : ((gapRowCells corpus).map List.head?).Nodup

/-! ### Ids and pieces -/

/-- The id of a result. -/
def recordId (item : ScopedResult) : Str :=
  derivedId item.frameworkId item.result

/-- **The pieces of an id between its colons are those of its parts.** -/
theorem splitOn_derivedId (item : ScopedResult) : (recordId item).splitOn ':' = keyPieces item := by
  unfold recordId derivedId keyPieces keyParts
  cases item.frameworkId with
  | none => simp [List.splitOn_append_cons_self]
  | some frameworkId => simp [List.splitOn_append_cons_self]

/-- Two ids are equal exactly when their keys fall into the same pieces. -/
theorem recordId_eq_iff {item item' : ScopedResult} :
    recordId item = recordId item' ↔ keyPieces item = keyPieces item' := by
  rw [← splitOn_derivedId, ← splitOn_derivedId]
  constructor
  · intro h
    rw [h]
  · intro h
    have hjoin := congrArg ([':'].intercalate ·) h
    simpa only [List.intercalate_splitOn] using hjoin

/-- Different keys have different parts. -/
theorem resultKey_eq_of_keyParts {item item' : ScopedResult}
    (h : keyParts item = keyParts item') : resultKey item = resultKey item' := by
  rw [keyParts, keyParts] at h
  rw [resultKey, resultKey]
  obtain ⟨hframework, hrest⟩ := List.append_inj' h rfl
  obtain ⟨hcontrol, hrule⟩ : item.result.controlId = item'.result.controlId ∧
      item.result.ruleId = item'.result.ruleId := by simpa using hrest
  have hsame : item.frameworkId = item'.frameworkId := by
    simpa using congrArg List.head? hframework
  rw [hcontrol, hrule, hsame]

/-! ### Ids of the listings -/

theorem textAt_resultMember (item : ScopedResult) :
    (resultMember item).textAt "id" = some (recordId item) := by
  rw [resultMember, textAt_jsonObject]
  simp [recordId]

theorem textAt_gapMember (result : ControlResult) (frameworkId : Str) (controls : List Control)
    (frameworks : List Framework) :
    (gapMember result frameworkId controls frameworks).textAt "id" =
      some (derivedId (some frameworkId) result) := by
  rw [gapMember, textAt_jsonObject]
  simp

/-- The id of a gap record is that of its result. -/
theorem textAt_gapRecord {controls : List Control} {frameworks : List Framework}
    {item : ScopedResult} {record : Json} (h : gapRecord controls frameworks item = some record) :
    record.textAt "id" = some (recordId item) := by
  obtain ⟨frameworkId, hframework, hrecord⟩ := Option.bind_eq_some_iff.mp h
  split_ifs at hrecord
  obtain rfl := Option.some.inj hrecord
  rw [textAt_gapMember, recordId, hframework]

/-- The first cell of a gap's row is the id of its result. -/
theorem head_gapCells {controls : List Control} {frameworks : List Framework}
    {item : ScopedResult} {gap : Str × ControlResult} (h : gapOf item = some gap) :
    (gapCells controls frameworks gap).head? = some (recordId item) := by
  obtain ⟨hframework, hresult⟩ := gapOf_eq_some h
  rw [recordId, hframework, hresult]
  rfl

/-- What is listed of results with different ids, in any order and with some left out, has
different ids. -/
theorem nodup_ids_filterMap {β γ : Type} {results listed : List ScopedResult}
    (hperm : listed.Perm results)
    (hids : results.Pairwise fun item item' => recordId item ≠ recordId item')
    {record : ScopedResult → Option β} {id : β → γ} {named : Str → γ}
    (hnamed : Function.Injective named)
    (hid : ∀ item b, record item = some b → id b = named (recordId item)) :
    ((listed.filterMap record).map id).Nodup := by
  have hlisted := (hperm.pairwise_iff fun h => Ne.symm h).mpr hids
  refine List.pairwise_map.mpr (List.Pairwise.filterMap _ ?_ hlisted)
  intro item item' hne b hb b' hb' heq
  rw [hid item b hb, hid item' b' hb'] at heq
  exact hne (hnamed heq)

/-- The ids are unique exactly when those of the results are. -/
theorem unique_ids_iff_pairwise (corpus : Corpus) :
    UniqueIds corpus ↔
      corpus.results.Pairwise fun item item' => recordId item ≠ recordId item' := by
  have hsome : Function.Injective (some : Str → Option Str) := Option.some_injective _
  have hordering : (orderedScopedResults corpus.results).Perm corpus.results :=
    List.perm_insertionSort _ _
  constructor
  · intro h
    have hresults := h.results
    rw [resultsArray, Json.items, List.map_map, List.nodup_iff_pairwise_ne,
      List.pairwise_map] at hresults
    have hordered := hresults.imp (S := fun item item' => recordId item ≠ recordId item') (by
      intro item item' hne heq
      refine hne ?_
      rw [Function.comp_apply, Function.comp_apply, textAt_resultMember, textAt_resultMember, heq])
    exact (hordering.pairwise_iff fun h => Ne.symm h).mp hordered
  · intro hids
    refine ⟨?_, ?_, ?_⟩
    · have hall := List.filterMap_eq_map (f := resultMember)
      rw [resultsArray, Json.items, ← hall]
      refine nodup_ids_filterMap hordering hids hsome ?_
      rintro item record hrecord
      obtain rfl := Option.some.inj hrecord
      exact textAt_resultMember item
    · rw [gapsArray, Json.items]
      exact nodup_ids_filterMap hordering hids hsome fun item record => textAt_gapRecord
    · rw [gapRowCells, List.map_map]
      exact nodup_ids_filterMap (List.perm_insertionSort _ _) hids hsome
        fun item gap => head_gapCells

/-- **The ids of a corpus whose results have distinct keys are unique exactly when no two of
the results differ only in where their parts end.** -/
theorem unique_ids_iff (corpus : Corpus) (hkeys : (corpus.results.map resultKey).Nodup) :
    UniqueIds corpus ↔ corpus.results.Pairwise fun item item' => ¬ Shifted item item' := by
  rw [unique_ids_iff_pairwise]
  constructor
  · intro hids
    refine hids.imp ?_
    intro item item' hne hshifted
    exact hne (recordId_eq_iff.mpr hshifted.2)
  · intro happart
    refine (happart.and (List.pairwise_map.mp hkeys)).imp ?_
    rintro item item' ⟨hshifted, hkey⟩ heq
    refine hshifted ⟨fun hparts => hkey (resultKey_eq_of_keyParts hparts), ?_⟩
    exact recordId_eq_iff.mp heq

/-- One control under two frameworks, and under none. -/
theorem unique_ids_iff_frameworks :
    UniqueIds (resultsCorpus [plainResult (some "gdpr".toList) "c".toList .fail,
      plainResult (some "soc2".toList) "c".toList .fail, plainResult none "c".toList .fail]) := by
  refine (unique_ids_iff _ (by decide)).mpr ?_
  simp only [resultsCorpus, List.pairwise_cons, Shifted, keyPieces, keyParts]
  decide

/-- A corpus with a colon in a control and another one in a framework. -/
def shiftedCorpus : Corpus :=
  resultsCorpus [plainResult (some "soc2:cc6".toList) "access".toList .fail,
    plainResult (some "soc2".toList) "cc6:access".toList .fail]

/-- **Two gaps with different keys share the id** `soc2:cc6:access:rule`. -/
theorem shifted_ids_collide :
    (shiftedCorpus.results.map resultKey).Nodup ∧ ¬ UniqueIds shiftedCorpus := by
  refine ⟨by decide, fun hunique => ?_⟩
  have hsheet := hunique.sheet
  revert hsheet
  decide

end SovriAgent
