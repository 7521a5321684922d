import Mathlib

/-!
# Journals

The entries a store has accepted, the newest first, each with a key. A store that shows under
every key something an entry of that key determines, and that entries of other keys leave
alone, shows under a key a function of that key's history only. How the entries of different
keys were interleaved then makes no difference.

## Main results

* `ShowsHistories.of_records`: what a store that records a journal shows.
* `SameHistories.of_perm`: entries with keys of their own, in any order.
-/

namespace Journal

variable {α κ σ : Type} [DecidableEq κ] {key : α → κ}

/-- The entries of a key, the newest first. -/
def history (key : α → κ) (journal : List α) (k : κ) : List α :=
  journal.filter (key · = k)

@[simp] theorem history_nil (key : α → κ) (k : κ) : history key [] k = [] := rfl

theorem history_cons (key : α → κ) (a : α) (journal : List α) (k : κ) :
    history key (a :: journal) k =
      if k = key a then a :: history key journal k else history key journal k := by
  by_cases hk : k = key a
  · rw [if_pos hk, history, List.filter_cons_of_pos (by simp [hk])]
    rfl
  · rw [if_neg hk, history, List.filter_cons_of_neg (by simp [Ne.symm hk])]
    rfl

theorem mem_history {journal : List α} {k : κ} {a : α} :
    a ∈ history key journal k ↔ a ∈ journal ∧ key a = k := by
  rw [history, List.mem_filter, decide_eq_true_iff]

/-- The newest entry of a key. -/
def latest (key : α → κ) (journal : List α) (k : κ) : Option α :=
  (history key journal k).head?

/-- The keys with a newest entry are those of the entries. -/
theorem latest_isSome_iff {journal : List α} {k : κ} :
    (latest key journal k).isSome = true ↔ k ∈ journal.map key := by
  rw [latest, List.isSome_head?, List.mem_map]
  constructor
  · intro hne
    obtain ⟨a, ha⟩ := List.exists_mem_of_ne_nil _ (by simpa using hne)
    exact ⟨a, mem_history.mp ha⟩
  · rintro ⟨a, ha, hk⟩
    simpa using List.ne_nil_of_mem (mem_history.mpr ⟨ha, hk⟩)

/-! ### Interleavings -/

/-- Two journals have the same history of every key: only the order of entries of different
keys may differ. -/
def SameHistories (key : α → κ) (journal journal' : List α) : Prop :=
  ∀ k, history key journal k = history key journal' k

/-- Entries with keys of their own may come in any order. -/
theorem SameHistories.of_perm {journal journal' : List α} (h : journal.Perm journal')
    (hnodup : (journal.map key).Nodup) : SameHistories key journal journal' := by
  intro k
  refine List.Perm.eq_of_pairwise (fun a b ha hb (_ : True) (_ : True) => ?_)
    (List.pairwise_of_forall fun _ _ => trivial) (List.pairwise_of_forall fun _ _ => trivial)
    (h.filter _)
  obtain ⟨hmem, hkey⟩ := mem_history.mp ha
  obtain ⟨hmem', hkey'⟩ := mem_history.mp hb
  exact List.inj_on_of_nodup_map hnodup hmem (h.mem_iff.mpr hmem') (hkey.trans hkey'.symm)

/-! ### Stores that record a journal -/

/-- A store recorded a journal: it accepted the entries, the oldest first, and nothing else. -/
inductive Records (init : σ) (accepts : α → σ → σ → Prop) : List α → σ → Prop where
  | init : Records init accepts [] init
  | accept {journal : List α} {a : α} {s s' : σ} (hrecords : Records init accepts journal s)
      (haccepts : accepts a s s') : Records init accepts (a :: journal) s'

variable {init : σ} {accepts : α → σ → σ → Prop}

/-- An entry shows under its key, on top of the history there, and is not seen under any other
key; `inv` is an invariant of the store that this rests on. -/
structure ShowsHistories (init : σ) (accepts : α → σ → σ → Prop) (key : α → κ) (inv : σ → Prop)
    (shows : σ → κ → List α → Prop) : Prop where
  inv_init : inv init
  inv_step : ∀ {a s s'}, inv s → accepts a s s' → inv s'
  init : ∀ k, shows init k []
  own : ∀ {a s s' entries}, inv s → accepts a s s' → shows s (key a) entries →
    shows s' (key a) (a :: entries)
  other : ∀ {a s s' k entries}, inv s → accepts a s s' → k ≠ key a → shows s k entries →
    shows s' k entries

variable {inv : σ → Prop} {shows : σ → κ → List α → Prop}

omit [DecidableEq κ] in
theorem ShowsHistories.inv_of_records (h : ShowsHistories init accepts key inv shows)
    {journal : List α} {s : σ} (hrecords : Records init accepts journal s) : inv s := by
  induction hrecords with
  | init => exact h.inv_init
  | accept _ haccepts ih => exact h.inv_step ih haccepts

/-- **A store shows the history of every key.** -/
theorem ShowsHistories.of_records (h : ShowsHistories init accepts key inv shows)
    {journal : List α} {s : σ} (hrecords : Records init accepts journal s) (k : κ) :
    shows s k (history key journal k) := by
  induction hrecords generalizing k with
  | init => exact h.init k
  | accept hrecords haccepts ih =>
      have hinv := h.inv_of_records hrecords
      rw [history_cons]
      split
      · next hk =>
          subst hk
          exact h.own hinv haccepts (ih _)
      · next hk => exact h.other hinv haccepts hk (ih k)

end Journal
