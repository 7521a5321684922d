import SovriAgent.Corpus

/-!
# Rows in the Order of Their Keys

A query with an `ORDER BY` clause: the rows sorted by the first of several text columns,
rows that agree on it by the second, and so on. Where no two rows agree on all of them the
order does not depend on how the rows were stored.

## Main results

* `strLe_total`, `strLe_trans`, `strLe_antisymm`: the order of texts.
* `orderBy_congr`: the same rows, stored in another order, are returned in the same order.
* `orderBy_map`: sorting rows by columns is sorting what they were made of.
* `filter_orderBy`: rows that agree on every column keep their order.
-/

namespace SovriAgent

/-! ### The order of texts -/

/-- Any two texts can be compared. -/
theorem strLe_total (s t : Str) : strLe s t = true ∨ strLe t s = true := by
  induction s generalizing t with
  | nil => exact .inl rfl
  | cons a s ih =>
      cases t with
      | nil => exact .inr rfl
      | cons b t =>
          rw [strLe, strLe]
          by_cases hab : a = b
          · rw [if_pos hab, if_pos hab.symm]
            exact ih t
          · have hne : a.toNat ≠ b.toNat := fun h => hab (Char.toNat_inj.mp h)
            rw [if_neg hab, if_neg (Ne.symm hab), decide_eq_true_iff, decide_eq_true_iff]
            omega

/-- Texts that are below each other are equal. -/
theorem strLe_antisymm {s t : Str} (h : strLe s t = true) (h' : strLe t s = true) : s = t := by
  induction s generalizing t with
  | nil =>
      cases t with
      | nil => rfl
      | cons b t => cases h'
  | cons a s ih =>
      cases t with
      | nil => cases h
      | cons b t =>
          rw [strLe] at h h'
          by_cases hab : a = b
          · rw [if_pos hab] at h
            rw [if_pos hab.symm] at h'
            rw [hab, ih h h']
          · rw [if_neg hab, decide_eq_true_iff] at h
            rw [if_neg (Ne.symm hab), decide_eq_true_iff] at h'
            omega

/-- The order of texts is transitive. -/
theorem strLe_trans {s t u : Str} (h : strLe s t = true) (h' : strLe t u = true) :
    strLe s u = true := by
  induction s generalizing t u with
  | nil => rfl
  | cons a s ih =>
      cases t with
      | nil => cases h
      | cons b t =>
          cases u with
          | nil => cases h'
          | cons c u =>
              rw [strLe] at h h' ⊢
              by_cases hab : a = b
              · subst hab
                rw [if_pos rfl] at h
                by_cases hac : a = c
                · rw [if_pos hac] at h' ⊢
                  exact ih h h'
                · rw [if_neg hac] at h' ⊢
                  exact h'
              · rw [if_neg hab, decide_eq_true_iff] at h
                by_cases hbc : b = c
                · subst hbc
                  rw [if_neg hab, decide_eq_true_iff]
                  exact h
                · rw [if_neg hbc, decide_eq_true_iff] at h'
                  have hac : a ≠ c := by
                    rintro rfl
                    omega
                  rw [if_neg hac, decide_eq_true_iff]
                  omega

/-! ### Several columns -/

variable {α β : Type}

/-- Comparison by the first column on which two rows differ. -/
def lexLe : List (α → Str) → α → α → Bool
  | [], _, _ => true
  | column :: columns, a, b =>
      if column a = column b then lexLe columns a b else strLe (column a) (column b)

/-- The rows in the order of their columns. -/
def orderBy (columns : List (α → Str)) (rows : List α) : List α :=
  sortBy (lexLe columns) rows

/-- Any two rows can be compared. -/
theorem lexLe_total (columns : List (α → Str)) (a b : α) :
    lexLe columns a b = true ∨ lexLe columns b a = true := by
  induction columns with
  | nil => exact .inl rfl
  | cons column columns ih =>
      rw [lexLe, lexLe]
      by_cases hcolumn : column a = column b
      · rw [if_pos hcolumn, if_pos hcolumn.symm]
        exact ih
      · rw [if_neg hcolumn, if_neg (Ne.symm hcolumn)]
        exact strLe_total _ _

/-- The order of rows is transitive. -/
theorem lexLe_trans {columns : List (α → Str)} {a b c : α} (h : lexLe columns a b = true)
    (h' : lexLe columns b c = true) : lexLe columns a c = true := by
  induction columns with
  | nil => rfl
  | cons column columns ih =>
      rw [lexLe] at h h' ⊢
      by_cases hab : column a = column b
      · rw [if_pos hab] at h
        by_cases hbc : column b = column c
        · rw [if_pos hbc] at h'
          rw [if_pos (hab.trans hbc)]
          exact ih h h'
        · rw [if_neg hbc] at h'
          rwa [if_neg (hab ▸ hbc), hab]
      · rw [if_neg hab] at h
        by_cases hbc : column b = column c
        · rwa [if_neg (hbc ▸ hab), ← hbc]
        · rw [if_neg hbc] at h'
          have hac : column a ≠ column c := by
            intro hac
            rw [hac] at h
            exact hbc (strLe_antisymm h' h)
          rw [if_neg hac]
          exact strLe_trans h h'

/-- Rows that are below each other agree on every column. -/
theorem lexLe_antisymm {columns : List (α → Str)} {a b : α} (h : lexLe columns a b = true)
    (h' : lexLe columns b a = true) : ∀ column ∈ columns, column a = column b := by
  induction columns with
  | nil => exact fun _ hmem => by cases hmem
  | cons column columns ih =>
      rw [lexLe] at h h'
      by_cases hcolumn : column a = column b
      · rw [if_pos hcolumn] at h
        rw [if_pos hcolumn.symm] at h'
        exact List.forall_mem_cons.mpr ⟨hcolumn, ih h h'⟩
      · rw [if_neg hcolumn] at h
        rw [if_neg (Ne.symm hcolumn)] at h'
        exact absurd (strLe_antisymm h h') hcolumn

/-- Ordering keeps the rows. -/
theorem orderBy_perm (columns : List (α → Str)) (rows : List α) :
    (orderBy columns rows).Perm rows :=
  List.perm_insertionSort _ _

/-- Ordered rows ascend. -/
theorem orderBy_pairwise (columns : List (α → Str)) (rows : List α) :
    (orderBy columns rows).Pairwise fun a b => lexLe columns a b = true := by
  have : Std.Total fun a b : α => lexLe columns a b = true := ⟨lexLe_total columns⟩
  have : IsTrans α fun a b => lexLe columns a b = true := ⟨fun _ _ _ => lexLe_trans⟩
  exact List.pairwise_insertionSort _ rows

/-- **The order of storage does not matter** where the columns tell the rows apart. -/
theorem orderBy_congr {columns : List (α → Str)} {rows rows' : List α} (h : rows.Perm rows')
    (hapart : ∀ a ∈ rows, ∀ b ∈ rows, (∀ column ∈ columns, column a = column b) → a = b) :
    orderBy columns rows = orderBy columns rows' := by
  have hperm : (orderBy columns rows).Perm (orderBy columns rows') :=
    (orderBy_perm columns rows).trans (h.trans (orderBy_perm columns rows').symm)
  refine hperm.eq_of_pairwise (fun a b ha hb hab hba => ?_) (orderBy_pairwise _ _)
    (orderBy_pairwise _ _)
  exact hapart a ((orderBy_perm columns rows).mem_iff.mp ha) b
    (h.mem_iff.mpr ((orderBy_perm columns rows').mem_iff.mp hb)) (lexLe_antisymm hab hba)

/-- Rows that are in the order of columns, and stand apart in them, have one order only. -/
theorem eq_of_perm_of_sorted (columns : List (α → Str)) {rows rows' : List α}
    (h : rows.Perm rows') (hsorted : rows.Pairwise fun a b => lexLe columns a b = true)
    (hsorted' : rows'.Pairwise fun a b => lexLe columns a b = true)
    (hapart : ∀ a ∈ rows, ∀ b ∈ rows', (∀ column ∈ columns, column a = column b) → a = b) :
    rows = rows' :=
  h.eq_of_pairwise (fun a b ha hb hab hba => hapart a ha b hb (lexLe_antisymm hab hba)) hsorted
    hsorted'

/-- A column that depends on the ones before it does not count. -/
theorem lexLe_concat {columns : List (α → Str)} {column : α → Str}
    (h : ∀ a b, (∀ c ∈ columns, c a = c b) → column a = column b) :
    lexLe (columns ++ [column]) = lexLe columns := by
  funext a b
  have hdrop : ∀ columns' : List (α → Str), (∀ c ∈ columns, c ∉ columns' → c a = c b) →
      lexLe (columns' ++ [column]) a b = lexLe columns' a b := by
    intro columns'
    induction columns' with
    | nil =>
        intro hagree
        have hcolumn : column a = column b := h a b fun c hc => hagree c hc List.not_mem_nil
        exact if_pos hcolumn
    | cons first columns' ih =>
        intro hagree
        rw [List.cons_append, lexLe, lexLe]
        split
        · next hfirst =>
            refine ih fun c hc hnot => ?_
            by_cases heq : c = first
            · rw [heq, hfirst]
            · exact hagree c hc (by simp [heq, hnot])
        · rfl
  exact hdrop columns fun c hc hnot => absurd hc hnot

/-- Rows are compared by the columns of what they are made of. -/
theorem lexLe_map (f : β → α) (columns : List (α → Str)) (a b : β) :
    lexLe columns (f a) (f b) = lexLe (columns.map (· ∘ f)) a b := by
  induction columns with
  | nil => rfl
  | cons column columns ih =>
      rw [lexLe, ih]
      rfl

/-- **Sorting rows is sorting what they were made of.** -/
theorem orderBy_map (f : β → α) (columns : List (α → Str)) (items : List β) :
    orderBy columns (items.map f) = (orderBy (columns.map (· ∘ f)) items).map f := by
  refine (List.map_insertionSort _ _ f items fun a _ b _ => ?_).symm
  rw [lexLe_map]

theorem strLe_refl (s : Str) : strLe s s = true :=
  (strLe_total s s).elim id id

/-- A stable comparison by two keys is one by two columns. -/
theorem leThen_eq (first second : α → Str) : leThen first second = lexLe [first, second] := by
  funext a b
  rw [leThen, lexLe, lexLe, lexLe]
  by_cases hsecond : second a = second b
  · rw [if_pos hsecond, hsecond, strLe_refl]
  · rw [if_neg hsecond]

/-- **Sorting is stable**: items that agree on every column keep their order. -/
theorem filter_orderBy {columns : List (α → Str)} {p : α → Bool}
    (h : ∀ a b, p a = true → p b = true → ∀ column ∈ columns, column a = column b)
    (rows : List α) : (orderBy columns rows).filter p = rows.filter p := by
  have hties : ∀ {columns : List (α → Str)} {a b : α}, (∀ column ∈ columns, column a = column b) →
      lexLe columns a b = true := by
    intro columns a b hagree
    induction columns with
    | nil => rfl
    | cons column columns ih =>
        rw [lexLe, if_pos (hagree column List.mem_cons_self)]
        exact ih fun c hc => hagree c (List.mem_cons_of_mem column hc)
  have : Std.Total fun a b : α => lexLe columns a b = true := ⟨lexLe_total columns⟩
  have : IsTrans α fun a b => lexLe columns a b = true := ⟨fun _ _ _ => lexLe_trans⟩
  have htied : (rows.filter p).Pairwise fun a b => lexLe columns a b = true :=
    List.Pairwise.imp_of_mem (fun ha hb _ => hties (h _ _ (List.mem_filter.mp ha).2
      (List.mem_filter.mp hb).2)) (List.pairwise_of_forall fun _ _ => trivial)
  have hsublist : (rows.filter p).Sublist (orderBy columns rows) :=
    List.sublist_insertionSort htied List.filter_sublist
  have hfiltered : (rows.filter p).Sublist ((orderBy columns rows).filter p) := by
    simpa using hsublist.filter p
  exact (hfiltered.eq_of_length ((orderBy_perm columns rows).filter p).length_eq.symm).symm

/-- **What is made of sorted rows** does not depend on the order of storage, where rows that
the columns do not tell apart make the same. -/
theorem filterMap_orderBy_congr {columns : List (α → Str)} {columns' : List (β → Str)}
    {f : α → Option β}
    (hle : ∀ a b r s, f a = some r → f b = some s → lexLe columns a b = lexLe columns' r s)
    {rows rows' : List α} (h : rows.Perm rows')
    (hapart : ∀ r ∈ rows.filterMap f, ∀ s ∈ rows.filterMap f,
      (∀ column ∈ columns', column r = column s) → r = s) :
    (orderBy columns rows).filterMap f = (orderBy columns rows').filterMap f := by
  have hsorted : ∀ rows, ((orderBy columns rows).filterMap f).Pairwise
      fun r s => lexLe columns' r s = true := by
    intro rows
    rw [List.pairwise_filterMap]
    exact (orderBy_pairwise columns rows).imp fun hab r hr s hs => (hle _ _ r s hr hs).symm.trans hab
  have hmade : ((orderBy columns rows).filterMap f).Perm (rows.filterMap f) :=
    (orderBy_perm columns rows).filterMap f
  have hperm : ((orderBy columns rows).filterMap f).Perm ((orderBy columns rows').filterMap f) :=
    hmade.trans ((h.trans (orderBy_perm columns rows').symm).filterMap f)
  refine hperm.eq_of_pairwise (fun r s hr hs hrs hsr => ?_) (hsorted rows) (hsorted rows')
  exact hapart r (hmade.mem_iff.mp hr) s (hmade.mem_iff.mp (hperm.mem_iff.mpr hs))
    (lexLe_antisymm hrs hsr)

end SovriAgent
