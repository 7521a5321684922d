import Mathlib

/-!
# Keyed Tables

A table of a relational store: rows with a primary key, no key twice. The rows are a
list, so that a query can enumerate them; what a statement does is specified by `get`,
the row under a key, and two tables that agree on `get` hold the same rows.

The operations are the statements a store offers: insert with a conflict policy
(update, ignore, replace), delete and update by a condition.

## Main results

* `mem_rows_iff`: the rows are exactly what `get` finds.
* `get_upsert`, `get_insertOrReplace`, `get_deleteWhere`, `get_update`: one equation for
  each statement.
* `get_overwriteAll`, `get_replaceAll`, `get_insertAll`: loops of inserts, the last row
  winning under update and replacement, the first under ignore.
* `keeps_deleteWhere`, `keeps_overwriteAll`: which rows a statement or a loop leaves alone.
* `Same.perm`: tables that agree on `get` have the same rows.
-/

namespace Keyed

/-- The items with a key are one item, where keys do not repeat. -/
theorem filter_key_eq_singleton {α κ : Type} [DecidableEq κ] {key : α → κ} {items : List α}
    (hnodup : (items.map key).Nodup) {a : α} (h : a ∈ items) :
    items.filter (fun b => key b = key a) = [a] := by
  refine List.perm_singleton.mp ((List.perm_ext_iff_of_nodup (hnodup.of_map.filter _)
    (List.nodup_singleton _)).mpr fun b => ?_)
  rw [List.mem_filter, List.mem_singleton, decide_eq_true_iff]
  constructor
  · rintro ⟨hb, hkey⟩
    exact List.inj_on_of_nodup_map hnodup hb h hkey
  · rintro rfl
    exact ⟨h, rfl⟩

/-- A table with primary keys in `κ`. -/
structure Table (κ ν : Type) where
  rows : List (κ × ν)
  nodup : (rows.map Prod.fst).Nodup

namespace Table

variable {κ ν α : Type} [DecidableEq κ]

/-- The table without rows. -/
def empty : Table κ ν :=
  ⟨[], List.nodup_nil⟩

/-- The row under a key. -/
def get (t : Table κ ν) (k : κ) : Option ν :=
  (t.rows.find? (·.1 = k)).map Prod.snd

/-- The rows are exactly what `get` finds. -/
theorem mem_rows_iff {t : Table κ ν} {k : κ} {v : ν} : (k, v) ∈ t.rows ↔ t.get k = some v := by
  obtain ⟨rows, hnodup⟩ := t
  simp only [get]
  induction rows with
  | nil => simp
  | cons r rows ih =>
      rw [List.map_cons, List.nodup_cons] at hnodup
      by_cases hr : r.1 = k
      · have hnot : ∀ w, (k, w) ∉ rows := fun w hw =>
          hnodup.1 (hr ▸ List.mem_map_of_mem (f := Prod.fst) hw)
        simp only [List.mem_cons, hnot, or_false, hr, decide_true, List.find?_cons_of_pos,
          Option.map_some, Option.some.injEq]
        constructor
        · rintro rfl
          rfl
        · rintro rfl
          exact Prod.ext hr.symm rfl
      · have hne : (k, v) ≠ r := fun h => hr (by rw [← h])
        simp only [List.mem_cons, hne, false_or, hr, decide_false, Bool.false_eq_true,
          not_false_eq_true, List.find?_cons_of_neg]
        exact ih hnodup.2

theorem get_eq_none_iff {t : Table κ ν} {k : κ} : t.get k = none ↔ k ∉ t.rows.map Prod.fst := by
  rw [Option.eq_none_iff_forall_ne_some]
  constructor
  · intro h hk
    obtain ⟨⟨k', v⟩, hmem, rfl⟩ := List.mem_map.mp hk
    exact h v (mem_rows_iff.mp hmem)
  · intro h v hv
    exact h (List.mem_map_of_mem (f := Prod.fst) (mem_rows_iff.mpr hv))

@[simp] theorem get_empty (k : κ) : (empty : Table κ ν).get k = none := rfl

/-- What `get` finds, from what the rows are. -/
theorem get_eq_of_mem {t : Table κ ν} {k : κ} {o : Option ν}
    (h : ∀ v, (k, v) ∈ t.rows ↔ o = some v) : t.get k = o := by
  cases o with
  | none =>
      rw [Option.eq_none_iff_forall_ne_some]
      intro v hv
      exact absurd ((h v).mp (mem_rows_iff.mpr hv)) (by simp)
  | some v => exact mem_rows_iff.mp ((h v).mpr rfl)

/-! ### Statements -/

/-- Inserts a row, or updates the row already under its key (`ON CONFLICT DO UPDATE`). -/
def upsert (t : Table κ ν) (k : κ) (v : ν) (merge : ν → ν) : Table κ ν where
  rows :=
    if (t.get k).isSome then t.rows.map fun r => (r.1, if r.1 = k then merge r.2 else r.2)
    else t.rows ++ [(k, v)]
  nodup := by
    split
    · rw [List.map_map]
      exact t.nodup
    · next h =>
        have hnot : k ∉ t.rows.map Prod.fst := get_eq_none_iff.mp (by simpa using h)
        rw [List.map_append, List.nodup_append]
        refine ⟨t.nodup, by simp, ?_⟩
        rintro a ha b hb rfl
        obtain rfl : a = k := by simpa using hb
        exact hnot ha

/-- Inserts a row unless there is one under its key (`ON CONFLICT DO NOTHING`). -/
def insertOrIgnore (t : Table κ ν) (k : κ) (v : ν) : Table κ ν :=
  t.upsert k v id

/-- Deletes the rows that satisfy a condition. -/
def deleteWhere (t : Table κ ν) (p : κ → ν → Bool) : Table κ ν where
  rows := t.rows.filter fun r => !p r.1 r.2
  nodup := t.nodup.sublist (List.filter_sublist.map _)

/-- Inserts a row in the place of the one under its key (`INSERT OR REPLACE`). -/
def insertOrReplace (t : Table κ ν) (k : κ) (v : ν) : Table κ ν where
  rows := (t.deleteWhere fun k' _ => k' = k).rows ++ [(k, v)]
  nodup := by
    rw [List.map_append, List.nodup_append]
    refine ⟨(t.deleteWhere _).nodup, by simp, ?_⟩
    rintro a ha b hb rfl
    obtain ⟨r, hr, rfl⟩ := List.mem_map.mp ha
    have hne := (List.mem_filter.mp hr).2
    simp at hb hne
    exact hne hb

/-- Updates every row in place. -/
def update (t : Table κ ν) (f : κ → ν → ν) : Table κ ν where
  rows := t.rows.map fun r => (r.1, f r.1 r.2)
  nodup := by
    rw [List.map_map]
    exact t.nodup

/-- Updates the row under a key, if there is one. -/
def updateAt (t : Table κ ν) (k : κ) (f : ν → ν) : Table κ ν :=
  t.update fun k' v => if k' = k then f v else v

/-! ### What the statements do -/

@[simp] theorem get_deleteWhere (t : Table κ ν) (p : κ → ν → Bool) (k : κ) :
    (t.deleteWhere p).get k = (t.get k).filter fun v => !p k v := by
  refine get_eq_of_mem fun v => ?_
  rw [deleteWhere, List.mem_filter, mem_rows_iff, Option.filter_eq_some_iff]

@[simp] theorem get_update (t : Table κ ν) (f : κ → ν → ν) (k : κ) :
    (t.update f).get k = (t.get k).map (f k) := by
  refine get_eq_of_mem fun v => ?_
  rw [update, List.mem_map, Option.map_eq_some_iff]
  constructor
  · rintro ⟨⟨k', w⟩, hmem, heq⟩
    obtain ⟨rfl, rfl⟩ := Prod.mk.inj heq
    exact ⟨w, mem_rows_iff.mp hmem, rfl⟩
  · rintro ⟨w, hw, rfl⟩
    exact ⟨(k, w), mem_rows_iff.mpr hw, rfl⟩

@[simp] theorem get_updateAt (t : Table κ ν) (k : κ) (f : ν → ν) (k' : κ) :
    (t.updateAt k f).get k' = if k' = k then (t.get k').map f else t.get k' := by
  rw [updateAt, get_update]
  by_cases hk : k' = k
  · simp [hk]
  · simp [hk]

@[simp] theorem get_upsert (t : Table κ ν) (k : κ) (v : ν) (merge : ν → ν) (k' : κ) :
    (t.upsert k v merge).get k' =
      if k' = k then some ((t.get k).elim v merge) else t.get k' := by
  refine get_eq_of_mem fun w => ?_
  rcases hk : t.get k with _ | old
  · simp only [upsert, hk, Option.isSome_none, Bool.false_eq_true, if_false, List.mem_append,
      List.mem_singleton, Prod.mk.injEq, mem_rows_iff, Option.elim_none]
    by_cases hk' : k' = k
    · simp [hk', hk, eq_comm]
    · simp [hk']
  · simp only [upsert, hk, Option.isSome_some, if_true, List.mem_map, Prod.mk.injEq,
      Option.elim_some]
    by_cases hk' : k' = k
    · subst hk'
      rw [if_pos rfl]
      constructor
      · rintro ⟨⟨k₁, w₁⟩, hmem, rfl, heq⟩
        obtain rfl : old = w₁ := Option.some.inj (hk.symm.trans (mem_rows_iff.mp hmem))
        simpa using heq
      · intro heq
        exact ⟨(k', old), mem_rows_iff.mpr hk, rfl, by simpa using heq⟩
    · rw [if_neg hk']
      constructor
      · rintro ⟨⟨k₁, w₁⟩, hmem, rfl, heq⟩
        rw [if_neg hk'] at heq
        exact heq ▸ mem_rows_iff.mp hmem
      · intro heq
        exact ⟨(k', w), mem_rows_iff.mpr heq, rfl, by simp [hk']⟩

@[simp] theorem get_insertOrIgnore (t : Table κ ν) (k : κ) (v : ν) (k' : κ) :
    (t.insertOrIgnore k v).get k' = if k' = k then some ((t.get k).getD v) else t.get k' := by
  rw [insertOrIgnore, get_upsert]
  cases t.get k <;> rfl

@[simp] theorem get_insertOrReplace (t : Table κ ν) (k : κ) (v : ν) (k' : κ) :
    (t.insertOrReplace k v).get k' = if k' = k then some v else t.get k' := by
  refine get_eq_of_mem fun w => ?_
  rw [insertOrReplace, List.mem_append, mem_rows_iff, get_deleteWhere, List.mem_singleton,
    Prod.mk.injEq, Option.filter_eq_some_iff]
  by_cases hk' : k' = k
  · simp [hk', eq_comm]
  · simp [hk']

/-! ### Loops of inserts -/

/-- Inserts a row for each item, updating to the item's values on conflict. -/
def overwriteAll (key : α → κ) (val : α → ν) (t : Table κ ν) (items : List α) : Table κ ν :=
  items.foldl (fun t a => t.upsert (key a) (val a) fun _ => val a) t

/-- Inserts a row for each item, in the place of the one under its key. -/
def replaceAll (key : α → κ) (val : α → ν) (t : Table κ ν) (items : List α) : Table κ ν :=
  items.foldl (fun t a => t.insertOrReplace (key a) (val a)) t

/-- Inserts a row for each item, ignoring conflicts. -/
def insertAll (key : α → κ) (val : α → ν) (t : Table κ ν) (items : List α) : Table κ ν :=
  items.foldl (fun t a => t.insertOrIgnore (key a) (val a)) t

/-- The row of the last item with a key. -/
def lastOf (key : α → κ) (val : α → ν) (items : List α) (k : κ) : Option ν :=
  (items.reverse.find? (key · = k)).map val

theorem lastOf_cons (key : α → κ) (val : α → ν) (a : α) (items : List α) (k : κ) :
    lastOf key val (a :: items) k =
      (lastOf key val items k).or (if k = key a then some (val a) else none) := by
  rw [lastOf, lastOf, List.reverse_cons, List.find?_append, Option.map_or]
  by_cases hk : key a = k
  · simp [hk]
  · simp [hk, Ne.symm hk]

theorem lastOf_concat (key : α → κ) (val : α → ν) (items : List α) (a : α) (k : κ) :
    lastOf key val (items ++ [a]) k = if k = key a then some (val a) else lastOf key val items k := by
  rw [lastOf, lastOf, List.reverse_append, List.reverse_singleton, List.singleton_append,
    List.find?_cons]
  by_cases hk : key a = k
  · simp [hk]
  · simp [hk, Ne.symm hk]

/-- The last item with a key: no later item has it. -/
theorem lastOf_eq_some_iff {key : α → κ} {val : α → ν} {items : List α} {k : κ} {v : ν} :
    lastOf key val items k = some v ↔
      ∃ before a after, items = before ++ a :: after ∧ key a = k ∧ val a = v ∧
        ∀ b ∈ after, key b ≠ k := by
  induction items with
  | nil =>
      simp only [lastOf, List.reverse_nil, List.find?_nil, Option.map_none, reduceCtorEq,
        List.nil_eq, List.append_eq_nil_iff, false_and, and_false, exists_false]
  | cons a items ih =>
      rw [lastOf_cons, Option.or_eq_some_iff, ih]
      constructor
      · rintro (⟨before, b, after, rfl, hkey, hval, hlast⟩ | ⟨hnone, hhead⟩)
        · exact ⟨a :: before, b, after, rfl, hkey, hval, hlast⟩
        · split at hhead
          · next hkey =>
              refine ⟨[], a, items, rfl, hkey.symm, Option.some.inj hhead, fun b hb hk => ?_⟩
              rw [lastOf, Option.map_eq_none_iff, List.find?_eq_none] at hnone
              exact hnone b (List.mem_reverse.mpr hb) (decide_eq_true hk)
          · cases hhead
      · rintro ⟨_ | ⟨_, before⟩, b, after, hitems, hkey, hval, hlast⟩
        · obtain ⟨rfl, rfl⟩ := List.cons.inj hitems
          refine .inr ⟨?_, by rw [if_pos hkey.symm, hval]⟩
          rw [lastOf, Option.map_eq_none_iff, List.find?_eq_none]
          exact fun c hc hk => hlast c (List.mem_reverse.mp hc) (of_decide_eq_true hk)
        · obtain ⟨rfl, rfl⟩ := List.cons.inj hitems
          exact .inl ⟨before, b, after, rfl, hkey, hval, hlast⟩

/-- A row of the last item is the row of an item. -/
theorem mem_of_lastOf {key : α → κ} {val : α → ν} {items : List α} {k : κ} {v : ν}
    (h : lastOf key val items k = some v) : ∃ a ∈ items, key a = k ∧ val a = v := by
  obtain ⟨before, a, after, rfl, hkey, hval, -⟩ := lastOf_eq_some_iff.mp h
  exact ⟨a, by simp, hkey, hval⟩

/-- Only the rows of the items with the key matter. -/
theorem lastOf_congr {key : α → κ} {val val' : α → ν} {items : List α} {k : κ}
    (h : ∀ a ∈ items, key a = k → val a = val' a) :
    lastOf key val items k = lastOf key val' items k := by
  induction items with
  | nil => rfl
  | cons a items ih =>
      rw [lastOf_cons, lastOf_cons, ih fun b hb => h b (List.mem_cons_of_mem a hb)]
      split
      · next hk => rw [h a List.mem_cons_self hk.symm]
      · rfl

/-- Every key of an item has a last item. -/
theorem exists_lastOf (key : α → κ) (val : α → ν) {items : List α} {a : α} (h : a ∈ items) :
    ∃ v, lastOf key val items (key a) = some v := by
  rw [← Option.isSome_iff_exists, lastOf, Option.isSome_map, List.find?_isSome]
  exact ⟨a, List.mem_reverse.mpr h, decide_eq_true rfl⟩

/-- Where the key of an item is not taken again later, the item is the last one with it. -/
theorem lastOf_of_pairwise {key : α → κ} {val : α → ν} {items : List α} {p : α → Prop}
    (hpairwise : items.Pairwise fun a later => p a → key later ≠ key a) {a : α}
    (h : a ∈ items) (hp : p a) : lastOf key val items (key a) = some (val a) := by
  obtain ⟨before, after, rfl⟩ := List.append_of_mem h
  have hafter := (List.pairwise_cons.mp (List.pairwise_append.mp hpairwise).2.1).1
  exact lastOf_eq_some_iff.mpr
    ⟨before, a, after, rfl, rfl, rfl, fun b hb => hafter b hb hp⟩

/-- The items whose key no later item takes, in their order. -/
def finals (key : α → κ) : List α → List α
  | [] => []
  | a :: items => if key a ∈ items.map key then finals key items else a :: finals key items

theorem finals_sublist (key : α → κ) (items : List α) : (finals key items).Sublist items := by
  induction items with
  | nil => exact .slnil
  | cons a items ih =>
      rw [finals]
      split
      · exact ih.cons a
      · exact ih.cons_cons a

/-- The keys of the final items do not repeat. -/
theorem nodup_finals (key : α → κ) (items : List α) : ((finals key items).map key).Nodup := by
  induction items with
  | nil => exact List.nodup_nil
  | cons a items ih =>
      rw [finals]
      split
      · exact ih
      · next hnot =>
          rw [List.map_cons, List.nodup_cons]
          exact ⟨fun hmem => hnot (((finals_sublist key items).map key).mem hmem), ih⟩

/-- What stands for the keys does not matter. -/
theorem finals_congr {κ' : Type} [DecidableEq κ'] {key : α → κ} {key' : α → κ'}
    (h : ∀ a b, key a = key b ↔ key' a = key' b) (items : List α) :
    finals key items = finals key' items := by
  induction items with
  | nil => rfl
  | cons a items ih =>
      have hmem : key a ∈ items.map key ↔ key' a ∈ items.map key' := by
        rw [List.mem_map, List.mem_map]
        exact exists_congr fun b => and_congr_right fun _ => h b a
      rw [finals, finals, ih]
      exact if_congr hmem rfl rfl

/-- The items that are replaced have no say in the row of a key. -/
theorem lastOf_finals (key : α → κ) (val : α → ν) (items : List α) (k : κ) :
    lastOf key val (finals key items) k = lastOf key val items k := by
  induction items with
  | nil => rfl
  | cons a items ih =>
      rw [finals, lastOf_cons]
      split
      · next hmem =>
          obtain ⟨b, hb, hkey⟩ := List.mem_map.mp hmem
          rw [ih]
          split
          · next hk =>
              obtain ⟨v, hlast⟩ := exists_lastOf key val hb
              rw [hk, ← hkey, hlast, Option.some_or]
          · rw [Option.or_none]
      · rw [lastOf_cons, ih]

/-- Every key of an item is the key of a final item. -/
theorem mem_map_finals {key : α → κ} {items : List α} {k : κ} :
    k ∈ (finals key items).map key ↔ k ∈ items.map key := by
  refine ⟨fun h => ((finals_sublist key items).map key).mem h, fun h => ?_⟩
  obtain ⟨a, ha, rfl⟩ := List.mem_map.mp h
  obtain ⟨b, hlast⟩ := exists_lastOf key id ha
  rw [← lastOf_finals] at hlast
  obtain ⟨b, hb, hkey, -⟩ := mem_of_lastOf hlast
  exact List.mem_map.mpr ⟨b, hb, hkey⟩

/-- In a loop whose turns set the row of an item, the last item with a key wins. -/
theorem get_foldl_of_set {key : α → κ} {val : α → ν} {turn : Table κ ν → α → Table κ ν}
    (hturn : ∀ t a k, (turn t a).get k = if k = key a then some (val a) else t.get k)
    (t : Table κ ν) (items : List α) (k : κ) :
    (items.foldl turn t).get k = (lastOf key val items k).or (t.get k) := by
  induction items generalizing t with
  | nil => rfl
  | cons a items ih =>
      rw [List.foldl_cons, ih, hturn, lastOf_cons, Option.or_assoc]
      split <;> rfl

/-- Under update the last item with a key wins. -/
theorem get_overwriteAll (key : α → κ) (val : α → ν) (t : Table κ ν) (items : List α) (k : κ) :
    (overwriteAll key val t items).get k = (lastOf key val items k).or (t.get k) := by
  refine get_foldl_of_set (fun t a k => ?_) t items k
  rw [get_upsert]
  cases t.get (key a) <;> rfl

/-- Under replacement the last item with a key wins. -/
theorem get_replaceAll (key : α → κ) (val : α → ν) (t : Table κ ν) (items : List α) (k : κ) :
    (replaceAll key val t items).get k = (lastOf key val items k).or (t.get k) :=
  get_foldl_of_set (fun t a k => get_insertOrReplace t (key a) (val a) k) t items k

/-- Under ignore the row that was there wins, and then the first item with the key. -/
theorem get_insertAll (key : α → κ) (val : α → ν) (t : Table κ ν) (items : List α) (k : κ) :
    (insertAll key val t items).get k =
      (t.get k).or ((items.find? (key · = k)).map val) := by
  induction items generalizing t with
  | nil => simp [insertAll]
  | cons a items ih =>
      have hstep : insertAll key val t (a :: items) =
          insertAll key val (t.insertOrIgnore (key a) (val a)) items := rfl
      rw [hstep, ih, get_insertOrIgnore, List.find?_cons]
      by_cases hk : key a = k
      · subst hk
        cases t.get (key a) <;> simp
      · simp [hk, Ne.symm hk]

/-! ### Rows that stay -/

/-- The rows of a table that satisfy a condition are still there, unchanged. -/
def Keeps (p : κ → ν → Prop) (t t' : Table κ ν) : Prop :=
  ∀ k v, p k v → t.get k = some v → t'.get k = some v

theorem Keeps.refl (p : κ → ν → Prop) (t : Table κ ν) : Keeps p t t := fun _ _ _ h => h

theorem Keeps.trans {p : κ → ν → Prop} {t t' t'' : Table κ ν} (h : Keeps p t t')
    (h' : Keeps p t' t'') : Keeps p t t'' :=
  fun k v hp hget => h' k v hp (h k v hp hget)

theorem Keeps.foldl {p : κ → ν → Prop} {turn : Table κ ν → α → Table κ ν} {items : List α}
    (h : ∀ t, ∀ a ∈ items, Keeps p t (turn t a)) (t : Table κ ν) :
    Keeps p t (items.foldl turn t) := by
  induction items generalizing t with
  | nil => exact .refl p t
  | cons a items ih =>
      exact (h t a List.mem_cons_self).trans
        (ih (fun t b hb => h t b (List.mem_cons_of_mem a hb)) _)

theorem keeps_deleteWhere {p : κ → ν → Prop} {q : κ → ν → Bool} (h : ∀ k v, p k v → q k v = false)
    (t : Table κ ν) : Keeps p t (t.deleteWhere q) := by
  intro k v hp hget
  rw [get_deleteWhere, Option.filter_eq_some_iff]
  exact ⟨hget, by rw [h k v hp]; rfl⟩

theorem keeps_upsert {p : κ → ν → Prop} {k : κ} (h : ∀ v, ¬ p k v) (t : Table κ ν) (v : ν)
    (merge : ν → ν) : Keeps p t (t.upsert k v merge) := by
  intro k' v' hp hget
  have hne : k' ≠ k := fun heq => h v' (heq ▸ hp)
  rw [get_upsert, if_neg hne]
  exact hget

theorem keeps_insertOrReplace {p : κ → ν → Prop} {k : κ} (h : ∀ v, ¬ p k v) (t : Table κ ν)
    (v : ν) : Keeps p t (t.insertOrReplace k v) := by
  intro k' v' hp hget
  have hne : k' ≠ k := fun heq => h v' (heq ▸ hp)
  rw [get_insertOrReplace, if_neg hne]
  exact hget

/-- Inserts that ignore conflicts keep every row. -/
theorem keeps_insertOrIgnore (p : κ → ν → Prop) (t : Table κ ν) (k : κ) (v : ν) :
    Keeps p t (t.insertOrIgnore k v) := by
  intro k' v' _ hget
  rw [get_insertOrIgnore]
  split
  · next heq => rw [← heq, hget, Option.getD_some]
  · exact hget

theorem keeps_overwriteAll {p : κ → ν → Prop} {key : α → κ} {items : List α}
    (h : ∀ a ∈ items, ∀ v, ¬ p (key a) v) (val : α → ν) (t : Table κ ν) :
    Keeps p t (overwriteAll key val t items) :=
  Keeps.foldl (fun t a ha => keeps_upsert (h a ha) t (val a) _) t

theorem keeps_replaceAll {p : κ → ν → Prop} {key : α → κ} {items : List α}
    (h : ∀ a ∈ items, ∀ v, ¬ p (key a) v) (val : α → ν) (t : Table κ ν) :
    Keeps p t (replaceAll key val t items) :=
  Keeps.foldl (fun t a ha => keeps_insertOrReplace (h a ha) t (val a)) t

/-! ### Rows that are changed in place -/

/-- Every row of a table is still there, changed as a relation allows. -/
def Carries (r : κ → ν → ν → Prop) (t t' : Table κ ν) : Prop :=
  ∀ k v, t.get k = some v → ∃ v', t'.get k = some v' ∧ r k v v'

theorem Carries.refl {r : κ → ν → ν → Prop} (h : ∀ k v, r k v v) (t : Table κ ν) :
    t.Carries r t :=
  fun k v hget => ⟨v, hget, h k v⟩

theorem Carries.mono {r r' : κ → ν → ν → Prop} {t t' : Table κ ν} (h : t.Carries r t')
    (hr : ∀ k v v', r k v v' → r' k v v') : t.Carries r' t' := by
  intro k v hget
  obtain ⟨v', hget', hv⟩ := h k v hget
  exact ⟨v', hget', hr k v v' hv⟩

/-- An update of every row, where the relation allows it of a changed row. -/
theorem Carries.update {r r' : κ → ν → ν → Prop} {t t' : Table κ ν} {f : κ → ν → ν}
    (h : t.Carries r t') (hf : ∀ k v v', t'.get k = some v' → r k v v' → r' k v (f k v')) :
    t.Carries r' (t'.update f) := by
  intro k v hget
  obtain ⟨v', hget', hv⟩ := h k v hget
  exact ⟨f k v', by rw [get_update, hget', Option.map_some], hf k v v' hget' hv⟩

/-- Rows that are only inserted where there is none leave the others alone. -/
theorem Carries.insertAll {r : κ → ν → ν → Prop} {t t' : Table κ ν} (h : t.Carries r t')
    (key : α → κ) (val : α → ν) (items : List α) :
    t.Carries r (Table.insertAll key val t' items) := by
  intro k v hget
  obtain ⟨v', hget', hv⟩ := h k v hget
  exact ⟨v', by rw [get_insertAll, hget', Option.some_or], hv⟩

/-! ### Tables with the same rows -/

/-- Two tables hold the same rows. -/
def Same (t u : Table κ ν) : Prop :=
  ∀ k, t.get k = u.get k

theorem Same.mem_iff {t u : Table κ ν} (h : t.Same u) {r : κ × ν} :
    r ∈ t.rows ↔ r ∈ u.rows := by
  obtain ⟨k, v⟩ := r
  rw [mem_rows_iff, mem_rows_iff, h k]

/-- Tables that agree on `get` have the same rows, in some order. -/
theorem Same.perm {t u : Table κ ν} (h : t.Same u) : t.rows.Perm u.rows :=
  (List.perm_ext_iff_of_nodup t.nodup.of_map u.nodup.of_map).mpr fun _ => h.mem_iff

/-- Inserting the same items again changes nothing. -/
theorem same_insertAll (key : α → κ) (val : α → ν) (t : Table κ ν) (items : List α) :
    (insertAll key val (insertAll key val t items) items).Same (insertAll key val t items) := by
  intro k
  rw [get_insertAll, get_insertAll, Option.or_assoc, Option.or_self]

/-! ### Rows of one kind -/

/-- Every row of a table satisfies a condition. -/
def AllRows (p : κ → ν → Prop) (t : Table κ ν) : Prop :=
  ∀ k v, t.get k = some v → p k v

theorem allRows_empty (p : κ → ν → Prop) : AllRows p empty :=
  fun _ _ h => by cases h

theorem AllRows.deleteWhere {p : κ → ν → Prop} {t : Table κ ν} (h : AllRows p t)
    (q : κ → ν → Bool) : AllRows p (t.deleteWhere q) := by
  intro k v hget
  rw [get_deleteWhere, Option.filter_eq_some_iff] at hget
  exact h k v hget.1

theorem AllRows.insertOrIgnore {p : κ → ν → Prop} {t : Table κ ν} (h : AllRows p t) {k : κ}
    {v : ν} (hp : p k v) : AllRows p (t.insertOrIgnore k v) := by
  intro k' v' hget
  rw [get_insertOrIgnore] at hget
  split at hget
  · next heq =>
      obtain rfl := heq
      rcases hold : t.get k' with _ | old
      · rw [hold] at hget
        exact Option.some.inj hget ▸ hp
      · rw [hold] at hget
        exact Option.some.inj hget ▸ h k' old hold
  · exact h k' v' hget

/-- The rows of a loop that sets the rows of its items are these and the ones before. -/
theorem AllRows.of_get {p : κ → ν → Prop} {key : α → κ} {val : α → ν} {items : List α}
    {t t' : Table κ ν} (h : AllRows p t)
    (hget : ∀ k, t'.get k = (lastOf key val items k).or (t.get k))
    (hp : ∀ a ∈ items, p (key a) (val a)) : AllRows p t' := by
  intro k v hrow
  rw [hget, Option.or_eq_some_iff] at hrow
  rcases hrow with hlast | ⟨-, hold⟩
  · obtain ⟨a, ha, rfl, rfl⟩ := mem_of_lastOf hlast
    exact hp a ha
  · exact h k v hold

/-- Among the rows that satisfy a condition, a table holds exactly the given ones. -/
def Agrees (p : κ → ν → Prop) (t : Table κ ν) (rows : κ → Option ν) : Prop :=
  ∀ k v, p k v → (t.get k = some v ↔ rows k = some v)

/-- Two tables hold the same rows among those that satisfy a condition. -/
def SameWhere (p : κ → ν → Prop) (t u : Table κ ν) : Prop :=
  t.Agrees p u.get

/-- Two tables that hold the same given rows hold the same rows. -/
theorem Agrees.sameWhere {p : κ → ν → Prop} {t u : Table κ ν} {rows : κ → Option ν}
    (ht : t.Agrees p rows) (hu : u.Agrees p rows) : t.SameWhere p u :=
  fun k v hp => (ht k v hp).trans (hu k v hp).symm

theorem SameWhere.agrees {p : κ → ν → Prop} {t u : Table κ ν} {rows : κ → Option ν}
    (h : t.SameWhere p u) (hu : u.Agrees p rows) : t.Agrees p rows :=
  fun k v hp => (h k v hp).trans (hu k v hp)

/-- A condition all rows satisfy can be left out. -/
theorem SameWhere.of_allRows {p q : κ → ν → Prop} {t u : Table κ ν}
    (h : t.SameWhere (fun k v => p k v ∧ q k v) u) (ht : t.AllRows q) (hu : u.AllRows q) :
    t.SameWhere p u := by
  intro k v hp
  constructor
  · intro hget
    exact (h k v ⟨hp, ht k v hget⟩).mp hget
  · intro hget
    exact (h k v ⟨hp, hu k v hget⟩).mpr hget

/-- A loop that sets the rows of its items after the rows of a kind were deleted leaves, of
that kind, exactly the rows of its items. -/
theorem agrees_refill {p : κ → ν → Prop} {q : κ → ν → Bool} {rows : κ → Option ν}
    {t t' : Table κ ν} (hpq : ∀ k v, p k v → q k v = true)
    (hget : ∀ k, t'.get k = (rows k).or ((t.deleteWhere q).get k)) : t'.Agrees p rows := by
  intro k v hp
  rw [hget, get_deleteWhere]
  rcases rows k with _ | w
  · have hgone : (t.get k).filter (fun v => !q k v) ≠ some v := by
      intro h
      have hkept := (Option.filter_eq_some_iff.mp h).2
      rw [hpq k v hp] at hkept
      cases hkept
    simp [hgone]
  · simp

/-- Doing so twice is doing so once. -/
theorem same_refill {q : κ → ν → Bool} {rows : κ → Option ν} {t t' t'' : Table κ ν}
    (hget : ∀ k, t'.get k = (rows k).or ((t.deleteWhere q).get k))
    (hget' : ∀ k, t''.get k = (rows k).or ((t'.deleteWhere q).get k)) : t''.Same t' := by
  intro k
  rw [hget', get_deleteWhere, hget]
  rcases rows k with _ | w
  · simp [Option.filter_filter]
  · simp

/-- Where a table holds of a kind exactly the rows of items with keys of their own, these rows
are the items, in some order. -/
theorem Agrees.perm {p : κ → ν → Prop} [∀ k v, Decidable (p k v)] {key : α → κ} {val : α → ν}
    {items : List α} {t : Table κ ν} (h : t.Agrees p (lastOf key val items))
    (hnodup : (items.map key).Nodup) (hp : ∀ a ∈ items, p (key a) (val a)) :
    (t.rows.filter fun r => p r.1 r.2).Perm (items.map fun a => (key a, val a)) := by
  have hpairs : (items.map fun a => (key a, val a)).Nodup := by
    refine List.Nodup.of_map Prod.fst ?_
    rwa [List.map_map]
  refine (List.perm_ext_iff_of_nodup (t.nodup.of_map.filter _) hpairs).mpr fun ⟨k, v⟩ => ?_
  rw [List.mem_filter, mem_rows_iff, decide_eq_true_iff, List.mem_map]
  constructor
  · rintro ⟨hget, hkv⟩
    obtain ⟨a, ha, rfl, rfl⟩ := mem_of_lastOf ((h k v hkv).mp hget)
    exact ⟨a, ha, rfl⟩
  · rintro ⟨a, ha, heq⟩
    obtain ⟨rfl, rfl⟩ := Prod.mk.inj heq
    have hapart : items.Pairwise fun a later => True → key later ≠ key a :=
      (List.pairwise_map.mp hnodup).imp fun hne _ => hne.symm
    exact ⟨(h _ _ (hp a ha)).mpr (lastOf_of_pairwise hapart ha trivial), hp a ha⟩

/-- Where a table holds of a kind exactly the rows of items, the later ones winning, these rows
are the final items, in some order. -/
theorem Agrees.perm_finals {p : κ → ν → Prop} [∀ k v, Decidable (p k v)] {key : α → κ}
    {val : α → ν} {items : List α} {t : Table κ ν} (h : t.Agrees p (lastOf key val items))
    (hp : ∀ a ∈ items, p (key a) (val a)) :
    (t.rows.filter fun r => p r.1 r.2).Perm
      ((finals key items).map fun a => (key a, val a)) := by
  have hfinals : t.Agrees p (lastOf key val (finals key items)) := by
    intro k v hkv
    rw [lastOf_finals]
    exact h k v hkv
  exact hfinals.perm (nodup_finals key items) fun a ha => hp a ((finals_sublist key items).mem ha)

/-- A loop that sets the rows of its items leaves the rows of another kind alone. -/
theorem sameWhere_refill {p : κ → ν → Prop} {q : κ → ν → Bool} {key : α → κ} {val : α → ν}
    {items : List α} {t t' : Table κ ν} (hpq : ∀ k v, p k v → q k v = false)
    (hkey : ∀ a ∈ items, ∀ v, ¬ p (key a) v)
    (hget : ∀ k, t'.get k = (lastOf key val items k).or ((t.deleteWhere q).get k)) :
    t'.SameWhere p t := by
  intro k v hp
  have hnone : lastOf key val items k = none := by
    rw [Option.eq_none_iff_forall_ne_some]
    intro w hw
    obtain ⟨a, ha, rfl, -⟩ := mem_of_lastOf hw
    exact hkey a ha v hp
  rw [hget, hnone, Option.none_or, get_deleteWhere, Option.filter_eq_some_iff, hpq k v hp]
  simp

end Table

end Keyed
