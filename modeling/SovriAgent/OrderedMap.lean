import Mathlib

/-!
# Ordered Maps

Finite maps whose entries are in ascending order of their keys, so that a loop over a map
visits the entries in one order. The order is a field of the map, and every operation keeps
it.

Two maps of the same keys are compared entry by entry under a relation between values that
may depend on the key.

## Main results

* `get_insert`, `get_foldl_insert`: what a map answers after insertions.
* `Related.insert`, `Related.get`: related maps stay related, and answer lookups alike.
* `Related.keys_eq`: related maps have the same keys.
-/

namespace Ordered

/-- A map in ascending order of the keys. -/
structure Map (κ ν : Type) [LinearOrder κ] where
  entries : List (κ × ν)
  sorted : entries.Pairwise fun a b => a.1 < b.1

namespace Map

variable {κ ν μ : Type} [LinearOrder κ]

/-- The map without entries. -/
def empty : Map κ ν :=
  ⟨[], List.Pairwise.nil⟩

/-- The value under a key. -/
def get (map : Map κ ν) (key : κ) : Option ν :=
  (map.entries.find? (·.1 = key)).map Prod.snd

/-- The keys, in order. -/
def keys (map : Map κ ν) : List κ :=
  map.entries.map Prod.fst

/-- An entry put at its place; an entry of the same key is replaced. -/
def insertEntry (key : κ) (value : ν) : List (κ × ν) → List (κ × ν)
  | [] => [(key, value)]
  | entry :: rest =>
      if key < entry.1 then (key, value) :: entry :: rest
      else if key = entry.1 then (key, value) :: rest
      else entry :: insertEntry key value rest

theorem mem_insertEntry {key : κ} {value : ν} {entries : List (κ × ν)} {entry : κ × ν}
    (h : entry ∈ insertEntry key value entries) : entry = (key, value) ∨ entry ∈ entries := by
  induction entries with
  | nil => exact .inl (List.mem_singleton.mp h)
  | cons first rest ih =>
      rw [insertEntry] at h
      split_ifs at h
      · exact List.mem_cons.mp h
      · exact (List.mem_cons.mp h).imp_right (List.mem_cons_of_mem _)
      · rcases List.mem_cons.mp h with rfl | h
        · exact .inr List.mem_cons_self
        · exact (ih h).imp_right (List.mem_cons_of_mem _)

theorem insertEntry_sorted {entries : List (κ × ν)}
    (h : entries.Pairwise fun a b => a.1 < b.1) (key : κ) (value : ν) :
    (insertEntry key value entries).Pairwise fun a b => a.1 < b.1 := by
  induction entries with
  | nil => exact List.pairwise_singleton _ _
  | cons first rest ih =>
      obtain ⟨hfirst, hrest⟩ := List.pairwise_cons.mp h
      rw [insertEntry]
      split_ifs with hlt heq
      · refine List.pairwise_cons.mpr ⟨fun entry hentry => ?_, h⟩
        rcases List.mem_cons.mp hentry with rfl | hentry
        · exact hlt
        · exact hlt.trans (hfirst entry hentry)
      · subst heq
        exact List.pairwise_cons.mpr ⟨hfirst, hrest⟩
      · refine List.pairwise_cons.mpr ⟨fun entry hentry => ?_, ih hrest⟩
        rcases mem_insertEntry hentry with rfl | hentry
        · exact lt_of_le_of_ne (not_lt.mp hlt) (Ne.symm heq)
        · exact hfirst entry hentry

/-- Puts a value under a key. -/
def insert (map : Map κ ν) (key : κ) (value : ν) : Map κ ν :=
  ⟨insertEntry key value map.entries, insertEntry_sorted map.sorted key value⟩

/-! ### Lookups -/

@[simp] theorem get_empty (key : κ) : (empty : Map κ ν).get key = none :=
  rfl

/-- An insertion answers for its key. -/
@[simp] theorem get_insert (map : Map κ ν) (key other : κ) (value : ν) :
    (map.insert key value).get other = if key = other then some value else map.get other := by
  have hentries : ∀ entries : List (κ × ν),
      ((insertEntry key value entries).find? (·.1 = other)).map Prod.snd =
        if key = other then some value else (entries.find? (·.1 = other)).map Prod.snd := by
    intro entries
    induction entries with
    | nil => by_cases hother : key = other <;> simp [insertEntry, hother]
    | cons entry rest ih =>
        rw [insertEntry]
        by_cases hlt : key < entry.1
        · rw [if_pos hlt, List.find?_cons]
          by_cases hother : key = other <;> simp [hother]
        by_cases heq : key = entry.1
        · rw [if_neg hlt, if_pos heq, List.find?_cons, List.find?_cons, ← heq]
          by_cases hother : key = other <;> simp [hother]
        rw [if_neg hlt, if_neg heq, List.find?_cons, List.find?_cons]
        by_cases hentry : entry.1 = other
        · -- the entry stays before the insertion, so the key asked for is another one
          have hother : key ≠ other := fun hother => heq (hother.trans hentry.symm)
          simp [hentry, hother]
        · simpa [hentry] using ih
  exact hentries map.entries

/-- Of the entries of a key that are inserted in turn, the last one remains. -/
theorem get_foldl_insert (entries : List (κ × ν)) (map : Map κ ν) (key : κ) :
    (entries.foldl (fun map entry => map.insert entry.1 entry.2) map).get key =
      ((entries.reverse.find? (·.1 = key)).map Prod.snd).or (map.get key) := by
  induction entries generalizing map with
  | nil => rfl
  | cons entry entries ih =>
      rw [List.foldl_cons, ih, get_insert, List.reverse_cons, List.find?_append]
      cases entries.reverse.find? (·.1 = key) with
      | some last => rfl
      | none => by_cases hkey : entry.1 = key <;> simp [hkey]

/-! ### Related maps -/

/-- The same keys, with related values. -/
def Related (r : κ → ν → μ → Prop) (map : Map κ ν) (map' : Map κ μ) : Prop :=
  List.Forall₂ (fun entry entry' => entry.1 = entry'.1 ∧ r entry.1 entry.2 entry'.2) map.entries
    map'.entries

variable {r : κ → ν → μ → Prop} {map : Map κ ν} {map' : Map κ μ}

theorem related_empty : Related r empty empty :=
  List.Forall₂.nil

theorem Related.insert (h : Related r map map') {key : κ} {value : ν} {value' : μ}
    (hvalue : r key value value') : Related r (map.insert key value) (map'.insert key value') := by
  have hentries : ∀ {entries : List (κ × ν)} {entries' : List (κ × μ)},
      List.Forall₂ (fun a b => a.1 = b.1 ∧ r a.1 a.2 b.2) entries entries' →
      List.Forall₂ (fun a b => a.1 = b.1 ∧ r a.1 a.2 b.2) (insertEntry key value entries)
        (insertEntry key value' entries') := by
    intro entries entries' hrelated
    induction hrelated with
    | nil => exact .cons ⟨rfl, hvalue⟩ .nil
    | @cons a b rest rest' hab hrest ih =>
        rw [insertEntry, insertEntry, ← hab.1]
        split_ifs
        · exact .cons ⟨rfl, hvalue⟩ (.cons hab hrest)
        · exact .cons ⟨rfl, hvalue⟩ hrest
        · exact .cons hab ih
  exact hentries h

/-- Related maps have a key both or neither, with related values. -/
theorem Related.get (h : Related r map map') (key : κ) :
    Option.Rel (r key) (map.get key) (map'.get key) := by
  have hfind : ∀ {entries : List (κ × ν)} {entries' : List (κ × μ)},
      List.Forall₂ (fun a b => a.1 = b.1 ∧ r a.1 a.2 b.2) entries entries' →
      Option.Rel (r key) ((entries.find? (·.1 = key)).map Prod.snd)
        ((entries'.find? (·.1 = key)).map Prod.snd) := by
    intro entries entries' hrelated
    induction hrelated with
    | nil => exact .none
    | @cons a b rest rest' hab hrest ih =>
        rw [List.find?_cons, List.find?_cons, ← hab.1]
        by_cases hkey : a.1 = key
        · simpa [hkey] using hkey ▸ hab.2
        · simpa [hkey] using ih
  exact hfind h

theorem Related.keys_eq (h : Related r map map') : map.keys = map'.keys :=
  List.forall₂_eq_eq_eq ▸ (List.forall₂_map_left_iff.mpr
    (List.forall₂_map_right_iff.mpr (h.imp fun _ _ hentry => hentry.1)))

end Map

end Ordered
