import Mathlib

/-!
# Blocks That Delimit Themselves

Items written as blocks, one after the other, without a sign between them or a count before
them. Where a block and what follows it determine the item and where the block ends, a list of
blocks, and what ends it, can be read back.

## Main results

* `SelfDelimiting.flatMap_append_inj`: blocks that delimit themselves can be told apart.
* `map_eq_of_views`: two views of a list determine a third.
* `append_ne_append`: lists that start differently.
-/

namespace Blocks

variable {α β γ : Type}

/-- A way to write items as blocks, one after the other, such that a block and what follows it
determine the view of its item. -/
structure SelfDelimiting (block : α → List β) (view : α → γ) (follows : List β → Prop) : Prop where
  decode {a b : α} {rest rest' : List β} (hrest : follows rest) (hrest' : follows rest')
    (h : block a ++ rest = block b ++ rest') : view a = view b ∧ rest = rest'
  follows_block (a : α) (rest : List β) : follows (block a ++ rest)

/-- What ends a list of blocks: it may follow a block, and is none. -/
structure EndsBlocks (block : α → List β) (follows : List β → Prop) (rest : List β) : Prop where
  follows : follows rest
  noBlock (a : α) (more : List β) : block a ++ more ≠ rest

/-- **Blocks that delimit themselves can be told apart**, and from what ends them. -/
theorem SelfDelimiting.flatMap_append_inj {block : α → List β} {view : α → γ}
    {follows : List β → Prop} (h : SelfDelimiting block view follows) {rest rest' : List β}
    (hrest : EndsBlocks block follows rest) (hrest' : EndsBlocks block follows rest')
    {xs ys : List α} (heq : xs.flatMap block ++ rest = ys.flatMap block ++ rest') :
    xs.map view = ys.map view ∧ rest = rest' := by
  have hfollows : ∀ (xs : List α) {rest : List β}, follows rest →
      follows (xs.flatMap block ++ rest) := by
    intro xs rest hrest
    cases xs with
    | nil => exact hrest
    | cons x xs =>
        rw [List.flatMap_cons, List.append_assoc]
        exact h.follows_block x _
  induction xs generalizing ys with
  | nil =>
      cases ys with
      | nil => exact ⟨rfl, heq⟩
      | cons y ys =>
          rw [List.flatMap_cons, List.append_assoc] at heq
          exact absurd heq.symm (hrest.noBlock y _)
  | cons x xs ih =>
      cases ys with
      | nil =>
          rw [List.flatMap_cons, List.append_assoc] at heq
          exact absurd heq (hrest'.noBlock x _)
      | cons y ys =>
          rw [List.flatMap_cons, List.flatMap_cons, List.append_assoc, List.append_assoc] at heq
          obtain ⟨hview, htail⟩ := h.decode (hfollows xs hrest.follows)
            (hfollows ys hrest'.follows) heq
          obtain ⟨hviews, hends⟩ := ih htail
          rw [List.map_cons, List.map_cons, hview, hviews]
          exact ⟨rfl, hends⟩

/-- Two views of the items of a list determine what they determine of each item. -/
theorem map_eq_of_views {δ ε : Type} {f : α → γ} {g : α → δ} {view : α → ε}
    (h : ∀ a b, f a = f b → g a = g b → view a = view b) {xs ys : List α}
    (hf : xs.map f = ys.map f) (hg : xs.map g = ys.map g) : xs.map view = ys.map view := by
  induction xs generalizing ys with
  | nil => rw [List.map_eq_nil_iff.mp hf.symm]
  | cons x xs ih =>
      cases ys with
      | nil => cases hf
      | cons y ys =>
          obtain ⟨hfx, hfxs⟩ := List.cons.inj hf
          obtain ⟨hgx, hgxs⟩ := List.cons.inj hg
          rw [List.map_cons, List.map_cons, h x y hfx hgx, ih hfxs hgxs]

/-! ### Lists that start differently -/

/-- Two lists differ within their common length, so no list starts with both. -/
theorem append_ne_append [DecidableEq α] {p q : List α}
    (h : (p.zip q).any (fun c => c.1 != c.2) = true) (s t : List α) : p ++ s ≠ q ++ t := by
  induction p generalizing q with
  | nil => cases h
  | cons c p ih =>
      cases q with
      | nil => cases h
      | cons d q =>
          intro heq
          obtain ⟨rfl, htail⟩ := List.cons.inj heq
          rw [List.zip_cons_cons, List.any_cons, bne_self_eq_false, Bool.false_or] at h
          exact ih h htail

/-- A list that differs from another within their common length does not start with it. -/
theorem append_ne [DecidableEq α] {p q : List α}
    (h : (p.zip q).any (fun c => c.1 != c.2) = true) (s : List α) : p ++ s ≠ q := by
  simpa only [List.append_nil] using append_ne_append h s []

end Blocks
