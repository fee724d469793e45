import Mathlib.Data.List.Basic

/-!
# Variables that a loop assigns

A loop over a list is the left fold of its turns. What a variable holds in the end
follows from what one turn does to it: it keeps its value, it takes the last value
assigned, or it is a flag that some turn raises.
-/

namespace LoopVariables

variable {α β σ : Type*} {f : σ → α → σ}

theorem keeps (get : σ → β) (h : ∀ s a, get (f s a) = get s) (l : List α) (s : σ) :
    get (l.foldl f s) = get s := by
  induction l generalizing s with
  | nil => rfl
  | cons a l ih => exact (ih (f s a)).trans (h s a)

theorem last (get : σ → β) (put : α → Option β) (h : ∀ s a, get (f s a) = (put a).getD (get s))
    (l : List α) (s : σ) : get (l.foldl f s) = (l.filterMap put).getLastD (get s) := by
  induction l generalizing s with
  | nil => rfl
  | cons a l ih =>
    -- what the first turn leaves is the initial value of the others
    rw [List.foldl_cons, ih, h, List.filterMap_cons]
    cases put a with
    | none => rfl
    | some b => exact (List.getLastD_cons).symm

theorem flag (get : σ → Bool) (p : α → Prop)
    (h : ∀ s a, get (f s a) = true ↔ get s = true ∨ p a) (l : List α) (s : σ) :
    get (l.foldl f s) = true ↔ get s = true ∨ ∃ a ∈ l, p a := by
  induction l generalizing s with
  | nil => simp
  | cons a l ih => rw [List.foldl_cons, ih, h, List.exists_mem_cons_iff, or_assoc]

/-- A variable that is assigned at all forgets its initial value. -/
theorem getLastD_congr {l : List β} (h : l ≠ []) (a b : β) : l.getLastD a = l.getLastD b := by
  rw [List.getLastD_eq_getLast?, List.getLastD_eq_getLast?, List.getLast?_eq_some_getLast h]
  rfl

theorem getLastD_mem {l : List β} (h : l ≠ []) (a : β) : l.getLastD a ∈ l := by
  rw [List.getLastD_eq_getLast?, List.getLast?_eq_some_getLast h]
  exact List.getLast_mem h

end LoopVariables
