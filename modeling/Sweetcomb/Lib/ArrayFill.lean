import Mathlib.Data.List.Basic

/-!
# Arrays filled through a running counter

An array is allocated once and its elements are written in order, each at the counter,
which moves on by one. What is written out of blocks of one length is found again by the
number of the block and the place in it.
-/

/-- An array that is being filled. -/
structure Filling (α : Type*) where
  cells : List (Option α)
  /-- the indices written so far, in order -/
  writes : List ℕ
  cnt : ℕ

namespace Filling

variable {α β : Type*}

/-- `n` elements, none of them written. -/
def alloc (n : ℕ) : Filling α := ⟨List.replicate n none, [], 0⟩

/-- `cells[cnt] = v; cnt++`, which is no write of the array past its end. -/
def put (a : Filling α) (v : α) : Option (Filling α) :=
  if a.cnt < a.cells.length then
    some ⟨a.cells.set a.cnt (some v), a.writes ++ [a.cnt], a.cnt + 1⟩
  else none

def putAll (a : Filling α) (vs : List α) : Option (Filling α) := vs.foldlM put a

/-- `n` elements of which the first ones hold `vs`. -/
def filled (n : ℕ) (vs : List α) : Filling α :=
  ⟨vs.map some ++ List.replicate (n - vs.length) none, List.range vs.length, vs.length⟩

theorem alloc_eq_filled (n : ℕ) : (alloc n : Filling α) = filled n [] := by
  simp [alloc, filled]

theorem put_filled {n : ℕ} {us : List α} (h : us.length < n) (v : α) :
    (filled n us).put v = some (filled n (us ++ [v])) := by
  have hcells : (filled n us).cells.length = n := by simp [filled]; omega
  have hrest : List.replicate (n - us.length) (none : Option α) =
      none :: List.replicate (n - (us.length + 1)) none := by
    rw [← List.replicate_succ]
    congr 1
    omega
  rw [put, if_pos (by rw [hcells]; exact h)]
  simp only [filled, hrest, List.length_append, List.length_singleton, List.range_succ,
    List.map_append, List.map_singleton]
  rw [List.set_append_right _ _ (by simp)]
  simp

theorem putAll_filled {n : ℕ} (vs us : List α) (h : us.length + vs.length ≤ n) :
    (filled n us).putAll vs = some (filled n (us ++ vs)) := by
  induction vs generalizing us with
  | nil => simp [putAll]
  | cons v vs ih =>
    rw [List.length_cons] at h
    have hrest := ih (us ++ [v]) (by simp; omega)
    rw [putAll] at hrest ⊢
    rw [List.foldlM_cons, put_filled (by omega)]
    simpa using hrest

/-- Blocks written one after the other, as long as there is room for all of them. -/
theorem foldlM_putAll {n : ℕ} {f : β → List α} (l : List β) (us : List α)
    (h : us.length + (l.flatMap f).length ≤ n) :
    l.foldlM (fun a b => a.putAll (f b)) (filled n us) = some (filled n (us ++ l.flatMap f)) := by
  induction l generalizing us with
  | nil => simp
  | cons b l ih =>
    rw [List.flatMap_cons, List.length_append] at h
    have hrest := ih (us ++ f b) (by rw [List.length_append]; omega)
    rw [List.foldlM_cons, putAll_filled (f b) us (by omega)]
    simpa using hrest

theorem getElem?_filled {n i : ℕ} {vs : List α} (h : i < vs.length) :
    (filled n vs).cells[i]? = (vs[i]?).map some := by
  rw [filled, List.getElem?_append_left (by simpa using h), List.getElem?_map]

/-! ## Blocks of one length -/

theorem length_flatMap_of_length {f : β → List α} {n : ℕ} (hf : ∀ b, (f b).length = n)
    (l : List β) : (l.flatMap f).length = n * l.length := by
  induction l with
  | nil => simp
  | cons b l ih =>
    rw [List.flatMap_cons, List.length_append, hf, ih, List.length_cons, Nat.mul_succ,
      Nat.add_comm]

theorem getElem?_flatMap_of_length {f : β → List α} {n : ℕ} (hf : ∀ b, (f b).length = n)
    (l : List β) (k : ℕ) {j : ℕ} (hj : j < n) :
    (l.flatMap f)[n * k + j]? = (l[k]?).bind fun b => (f b)[j]? := by
  induction l generalizing k with
  | nil => simp
  | cons b l ih =>
    cases k with
    | zero =>
      have hhead : j < (f b).length := by rw [hf]; exact hj
      rw [Nat.mul_zero, Nat.zero_add, List.flatMap_cons, List.getElem?_append_left hhead]
      rfl
    | succ k =>
      -- the blocks after the first one
      have hpast : (f b).length ≤ n * (k + 1) + j := by
        rw [hf, Nat.mul_succ]
        omega
      have hshift : n * (k + 1) + j - (f b).length = n * k + j := by
        rw [hf, Nat.mul_succ]
        omega
      rw [List.flatMap_cons, List.getElem?_append_right hpast, hshift, ih, List.getElem?_cons_succ]

end Filling
