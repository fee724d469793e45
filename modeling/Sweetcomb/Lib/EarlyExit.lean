import Mathlib.Data.List.Basic

/-!
# Loops that may be left early

A loop over a list whose body either goes on with a new state or leaves with a
result is `List.foldlM` in `Except`. The rules here say what one turn of the
body gives for the whole loop.
-/

namespace EarlyExit

variable {α σ ρ : Type*}

/-- `I` holds of the state the loop ends in, `E` of the result it is left with. -/
def Post (I : σ → Prop) (E : ρ → Prop) : Except ρ σ → Prop
  | .ok s => I s
  | .error r => E r

theorem foldlM_cons_ok {f : σ → α → Except ρ σ} {s s' : σ} {c : α} (cs : List α)
    (h : f s c = .ok s') : (c :: cs).foldlM f s = cs.foldlM f s' := by
  simp only [List.foldlM_cons, h]
  rfl

theorem foldlM_cons_error {f : σ → α → Except ρ σ} {s : σ} {c : α} {r : ρ} (cs : List α)
    (h : f s c = .error r) : (c :: cs).foldlM f s = .error r := by
  simp only [List.foldlM_cons, h]
  rfl

/-- A loop that no turn leaves is the plain fold of its turns. -/
theorem foldlM_eq_ok {f : σ → α → Except ρ σ} {g : σ → α → σ} {I : σ → Prop}
    (cs : List α) (hf : ∀ s, ∀ c ∈ cs, I s → f s c = .ok (g s c) ∧ I (g s c))
    (s : σ) (hs : I s) : cs.foldlM f s = .ok (cs.foldl g s) ∧ I (cs.foldl g s) := by
  induction cs generalizing s with
  | nil => exact ⟨rfl, hs⟩
  | cons c cs ih =>
    obtain ⟨hc, hI⟩ := hf s c List.mem_cons_self hs
    -- the first turn hands the invariant on to the turns that are left
    rw [foldlM_cons_ok cs hc, List.foldl_cons]
    exact ih (fun s c hc => hf s c (List.mem_cons_of_mem _ hc)) _ hI

/-- The first turn that leaves decides the loop, whatever follows it. -/
theorem foldlM_eq_error {f : σ → α → Except ρ σ} {g : σ → α → σ} {I : σ → Prop}
    (pre : List α) (hf : ∀ s, ∀ c ∈ pre, I s → f s c = .ok (g s c) ∧ I (g s c))
    (c : α) (post : List α) (s : σ) (hs : I s) {r : ρ}
    (hc : f (pre.foldl g s) c = .error r) :
    (pre ++ c :: post).foldlM f s = .error r := by
  obtain ⟨hp, -⟩ := foldlM_eq_ok pre hf s hs
  rw [List.foldlM_append, hp]
  exact foldlM_cons_error post hc

/-- An element with `Q` after elements with `P` only. -/
def First (P Q : α → Prop) (cs : List α) : Prop :=
  ∃ pre c post, cs = pre ++ c :: post ∧ (∀ d ∈ pre, P d) ∧ Q c

/-- A loop in terms of other states and results is the same loop, where each turn is. -/
theorem foldlM_map {σ' ρ' : Type*} {f : σ → α → Except ρ σ} {g : σ' → α → Except ρ' σ'}
    (h : σ → σ') (k : ρ → ρ') (hturn : ∀ s c, g (h s) c = ((f s c).map h).mapError k)
    (cs : List α) (s : σ) : cs.foldlM g (h s) = ((cs.foldlM f s).map h).mapError k := by
  induction cs generalizing s with
  | nil => rfl
  | cons c cs ih =>
    have hc := hturn s c
    cases hf : f s c with
    | error r =>
      rw [hf] at hc
      rw [foldlM_cons_error cs hf, foldlM_cons_error cs hc]
      rfl
    | ok s' =>
      rw [hf] at hc
      rw [foldlM_cons_ok cs hf, foldlM_cons_ok cs hc]
      exact ih s'

end EarlyExit
