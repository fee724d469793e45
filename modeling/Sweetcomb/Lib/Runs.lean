import Mathlib.Data.List.Basic

/-!
# Runs of a partial step function

A system moves from state to state by actions, where the step function allows them. A
condition on steps is met by a run when it holds of each action in the state it is taken in.
-/

namespace Runs

variable {σ α : Type*} (step : σ → α → Option σ)

/-- Where a sequence of actions leads, if all of them are allowed. -/
def run (s : σ) (as : List α) : Option σ := as.foldlM step s

/-- Every action of a run from `s` meets the condition in the state it is taken in. -/
def Meets (cond : σ → α → Prop) (s : σ) : List α → Prop
  | [] => True
  | a :: as => cond s a ∧ ∀ s', step s a = some s' → Meets cond s' as

variable {step} {s s' u : σ} {a : α} {as : List α} {cond cond' : σ → α → Prop}

theorem run_cons : run step s (a :: as) = some s' ↔
    ∃ u, step s a = some u ∧ run step u as = some s' := by
  unfold run
  rw [List.foldlM_cons]
  exact Option.bind_eq_some_iff

theorem run_append {bs : List α} : run step s (as ++ bs) = some s' ↔
    ∃ u, run step s as = some u ∧ run step u bs = some s' := by
  unfold run
  rw [List.foldlM_append]
  exact Option.bind_eq_some_iff

instance decidableMeets [∀ s a, Decidable (cond s a)] :
    ∀ (as : List α) (s : σ), Decidable (Meets step cond s as)
  | [], _ => .isTrue trivial
  | a :: as, s =>
    -- the step is taken, to see the state that the rest of the run starts in
    match h : step s a with
    | none => decidable_of_iff (cond s a) (by simp [Meets, h])
    | some u =>
      have := decidableMeets as u
      decidable_of_iff (cond s a ∧ Meets step cond u as) (by simp [Meets, h])

theorem Meets.mono (himp : ∀ s a, cond s a → cond' s a) (h : Meets step cond s as) :
    Meets step cond' s as := by
  induction as generalizing s with
  | nil => trivial
  | cons a as ih => exact ⟨himp s a h.1, fun s' hs' => ih (h.2 s' hs')⟩

/-- The invariant rule: what the steps that meet the condition keep, the run keeps. -/
theorem invariant {I : σ → Prop}
    (hstep : ∀ s a s', I s → cond s a → step s a = some s' → I s') (hs : I s)
    (hmeets : Meets step cond s as) (hrun : run step s as = some s') : I s' := by
  induction as generalizing s with
  | nil =>
    obtain rfl := Option.some.inj hrun
    exact hs
  | cons a as ih =>
    obtain ⟨u, hu, hrest⟩ := run_cons.mp hrun
    exact ih (hstep s a u hs hmeets.1 hu) (hmeets.2 u hu) hrest

/-- The simulation rule: where each step is followed from related states, a run is. -/
theorem simulation {τ : Type*} {step' : τ → α → Option τ} {R : σ → τ → Prop} {t : τ}
    (hstep : ∀ s t a s', R s t → cond s a → step s a = some s' →
      ∃ t', step' t a = some t' ∧ R s' t')
    (hR : R s t) (hmeets : Meets step cond s as) (hrun : run step s as = some s') :
    ∃ t', run step' t as = some t' ∧ R s' t' := by
  induction as generalizing s t with
  | nil =>
    obtain rfl := Option.some.inj hrun
    exact ⟨t, rfl, hR⟩
  | cons a as ih =>
    obtain ⟨u, hu, hrest⟩ := run_cons.mp hrun
    obtain ⟨v, hv, hRuv⟩ := hstep s t a u hR hmeets.1 hu
    obtain ⟨t', ht', hR'⟩ := ih hRuv (hmeets.2 u hu) hrest
    exact ⟨t', run_cons.mpr ⟨v, hv, ht'⟩, hR'⟩

/-- A condition on actions alone is met where every action has it. -/
theorem meets_of_forall {p : α → Prop} (h : ∀ a ∈ as, p a) :
    Meets step (fun _ a => p a) s as := by
  induction as generalizing s with
  | nil => trivial
  | cons a as ih =>
    rw [List.forall_mem_cons] at h
    exact ⟨h.1, fun _ _ => ih h.2⟩

end Runs
