import Sweetcomb.Lib.Runs

/-!
# Participants of a two-phase commit

A participant verifies a transaction, and may refuse it; later it is told whether the
transaction is committed or aborted. A run is consistent when no aborted transaction
leaves a trace: it then leads where its committed transactions alone lead.
-/

inductive Fate
  | committed | aborted
deriving DecidableEq, Repr

/-- What a participant makes of its state; `verify` gives none when it refuses. -/
structure TwoPhase (σ τ : Type*) where
  verify : τ → σ → Option σ
  apply : τ → σ → σ
  abort : τ → σ → σ

namespace TwoPhase

variable {σ τ : Type*} (P : TwoPhase σ τ)

def finish (t : τ) : Fate → σ → σ
  | .committed => P.apply t
  | .aborted => P.abort t

/-- A transaction that is accepted and then comes to its end. -/
def step (s : σ) (t : τ × Fate) : Option σ := (P.verify t.1 s).map (P.finish t.1 t.2)

/-- A sequence of transactions, if all of them are accepted. -/
def run (s : σ) (ts : List (τ × Fate)) : Option σ := Runs.run P.step s ts

/-- In a run from `s`, every aborted transaction ends in the state it has begun in. -/
def Consistent (s : σ) (ts : List (τ × Fate)) : Prop :=
  Runs.Meets P.step (fun s t => t.2 = .aborted → ∀ s', P.step s t = some s' → s' = s) s ts

/-- In a run from `s`, every aborted transaction meets the condition in the state it begins in. -/
def AbortedMeet (cond : σ → τ → Prop) (s : σ) (ts : List (τ × Fate)) : Prop :=
  Runs.Meets P.step (fun s t => t.2 = .aborted → cond s t.1) s ts

/-- The committed transactions of a sequence. -/
def committed (ts : List (τ × Fate)) : List (τ × Fate) := ts.filter fun t => t.2 = .committed

variable {P} {s s' : σ} {ts : List (τ × Fate)}

/-- The step rule: a condition under which an abort leads back makes runs consistent. -/
theorem consistent_of_aborted {cond : σ → τ → Prop}
    (hcond : ∀ s t s', cond s t → P.step s (t, .aborted) = some s' → s' = s)
    (h : P.AbortedMeet cond s ts) : P.Consistent s ts := by
  apply Runs.Meets.mono _ h
  rintro s ⟨t, f⟩ ht hf s' hs'
  obtain rfl : f = .aborted := hf
  exact hcond s t s' (ht rfl) hs'

/-- A consistent run leads where its committed transactions lead. -/
theorem run_committed (h : P.Consistent s ts) (hrun : P.run s ts = some s') :
    P.run s (committed ts) = some s' := by
  induction ts generalizing s with
  | nil => exact hrun
  | cons t ts ih =>
    obtain ⟨u, hu, hrest⟩ := Runs.run_cons.mp hrun
    have hu' := ih (h.2 u hu) hrest
    cases hfate : t.2 with
    | committed =>
      rw [committed, List.filter_cons_of_pos (by simpa using hfate)]
      exact Runs.run_cons.mpr ⟨u, hu, hu'⟩
    -- the transaction has led back to `s`, so it may be left out
    | aborted =>
      rw [committed, List.filter_cons_of_neg (by simp [hfate]), ← h.1 hfate u hu]
      exact hu'

end TwoPhase
