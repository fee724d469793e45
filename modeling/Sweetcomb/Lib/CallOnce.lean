import Mathlib.Data.List.Perm.Basic
import Mathlib.Logic.Function.Basic
import Mathlib.Tactic.Common

/-!
# Functions that are called at most once

Registered functions carry a flag that is set before their body runs, and a call of a
function whose flag is set does nothing. The bodies may call each other, in cycles too. The
number of functions that are not flagged bounds how deep the calls nest.
-/

namespace CallOnce

variable {F W R : Type*}

/-- What a function does: it returns, it acts on the world, or it calls a function and goes
on with the result. -/
inductive Body (F W R : Type*)
  | ret (r : R)
  | act (g : W → W) (k : W → Body F W R)
  | call (f : F) (k : R → Body F W R)

/-- The flags and the world, with a record of what has been started, what has returned, and
what the outermost loop has called. -/
structure State (F W R : Type*) where
  called : F → Bool
  world : W
  started : List F
  returned : List (F × R)
  top : List (F × R)

/-- No function has been called. -/
def State.initial (w : W) : State F W R := ⟨fun _ => false, w, [], [], []⟩

/-- A body, run with a meaning for its calls. -/
def Body.exec (call : F → State F W R → Option (R × State F W R)) :
    Body F W R → State F W R → Option (R × State F W R)
  | ret r, s => some (r, s)
  | act g k, s => (k (g s.world)).exec call { s with world := g s.world }
  | .call f k, s => (call f s).bind fun p => (k p.1).exec call p.2

/-- A meaning of the calls that is defined more often gives the same results. -/
theorem Body.exec_mono {call call' : F → State F W R → Option (R × State F W R)}
    (h : ∀ f s p, call f s = some p → call' f s = some p) (b : Body F W R) {s : State F W R}
    {p : R × State F W R} (hp : b.exec call s = some p) : b.exec call' s = some p := by
  induction b generalizing s with
  | ret r => exact hp
  | act g k ih => exact ih _ hp
  | call f k ih =>
    simp only [Body.exec, Option.bind_eq_some_iff] at hp ⊢
    obtain ⟨q, hq, hrest⟩ := hp
    exact ⟨q, h f s q hq, ih _ hrest⟩

section Record

variable {registered : List F}

/-! ## What a run does to the record -/

/-- The flags are those of the functions started, each once and each registered. -/
structure State.Recorded (registered : List F) (s : State F W R) : Prop where
  nodup : s.started.Nodup
  called_iff : ∀ f, s.called f = true ↔ f ∈ s.started
  registered : ∀ f ∈ s.started, f ∈ registered

/-- From `s` to `s'` some functions are started, all of which return, and no flag is cleared;
`tops` are the calls of the outermost loop. -/
structure Runs (registered : List F) (tops : List (F × R)) (s s' : State F W R) : Prop where
  recorded : s.Recorded registered → s'.Recorded registered
  flags : ∀ f, s.called f = true → s'.called f = true
  returned : ∃ new, s'.started = s.started ++ new ∧
    (s'.returned.map Prod.fst).Perm (s.returned.map Prod.fst ++ new)
  kept : ∀ p ∈ s.returned, p ∈ s'.returned
  top : s'.top = s.top ++ tops

theorem Runs.refl (s : State F W R) : Runs registered [] s s where
  recorded h := h
  flags _ h := h
  returned := ⟨[], by simp⟩
  kept _ h := h
  top := (List.append_nil _).symm

theorem Runs.trans {tops tops' : List (F × R)} {s s' s'' : State F W R}
    (h : Runs registered tops s s') (h' : Runs registered tops' s' s'') :
    Runs registered (tops ++ tops') s s'' where
  recorded hs := h'.recorded (h.recorded hs)
  flags f hf := h'.flags f (h.flags f hf)
  returned := by
    obtain ⟨new, hstarted, hperm⟩ := h.returned
    obtain ⟨new', hstarted', hperm'⟩ := h'.returned
    refine ⟨new ++ new', ?_, ?_⟩
    · rw [hstarted', hstarted, List.append_assoc]
    · rw [← List.append_assoc]
      exact hperm'.trans (hperm.append_right new')
  kept p hp := h'.kept p (h.kept p hp)
  top := by rw [h'.top, h.top, List.append_assoc]

theorem Runs.act (s : State F W R) (w : W) : Runs registered [] s { s with world := w } where
  recorded h := ⟨h.nodup, h.called_iff, h.registered⟩
  flags _ h := h
  returned := ⟨[], by simp⟩
  kept _ h := h
  top := (List.append_nil _).symm

/-- The outermost loop notes a call. -/
theorem Runs.note (s : State F W R) (p : F × R) :
    Runs registered [p] s { s with top := s.top ++ [p] } where
  recorded h := ⟨h.nodup, h.called_iff, h.registered⟩
  flags _ h := h
  returned := ⟨[], by simp⟩
  kept _ h := h
  top := rfl

/-- How many registered functions are not flagged. -/
def uncalled (registered : List F) (s : State F W R) : ℕ :=
  (registered.filter fun f => !s.called f).length

theorem uncalled_le {s s' : State F W R} (h : ∀ f, s.called f = true → s'.called f = true) :
    uncalled registered s' ≤ uncalled registered s := by
  refine (List.monotone_filter_right registered fun f hf => ?_).length_le
  cases hs : s.called f with
  | true => simp [h f hs] at hf
  | false => rfl

/-- A body runs to its end when the calls of functions do. -/
theorem Body.exec_runs {call : F → State F W R → Option (R × State F W R)} {n : ℕ}
    (hcall : ∀ f s, uncalled registered s ≤ n →
      ∃ r s', call f s = some (r, s') ∧ Runs registered [] s s')
    (b : Body F W R) {s : State F W R} (hs : uncalled registered s ≤ n) :
    ∃ r s', b.exec call s = some (r, s') ∧ Runs registered [] s s' := by
  induction b generalizing s with
  | ret r => exact ⟨r, s, rfl, .refl s⟩
  | act g k ih =>
    obtain ⟨r, s', hexec, hruns⟩ := ih (g s.world) (s := { s with world := g s.world }) hs
    exact ⟨r, s', hexec, (Runs.act s _).trans hruns⟩
  | call f k ih =>
    obtain ⟨r, s', hf, hruns⟩ := hcall f s hs
    obtain ⟨r', s'', hexec, hruns'⟩ := ih r (s := s') (Nat.le_trans (uncalled_le hruns.flags) hs)
    exact ⟨r', s'', by simp [Body.exec, hf, hexec], hruns.trans hruns'⟩

end Record

section Calls

variable [DecidableEq F] (body : F → Body F W R) (registered : List F) (default : R)

def State.start (s : State F W R) (f : F) : State F W R :=
  { s with called := Function.update s.called f true, started := s.started ++ [f] }

def State.finish (s : State F W R) (f : F) (r : R) : State F W R :=
  { s with returned := s.returned ++ [(f, r)] }

/-- The call of a function by another one: it is run when it is registered and not flagged. -/
def callFunction (invoke : F → State F W R → Option (R × State F W R)) (f : F)
    (s : State F W R) : Option (R × State F W R) :=
  match registered.find? fun p => p = f && !s.called p with
  | some p => invoke p s
  | none => some (default, s)

/-- The flag is set, then the body runs; `none` when the calls nest deeper than the fuel. -/
def invoke : ℕ → F → State F W R → Option (R × State F W R)
  | 0, _, _ => none
  | n + 1, f, s =>
    ((body f).exec (callFunction registered default (invoke n)) (s.start f)).map
      fun p => (p.1, p.2.finish f p.1)

/-- The outermost loop calls what is not flagged, until a result stops it. -/
def callAll (stop : R → Bool) (fuel : ℕ) (ret : R) :
    List F → State F W R → Option (R × State F W R)
  | [], s => some (ret, s)
  | f :: fs, s =>
    if s.called f then callAll stop fuel ret fs s
    else
      (invoke body registered default fuel f s).bind fun p =>
        let s := { p.2 with top := p.2.top ++ [(f, p.1)] }
        if stop p.1 then some (p.1, s) else callAll stop fuel p.1 fs s

/-! ## Fuel -/

variable {body registered default}

theorem callFunction_mono {call call' : F → State F W R → Option (R × State F W R)}
    (h : ∀ f s p, call f s = some p → call' f s = some p) (f : F) (s : State F W R)
    (p : R × State F W R) (hp : callFunction registered default call f s = some p) :
    callFunction registered default call' f s = some p := by
  unfold callFunction at hp ⊢
  split at hp
  · exact h _ s p hp
  · exact hp

theorem invoke_succ (n : ℕ) (f : F) (s : State F W R) (p : R × State F W R)
    (h : invoke body registered default n f s = some p) :
    invoke body registered default (n + 1) f s = some p := by
  induction n generalizing f s p with
  | zero => cases h
  | succ n ih =>
    rw [invoke, Option.map_eq_some_iff] at h ⊢
    obtain ⟨q, hq, hp⟩ := h
    exact ⟨q, Body.exec_mono (callFunction_mono ih) _ hq, hp⟩

theorem invoke_mono {n m : ℕ} (hnm : n ≤ m) {f : F} {s : State F W R} {p : R × State F W R}
    (h : invoke body registered default n f s = some p) :
    invoke body registered default m f s = some p := by
  induction hnm with
  | refl => exact h
  | step _ ih => exact invoke_succ _ f s p ih

theorem callAll_mono {stop : R → Bool} {n m : ℕ} (hnm : n ≤ m) (fs : List F) {ret : R}
    {s : State F W R} {p : R × State F W R}
    (h : callAll body registered default stop n ret fs s = some p) :
    callAll body registered default stop m ret fs s = some p := by
  induction fs generalizing ret s with
  | nil => exact h
  | cons f fs ih =>
    unfold callAll at h ⊢
    split at h
    · next hf =>
      rw [if_pos hf]
      exact ih h
    · next hf =>
      rw [if_neg hf]
      rw [Option.bind_eq_some_iff] at h ⊢
      obtain ⟨q, hq, hrest⟩ := h
      refine ⟨q, invoke_mono hnm hq, ?_⟩
      simp only at hrest ⊢
      split at hrest
      · next hstop => rwa [if_pos hstop]
      · next hstop =>
        rw [if_neg hstop]
        exact ih hrest

/-! ## Calls and the record -/

/-- The flag is set before the body runs, so that the function is not started again. -/
theorem State.Recorded.start {s : State F W R} (h : s.Recorded registered) {f : F}
    (hf : f ∈ registered) (hcalled : s.called f = false) : (s.start f).Recorded registered where
  nodup := by
    have hnew : f ∉ s.started := by
      intro hm
      rw [(h.called_iff f).mpr hm] at hcalled
      cases hcalled
    rw [State.start, List.nodup_append]
    refine ⟨h.nodup, by simp, fun a ha b hb => ?_⟩
    rw [List.mem_singleton] at hb
    rintro rfl
    exact hnew (hb ▸ ha)
  called_iff g := by
    by_cases hg : g = f
    · simp [State.start, hg]
    · simp [State.start, hg, h.called_iff g]
  registered g hg := by
    rcases List.mem_append.mp hg with hg | hg
    · exact h.registered g hg
    · rw [List.mem_singleton] at hg
      exact hg ▸ hf

/-- A function is started, its body runs, and it returns. -/
theorem Runs.invoked {s s' : State F W R} {f : F} (hf : f ∈ registered)
    (hcalled : s.called f = false) (h : Runs registered [] (s.start f) s') (r : R) :
    Runs registered [] s (s'.finish f r) where
  recorded hs := by
    have hs' := h.recorded (hs.start hf hcalled)
    exact ⟨hs'.nodup, hs'.called_iff, hs'.registered⟩
  flags g hg := by
    refine h.flags g ?_
    by_cases hgf : g = f
    · simp [State.start, hgf]
    · simp [State.start, hgf, hg]
  returned := by
    obtain ⟨new, hstarted, hperm⟩ := h.returned
    refine ⟨f :: new, ?_, ?_⟩
    · simpa [State.start, State.finish] using hstarted
    · -- `f` returns after those it has called
      have hlast : ((s'.finish f r).returned.map Prod.fst) = s'.returned.map Prod.fst ++ [f] := by
        simp [State.finish]
      rw [hlast]
      refine (hperm.append_right [f]).trans ?_
      rw [List.append_assoc]
      exact (List.perm_append_comm : (new ++ [f]).Perm ([f] ++ new)).append_left _
  kept p hp := List.mem_append_left _ (h.kept p hp)
  top := h.top

/-! ## Termination -/

theorem uncalled_start {s : State F W R} {f : F} (hf : f ∈ registered)
    (hcalled : s.called f = false) :
    uncalled registered (s.start f) < uncalled registered s := by
  have hsub : ((registered.filter fun g => !(s.start f).called g)).Sublist
      ((registered.filter fun g => !s.called g).filter fun g => g ≠ f) := by
    rw [List.filter_filter]
    refine List.monotone_filter_right registered fun g hg => ?_
    by_cases hgf : g = f
    · simp [State.start, hgf] at hg
    · simpa [State.start, hgf] using hg
  -- `f` itself was not flagged
  refine Nat.lt_of_le_of_lt hsub.length_le (List.length_filter_lt_length_iff_exists.mpr ⟨f, ?_⟩)
  simp [hf, hcalled]

/-- As many nested calls as there are functions that are not flagged are enough. -/
theorem invoke_runs (body : F → Body F W R) (default : R) (n : ℕ) {f : F} {s : State F W R}
    (hf : f ∈ registered) (hcalled : s.called f = false) (hn : uncalled registered s ≤ n) :
    ∃ r s', invoke body registered default n f s = some (r, s') ∧ Runs registered [] s s' ∧
      s'.called f = true ∧ (f, r) ∈ s'.returned := by
  induction n generalizing f s with
  | zero =>
    have hlt := uncalled_start hf hcalled
    omega
  | succ n ih =>
    have hlt := uncalled_start hf hcalled
    have hcall : ∀ g s, uncalled registered s ≤ n → ∃ r s',
        callFunction registered default (invoke body registered default n) g s = some (r, s') ∧
          Runs registered [] s s' := by
      intro g s hs
      unfold callFunction
      split
      · next p hp =>
        have hq := List.find?_some hp
        simp only [Bool.and_eq_true, decide_eq_true_eq, Bool.not_eq_true'] at hq
        obtain ⟨r, s', hrun, hruns, -⟩ := ih (List.mem_of_find?_eq_some hp) hq.2 hs
        exact ⟨r, s', hrun, hruns⟩
      · exact ⟨default, s, rfl, .refl s⟩
    obtain ⟨r, s', hexec, hruns⟩ := Body.exec_runs hcall (body f) (s := s.start f) (by omega)
    have hflag : s'.called f = true := hruns.flags f (by simp [State.start])
    refine ⟨r, s'.finish f r, ?_, hruns.invoked hf hcalled r, hflag, by simp [State.finish]⟩
    rw [invoke, hexec, Option.map_some]

/-- How the outermost loop over `fs` ends with `r`: it has seen to all of `fs`, and `r` stops
nothing, or `r` is the result of its last call and has stopped it there. -/
inductive Ended (stop : R → Bool) (fs : List F) (called : F → Bool) (ret r : R) :
    List (F × R) → Prop
  | through {tops : List (F × R)} (hall : ∀ f ∈ fs, called f = true)
      (hr : stop ret = false → stop r = false) : Ended stop fs called ret r tops
  | stopped {before after : List F} {f : F} {tops : List (F × R)} (hfs : fs = before ++ f :: after)
      (hr : stop r = true) (htops : ∀ p ∈ tops, p.1 ∈ before) :
      Ended stop fs called ret r (tops ++ [(f, r)])

omit [DecidableEq F] in
/-- The loop passes over a function that is flagged. -/
theorem Ended.skip {stop : R → Bool} {fs : List F} {called : F → Bool} {ret r : R}
    {tops : List (F × R)} {f : F} (h : Ended stop fs called ret r tops) (hf : called f = true) :
    Ended stop (f :: fs) called ret r tops := by
  cases h with
  | through hall hr => exact .through (List.forall_mem_cons.mpr ⟨hf, hall⟩) hr
  | stopped hcut hr htops =>
    exact .stopped (congrArg (f :: ·) hcut) hr fun p hp => List.mem_cons_of_mem f (htops p hp)

omit [DecidableEq F] in
/-- The loop goes on after a call whose result stops nothing. -/
theorem Ended.cons {stop : R → Bool} {fs : List F} {called : F → Bool} {ret r r₁ : R}
    {tops : List (F × R)} {f : F} (h : Ended stop fs called r₁ r tops) (hf : called f = true)
    (hstop : stop r₁ = false) : Ended stop (f :: fs) called ret r ((f, r₁) :: tops) := by
  cases h with
  | through hall hr => exact .through (List.forall_mem_cons.mpr ⟨hf, hall⟩) fun _ => hr hstop
  | @stopped before after g tops hcut hr htops =>
    have hbefore : ∀ p ∈ (f, r₁) :: tops, p.1 ∈ f :: before :=
      List.forall_mem_cons.mpr ⟨List.mem_cons_self, fun p hp =>
        List.mem_cons_of_mem f (htops p hp)⟩
    exact .stopped (congrArg (f :: ·) hcut) hr hbefore

/-- The outermost loop terminates, and notes only calls that have returned. -/
theorem callAll_runs (body : F → Body F W R) (default : R) (stop : R → Bool) {n : ℕ}
    (fs : List F) (hfs : ∀ f ∈ fs, f ∈ registered) (ret : R) {s : State F W R}
    (hn : uncalled registered s ≤ n) :
    ∃ r s' tops, callAll body registered default stop n ret fs s = some (r, s') ∧
      Runs registered tops s s' ∧ (∀ p ∈ tops, p ∈ s'.returned) ∧
      Ended stop fs s'.called ret r tops := by
  induction fs generalizing ret s with
  | nil => exact ⟨ret, s, [], rfl, .refl s, by simp, .through (by simp) fun h => h⟩
  | cons f fs ih =>
    have hfs' : ∀ g ∈ fs, g ∈ registered := fun g hg => hfs g (List.mem_cons_of_mem _ hg)
    unfold callAll
    cases hcalled : s.called f with
    | true =>
      obtain ⟨r, s', tops, hrun, hruns, hreturned, hended⟩ := ih hfs' ret hn
      exact ⟨r, s', tops, by simpa using hrun, hruns, hreturned,
        hended.skip (hruns.flags f hcalled)⟩
    | false =>
      obtain ⟨r₁, s₁, hinvoke, hruns₁, hflag, hreturned₁⟩ :=
        invoke_runs body default n (hfs f List.mem_cons_self) hcalled hn
      have hnoted := hruns₁.trans (Runs.note s₁ (f, r₁))
      cases hstop : stop r₁ with
      | true =>
        refine ⟨r₁, _, [(f, r₁)], by simp [hinvoke, hstop], hnoted, by simpa using hreturned₁, ?_⟩
        exact .stopped (List.nil_append (f :: fs)).symm hstop (List.forall_mem_nil _)
      | false =>
        obtain ⟨r, s', tops, hrun, hruns, hreturned, hended⟩ := ih hfs' r₁
          (s := { s₁ with top := s₁.top ++ [(f, r₁)] })
          (Nat.le_trans (uncalled_le hnoted.flags) hn)
        exact ⟨r, s', (f, r₁) :: tops, by simp [hinvoke, hstop, hrun], hnoted.trans hruns,
          List.forall_mem_cons.mpr ⟨hruns.kept _ hreturned₁, hreturned⟩,
          hended.cons (hruns.flags f hflag) hstop⟩

/-- Called from the start, the outermost loop comes to one end, however much fuel it has
beyond the number of registered functions. -/
theorem callAll_initial (body : F → Body F W R) (registered : List F) (default : R)
    (stop : R → Bool) (ret : R) (w : W) :
    ∃ r s, (∀ n ≥ registered.length,
        callAll body registered default stop n ret registered (.initial w) = some (r, s)) ∧
      s.Recorded registered ∧ (s.returned.map Prod.fst).Perm s.started ∧
      (∀ p ∈ s.top, p ∈ s.returned) ∧ Ended stop registered s.called ret r s.top := by
  have hn : uncalled registered (State.initial w : State F W R) ≤ registered.length :=
    List.length_filter_le _ _
  obtain ⟨r, s, tops, hrun, hruns, hreturned, hended⟩ :=
    callAll_runs body default stop registered (fun _ h => h) ret hn
  have htop : s.top = tops := hruns.top
  obtain ⟨new, hstarted, hperm⟩ := hruns.returned
  have hnew : s.started = new := hstarted
  refine ⟨r, s, fun n hge => callAll_mono hge registered hrun, hruns.recorded ?_, ?_, ?_, ?_⟩
  · exact ⟨List.nodup_nil, by simp [State.initial], by simp [State.initial]⟩
  · rw [hnew]
    exact hperm
  · rwa [htop]
  · rwa [htop]

end Calls

end CallOnce
