import Mathlib.Data.List.Nodup
import Sweetcomb.Lib.CallOnce
import Sweetcomb.ScInit

/-!
# Dependencies among the init and exit functions

An init function may call others through `sc_call_init_function` before it returns, and an
exit function through `sc_call_exit_function`. Since the flag of a function is set before it
runs, cycles end, and no function is called twice.
-/

namespace Sweetcomb

section Calls

variable {F W : Type} [DecidableEq F]

/-- `sc_call_init_function`: `SR_ERR_OK` when the function is not registered or was called. -/
def scCallInitFunction (registrations : List F)
    (func : F → CallOnce.State F W SrErr → Option (SrErr × CallOnce.State F W SrErr)) (f : F)
    (s : CallOnce.State F W SrErr) : Option (SrErr × CallOnce.State F W SrErr) :=
  CallOnce.callFunction registrations .ok func f s

/-- `sc_call_exit_function`. -/
def scCallExitFunction (registrations : List F)
    (func : F → CallOnce.State F W Unit → Option (Unit × CallOnce.State F W Unit)) (f : F)
    (s : CallOnce.State F W Unit) : Option (Unit × CallOnce.State F W Unit) :=
  CallOnce.callFunction registrations () func f s

/-- `sc_call_all_init_function` with init functions that call each other, nested as deep as
the fuel allows. -/
def callAllInit (inits : F → CallOnce.Body F W SrErr) (registrations : List F) (fuel : ℕ)
    (s : CallOnce.State F W SrErr) : Option (SrErr × CallOnce.State F W SrErr) :=
  CallOnce.callAll inits registrations .ok (fun ret => ret ≠ .ok) fuel .ok registrations s

/-- `sc_call_all_exit_function` with exit functions that call each other. -/
def callAllExit (exits : F → CallOnce.Body F W Unit) (registrations : List F) (fuel : ℕ)
    (s : CallOnce.State F W Unit) : Option (Unit × CallOnce.State F W Unit) :=
  CallOnce.callAll exits registrations () (fun _ => false) fuel () registrations s

/-! ## The plain loops, with functions that call each other -/

/-- The flags of the init functions among those of the plugin. -/
def initPluginMain (exitCalled : F → Bool) (s : CallOnce.State F W SrErr) :
    ScPluginMain F (CallOnce.State F W SrErr) := ⟨s.called, exitCalled, s⟩

/-- An init function as the loop of `sc_call_all_init_function` calls it, with its flag set. -/
def initFunc (inits : F → CallOnce.Body F W SrErr) (registrations : List F) (fuel : ℕ) (f : F)
    (pm : ScPluginMain F (CallOnce.State F W SrErr)) :
    SrErr × ScPluginMain F (CallOnce.State F W SrErr) :=
  match (inits f).exec
      (scCallInitFunction registrations (CallOnce.invoke inits registrations .ok fuel))
      { pm.world with called := pm.initCalled, started := pm.world.started ++ [f] } with
  | some (ret, s) =>
    (ret, initPluginMain pm.exitCalled
      { s.finish f ret with top := (s.finish f ret).top ++ [(f, ret)] })
  | none => (.internal, pm)

/-- A call of the outermost loop is one of the plain init function. -/
theorem initFunc_eq {inits : F → CallOnce.Body F W SrErr} {registrations : List F} {fuel : ℕ}
    (exitCalled : F → Bool) {f : F} {ret : SrErr} {s s' : CallOnce.State F W SrErr}
    (h : CallOnce.invoke inits registrations .ok (fuel + 1) f s = some (ret, s')) :
    initFunc inits registrations fuel f ((initPluginMain exitCalled s).callInit f) =
      (ret, initPluginMain exitCalled { s' with top := s'.top ++ [(f, ret)] }) := by
  rw [CallOnce.invoke, Option.map_eq_some_iff] at h
  obtain ⟨⟨r₁, s₁⟩, hexec, hp⟩ := h
  cases hp
  have hstart : (inits f).exec
      (scCallInitFunction registrations (CallOnce.invoke inits registrations .ok fuel))
      { ((initPluginMain exitCalled s).callInit f).world with
        called := ((initPluginMain exitCalled s).callInit f).initCalled,
        started := ((initPluginMain exitCalled s).callInit f).world.started ++ [f] } =
          some (r₁, s₁) := hexec
  rw [initFunc, hstart]
  rfl

/-- The run with nested calls is one of `sc_call_all_init_function`. -/
theorem initLoop_initFunc {inits : F → CallOnce.Body F W SrErr} {registrations : List F}
    {fuel : ℕ} (exitCalled : F → Bool) (fs : List F) {ret r : SrErr}
    {s s' : CallOnce.State F W SrErr}
    (h : CallOnce.callAll inits registrations .ok (fun ret => ret ≠ .ok) (fuel + 1) ret fs s =
      some (r, s')) :
    initLoop (initFunc inits registrations fuel) ret fs (initPluginMain exitCalled s) =
      (r, initPluginMain exitCalled s') := by
  induction fs generalizing ret s with
  | nil =>
    cases h
    rfl
  | cons f fs ih =>
    unfold CallOnce.callAll at h
    unfold initLoop
    cases hcalled : s.called f with
    | true =>
      rw [if_pos hcalled] at h
      rw [if_pos (show (initPluginMain exitCalled s).initCalled f = true from hcalled)]
      exact ih h
    | false =>
      rw [if_neg (by simp [hcalled])] at h
      rw [if_neg (by simp [initPluginMain, hcalled])]
      obtain ⟨⟨r₁, s₁⟩, hinvoke, hrest⟩ := Option.bind_eq_some_iff.mp h
      simp only [initFunc_eq exitCalled hinvoke]
      by_cases hstop : r₁ = .ok
      · simp only [hstop, ne_eq, not_true_eq_false, decide_false, Bool.false_eq_true,
          if_false] at hrest ⊢
        exact ih hrest
      · simp only [hstop, ne_eq, not_false_eq_true, decide_true, if_true, Option.some.injEq,
          Prod.mk.injEq] at hrest ⊢
        exact ⟨hrest.1, by rw [← hrest.2]⟩

theorem scCallAllInitFunction_eq {inits : F → CallOnce.Body F W SrErr} {registrations : List F}
    {fuel : ℕ} (exitCalled : F → Bool) {r : SrErr} {s s' : CallOnce.State F W SrErr}
    (h : callAllInit inits registrations (fuel + 1) s = some (r, s')) :
    scCallAllInitFunction (initFunc inits registrations fuel) registrations
      (initPluginMain exitCalled s) = (r, initPluginMain exitCalled s') :=
  initLoop_initFunc exitCalled registrations h

/-- The flags of the exit functions among those of the plugin. -/
def exitPluginMain (initCalled : F → Bool) (s : CallOnce.State F W Unit) :
    ScPluginMain F (CallOnce.State F W Unit) := ⟨initCalled, s.called, s⟩

/-- An exit function as the loop of `sc_call_all_exit_function` calls it, with its flag set. -/
def exitFunc (exits : F → CallOnce.Body F W Unit) (registrations : List F) (fuel : ℕ) (f : F)
    (pm : ScPluginMain F (CallOnce.State F W Unit)) : ScPluginMain F (CallOnce.State F W Unit) :=
  match (exits f).exec
      (scCallExitFunction registrations (CallOnce.invoke exits registrations () fuel))
      { pm.world with called := pm.exitCalled, started := pm.world.started ++ [f] } with
  | some (ret, s) =>
    exitPluginMain pm.initCalled { s.finish f ret with top := (s.finish f ret).top ++ [(f, ret)] }
  | none => pm

theorem exitFunc_eq {exits : F → CallOnce.Body F W Unit} {registrations : List F} {fuel : ℕ}
    (initCalled : F → Bool) {f : F} {ret : Unit} {s s' : CallOnce.State F W Unit}
    (h : CallOnce.invoke exits registrations () (fuel + 1) f s = some (ret, s')) :
    exitFunc exits registrations fuel f ((exitPluginMain initCalled s).callExit f) =
      exitPluginMain initCalled { s' with top := s'.top ++ [(f, ret)] } := by
  rw [CallOnce.invoke, Option.map_eq_some_iff] at h
  obtain ⟨⟨r₁, s₁⟩, hexec, hp⟩ := h
  cases hp
  have hstart : (exits f).exec
      (scCallExitFunction registrations (CallOnce.invoke exits registrations () fuel))
      { ((exitPluginMain initCalled s).callExit f).world with
        called := ((exitPluginMain initCalled s).callExit f).exitCalled,
        started := ((exitPluginMain initCalled s).callExit f).world.started ++ [f] } =
          some (r₁, s₁) := hexec
  rw [exitFunc, hstart]
  rfl

/-- The run with nested calls is one of `sc_call_all_exit_function`. -/
theorem scCallAllExitFunction_eq {exits : F → CallOnce.Body F W Unit} {registrations : List F}
    {fuel : ℕ} (initCalled : F → Bool) (fs : List F) {ret r : Unit}
    {s s' : CallOnce.State F W Unit}
    (h : CallOnce.callAll exits registrations () (fun _ => false) (fuel + 1) ret fs s =
      some (r, s')) :
    scCallAllExitFunction (exitFunc exits registrations fuel) fs (exitPluginMain initCalled s) =
      exitPluginMain initCalled s' := by
  induction fs generalizing ret s with
  | nil =>
    cases h
    rfl
  | cons f fs ih =>
    unfold CallOnce.callAll at h
    unfold scCallAllExitFunction
    cases hcalled : s.called f with
    | true =>
      rw [if_pos hcalled] at h
      rw [if_pos (show (exitPluginMain initCalled s).exitCalled f = true from hcalled)]
      exact ih h
    | false =>
      rw [if_neg (by simp [hcalled])] at h
      rw [if_neg (by simp [exitPluginMain, hcalled])]
      obtain ⟨⟨r₁, s₁⟩, hinvoke, hrest⟩ := Option.bind_eq_some_iff.mp h
      rw [exitFunc_eq initCalled hinvoke]
      exact ih hrest

/-! ## Each function once -/

/-- What an initialisation comes to that starts with no flag set and returns `r`. -/
structure InitOnce (registrations : List F) (r : SrErr) (s : CallOnce.State F W SrErr) :
    Prop where
  /-- no function is started twice -/
  once : s.started.Nodup
  registered : ∀ f ∈ s.started, f ∈ registrations
  /-- whatever is started returns -/
  returned : (s.returned.map Prod.fst).Perm s.started
  success : (∀ p ∈ s.returned, p.2 = .ok) →
    r = .ok ∧ ∀ f ∈ registrations, s.started.count f = 1
  /-- an error is that of the last call of the loop, which goes no further -/
  failure : r ≠ .ok → ∃ before f after, registrations = before ++ f :: after ∧
    s.top.getLast? = some (f, r) ∧ (f, r) ∈ s.returned ∧ ∀ g ∈ after, g ∉ s.top.map Prod.fst

/-- What a cleanup comes to that starts with no flag set. -/
structure ExitOnce (registrations : List F) (s : CallOnce.State F W Unit) : Prop where
  once : s.started.Nodup
  registered : ∀ f ∈ s.started, f ∈ registrations
  returned : (s.returned.map Prod.fst).Perm s.started
  all : ∀ f ∈ registrations, s.started.count f = 1

theorem initOnce_of_ended {registrations : List F} (hregs : registrations.Nodup) {r : SrErr}
    {s : CallOnce.State F W SrErr} (hrecorded : s.Recorded registrations)
    (hreturned : (s.returned.map Prod.fst).Perm s.started) (htop : ∀ p ∈ s.top, p ∈ s.returned)
    (hended : CallOnce.Ended (fun ret => ret ≠ .ok) registrations s.called .ok r s.top) :
    InitOnce registrations r s := by
  refine ⟨hrecorded.nodup, hrecorded.registered, hreturned, fun hok => ?_, fun hr => ?_⟩
  · generalize s.top = tops at hended htop
    cases hended with
    | through hall hr =>
      refine ⟨by simpa using hr, fun f hf => ?_⟩
      exact List.count_eq_one_of_mem hrecorded.nodup ((hrecorded.called_iff f).mp (hall f hf))
    | @stopped before after f tops hfs hr htops =>
      -- the result that stops the loop is not `SR_ERR_OK`
      have hlast := hok (f, r) (htop (f, r) (by simp))
      simp [show r = .ok from hlast] at hr
  · generalize s.top = tops at hended htop
    cases hended with
    | through hall hstop => simp [hr] at hstop
    | @stopped before after f tops hfs hr htops =>
      refine ⟨before, f, after, hfs, by simp, htop (f, r) (by simp), fun g hg hgtop => ?_⟩
      rw [hfs, List.nodup_append] at hregs
      obtain ⟨-, hafter, hdisjoint⟩ := hregs
      rw [List.map_append, List.mem_append] at hgtop
      rcases hgtop with hgtop | hgtop
      · obtain ⟨p, hp, rfl⟩ := List.mem_map.mp hgtop
        exact hdisjoint _ (htops p hp) _ (List.mem_cons_of_mem f hg) rfl
      · have hgf : g = f := by simpa using hgtop
        exact (List.nodup_cons.mp hafter).1 (hgf ▸ hg)

/-- Whatever init functions call each other, one call of `sc_call_all_init_function` comes to
an end and runs each function at most once, and so does `sc_call_all_exit_function`. -/
theorem functions_called_once (inits : F → CallOnce.Body F W SrErr)
    (exits : F → CallOnce.Body F W Unit) {initRegistrations : List F}
    (hinits : initRegistrations.Nodup) (exitRegistrations : List F) (w : W) :
    (∃ r s, (∀ fuel ≥ initRegistrations.length,
        callAllInit inits initRegistrations fuel (.initial w) = some (r, s)) ∧
      InitOnce initRegistrations r s) ∧
    ∃ s, (∀ fuel ≥ exitRegistrations.length,
        callAllExit exits exitRegistrations fuel (.initial w) = some ((), s)) ∧
      ExitOnce exitRegistrations s := by
  constructor
  · obtain ⟨r, s, hrun, hrecorded, hreturned, htop, hended⟩ :=
      CallOnce.callAll_initial inits initRegistrations .ok (fun ret => ret ≠ .ok) .ok w
    exact ⟨r, s, hrun, initOnce_of_ended hinits hrecorded hreturned htop hended⟩
  · obtain ⟨u, s, hrun, hrecorded, hreturned, -, hended⟩ :=
      CallOnce.callAll_initial exits exitRegistrations () (fun _ => false) () w
    refine ⟨s, hrun, hrecorded.nodup, hrecorded.registered, hreturned, fun f hf => ?_⟩
    generalize s.top = tops at hended
    cases hended with
    | through hall hr =>
      exact List.count_eq_one_of_mem hrecorded.nodup ((hrecorded.called_iff f).mp (hall f hf))
    | stopped hfs hr htops => cases hr

/-- Two functions that call each other, and the first one itself. -/
def circular (f : Bool) : CallOnce.Body Bool Unit SrErr :=
  .call (!f) fun ret => if f then .ret ret else .call f fun _ => .ret ret

theorem functions_called_once_circular :
    ∃ s, callAllInit circular [false, true] 2 (.initial ()) = some (.ok, s) ∧
      s.started = [false, true] ∧ s.started.count true = 1 := by
  obtain ⟨⟨r, s, hrun, hs⟩, -⟩ := functions_called_once circular (fun _ => .ret ())
    (show [false, true].Nodup by decide) [] ()
  have hrun' := hrun 2 (by decide)
  obtain ⟨hret, hcount⟩ := hs.success (by
    cases hrun'
    decide)
  refine ⟨s, hret ▸ hrun', ?_, hcount true (by simp)⟩
  cases hrun'
  rfl

end Calls

end Sweetcomb
