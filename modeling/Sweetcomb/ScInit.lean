import Mathlib.Logic.Function.Basic
import Sweetcomb.Sysrepo

/-!
# `sc_init`: the registered init and exit functions

Every model registers an init and an exit function. A registration remembers that its
function has been called, and is never called again: `is_called` is set before the outcome
of an init function is known, and nothing ever clears it.
-/

namespace Sweetcomb

/-- `sc_plugin_main_t`: the `is_called` flags of the registrations, and whatever else the
init functions work on. -/
structure ScPluginMain (F W : Type) where
  initCalled : F → Bool
  exitCalled : F → Bool
  world : W

section Calls

variable {F W : Type} [DecidableEq F]

/-- `p->is_called = true` in the init registrations. -/
def ScPluginMain.callInit (pm : ScPluginMain F W) (f : F) : ScPluginMain F W :=
  { pm with initCalled := Function.update pm.initCalled f true }

/-- `p->is_called = true` in the exit registrations. -/
def ScPluginMain.callExit (pm : ScPluginMain F W) (f : F) : ScPluginMain F W :=
  { pm with exitCalled := Function.update pm.exitCalled f true }

/-- The loop of `sc_call_all_init_function` over the registrations that are left. -/
def initLoop (func : F → ScPluginMain F W → SrErr × ScPluginMain F W) (ret : SrErr) :
    List F → ScPluginMain F W → SrErr × ScPluginMain F W
  | [], pm => (ret, pm)
  | f :: p, pm =>
    if pm.initCalled f then initLoop func ret p pm
    else
      let (ret, pm) := func f (pm.callInit f)
      if ret ≠ .ok then (ret, pm) else initLoop func ret p pm

def scCallAllInitFunction (func : F → ScPluginMain F W → SrErr × ScPluginMain F W)
    (registrations : List F) (pm : ScPluginMain F W) : SrErr × ScPluginMain F W :=
  initLoop func .ok registrations pm

def scCallAllExitFunction (func : F → ScPluginMain F W → ScPluginMain F W) :
    List F → ScPluginMain F W → ScPluginMain F W
  | [], pm => pm
  | f :: p, pm =>
    if pm.exitCalled f then scCallAllExitFunction func p pm
    else scCallAllExitFunction func p (func f (pm.callExit f))

end Calls

/-! ## Histories of initialisation and cleanup -/

section History

variable {F : Type} [DecidableEq F]

/-- What each init function has returned last, since the process has started or the exit
functions were called last. -/
abbrev LastReturns (F : Type) := F → Option SrErr

/-- An init function that returns the given code, with a record of it. -/
def returning (codes : F → SrErr) (f : F) (pm : ScPluginMain F (LastReturns F)) :
    SrErr × ScPluginMain F (LastReturns F) :=
  (codes f, { pm with world := Function.update pm.world f (some (codes f)) })

/-- A call from `sr_plugin_init_cb`, with what the init functions return, or a call from
`sr_plugin_cleanup_cb`. -/
inductive ScCall (F : Type)
  | callAllInit (codes : F → SrErr)
  | callAllExit

/-- One call, with these init and exit functions registered. -/
def ScPluginMain.after (inits exits : List F) (pm : ScPluginMain F (LastReturns F)) :
    ScCall F → ScPluginMain F (LastReturns F)
  | .callAllInit codes => (scCallAllInitFunction (returning codes) inits pm).2
  | .callAllExit =>
    { scCallAllExitFunction (fun _ pm => pm) exits pm with world := fun _ => none }

/-- The process has just started. -/
def ScPluginMain.start : ScPluginMain F (LastReturns F) where
  initCalled _ := false
  exitCalled _ := false
  world _ := none

/-- The state after a history of calls. -/
def ScPluginMain.history (inits exits : List F) (calls : List (ScCall F)) :
    ScPluginMain F (LastReturns F) :=
  calls.foldl (fun pm call => pm.after inits exits call) .start

variable {codes : F → SrErr} {fs : List F} {pm : ScPluginMain F (LastReturns F)}

theorem initLoop_called {f : F} (h : pm.initCalled f = true) (ret : SrErr) :
    initLoop (returning codes) ret (f :: fs) pm = initLoop (returning codes) ret fs pm := by
  simp [initLoop, h]

theorem initLoop_ok {f : F} (h : pm.initCalled f = false) (hok : codes f = .ok) (ret : SrErr) :
    initLoop (returning codes) ret (f :: fs) pm =
      initLoop (returning codes) .ok fs (returning codes f (pm.callInit f)).2 := by
  simp [initLoop, h, returning, hok]

theorem initLoop_failed {f : F} (h : pm.initCalled f = false) (hfail : codes f ≠ .ok)
    (ret : SrErr) : (initLoop (returning codes) ret (f :: fs) pm).1 = codes f := by
  simp [initLoop, h, returning, hfail]

/-- A function that is still to be called and fails makes the call fail. -/
theorem initLoop_fails (h : ∃ f ∈ fs, pm.initCalled f = false ∧ codes f ≠ .ok) (ret : SrErr) :
    (initLoop (returning codes) ret fs pm).1 ≠ .ok := by
  induction fs generalizing pm ret with
  | nil => simp at h
  | cons g fs ih =>
    obtain ⟨f, hf, hcalled, hfail⟩ := h
    cases hg : pm.initCalled g with
    | true =>
      rw [initLoop_called hg]
      refine ih ⟨f, ?_, hcalled, hfail⟩ ret
      rcases List.mem_cons.mp hf with rfl | hf
      · cases hg.symm.trans hcalled
      · exact hf
    | false =>
      by_cases hok : codes g = .ok
      -- `f` comes later, and the call of `g` leaves its flag
      · have hne : f ≠ g := fun heq => hfail (heq ▸ hok)
        rw [initLoop_ok hg hok]
        refine ih ⟨f, List.mem_of_ne_of_mem hne hf, ?_, hfail⟩ .ok
        show Function.update pm.initCalled g true f = false
        rw [Function.update_of_ne hne]
        exact hcalled
      · rw [initLoop_failed hg hok]
        exact hok

/-- When the functions that are still to be called succeed, so does the call, and it calls
just these. -/
theorem initLoop_succeeds (h : ∀ f ∈ fs, pm.initCalled f = false → codes f = .ok) :
    (initLoop (returning codes) .ok fs pm).1 = .ok ∧
      ∀ f, (initLoop (returning codes) .ok fs pm).2.world f =
        if f ∈ fs ∧ pm.initCalled f = false then some .ok else pm.world f := by
  induction fs generalizing pm with
  | nil => simp [initLoop]
  | cons g fs ih =>
    cases hg : pm.initCalled g with
    | true =>
      rw [initLoop_called hg]
      obtain ⟨hret, hworld⟩ := ih fun f hf => h f (List.mem_cons_of_mem _ hf)
      refine ⟨hret, fun f => (hworld f).trans ?_⟩
      by_cases hfg : f = g
      · simp [hfg, hg]
      · simp [hfg]
    | false =>
      have hok := h g List.mem_cons_self hg
      rw [initLoop_ok hg hok]
      have htail : ∀ f ∈ fs, (returning codes g (pm.callInit g)).2.initCalled f = false →
          codes f = .ok := by
        intro f hf hcalled
        by_cases hfg : f = g
        · rw [hfg]
          exact hok
        · apply h f (List.mem_cons_of_mem _ hf)
          rw [← hcalled]
          exact (Function.update_of_ne hfg _ _).symm
      obtain ⟨hret, hworld⟩ := ih htail
      refine ⟨hret, fun f => (hworld f).trans ?_⟩
      by_cases hfg : f = g
      · simp [hfg, hg, hok, returning, ScPluginMain.callInit]
      · simp [hfg, returning, ScPluginMain.callInit]

/-- After any history, `sc_call_all_init_function` reports success for initialised models only
if and only if the functions called before have returned success and were not cleaned up
since, or one that is called now fails. -/
theorem init_success_iff (inits exits : List F) (calls : List (ScCall F)) (codes : F → SrErr) :
    let pm := ScPluginMain.history inits exits calls
    let r := scCallAllInitFunction (returning codes) inits pm
    (r.1 = .ok → ∀ f ∈ inits, r.2.world f = some .ok) ↔
      (∀ f ∈ inits, pm.initCalled f = true → pm.world f = some .ok) ∨
        ∃ f ∈ inits, pm.initCalled f = false ∧ codes f ≠ .ok := by
  intro pm r
  by_cases hfail : ∃ f ∈ inits, pm.initCalled f = false ∧ codes f ≠ .ok
  · have hr : r.1 ≠ .ok := initLoop_fails hfail .ok
    exact iff_of_true (fun h => absurd h hr) (.inr hfail)
  · have hall : ∀ f ∈ inits, pm.initCalled f = false → codes f = .ok := by
      intro f hf hcalled
      by_contra hne
      exact hfail ⟨f, hf, hcalled, hne⟩
    obtain ⟨hret, hworld⟩ := initLoop_succeeds hall
    rw [or_iff_left hfail]
    constructor
    · intro h f hf hcalled
      have hf' := h hret f hf
      rw [show r.2.world f = _ from hworld f] at hf'
      simpa [hcalled] using hf'
    · intro h _ f hf
      rw [show r.2.world f = _ from hworld f]
      cases hcalled : pm.initCalled f with
      | true => simpa [hcalled] using h f hf hcalled
      | false => simp [hf]

end History

/-- An initialisation that is tried again after a failure reports success although the model
that failed is not initialised; and so does one after a cleanup. -/
theorem retry_reports_success :
    let inits := ["ietf_interface_init", "ietf_nat_init"]
    let exits := ["ietf_interface_exit", "ietf_nat_exit"]
    let failing := fun f => if f = "ietf_nat_init" then SrErr.internal else SrErr.ok
    let retry := scCallAllInitFunction (returning fun _ => .ok) inits
      (.history inits exits [.callAllInit failing])
    let again := scCallAllInitFunction (returning fun _ => .ok) inits
      (.history inits exits [.callAllInit fun _ => .ok, .callAllExit])
    retry.1 = .ok ∧ retry.2.world "ietf_nat_init" = some .internal ∧
      again.1 = .ok ∧ again.2.world "ietf_nat_init" = none := by
  decide

end Sweetcomb
