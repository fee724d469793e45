import Sweetcomb.ScPlugins

/-!
# Retried initialisations

Sysrepo tries a failed initialisation again. An init function that has been called is never
called again, failed or not, so every failure leaves fewer of them, and the plugin reports
success in the end, whatever sysrepo refuses. What was refused once stays missing.
-/

namespace Sweetcomb

/-- What an attempt finds: whether `OM::populate` throws, and what `get_vpp_pid` returns. -/
structure Attempt where
  populateThrows : Bool
  vppPid : Int
deriving DecidableEq, Repr

section Retries

variable {F : Type} [DecidableEq F]

def Attempt.env (answer : ℕ → SrErr) (a : Attempt) : InitEnv := ⟨answer, a.populateThrows, a.vppPid⟩

/-- The attempts one after the other, with their return codes; there are none if the process
exits on the way. Sysrepo answers each subscribe call by its position over all attempts. -/
def attemptAll (answer : ℕ → SrErr) (subs : F → List Subscription) (registrations : List F) :
    List Attempt → ScPluginMain F PluginWorld → Option (List SrErr × ScPluginMain F PluginWorld)
  | [], pm => some ([], pm)
  | a :: as, pm => do
    let (rc, pm) ← srPluginInitCb (a.env answer) subs registrations pm
    let (rcs, pm) ← attemptAll answer subs registrations as pm
    return (rc :: rcs, pm)

variable {answer : ℕ → SrErr} {subs : F → List Subscription} {registrations : List F}
  {pm pm' : ScPluginMain F PluginWorld} {xs : List Subscription} {w : PluginWorld}

/-! ## One init function -/

/-- The subscriptions are made up to the first call that is refused. -/
theorem subscribeAll_cases (answer : ℕ → SrErr) (xs : List Subscription) (w : PluginWorld) :
    let r := subscribeAll answer xs w
    (r.1 = .ok ∧ (∀ k < xs.length, answer (w.asked + k) = .ok) ∧
      r.2.asked = w.asked + xs.length ∧ r.2.subscription = w.subscription ++ xs) ∨
    (r.1 ≠ .ok ∧ ∃ j < xs.length, answer (w.asked + j) ≠ .ok ∧ r.2.asked = w.asked + j + 1 ∧
      r.2.subscription = w.subscription ++ xs.take j) := by
  induction xs generalizing w with
  | nil => exact .inl ⟨rfl, by simp, rfl, (List.append_nil _).symm⟩
  | cons x xs ih =>
    intro r
    by_cases h : answer w.asked = .ok
    · have hr : r = subscribeAll answer xs (w.subscribe answer x).2 := by
        show subscribeAll answer (x :: xs) w = _
        rw [subscribeAll_cons, if_neg (not_not.mpr h)]
      have hsub : (w.subscribe answer x).2.subscription = w.subscription ++ [x] := if_pos h
      have hasked : (w.subscribe answer x).2.asked = w.asked + 1 := rfl
      rw [hr]
      rcases ih (w.subscribe answer x).2 with ⟨hok, hall, hlen, hsubs⟩ | ⟨hrc, j, hj, hrest⟩
      · refine .inl ⟨hok, fun k hk => ?_, ?_, ?_⟩
        · cases k with
          | zero => exact h
          | succ k =>
            have hk' := hall k (by simpa using hk)
            rwa [hasked, show w.asked + 1 + k = w.asked + (k + 1) by omega] at hk'
        · rw [hlen, hasked, List.length_cons]
          omega
        · rw [hsubs, hsub, List.append_assoc]
          rfl
      · obtain ⟨hrefused, hlen, hsubs⟩ := hrest
        rw [hasked, show w.asked + 1 + j = w.asked + (j + 1) by omega] at hrefused hlen
        refine .inr ⟨hrc, j + 1, by simpa using hj, hrefused, hlen, ?_⟩
        rw [hsubs, hsub, List.append_assoc]
        rfl
    · have hr : r = w.subscribe answer x := by
        show subscribeAll answer (x :: xs) w = _
        rw [subscribeAll_cons, if_pos h]
      rw [hr]
      refine .inr ⟨h, 0, by simp, h, rfl, ?_⟩
      have hsub : (w.subscribe answer x).2.subscription = w.subscription := if_neg h
      rw [hsub]
      exact (List.append_nil _).symm

/-! ## One attempt -/

theorem pending_cons_called {fs : List F} {f : F} {called : F → Bool} (h : called f = true) :
    pending (f :: fs) called = pending fs called := by simp [pending, h]

theorem pending_cons {fs : List F} {f : F} {called : F → Bool} (h : called f = false) :
    pending (f :: fs) called = f :: pending fs (Function.update called f true) := by
  simp [pending, h]

/-- The plugin after the call of one init function. -/
def afterInit (answer : ℕ → SrErr) (subs : F → List Subscription) (f : F)
    (pm : ScPluginMain F PluginWorld) : ScPluginMain F PluginWorld :=
  { pm.callInit f with world := (subscribeAll answer (subs f) pm.world).2 }

theorem initLoop_cons {fs : List F} {f : F} (h : pm.initCalled f = false) (ret : SrErr) :
    initLoop (subscribing answer subs) ret (f :: fs) pm =
      if (subscribeAll answer (subs f) pm.world).1 ≠ .ok then
        ((subscribeAll answer (subs f) pm.world).1, afterInit answer subs f pm)
      else initLoop (subscribing answer subs) (subscribeAll answer (subs f) pm.world).1 fs
        (afterInit answer subs f pm) := by
  simp only [initLoop, h]
  rfl

theorem initLoop_cons_called {fs : List F} {f : F} (h : pm.initCalled f = true) (ret : SrErr) :
    initLoop (subscribing answer subs) ret (f :: fs) pm =
      initLoop (subscribing answer subs) ret fs pm := by simp [initLoop, h]

theorem afterInit_called (answer : ℕ → SrErr) (subs : F → List Subscription) (f : F)
    (pm : ScPluginMain F PluginWorld) : (afterInit answer subs f pm).initCalled f = true := by
  show Function.update pm.initCalled f true f = true
  exact Function.update_self f true pm.initCalled

/-- The loop clears no flag. -/
theorem initLoop_initCalled {fs : List F} {f : F} (h : pm.initCalled f = true) (ret : SrErr) :
    (initLoop (subscribing answer subs) ret fs pm).2.initCalled f = true := by
  induction fs generalizing pm ret with
  | nil => exact h
  | cons g fs ih =>
    cases hg : pm.initCalled g with
    | true =>
      rw [initLoop_cons_called hg]
      exact ih h ret
    | false =>
      have hafter : (afterInit answer subs g pm).initCalled f = true := by
        show Function.update pm.initCalled g true f = true
        by_cases hfg : f = g
        · rw [hfg]
          exact Function.update_self g true pm.initCalled
        · rw [Function.update_of_ne hfg]
          exact h
      rw [initLoop_cons hg]
      split_ifs
      · exact hafter
      · exact ih hafter _

/-- The loop calls some of the pending functions, in their order: all of them, or at least the
one that fails. -/
theorem initLoop_pending (fs : List F) (pm : ScPluginMain F PluginWorld) :
    let r := initLoop (subscribing answer subs) .ok fs pm
    ∃ done, pending fs pm.initCalled = done ++ pending fs r.2.initCalled ∧
      r.2.world.asked ≤ pm.world.asked + (done.flatMap subs).length ∧
      (r.1 = .ok → pending fs r.2.initCalled = []) ∧ (r.1 ≠ .ok → done ≠ []) := by
  induction fs generalizing pm with
  | nil => exact ⟨[], rfl, Nat.le_refl _, fun _ => rfl, fun h => absurd rfl h⟩
  | cons f fs ih =>
    intro r
    cases hf : pm.initCalled f with
    | true =>
      have hr : r = initLoop (subscribing answer subs) .ok fs pm := initLoop_cons_called hf .ok
      have hcalled : r.2.initCalled f = true := initLoop_initCalled hf .ok
      rw [pending_cons_called hf, pending_cons_called hcalled, hr]
      exact ih pm
    | false =>
      let x := subscribeAll answer (subs f) pm.world
      let pm₁ := afterInit answer subs f pm
      have hr : r = if x.1 ≠ .ok then (x.1, pm₁)
          else initLoop (subscribing answer subs) x.1 fs pm₁ := initLoop_cons hf .ok
      have hcalled₁ : pm₁.initCalled f = true := afterInit_called answer subs f pm
      have hasked : pm₁.world.asked ≤ pm.world.asked + (subs f).length := by
        show x.2.asked ≤ _
        rcases subscribeAll_cases answer (subs f) pm.world with ⟨-, -, h, -⟩ | ⟨-, j, hj, -, h, -⟩
        · exact Nat.le_of_eq h
        · rw [h]
          omega
      rw [pending_cons hf]
      by_cases hok : x.1 = .ok
      · rw [if_neg (not_not.mpr hok), hok] at hr
        have hcalled : r.2.initCalled f = true := by
          rw [hr]
          exact initLoop_initCalled hcalled₁ .ok
        obtain ⟨done, hdone, hle, hall, -⟩ := ih pm₁
        rw [← hr] at hdone hle hall
        refine ⟨f :: done, ?_, ?_, ?_, fun _ => List.cons_ne_nil f done⟩
        · rw [pending_cons_called hcalled, List.cons_append, ← hdone]
          rfl
        · rw [List.flatMap_cons, List.length_append]
          omega
        · rwa [pending_cons_called hcalled]
      · rw [if_pos hok] at hr
        have hcalled : r.2.initCalled f = true := by
          rw [hr]
          exact hcalled₁
        refine ⟨[f], ?_, ?_, fun h => ?_, fun _ => List.cons_ne_nil f []⟩
        · rw [pending_cons_called hcalled, hr]
          rfl
        · rw [hr]
          simpa using hasked
        · rw [hr] at h
          exact absurd h hok

/-- What the plugin holds and may still get. -/
def obtainable (subs : F → List Subscription) (registrations : List F)
    (pm : ScPluginMain F PluginWorld) : List Subscription :=
  pm.world.subscription ++ subscribeCalls subs registrations pm

/-- Every refusal on the way costs a subscription that is never asked for again. -/
structure Costs (answer : ℕ → SrErr) (subs : F → List Subscription) (registrations : List F)
    (pm pm' : ScPluginMain F PluginWorld) : Prop where
  asked : pm.world.asked ≤ pm'.world.asked
  accepted : (∀ k, pm.world.asked ≤ k → k < pm'.world.asked → answer k = .ok) →
    obtainable subs registrations pm' = obtainable subs registrations pm
  refused : (∃ k, pm.world.asked ≤ k ∧ k < pm'.world.asked ∧ answer k ≠ .ok) →
    (obtainable subs registrations pm').length < (obtainable subs registrations pm).length

theorem Costs.refl (pm : ScPluginMain F PluginWorld) : Costs answer subs registrations pm pm := by
  refine ⟨Nat.le_refl _, fun _ => rfl, ?_⟩
  rintro ⟨k, hlow, hhigh, -⟩
  omega

theorem Costs.length_le (h : Costs answer subs registrations pm pm') :
    (obtainable subs registrations pm').length ≤ (obtainable subs registrations pm).length := by
  by_cases hall : ∀ k, pm.world.asked ≤ k → k < pm'.world.asked → answer k = .ok
  · exact Nat.le_of_eq (congrArg List.length (h.accepted hall))
  · push Not at hall
    exact Nat.le_of_lt (h.refused hall)

theorem Costs.trans {pm₁ : ScPluginMain F PluginWorld}
    (h : Costs answer subs registrations pm pm₁) (h' : Costs answer subs registrations pm₁ pm') :
    Costs answer subs registrations pm pm' := by
  have hasked := h.asked
  have hasked' := h'.asked
  refine ⟨by omega, fun hall => ?_, ?_⟩
  · rw [h'.accepted fun k hlow hhigh => hall k (by omega) hhigh]
    exact h.accepted fun k hlow hhigh => hall k hlow (by omega)
  · -- a refusal in one part costs something, the other part gives nothing back
    rintro ⟨k, hlow, hhigh, hne⟩
    by_cases hk : k < pm₁.world.asked
    · exact Nat.lt_of_le_of_lt h'.length_le (h.refused ⟨k, hlow, hk, hne⟩)
    · exact Nat.lt_of_lt_of_le (h'.refused ⟨k, by omega, hhigh, hne⟩) h.length_le

/-- One attempt that returns; a failure costs an init function that is never called again. -/
structure Attempted (answer : ℕ → SrErr) (subs : F → List Subscription) (registrations : List F)
    (pm pm' : ScPluginMain F PluginWorld) (rc : SrErr) (vppPid : Int) : Prop where
  costs : Costs answer subs registrations pm pm'
  succeeded : rc = .ok → pending registrations pm'.initCalled = [] ∧
    pm'.world.privateCtx = pm'.world.subscription
  failed : rc ≠ .ok → 0 ≤ vppPid →
    (pending registrations pm'.initCalled).length < (pending registrations pm.initCalled).length

theorem srPluginInitCb_isSome {env : InitEnv} (h : env.populateThrows = false) :
    ∃ x, srPluginInitCb env subs registrations pm = some x := by
  rcases init_cases env subs registrations pm with ⟨hthrows, -⟩ | ⟨-, rc, pm', hcb, -⟩
  · cases h.symm.trans hthrows
  · exact ⟨(rc, pm'), hcb⟩

/-- What an attempt makes of the flags and the subscriptions is what the init loop does. -/
theorem srPluginInitCb_some {env : InitEnv} {rc : SrErr}
    (h : srPluginInitCb env subs registrations pm = some (rc, pm')) :
    let r := scCallAllInitFunction (subscribing env.answer subs) registrations (connectedTo pm)
    pm'.initCalled = r.2.initCalled ∧ pm'.world.asked = r.2.world.asked ∧
      pm'.world.subscription = r.2.world.subscription ∧
      (r.1 = .ok → pm'.world.privateCtx = pm'.world.subscription) ∧
      (rc = .ok ↔ r.1 = .ok ∧ 0 ≤ env.vppPid) := by
  intro r
  have hcb : srPluginInitCb env subs registrations pm =
      if env.populateThrows then none
      else if r.1 ≠ .ok then some r
      else some (if env.vppPid < 0 then .disconnect else .ok,
        { r.2 with world := { r.2.world with
            privateCtx := r.2.world.subscription
            vppPidStart := env.vppPid } }) := rfl
  rw [hcb] at h
  split_ifs at h with hthrows hfail hpid
  · obtain ⟨rfl, rfl⟩ : r.1 = rc ∧ r.2 = pm' := by
      rw [Option.some.inj h]
      exact ⟨rfl, rfl⟩
    exact ⟨rfl, rfl, rfl, fun hok => absurd hok hfail, iff_of_false hfail fun h => hfail h.1⟩
  · obtain ⟨rfl, rfl⟩ := Prod.mk.inj (Option.some.inj h)
    exact ⟨rfl, rfl, rfl, fun _ => rfl, iff_of_false (by simp) fun h => by omega⟩
  · obtain ⟨rfl, rfl⟩ := Prod.mk.inj (Option.some.inj h)
    exact ⟨rfl, rfl, rfl, fun _ => rfl, iff_of_true rfl ⟨not_not.mp hfail, by omega⟩⟩

theorem attempted {a : Attempt} {rc : SrErr}
    (h : srPluginInitCb (a.env answer) subs registrations pm = some (rc, pm')) :
    Attempted answer subs registrations pm pm' rc a.vppPid := by
  obtain ⟨hflags, hasked, hsubs, hctx, hrc⟩ := srPluginInitCb_some h
  let r := scCallAllInitFunction (subscribing answer subs) registrations (connectedTo pm)
  let calls := subscribeCalls subs registrations pm
  obtain ⟨hr, hworld⟩ : r.1 = (subscribeAll answer calls (connectedTo pm).world).1 ∧
      r.2.world = (subscribeAll answer calls (connectedTo pm).world).2 :=
    initLoop_subscribing registrations (connectedTo pm)
  obtain ⟨done, hdone, hle, hall, hsome⟩ :
      ∃ done, pending registrations pm.initCalled = done ++ pending registrations r.2.initCalled ∧
        r.2.world.asked ≤ pm.world.asked + (done.flatMap subs).length ∧
        (r.1 = .ok → pending registrations r.2.initCalled = []) ∧ (r.1 ≠ .ok → done ≠ []) :=
    initLoop_pending registrations (connectedTo pm)
  have hflags : pm'.initCalled = r.2.initCalled := hflags
  have hcalls : calls = done.flatMap subs ++ subscribeCalls subs registrations pm' := by
    rw [subscribeCalls, hflags, ← List.flatMap_append, ← hdone]
    rfl
  have hpm' : pm'.world.asked = (subscribeAll answer calls (connectedTo pm).world).2.asked ∧
      pm'.world.subscription = (subscribeAll answer calls (connectedTo pm).world).2.subscription :=
    ⟨hasked.trans (congrArg PluginWorld.asked hworld),
      hsubs.trans (congrArg PluginWorld.subscription hworld)⟩
  have hrc : rc = .ok ↔ r.1 = .ok ∧ 0 ≤ a.vppPid := hrc
  rcases subscribeAll_cases answer calls (connectedTo pm).world with
    ⟨hok, hallok, hlen, hsub⟩ | ⟨hfail, j, hj, hrefused, hlen, hsub⟩
  · have hlen : pm'.world.asked = pm.world.asked + calls.length := hpm'.1.trans hlen
    have hleft : pending registrations pm'.initCalled = [] := by
      rw [hflags]
      exact hall (hr.trans hok)
    have hk : ∀ k, pm.world.asked ≤ k → k < pm'.world.asked → answer k = .ok := by
      intro k hlow hhigh
      have hk := hallok (k - pm.world.asked) (by omega)
      rwa [show (connectedTo pm).world.asked + (k - pm.world.asked) = k from
        Nat.add_sub_cancel' hlow] at hk
    refine ⟨⟨by omega, fun _ => ?_, ?_⟩, fun _ => ⟨hleft, hctx (hr.trans hok)⟩, fun hne hpid => ?_⟩
    · rw [obtainable, subscribeCalls, hleft, hpm'.2, hsub]
      exact List.append_nil _
    · rintro ⟨k, hlow, hhigh, hne⟩
      exact absurd (hk k hlow hhigh) hne
    · exact absurd (hrc.mpr ⟨hr.trans hok, hpid⟩) hne
  · have hlen : pm'.world.asked = pm.world.asked + j + 1 := hpm'.1.trans hlen
    have hne : r.1 ≠ .ok := fun h => hfail (hr.symm.trans h)
    have hj' : j < (done.flatMap subs).length := by
      have hle : pm'.world.asked ≤ _ := le_of_eq_of_le hasked hle
      omega
    have hlt : (obtainable subs registrations pm').length <
        (obtainable subs registrations pm).length := by
      have hsub : pm'.world.subscription = pm.world.subscription ++ calls.take j :=
        hpm'.2.trans hsub
      have htotal := congrArg List.length hcalls
      rw [List.length_append] at htotal
      have htake : (calls.take j).length ≤ j := List.length_take_le j calls
      simp only [obtainable, hsub, List.length_append]
      show _ < _ + calls.length
      omega
    refine ⟨⟨by omega, fun h => ?_, fun _ => hlt⟩, fun h => absurd (hrc.mp h).1 hne, fun _ _ => ?_⟩
    · exact absurd (h (pm.world.asked + j) (by omega) (by omega)) hrefused
    · have hpos := List.length_pos_of_ne_nil (hsome hne)
      have htotal := congrArg List.length hdone
      rw [List.length_append] at htotal
      rw [hflags]
      omega

/-! ## All attempts -/

theorem attemptAll_cons {a : Attempt} {as : List Attempt} {rcs : List SrErr} :
    attemptAll answer subs registrations (a :: as) pm = some (rcs, pm') ↔
      ∃ rc pm₁ rcs', srPluginInitCb (a.env answer) subs registrations pm = some (rc, pm₁) ∧
        attemptAll answer subs registrations as pm₁ = some (rcs', pm') ∧ rcs = rc :: rcs' := by
  constructor
  · intro h
    obtain ⟨⟨rc, pm₁⟩, hfirst, h⟩ := Option.bind_eq_some_iff.mp h
    obtain ⟨⟨rcs', pm₂⟩, hrest, h⟩ := Option.bind_eq_some_iff.mp h
    obtain ⟨rfl, rfl⟩ := Prod.mk.inj (Option.some.inj h)
    exact ⟨rc, pm₁, rcs', hfirst, hrest, rfl⟩
  · rintro ⟨rc, pm₁, rcs', hfirst, hrest, rfl⟩
    exact Option.bind_eq_some_iff.mpr ⟨(rc, pm₁), hfirst,
      Option.bind_eq_some_iff.mpr ⟨(rcs', pm'), hrest, rfl⟩⟩

theorem attemptAll_costs {as : List Attempt} {rcs : List SrErr}
    (h : attemptAll answer subs registrations as pm = some (rcs, pm')) :
    Costs answer subs registrations pm pm' := by
  induction as generalizing pm rcs with
  | nil =>
    obtain ⟨rfl, rfl⟩ := Prod.mk.inj (Option.some.inj h)
    exact .refl pm
  | cons a as ih =>
    obtain ⟨rc, pm₁, rcs', hfirst, hrest, -⟩ := attemptAll_cons.mp h
    exact (attempted hfirst).costs.trans (ih hrest)

theorem attemptAll_last {as : List Attempt} {rcs : List SrErr}
    (h : attemptAll answer subs registrations as pm = some (rcs, pm'))
    (hlast : rcs.getLast? = some .ok) : pending registrations pm'.initCalled = [] ∧
      pm'.world.privateCtx = pm'.world.subscription := by
  induction as generalizing pm rcs with
  | nil =>
    obtain ⟨rfl, -⟩ := Prod.mk.inj (Option.some.inj h)
    cases hlast
  | cons a as ih =>
    obtain ⟨rc, pm₁, rcs', hfirst, hrest, rfl⟩ := attemptAll_cons.mp h
    cases as with
    | nil =>
      obtain ⟨rfl, rfl⟩ := Prod.mk.inj (Option.some.inj hrest)
      exact (attempted hfirst).succeeded (Option.some.inj hlast)
    | cons b as =>
      obtain ⟨rc', pm₂, rcs'', -, -, rfl⟩ := attemptAll_cons.mp hrest
      exact ih hrest hlast

/-- When the last of some attempts reports success, the caller has all subscriptions if and only
if sysrepo has refused none in any of the attempts. -/
theorem retried_init_iff (answer : ℕ → SrErr) (subs : F → List Subscription)
    (registrations : List F) (as : List Attempt) (pm pm' : ScPluginMain F PluginWorld)
    (rcs : List SrErr) (h : attemptAll answer subs registrations as pm = some (rcs, pm'))
    (hlast : rcs.getLast? = some .ok) :
    pm'.world.privateCtx = pm.world.subscription ++ subscribeCalls subs registrations pm ↔
      ∀ k, pm.world.asked ≤ k → k < pm'.world.asked → answer k = .ok := by
  have hcosts := attemptAll_costs h
  obtain ⟨hpending, hctx⟩ := attemptAll_last h hlast
  have hobtained : obtainable subs registrations pm' = pm'.world.privateCtx := by
    rw [obtainable, subscribeCalls, hpending, hctx]
    exact List.append_nil _
  rw [← hobtained]
  constructor
  · intro heq
    by_contra hnot
    push Not at hnot
    have hlt := hcosts.refused hnot
    rw [heq] at hlt
    exact Nat.lt_irrefl _ hlt
  · exact hcosts.accepted

/-- Enough attempts succeed, whatever sysrepo answers: one more than there are init functions to
be called, as long as VPP is there. -/
theorem retries_succeed (answer : ℕ → SrErr) (subs : F → List Subscription)
    (registrations : List F) (as : List Attempt) (pm : ScPluginMain F PluginWorld)
    (hvpp : ∀ a ∈ as, a.populateThrows = false ∧ 0 ≤ a.vppPid)
    (henough : (pending registrations pm.initCalled).length < as.length) :
    ∃ rcs pm', attemptAll answer subs registrations as pm = some (rcs, pm') ∧
      rcs.getLast? = some .ok := by
  induction as generalizing pm with
  | nil => cases henough
  | cons a as ih =>
    rw [List.forall_mem_cons] at hvpp
    have hreturns : (a.env answer).populateThrows = false := hvpp.1.1
    obtain ⟨⟨rc, pm₁⟩, hfirst⟩ :
        ∃ x, srPluginInitCb (a.env answer) subs registrations pm = some x :=
      srPluginInitCb_isSome hreturns
    have hstep := attempted hfirst
    by_cases hlast : rc = .ok ∧ as = []
    · obtain ⟨rfl, rfl⟩ := hlast
      exact ⟨[.ok], pm₁, attemptAll_cons.mpr ⟨_, pm₁, [], hfirst, rfl, rfl⟩, rfl⟩
    · have hrest : (pending registrations pm₁.initCalled).length < as.length := by
        by_cases hok : rc = .ok
        · rw [(hstep.succeeded hok).1]
          exact List.length_pos_of_ne_nil fun hnil => hlast ⟨hok, hnil⟩
        · have hless := hstep.failed hok hvpp.1.2
          rw [List.length_cons] at henough
          omega
      obtain ⟨rcs, pm', hall, hok⟩ := ih pm₁ hvpp.2 hrest
      refine ⟨rc :: rcs, pm', attemptAll_cons.mpr ⟨rc, pm₁, rcs, hfirst, hall, rfl⟩, ?_⟩
      rw [List.getLast?_cons, hok]
      rfl

end Retries

/-- The three models are registered, and VPP is there. -/
def attemptModels (answer : ℕ → SrErr) (n : ℕ) :
    Option (List SrErr × ScPluginMain Model PluginWorld) :=
  attemptAll answer Model.subscriptions [.ietfInterface, .ietfNat, .openconfigInterface]
    (List.replicate n ⟨false, 1000⟩) freshPlugin

/-- Sysrepo refuses the sixth subscription. The second attempt reports success without it and the
two that were to follow it. -/
theorem sixth_refused_retried : ∃ rcs pm',
    attemptModels (fun k => if k = 5 then .internal else .ok) 2 = some (rcs, pm') ∧
      rcs = [.internal, .ok] ∧ pm'.world.privateCtx ≠ Model.subscriptions .ietfInterface ++
        Model.subscriptions .ietfNat ++ Model.subscriptions .openconfigInterface := by
  obtain ⟨pm', hrun, hasked⟩ : ∃ pm',
      attemptModels (fun k => if k = 5 then .internal else .ok) 2 =
        some ([.internal, .ok], pm') ∧ 5 < pm'.world.asked := ⟨_, rfl, by decide⟩
  refine ⟨_, pm', hrun, rfl, fun heq => ?_⟩
  have hall := (retried_init_iff _ _ _ _ _ _ _ hrun rfl).mp heq
  cases hall 5 (Nat.zero_le 5) hasked

/-- Sysrepo refuses every subscription. The fourth attempt reports success. -/
theorem all_refused_succeeds : ∃ rcs pm', attemptModels (fun _ => .internal) 4 = some (rcs, pm') ∧
    rcs.getLast? = some .ok ∧ pm'.world.privateCtx = [] := by
  obtain ⟨rcs, pm', hrun, hlast⟩ := retries_succeed (fun _ => .internal) Model.subscriptions
    [.ietfInterface, .ietfNat, .openconfigInterface] (List.replicate 4 ⟨false, 1000⟩) freshPlugin
    (fun a ha => by rw [List.eq_of_mem_replicate ha]; exact ⟨rfl, by decide⟩) (by decide)
  obtain ⟨rcs', pm'', hrun', hctx⟩ : ∃ rcs' pm'',
      attemptModels (fun _ => .internal) 4 = some (rcs', pm'') ∧ pm''.world.privateCtx = [] :=
    ⟨_, _, rfl, rfl⟩
  obtain ⟨-, rfl⟩ := Prod.mk.inj (Option.some.inj (hrun'.symm.trans hrun))
  exact ⟨rcs, pm'', hrun, hlast, hctx⟩

end Sweetcomb
