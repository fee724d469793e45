import Sweetcomb.ScInit

/-!
# `sr_plugin_init_cb` and `sr_plugin_cleanup_cb`

Each model's init function makes its subscriptions, one by one, and returns at the first
that is refused. The plugin then hands the subscription context over to its caller. Nothing
is released on a way out with an error.
-/

namespace Sweetcomb

/-- `sr_subtree_change_subscribe` with a priority, or `sr_dp_get_items_subscribe`. -/
inductive Subscription
  | subtreeChange (xpath : String) (priority : ℕ)
  | dpGetItems (xpath : String)
deriving DecidableEq, Repr

/-- What the init functions and the plugin callbacks work on. A null subscription context, or
a null `*private_ctx`, holds no subscriptions. -/
structure PluginWorld where
  /-- the subscribe calls made so far -/
  asked : ℕ
  /-- `pm->subscription` -/
  subscription : List Subscription
  /-- `*private_ctx` -/
  privateCtx : List Subscription
  /-- `HW` is connected to VPP -/
  connected : Bool
  vppPidStart : Int
deriving DecidableEq, Repr

/-- A subscribe call with `SR_SUBSCR_CTX_REUSE`; sysrepo answers by its position. -/
def PluginWorld.subscribe (answer : ℕ → SrErr) (x : Subscription) (w : PluginWorld) :
    SrErr × PluginWorld :=
  (answer w.asked,
    { w with
      asked := w.asked + 1
      subscription := if answer w.asked = .ok then w.subscription ++ [x] else w.subscription })

/-- The body of an init function: subscribe, or return the first error. -/
def subscribeAll (answer : ℕ → SrErr) : List Subscription → PluginWorld → SrErr × PluginWorld
  | [], w => (.ok, w)
  | x :: xs, w =>
    let (rc, w) := w.subscribe answer x
    if rc ≠ .ok then (rc, w) else subscribeAll answer xs w

/-! ## The models -/

inductive Model
  | ietfInterface | ietfNat | openconfigInterface
deriving DecidableEq, Repr

/-- The subscriptions of `ietf_interface_init`. -/
def ietfInterfaceInit : List Subscription :=
  [.subtreeChange "/ietf-interfaces:interfaces/interface" 100,
    .subtreeChange "/ietf-interfaces:interfaces/interface/ietf-ip:ipv4/address" 99,
    .subtreeChange "/ietf-interfaces:interfaces/interface/ietf-ip:ipv6/address" 98,
    .dpGetItems "/ietf-interfaces:interfaces-state",
    .dpGetItems "/ietf-interfaces:interfaces-state/interface/statistics"]

/-- The subscriptions of `ietf_nat_init`. -/
def ietfNatInit : List Subscription :=
  [.subtreeChange "/ietf-nat:nat/instances/instance" 1,
    .subtreeChange "/ietf-nat:nat/instances/instance/mapping-table/mapping-entry" 10,
    .dpGetItems "/ietf-nat:nat/instances/instance/capabilities"]

/-- The subscriptions of `openconfig_interface_init`. -/
def openconfigInterfaceInit : List Subscription :=
  [.subtreeChange "/openconfig-interfaces:interfaces/interface/config" 98,
    .dpGetItems "/openconfig-interfaces:interfaces/interface/state"]

def Model.subscriptions : Model → List Subscription
  | ietfInterface => ietfInterfaceInit
  | ietfNat => ietfNatInit
  | openconfigInterface => openconfigInterfaceInit

/-! ## The plugin callbacks -/

section Plugin

variable {F : Type} [DecidableEq F]

/-- An init function with its subscriptions. -/
def subscribing (answer : ℕ → SrErr) (subs : F → List Subscription) (f : F)
    (pm : ScPluginMain F PluginWorld) : SrErr × ScPluginMain F PluginWorld :=
  let (rc, world) := subscribeAll answer (subs f) pm.world
  (rc, { pm with world })

/-- What sysrepo, VOM and the system answer during an initialisation. -/
structure InitEnv where
  answer : ℕ → SrErr
  /-- `OM::populate` throws, and the plugin exits -/
  populateThrows : Bool
  /-- what `get_vpp_pid` returns -/
  vppPid : Int

/-- `sr_plugin_init_cb`, once `HW::connect` has succeeded; there is no return from `exit(1)`. -/
def srPluginInitCb (env : InitEnv) (subs : F → List Subscription) (registrations : List F)
    (pm : ScPluginMain F PluginWorld) : Option (SrErr × ScPluginMain F PluginWorld) :=
  let pm := { pm with world := { pm.world with connected := true } }
  if env.populateThrows then none
  else
    let (rc, pm) := scCallAllInitFunction (subscribing env.answer subs) registrations pm
    if rc ≠ .ok then some (rc, pm)
    else
      let world := { pm.world with
        privateCtx := pm.world.subscription
        vppPidStart := env.vppPid }
      some (if env.vppPid < 0 then .disconnect else .ok, { pm with world })

/-- `sr_plugin_cleanup_cb` on the `*private_ctx` that the initialisation has left. -/
def srPluginCleanupCb (registrations : List F) (pm : ScPluginMain F PluginWorld) :
    ScPluginMain F PluginWorld :=
  let pm := scCallAllExitFunction (fun _ pm => pm) registrations pm
  let subscription := if pm.world.privateCtx ≠ [] then [] else pm.world.subscription
  { pm with world := { pm.world with subscription, connected := false } }

/-- Every subscription has been handed over. -/
def HandedOver (w : PluginWorld) : Prop := w.subscription ⊆ w.privateCtx

/-- Nothing is left behind: no subscription that the caller does not have, no connection. -/
def NothingLeft (w : PluginWorld) : Prop := HandedOver w ∧ w.connected = false

end Plugin

/-! ## Subscribing -/

section Subscribing

variable {answer : ℕ → SrErr} {xs : List Subscription} {w : PluginWorld}

theorem subscribeAll_cons (x : Subscription) : subscribeAll answer (x :: xs) w =
    if answer w.asked ≠ .ok then w.subscribe answer x
    else subscribeAll answer xs (w.subscribe answer x).2 := rfl

/-- Subscribing leaves the private context and the connection. -/
theorem subscribeAll_keeps (answer : ℕ → SrErr) (xs : List Subscription) (w : PluginWorld) :
    (subscribeAll answer xs w).2.privateCtx = w.privateCtx ∧
      (subscribeAll answer xs w).2.connected = w.connected := by
  induction xs generalizing w with
  | nil => exact ⟨rfl, rfl⟩
  | cons x xs ih =>
    rw [subscribeAll_cons]
    split_ifs
    · exact ⟨rfl, rfl⟩
    · exact ih (w.subscribe answer x).2

theorem subscribeAll_append (xs ys : List Subscription) (w : PluginWorld) :
    subscribeAll answer (xs ++ ys) w =
      if (subscribeAll answer xs w).1 ≠ .ok then subscribeAll answer xs w
      else subscribeAll answer ys (subscribeAll answer xs w).2 := by
  induction xs generalizing w with
  | nil => rfl
  | cons x xs ih =>
    rw [List.cons_append, subscribeAll_cons, subscribeAll_cons]
    by_cases h : answer w.asked = .ok
    · simp only [h, ne_eq, not_true_eq_false, if_false]
      exact ih _
    · have hrc : (w.subscribe answer x).1 ≠ .ok := h
      simp [h, hrc]

/-- It succeeds when every call does. -/
theorem subscribeAll_ok_iff : (subscribeAll answer xs w).1 = .ok ↔
    ∀ k < xs.length, answer (w.asked + k) = .ok := by
  induction xs generalizing w with
  | nil => simp [subscribeAll]
  | cons x xs ih =>
    rw [subscribeAll_cons, List.length_cons]
    by_cases h : answer w.asked = .ok
    · simp only [h, ne_eq, not_true_eq_false, if_false]
      rw [ih]
      show (∀ k < xs.length, answer (w.asked + 1 + k) = .ok) ↔ _
      constructor
      · intro hk k hlt
        cases k with
        | zero => exact h
        | succ k =>
          rw [show w.asked + (k + 1) = w.asked + 1 + k by omega]
          exact hk k (by omega)
      · intro hk k hlt
        rw [show w.asked + 1 + k = w.asked + (k + 1) by omega]
        exact hk (k + 1) (by omega)
    · rw [if_pos h]
      exact iff_of_false h fun hk => h (hk 0 (by omega))

/-- No subscription is taken back. -/
theorem subscription_subset (answer : ℕ → SrErr) (xs : List Subscription) (w : PluginWorld) :
    w.subscription ⊆ (subscribeAll answer xs w).2.subscription := by
  induction xs generalizing w with
  | nil => exact List.Subset.refl _
  | cons x xs ih =>
    have hstep : w.subscription ⊆ (w.subscribe answer x).2.subscription := by
      show w.subscription ⊆ if answer w.asked = .ok then w.subscription ++ [x] else w.subscription
      split_ifs
      · exact List.subset_append_left _ _
      · exact List.Subset.refl _
    rw [subscribeAll_cons]
    split_ifs
    · exact hstep
    · exact List.Subset.trans hstep (ih _)

/-- A first subscription is made unless the first call is refused. -/
theorem subscribeAll_subscription (hne : xs ≠ []) (hw : w.subscription = []) :
    (subscribeAll answer xs w).2.subscription = [] ↔ answer w.asked ≠ .ok := by
  obtain ⟨x, xs, rfl⟩ := List.exists_cons_of_ne_nil hne
  have hfirst : (w.subscribe answer x).2.subscription =
      if answer w.asked = .ok then [x] else [] := by
    show (if answer w.asked = .ok then w.subscription ++ [x] else w.subscription) = _
    rw [hw]
    rfl
  rw [subscribeAll_cons]
  by_cases h : answer w.asked = .ok
  · refine iff_of_false (fun hnil => ?_) (not_not.mpr h)
    -- the first subscription is made and never taken back
    rw [if_neg (not_not.mpr h)] at hnil
    rw [if_pos h] at hfirst
    have hsubset := subscription_subset answer xs (w.subscribe answer x).2
    rw [hnil, hfirst] at hsubset
    cases hsubset List.mem_cons_self
  · refine iff_of_true ?_ h
    rw [if_pos h, hfirst, if_neg h]

end Subscribing

/-! ## A failed initialisation -/

section FailedInit

variable {F : Type} [DecidableEq F]

/-- The init functions that are still to be called. -/
def pending : List F → (F → Bool) → List F
  | [], _ => []
  | f :: p, called =>
    if called f then pending p called else f :: pending p (Function.update called f true)

/-- The subscribe calls that an initialisation makes if none is refused. -/
def subscribeCalls (subs : F → List Subscription) (registrations : List F)
    (pm : ScPluginMain F PluginWorld) : List Subscription :=
  (pending registrations pm.initCalled).flatMap subs

/-- Sysrepo accepts every subscribe call of the initialisation. -/
def AllAccepted (answer : ℕ → SrErr) (subs : F → List Subscription) (registrations : List F)
    (pm : ScPluginMain F PluginWorld) : Prop :=
  ∀ k < (subscribeCalls subs registrations pm).length, answer (pm.world.asked + k) = .ok

variable {answer : ℕ → SrErr} {subs : F → List Subscription} {registrations : List F}
  {pm : ScPluginMain F PluginWorld} {env : InitEnv}

/-- The init functions come down to one list of subscribe calls. -/
theorem initLoop_subscribing (fs : List F) (pm : ScPluginMain F PluginWorld) :
    (initLoop (subscribing answer subs) .ok fs pm).1 =
        (subscribeAll answer (subscribeCalls subs fs pm) pm.world).1 ∧
      (initLoop (subscribing answer subs) .ok fs pm).2.world =
        (subscribeAll answer (subscribeCalls subs fs pm) pm.world).2 := by
  induction fs generalizing pm with
  | nil => exact ⟨rfl, rfl⟩
  | cons f fs ih =>
    cases hf : pm.initCalled f with
    | true =>
      have hcalls : subscribeCalls subs (f :: fs) pm = subscribeCalls subs fs pm := by
        simp [subscribeCalls, pending, hf]
      simp only [initLoop, hf, if_true, hcalls]
      exact ih pm
    | false =>
      let r := subscribeAll answer (subs f) pm.world
      let pm' : ScPluginMain F PluginWorld := { pm.callInit f with world := r.2 }
      have hcalls : subscribeCalls subs (f :: fs) pm = subs f ++ subscribeCalls subs fs pm' := by
        simp only [subscribeCalls, pending, hf]
        rfl
      have hloop : initLoop (subscribing answer subs) .ok (f :: fs) pm =
          if r.1 ≠ .ok then (r.1, pm') else initLoop (subscribing answer subs) r.1 fs pm' := by
        simp only [initLoop, hf]
        rfl
      -- the subscriptions of `f` come first, and the loop goes on if all of them are made
      rw [hcalls, hloop, subscribeAll_append]
      by_cases hok : r.1 = .ok
      · rw [if_neg (not_not.mpr hok), if_neg (not_not.mpr hok), hok]
        exact ih pm'
      · rw [if_pos hok, if_pos hok]
        exact ⟨rfl, rfl⟩

/-- The world in which an initialisation starts to subscribe. -/
def connectedTo (pm : ScPluginMain F PluginWorld) : ScPluginMain F PluginWorld :=
  { pm with world := { pm.world with connected := true } }

/-- How an initialisation ends: it exits, an init function fails, or all have succeeded. -/
theorem init_cases (env : InitEnv) (subs : F → List Subscription) (registrations : List F)
    (pm : ScPluginMain F PluginWorld) :
    let s := subscribeAll env.answer (subscribeCalls subs registrations pm) (connectedTo pm).world
    (env.populateThrows = true ∧ srPluginInitCb env subs registrations pm = none) ∨
    (env.populateThrows = false ∧ ∃ rc pm',
      srPluginInitCb env subs registrations pm = some (rc, pm') ∧
      ((¬ AllAccepted env.answer subs registrations pm ∧ rc ≠ .ok ∧ pm'.world = s.2) ∨
        (AllAccepted env.answer subs registrations pm ∧ (rc = .ok ↔ 0 ≤ env.vppPid) ∧
          pm'.world = { s.2 with
            privateCtx := s.2.subscription
            vppPidStart := env.vppPid }))) := by
  intro s
  let r := scCallAllInitFunction (subscribing env.answer subs) registrations (connectedTo pm)
  obtain ⟨hrc, hworld⟩ : r.1 = s.1 ∧ r.2.world = s.2 :=
    initLoop_subscribing registrations (connectedTo pm)
  have hall : s.1 = .ok ↔ AllAccepted env.answer subs registrations pm := subscribeAll_ok_iff
  cases hthrows : env.populateThrows with
  | true =>
    refine .inl ⟨rfl, ?_⟩
    unfold srPluginInitCb
    rw [hthrows]
    rfl
  | false =>
    have hcb : srPluginInitCb env subs registrations pm =
        if r.1 ≠ .ok then some r
        else some (if env.vppPid < 0 then .disconnect else .ok,
          { r.2 with world := { r.2.world with
              privateCtx := r.2.world.subscription
              vppPidStart := env.vppPid } }) := by
      unfold srPluginInitCb
      rw [hthrows]
      rfl
    refine .inr ⟨rfl, ?_⟩
    by_cases hok : s.1 = .ok
    · rw [hcb, if_neg (not_not.mpr (hrc.trans hok))]
      refine ⟨_, _, rfl, .inr ⟨hall.mp hok, ?_, ?_⟩⟩
      · split_ifs with hpid
        · exact iff_of_false (by simp) (by omega)
        · exact iff_of_true rfl (by omega)
      · rw [hworld]
    · rw [hcb, if_pos fun h => hok (hrc.symm.trans h)]
      exact ⟨_, _, rfl, .inl ⟨fun h => hok (hall.mpr h), fun h => hok (hrc.symm.trans h), hworld⟩⟩

/-- The initialisation returns an error and leaves something that `left` does not allow. -/
def FailsOnly (left : PluginWorld → Prop) (env : InitEnv) (subs : F → List Subscription)
    (registrations : List F) (pm : ScPluginMain F PluginWorld) : Prop :=
  ∀ rc pm', srPluginInitCb env subs registrations pm = some (rc, pm') → rc ≠ .ok → left pm'.world

/-- A failed initialisation leaves nothing behind if and only if it does not fail: the
connection is never closed. -/
theorem failed_init_iff (env : InitEnv) (subs : F → List Subscription) (registrations : List F)
    (pm : ScPluginMain F PluginWorld) :
    FailsOnly NothingLeft env subs registrations pm ↔
      env.populateThrows = true ∨
        AllAccepted env.answer subs registrations pm ∧ 0 ≤ env.vppPid := by
  let s := subscribeAll env.answer (subscribeCalls subs registrations pm) (connectedTo pm).world
  -- no step of the initialisation disconnects
  have hconnected : s.2.connected = true := (subscribeAll_keeps _ _ _).2
  rcases init_cases env subs registrations pm with
    ⟨hthrows, hcb⟩ | ⟨hthrows, rc, pm', hcb, ⟨hnot, hrc, hworld⟩ | ⟨hall, hrc, hworld⟩⟩
  · refine iff_of_true (fun rc pm' h => ?_) (.inl hthrows)
    rw [hcb] at h
    cases h
  · refine iff_of_false (fun h => ?_) ?_
    · have hopen := (h rc pm' hcb hrc).2
      rw [hworld] at hopen
      cases hconnected.symm.trans hopen
    · rw [hthrows]
      rintro (h | h)
      · cases h
      · exact hnot h.1
  · by_cases hpid : 0 ≤ env.vppPid
    · refine iff_of_true (fun rc' pm'' h hne => ?_) (.inr ⟨hall, hpid⟩)
      rw [hcb] at h
      obtain ⟨rfl, -⟩ := Prod.mk.inj (Option.some.inj h)
      exact absurd (hrc.mpr hpid) hne
    · refine iff_of_false (fun h => ?_) ?_
      · have hopen := (h rc pm' hcb fun hok => hpid (hrc.mp hok)).2
        rw [hworld] at hopen
        cases hconnected.symm.trans hopen
      · rw [hthrows]
        rintro (h | h)
        · cases h
        · exact hpid h.2

/-- As far as subscriptions go, a first initialisation fails cleanly only where all of them are
accepted, or the first one is refused already. -/
theorem failed_init_handed_over_iff (hsubs : pm.world.subscription = [])
    (hctx : pm.world.privateCtx = []) :
    FailsOnly HandedOver env subs registrations pm ↔
      env.populateThrows = true ∨ AllAccepted env.answer subs registrations pm ∨
        env.answer pm.world.asked ≠ .ok := by
  rcases init_cases env subs registrations pm with
    ⟨hthrows, hcb⟩ | ⟨hthrows, rc, pm', hcb, ⟨hnot, hrc, hworld⟩ | ⟨hall, hrc, hworld⟩⟩
  · refine iff_of_true (fun rc pm' h => ?_) (.inl hthrows)
    rw [hcb] at h
    cases h
  · rw [or_iff_right (by simp [hthrows]), or_iff_right hnot]
    have hkept : pm'.world.privateCtx = [] := by
      rw [hworld, (subscribeAll_keeps _ _ _).1]
      exact hctx
    have hleft : FailsOnly HandedOver env subs registrations pm ↔
        pm'.world.subscription = [] := by
      constructor
      · intro h
        have hsubset := h rc pm' hcb hrc
        rw [HandedOver, hkept] at hsubset
        exact List.subset_nil.mp hsubset
      · intro h rc' pm'' hcb' _
        rw [hcb] at hcb'
        obtain ⟨-, rfl⟩ := Prod.mk.inj (Option.some.inj hcb')
        rw [HandedOver, h]
        exact List.nil_subset _
    have hcalls : subscribeCalls subs registrations pm ≠ [] := by
      intro hnil
      refine hnot fun k hk => ?_
      rw [hnil] at hk
      cases hk
    have hstart : (connectedTo pm).world.subscription = [] := hsubs
    rw [hleft, hworld]
    exact subscribeAll_subscription hcalls hstart
  · refine iff_of_true (fun rc' pm'' h _ => ?_) (.inr (.inl hall))
    rw [hcb] at h
    obtain ⟨-, rfl⟩ := Prod.mk.inj (Option.some.inj h)
    rw [HandedOver, hworld]
    exact List.Subset.refl _

theorem exit_world (registrations : List F) (pm : ScPluginMain F PluginWorld) :
    (scCallAllExitFunction (fun _ pm => pm) registrations pm).world = pm.world := by
  induction registrations generalizing pm with
  | nil => rfl
  | cons f p ih =>
    unfold scCallAllExitFunction
    split_ifs
    · exact ih pm
    · exact ih (pm.callExit f)

/-- What is handed over is released by the cleanup, which closes the connection too. -/
theorem cleanup_releases (h : HandedOver pm.world) :
    (srPluginCleanupCb registrations pm).world.subscription = [] ∧
      (srPluginCleanupCb registrations pm).world.connected = false := by
  refine ⟨?_, rfl⟩
  unfold srPluginCleanupCb
  simp only [exit_world]
  split_ifs with hctx
  · rfl
  · rw [HandedOver, not_not.mp hctx] at h
    exact List.subset_nil.mp h

end FailedInit

/-- The plugin before its first initialisation. -/
def freshPlugin : ScPluginMain Model PluginWorld where
  initCalled _ := false
  exitCalled _ := false
  world := ⟨0, [], [], false, 0⟩

/-- Sysrepo refuses the sixth subscription, the first one of the NAT model: five subscriptions
and the connection are left behind. -/
theorem sixth_subscription_refused :
    ∃ pm, srPluginInitCb ⟨fun k => if k = 5 then .internal else .ok, false, 1000⟩
        Model.subscriptions [.ietfInterface, .ietfNat, .openconfigInterface] freshPlugin =
          some (.internal, pm) ∧
      pm.world.subscription = ietfInterfaceInit ∧ pm.world.privateCtx = [] ∧
      pm.world.connected = true ∧ ¬ NothingLeft pm.world := by
  refine ⟨_, rfl, rfl, rfl, rfl, fun h => ?_⟩
  cases h.2

end Sweetcomb
