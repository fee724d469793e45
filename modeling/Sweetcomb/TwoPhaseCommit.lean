import Sweetcomb.Callbacks
import Sweetcomb.InterfaceLeaves
import Sweetcomb.Lib.TwoPhase

/-!
# Transactions: VERIFY, then APPLY or ABORT

The callbacks change the store and the NAT table at VERIFY already, and do nothing at
APPLY and at ABORT. A transaction that is aborted is undone only if there is nothing to
undo: it asks for nothing that is not there.
-/

namespace Sweetcomb

/-- What the plugin keeps between callbacks. -/
structure PluginState where
  om : Store
  table : NatTable

def PluginState.world (s : PluginState) : World where
  om := s.om
  table := s.table

def World.state (w : World) : PluginState := ⟨w.om, w.table⟩

/-- A configuration transaction of one subscription, with the answers of VPP to its writes. -/
structure Transaction where
  cb : Callback
  changes : List Change
  hw : List OmOp → RcT

namespace Transaction

def deliver (A : Asio) (t : Transaction) (event : NotifEvent) (s : PluginState) :
    Outcome × World :=
  t.cb.run ⟨A, t.hw⟩ event (.ok t.changes) s.world

end Transaction

/-- The plugin as a participant; it accepts a transaction by returning `SR_ERR_OK`. -/
def plugin (A : Asio) : TwoPhase PluginState Transaction where
  verify t s :=
    if (t.deliver A .verify s).1 = .returns .ok then some (t.deliver A .verify s).2.state
    else none
  apply t s := (t.deliver A .apply s).2.state
  abort t s := (t.deliver A .abort s).2.state

/-! ## Nothing happens at APPLY and ABORT -/

theorem finish_eq (A : Asio) (t : Transaction) (f : Fate) (s : PluginState) :
    (plugin A).finish t f s = s := by
  obtain ⟨cb, changes, hw⟩ := t
  -- three callbacks return at once; the address callback ends its loop at once on ABORT
  cases f <;> cases cb <;> rfl

/-- A step that goes through is the effect of its VERIFY call. -/
theorem step_eq_some_iff {A : Asio} {s s' : PluginState} {t : Transaction} {f : Fate} :
    (plugin A).step s (t, f) = some s' ↔
      (t.deliver A .verify s).1 = .returns .ok ∧ (t.deliver A .verify s).2.state = s' := by
  unfold TwoPhase.step
  rw [Option.map_eq_some_iff]
  simp only [finish_eq]
  by_cases h : (t.deliver A .verify s).1 = .returns .ok
  · simp [plugin, h]
  · simp [plugin, h]

/-! ## Change sets that ask for nothing -/

/-- The change set leaves every admin state, and names, modifies and deletes nothing that
is not as it says. -/
structure InterfaceIdle (om : Store) (stale : InterfaceStale) (cs : List Change) : Prop where
  settled : ∀ n i, om.find n = some i →
    (cs.filterMap fun c => c.leafEvent.setting n).getLastD i.state = i.state
  created : stale.create = true ∨ CreatesName cs →
    (lastName cs, .interface (lastName cs)) ∈ om.refs ∧
      om.find (lastName cs) =
        some ⟨lastName cs, "ETHERNET", (statesIn cs).getLastD stale.state⟩
  modified : stale.create = false → ¬ CreatesName cs →
    ∀ n, (modifiedIn cs).getLast? = some n → (n, .interface n) ∈ om.refs
  deleted : stale.create = false → ¬ CreatesName cs → stale.modify = false → modifiedIn cs = [] →
    stale.remove = true ∨ DeletesName cs → ∀ e ∈ om.refs, e.1 ≠ lastName cs

/-- The mapping is there as the change set creates it, or absent as it deletes it. -/
structure NatIdle (A : Asio) (s : PluginState) (stale : NatStale) (cs : List Change) : Prop where
  created : stale.create = true ∨ CreatesIndex cs →
    let x := (indicesIn cs).getLastD stale.xindex
    let inside := lastAddress A .internalSrc cs
    let outside := lastAddress A .externalSrc cs
    (natKey x, .natStatic ⟨inside, outside⟩) ∈ s.om.refs ∧ s.table x = some (inside, outside)
  deleted : stale.create = false → ¬ CreatesIndex cs → stale.remove = true ∨ DeletesIndex cs →
    let x := (indicesIn cs).getLastD stale.xindex
    (∀ e ∈ s.om.refs, e.1 ≠ natKey x) ∧ s.table x = none

/-- The binding is there as it is added, or absent as it is removed. -/
def AddrRequest.Idle (A : Asio) (om : Store) (r : AddrRequest) : Prop :=
  ∀ i a, om.find r.itf = some i → A.fromString r.addr = some a →
    if r.add then (l3Key A r.itf ⟨a, r.pfx⟩, .l3Binding r.itf ⟨a, r.pfx⟩) ∈ om.refs
    else ∀ e ∈ om.refs, e.1 ≠ l3Key A r.itf ⟨a, r.pfx⟩

/-- The transaction asks for nothing that is not there already. -/
def Transaction.Idle (A : Asio) (s : PluginState) (t : Transaction) : Prop :=
  match t.cb with
  | .ietfInterfaceCreate stale | .ocInterfacesConfig stale => InterfaceIdle s.om stale t.changes
  | .ietfInterfaceIpv46AddressChange =>
    ∀ r ∈ (AddrLocals.pass A {} t.changes).1, r.Idle A s.om
  | .natMappingTableConfig stale => NatIdle A s stale t.changes

/-! ## Idle change sets leave the state -/

section Idle

variable {env : Env} {w : World} {cs : List Change}

/-- A successful write of an interface that is held as it is. -/
theorem writeEffect_idle {i : Interface} (hkey : (i.name, .interface i.name) ∈ w.om.refs)
    (hi : w.om.find i.name = some i) (hok : (writeEffect env i w).outcome = .returns .ok) :
    (writeEffect env i w).om = w.om ∧ (writeEffect env i w).table = w.table := by
  refine ⟨?_, writeEffect_table⟩
  rw [(writeEffect_of_outcome hok).2]
  exact Store.write_interface_eq_self hkey hi

/-- The local variables when the loop is done. -/
abbrev loopLocals (stale : InterfaceStale) (cs : List Change) : InterfaceLocals :=
  (InterfaceLocals.init stale).run cs

variable {stale : InterfaceStale}

theorem commit_idle_created (h : InterfaceIdle w.om stale cs)
    (hc : (loopLocals stale cs).create = true)
    (hok : (effect (interfaceCommit env (loopLocals stale cs) w)).outcome = .returns .ok) :
    (effect (interfaceCommit env (loopLocals stale cs) w)).om = w.om ∧
      (effect (interfaceCommit env (loopLocals stale cs) w)).table = w.table := by
  obtain ⟨hkey, hfind⟩ := h.created (InterfaceLocals.run_create.mp hc)
  by_cases hb : Buildable cs
  · rw [commit_create hc (InterfaceLocals.build_eq_some hb)] at hok ⊢
    exact writeEffect_idle hkey hfind hok
  · rw [commit_unbuildable hc ((InterfaceLocals.build_eq_none_iff stale).mpr hb)] at hok
    cases hok

theorem commit_idle_modified (h : InterfaceIdle w.om stale cs)
    (hc : (loopLocals stale cs).create = false) (hm : (loopLocals stale cs).modify = true)
    (hok : (effect (interfaceCommit env (loopLocals stale cs) w)).outcome = .returns .ok) :
    (effect (interfaceCommit env (loopLocals stale cs) w)).om = w.om ∧
      (effect (interfaceCommit env (loopLocals stale cs) w)).table = w.table := by
  have hcreate : ¬ ((InterfaceLocals.init stale).create = true ∨ CreatesName cs) := by
    rw [← InterfaceLocals.run_create]
    simp [hc]
  obtain ⟨hstale, hnames⟩ := not_or.mp hcreate
  cases hi : (loopLocals stale cs).intf.deref w.om with
  | none =>
    rw [commit_null hc hm hi] at hok
    cases hok
  | some i =>
    rw [commit_modify hc hm hi] at hok ⊢
    cases hlast : (modifiedIn cs).getLast? with
    | none =>
      have hnull : (loopLocals stale cs).intf = .null := by
        rw [InterfaceLocals.run_intf, List.getLast?_eq_none_iff.mp hlast]
        rfl
      rw [hnull] at hi
      cases hi
    | some n =>
      have hstored : (loopLocals stale cs).intf = .stored n := by
        rw [InterfaceLocals.run_intf, List.getLastD_eq_getLast?, List.getLast?_map, hlast]
        rfl
      rw [hstored] at hi
      have hi : w.om.find n = some i := hi
      obtain rfl := Store.name_of_find hi
      exact writeEffect_idle (h.modified (Bool.eq_false_iff.mpr hstale) hnames i.name hlast) hi hok

/-- An idle change set that is accepted leaves the state. -/
theorem commit_idle (h : InterfaceIdle w.om stale cs)
    (hok : (effect (interfaceCommit env (loopLocals stale cs) w)).outcome = .returns .ok) :
    (effect (interfaceCommit env (loopLocals stale cs) w)).om = w.om ∧
      (effect (interfaceCommit env (loopLocals stale cs) w)).table = w.table := by
  cases hc : (loopLocals stale cs).create with
  | true => exact commit_idle_created h hc hok
  | false =>
    cases hm : (loopLocals stale cs).modify with
    | true => exact commit_idle_modified h hc hm hok
    | false =>
      cases hr : (loopLocals stale cs).remove with
      | false =>
        rw [commit_nothing hc hm hr]
        exact ⟨rfl, rfl⟩
      | true =>
        rw [commit_remove hc hm hr]
        refine ⟨?_, rfl⟩
        have hcreate := InterfaceLocals.run_create.not.mp (Bool.eq_false_iff.mp hc)
        have hmodify := InterfaceLocals.run_modify.not.mp (Bool.eq_false_iff.mp hm)
        rw [not_or, Bool.not_eq_true] at hcreate hmodify
        apply SharedStore.drop_eq_self
        intro e he
        rw [show (loopLocals stale cs).builder.name = lastName cs from InterfaceLocals.run_name]
        exact h.deleted hcreate.1 hcreate.2 hmodify.1 (not_not.mp hmodify.2)
          (InterfaceLocals.run_remove.mp hr) e he

/-- An accepted run of an interface callback over an idle change set. -/
theorem interfaceRun_idle {exit : Store → Change → Option (World → Outcome × World)}
    (hexit : ExitByName exit) (hrefuses : ExitRefuses exit) (h : InterfaceIdle w.om stale cs)
    (hok : (interfaceRun env .verify (interfaceBody exit) cs stale w).1 = .returns .ok) :
    (interfaceRun env .verify (interfaceBody exit) cs stale w).2.om = w.om ∧
      (interfaceRun env .verify (interfaceBody exit) cs stale w).2.table = w.table := by
  rcases interfaceRun_cases env w cs hexit (show NotifEvent.verify ≠ .abort by simp) with
    ⟨-, hrun⟩ | ⟨pre, c, -, out, hout, hrun⟩
  · rw [hrun] at hok ⊢
    have hom : (w.afterLoop cs).om = w.om := by
      rw [afterLoop_om, Store.run_eq_self h.settled]
    rw [← hom] at h
    obtain ⟨hom', htable⟩ := commit_idle h hok
    exact ⟨hom'.trans hom, htable.trans (afterLoop_table w cs)⟩
  · rw [hrun] at hok
    exact absurd hok (hrefuses _ _ _ hout _).1

/-- A successful NAT commit of an idle change set. -/
theorem natCommit_idle {stale : NatStale} (h : NatIdle env.asio w.state stale cs)
    (hok : (effect (natCommit env ((NatLocals.init stale).run env.asio cs) w)).outcome =
      .returns .ok) :
    (effect (natCommit env ((NatLocals.init stale).run env.asio cs) w)).om = w.om ∧
      (effect (natCommit env ((NatLocals.init stale).run env.asio cs) w)).table = w.table := by
  let l := (NatLocals.init stale).run env.asio cs
  have hx : l.xindex = (indicesIn cs).getLastD stale.xindex := NatLocals.run_xindex
  cases hc : l.create with
  | true =>
    obtain ⟨hkey, hentry⟩ := h.created (NatLocals.run_create.mp hc)
    by_cases ht : l.builder.type = "static"
    · have hin : (l.builder.get .internalSrc).address = lastAddress env.asio .internalSrc cs :=
        NatLocals.run_address stale .internalSrc
      have hout : (l.builder.get .externalSrc).address = lastAddress env.asio .externalSrc cs :=
        NatLocals.run_address stale .externalSrc
      rw [natCommit_create hc ht, hx, hin, hout] at hok ⊢
      obtain ⟨hom, htable⟩ := natWriteEffect_of_outcome hok
      rw [hom, htable]
      exact ⟨Store.write_natStatic_eq_self hkey, Function.update_eq_self_iff.mpr hentry.symm⟩
    · rw [natCommit_unbuildable hc ht] at hok
      cases hok
  | false =>
    have hcreate := NatLocals.run_create.not.mp (Bool.eq_false_iff.mp hc)
    obtain ⟨hstale, hnone⟩ := not_or.mp hcreate
    cases hr : l.remove with
    | false =>
      rw [natCommit_nothing hc hr]
      exact ⟨rfl, rfl⟩
    | true =>
      obtain ⟨hkey, hentry⟩ :=
        h.deleted (Bool.eq_false_iff.mpr hstale) hnone (NatLocals.run_remove.mp hr)
      rw [natCommit_remove hc hr, hx]
      exact ⟨SharedStore.drop_eq_self hkey, Function.update_eq_self_iff.mpr hentry.symm⟩

/-- An accepted NAT callback over an idle change set. -/
theorem nat_idle {stale : NatStale} (h : NatIdle env.asio w.state stale cs)
    (hok : (natMappingTableConfigCb env stale .verify (.ok cs) w).1 = .returns .ok) :
    (natMappingTableConfigCb env stale .verify (.ok cs) w).2.om = w.om ∧
      (natMappingTableConfigCb env stale .verify (.ok cs) w).2.table = w.table := by
  rcases nat_cases env w cs with ⟨-, hrun⟩ | ⟨pre, c, -, out, hout, hrun⟩
  · rw [hrun] at hok ⊢
    have hstate : (w.afterAsked cs).state = w.state := by simp [World.state]
    rw [← hstate] at h
    obtain ⟨hom, htable⟩ := natCommit_idle h hok
    exact ⟨hom.trans (afterAsked_om w cs), htable.trans (afterAsked_table w cs)⟩
  · rw [hrun] at hok
    exact absurd hok (NatEvent.exit_refuses hout _).1

/-- A request that is idle leaves the state, whatever it returns. -/
theorem perform_idle {r : AddrRequest} (h : r.Idle env.asio w.om) :
    (r.perform env w).2.om = w.om ∧ (r.perform env w).2.table = w.table := by
  obtain ⟨itf, addr, pfx, add⟩ := r
  cases hi : w.om.find itf with
  | none =>
    rw [perform_unknown add hi]
    exact ⟨rfl, rfl⟩
  | some i =>
    cases ha : env.asio.fromString addr with
    | none =>
      rw [perform_malformed add hi ha]
      exact ⟨rfl, rfl⟩
    | some a =>
      have hheld := h i a hi ha
      cases add with
      | false =>
        rw [perform_remove hi ha]
        exact ⟨SharedStore.drop_eq_self hheld, rfl⟩
      | true =>
        rw [perform_add hi ha]
        cases hhw : env.hw (w.ops ++
            [.write (l3Key env.asio itf ⟨a, pfx⟩) (.l3Binding ⟨i, ⟨a, pfx⟩⟩)]) with
        | failed =>
          rw [World.omWrite_failed hhw]
          exact ⟨rfl, rfl⟩
        | ok =>
          rw [World.omWrite_ok hhw]
          refine ⟨Store.write_l3Binding_eq_self ?_ ?_, rfl⟩
          · rw [Store.name_of_find hi]
            exact hheld
          · rw [Store.name_of_find hi, hi]
            rfl

theorem performAll_idle (env : Env) (w : World) {rs : List AddrRequest}
    (h : ∀ r ∈ rs, r.Idle env.asio w.om) (rc : SrErr) :
    (performAll env rs (rc, w)).2.om = w.om ∧
      (performAll env rs (rc, w)).2.table = w.table := by
  induction rs generalizing w rc with
  | nil => exact ⟨rfl, rfl⟩
  | cons r rs ih =>
    rw [List.forall_mem_cons] at h
    obtain ⟨hom, htable⟩ := perform_idle h.1
    have htail := h.2
    rw [← hom] at htail
    obtain ⟨hom', htable'⟩ := ih _ htail (r.perform env w).1
    exact ⟨hom'.trans hom, htable'.trans htable⟩

end Idle

/-! ## Runs of transactions -/

/-- An idle transaction that is accepted leaves the state at VERIFY already. -/
theorem idle_step {A : Asio} {s s' : PluginState} {t : Transaction} (h : t.Idle A s)
    (hstep : (plugin A).step s (t, .aborted) = some s') : s' = s := by
  obtain ⟨hok, rfl⟩ := step_eq_some_iff.mp hstep
  obtain ⟨cb, cs, hw⟩ := t
  suffices hstate : ((Transaction.mk cb cs hw).deliver A .verify s).2.om = s.om ∧
      ((Transaction.mk cb cs hw).deliver A .verify s).2.table = s.table from
    congrArg₂ PluginState.mk hstate.1 hstate.2
  cases cb with
  | ietfInterfaceCreate stale =>
    have hcb : (Transaction.mk (.ietfInterfaceCreate stale) cs hw).deliver A .verify s = _ :=
      ietfInterfaceCreateCb_verify ⟨A, hw⟩ stale cs s.world
    rw [hcb] at hok ⊢
    exact interfaceRun_idle (w := s.world) exitByName_leafEvent exitRefuses_leafEvent h hok
  | ocInterfacesConfig stale =>
    have hcb : (Transaction.mk (.ocInterfacesConfig stale) cs hw).deliver A .verify s = _ :=
      ocInterfacesConfigCb_verify ⟨A, hw⟩ stale cs s.world
    rw [hcb] at hok ⊢
    exact interfaceRun_idle (w := s.world) exitByName_ocExit exitRefuses_ocExit h hok
  | natMappingTableConfig stale => exact nat_idle (w := s.world) h hok
  | ietfInterfaceIpv46AddressChange =>
    have heff := addr_effect ⟨A, hw⟩ s.world (show NotifEvent.verify ≠ .apply by simp) (by simp) cs
    obtain ⟨hom, htable⟩ := performAll_idle ⟨A, hw⟩ s.world h .ok
    exact ⟨(congrArg Effect.om heff).trans hom, (congrArg Effect.table heff).trans htable⟩

/-- In every run whose aborted transactions ask for nothing, each of them leaves the state as
it was before its VERIFY, and the run leads where the committed transactions lead. -/
theorem aborts_leave_state (A : Asio) (s s' : PluginState) (ts : List (Transaction × Fate))
    (hidle : (plugin A).AbortedMeet (fun s t => t.Idle A s) s ts)
    (hrun : (plugin A).run s ts = some s') :
    (plugin A).Consistent s ts ∧ (plugin A).run s (TwoPhase.committed ts) = some s' := by
  have hconsistent := TwoPhase.consistent_of_aborted
    (fun _ _ _ hcond hstep => idle_step hcond hstep) hidle
  exact ⟨hconsistent, TwoPhase.run_committed hconsistent hrun⟩

/-- An ietf change set that creates an ethernet interface. -/
def creationOf (itf : String) : Transaction where
  cb := .ietfInterfaceCreate (.garbage false false)
  changes := LeafChange.ietf (LeafChange.creation itf true)
  hw _ := .ok

/-- Creating again what is there may be aborted. -/
theorem aborted_recreation_leaves_state :
    let s := (World.ofInterfaces [⟨"loop0", "ETHERNET", true⟩]).state
    let ts := [(creationOf "loop0", Fate.aborted), (creationOf "loop1", .committed)]
    ∃ s', (plugin .uncompressed).run s ts = some s' ∧ (plugin .uncompressed).Consistent s ts ∧
      (plugin .uncompressed).run s [(creationOf "loop1", .committed)] = some s' := by
  intro s ts
  have hidle : (creationOf "loop0").Idle .uncompressed s := by
    have hcreates : CreatesName (creationOf "loop0").changes := ⟨_, List.mem_cons_self, _, rfl⟩
    constructor
    · exact fun _ _ _ => rfl
    · exact fun _ => by decide
    · exact fun _ hnone => absurd hcreates hnone
    · exact fun _ hnone => absurd hcreates hnone
  have hsome : ((plugin .uncompressed).run s ts).isSome = true := by decide
  obtain ⟨s', hrun⟩ := Option.isSome_iff_exists.mp hsome
  refine ⟨s', hrun, aborts_leave_state .uncompressed s s' ts ⟨fun _ => hidle, fun u _ => ?_⟩ hrun⟩
  exact ⟨fun h => Fate.noConfusion h, fun _ _ => trivial⟩

/-- The interface that an aborted transaction creates at VERIFY stays. -/
theorem aborted_creation_stays :
    let s : PluginState := (World.ofInterfaces []).state
    let ts := [(creationOf "loop0", Fate.aborted)]
    (∃ s', (plugin .uncompressed).run s ts = some s' ∧ (s'.om.find "loop0").isSome) ∧
      ¬ (plugin .uncompressed).Consistent s ts := by
  intro s ts
  have hstep : (plugin .uncompressed).step s (creationOf "loop0", .aborted) =
      some ((creationOf "loop0").deliver .uncompressed .verify s).2.state :=
    step_eq_some_iff.mpr ⟨by decide, rfl⟩
  have hthere : (((creationOf "loop0").deliver .uncompressed .verify s).2.state.om.find
      "loop0").isSome := by decide
  refine ⟨⟨_, Runs.run_cons.mpr ⟨_, hstep, rfl⟩, hthere⟩, fun h => ?_⟩
  rw [h.1 rfl _ hstep] at hthere
  exact absurd hthere (by decide)

end Sweetcomb
