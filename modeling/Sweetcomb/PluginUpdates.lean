import Sweetcomb.TwoPhaseCommit

/-!
# What a delivery does to the plugin, update by update

Whatever its change set, a delivery leads from one state to the next by a list of updates,
each of one object and each asked for by the change set. Everything else that is true of
whole runs follows from this list.
-/

namespace Sweetcomb

/-- One update of what the plugin keeps. -/
inductive PluginUpdate
  | setState (name : String) (state : Bool)
  | create (i : Interface)
  /-- a modified interface is written again, as it is found -/
  | rewrite (name : String)
  | delete (name : String)
  | bind (itf : String) (pfx : RoutePrefix)
  | unbind (itf : String) (pfx : RoutePrefix)
  | map (xindex : UInt32) (ns : NatStatic)
  | unmap (xindex : UInt32)
deriving DecidableEq, Repr

/-- The update on the store and the table; there is none on an interface that is not found. -/
def PluginUpdate.step (A : Asio) (s : PluginState) : PluginUpdate → Option PluginState
  | setState name state => some { s with om := s.om.setState name state }
  | create i => some { s with om := s.om.write i.name (.interface i) }
  | rewrite name => (s.om.find name).map fun i => { s with om := s.om.write name (.interface i) }
  | delete name => some { s with om := s.om.remove name }
  | bind itf pfx =>
    (s.om.find itf).map fun i =>
      { s with om := s.om.write (l3Key A itf pfx) (.l3Binding ⟨i, pfx⟩) }
  | unbind itf pfx =>
    (s.om.find itf).map fun _ => { s with om := s.om.remove (l3Key A itf pfx) }
  | map x ns =>
    some ⟨s.om.write (natKey x) (.natStatic ns),
      Function.update s.table x (some (ns.inside, ns.outside))⟩
  | unmap x => some ⟨s.om.remove (natKey x), Function.update s.table x none⟩

/-! ## What a change set asks for -/

/-- Of an interface callback: the admin states of modified leaves, then a single write or
removal. -/
def InterfaceAsks (stale : InterfaceStale) (cs : List Change) : PluginUpdate → Prop
  | .setState n b => ∃ c ∈ cs, c.leafEvent = .modifyEnabled (some n) b
  | .create i => (stale.create = true ∨ CreatesName cs) ∧ Buildable cs ∧
      i = ⟨lastName cs, "ETHERNET", (statesIn cs).getLastD stale.state⟩
  | .rewrite n => ¬ (stale.create = true ∨ CreatesName cs) ∧ (modifiedIn cs).getLast? = some n
  | .delete n => ¬ (stale.create = true ∨ CreatesName cs) ∧
      ¬ (stale.modify = true ∨ modifiedIn cs ≠ []) ∧
      (stale.remove = true ∨ DeletesName cs) ∧ n = lastName cs
  | _ => False

/-- Of the address callback: what one of its requests is about. -/
def AddressAsks (A : Asio) (cs : List Change) : PluginUpdate → Prop
  | .bind n p => ∃ r ∈ (AddrLocals.pass A {} cs).1,
      r.add = true ∧ r.itf = n ∧ A.fromString r.addr = some p.address ∧ r.pfx = p.len
  | .unbind n p => ∃ r ∈ (AddrLocals.pass A {} cs).1,
      r.add = false ∧ r.itf = n ∧ A.fromString r.addr = some p.address ∧ r.pfx = p.len
  | _ => False

/-- Of the NAT callback: a single mapping. -/
def NatAsks (A : Asio) (stale : NatStale) (cs : List Change) : PluginUpdate → Prop
  | .map x ns => (stale.create = true ∨ CreatesIndex cs) ∧ lastType cs = "static" ∧
      x = (indicesIn cs).getLastD stale.xindex ∧
      ns = ⟨lastAddress A .internalSrc cs, lastAddress A .externalSrc cs⟩
  | .unmap x => ¬ (stale.create = true ∨ CreatesIndex cs) ∧
      (stale.remove = true ∨ DeletesIndex cs) ∧ x = (indicesIn cs).getLastD stale.xindex
  | _ => False

/-- The events a callback acts on. -/
def Callback.ActsOn : Callback → NotifEvent → Prop
  | ietfInterfaceIpv46AddressChange, event => event ≠ .apply ∧ event ≠ .abort
  | _, event => event = .verify

/-- The updates a delivery may make. -/
def Delivery.Asks (A : Asio) (d : Delivery) (u : PluginUpdate) : Prop :=
  d.cb.ActsOn d.event ∧ ∃ cs, d.changes = .ok cs ∧
    match d.cb with
    | .ietfInterfaceCreate stale | .ocInterfacesConfig stale => InterfaceAsks stale cs u
    | .ietfInterfaceIpv46AddressChange => AddressAsks A cs u
    | .natMappingTableConfig stale => NatAsks A stale cs u

/-- Some updates that all have a property lead from one state to the other. -/
def Leads (A : Asio) (asks : PluginUpdate → Prop) (s s' : PluginState) : Prop :=
  ∃ us : List PluginUpdate, (∀ u ∈ us, asks u) ∧
    Runs.run (PluginUpdate.step A) s us = some s'

variable {A : Asio} {asks asks' : PluginUpdate → Prop} {s s' s'' : PluginState}

theorem Leads.refl : Leads A asks s s := ⟨[], by simp, rfl⟩

theorem Leads.single {u : PluginUpdate} (hu : asks u) (h : u.step A s = some s') :
    Leads A asks s s' := ⟨[u], by simpa using hu, Runs.run_cons.mpr ⟨s', h, rfl⟩⟩

theorem Leads.trans (h : Leads A asks s s') (h' : Leads A asks s' s'') : Leads A asks s s'' := by
  obtain ⟨us, hus, hrun⟩ := h
  obtain ⟨us', hus', hrun'⟩ := h'
  refine ⟨us ++ us', ?_, Runs.run_append.mpr ⟨s', hrun, hrun'⟩⟩
  exact List.forall_mem_append.mpr ⟨hus, hus'⟩

theorem Leads.mono (himp : ∀ u, asks u → asks' u) (h : Leads A asks s s') :
    Leads A asks' s s' := by
  obtain ⟨us, hus, hrun⟩ := h
  exact ⟨us, fun u hu => himp u (hus u hu), hrun⟩

/-- What every update that is asked for keeps, the way as a whole keeps. -/
theorem Leads.invariant {I : PluginState → Prop}
    (hstep : ∀ s u s', I s → asks u → u.step A s = some s' → I s') (h : Leads A asks s s')
    (hs : I s) : I s' := by
  obtain ⟨us, hus, hrun⟩ := h
  exact Runs.invariant hstep hs (Runs.meets_of_forall hus) hrun

/-! ## The interface callbacks -/

section InterfaceUpdates

variable {env : Env} {w : World} {cs cs' : List Change} {stale : InterfaceStale}

/-- The loop sets admin states, whatever part of the change set it goes through. -/
theorem run_leads (s : PluginState) (hsub : cs' ⊆ cs) :
    Leads A (InterfaceAsks stale cs) s { s with om := s.om.run cs' } := by
  induction cs' generalizing s with
  | nil => exact .refl
  | cons c cs' ih =>
    have hhead : Leads A (InterfaceAsks stale cs) s { s with om := s.om.note c.leafEvent } := by
      cases he : c.leafEvent with
      | modifyEnabled key b =>
        cases key with
        | none => exact .refl
        | some n => exact .single (u := .setState n b) ⟨c, hsub List.mem_cons_self, he⟩ rfl
      | _ => exact .refl
    exact hhead.trans (ih _ fun d hd => hsub (List.mem_cons_of_mem _ hd))

/-- The write of an interface, if VPP accepts it. -/
theorem writeEffect_leads {i : Interface} {u : PluginUpdate} (hu : asks u)
    (hstep : u.step A w.state = some ⟨w.om.write i.name (.interface i), w.table⟩) :
    Leads A asks w.state ⟨(writeEffect env i w).om, (writeEffect env i w).table⟩ := by
  cases hw : env.hw (w.ops ++ [.write i.name (.interface i)]) with
  | ok =>
    rw [writeEffect_of_ok hw]
    exact .single hu hstep
  | failed =>
    rw [writeEffect_of_failed hw]
    exact .refl

theorem state_eq_effect (r : Outcome × World) : r.2.state = ⟨(effect r).om, (effect r).table⟩ := rfl

theorem interfaceCommit_leads :
    Leads A (InterfaceAsks stale cs) w.state
      (interfaceCommit env (loopLocals stale cs) w).2.state := by
  have hcreate : (loopLocals stale cs).create = true ↔ stale.create = true ∨ CreatesName cs :=
    InterfaceLocals.run_create
  rw [state_eq_effect]
  cases hc : (loopLocals stale cs).create with
  | true =>
    by_cases hb : Buildable cs
    · rw [commit_create hc (InterfaceLocals.build_eq_some hb)]
      exact writeEffect_leads (u := .create _) ⟨hcreate.mp hc, hb, rfl⟩ rfl
    · rw [commit_unbuildable hc ((InterfaceLocals.build_eq_none_iff stale).mpr hb)]
      exact .refl
  | false =>
    have hnot : ¬ (stale.create = true ∨ CreatesName cs) := by
      rw [← hcreate, hc]
      exact Bool.false_ne_true
    cases hm : (loopLocals stale cs).modify with
    | true =>
      cases hi : (loopLocals stale cs).intf.deref w.om with
      | none =>
        rw [commit_null hc hm hi]
        exact .refl
      | some i =>
        rw [commit_modify hc hm hi]
        cases hlast : (modifiedIn cs).getLast? with
        | none =>
          -- the pointer is still null
          have hnull : (loopLocals stale cs).intf = .null := by
            rw [InterfaceLocals.run_intf, List.getLast?_eq_none_iff.mp hlast]
            rfl
          rw [hnull] at hi
          cases hi
        | some n =>
          have hstored : (loopLocals stale cs).intf = .stored n := by
            rw [InterfaceLocals.run_intf, List.getLastD_eq_getLast?, List.getLast?_map, hlast]
            rfl
          rw [hstored] at hi
          have hi : w.om.find n = some i := hi
          obtain rfl := Store.name_of_find hi
          refine writeEffect_leads (u := .rewrite i.name) ⟨hnot, hlast⟩ ?_
          show (w.om.find i.name).map _ = _
          rw [hi]
          rfl
    | false =>
      cases hr : (loopLocals stale cs).remove with
      | false =>
        rw [commit_nothing hc hm hr]
        exact .refl
      | true =>
        rw [commit_remove hc hm hr]
        have hmodify := InterfaceLocals.run_modify.not.mp (Bool.eq_false_iff.mp hm)
        have hname : (loopLocals stale cs).builder.name = lastName cs := InterfaceLocals.run_name
        rw [hname]
        exact .single (u := .delete (lastName cs))
          ⟨hnot, hmodify, InterfaceLocals.run_remove.mp hr, rfl⟩ rfl

theorem interfaceRun_leads {exit : Store → Change → Option (World → Outcome × World)}
    (hexit : ExitByName exit) (hrefuses : ExitRefuses exit) :
    Leads A (InterfaceAsks stale cs) w.state
      (interfaceRun env .verify (interfaceBody exit) cs stale w).2.state := by
  have heffect := interfaceRun_effect env stale w cs hexit hrefuses
  rw [state_eq_effect, heffect]
  cases cs.findSome? (exit w.om) with
  | some out => exact run_leads w.state (List.takeWhile_subset _)
  | none =>
    have hloop : Leads A (InterfaceAsks stale cs) w.state (w.afterLoop cs).state := by
      have hstate : (w.afterLoop cs).state = { w.state with om := w.om.run cs } := by
        simp [World.state]
      rw [hstate]
      exact run_leads w.state (List.Subset.refl cs)
    exact hloop.trans interfaceCommit_leads

end InterfaceUpdates

/-! ## The other callbacks -/

section OtherUpdates

variable {env : Env} {w : World} {cs : List Change}

theorem nat_leads {stale : NatStale} : Leads env.asio (NatAsks env.asio stale cs) w.state
    (natMappingTableConfigCb env stale .verify (.ok cs) w).2.state := by
  rcases nat_cases env w cs with ⟨-, hrun⟩ | ⟨pre, c, -, out, hout, hrun⟩
  · have hstate : (w.afterAsked cs).state = w.state := by simp [World.state]
    let l := (NatLocals.init stale).run env.asio cs
    have hcreate : l.create = true ↔ stale.create = true ∨ CreatesIndex cs := NatLocals.run_create
    have hx : l.xindex = (indicesIn cs).getLastD stale.xindex := NatLocals.run_xindex
    rw [hrun, ← hstate, state_eq_effect]
    cases hc : l.create with
    | true =>
      by_cases ht : l.builder.type = "static"
      · rw [natCommit_create hc ht]
        cases hw : env.hw ((w.afterAsked cs).ops ++ [.write (natKey l.xindex)
            (.natStatic ⟨(l.builder.get .internalSrc).address,
              (l.builder.get .externalSrc).address⟩)]) with
        | ok =>
          rw [natWriteEffect_of_ok hw]
          refine .single (u := .map l.xindex _) ⟨hcreate.mp hc, ?_, hx, ?_⟩ rfl
          · rw [← NatLocals.run_type stale]
            exact ht
          · rw [NatLocals.run_address stale .internalSrc, NatLocals.run_address stale .externalSrc]
        | failed =>
          rw [natWriteEffect_of_failed hw]
          exact .refl
      · rw [natCommit_unbuildable hc ht]
        exact .refl
    | false =>
      cases hr : l.remove with
      | false =>
        rw [natCommit_nothing hc hr]
        exact .refl
      | true =>
        rw [natCommit_remove hc hr]
        refine .single (u := .unmap l.xindex) ⟨?_, NatLocals.run_remove.mp hr, hx⟩ rfl
        rw [← hcreate, hc]
        exact Bool.false_ne_true
  · obtain ⟨-, calls, hw⟩ := NatEvent.exit_refuses hout (w.afterAsked pre)
    have hstate : ((w.afterAsked pre).withCalls calls).state = w.state := by
      simp [World.state, World.withCalls]
    rw [hrun, hw, hstate]
    exact .refl

/-- A request binds or unbinds an interface that is found, or it does nothing. -/
theorem perform_leads {r : AddrRequest} (hr : r ∈ (AddrLocals.pass env.asio {} cs).1) :
    Leads env.asio (AddressAsks env.asio cs) w.state (r.perform env w).2.state := by
  obtain ⟨itf, addr, pfx, add⟩ := r
  cases hi : w.om.find itf with
  | none =>
    rw [perform_unknown add hi]
    exact .refl
  | some i =>
    cases ha : env.asio.fromString addr with
    | none =>
      rw [perform_malformed add hi ha]
      exact .refl
    | some a =>
      cases add with
      | false =>
        rw [perform_remove hi ha]
        refine .single (u := .unbind itf ⟨a, pfx⟩) ⟨_, hr, rfl, rfl, ha, rfl⟩ ?_
        show (w.om.find itf).map _ = _
        rw [hi]
        rfl
      | true =>
        rw [perform_add hi ha]
        cases hhw : env.hw (w.ops ++
            [.write (l3Key env.asio itf ⟨a, pfx⟩) (.l3Binding ⟨i, ⟨a, pfx⟩⟩)]) with
        | failed =>
          rw [World.omWrite_failed hhw]
          exact .refl
        | ok =>
          rw [World.omWrite_ok hhw]
          refine .single (u := .bind itf ⟨a, pfx⟩) ⟨_, hr, rfl, rfl, ha, rfl⟩ ?_
          show (w.om.find itf).map _ = _
          rw [hi]
          rfl

theorem performAll_leads {rs : List AddrRequest} (hrs : rs ⊆ (AddrLocals.pass env.asio {} cs).1)
    (rc : SrErr) : Leads env.asio (AddressAsks env.asio cs) w.state
      (performAll env rs (rc, w)).2.state := by
  induction rs generalizing w rc with
  | nil => exact .refl
  | cons r rs ih =>
    exact (perform_leads (hrs List.mem_cons_self)).trans
      (ih (fun r hr => hrs (List.mem_cons_of_mem _ hr)) (r.perform env w).1)

end OtherUpdates

/-! ## Whole deliveries, and runs of them -/

section Deliveries

variable {env : Env} {w : World}

/-- A delivery makes updates that it asks for, one after the other. -/
theorem delivery_leads (env : Env) (d : Delivery) (w : World) :
    Leads env.asio (d.Asks env.asio) w.state (d.run env w).2.state := by
  obtain ⟨cb, event, changes⟩ := d
  cases cb with
  | ietfInterfaceCreate stale =>
    show Leads _ _ _ (ietfInterfaceCreateCb env stale event changes w).2.state
    by_cases hev : event = .verify
    · subst hev
      cases changes with
      | error rc => exact .refl
      | ok cs =>
        rw [ietfInterfaceCreateCb_verify]
        exact (interfaceRun_leads exitByName_leafEvent exitRefuses_leafEvent).mono
          fun u hu => ⟨rfl, cs, rfl, hu⟩
    · rw [show ietfInterfaceCreateCb env stale event changes w = (.returns .ok, w) from if_pos hev]
      exact .refl
  | ocInterfacesConfig stale =>
    show Leads _ _ _ (ocInterfacesConfigCb env stale event changes w).2.state
    by_cases hev : event = .verify
    · subst hev
      cases changes with
      | error rc => exact .refl
      | ok cs =>
        rw [ocInterfacesConfigCb_verify]
        exact (interfaceRun_leads exitByName_ocExit exitRefuses_ocExit).mono
          fun u hu => ⟨rfl, cs, rfl, hu⟩
    · rw [show ocInterfacesConfigCb env stale event changes w = (.returns .ok, w) from if_pos hev]
      exact .refl
  | natMappingTableConfig stale =>
    show Leads _ _ _ (natMappingTableConfigCb env stale event changes w).2.state
    by_cases hev : event = .verify
    · subst hev
      cases changes with
      | error rc =>
        have hstate : (natNoIter stale.it rc w).2.state = w.state := by
          unfold natNoIter
          split_ifs <;> rfl
        show Leads _ _ _ (natNoIter stale.it rc w).2.state
        rw [hstate]
        exact .refl
      | ok cs => exact nat_leads.mono fun u hu => ⟨rfl, cs, rfl, hu⟩
    · rw [show natMappingTableConfigCb env stale event changes w = (.returns .ok, w)
        from if_pos hev]
      exact .refl
  | ietfInterfaceIpv46AddressChange =>
    show Leads _ _ _ (ietfInterfaceIpv46AddressChangeCb env event changes w).2.state
    by_cases hev : event = .apply
    · subst hev
      exact .refl
    · cases changes with
      | error rc =>
        rw [show ietfInterfaceIpv46AddressChangeCb env event (.error rc) w =
          (.returns rc, (w.called (.getChangesIter rc)).called (.freeChangeIter .null))
          from if_neg hev]
        exact .refl
      | ok cs =>
        by_cases habort : event = .abort
        · subst habort
          exact .refl
        · rw [state_eq_effect, addr_effect env w hev habort cs]
          exact (performAll_leads (List.Subset.refl _) .ok).mono
            fun u hu => ⟨⟨hev, habort⟩, cs, rfl, hu⟩

/-- The updates of a run are asked for by its deliveries, in their order. -/
theorem afterAll_updates (env : Env) (w : World) (ds : List Delivery) :
    ∃ uss : List (List PluginUpdate),
      List.Forall₂ (fun d us => ∀ u ∈ us, d.Asks env.asio u) ds uss ∧
        Runs.run (PluginUpdate.step env.asio) w.state uss.flatten =
          some (w.afterAll env ds).state := by
  induction ds generalizing w with
  | nil => exact ⟨[], .nil, rfl⟩
  | cons d ds ih =>
    obtain ⟨us, hus, hrun⟩ := delivery_leads env d w
    obtain ⟨uss, huss, hrest⟩ := ih (d.run env w).2
    exact ⟨us :: uss, .cons hus huss, Runs.run_append.mpr ⟨_, hrun, hrest⟩⟩

/-- The deliveries of a list together. -/
theorem afterAll_leads (env : Env) (w : World) (ds : List Delivery) :
    Leads env.asio (fun u => ∃ d ∈ ds, d.Asks env.asio u) w.state (w.afterAll env ds).state := by
  induction ds generalizing w with
  | nil => exact .refl
  | cons d ds ih =>
    refine ((delivery_leads env d w).mono fun u hu => ⟨d, List.mem_cons_self, hu⟩).trans ?_
    refine (ih (d.run env w).2).mono ?_
    rintro u ⟨d', hd', hu⟩
    exact ⟨d', List.mem_cons_of_mem _ hd', hu⟩

end Deliveries

end Sweetcomb
