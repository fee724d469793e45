import Sweetcomb.InterfaceLeaves
import Sweetcomb.NatLoop

/-!
# Variables without an initial value

The callbacks declare flags, a state, an index and an iterator without initialising them.
Their effect is a function of their inputs exactly when the change set assigns whatever
the commit reads.
-/

namespace Sweetcomb

/-- Any two assignments of the initial values lead to the same effect. -/
def Independent {σ : Type} (cb : σ → Outcome × World) : Prop :=
  ∀ st st', effect (cb st) = effect (cb st')

theorem independent_of_const {σ : Type} {cb : σ → Outcome × World} {r : Outcome × World}
    (h : ∀ st, cb st = r) : Independent cb :=
  fun st st' => by rw [h st, h st']

/-! ## The interface callbacks -/

/-- The change set sets `create`, and the state of the interface if it builds one. -/
def Settles (cs : List Change) : Prop := CreatesName cs ∧ (Buildable cs → statesIn cs ≠ [])

/-- An interface is deleted or modified by a change set, not both. -/
def OneFate (cs : List Change) : Prop :=
  ∀ c ∈ cs, ∀ d ∈ cs, ∀ n b, c.leafEvent = .deleteName n →
    d.leafEvent ≠ .modifyEnabled (some n) b

section Interface

variable {env : Env} {w : World} {cs : List Change}

theorem create_of_createsName (h : CreatesName cs) (stale : InterfaceStale) :
    ((InterfaceLocals.init stale).run cs).create = true :=
  InterfaceLocals.run_create.mpr (.inr h)

theorem create_of_not_createsName (h : ¬ CreatesName cs) (stale : InterfaceStale) :
    ((InterfaceLocals.init stale).run cs).create = stale.create := by
  rw [Bool.eq_iff_iff, InterfaceLocals.run_create]
  exact or_iff_left h

/-- With all flags cleared and no interface created, the commit writes a modified
interface, or it succeeds without a write. -/
theorem commit_quiet (h : ¬ CreatesName cs) (hfound : ∀ n ∈ modifiedIn cs, (w.om.find n).isSome) :
    let r := effect (interfaceCommit env
      ((InterfaceLocals.init (.garbage false false)).run cs) w)
    (∃ n ∈ modifiedIn cs, ∃ i, i.name = n ∧ r = writeEffect env i w) ∨
    (r.outcome = .returns .ok ∧ ∀ key obj, r.ops ≠ w.ops ++ [.write key obj]) := by
  have hc := create_of_not_createsName h (.garbage false false)
  by_cases hm : modifiedIn cs = []
  · have hmodify : ((InterfaceLocals.init (.garbage false false)).run cs).modify = false := by
      rw [← Bool.not_eq_true, InterfaceLocals.run_modify]
      simp [InterfaceLocals.init, InterfaceStale.garbage, hm]
    right
    cases hr : ((InterfaceLocals.init (.garbage false false)).run cs).remove with
    | true =>
      rw [commit_remove hc hmodify hr]
      simp
    | false =>
      rw [commit_nothing hc hmodify hr]
      simp
  · obtain ⟨n, hn, hi⟩ := InterfaceLocals.run_intf_stored (l := .init (.garbage false false)) hm
    obtain ⟨i, hfind⟩ := Option.isSome_iff_exists.mp (hfound n hn)
    refine .inl ⟨n, hn, i, Store.name_of_find hfind, commit_modify hc ?_ ?_⟩
    · exact InterfaceLocals.run_modify.mpr (.inr hm)
    · rw [hi]
      exact hfind

/-- Garbage in the flag `create` shows unless a name is created. -/
theorem createsName_of_independent (hfate : OneFate cs)
    (hfound : ∀ n ∈ modifiedIn cs, (w.om.find n).isSome)
    (h : Independent fun st => interfaceCommit env ((InterfaceLocals.init st).run cs) w) :
    CreatesName cs := by
  by_contra hC
  have heq := h (.garbage false false) (.garbage true false)
  have hc := create_of_not_createsName hC (.garbage true false)
  rcases commit_quiet hC hfound with ⟨n, hn, i, hi, hr⟩ | ⟨hok, hops⟩
  -- with `create` cleared a modified interface is written, with `create` set the built one
  · rw [hr] at heq
    have hops := congrArg Effect.ops heq
    by_cases hb : Buildable cs
    · rw [commit_create hc (InterfaceLocals.build_eq_some hb), writeEffect_ops,
        writeEffect_ops] at hops
      simp only [List.append_cancel_left_eq, List.cons.injEq, OmOp.write.injEq, and_true] at hops
      have hname : lastName cs = n := hops.1.symm.trans hi
      have hmem : n ∈ namesIn cs := by
        rw [← hname]
        exact LoopVariables.getLastD_mem (fun hnil => hb.1 (by rw [lastName, hnil]; rfl)) ""
      -- the last name is modified, so it was not deleted
      obtain ⟨c, hcs, hcn | hdn⟩ := mem_namesIn.mp hmem
      · exact hC ⟨c, hcs, n, hcn⟩
      · obtain ⟨d, hd, b, he⟩ := mem_modifiedIn.mp hn
        exact hfate c hcs d hd n b hdn he
    · rw [commit_unbuildable hc ((InterfaceLocals.build_eq_none_iff _).mpr hb),
        writeEffect_ops] at hops
      simp at hops
  -- with `create` cleared nothing is written
  · by_cases hb : Buildable cs
    · have hwrite := congrArg Effect.ops heq
      rw [commit_create hc (InterfaceLocals.build_eq_some hb), writeEffect_ops] at hwrite
      exact hops _ _ hwrite
    · rw [heq, commit_unbuildable hc ((InterfaceLocals.build_eq_none_iff _).mpr hb)] at hok
      cases hok

/-- Garbage in the state of the builder shows unless an `enabled` leaf is created. -/
theorem createsEnabled_of_independent (hC : CreatesName cs) (hb : Buildable cs)
    (h : Independent fun st => interfaceCommit env ((InterfaceLocals.init st).run cs) w) :
    statesIn cs ≠ [] := by
  intro hE
  have hops := congrArg Effect.ops (h (.garbage false false) (.garbage false true))
  rw [commit_create (create_of_createsName hC _) (InterfaceLocals.build_eq_some hb),
    commit_create (create_of_createsName hC _) (InterfaceLocals.build_eq_some hb),
    writeEffect_ops, writeEffect_ops, hE] at hops
  simp [InterfaceStale.garbage] at hops

theorem commit_independent_iff (hfate : OneFate cs)
    (hfound : ∀ n ∈ modifiedIn cs, (w.om.find n).isSome) :
    (Independent fun st => interfaceCommit env ((InterfaceLocals.init st).run cs) w) ↔
      Settles cs := by
  constructor
  · intro h
    have hC := createsName_of_independent hfate hfound h
    exact ⟨hC, fun hb => createsEnabled_of_independent hC hb h⟩
  · rintro ⟨hC, hE⟩ st st'
    by_cases hb : Buildable cs
    · rw [commit_create (create_of_createsName hC st) (InterfaceLocals.build_eq_some hb),
        commit_create (create_of_createsName hC st') (InterfaceLocals.build_eq_some hb),
        LoopVariables.getLastD_congr (hE hb)]
    · rw [commit_unbuildable (create_of_createsName hC st)
          ((InterfaceLocals.build_eq_none_iff st).mpr hb),
        commit_unbuildable (create_of_createsName hC st')
          ((InterfaceLocals.build_eq_none_iff st').mpr hb)]

/-- A loop that some change leaves reads no garbage; one that is not left settles it all. -/
theorem interfaceRun_independent_iff (env : Env) (w : World) (cs : List Change)
    {exit : Store → Change → Option (World → Outcome × World)} (hexit : ExitByName exit)
    (hfate : (∀ c ∈ cs, exit w.om c = none) → OneFate cs)
    (hfound : ∀ c, exit w.om c = none → ∀ n b, c.leafEvent = .modifyEnabled (some n) b →
      (w.om.find n).isSome) :
    (Independent fun st => interfaceRun env .verify (interfaceBody exit) cs st w) ↔
      (∃ c ∈ cs, (exit w.om c).isSome) ∨ Settles cs := by
  rcases interfaceRun_cases env w cs hexit (show NotifEvent.verify ≠ .abort by simp) with
    ⟨hnone, hrun⟩ | ⟨pre, c, hc, out, hout, hrun⟩
  · rw [or_iff_right (by simpa using hnone)]
    simp only [hrun]
    refine commit_independent_iff (hfate hnone) fun n hn => ?_
    obtain ⟨c, hc, b, he⟩ := mem_modifiedIn.mp hn
    rw [afterLoop_om, sameNames_run (SameNames.refl _) cs n]
    exact hfound c (hnone c hc) n b he
  · exact iff_of_true (independent_of_const hrun) (.inl ⟨c, hc, by simp [hout]⟩)

/-- The changes of an openconfig change set that reach the commit delete nothing. -/
theorem leafEvent_of_ocExit {om : Store} {c : Change} (h : ocExit om c = none) :
    c.leafEvent.exit om = none ∧ ∀ n, c.leafEvent ≠ .deleteName n := by
  obtain ⟨hcheck, hleaf⟩ := Option.or_eq_none_iff.mp h
  refine ⟨hleaf, fun n he => ?_⟩
  cases c with
  | deleted old => simp [ocNameCheck, Change.newVal] at hcheck
  | created new =>
    simp only [Change.leafEvent] at he
    split_ifs at he
  | modified old new =>
    simp only [Change.leafEvent] at he
    split_ifs at he
  | moved old new => cases he

theorem found_of_exit {om : Store} {e : LeafEvent} (h : e.exit om = none) {n : String} {b : Bool}
    (he : e = .modifyEnabled (some n) b) : (om.find n).isSome := by
  subst he
  by_contra hn
  simp [LeafEvent.exit, hn] at h

end Interface

/-! ## The NAT callback -/

section Nat

variable {env : Env} {w : World} {cs : List Change}

theorem natCommit_independent_iff :
    (Independent fun st => natCommit env ((NatLocals.init st).run env.asio cs) w) ↔
      CreatesIndex cs := by
  constructor
  · intro h
    by_contra hC
    have hcreate : ∀ st : NatStale,
        ((NatLocals.init st).run env.asio cs).create = st.create := fun st => by
      rw [Bool.eq_iff_iff, NatLocals.run_create]
      exact or_iff_left hC
    -- with `create` cleared nothing is written; with `create` set there is a write or a refusal
    have heq := h (.garbage false .null) (.garbage true .null)
    have hquiet : (effect (natCommit env
        ((NatLocals.init (.garbage false .null)).run env.asio cs) w)).outcome = .returns .ok ∧
        ∀ key obj, (effect (natCommit env
          ((NatLocals.init (.garbage false .null)).run env.asio cs) w)).ops ≠
            w.ops ++ [.write key obj] := by
      cases hr : ((NatLocals.init (.garbage false .null)).run env.asio cs).remove with
      | true => simp [natCommit_remove (hcreate (.garbage false .null)) hr]
      | false => simp [natCommit_nothing (hcreate (.garbage false .null)) hr]
    rw [heq] at hquiet
    by_cases ht : ((NatLocals.init (.garbage true .null)).run env.asio cs).builder.type = "static"
    · rw [natCommit_create (hcreate (.garbage true .null)) ht] at hquiet
      exact hquiet.2 _ _ (natWriteEffect_ops _ _)
    · rw [natCommit_unbuildable (hcreate (.garbage true .null)) ht] at hquiet
      cases hquiet.1
  · intro hC st st'
    have hc : ∀ st : NatStale, ((NatLocals.init st).run env.asio cs).create = true :=
      fun _ => NatLocals.run_create.mpr (.inr hC)
    by_cases hs : lastType cs = "static"
    · rw [natCommit_create (hc st) ((NatLocals.run_type st).trans hs),
        natCommit_create (hc st') ((NatLocals.run_type st').trans hs),
        NatLocals.run_xindex_congr hC, NatLocals.run_address, NatLocals.run_address,
        NatLocals.run_address, NatLocals.run_address]
    · rw [natCommit_unbuildable (hc st) (by rwa [NatLocals.run_type]),
        natCommit_unbuildable (hc st') (by rwa [NatLocals.run_type])]

theorem nat_independent_iff (env : Env) (w : World) (cs : List Change) :
    (Independent fun st => natMappingTableConfigCb env st .verify (.ok cs) w) ↔
      (∃ c ∈ cs, (c.natEvent.exit env.asio).isSome) ∨ CreatesIndex cs := by
  rcases nat_cases env w cs with ⟨hnone, hrun⟩ | ⟨pre, c, hc, out, hout, hrun⟩
  · rw [or_iff_right (by simpa using hnone)]
    simp only [hrun]
    exact natCommit_independent_iff
  · exact iff_of_true (independent_of_const hrun) (.inl ⟨c, hc, by simp [hout]⟩)

/-- The label `error` releases the iterator as it is found. -/
theorem nat_not_independent_noIter (rc : SrErr) :
    ¬ Independent fun st : NatStale => natMappingTableConfigCb env st .verify (.error rc) w := by
  intro h
  have ho := congrArg Effect.outcome (h (.garbage false .null) (.garbage false .stale))
  simp [natMappingTableConfigCb, natNoIter, NatStale.garbage, effect] at ho

end Nat

/-! ## The three callbacks -/

/-- No initial value of an interface callback is read: the event is ignored, there is no
iterator, a change leaves the loop, or the change set settles what the commit reads. -/
def InterfaceDetermined (exit : Store → Change → Option (World → Outcome × World)) (om : Store)
    (event : NotifEvent) (changes : Except SrErr (List Change)) : Prop :=
  event ≠ .verify ∨ ∀ cs, changes = .ok cs → (∃ c ∈ cs, (exit om c).isSome) ∨ Settles cs

/-- The same for the NAT callback, which reads the iterator when it could not get one. -/
def NatDetermined (A : Asio) (event : NotifEvent) (changes : Except SrErr (List Change)) : Prop :=
  event ≠ .verify ∨
    ∃ cs, changes = .ok cs ∧ ((∃ c ∈ cs, (c.natEvent.exit A).isSome) ∨ CreatesIndex cs)

section Callbacks

variable {env : Env} {event : NotifEvent} {changes : Except SrErr (List Change)} {w : World}

theorem ietf_independent_iff (hfate : ∀ cs, changes = .ok cs → OneFate cs) :
    (Independent fun st => ietfInterfaceCreateCb env st event changes w) ↔
      InterfaceDetermined (fun om c => c.leafEvent.exit om) w.om event changes := by
  by_cases hev : event = .verify
  · subst hev
    cases changes with
    | error rc => exact iff_of_true (fun _ _ => rfl) (.inr fun cs h => by cases h)
    | ok cs =>
      have hrun := interfaceRun_independent_iff env w cs
        exitByName_leafEvent (fun _ => hfate cs rfl)
        (fun c hx n b he => found_of_exit hx he)
      simpa [InterfaceDetermined, ietfInterfaceCreateCb_verify] using hrun
  · exact iff_of_true (independent_of_const fun _ => if_pos hev) (.inl hev)

theorem oc_independent_iff :
    (Independent fun st => ocInterfacesConfigCb env st event changes w) ↔
      InterfaceDetermined ocExit w.om event changes := by
  by_cases hev : event = .verify
  · subst hev
    cases changes with
    | error rc => exact iff_of_true (fun _ _ => rfl) (.inr fun cs h => by cases h)
    | ok cs =>
      have hrun := interfaceRun_independent_iff env w cs exitByName_ocExit
        (fun hno c hc d _ n b he => ((leafEvent_of_ocExit (hno c hc)).2 n he).elim)
        (fun c hx n b he => found_of_exit (leafEvent_of_ocExit hx).1 he)
      simpa [InterfaceDetermined, ocInterfacesConfigCb_verify] using hrun
  · exact iff_of_true (independent_of_const fun _ => if_pos hev) (.inl hev)

theorem natCallback_independent_iff :
    (Independent fun st => natMappingTableConfigCb env st event changes w) ↔
      NatDetermined env.asio event changes := by
  by_cases hev : event = .verify
  · subst hev
    cases changes with
    | error rc =>
      refine iff_of_false (nat_not_independent_noIter rc) ?_
      rintro (h | ⟨cs, h, -⟩)
      · exact h rfl
      · cases h
    | ok cs => simpa [NatDetermined] using nat_independent_iff env w cs
  · exact iff_of_true (independent_of_const fun _ => if_pos hev) (.inl hev)

/-- The initial values stay without effect exactly where no path reads one of them. -/
theorem callbacks_independent_iff (env : Env) (event : NotifEvent)
    (changes : Except SrErr (List Change)) (w : World)
    (hfate : ∀ cs, changes = .ok cs → OneFate cs) :
    ((Independent fun st => ietfInterfaceCreateCb env st event changes w) ↔
      InterfaceDetermined (fun om c => c.leafEvent.exit om) w.om event changes) ∧
    ((Independent fun st => ocInterfacesConfigCb env st event changes w) ↔
      InterfaceDetermined ocExit w.om event changes) ∧
    ((Independent fun st => natMappingTableConfigCb env st event changes w) ↔
      NatDetermined env.asio event changes) :=
  ⟨ietf_independent_iff hfate, oc_independent_iff, natCallback_independent_iff⟩

end Callbacks

/-- Deleting an interface is refused when the flag `create` happens to be set. -/
theorem deletion_not_independent :
    ¬ Independent fun st => ietfInterfaceCreateCb .accepting st .verify
      (.ok (LeafChange.ietf (LeafChange.deletion "loop0" true)))
      (.ofInterfaces [⟨"loop0", "ETHERNET", true⟩]) := by
  intro h
  have ho := congrArg Effect.outcome (h (.garbage false false) (.garbage true false))
  revert ho
  decide

/-- The creation of an interface with all its leaves reads no initial value. -/
theorem creation_independent :
    let changes : Except SrErr (List Change) :=
      .ok (LeafChange.ietf (LeafChange.creation "loop0" true))
    (∀ cs, changes = .ok cs → OneFate cs) ∧
      Independent fun st =>
        ietfInterfaceCreateCb .accepting st .verify changes (.ofInterfaces []) := by
  intro changes
  have hfate : ∀ cs, changes = .ok cs → OneFate cs := by
    intro cs h c hc d hd n b he
    obtain rfl := Except.ok.inj h
    simp only [LeafChange.ietf, LeafChange.creation, List.map_cons, List.map_nil, List.mem_cons,
      List.not_mem_nil, or_false] at hc
    rcases hc with rfl | rfl | rfl <;> cases he
  refine ⟨hfate, (callbacks_independent_iff .accepting .verify _ _ hfate).1.mpr (.inr ?_)⟩
  intro cs h
  obtain rfl := Except.ok.inj h
  have hname : (LeafChange.created "loop0" .name).reported ietfPath ∈
      LeafChange.ietf (LeafChange.creation "loop0" true) := by
    simp [LeafChange.ietf, LeafChange.creation]
  exact .inr ⟨⟨_, hname, "loop0", rfl⟩, fun _ => by decide⟩

end Sweetcomb
