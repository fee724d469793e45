import Sweetcomb.InterfaceLeaves
import Sweetcomb.ReadAlike

/-!
# Leaves below the children of an interface

`ietf_interface_create_cb` is called for the whole subtree of an interface and knows a leaf
by the last name of its path, so it takes the `enabled` leaves of `ipv4` and `ipv6` for the
one of the interface.
-/

namespace Sweetcomb

/-- `/ietf-interfaces:interfaces/interface[name='itf']`. -/
def interfacePath (itf : String) : XPath :=
  [⟨"ietf-interfaces:interfaces", []⟩, ⟨"interface", [("name", itf)]⟩]

/-- A node below a child of an interface, such as `interface[name='itf']/ipv4/enabled`. -/
def Change.isNested (c : Change) : Bool := 3 < c.xpath.length

def ownChanges (cs : List Change) : List Change := cs.filter fun c => !c.isNested

/-- Changes in the subtree of the interfaces. Of the nodes that are configured below the
children of an interface, `ipv4` and `ipv6` have an `enabled` leaf, and none is called `name`
or `type`. -/
structure InSubtree (cs : List Change) : Prop where
  path : ∀ c ∈ cs, ∃ itf below, c.xpath = interfacePath itf ++ below
  nested : ∀ c ∈ cs, c.isNested = true →
    c.xpath.nodeNameEq "name" = false ∧ c.xpath.nodeNameEq "type" = false

/-- The change set gives this value to the leaf `interface[name='n']/enabled`. -/
def LeafReported (cs : List Change) (n : String) (b : Bool) : Prop :=
  ∃ c ∈ cs, ∃ new leaf, c.newVal = some new ∧ new.xpath = interfacePath n ++ [leaf] ∧
    leaf.name = "enabled" ∧ new.data.boolVal = b

/-- An admin state that is set, or written to VPP, is the value of the interface's own leaf. -/
structure StatesOwn (w : World) (cs : List Change) (r : Effect) : Prop where
  stored : ∀ n i i', w.om.find n = some i → r.om.find n = some i' →
    i'.state = i.state ∨ LeafReported cs n i'.state
  written : ∃ ops, r.ops = w.ops ++ ops ∧
    ∀ key i, .write key (.interface i) ∈ ops → LeafReported cs i.name i.state

/-- An interface that is built has the value of its own leaf for its state. -/
def BuildsOwn (stale : InterfaceStale) (w : World) (cs : List Change) : Prop :=
  firstLeave w.om cs = none → Creates stale cs → Buildable cs →
    LeafReported cs (builtInterface stale cs).name (builtInterface stale cs).state

section Nested

variable {env : Env} {stale : InterfaceStale} {w : World} {cs cs₀ : List Change}

theorem filterMap_ownChanges {β : Type} {f : Change → Option β}
    (h : ∀ c ∈ cs, c.isNested = true → f c = none) :
    (ownChanges cs).filterMap f = cs.filterMap f := by
  rw [ownChanges, List.filterMap_filter]
  apply List.filterMap_congr
  intro c hc
  cases hn : c.isNested with
  | true => simp [h c hc hn]
  | false => simp

theorem nested_event (h : InSubtree cs) {c : Change} (hc : c ∈ cs) (hn : c.isNested = true) :
    (∀ n, c.leafEvent ≠ .createName n) ∧ (∀ n, c.leafEvent ≠ .deleteName n) ∧
      ∀ t, c.leafEvent ≠ .createType t := by
  obtain ⟨hname, htype⟩ := h.nested c hc hn
  cases c with
  | created new =>
    simp only [Change.xpath] at hname htype
    simp only [Change.leafEvent, hname, htype, Bool.false_eq_true, if_false]
    split_ifs <;> simp
  | modified old new =>
    simp only [Change.leafEvent]
    split_ifs <;> simp
  | deleted old =>
    simp only [Change.xpath] at hname
    simp [Change.leafEvent, hname]
  | moved old new => simp [Change.leafEvent]

/-- Nested nodes give no names and no types. -/
theorem sameShape_ownChanges (h : InSubtree cs) : SameShape cs (ownChanges cs) := by
  have hexists : ∀ p : LeafEvent → Prop, (∀ c ∈ cs, c.isNested = true → ¬ p c.leafEvent) →
      ((∃ c ∈ cs, p c.leafEvent) ↔ ∃ c ∈ ownChanges cs, p c.leafEvent) := by
    intro p hp
    constructor
    · rintro ⟨c, hc, hpc⟩
      cases hn : c.isNested with
      | true => exact absurd hpc (hp c hc hn)
      | false => exact ⟨c, List.mem_filter.mpr ⟨hc, by simp [hn]⟩, hpc⟩
    · rintro ⟨c, hc, hpc⟩
      exact ⟨c, (List.mem_filter.mp hc).1, hpc⟩
  constructor
  · apply hexists (fun e => ∃ n, e = .createName n)
    rintro c hc hn ⟨n, he⟩
    exact (nested_event h hc hn).1 n he
  · apply hexists (fun e => ∃ n, e = .deleteName n)
    rintro c hc hn ⟨n, he⟩
    exact (nested_event h hc hn).2.1 n he
  · apply hexists (fun e => e = .createType "iana-if-type:ethernetCsmacd")
    intro c hc hn he
    exact (nested_event h hc hn).2.2 _ he
  · refine (filterMap_ownChanges fun c hc hn => ?_).symm
    obtain ⟨hcreate, hdelete, -⟩ := nested_event h hc hn
    cases he : c.leafEvent with
    | createName n => exact absurd he (hcreate n)
    | deleteName n => exact absurd he (hdelete n)
    | _ => rfl

@[simp] theorem keyValue_interfacePath (itf : String) (below : XPath) :
    (interfacePath itf ++ below).keyValue "interface" "name" = some itf := rfl

theorem setting_eq_some_iff {e : LeafEvent} {n : String} {b : Bool} :
    e.setting n = some b ↔ e = .modifyEnabled (some n) b := by
  cases e <;> simp [LeafEvent.setting]

theorem modifyEnabled_of_leafEvent {c : Change} {key : Option String} {b : Bool}
    (h : c.leafEvent = .modifyEnabled key b) : ∃ old new, c = .modified old new ∧
      new.xpath.nodeNameEq "enabled" = true ∧ new.xpath.keyValue "interface" "name" = key ∧
      new.data.boolVal = b := by
  cases c with
  | modified old new =>
    simp only [Change.leafEvent] at h
    split_ifs at h with henabled
    obtain ⟨hkey, hval⟩ := LeafEvent.modifyEnabled.inj h
    exact ⟨old, new, rfl, henabled, hkey, hval⟩
  | created new =>
    simp only [Change.leafEvent] at h
    split_ifs at h
  | deleted old =>
    simp only [Change.leafEvent] at h
    split_ifs at h
  | moved old new => cases h

/-- Without nested changes, an interface is set to the value of its own leaf. -/
theorem own_setting (h : InSubtree cs) {c : Change} (hc : c ∈ ownChanges cs) {n : String} {b : Bool}
    (hset : c.leafEvent.setting n = some b) : LeafReported cs n b := by
  obtain ⟨hmem, hown⟩ := List.mem_filter.mp hc
  obtain ⟨itf, below, hpath⟩ := h.path c hmem
  obtain ⟨old, new, rfl, henabled, hkey, hval⟩ :=
    modifyEnabled_of_leafEvent (setting_eq_some_iff.mp hset)
  replace hpath : new.xpath = interfacePath itf ++ below := hpath
  rw [hpath, keyValue_interfacePath] at hkey
  obtain rfl := Option.some.inj hkey
  rw [hpath] at henabled
  -- the path ends at the interface, at a child of it, or further below
  match below, hpath with
  | [], _ => simp [XPath.nodeNameEq, interfacePath] at henabled
  | [leaf], hpath =>
    refine ⟨_, hmem, new, leaf, rfl, hpath, ?_, hval⟩
    simpa [XPath.nodeNameEq, interfacePath] using henabled
  | _ :: _ :: _, hpath =>
    simp [Change.isNested, Change.xpath, hpath, interfacePath] at hown

theorem lastState_reported (h : InSubtree cs) (hsub : cs₀ ⊆ ownChanges cs) {n : String}
    (hne : (cs₀.filterMap fun c => c.leafEvent.setting n) ≠ []) (state : Bool) :
    LeafReported cs n (lastState cs₀ n state) := by
  obtain ⟨c, hc, hset⟩ := List.mem_filterMap.mp (LoopVariables.getLastD_mem hne state)
  exact own_setting h (hsub hc) hset

/-- What own changes make of a stored interface. -/
theorem run_own (h : InSubtree cs) (hsub : cs₀ ⊆ ownChanges cs) {om : Store} {n : String}
    {i i' : Interface} (hi : om.find n = some i) (hi' : (om.run cs₀).find n = some i') :
    i'.state = i.state ∨ LeafReported cs n i'.state := by
  rw [Store.find_run, hi] at hi'
  obtain rfl := Option.some.inj hi'
  by_cases hnil : (cs₀.filterMap fun c => c.leafEvent.setting n) = []
  · left
    simp [hnil]
  · exact .inr (lastState_reported h hsub hnil i.state)

/-- An interface that own changes have modified has the state of its own leaf. -/
theorem modified_own (h : InSubtree cs) {om : Store} {n : String} {i : Interface}
    (hn : n ∈ modifiedIn (ownChanges cs)) (hi : (om.run (ownChanges cs)).find n = some i) :
    LeafReported cs n i.state := by
  obtain ⟨c, hc, b, he⟩ := mem_modifiedIn.mp hn
  have hne : ((ownChanges cs).filterMap fun c => c.leafEvent.setting n) ≠ [] :=
    List.ne_nil_of_mem (List.mem_filterMap.mpr ⟨c, hc, setting_eq_some_iff.mpr he⟩)
  rw [Store.find_run] at hi
  obtain ⟨j, -, rfl⟩ := Option.map_eq_some_iff.mp hi
  exact lastState_reported h (List.Subset.refl _) hne j.state

/-- The write of an interface with the state of its own leaf, after own changes. -/
theorem write_statesOwn (h : InSubtree cs) {i : Interface} (hi : LeafReported cs i.name i.state) :
    StatesOwn w cs (writeEffect env i (w.afterLoop (ownChanges cs))) := by
  refine ⟨fun n j j' hj hj' => ?_, [.write i.name (.interface i)], by simp, by simp [hi]⟩
  cases hw : env.hw ((w.afterLoop (ownChanges cs)).ops ++ [.write i.name (.interface i)]) with
  | ok =>
    rw [writeEffect_of_ok hw, afterLoop_om] at hj'
    by_cases hn : n = i.name
    · subst hn
      obtain rfl := Option.some.inj ((Store.find_write_interface).symm.trans hj')
      exact .inr hi
    · rw [Store.find_write_interface_of_ne hn] at hj'
      exact run_own h (List.Subset.refl _) hj hj'
  | failed =>
    rw [writeEffect_of_failed hw, afterLoop_om] at hj'
    exact run_own h (List.Subset.refl _) hj hj'

/-- Own changes write the states of own leaves if a creation does. -/
theorem own_statesOwn (h : InSubtree cs)
    (hbuilt : firstLeave w.om (ownChanges cs) = none → Creates stale (ownChanges cs) →
      Buildable (ownChanges cs) → LeafReported cs (builtInterface stale (ownChanges cs)).name
        (builtInterface stale (ownChanges cs)).state) :
    StatesOwn w cs
      (effect (ietfInterfaceCreateCb env stale .verify (.ok (ownChanges cs)) w)) := by
  have hrun : ∀ (n : String) (i i' : Interface), w.om.find n = some i →
      (w.om.run (ownChanges cs)).find n = some i' →
      i'.state = i.state ∨ LeafReported cs n i'.state :=
    fun _ _ _ => run_own h (List.Subset.refl _)
  rw [create_effect]
  cases hf : firstLeave w.om (ownChanges cs) with
  | some o =>
    have hprefix : processed w.om (ownChanges cs) ⊆ ownChanges cs :=
      (List.takeWhile_prefix _).subset
    exact ⟨fun _ _ _ => run_own h hprefix, [], by simp, by simp⟩
  | none =>
    show StatesOwn w cs (commitEffect env stale w (ownChanges cs))
    by_cases hc : Creates stale (ownChanges cs)
    · by_cases hb : Buildable (ownChanges cs)
      · rw [commitEffect_built hc hb]
        exact write_statesOwn h (hbuilt hf hc hb)
      · rw [commitEffect_unbuilt hc hb]
        exact ⟨hrun, [], by simp, by simp⟩
    · cases hlast : (modifiedIn (ownChanges cs)).getLast? with
      | some n =>
        obtain ⟨i, rfl, hi, heff⟩ := modified_written hf hc hlast
        rw [heff]
        exact write_statesOwn h (modified_own h (List.mem_of_getLast? hlast) hi)
      | none =>
        rw [commitEffect_unmodified hc (List.getLast?_eq_none_iff.mp hlast)]
        split_ifs
        · exact ⟨hrun, [], by simp, by simp⟩
        · refine ⟨fun n i i' hi hi' => hrun n i i' hi (Store.find_of_remove hi'), ?_⟩
          exact ⟨[.remove _], rfl, by simp⟩
        · exact ⟨hrun, [], by simp, by simp⟩

/-- What is written of an interface that is built. -/
theorem buildsOwn_of_statesOwn
    (h : StatesOwn w cs (effect (ietfInterfaceCreateCb env stale .verify (.ok cs) w))) :
    BuildsOwn stale w cs := by
  intro hf hc hb
  obtain ⟨ops, hops, hwrites⟩ := h.written
  rw [create_effect, hf] at hops
  replace hops : (commitEffect env stale w cs).ops = w.ops ++ ops := hops
  rw [commitEffect_built hc hb, writeEffect_ops, afterLoop_ops] at hops
  apply hwrites
  rw [← List.append_cancel_left hops]
  exact List.mem_singleton_self _

end Nested

/-- Nested changes make no difference, and every admin state that is written is the value of
the interface's own leaf, exactly when the change set is read like the one without the nested
changes and an interface that is built has the state of its own leaf. -/
theorem nested_changes_ignored_iff (env : Env) (stale : InterfaceStale) (w : World)
    (cs : List Change) (h : InSubtree cs) :
    let r := effect (ietfInterfaceCreateCb env stale .verify (.ok cs) w)
    r = effect (ietfInterfaceCreateCb env stale .verify (.ok (ownChanges cs)) w) ∧
        StatesOwn w cs r ↔
      ReadAlike env stale w cs (ownChanges cs) ∧ BuildsOwn stale w cs := by
  intro r
  have hshape := sameShape_ownChanges h
  have hread := create_effect_eq_iff env stale w hshape
  constructor
  · rintro ⟨heq, hstates⟩
    exact ⟨hread.mp heq, buildsOwn_of_statesOwn hstates⟩
  · rintro ⟨halike, hbuilds⟩
    have heq := hread.mpr halike
    refine ⟨heq, ?_⟩
    rw [show r = _ from heq]
    refine own_statesOwn h fun hf hc hb => ?_
    have hf' : firstLeave w.om cs = none := halike.leaves.trans hf
    have hc' := hshape.create.mpr hc
    have hb' := hshape.buildable.mpr hb
    have hbuilt := hbuilds hf' hc' hb'
    rw [halike.created hf' hc' hb'] at hbuilt
    rwa [show (builtInterface stale cs).name = _ from hshape.lastName] at hbuilt

/-- A leaf of the `ipv4` container of loop0. -/
def ipv4Leaf (node : String) (data : SrData) : SrVal :=
  ⟨interfacePath "loop0" ++ [⟨"ietf-ip:ipv4", []⟩, ⟨node, []⟩], data⟩

/-- loop0 is created together with its `forwarding` leaf for IPv4. -/
theorem forwarding_ignored :
    let w := World.ofInterfaces []
    let cs := LeafChange.ietf (LeafChange.creation "loop0" true) ++
      [.created (ipv4Leaf "forwarding" (.bool true))]
    let r := effect (ietfInterfaceCreateCb .accepting (.garbage false false) .verify (.ok cs) w)
    r = effect (ietfInterfaceCreateCb .accepting (.garbage false false) .verify
        (.ok (ownChanges cs)) w) ∧ StatesOwn w cs r := by
  intro w cs
  refine (nested_changes_ignored_iff .accepting _ w cs ⟨?_, by decide⟩).mpr
    ⟨⟨by decide, ?_, fun _ _ _ => by decide, fun _ _ => by decide⟩, fun _ _ _ => ?_⟩
  · intro c hc
    simp only [cs, LeafChange.ietf, LeafChange.creation, List.map_cons, List.map_nil,
      List.cons_append, List.nil_append, List.mem_cons, List.not_mem_nil, or_false] at hc
    rcases hc with rfl | rfl | rfl | rfl <;> exact ⟨"loop0", _, rfl⟩
  · intro n i hi
    cases hi
  · exact ⟨_, List.mem_of_getElem? (i := 2) rfl, _, _, rfl, rfl, rfl, rfl⟩

/-- Disabling IPv4 on loop0 disables loop0. -/
theorem ipv4_disables_interface : ¬ ∀ (env : Env) (stale : InterfaceStale) (w : World)
    (cs : List Change), InSubtree cs →
    let r := effect (ietfInterfaceCreateCb env stale .verify (.ok cs) w)
    r = effect (ietfInterfaceCreateCb env stale .verify (.ok (ownChanges cs)) w) ∧
      StatesOwn w cs r := by
  intro h
  let cs : List Change :=
    [.modified (ipv4Leaf "enabled" (.bool true)) (ipv4Leaf "enabled" (.bool false))]
  have heq := (h .accepting (.garbage false false)
    (World.ofInterfaces [⟨"loop0", "ETHERNET", true⟩]) cs ⟨by
      intro c hc
      obtain rfl := List.mem_singleton.mp hc
      exact ⟨"loop0", _, rfl⟩, by decide⟩).1
  have hloop0 := congrArg (fun e => (e.om.find "loop0").map Interface.state) heq
  revert hloop0
  decide

end Sweetcomb
