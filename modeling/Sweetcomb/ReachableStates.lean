import Mathlib.Data.Finset.Preimage
import Mathlib.Data.List.TFAE
import Mathlib.Logic.Relation
import Sweetcomb.InterfaceLifetime
import Sweetcomb.MappingTable
import Sweetcomb.PrefixText

/-!
# The states the plugin can be in

Every object under its own key, ethernet interfaces only, a table that agrees with the store:
nothing else is true of all states the plugin reaches. Any state like this is reached, from
any other one, by commits of single entries that all succeed.
-/

namespace Sweetcomb

open ManagedObject (PlainName)

/-- What holds of every state that is reached. -/
structure PluginState.Consistent (A : Asio) (s : PluginState) : Prop where
  keyed : WellKeyed A s.om.refs
  ethernet : ∀ n a, s.om.attr n = some a → a.type = "ETHERNET"
  matching : s.world.MappingsMatch

def PluginState.initial : PluginState := (World.ofInterfaces []).state

/-- A VERIFY call about one interface, one address or one mapping that is created or deleted,
its nodes in the order of the schema. -/
inductive Delivery.OneEntry (A : Asio) : Delivery → Prop
  | interface (stale : InterfaceStale) (e : InterfaceEntry) (he : PlainName A e.itf) :
    OneEntry A ⟨.ietfInterfaceCreate stale, .verify, .ok (InterfaceEntry.reported [e])⟩
  | address (itf : String) (f : IpFamily) (add : Bool) (e : AddrEntry) :
    OneEntry A ⟨.ietfInterfaceIpv46AddressChange, .verify,
      .ok (AddrEntry.reported itf f add [e])⟩
  | mapping (stale : NatStale) (id : UInt32) (e : NatEntry) :
    OneEntry A ⟨.natMappingTableConfig stale, .verify, .ok (NatEntry.reported id [e])⟩

/-- The delivery of one entry succeeds in the first state and leads to the second, whatever was
called before. -/
def Commits (env : Env) (s s' : PluginState) : Prop :=
  ∃ d : Delivery, d.OneEntry env.asio ∧
    ∀ w : World, w.state = s → (d.run env w).1 = .returns .ok ∧ (d.run env w).2.state = s'

theorem Delivery.OneEntry.plain {A : Asio} {d : Delivery} (h : d.OneEntry A) : d.Plain A := by
  cases h with
  | interface stale e he =>
    intro n hn _
    have hn : n ∈ namesIn (InterfaceEntry.reported [e]) := hn
    rw [namesIn_reported] at hn
    obtain ⟨e', he', hname⟩ := List.mem_filterMap.mp hn
    obtain rfl := List.mem_singleton.mp he'
    cases e' with
    | modify m b => cases hname
    | create m b =>
      cases hname
      exact he
    | delete m b =>
      cases hname
      exact he
  | address itf f add e => exact fun n hn => absurd hn List.not_mem_nil
  | mapping stale id e => exact fun n hn => absurd hn List.not_mem_nil

/-- A write of an interface gives its attributes to this interface alone. -/
theorem Store.attr_write_interface {om : Store} {key : String} {i : Interface} {m : String}
    {a : ItfAttr} (h : (om.write key (.interface i)).attr m = some a) :
    m = i.name ∧ a = ⟨i.type, i.state⟩ ∨ om.attr m = some a := by
  have h : (if some i.name = some m then some ⟨i.type, i.state⟩ else om.attr m) = some a := h
  split_ifs at h with hm
  · exact .inl ⟨(Option.some.inj hm).symm, (Option.some.inj h).symm⟩
  · exact .inr h

/-! ## Commits of single entries -/

section Commits

variable {env : Env} {s : PluginState} {n : String}

/-- An interface is written, whether or not bindings have kept an older one alive. -/
theorem commits_declare (hhw : ∀ ops, env.hw ops = .ok) (hn : PlainName env.asio n) (b : Bool) :
    Commits env s ⟨s.om.write n (.interface ⟨n, "ETHERNET", b⟩), s.table⟩ := by
  let stale : InterfaceStale := .garbage false false
  refine ⟨_, .interface stale (.create n b) hn, fun w hw => ?_⟩
  subst hw
  have hexit : ∀ d ∈ [InterfaceEntry.create n b].flatMap InterfaceEntry.leaves,
      d.event.exit w.om = none := by
    intro d hd
    simp only [InterfaceEntry.leaves, LeafChange.creation, List.flatMap_cons, List.flatMap_nil,
      List.append_nil, List.mem_cons, List.not_mem_nil, or_false] at hd
    rcases hd with rfl | rfl | rfl <;> rfl
  have hcommit : entriesEffect env stale [.create n b] w =
      effect (interfaceCommit env (loopLocals stale (InterfaceEntry.reported [.create n b]))
        (w.afterLoop (InterfaceEntry.reported [.create n b]))) :=
    congrArg effect (ietf_eq_commit hexit)
  have hcreates : CreatesName (InterfaceEntry.reported [.create n b]) :=
    createsName_reported.mpr ⟨_, List.mem_cons_self, rfl⟩
  have hbuild : Buildable (InterfaceEntry.reported [.create n b]) :=
    ⟨hn.nonempty, createsEthernet_reported.mpr ⟨_, List.mem_cons_self, rfl⟩⟩
  rw [commit_create (InterfaceLocals.run_create.mpr (.inr hcreates))
    (InterfaceLocals.build_eq_some hbuild), writeEffect_of_ok (hhw _)] at hcommit
  have heffect := hcommit
  rw [afterLoop_om, afterLoop_table] at heffect
  exact ⟨congrArg Effect.outcome heffect,
    congrArg (fun r => PluginState.mk r.om r.table) heffect⟩

theorem commits_delete (hn : PlainName env.asio n) (hold : (s.om.find n).isSome) :
    Commits env s ⟨s.om.remove n, s.table⟩ := by
  let stale : InterfaceStale := .garbage false false
  refine ⟨_, .interface stale (.delete n false) hn, fun w hw => ?_⟩
  subst hw
  have hfound : (w.om.find n).isSome := hold
  have hes : InterfaceEntries w.om [.delete n false] :=
    ⟨by simp, by simp, by simpa using hfound, by simp⟩
  have heffect : entriesEffect env stale [.delete n false] w = _ :=
    changeSet_delete ⟨rfl, rfl, rfl⟩ hes (fun e he => ⟨n, false, List.mem_singleton.mp he⟩)
      (by simp)
  exact ⟨congrArg Effect.outcome heffect,
    congrArg (fun r => PluginState.mk r.om r.table) heffect⟩

theorem performAll_table (env : Env) (rs : List AddrRequest) (x : SrErr × World) :
    (performAll env rs x).2.table = x.2.table := by
  refine LoopVariables.keeps (fun x => x.2.table) (fun x r => ?_) rs x
  have h := r.performs env x.2
  generalize r.perform env x.2 = y at h
  cases h <;> rfl

/-- The requests of one address entry, in a state with any calls before. -/
theorem address_commit (f : IpFamily) (add : Bool) {e : AddrEntry} (hA : env.asio.Lawful)
    (hn : n ≠ "") (he : e.Reads env.asio) {s' : PluginState} (htable : s'.table = s.table)
    (h : ∀ w : World, w.state = s →
      let r := performAll env ((AddrEntry.asked 0 [e]).map (AddrEntry.request n add)) (.ok, w)
      r.1 = .ok ∧ r.2.om = s'.om) : Commits env s s' := by
  refine ⟨_, .address n f add e, fun w hw => ?_⟩
  have hpass := ItfAddress.pass_entries (f := f) add hA hn
    (List.forall_mem_singleton.mpr he)
  obtain ⟨hrc, hom⟩ := h w hw
  have heffect := addr_effect env w (show NotifEvent.verify ≠ .apply by simp) (by simp)
    (AddrEntry.reported n f add [e])
  rw [hpass] at heffect
  refine ⟨(congrArg Effect.outcome heffect).trans (congrArg Outcome.returns hrc), ?_⟩
  have hstate := congrArg (fun r => PluginState.mk r.om r.table) heffect
  refine hstate.trans ?_
  obtain ⟨om', table'⟩ := s'
  have htable' : table' = w.table := htable.trans (congrArg PluginState.table hw.symm)
  rw [htable', ← show _ = om' from hom]
  exact congrArg (PluginState.mk _) (performAll_table _ _ _)

def Address.family : Address → IpFamily
  | .v4 .. => .ipv4
  | .v6 .. => .ipv6

/-- An address that is spelled as it is printed. -/
def printedEntry (A : Asio) (p : RoutePrefix) : AddrEntry where
  text := A.toString p.address
  address := p.address
  plen := p.len

/-- The address is bound under its prefix, and under length 0 before. -/
theorem commits_bind (hA : env.asio.Lawful) (hhw : ∀ ops, env.hw ops = .ok) (hn : n ≠ "")
    (hlive : (s.om.find n).isSome) (p : RoutePrefix) :
    ∃ om, Commits env s ⟨om, s.table⟩ ∧ om.attr = s.om.attr ∧
      ∀ x, x ∈ om.refs ↔ x ∈ s.om.refs ∨ ∃ q ∈ [⟨p.address, 0⟩, p],
        x = (l3Key env.asio n q, .l3Binding n q) := by
  let e := printedEntry env.asio p
  have he : e.Reads env.asio := hA.fromString_toString p.address
  have hreads := AddrEntry.reads_asked 0 (List.forall_mem_singleton.mpr he)
  let r := performAll env ((AddrEntry.asked 0 [e]).map (AddrEntry.request n true)) (.ok, s.world)
  obtain ⟨-, hattr, hrefs⟩ := performAll_added hhw hreads (w := s.world) hlive
  refine ⟨r.2.om, address_commit p.address.family true hA hn he rfl fun w hw => ?_, hattr,
    fun x => ?_⟩
  · have hfound : (w.om.find n).isSome := by
      rw [← show w.om = s.om from congrArg PluginState.om hw] at hlive
      exact hlive
    obtain ⟨hok, hattr', hrefs'⟩ := performAll_added hhw hreads (w := w) hfound
    refine ⟨hok, SharedStore.ext (Finset.ext fun x => ?_) ?_⟩
    · rw [hrefs', hrefs, show w.om = s.om from congrArg PluginState.om hw]
      rfl
    · rw [hattr', hattr, show w.om = s.om from congrArg PluginState.om hw]
      rfl
  · rw [show x ∈ r.2.om.refs ↔ _ from hrefs x]
    refine or_congr_right ?_
    simp [AddrEntry.asked, bindingEntry, AddrEntry.pfx, e, printedEntry]

/-- The prefix is unbound, and length 0 before, if the interface is alive in between. -/
theorem commits_unbind (hA : env.asio.Lawful) (hn : n ≠ "") (p : RoutePrefix)
    (hlive : ((s.om.remove (l3Key env.asio n ⟨p.address, 0⟩)).attr n).isSome) :
    Commits env s ⟨(s.om.remove (l3Key env.asio n ⟨p.address, 0⟩)).remove (l3Key env.asio n p),
      s.table⟩ := by
  let e := printedEntry env.asio p
  have he : e.Reads env.asio := hA.fromString_toString p.address
  have hreads := AddrEntry.reads_asked 0 (List.forall_mem_singleton.mpr he)
  refine address_commit p.address.family false hA hn he rfl fun w hw => ?_
  subst hw
  obtain ⟨hiff, hdrop⟩ := performAll_deleted n w hreads (by simp [AddrEntry.asked]) .ok
  have hok := hiff.mpr hlive
  exact ⟨hok, hdrop hok⟩

/-- A mapping entry of type `static`, with both its addresses. -/
def staticEntry (A : Asio) (x : UInt32) (ns : NatStatic) : MappingEntry where
  index := x
  type := "static"
  text
    | .internalSrc => some (UtilsPrefix.toString A ⟨ns.inside, 32⟩)
    | .externalSrc => some (UtilsPrefix.toString A ⟨ns.outside, 32⟩)
    | _ => none

theorem commits_map (hA : env.asio.Lawful) (hhw : ∀ ops, env.hw ops = .ok) (x : UInt32)
    (ns : NatStatic) : Commits env s ⟨s.om.write (natKey x) (.natStatic ns),
      Function.update s.table x (some (ns.inside, ns.outside))⟩ := by
  let m := staticEntry env.asio x ns
  let stale : NatStale := .garbage false .null
  refine ⟨_, .mapping stale 0 (.create m), fun w hw => ?_⟩
  subst hw
  have hread := UtilsPrefix.makePrefix_toString hA.fromString_toString
  have hpair : m.sourcePair env.asio = (ns.inside, ns.outside) := by
    simp [MappingEntry.sourcePair, MappingEntry.address, m, staticEntry, hread]
  have hreadable : ¬ ∃ e ∈ [NatEntry.create m], e.Unreadable env.asio := by
    rintro ⟨e, he, hu⟩
    obtain rfl := List.mem_singleton.mp he
    obtain ⟨f, q, hq, hnone⟩ := hu
    cases f <;> simp [m, staticEntry] at hq
    · rw [← hq, hread] at hnone
      cases hnone
    · rw [← hq, hread] at hnone
      cases hnone
  have hok : (mappingsEffect env stale 0 [.create m] w).outcome = .returns .ok := by
    rw [mappings_create hreadable ⟨_, List.mem_cons_self, rfl⟩ rfl, natWriteEffect_of_ok (hhw _)]
  obtain ⟨hom, htable⟩ := singleton_create ⟨rfl, rfl⟩ hok
  rw [hpair] at hom htable
  exact ⟨hok, congrArg₂ PluginState.mk hom htable⟩

theorem commits_unmap (x : UInt32) : Commits env s ⟨s.om.remove (natKey x),
    Function.update s.table x none⟩ := by
  let stale : NatStale := .garbage false .null
  refine ⟨_, .mapping stale 0 (.delete ⟨x, "static", fun _ => none⟩), fun w hw => ?_⟩
  subst hw
  have heffect : mappingsEffect env stale 0 [.delete ⟨x, "static", fun _ => none⟩] w = _ :=
    mappings_delete ⟨rfl, rfl⟩ (fun e he => by rw [List.mem_singleton.mp he]; rfl) (by simp)
  exact ⟨congrArg Effect.outcome heffect,
    congrArg (fun r => PluginState.mk r.om r.table) heffect⟩

end Commits

/-! ## Consistent states below a consistent state -/

section Below

variable {A : Asio} {s s' : PluginState} {n : String} {p : RoutePrefix} {x : UInt32}
  {ns : NatStatic}

/-- Fewer objects, whose table still agrees. -/
theorem PluginState.Consistent.below (h : s.Consistent A) (hrefs : s'.om.refs ⊆ s.om.refs)
    (hattr : ∀ n a, s'.om.attr n = some a → s.om.attr n = some a)
    (hmatching : s'.world.MappingsMatch) : s'.Consistent A :=
  ⟨fun e he => h.keyed e (hrefs he), fun n a ha => h.ethernet n a (hattr n a ha), hmatching⟩

theorem Store.remove_refs_subset (om : Store) (key : String) : (om.remove key).refs ⊆ om.refs :=
  fun _ he => (Store.mem_remove.mp he).1

/-- The removal of a key that is no index. -/
theorem PluginState.Consistent.remove (h : s.Consistent A) {key : String}
    (hkey : ∀ x, key ≠ natKey x) : PluginState.Consistent A ⟨s.om.remove key, s.table⟩ := by
  refine h.below (Store.remove_refs_subset s.om key) (fun n a => SharedStore.drop_attr_eq_some)
    ⟨fun x a b hx => ?_, fun x hx ns hm => ?_⟩
  · exact Store.mem_remove.mpr ⟨h.matching.held x a b hx, (hkey x).symm⟩
  · exact h.matching.absent x hx ns (Store.mem_remove.mp hm).1

theorem PluginState.Consistent.unmap (h : s.Consistent A) (x : UInt32) :
    PluginState.Consistent A ⟨s.om.remove (natKey x), Function.update s.table x none⟩ := by
  refine h.below (Store.remove_refs_subset s.om _) (fun n a => SharedStore.drop_attr_eq_some)
    ⟨fun y a b hy => ?_, fun y hy ns hm => ?_⟩
  · have hy : Function.update s.table x none y = some (a, b) := hy
    by_cases hyx : y = x
    · rw [hyx, Function.update_self] at hy
      cases hy
    · rw [Function.update_of_ne hyx] at hy
      exact Store.mem_remove.mpr ⟨h.matching.held y a b hy, fun hk => hyx (natKey_injective hk)⟩
  · obtain ⟨hm, hk⟩ := Store.mem_remove.mp hm
    have hyx : y ≠ x := by
      rintro rfl
      exact hk rfl
    have hy : s.table y = none := by
      have hy : Function.update s.table x none y = none := hy
      rwa [Function.update_of_ne hyx] at hy
    exact h.matching.absent y hy ns hm

theorem PluginState.Consistent.declare (h : s.Consistent A) (hn : PlainName A n) (b : Bool) :
    PluginState.Consistent A ⟨s.om.write n (.interface ⟨n, "ETHERNET", b⟩), s.table⟩ := by
  refine ⟨fun e he => ?_, fun m a ha => ?_, ⟨fun x c d hx => ?_, fun x hx ns hm => ?_⟩⟩
  · rw [Store.write_refs] at he
    rcases Finset.mem_insert.mp he with rfl | he
    · exact ⟨.interface n, hn, rfl, rfl⟩
    · exact h.keyed e he
  · rcases Store.attr_write_interface ha with ⟨-, rfl⟩ | ha
    · rfl
    · exact h.ethernet m a ha
  · have hm := h.matching.held x c d hx
    show _ ∈ (s.om.write n _).refs
    rw [Store.write_refs]
    exact Finset.mem_insert_of_mem hm
  · rcases Finset.mem_insert.mp hm with heq | hm
    · exact hn.not_natKey x (congrArg Prod.fst heq).symm
    · exact h.matching.absent x hx ns hm

theorem card_remove_lt {om : Store} {key : String} {r : ObjRef} (h : (key, r) ∈ om.refs) :
    (om.remove key).refs.card < om.refs.card := by
  refine Finset.card_lt_card ⟨Store.remove_refs_subset om key, fun hsub => ?_⟩
  exact (Store.mem_remove.mp (hsub h)).2 rfl

theorem PluginState.Consistent.plainName (h : s.Consistent A)
    (hb : (l3Key A n p, .l3Binding n p) ∈ s.om.refs) : PlainName A n := by
  refine plainName_of_find h.keyed ?_
  rw [Store.find_isSome]
  exact (s.om.live n).mpr ⟨_, hb, rfl⟩

/-- A state is empty, or it holds a mapping, a binding of length 0 if there is one, or an
interface. -/
theorem PluginState.Consistent.cases (h : s.Consistent A) :
    s = .initial ∨ (∃ x ns, (natKey x, .natStatic ns) ∈ s.om.refs) ∨
      (∃ n p, PlainName A n ∧ (l3Key A n p, .l3Binding n p) ∈ s.om.refs ∧
        (p.len = 0 ∨ ∀ m q, (l3Key A m q, .l3Binding m q) ∈ s.om.refs → q.len ≠ 0)) ∨
      ∃ n, PlainName A n ∧ (n, .interface n) ∈ s.om.refs := by
  by_cases hmapped : ∃ x ns, (natKey x, .natStatic ns) ∈ s.om.refs
  · exact .inr (.inl hmapped)
  by_cases hshort : ∃ n p, (l3Key A n p, .l3Binding n p) ∈ s.om.refs ∧ p.len = 0
  · obtain ⟨n, p, hb, hp⟩ := hshort
    exact .inr (.inr (.inl ⟨n, p, h.plainName hb, hb, .inl hp⟩))
  by_cases hbound : ∃ n p, (l3Key A n p, .l3Binding n p) ∈ s.om.refs
  · obtain ⟨n, p, hb⟩ := hbound
    exact .inr (.inr (.inl ⟨n, p, h.plainName hb, hb,
      .inr fun m q hq hlen => hshort ⟨m, q, hq, hlen⟩⟩))
  by_cases hdeclared : ∃ n, PlainName A n ∧ (n, .interface n) ∈ s.om.refs
  · exact .inr (.inr (.inr hdeclared))
  · -- every object is of one of the three kinds
    have hnone : s.om.refs = ∅ := by
      refine Finset.eq_empty_of_forall_notMem fun e he => ?_
      rcases h.keyed.entry_cases he with ⟨n, hn, rfl⟩ | ⟨n, p, -, rfl⟩ | ⟨x, ns, rfl⟩
      · exact hdeclared ⟨n, hn, he⟩
      · exact hbound ⟨n, p, he⟩
      · exact hmapped ⟨x, ns, he⟩
    have htable : s.table = fun _ => none := by
      funext x
      by_contra hx
      obtain ⟨⟨a, b⟩, hx⟩ := Option.ne_none_iff_exists'.mp hx
      have hm := h.matching.held x a b hx
      rw [show s.world.om.refs = ∅ from hnone] at hm
      exact Finset.notMem_empty _ hm
    obtain ⟨om, table⟩ := s
    have hom : om = SharedStore.empty := SharedStore.eq_of_refs hnone fun m a ha => by
      rw [SharedStore.attr_eq_none.mpr] at ha
      · cases ha
      · rw [show om.refs = ∅ from hnone]
        exact fun e he => absurd he (Finset.notMem_empty e)
    left
    rw [hom, show table = _ from htable]
    rfl

end Below

/-! ## Taking a state down -/

section Clearing

variable {env : Env} {s s' : PluginState} {n : String}

/-- An interface that is declared is alive, whatever other keys are removed. -/
theorem alive_of_declared {om : Store} (h : (n, .interface n) ∈ om.refs) {key : String}
    (hkey : n ≠ key) : ((om.remove key).attr n).isSome :=
  ((om.remove key).live n).mpr ⟨_, Store.mem_remove.mpr ⟨h, hkey⟩, rfl⟩

/-- From every consistent state, commits lead back to the empty one. -/
theorem PluginState.Consistent.clears (hA : env.asio.Lawful) (hhw : ∀ ops, env.hw ops = .ok)
    (h : s.Consistent env.asio) : Relation.ReflTransGen (Commits env) s .initial := by
  induction hcard : s.om.refs.card using Nat.strongRecOn generalizing s with
  | ind k ih =>
    subst hcard
    rcases h.cases with rfl | ⟨x, ns, hm⟩ | ⟨n, p, hn, hb, -⟩ | ⟨n, hn, hd⟩
    · exact .refl
    · exact .head (commits_unmap x) (ih _ (card_remove_lt hm) (h.unmap x) rfl)
    · -- declared for the time being, the interface outlives its binding
      obtain ⟨a, ha⟩ := Option.isSome_iff_exists.mp ((s.om.live n).mpr ⟨_, hb, rfl⟩)
      let s₁ : PluginState := ⟨s.om.write n (.interface ⟨n, "ETHERNET", a.state⟩), s.table⟩
      let k₀ := l3Key env.asio n ⟨p.address, 0⟩
      let om₂ := (s₁.om.remove k₀).remove (l3Key env.asio n p)
      have hd : (n, .interface n) ∈ s₁.om.refs := by
        rw [Store.write_refs]
        exact Finset.mem_insert_self _ _
      have hne : ∀ q, n ≠ l3Key env.asio n q := fun q => hn.not_l3Key n q
      have hlive₂ : (om₂.find n).isSome := by
        rw [Store.find_isSome]
        exact alive_of_declared (Store.mem_remove.mpr ⟨hd, hne _⟩) (hne _)
      have hsub : (om₂.remove n).refs ⊆ (s.om.remove (l3Key env.asio n p)).refs := by
        intro e he
        obtain ⟨he, hen⟩ := Store.mem_remove.mp he
        obtain ⟨he, hp⟩ := Store.mem_remove.mp he
        obtain ⟨he, -⟩ := Store.mem_remove.mp he
        rw [Store.write_refs] at he
        rcases Finset.mem_insert.mp he with rfl | he
        · exact absurd rfl hen
        · exact Store.mem_remove.mpr ⟨he, hp⟩
      have hlt : (om₂.remove n).refs.card < s.om.refs.card :=
        lt_of_le_of_lt (Finset.card_le_card hsub) (card_remove_lt hb)
      have hindex : ∀ q x, l3Key env.asio n q ≠ natKey x := ManagedObject.l3Key_ne_natKey n
      have hrest : PluginState.Consistent env.asio ⟨om₂.remove n, s.table⟩ :=
        (((h.declare hn a.state).remove (hindex _)).remove (hindex p)).remove hn.not_natKey
      exact .head (commits_declare hhw hn a.state) (.head
        (commits_unbind hA hn.nonempty p (alive_of_declared hd (hne _))) (.head
        (commits_delete hn hlive₂) (ih _ hlt hrest rfl)))
    · have hlive : (s.om.find n).isSome := by
        rw [Store.find_isSome]
        exact (s.om.live n).mpr ⟨_, hd, rfl⟩
      exact .head (commits_delete hn hlive)
        (ih _ (card_remove_lt hd) (h.remove hn.not_natKey) rfl)

end Clearing

/-! ## Building a state up -/

section Building

variable {env : Env} {s t : PluginState} {n : String} {p : RoutePrefix}

/-- In a consistent state, what is held under an object's key is this object. -/
theorem owns_of_key {A : Asio} {refs : Finset (String × ObjRef)} (hA : A.Lawful)
    (h : WellKeyed A refs) {o : ManagedObject} (ho : o.Supported A) {r : ObjRef}
    (he : (o.key A, r) ∈ refs) : o.Owns A (o.key A, r) := by
  obtain ⟨o', ho', hkey, hown⟩ := h _ he
  obtain rfl := ManagedObject.key_inj hA ho ho' hkey
  exact ⟨rfl, hown⟩

theorem binding_of_key {A : Asio} {refs : Finset (String × ObjRef)} (hA : A.Lawful)
    (h : WellKeyed A refs) (hn : PlainName A n) {r : ObjRef} (he : (l3Key A n p, r) ∈ refs) :
    r = .l3Binding n p := by
  have hown := (owns_of_key hA h (o := .l3Binding n p) hn he).2
  cases r with
  | interface _ => exact hown.elim
  | l3Binding m q =>
    obtain ⟨rfl, rfl⟩ : n = m ∧ p = q := hown
    rfl
  | natStatic _ => exact hown.elim

theorem interface_of_key {A : Asio} {refs : Finset (String × ObjRef)} (hA : A.Lawful)
    (h : WellKeyed A refs) (hn : PlainName A n) {r : ObjRef} (he : (n, r) ∈ refs) :
    r = .interface n := by
  have hown := (owns_of_key hA h (o := .interface n) hn he).2
  cases r with
  | interface m =>
    obtain rfl : n = m := hown
    rfl
  | l3Binding _ _ => exact hown.elim
  | natStatic _ => exact hown.elim

/-- A live interface is bound, and to this prefix alone unless length 0 is bound already. -/
theorem binds (hA : env.asio.Lawful) (hhw : ∀ ops, env.hw ops = .ok) (hn : n ≠ "")
    (hlive : (t.om.find n).isSome)
    (hfree : p.len = 0 ∨ ∀ r, (l3Key env.asio n ⟨p.address, 0⟩, r) ∉ t.om.refs) :
    ∃ om, Relation.ReflTransGen (Commits env) t ⟨om, t.table⟩ ∧
      (∀ m a, om.attr m = some a → t.om.attr m = some a) ∧
      om.refs = insert (l3Key env.asio n p, .l3Binding n p) t.om.refs := by
  obtain ⟨om, hcommit, hattr, hrefs⟩ := commits_bind hA hhw hn hlive p
  by_cases hp : p.len = 0
  · have hsame : (⟨p.address, 0⟩ : RoutePrefix) = p := by rw [← hp]
    refine ⟨om, .single hcommit, fun m a ha => hattr ▸ ha, Finset.ext fun x => ?_⟩
    rw [hrefs, hsame, Finset.mem_insert, or_comm]
    simp
  · -- length 0 is unbound again
    let k₀ := l3Key env.asio n ⟨p.address, 0⟩
    have hne : l3Key env.asio n p ≠ k₀ := by
      intro h
      exact hp (congrArg RoutePrefix.len (ManagedObject.l3Key_inj hA h).2)
    have hb : (l3Key env.asio n p, .l3Binding n p) ∈ om.refs :=
      (hrefs _).mpr (.inr ⟨p, by simp, rfl⟩)
    have halive : ((om.remove k₀).attr n).isSome :=
      ((om.remove k₀).live n).mpr ⟨_, Store.mem_remove.mpr ⟨hb, hne⟩, rfl⟩
    refine ⟨(om.remove k₀).remove k₀, (Relation.ReflTransGen.single hcommit).tail
      (commits_unbind hA hn ⟨p.address, 0⟩ halive), fun m a ha => ?_, Finset.ext fun x => ?_⟩
    · rw [← hattr]
      exact SharedStore.drop_attr_eq_some (SharedStore.drop_attr_eq_some ha)
    · have hfree := hfree.resolve_left hp
      rw [Store.mem_remove, Store.mem_remove, hrefs, Finset.mem_insert]
      constructor
      · rintro ⟨⟨hx | ⟨q, hq, rfl⟩, hk⟩, -⟩
        · exact .inr hx
        · rcases List.mem_pair.mp hq with rfl | rfl
          · exact absurd rfl hk
          · exact .inl rfl
      · rintro (rfl | hx)
        · exact ⟨⟨.inr ⟨p, by simp, rfl⟩, hne⟩, hne⟩
        · have hk : x.1 ≠ k₀ := by
            intro hk
            have hx : (k₀, x.2) ∈ t.om.refs := by rwa [← hk]
            exact hfree x.2 hx
          exact ⟨⟨.inl hx, hk⟩, hk⟩

/-- Mappings are added under one index, the last of them to the table as well. -/
theorem maps (hA : env.asio.Lawful) (hhw : ∀ ops, env.hw ops = .ok) (x : UInt32)
    (ns : NatStatic) (l : List NatStatic) :
    ∃ om, Relation.ReflTransGen (Commits env) t
        ⟨om, Function.update t.table x (some (ns.inside, ns.outside))⟩ ∧
      (∀ m a, om.attr m = some a → t.om.attr m = some a) ∧
      ∀ e, e ∈ om.refs ↔ e ∈ t.om.refs ∨ ∃ ms ∈ ns :: l, e = (natKey x, .natStatic ms) := by
  induction l generalizing t with
  | nil =>
    refine ⟨_, .single (commits_map hA hhw x ns), fun m a ha => ?_, fun e => ?_⟩
    · rw [← ha]
      exact (congrFun (SharedStore.hold_attr fun m hm => by cases hm) m).symm
    · rw [Store.write_refs, Finset.mem_insert, or_comm]
      simp [VomObj.ref]
  | cons ms l ih =>
    obtain ⟨om, hrest, hattr, hrefs⟩ :=
      ih (t := ⟨t.om.write (natKey x) (.natStatic ms),
        Function.update t.table x (some (ms.inside, ms.outside))⟩)
    rw [Function.update_idem] at hrest
    refine ⟨om, .head (commits_map hA hhw x ms) hrest, fun m a ha => ?_, fun e => ?_⟩
    · rw [← hattr m a ha]
      exact (congrFun (SharedStore.hold_attr fun m hm => by cases hm) m).symm
    · rw [hrefs, Store.write_refs, Finset.mem_insert]
      simp only [List.exists_mem_cons_iff, VomObj.ref]
      tauto

/-- An interface that nothing else keeps alive is declared for its binding, and deleted. -/
theorem binds_dead (hA : env.asio.Lawful) (hhw : ∀ ops, env.hw ops = .ok)
    (hn : PlainName env.asio n) (hdead : ∀ r, (n, r) ∉ t.om.refs)
    (hfree : p.len = 0 ∨ ∀ r, (l3Key env.asio n ⟨p.address, 0⟩, r) ∉ t.om.refs) (b : Bool) :
    ∃ om, Relation.ReflTransGen (Commits env) t ⟨om, t.table⟩ ∧
      (∀ m a, om.attr m = some a → m = n ∧ a = ⟨"ETHERNET", b⟩ ∨ t.om.attr m = some a) ∧
      om.refs = insert (l3Key env.asio n p, .l3Binding n p) t.om.refs := by
  let t₁ : PluginState := ⟨t.om.write n (.interface ⟨n, "ETHERNET", b⟩), t.table⟩
  have hd : (n, .interface n) ∈ t₁.om.refs := by
    rw [Store.write_refs]
    exact Finset.mem_insert_self _ _
  have hlive : (t₁.om.find n).isSome := by
    rw [Store.find_isSome]
    exact (t₁.om.live n).mpr ⟨_, hd, rfl⟩
  have hfree₁ : p.len = 0 ∨ ∀ r, (l3Key env.asio n ⟨p.address, 0⟩, r) ∉ t₁.om.refs := by
    refine hfree.imp_right fun h r hr => ?_
    rw [Store.write_refs] at hr
    rcases Finset.mem_insert.mp hr with heq | hr
    · exact hn.not_l3Key n _ (congrArg Prod.fst heq).symm
    · exact h r hr
  obtain ⟨om, hbinds, hattr, hrefs⟩ := binds hA hhw hn.nonempty hlive hfree₁
  have hlive' : (om.find n).isSome := by
    rw [Store.find_isSome]
    refine (om.live n).mpr ⟨(n, .interface n), ?_, rfl⟩
    rw [hrefs]
    exact Finset.mem_insert_of_mem hd
  refine ⟨om.remove n, (hbinds.head (commits_declare hhw hn b)).tail (commits_delete hn hlive'),
    fun m a ha => ?_, Finset.ext fun x => ?_⟩
  · have ha := hattr m a (SharedStore.drop_attr_eq_some ha)
    exact (Store.attr_write_interface ha).imp_left fun h => h
  · rw [Store.mem_remove, hrefs, Store.write_refs, Finset.mem_insert, Finset.mem_insert,
      Finset.mem_insert]
    constructor
    · rintro ⟨rfl | rfl | hx, hk⟩
      · exact .inl rfl
      · exact absurd rfl hk
      · exact .inr hx
    · rintro (rfl | hx)
      · exact ⟨.inl rfl, (hn.not_l3Key n p).symm⟩
      · refine ⟨.inr (.inr hx), ?_⟩
        rintro rfl
        exact hdead x.2 hx

/-- An interface of a consistent state has the attributes it is declared with. -/
theorem PluginState.Consistent.attr_eq {A : Asio} (h : s.Consistent A) {r : ObjRef} {key : String}
    (hr : (key, r) ∈ s.om.refs) (hitf : r.itf = some n) :
    ∃ b, s.om.attr n = some ⟨"ETHERNET", b⟩ := by
  obtain ⟨⟨type, b⟩, ha⟩ := Option.isSome_iff_exists.mp ((s.om.live n).mpr ⟨_, hr, hitf⟩)
  obtain rfl : type = "ETHERNET" := h.ethernet n _ ha
  exact ⟨b, ha⟩

theorem PluginState.Consistent.rebuilds_interface (hA : env.asio.Lawful)
    (hhw : ∀ ops, env.hw ops = .ok) (h : s.Consistent env.asio) (hn : PlainName env.asio n)
    (hd : (n, .interface n) ∈ s.om.refs) : Commits env ⟨s.om.remove n, s.table⟩ s := by
  obtain ⟨b, hb⟩ := h.attr_eq hd rfl
  have hom : (s.om.remove n).write n (.interface ⟨n, "ETHERNET", b⟩) = s.om := by
    refine SharedStore.eq_of_refs (Finset.ext fun x => ?_) fun m a ha => ?_
    · rw [Store.write_refs, Finset.mem_insert, Store.mem_remove]
      constructor
      · rintro (rfl | ⟨hx, -⟩)
        · exact hd
        · exact hx
      · intro hx
        by_cases hk : x.1 = n
        · left
          have hx : (n, x.2) ∈ s.om.refs := by rwa [← hk]
          rw [← Prod.mk.eta (p := x), hk, interface_of_key hA h.keyed hn hx]
          rfl
        · exact .inr ⟨hx, hk⟩
    · rcases Store.attr_write_interface ha with ⟨rfl, rfl⟩ | ha
      · exact hb
      · exact SharedStore.drop_attr_eq_some ha
  have hcommit := commits_declare (s := ⟨s.om.remove n, s.table⟩) hhw hn b
  rwa [show (⟨s.om.remove n, s.table⟩ : PluginState).om = _ from rfl, hom] at hcommit

theorem PluginState.Consistent.rebuilds_binding (hA : env.asio.Lawful)
    (hhw : ∀ ops, env.hw ops = .ok) (h : s.Consistent env.asio) (hn : PlainName env.asio n)
    (hb : (l3Key env.asio n p, .l3Binding n p) ∈ s.om.refs)
    (hshort : p.len = 0 ∨
      ∀ m q, (l3Key env.asio m q, .l3Binding m q) ∈ s.om.refs → q.len ≠ 0) :
    Relation.ReflTransGen (Commits env) ⟨s.om.remove (l3Key env.asio n p), s.table⟩ s := by
  let s₀ : PluginState := ⟨s.om.remove (l3Key env.asio n p), s.table⟩
  have hfree : p.len = 0 ∨ ∀ r, (l3Key env.asio n ⟨p.address, 0⟩, r) ∉ s₀.om.refs := by
    refine hshort.imp_right fun hlong r hr => ?_
    have hr := (Store.mem_remove.mp hr).1
    obtain rfl := binding_of_key hA h.keyed hn hr
    exact hlong n _ hr rfl
  have hrefs : insert (l3Key env.asio n p, .l3Binding n p) s₀.om.refs = s.om.refs := by
    refine Finset.ext fun x => ?_
    rw [Finset.mem_insert, Store.mem_remove]
    constructor
    · rintro (rfl | ⟨hx, -⟩)
      · exact hb
      · exact hx
    · intro hx
      by_cases hk : x.1 = l3Key env.asio n p
      · left
        have hx : (l3Key env.asio n p, x.2) ∈ s.om.refs := by rwa [← hk]
        rw [← Prod.mk.eta (p := x), hk, binding_of_key hA h.keyed hn hx]
      · exact .inr ⟨hx, hk⟩
  have hkept : ∀ m a, s₀.om.attr m = some a → s.om.attr m = some a :=
    fun m a => SharedStore.drop_attr_eq_some
  cases hlive : s₀.om.find n with
  | some i =>
    obtain ⟨om, hbinds, hattr, hom⟩ := binds hA hhw hn.nonempty (by rw [hlive]; rfl) hfree
    have heq : om = s.om := SharedStore.eq_of_refs (hom.trans hrefs)
      fun m a ha => hkept m a (hattr m a ha)
    rwa [heq] at hbinds
  | none =>
    have hdead : ∀ r, (n, r) ∉ s₀.om.refs := by
      intro r hr
      obtain rfl := interface_of_key hA h.keyed hn (Store.mem_remove.mp hr).1
      exact SharedStore.attr_eq_none.mp (Store.find_eq_none.mp hlive) _ hr rfl
    obtain ⟨b, hattr_n⟩ := h.attr_eq hb rfl
    obtain ⟨om, hbinds, hattr, hom⟩ := binds_dead hA hhw hn hdead hfree b
    have heq : om = s.om := SharedStore.eq_of_refs (hom.trans hrefs) fun m a ha => by
      rcases hattr m a ha with ⟨rfl, rfl⟩ | ha
      · exact hattr_n
      · exact hkept m a ha
    rwa [heq] at hbinds

theorem PluginState.Consistent.rebuilds_mapping (hA : env.asio.Lawful)
    (hhw : ∀ ops, env.hw ops = .ok) (h : s.Consistent env.asio) {x : UInt32} {ns : NatStatic}
    (hm : (natKey x, .natStatic ns) ∈ s.om.refs) :
    Relation.ReflTransGen (Commits env)
      ⟨s.om.remove (natKey x), Function.update s.table x none⟩ s := by
  obtain ⟨⟨a, b⟩, hx⟩ : ∃ p, s.table x = some p := by
    refine Option.ne_none_iff_exists'.mp fun hnone => ?_
    exact h.matching.absent x hnone ns hm
  have hinj : Function.Injective fun ms => (natKey x, ObjRef.natStatic ms) := by
    intro ms ms' heq
    exact ObjRef.natStatic.inj (Prod.mk.inj heq).2
  let l := (s.om.refs.preimage (fun ms => (natKey x, .natStatic ms)) hinj.injOn).toList
  have hl : ∀ ms, ms ∈ l ↔ (natKey x, .natStatic ms) ∈ s.om.refs := by
    intro ms
    rw [Finset.mem_toList, Finset.mem_preimage]
  obtain ⟨om, hmaps, hattr, hrefs⟩ := maps hA hhw x ⟨a, b⟩ l
    (t := ⟨s.om.remove (natKey x), Function.update s.table x none⟩)
  have hom : om = s.om := by
    refine SharedStore.eq_of_refs (Finset.ext fun e => ?_)
      fun m c hc => SharedStore.drop_attr_eq_some (hattr m c hc)
    rw [hrefs, Store.mem_remove]
    constructor
    · rintro (⟨he, -⟩ | ⟨ms, hms, rfl⟩)
      · exact he
      · rcases List.mem_cons.mp hms with rfl | hms
        · exact h.matching.held x a b hx
        · exact (hl ms).mp hms
    · intro he
      by_cases hk : e.1 = natKey x
      · obtain ⟨key, r⟩ := e
        obtain rfl : key = natKey x := hk
        have hown := (owns_of_key hA h.keyed (o := .natStatic 0 x) rfl he).2
        cases r with
        | interface _ => exact hown.elim
        | l3Binding _ _ => exact hown.elim
        | natStatic ms => exact .inr ⟨ms, List.mem_cons_of_mem _ ((hl ms).mpr he), rfl⟩
      · exact .inl ⟨he, hk⟩
  have htable : Function.update s.table x (some (a, b)) = s.table := by
    rw [← hx, Function.update_eq_self]
  rwa [hom, Function.update_idem, htable] at hmaps

/-- Every consistent state is reached from the empty one. -/
theorem PluginState.Consistent.builds (hA : env.asio.Lawful) (hhw : ∀ ops, env.hw ops = .ok)
    (h : s.Consistent env.asio) : Relation.ReflTransGen (Commits env) .initial s := by
  induction hcard : s.om.refs.card using Nat.strongRecOn generalizing s with
  | ind k ih =>
    subst hcard
    rcases h.cases with rfl | ⟨x, ns, hm⟩ | ⟨n, p, hn, hb, hshort⟩ | ⟨n, hn, hd⟩
    · exact .refl
    · exact (ih _ (card_remove_lt hm) (h.unmap x) rfl).trans (h.rebuilds_mapping hA hhw hm)
    · have hindex : ∀ x, l3Key env.asio n p ≠ natKey x := ManagedObject.l3Key_ne_natKey n p
      exact (ih _ (card_remove_lt hb) (h.remove hindex) rfl).trans
        (h.rebuilds_binding hA hhw hn hb hshort)
    · exact (ih _ (card_remove_lt hd) (h.remove hn.not_natKey) rfl).tail
        (h.rebuilds_interface hA hhw hn hd)

end Building

/-! ## Exactly the consistent states -/

section Reached

variable {env : Env} {s s' : PluginState}

theorem initial_consistent (A : Asio) : PluginState.initial.Consistent A where
  keyed _ he := absurd he (Finset.notMem_empty _)
  ethernet n a ha := by cases ha
  matching := ⟨fun _ _ _ hx => absurd hx (Option.some_ne_none _).symm,
    fun _ _ _ hm => absurd hm (Finset.notMem_empty _)⟩

/-- A delivery asks for no interface of another type. -/
def PluginUpdate.Ethernet : PluginUpdate → Prop
  | .create i => i.type = "ETHERNET"
  | _ => True

theorem Delivery.Asks.ethernet {A : Asio} {d : Delivery} {u : PluginUpdate} (hu : d.Asks A u) :
    u.Ethernet := by
  cases u with
  | create i =>
    obtain ⟨cb, event, changes⟩ := d
    obtain ⟨-, cs, -, hasks⟩ := hu
    cases cb with
    | ietfInterfaceCreate stale => rw [PluginUpdate.Ethernet, hasks.2.2]
    | ocInterfacesConfig stale => rw [PluginUpdate.Ethernet, hasks.2.2]
    | ietfInterfaceIpv46AddressChange => exact hasks.elim
    | natMappingTableConfig stale => exact hasks.elim
  | _ => trivial

/-- No update makes an interface one of another type. -/
theorem ethernet_step {A : Asio} {u : PluginUpdate}
    (h : ∀ n a, s.om.attr n = some a → a.type = "ETHERNET") (hu : u.Ethernet)
    (hstep : u.step A s = some s') : ∀ n a, s'.om.attr n = some a → a.type = "ETHERNET" := by
  intro m a ha
  cases u with
  | setState n b =>
    obtain rfl := Option.some.inj hstep
    have ha : (if m = n then (s.om.attr m).map (fun a => { a with state := b })
        else s.om.attr m) = some a := ha
    split_ifs at ha
    · obtain ⟨c, hc, rfl⟩ := Option.map_eq_some_iff.mp ha
      exact h m c hc
    · exact h m a ha
  | create i =>
    obtain rfl := Option.some.inj hstep
    rcases Store.attr_write_interface ha with ⟨-, rfl⟩ | ha
    · exact hu
    · exact h m a ha
  | rewrite n =>
    obtain ⟨i, hi, rfl⟩ := Option.map_eq_some_iff.mp hstep
    rcases Store.attr_write_interface ha with ⟨-, rfl⟩ | ha
    · obtain ⟨c, hc, rfl⟩ := Option.map_eq_some_iff.mp hi
      exact h n c hc
    · exact h m a ha
  | delete n =>
    obtain rfl := Option.some.inj hstep
    exact h m a (SharedStore.drop_attr_eq_some ha)
  | bind n p =>
    obtain ⟨i, hi, rfl⟩ := Option.map_eq_some_iff.mp hstep
    have hfound : (s.om.find i.name).isSome := by
      rw [Store.name_of_find hi, hi]
      rfl
    rw [show PluginState.om _ = _ from rfl,
      Store.write_l3Binding_attr (b := ⟨i, p⟩) hfound] at ha
    exact h m a ha
  | unbind n p =>
    obtain ⟨i, -, rfl⟩ := Option.map_eq_some_iff.mp hstep
    exact h m a (SharedStore.drop_attr_eq_some ha)
  | map x ns =>
    obtain rfl := Option.some.inj hstep
    refine h m a ?_
    rw [← ha]
    exact (congrFun (SharedStore.hold_attr fun n hn => by cases hn) m).symm
  | unmap x =>
    obtain rfl := Option.some.inj hstep
    exact h m a (SharedStore.drop_attr_eq_some ha)

/-- Deliveries with plain names lead from a consistent state to a consistent state, whatever
else is in their change sets and whatever VPP answers. -/
theorem consistent_afterAll (hA : env.asio.Lawful) {w : World} {ds : List Delivery}
    (h : w.state.Consistent env.asio) (hds : ∀ d ∈ ds, d.Plain env.asio) :
    (w.afterAll env ds).state.Consistent env.asio := by
  obtain ⟨C, hC⟩ := exists_represents h.keyed
  obtain ⟨uss, C', -, hrun, hC'⟩ := afterAll_tables env hA w ds C hC hds
  have hw : w.MappingsMatch := ⟨h.matching.held, h.matching.absent⟩
  have hw' : (w.afterAll env ds).MappingsMatch :=
    hC'.mappingsMatch_iff.mpr (TableMatches.run (hC.mappingsMatch_iff.mp hw) hrun)
  refine ⟨hC'.keyed, ?_, hw'.held, hw'.absent⟩
  refine (afterAll_leads env w ds).invariant
    (I := fun s => ∀ n a, s.om.attr n = some a → a.type = "ETHERNET")
    (fun s u s' hs hu hstep => ?_) h.ethernet
  obtain ⟨d, -, hu⟩ := hu
  exact ethernet_step hs hu.ethernet hstep

theorem reached_of_commits (h : Relation.ReflTransGen (Commits env) .initial s) :
    ∃ ds, (∀ d ∈ ds, d.Plain env.asio) ∧
      ((World.ofInterfaces []).afterAll env ds).state = s := by
  induction h with
  | refl => exact ⟨[], by simp, rfl⟩
  | tail _ hcommit ih =>
    obtain ⟨ds, hplain, hstate⟩ := ih
    obtain ⟨d, hd, hrun⟩ := hcommit
    refine ⟨ds ++ [d], ?_, ?_⟩
    · exact List.forall_mem_append.mpr ⟨hplain, List.forall_mem_singleton.mpr hd.plain⟩
    · rw [afterAll_append]
      exact (hrun _ hstate).2

/-- The states that deliveries with plain names lead to are those that commits of single entries
lead to, and these are the consistent states: nothing more is true of all of them. -/
theorem reachable_iff (env : Env) (hA : env.asio.Lawful) (hhw : ∀ ops, env.hw ops = .ok)
    (s : PluginState) : List.TFAE [
      ∃ ds, (∀ d ∈ ds, d.Plain env.asio) ∧ ((World.ofInterfaces []).afterAll env ds).state = s,
      Relation.ReflTransGen (Commits env) .initial s,
      s.Consistent env.asio] := by
  tfae_have 1 → 3 := by
    rintro ⟨ds, hds, rfl⟩
    exact consistent_afterAll hA (initial_consistent env.asio) hds
  tfae_have 3 → 2 := fun h => h.builds hA hhw
  tfae_have 2 → 1 := reached_of_commits
  tfae_finish

/-- No state is a trap: commits of single entries that all succeed lead from every state that is
reached to every other. -/
theorem commits_connect (env : Env) (hA : env.asio.Lawful) (hhw : ∀ ops, env.hw ops = .ok)
    {s s' : PluginState} (h : s.Consistent env.asio) (h' : s'.Consistent env.asio) :
    Relation.ReflTransGen (Commits env) s s' := (h.clears hA hhw).trans (h'.builds hA hhw)

end Reached

/-- A binding that has outlived its interface. -/
def leakedBinding : PluginState where
  om := ((World.ofInterfaces [⟨"loop0", "ETHERNET", true⟩]).om.write
    (l3Key .uncompressed "loop0" ⟨.v4 10 0 0 1, 24⟩)
    (.l3Binding ⟨⟨"loop0", "ETHERNET", true⟩, ⟨.v4 10 0 0 1, 24⟩⟩)).remove "loop0"
  table _ := none

theorem leakedBinding_refs : leakedBinding.om.refs =
    {(l3Key .uncompressed "loop0" ⟨.v4 10 0 0 1, 24⟩, .l3Binding "loop0" ⟨.v4 10 0 0 1, 24⟩)} := by
  decide

theorem leakedBinding_consistent : leakedBinding.Consistent Env.accepting.asio := by
  refine ⟨fun e he => ?_, fun n a ha => ?_, fun x a b hx => ?_, fun x _ ns hm => ?_⟩
  · rw [leakedBinding_refs] at he
    obtain rfl := Finset.mem_singleton.mp he
    exact ⟨.l3Binding "loop0" _, plainName_loop0, rfl, rfl, rfl⟩
  · have hinitial : ∀ n a, (World.ofInterfaces [⟨"loop0", "ETHERNET", true⟩]).om.attr n = some a →
        a.type = "ETHERNET" := by
      intro n a ha
      rcases Store.attr_write_interface ha with ⟨-, rfl⟩ | ha
      · rfl
      · cases ha
    have ha := SharedStore.drop_attr_eq_some ha
    rw [Store.write_l3Binding_attr (by decide)] at ha
    exact hinitial n a ha
  · cases hx
  · have hm : (natKey x, ObjRef.natStatic ns) ∈ leakedBinding.om.refs := hm
    rw [leakedBinding_refs] at hm
    cases (Prod.mk.inj (Finset.mem_singleton.mp hm)).2

/-- Such a binding is there after some run. -/
theorem leakedBinding_reached : ∃ ds, (∀ d ∈ ds, d.Plain Env.accepting.asio) ∧
    ((World.ofInterfaces []).afterAll .accepting ds).state = leakedBinding :=
  ((reachable_iff .accepting Asio.uncompressed_lawful (fun _ => rfl) leakedBinding).out 2 0).mp
    leakedBinding_consistent

/-- It is got rid of again. -/
theorem leakedBinding_cleared :
    Relation.ReflTransGen (Commits .accepting) leakedBinding .initial :=
  commits_connect .accepting Asio.uncompressed_lawful (fun _ => rfl) leakedBinding_consistent
    (initial_consistent Asio.uncompressed)

end Sweetcomb
