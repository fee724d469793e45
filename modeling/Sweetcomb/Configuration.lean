import Mathlib.Data.Set.Insert
import Sweetcomb.ObjectKeys
import Sweetcomb.PluginUpdates

/-!
# The configuration behind the store

What the plugin is for: a table of declared interfaces, one of the addresses bound to them
and one of NAT mappings. The store of the plugin is one flat space of text keys instead; as
long as interfaces have plain names it behaves like the three tables, update by update.
-/

namespace Sweetcomb

open ManagedObject

/-- An interface has attributes as long as it is declared or bound. -/
@[ext] structure Configuration where
  declared : Set String
  bound : Set (String × RoutePrefix)
  mapped : Set (UInt32 × NatStatic)
  /-- the pairs as `static_mapping_table` has them -/
  table : NatTable
  attr : String → Option ItfAttr
  live : ∀ n, (attr n).isSome ↔ n ∈ declared ∨ ∃ p, (n, p) ∈ bound

namespace Configuration

variable (C : Configuration)

def setState (n : String) (b : Bool) : Configuration where
  declared := C.declared
  bound := C.bound
  mapped := C.mapped
  table := C.table
  attr m := if m = n then (C.attr m).map fun a => { a with state := b } else C.attr m
  live m := by
    rw [← C.live m]
    split_ifs
    · rw [Option.isSome_map]
    · rfl

def declare (n : String) (a : ItfAttr) : Configuration where
  declared := insert n C.declared
  bound := C.bound
  mapped := C.mapped
  table := C.table
  attr := Function.update C.attr n (some a)
  live m := by
    by_cases h : m = n
    · simp [h]
    · rw [Function.update_of_ne h, C.live m, Set.mem_insert_iff, or_iff_right h]

/-- Bind an interface that has the attributes `a`. -/
def bind (n : String) (p : RoutePrefix) (a : ItfAttr) : Configuration where
  declared := C.declared
  bound := insert (n, p) C.bound
  mapped := C.mapped
  table := C.table
  attr := Function.update C.attr n (some a)
  live m := by
    by_cases h : m = n
    · rw [h, Function.update_self]
      exact iff_of_true rfl (.inr ⟨p, Set.mem_insert _ _⟩)
    · simp [C.live m, h]

open Classical in
/-- Fewer declarations and bindings: an interface with neither left is gone. -/
noncomputable def restrict (declared : Set String) (bound : Set (String × RoutePrefix))
    (hd : declared ⊆ C.declared) (hb : bound ⊆ C.bound) : Configuration where
  declared := declared
  bound := bound
  mapped := C.mapped
  table := C.table
  attr n := if n ∈ declared ∨ ∃ p, (n, p) ∈ bound then C.attr n else none
  live n := by
    split_ifs with h
    · refine iff_of_true ((C.live n).mpr ?_) h
      exact h.imp (fun hn => hd hn) fun ⟨p, hp⟩ => ⟨p, hb hp⟩
    · exact iff_of_false Bool.false_ne_true h

noncomputable def undeclare (n : String) : Configuration :=
  C.restrict (C.declared \ {n}) C.bound Set.sdiff_subset (Set.Subset.refl _)

noncomputable def unbind (n : String) (p : RoutePrefix) : Configuration :=
  C.restrict C.declared (C.bound \ {(n, p)}) (Set.Subset.refl _) Set.sdiff_subset

/-- A mapping is added under its index, next to those that are there. -/
def addMapping (x : UInt32) (ns : NatStatic) : Configuration :=
  { C with
    mapped := insert (x, ns) C.mapped
    table := Function.update C.table x (some (ns.inside, ns.outside)) }

def clearMapping (x : UInt32) : Configuration :=
  { C with
    mapped := {m ∈ C.mapped | m.1 ≠ x}
    table := Function.update C.table x none }

/-- The updates, on the tables. -/
noncomputable def step : PluginUpdate → Option Configuration
  | .setState n b => some (C.setState n b)
  | .create i => some (C.declare i.name ⟨i.type, i.state⟩)
  | .rewrite n => (C.attr n).map fun a => C.declare n a
  | .delete n => some (C.undeclare n)
  | .bind n p => (C.attr n).map fun a => C.bind n p a
  | .unbind n p => (C.attr n).map fun _ => C.unbind n p
  | .map x ns => some (C.addMapping x ns)
  | .unmap x => some (C.clearMapping x)

def empty : Configuration where
  declared := ∅
  bound := ∅
  mapped := ∅
  table _ := none
  attr _ := none
  live n := by simp

end Configuration

/-- The state holds the tables, each object under its key and nothing else. -/
structure Represents (A : Asio) (s : PluginState) (C : Configuration) : Prop where
  keyed : WellKeyed A s.om.refs
  declared : ∀ n, n ∈ C.declared ↔ (n, .interface n) ∈ s.om.refs
  bound : ∀ n p, (n, p) ∈ C.bound ↔ (l3Key A n p, .l3Binding n p) ∈ s.om.refs
  mapped : ∀ x ns, (x, ns) ∈ C.mapped ↔ (natKey x, .natStatic ns) ∈ s.om.refs
  attr : C.attr = s.om.attr
  table : C.table = s.table

/-- Interfaces are created and deleted under plain names; a builder without a name may
delete under none. -/
def PluginUpdate.Plain (A : Asio) : PluginUpdate → Prop
  | .create i => PlainName A i.name
  | .delete n => n = "" ∨ PlainName A n
  | _ => True

/-- The names in the change set of an interface callback are plain. -/
def Delivery.Plain (A : Asio) (d : Delivery) : Prop := ∀ n ∈ d.names, n ≠ "" → PlainName A n

variable {A : Asio} {s s' : PluginState} {C C' : Configuration} {u : PluginUpdate}

/-! ## Writes and removals in a state that holds the tables -/

/-- An entry of a well-keyed store is an interface, a binding or a mapping under its key. -/
theorem WellKeyed.entry_cases {refs : Finset (String × ObjRef)} (h : WellKeyed A refs)
    {e : String × ObjRef} (he : e ∈ refs) :
    (∃ n, PlainName A n ∧ e = (n, .interface n)) ∨
      (∃ n p, PlainName A n ∧ e = (l3Key A n p, .l3Binding n p)) ∨
      ∃ x ns, e = (natKey x, .natStatic ns) := by
  obtain ⟨o, hsup, hkey, hown⟩ := h e he
  obtain ⟨key, r⟩ := e
  obtain rfl : key = o.key A := hkey
  cases o with
  | interface n =>
    cases r with
    | interface m =>
      obtain rfl : n = m := hown
      exact .inl ⟨n, hsup, rfl⟩
    | l3Binding _ _ => exact hown.elim
    | natStatic _ => exact hown.elim
  | l3Binding n p =>
    cases r with
    | interface _ => exact hown.elim
    | l3Binding m q =>
      obtain ⟨rfl, rfl⟩ : n = m ∧ p = q := hown
      exact .inr (.inl ⟨n, p, hsup, rfl⟩)
    | natStatic _ => exact hown.elim
  | natStatic id x =>
    cases r with
    | interface _ => exact hown.elim
    | l3Binding _ _ => exact hown.elim
    | natStatic ns => exact .inr (.inr ⟨x, ns, rfl⟩)

/-- In a well-keyed store, an interface is kept alive under its own key or under that of a
binding. -/
theorem exists_owner_iff {refs : Finset (String × ObjRef)} (h : WellKeyed A refs) (n : String) :
    (∃ e ∈ refs, e.2.itf = some n) ↔
      (n, .interface n) ∈ refs ∨ ∃ p, (l3Key A n p, .l3Binding n p) ∈ refs := by
  constructor
  · rintro ⟨e, he, hr⟩
    rcases h.entry_cases he with ⟨m, -, rfl⟩ | ⟨m, p, -, rfl⟩ | ⟨x, ns, rfl⟩
    · cases hr
      exact .inl he
    · cases hr
      exact .inr ⟨p, he⟩
    · cases hr
  · rintro (he | ⟨p, he⟩)
    · exact ⟨_, he, rfl⟩
    · exact ⟨_, he, rfl⟩

/-- A write under an object's own key adds this object to its table. -/
theorem Represents.write (h : Represents A s C) {key : String} {obj : VomObj} {table : NatTable}
    (hown : ∃ o : ManagedObject, o.Supported A ∧ o.Owns A (key, obj.ref))
    (hd : ∀ n, n ∈ C'.declared ↔ obj.ref = .interface n ∨ n ∈ C.declared)
    (hb : ∀ n p, (n, p) ∈ C'.bound ↔ obj.ref = .l3Binding n p ∨ (n, p) ∈ C.bound)
    (hm : ∀ x ns, (x, ns) ∈ C'.mapped ↔
      key = natKey x ∧ obj.ref = .natStatic ns ∨ (x, ns) ∈ C.mapped)
    (hattr : C'.attr = (s.om.write key obj).attr) (htable : C'.table = table) :
    Represents A ⟨s.om.write key obj, table⟩ C' := by
  obtain ⟨o, hsup, hkey, hobj⟩ := hown
  refine ⟨?_, fun n => ?_, fun n p => ?_, fun x ns => ?_, hattr, htable⟩
  · intro e he
    rw [Store.write_refs, Finset.mem_insert] at he
    rcases he with rfl | he
    · exact ⟨o, hsup, hkey, hobj⟩
    · exact h.keyed e he
  · rw [hd, h.declared, Store.write_refs, Finset.mem_insert, Prod.mk.injEq]
    refine or_congr_left ⟨fun hr => ⟨?_, hr.symm⟩, fun hr => hr.2.symm⟩
    rw [hr] at hobj
    cases o with
    | interface m => exact (hkey.trans hobj).symm
    | l3Binding _ _ => exact hobj.elim
    | natStatic _ _ => exact hobj.elim
  · rw [hb, h.bound, Store.write_refs, Finset.mem_insert, Prod.mk.injEq]
    refine or_congr_left ⟨fun hr => ⟨?_, hr.symm⟩, fun hr => hr.2.symm⟩
    rw [hr] at hobj
    cases o with
    | interface _ => exact hobj.elim
    | l3Binding m q =>
      obtain ⟨rfl, rfl⟩ : m = n ∧ q = p := hobj
      exact hkey.symm
    | natStatic _ _ => exact hobj.elim
  · rw [hm, h.mapped, Store.write_refs, Finset.mem_insert, Prod.mk.injEq]
    exact or_congr_left ⟨fun hr => ⟨hr.1.symm, hr.2.symm⟩, fun hr => ⟨hr.1.symm, hr.2.symm⟩⟩

/-- A removal takes what is under the key out of the tables; an interface that loses its last
entry is gone. -/
theorem Represents.remove (h : Represents A s C) {key : String} {table : NatTable}
    (hd : ∀ n, n ∈ C'.declared ↔ n ∈ C.declared ∧ n ≠ key)
    (hb : ∀ n p, (n, p) ∈ C'.bound ↔ (n, p) ∈ C.bound ∧ l3Key A n p ≠ key)
    (hm : ∀ x ns, (x, ns) ∈ C'.mapped ↔ (x, ns) ∈ C.mapped ∧ natKey x ≠ key)
    (hattr : ∀ n, (C'.attr n).isSome → C'.attr n = C.attr n) (htable : C'.table = table) :
    Represents A ⟨s.om.remove key, table⟩ C' := by
  have hkeyed : WellKeyed A (s.om.remove key).refs :=
    fun e he => h.keyed e (Store.mem_remove.mp he).1
  have hdeclared : ∀ n, n ∈ C'.declared ↔ (n, .interface n) ∈ (s.om.remove key).refs :=
    fun n => by rw [hd, h.declared, Store.mem_remove]
  have hbound : ∀ n p, (n, p) ∈ C'.bound ↔
      (l3Key A n p, .l3Binding n p) ∈ (s.om.remove key).refs :=
    fun n p => by rw [hb, h.bound, Store.mem_remove]
  refine ⟨hkeyed, hdeclared, hbound, fun x ns => ?_, funext fun n => ?_, htable⟩
  · rw [hm, h.mapped, Store.mem_remove]
  · have hlive : (C'.attr n).isSome ↔ ((s.om.remove key).attr n).isSome := by
      rw [C'.live, (s.om.remove key).live, exists_owner_iff hkeyed, hdeclared]
      simp only [hbound]
    cases ha : (s.om.remove key).attr n with
    | none => simpa [ha] using hlive
    | some a =>
      rw [hattr n (hlive.mpr (by rw [ha]; rfl)), h.attr]
      exact SharedStore.drop_attr_eq_some ha

/-! ## One update -/

theorem Represents.plainName (h : Represents A s C) {n : String} (hn : (C.attr n).isSome) :
    PlainName A n := by
  rw [h.attr, ← Store.find_isSome] at hn
  exact plainName_of_find h.keyed hn

theorem Represents.find_eq_map (h : Represents A s C) (n : String) :
    s.om.find n = (C.attr n).map fun a => ⟨n, a.type, a.state⟩ := by
  rw [h.attr]
  rfl

/-- The names of declared interfaces are no other object's keys. -/
theorem Represents.plainName_declared (h : Represents A s C) {n : String} (hn : n ∈ C.declared) :
    PlainName A n := h.plainName ((C.live n).mpr (.inl hn))

theorem Represents.plainName_bound (h : Represents A s C) {n : String} {p : RoutePrefix}
    (hn : (n, p) ∈ C.bound) : PlainName A n := h.plainName ((C.live n).mpr (.inr ⟨p, hn⟩))

theorem represents_declare (h : Represents A s C) {i : Interface} (hi : PlainName A i.name) :
    Represents A { s with om := s.om.write i.name (.interface i) }
      (C.declare i.name ⟨i.type, i.state⟩) := by
  refine h.write ⟨.interface i.name, hi, rfl, rfl⟩ (fun n => ?_) (fun n p => ?_) (fun x ns => ?_)
    (funext fun n => ?_) h.table
  · simp [Configuration.declare, VomObj.ref, eq_comm]
  · simp [Configuration.declare, VomObj.ref]
  · simp [Configuration.declare, VomObj.ref]
  · by_cases hn : n = i.name
    · simp [Configuration.declare, hn, Store.write, SharedStore.put_attr, ObjRef.itf]
    · have hn' : i.name ≠ n := fun heq => hn heq.symm
      simp [Configuration.declare, hn, hn', Store.write, SharedStore.put_attr, ObjRef.itf, h.attr]

theorem represents_undeclare (h : Represents A s C) {n : String} (hn : n = "" ∨ PlainName A n) :
    Represents A { s with om := s.om.remove n } (C.undeclare n) := by
  have hl3 : ∀ m p, (m, p) ∈ C.bound → l3Key A m p ≠ n := by
    intro m p hm heq
    rcases hn with rfl | hn
    · exact key_ne_empty (o := .l3Binding m p) (h.plainName_bound hm) heq
    · exact hn.not_l3Key m p heq.symm
  have hnat : ∀ x, natKey x ≠ n := by
    intro x heq
    rcases hn with rfl | hn
    · exact key_ne_empty (A := A) (o := .natStatic 0 x) rfl heq
    · exact hn.not_natKey x heq.symm
  refine h.remove (fun m => Iff.rfl) (fun m p => ?_) (fun x ns => ?_) (fun m hm => ?_) h.table
  · exact ⟨fun hm => ⟨hm, hl3 m p hm⟩, And.left⟩
  · exact ⟨fun hm => ⟨hm, hnat x⟩, And.left⟩
  · exact if_pos ((C.undeclare n).live m |>.mp hm)

theorem represents_bind (h : Represents A s C) {n : String} {p : RoutePrefix} {a : ItfAttr}
    (ha : C.attr n = some a) {i : Interface} (hi : i.name = n) :
    Represents A { s with om := s.om.write (l3Key A n p) (.l3Binding ⟨i, p⟩) } (C.bind n p a) := by
  have hsome : (C.attr n).isSome := by rw [ha]; rfl
  refine h.write ⟨.l3Binding n p, h.plainName hsome, rfl, hi.symm, rfl⟩ (fun m => ?_)
    (fun m q => ?_) (fun x ns => ?_) ?_ h.table
  · simp [Configuration.bind, VomObj.ref]
  · simp [Configuration.bind, VomObj.ref, hi, eq_comm]
  · simp [Configuration.bind, VomObj.ref]
  · rw [Store.write_l3Binding_attr (by rw [hi, Store.find_isSome, ← h.attr]; exact hsome)]
    exact (Function.update_eq_self_iff.mpr ha.symm).trans h.attr

theorem represents_unbind (hA : A.Lawful) (h : Represents A s C) (n : String) (p : RoutePrefix) :
    Represents A { s with om := s.om.remove (l3Key A n p) } (C.unbind n p) := by
  refine h.remove (fun m => ?_) (fun m q => ?_) (fun x ns => ?_) (fun m hm => ?_) h.table
  · exact ⟨fun hm => ⟨hm, (h.plainName_declared hm).not_l3Key n p⟩, And.left⟩
  · refine and_congr_right fun _ => not_congr ⟨fun heq => ?_, fun heq => ?_⟩
    · rw [Prod.mk.inj heq |>.1, Prod.mk.inj heq |>.2]
    · obtain ⟨hm, hq⟩ := l3Key_inj hA heq
      exact congrArg₂ Prod.mk hm hq
  · exact ⟨fun hm => ⟨hm, (l3Key_ne_natKey n p x).symm⟩, And.left⟩
  · exact if_pos ((C.unbind n p).live m |>.mp hm)

theorem represents_addMapping (h : Represents A s C) (x : UInt32) (ns : NatStatic) :
    Represents A ⟨s.om.write (natKey x) (.natStatic ns),
      Function.update s.table x (some (ns.inside, ns.outside))⟩ (C.addMapping x ns) := by
  refine h.write ⟨.natStatic 0 x, rfl, rfl, trivial⟩ (fun n => ?_) (fun n p => ?_)
    (fun y ms => ?_) ?_ ?_
  · simp [Configuration.addMapping, VomObj.ref]
  · simp [Configuration.addMapping, VomObj.ref]
  · simp only [Configuration.addMapping, Set.mem_insert_iff, Prod.mk.injEq, VomObj.ref,
      ObjRef.natStatic.injEq]
    refine or_congr_left (and_congr ?_ eq_comm)
    exact eq_comm.trans natKey_injective.eq_iff.symm
  · refine h.attr.trans (SharedStore.hold_attr fun n hn => ?_).symm
    cases hn
  · exact congrArg (fun t => Function.update t x _) h.table

theorem represents_clearMapping (h : Represents A s C) (x : UInt32) :
    Represents A ⟨s.om.remove (natKey x), Function.update s.table x none⟩ (C.clearMapping x) := by
  refine h.remove (fun n => ?_) (fun n p => ?_) (fun y ns => ?_) (fun _ _ => rfl) ?_
  · exact ⟨fun hn => ⟨hn, (h.plainName_declared hn).not_natKey x⟩, And.left⟩
  · exact ⟨fun hn => ⟨hn, l3Key_ne_natKey n p x⟩, And.left⟩
  · exact and_congr_right fun _ => not_congr natKey_injective.eq_iff.symm
  · exact congrArg (fun t => Function.update t x _) h.table

/-- Every update of the store is the same update of the tables. -/
theorem represents_step (hA : A.Lawful) (h : Represents A s C) (hu : u.Plain A)
    (hstep : u.step A s = some s') : ∃ C', C.step u = some C' ∧ Represents A s' C' := by
  cases u with
  | setState n b =>
    obtain rfl := Option.some.inj hstep
    refine ⟨_, rfl, h.keyed, h.declared, h.bound, h.mapped, funext fun m => ?_, h.table⟩
    show (if m = n then _ else _) = (s.om.setState n b).attr m
    rw [h.attr]
    rfl
  | create i =>
    obtain rfl := Option.some.inj hstep
    exact ⟨_, rfl, represents_declare h hu⟩
  | rewrite n =>
    obtain ⟨i, hi, rfl⟩ := Option.map_eq_some_iff.mp hstep
    rw [h.find_eq_map] at hi
    obtain ⟨a, ha, rfl⟩ := Option.map_eq_some_iff.mp hi
    refine ⟨C.declare n a, by simp [Configuration.step, ha], ?_⟩
    exact represents_declare (i := ⟨n, a.type, a.state⟩) h (h.plainName (by rw [ha]; rfl))
  | delete n =>
    obtain rfl := Option.some.inj hstep
    exact ⟨_, rfl, represents_undeclare h hu⟩
  | bind n p =>
    obtain ⟨i, hi, rfl⟩ := Option.map_eq_some_iff.mp hstep
    rw [h.find_eq_map] at hi
    obtain ⟨a, ha, rfl⟩ := Option.map_eq_some_iff.mp hi
    refine ⟨C.bind n p a, by simp [Configuration.step, ha], represents_bind h ha rfl⟩
  | unbind n p =>
    obtain ⟨i, hi, rfl⟩ := Option.map_eq_some_iff.mp hstep
    rw [h.find_eq_map] at hi
    obtain ⟨a, ha, -⟩ := Option.map_eq_some_iff.mp hi
    exact ⟨C.unbind n p, by simp [Configuration.step, ha], represents_unbind hA h n p⟩
  | map x ns =>
    obtain rfl := Option.some.inj hstep
    exact ⟨_, rfl, represents_addMapping h x ns⟩
  | unmap x =>
    obtain rfl := Option.some.inj hstep
    exact ⟨_, rfl, represents_clearMapping h x⟩

/-! ## The tables a state holds -/

/-- Every well-keyed state holds some tables. -/
theorem exists_represents (hs : WellKeyed A s.om.refs) : ∃ C, Represents A s C := by
  let C : Configuration :=
    { declared := {n | (n, ObjRef.interface n) ∈ s.om.refs}
      bound := {b | (l3Key A b.1 b.2, ObjRef.l3Binding b.1 b.2) ∈ s.om.refs}
      mapped := {m | (natKey m.1, ObjRef.natStatic m.2) ∈ s.om.refs}
      table := s.table
      attr := s.om.attr
      live := fun n => (s.om.live n).trans (exists_owner_iff hs n) }
  exact ⟨C, hs, fun _ => Iff.rfl, fun _ _ => Iff.rfl, fun _ _ => Iff.rfl, rfl, rfl⟩

/-- A state holds no other tables. -/
theorem Represents.unique (h : Represents A s C) (h' : Represents A s C') : C = C' := by
  ext1
  · exact Set.ext fun n => (h.declared n).trans (h'.declared n).symm
  · exact Set.ext fun b => (h.bound b.1 b.2).trans (h'.bound b.1 b.2).symm
  · exact Set.ext fun m => (h.mapped m.1 m.2).trans (h'.mapped m.1 m.2).symm
  · exact h.table.trans h'.table.symm
  · exact h.attr.trans h'.attr.symm

theorem lastName_mem {cs : List Change} (h : lastName cs ≠ "") : lastName cs ∈ namesIn cs := by
  by_cases hnil : namesIn cs = []
  · exact absurd (by rw [lastName, hnil]; rfl) h
  · exact LoopVariables.getLastD_mem hnil ""

/-- A change set with plain names asks for updates of objects with plain names. -/
theorem Delivery.Plain.asks {d : Delivery} (hd : d.Plain A) (hu : d.Asks A u) : u.Plain A := by
  obtain ⟨cb, event, changes⟩ := d
  obtain ⟨-, cs, rfl, hasks⟩ := hu
  have hinterface : (∀ n ∈ namesIn cs, n ≠ "" → PlainName A n) → ∀ stale,
      InterfaceAsks stale cs u → u.Plain A := by
    intro hnames stale hasks
    cases u with
    | create i =>
      obtain ⟨-, hbuild, rfl⟩ := hasks
      exact hnames _ (lastName_mem hbuild.1) hbuild.1
    | delete n =>
      obtain ⟨-, -, -, rfl⟩ := hasks
      by_cases hne : lastName cs = ""
      · exact .inl hne
      · exact .inr (hnames _ (lastName_mem hne) hne)
    | _ => trivial
  cases cb with
  | ietfInterfaceCreate stale => exact hinterface hd stale hasks
  | ocInterfacesConfig stale => exact hinterface hd stale hasks
  | ietfInterfaceIpv46AddressChange => cases u <;> trivial
  | natMappingTableConfig stale => cases u <;> trivial

theorem afterAll_tables (env : Env) (hA : env.asio.Lawful) (w : World) (ds : List Delivery)
    (C : Configuration) (hw : Represents env.asio w.state C)
    (hds : ∀ d ∈ ds, d.Plain env.asio) :
    ∃ uss C', List.Forall₂ (fun d us => ∀ u ∈ us, d.Asks env.asio u) ds uss ∧
      Runs.run Configuration.step C uss.flatten = some C' ∧
      Represents env.asio (w.afterAll env ds).state C' := by
  obtain ⟨uss, huss, hrun⟩ := afterAll_updates env w ds
  have hplain : ∀ u ∈ uss.flatten, u.Plain env.asio := by
    clear hrun
    induction huss with
    | nil => simp
    | cons hd _ ih =>
      rw [List.forall_mem_cons] at hds
      rw [List.flatten_cons, List.forall_mem_append]
      exact ⟨fun u hu => hds.1.asks (hd u hu), ih hds.2⟩
  have hmeets : Runs.Meets (PluginUpdate.step env.asio) (fun _ u => u.Plain env.asio) w.state
      uss.flatten := Runs.meets_of_forall hplain
  have hfollow : ∃ C', Runs.run Configuration.step C uss.flatten = some C' ∧
      Represents env.asio (w.afterAll env ds).state C' := by
    refine Runs.simulation ?_ hw hmeets hrun
    exact fun _ _ _ _ hR hu hstep => represents_step hA hR hu hstep
  obtain ⟨C', hrun', hC'⟩ := hfollow
  exact ⟨uss, C', huss, hrun', hC'⟩

end Sweetcomb
