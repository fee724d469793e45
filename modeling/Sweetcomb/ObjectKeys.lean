import Sweetcomb.Callbacks
import Sweetcomb.InterfaceLeaves
import Sweetcomb.NatChangeSet

/-!
# The keys of managed objects

Interfaces, bindings and NAT mappings share the one key space of `OM`. Their keys are
built apart from each other: a name, a name and a prefix behind `l3_`, an index. They do
not collide as long as no interface is named like another object's key, and only one NAT
instance is used; VPP has a single NAT database, which is the instance with id 0.
-/

namespace Sweetcomb

inductive ManagedObject
  | interface (name : String)
  | l3Binding (itf : String) (pfx : RoutePrefix)
  | natStatic (id xindex : UInt32)
deriving DecidableEq, Repr

namespace ManagedObject

/-- The key an object is written under; a mapping is written without its instance. -/
def key (A : Asio) : ManagedObject → String
  | interface name => name
  | l3Binding itf pfx => l3Key A itf pfx
  | natStatic _ xindex => natKey xindex

/-- A stored entry that is the object, or one of the object's values. -/
def Owns (A : Asio) (o : ManagedObject) (e : String × ObjRef) : Prop :=
  e.1 = o.key A ∧
    match o, e.2 with
    | interface n, .interface m => n = m
    | l3Binding n p, .l3Binding m q => n = m ∧ p = q
    | natStatic _ _, .natStatic _ => True
    | _, _ => False

/-- An interface name that is neither empty nor the key of a binding or a mapping. -/
structure PlainName (A : Asio) (name : String) : Prop where
  nonempty : name ≠ ""
  not_l3Key : ∀ itf pfx, name ≠ l3Key A itf pfx
  not_natKey : ∀ xindex, name ≠ natKey xindex

/-- The objects the three callbacks are meant for: interfaces with plain names, bindings
of these, and mappings of instance 0. -/
def Supported (A : Asio) : ManagedObject → Prop
  | interface name => PlainName A name
  | l3Binding itf _ => PlainName A itf
  | natStatic id _ => id = 0

variable {A : Asio} {o o' : ManagedObject}

theorem prefix_toString_inj (hA : A.Lawful) {p q : RoutePrefix}
    (h : p.toString A = q.toString A) : p = q := by
  have hlen : ∀ n : UInt8, '/' ∉ n.toNat.repr.toList :=
    fun n hn => absurd (Text.isDigit_of_mem_repr hn) (by decide)
  obtain ⟨haddr, hplen⟩ := Text.append_sep_inj '/' (hlen p.len) (hlen q.len) h
  have ha := hA.toString_injective haddr
  have hl := UInt8.toNat_inj.mp (Text.repr_injective hplen)
  obtain ⟨a, n⟩ := p
  obtain ⟨b, m⟩ := q
  exact congrArg₂ RoutePrefix.mk ha hl

theorem underscore_not_mem_toString (hA : A.Lawful) (p : RoutePrefix) :
    '_' ∉ (p.toString A).toList := by
  unfold RoutePrefix.toString
  rw [String.toList_append, String.toList_append, List.mem_append, List.mem_append]
  rintro ((h | h) | h)
  · exact hA.underscore_free _ h
  · exact absurd h (by decide)
  · exact absurd (Text.isDigit_of_mem_repr h) (by decide)

/-- The name may hold underscores: the key is cut at its last one. -/
theorem l3Key_inj (hA : A.Lawful) {n m : String} {p q : RoutePrefix}
    (h : l3Key A n p = l3Key A m q) : n = m ∧ p = q := by
  obtain ⟨hname, hpfx⟩ := Text.append_sep_inj '_'
    (underscore_not_mem_toString hA p) (underscore_not_mem_toString hA q) h
  have hl := congrArg String.toList hname
  rw [String.toList_append, String.toList_append] at hl
  exact ⟨String.toList_inj.mp (List.append_cancel_left hl), prefix_toString_inj hA hpfx⟩

/-- An index starts with a digit, the key of a binding does not. -/
theorem l3Key_ne_natKey (n : String) (p : RoutePrefix) (x : UInt32) :
    l3Key A n p ≠ natKey x := by
  intro h
  have hl : 'l' ∈ (natKey x).toList := by
    rw [← h, l3Key]
    simp
  exact absurd (Text.isDigit_of_mem_repr hl) (by decide)

/-- Supported objects are told apart by their keys. -/
theorem key_inj (hA : A.Lawful) (ho : o.Supported A) (ho' : o'.Supported A)
    (h : o.key A = o'.key A) : o = o' := by
  cases o with
  | interface n =>
    cases o' with
    | interface m => exact congrArg interface h
    | l3Binding m q => exact (ho.not_l3Key m q h).elim
    | natStatic id x => exact (ho.not_natKey x h).elim
  | l3Binding n p =>
    cases o' with
    | interface m => exact (ho'.not_l3Key n p h.symm).elim
    | l3Binding m q =>
      obtain ⟨hn, hp⟩ := l3Key_inj hA h
      rw [hn, hp]
    | natStatic id x => exact (l3Key_ne_natKey n p x h).elim
  | natStatic id x =>
    cases o' with
    | interface m => exact (ho'.not_natKey x h.symm).elim
    | l3Binding m q => exact (l3Key_ne_natKey m q x h.symm).elim
    | natStatic id' y =>
      have hid : id = id' := ho.trans ho'.symm
      rw [hid, natKey_injective h]

theorem key_ne_empty (ho : o.Supported A) : o.key A ≠ "" := by
  cases o with
  | interface n => exact ho.nonempty
  | l3Binding n p =>
    intro h
    have hl := congrArg String.toList h
    simp [key, l3Key] at hl
  | natStatic id x => exact Nat.repr_ne_empty

end ManagedObject

open ManagedObject

/-! ## Stores in which every entry is an object under its key -/

/-- Every entry is one of a supported object, under that object's key. -/
def WellKeyed (A : Asio) (refs : Finset (String × ObjRef)) : Prop :=
  ∀ e ∈ refs, ∃ o : ManagedObject, o.Supported A ∧ o.Owns A e

/-- An operation on a supported object, under its key; or a removal under no key at all. -/
def Keyed (A : Asio) : OmOp → Prop
  | .write key obj => ∃ o : ManagedObject, o.Supported A ∧ o.Owns A (key, obj.ref)
  | .remove key => key = "" ∨ ∃ o : ManagedObject, o.Supported A ∧ key = o.key A

variable {env : Env} {w : World}

theorem wellKeyed_applyTo {b : Books} {op : OmOp} (hb : WellKeyed env.asio b.2)
    (hop : Keyed env.asio op) : WellKeyed env.asio (OmOp.applyTo env b op).2 := by
  cases op with
  | write key obj =>
    simp only [OmOp.applyTo]
    split_ifs
    · intro e he
      rcases Finset.mem_insert.mp he with rfl | he
      · exact hop
      · exact hb e he
    · exact hb
  | remove key => exact fun e he => hb e (Finset.mem_filter.mp he).1

theorem wellKeyed_foldl {b : Books} {ops : List OmOp} (hb : WellKeyed env.asio b.2)
    (hops : ∀ op ∈ ops, Keyed env.asio op) :
    WellKeyed env.asio (ops.foldl (OmOp.applyTo env) b).2 := by
  induction ops generalizing b with
  | nil => exact hb
  | cons op ops ih =>
    rw [List.forall_mem_cons] at hops
    exact ih (wellKeyed_applyTo hb hops.1) hops.2

theorem Issues.wellKeyed {w' : World} (h : Issues env (Keyed env.asio) w w')
    (hw : WellKeyed env.asio w.om.refs) : WellKeyed env.asio w'.om.refs :=
  h.invariant (fun _ _ hop hb => wellKeyed_applyTo hb hop) hw

/-- What keeps an interface alive is the interface itself or a binding on it. -/
theorem plainName_of_find {A : Asio} {om : Store} {n : String} (hom : WellKeyed A om.refs)
    (hn : (om.find n).isSome) : PlainName A n := by
  rw [Store.find_isSome, om.live] at hn
  obtain ⟨⟨key, r⟩, he, hr⟩ := hn
  obtain ⟨o, hsup, -, hown⟩ := hom _ he
  cases r with
  | interface m =>
    cases hr
    cases o with
    | interface n => exact hown ▸ hsup
    | l3Binding _ _ => exact hown.elim
    | natStatic _ _ => exact hown.elim
  | l3Binding m q =>
    cases hr
    cases o with
    | interface n => exact hown.elim
    | l3Binding _ _ => exact hown.1 ▸ hsup
    | natStatic _ _ => exact hown.elim
  | natStatic x => cases hr

/-! ## The callbacks keep to the keys -/

section Callbacks

theorem keyed_interface {A : Asio} {i : Interface} (h : PlainName A i.name) :
    Keyed A (.write i.name (.interface i)) := ⟨.interface i.name, h, rfl, rfl⟩

/-- The names and the NAT instance a delivery is about are supported. -/
def Delivery.Supported (A : Asio) (d : Delivery) : Prop :=
  ∀ cs, d.changes = .ok cs →
    match d.cb with
    | .ietfInterfaceCreate _ | .ocInterfacesConfig _ => ∀ n ∈ namesIn cs, n ≠ "" → PlainName A n
    | .ietfInterfaceIpv46AddressChange => True
    | .natMappingTableConfig _ => ∀ c ∈ cs, c.xpath.keyValue "instance" "id" = some "0"

/-- Interfaces are bound to and modified under names that the store knows; these are plain. -/
theorem delivery_keyed {d : Delivery} (hd : d.Supported env.asio)
    (hw : WellKeyed env.asio w.om.refs) :
    Issues env (Keyed env.asio) w (d.run env w).2 := by
  have hnames : ∀ n ∈ d.names, n ≠ "" → PlainName env.asio n := by
    intro n hn
    obtain ⟨cb, event, changes⟩ := d
    cases changes with
    | error rc => cases cb <;> cases hn
    | ok cs =>
      cases cb with
      | ietfInterfaceCreate stale => exact hd cs rfl n hn
      | ocInterfacesConfig stale => exact hd cs rfl n hn
      | ietfInterfaceIpv46AddressChange => cases hn
      | natMappingTableConfig stale => cases hn
  apply delivery_issues (P := fun w => WellKeyed env.asio w.om.refs)
  · exact fun w w' h hw => h.wellKeyed hw
  · intro w n i pfx hw hi
    have hplain : PlainName env.asio n := plainName_of_find hw (by rw [hi]; rfl)
    exact ⟨⟨.l3Binding n pfx, hplain, rfl, (Store.name_of_find hi).symm, rfl⟩,
      .inr ⟨.l3Binding n pfx, hplain, rfl⟩⟩
  · exact fun i hi hne => keyed_interface (hnames _ hi hne)
  · exact fun i hi => keyed_interface (plainName_of_find hw hi)
  · intro n hn
    by_cases hne : n = ""
    · exact .inl hne
    · exact .inr ⟨.interface n, hnames n (hn.resolve_right hne) hne, rfl⟩
  · exact fun x n => ⟨⟨.natStatic 0 x, rfl, rfl, trivial⟩, .inr ⟨.natStatic 0 x, rfl, rfl⟩⟩
  · exact hw

/-- A whole run issues operations on supported objects under their keys. -/
theorem afterAll_keyed (ds : List Delivery) (hds : ∀ d ∈ ds, d.Supported env.asio)
    (hw : WellKeyed env.asio w.om.refs) : Issues env (Keyed env.asio) w (w.afterAll env ds) :=
  afterAll_issues (fun _ _ h hw => h.wellKeyed hw) ds
    (fun _ hw d hd => delivery_keyed (hds d hd) hw) hw

end Callbacks

/-! ## Removals -/

/-- A removal between two stores, made for one object or for none: each entry is one of a
supported object, and is still there unless it is one of the removed object. -/
def RemovesOne (A : Asio) (key : String) (before after : Finset (String × ObjRef)) : Prop :=
  ∃ o : Option ManagedObject, (∀ x ∈ o, x.Supported A ∧ key = x.key A) ∧
    ∀ e ∈ before, ∃ o' : ManagedObject, o'.Supported A ∧ o'.Owns A e ∧ (o ≠ some o' → e ∈ after)

theorem removesOne_applyTo (hA : env.asio.Lawful) {b : Books} {key : String}
    (hb : WellKeyed env.asio b.2) (hkey : Keyed env.asio (.remove key)) :
    RemovesOne env.asio key b.2 (OmOp.applyTo env b (.remove key)).2 := by
  have hstay : ∀ e ∈ b.2, e.1 ≠ key → e ∈ (OmOp.applyTo env b (.remove key)).2 :=
    fun e he hne => Finset.mem_filter.mpr ⟨he, hne⟩
  rcases hkey with rfl | ⟨o, ho, rfl⟩
  -- the builder was given no name
  · refine ⟨none, by simp, fun e he => ?_⟩
    obtain ⟨o', hsup, hown⟩ := hb e he
    refine ⟨o', hsup, hown, fun _ => hstay e he ?_⟩
    rw [hown.1]
    exact key_ne_empty hsup
  · refine ⟨some o, by simpa using ho, fun e he => ?_⟩
    obtain ⟨o', hsup, hown⟩ := hb e he
    refine ⟨o', hsup, hown, fun hne => hstay e he ?_⟩
    rw [hown.1]
    exact fun h => hne (congrArg some (key_inj hA ho hsup h.symm))

/-- Supported objects have keys of their own; and every removal of a run leaves the other
objects in the store. -/
theorem keys_distinct (env : Env) (hA : env.asio.Lawful) :
    (∀ o o' : ManagedObject, o.Supported env.asio → o'.Supported env.asio → o ≠ o' →
      o.key env.asio ≠ o'.key env.asio) ∧
    ∀ (w : World) (ds : List Delivery), WellKeyed env.asio w.om.refs →
      (∀ d ∈ ds, d.Supported env.asio) →
      ∃ ops, (w.afterAll env ds).ops = w.ops ++ ops ∧
        (w.afterAll env ds).om.refs = refsAfter env w.books ops ∧
        ∀ pre key post, ops = pre ++ .remove key :: post →
          RemovesOne env.asio key (refsAfter env w.books pre)
            (refsAfter env w.books (pre ++ [.remove key])) := by
  refine ⟨fun o o' ho ho' hne h => hne (key_inj hA ho ho' h), fun w ds hw hds => ?_⟩
  obtain ⟨ops, hbooks, hkeyed⟩ := afterAll_keyed ds hds hw
  refine ⟨ops, ?_, congrArg Prod.snd hbooks, ?_⟩
  · exact (congrArg Prod.fst hbooks).trans (foldl_applyTo_ops ops w.books)
  · rintro pre key post rfl
    have hpre : WellKeyed env.asio (refsAfter env w.books pre) :=
      wellKeyed_foldl hw fun op hop => hkeyed op (List.mem_append_left _ hop)
    unfold refsAfter
    rw [List.foldl_append]
    exact removesOne_applyTo hA hpre (hkeyed _ (by simp))

/-- A mapping of this instance is created, then an interface is deleted. -/
def mappingThenDeletion (id : UInt32) (name : String) : List Delivery :=
  [⟨.natMappingTableConfig (.garbage false .null), .verify,
      .ok (NatEntry.reported id [.create (exampleMapping 1 "10.0.0.1")])⟩,
    ⟨.ietfInterfaceCreate (.garbage false false), .verify,
      .ok (LeafChange.ietf (LeafChange.deletion name true))⟩]

theorem plainName_loop0 : PlainName Env.accepting.asio "loop0" where
  nonempty := by decide
  not_l3Key itf pfx h := by
    have hl := congrArg String.toList h
    simp [l3Key] at hl
  not_natKey x h := by
    have hl : 'l' ∈ (natKey x).toList := by
      rw [← h]
      decide
    exact absurd (Text.isDigit_of_mem_repr hl) (by decide)

theorem loop0_keys_distinct :
    let A := Env.accepting.asio
    let w := World.ofInterfaces [⟨"loop0", "ETHERNET", true⟩]
    let w' := w.afterAll .accepting (mappingThenDeletion 0 "loop0")
    (ManagedObject.interface "loop0").key A ≠ (ManagedObject.natStatic 0 1).key A ∧
    ∃ ops, w'.ops = w.ops ++ ops ∧ w'.om.refs = refsAfter .accepting w.books ops ∧
      ∀ pre key post, ops = pre ++ .remove key :: post →
        RemovesOne A key (refsAfter .accepting w.books pre)
          (refsAfter .accepting w.books (pre ++ [.remove key])) := by
  intro A w w'
  obtain ⟨hkeys, hruns⟩ := keys_distinct .accepting Asio.uncompressed_lawful
  refine ⟨hkeys _ _ plainName_loop0 rfl (by decide), hruns w _ ?_ ?_⟩
  · intro e he
    obtain rfl : e = ("loop0", .interface "loop0") := by
      simpa [w, World.ofInterfaces, VomObj.ref] using he
    exact ⟨.interface "loop0", plainName_loop0, rfl, rfl⟩
  · intro d hd cs hcs
    rcases List.mem_cons.mp hd with rfl | hd
    · cases hcs
      show ∀ c ∈ _, _
      decide
    · obtain rfl := List.mem_singleton.mp hd
      cases hcs
      intro n hn _
      obtain rfl : n = "loop0" := by
        simpa [namesIn, LeafChange.ietf, LeafChange.deletion, LeafChange.event,
          LeafEvent.builderName] using hn
      exact plainName_loop0

/-- A mapping goes by its index alone, and a name may be the key of another object: deleting
the interface `1` takes the mapping 1 with it. -/
theorem keys_collide :
    let A := Env.accepting.asio
    let loop0 := ManagedObject.l3Binding "loop0" ⟨.v4 10 0 0 1, 24⟩
    let mapping := ("1", ObjRef.natStatic ⟨.v4 10 0 0 1, .v4 1 1 1 1⟩)
    let w := World.ofInterfaces [⟨"1", "ETHERNET", true⟩]
    (ManagedObject.natStatic 0 1).key A = (ManagedObject.natStatic 1 1).key A ∧
    (ManagedObject.interface "l3_loop0_10.0.0.1/24").key A = loop0.key A ∧
    (ManagedObject.interface "1").key A = (ManagedObject.natStatic 0 1).key A ∧
    mapping ∈ (w.afterAll .accepting ((mappingThenDeletion 0 "1").take 1)).om.refs ∧
    mapping ∉ (w.afterAll .accepting (mappingThenDeletion 0 "1")).om.refs := by
  decide

end Sweetcomb
