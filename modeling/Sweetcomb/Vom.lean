import Sweetcomb.Asio
import Sweetcomb.Lib.SharedStore

/-!
# VOM: the objects and the object store

`OM` is one flat space of keys. `OM::write(key, obj)` adds or updates `obj` among the
objects held under `key`, `OM::remove(key)` drops them all. A binding shares the
interface it is made on, so an interface stays findable until its key and its last
binding are gone.
-/

namespace Sweetcomb

/-- `VOM::route::prefix_t`. -/
structure RoutePrefix where
  address : Address
  len : UInt8
deriving DecidableEq, Repr

/-- `prefix_t::to_string`. -/
def RoutePrefix.toString (A : Asio) (p : RoutePrefix) : String :=
  A.toString p.address ++ "/" ++ p.len.toNat.repr

/-- `VOM::interface`. -/
structure Interface where
  name : String
  type : String
  state : Bool
deriving DecidableEq, Repr

/-- `VOM::l3_binding`. -/
structure L3Binding where
  itf : Interface
  pfx : RoutePrefix
deriving DecidableEq, Repr

/-- `VOM::nat_static`. -/
structure NatStatic where
  inside : Address
  outside : Address
deriving DecidableEq, Repr

/-- An object as it is given to `OM::write`. -/
inductive VomObj
  | interface (i : Interface)
  | l3Binding (b : L3Binding)
  | natStatic (n : NatStatic)
deriving DecidableEq, Repr

/-- A stored object; interfaces and the interfaces of bindings are shared by name. -/
inductive ObjRef
  | interface (name : String)
  | l3Binding (itf : String) (pfx : RoutePrefix)
  | natStatic (n : NatStatic)
deriving DecidableEq, Repr

/-- The interface an object keeps alive. -/
def ObjRef.itf : ObjRef → Option String
  | interface name => some name
  | l3Binding name _ => some name
  | natStatic _ => none

def VomObj.ref : VomObj → ObjRef
  | interface i => .interface i.name
  | l3Binding b => .l3Binding b.itf.name b.pfx
  | natStatic n => .natStatic n

/-- What VOM keeps of a live interface. -/
structure ItfAttr where
  type : String
  state : Bool
deriving DecidableEq, Repr, Inhabited

abbrev Store := SharedStore String ItfAttr ObjRef.itf

namespace Store

/-- The effect of `OM::write` on the store. -/
def write (s : Store) (key : String) : VomObj → Store
  | .interface i => s.put key (.interface i.name) ⟨i.type, i.state⟩
  -- the interface of a binding is shared as it is in the store
  | .l3Binding b => s.hold key (.l3Binding b.itf.name b.pfx) ⟨b.itf.type, b.itf.state⟩
  | .natStatic n => s.hold key (.natStatic n) default

/-- The effect of `OM::remove`. -/
def remove (s : Store) (key : String) : Store := s.drop key

/-- `interface::find`. -/
def find (s : Store) (name : String) : Option Interface :=
  (s.attr name).map fun a => ⟨name, a.type, a.state⟩

/-- `interface::set(admin_state)` on the stored object. -/
def setState (s : Store) (name : String) (state : Bool) : Store :=
  s.adjust name fun a => { a with state }

variable {s : Store} {key name : String} {obj : VomObj} {b : Bool}

@[simp] theorem write_refs : (s.write key obj).refs = insert (key, obj.ref) s.refs := by
  cases obj <;> rfl

@[simp] theorem mem_remove {e : String × ObjRef} :
    e ∈ (s.remove key).refs ↔ e ∈ s.refs ∧ e.1 ≠ key := SharedStore.mem_drop

theorem find_eq_none : s.find name = none ↔ s.attr name = none := Option.map_eq_none_iff

theorem find_isSome : (s.find name).isSome = (s.attr name).isSome := Option.isSome_map

@[simp] theorem find_setState_isSome {n : String} :
    ((s.setState name b).find n).isSome = (s.find n).isSome := by
  rw [find_isSome, find_isSome]
  exact SharedStore.isSome_adjust

theorem find_setState_of_ne {n : String} (h : n ≠ name) :
    (s.setState name b).find n = s.find n := by
  simp [find, setState, SharedStore.adjust_attr, h]

theorem find_setState_self {i : Interface} (h : s.find name = some i) :
    (s.setState name b).find name = some { i with state := b } := by
  simp only [find, Option.map_eq_some_iff] at h
  obtain ⟨a, ha, rfl⟩ := h
  simp [find, setState, SharedStore.adjust_attr, ha]

theorem name_of_find {i : Interface} (h : s.find name = some i) : i.name = name := by
  simp only [find, Option.map_eq_some_iff] at h
  obtain ⟨a, -, rfl⟩ := h
  rfl

theorem find_write_interface {i : Interface} :
    (s.write key (.interface i)).find i.name = some i := by
  simp [find, write, SharedStore.put_attr, ObjRef.itf]

theorem find_write_interface_of_ne {i : Interface} {n : String} (h : n ≠ i.name) :
    (s.write key (.interface i)).find n = s.find n := by
  simp [find, write, SharedStore.put_attr, ObjRef.itf, h.symm]

theorem eq_of_find {s s' : Store} (hrefs : s.refs = s'.refs)
    (hfind : ∀ n, s.find n = s'.find n) : s = s' := by
  apply SharedStore.eq_of_refs hrefs
  intro n a ha
  have h := hfind n
  simp only [find, ha, Option.map_some] at h
  obtain ⟨⟨t, b⟩, hb, heq⟩ := Option.map_eq_some_iff.mp h.symm
  simp only [Interface.mk.injEq, true_and] at heq
  rw [hb, heq.1, heq.2]

/-- Writing an interface that is held as it is changes nothing. -/
theorem write_interface_eq_self {om : Store} {i : Interface}
    (hkey : (i.name, .interface i.name) ∈ om.refs) (hi : om.find i.name = some i) :
    om.write i.name (.interface i) = om := by
  apply eq_of_find
  · rw [write_refs]
    exact Finset.insert_eq_of_mem hkey
  · intro n
    by_cases hn : n = i.name
    · rw [hn, find_write_interface, hi]
    · exact find_write_interface_of_ne hn

theorem write_natStatic_eq_self {om : Store} {key : String} {ns : NatStatic}
    (hkey : (key, .natStatic ns) ∈ om.refs) : om.write key (.natStatic ns) = om := by
  ext1
  · exact Finset.insert_eq_of_mem hkey
  · exact SharedStore.hold_attr fun n hn => by cases hn

/-- A binding leaves the interface it is on as it is. -/
theorem write_l3Binding_attr {om : Store} {key : String} {b : L3Binding}
    (hitf : (om.find b.itf.name).isSome) : (om.write key (.l3Binding b)).attr = om.attr := by
  apply SharedStore.hold_attr
  intro n hn
  obtain rfl : b.itf.name = n := Option.some.inj hn
  rwa [← find_isSome]

/-- No removal brings an interface to life. -/
theorem find_of_remove {om : Store} {key n : String} {i : Interface}
    (h : (om.remove key).find n = some i) : om.find n = some i := by
  obtain ⟨a, ha, rfl⟩ := Option.map_eq_some_iff.mp h
  exact Option.map_eq_some_iff.mpr ⟨a, SharedStore.drop_attr_eq_some ha, rfl⟩

/-- Writing a binding that is held, on a live interface, changes nothing. -/
theorem write_l3Binding_eq_self {om : Store} {key : String} {b : L3Binding}
    (hkey : (key, .l3Binding b.itf.name b.pfx) ∈ om.refs)
    (hitf : (om.find b.itf.name).isSome) : om.write key (.l3Binding b) = om := by
  ext1
  · exact Finset.insert_eq_of_mem hkey
  · exact write_l3Binding_attr hitf

end Store

end Sweetcomb
