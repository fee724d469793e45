import Sweetcomb.PluginUpdates

/-!
# Every difference was asked for

Whatever the callbacks are given, in whatever order: what is in the store and in the table
after a run was there before, or a change set of the run has asked for it; and what is gone
was removed under a key that a change set has named.
-/

namespace Sweetcomb

namespace PluginUpdate

/-- The entry an update puts into the store. -/
def Puts (A : Asio) (e : String × ObjRef) : PluginUpdate → Prop
  | create i => e = (i.name, .interface i.name)
  | rewrite n => e = (n, .interface n)
  | bind n p => e = (l3Key A n p, .l3Binding n p)
  | map x ns => e = (natKey x, .natStatic ns)
  | _ => False

/-- The key an update drops from the store. -/
def Drops (A : Asio) (key : String) : PluginUpdate → Prop
  | delete n => key = n
  | unbind n p => key = l3Key A n p
  | unmap x => key = natKey x
  | _ => False

end PluginUpdate

/-- The differences between two states come from updates that were asked for. -/
structure Accounted (A : Asio) (asked : PluginUpdate → Prop) (s s' : PluginState) : Prop where
  added : ∀ e ∈ s'.om.refs, e ∈ s.om.refs ∨ ∃ u, asked u ∧ u.Puts A e
  removed : ∀ e ∈ s.om.refs, e ∈ s'.om.refs ∨ ∃ u, asked u ∧ u.Drops A e.1
  interfaces : ∀ n i, s'.om.find n = some i →
    s.om.find n = some i ∨ asked (.setState n i.state) ∨ asked (.create i)
  table : ∀ x, s'.table x = s.table x ∨ (s'.table x = none ∧ asked (.unmap x)) ∨
    ∃ ns, s'.table x = some (ns.inside, ns.outside) ∧ asked (.map x ns)

variable {A : Asio} {asked : PluginUpdate → Prop} {s t s' : PluginState} {u : PluginUpdate}

theorem Accounted.refl : Accounted A asked s s where
  added _ he := .inl he
  removed _ he := .inl he
  interfaces _ _ h := .inl h
  table _ := .inl rfl

/-! ## One update more -/

/-- A write under a key of its own. -/
theorem Accounted.write (h : Accounted A asked s t) {key : String} {obj : VomObj}
    {table : NatTable} (hu : asked u) (hputs : u.Puts A (key, obj.ref))
    (hfind : ∀ n i, (t.om.write key obj).find n = some i →
      t.om.find n = some i ∨ asked (.setState n i.state) ∨ asked (.create i))
    (htable : ∀ x, table x = t.table x ∨ (table x = none ∧ asked (.unmap x)) ∨
      ∃ ns, table x = some (ns.inside, ns.outside) ∧ asked (.map x ns)) :
    Accounted A asked s ⟨t.om.write key obj, table⟩ where
  added e he := by
    rw [Store.write_refs, Finset.mem_insert] at he
    rcases he with rfl | he
    · exact .inr ⟨u, hu, hputs⟩
    · exact h.added e he
  removed e he := by
    rw [Store.write_refs, Finset.mem_insert]
    exact (h.removed e he).imp_left .inr
  interfaces n i hi := by
    rcases hfind n i hi with hi | hi
    · exact h.interfaces n i hi
    · exact .inr hi
  table x := by
    dsimp only
    rcases htable x with hx | hx
    · rw [hx]
      exact h.table x
    · exact .inr hx

theorem Accounted.remove (h : Accounted A asked s t) {key : String} {table : NatTable}
    (hu : asked u) (hdrops : u.Drops A key)
    (htable : ∀ x, table x = t.table x ∨ (table x = none ∧ asked (.unmap x))) :
    Accounted A asked s ⟨t.om.remove key, table⟩ where
  added e he := h.added e (Store.mem_remove.mp he).1
  removed e he := by
    rw [Store.mem_remove]
    by_cases hkey : e.1 = key
    · exact .inr ⟨u, hu, hkey ▸ hdrops⟩
    · exact (h.removed e he).imp_left fun he => ⟨he, hkey⟩
  interfaces n i hi := h.interfaces n i (Store.find_of_remove hi)
  table x := by
    dsimp only
    rcases htable x with hx | hx
    · rw [hx]
      exact h.table x
    · exact .inr (.inl hx)

theorem Accounted.step (h : Accounted A asked s t) (hu : asked u) (hstep : u.step A t = some s') :
    Accounted A asked s s' := by
  cases u with
  | setState n b =>
    obtain rfl := Option.some.inj hstep
    refine ⟨h.added, h.removed, fun m i hi => ?_, h.table⟩
    dsimp only at hi
    by_cases hm : m = n
    · subst hm
      have hsome : ((t.om.setState m b).find m).isSome := by rw [hi]; rfl
      rw [Store.find_setState_isSome] at hsome
      obtain ⟨j, hj⟩ := Option.isSome_iff_exists.mp hsome
      rw [Store.find_setState_self hj] at hi
      obtain rfl := Option.some.inj hi
      exact .inr (.inl hu)
    · rw [Store.find_setState_of_ne hm] at hi
      exact h.interfaces m i hi
  | create i =>
    obtain rfl := Option.some.inj hstep
    refine h.write hu rfl (fun m j hj => ?_) fun _ => .inl rfl
    by_cases hm : m = i.name
    · rw [hm, Store.find_write_interface] at hj
      obtain rfl := Option.some.inj hj
      exact .inr (.inr hu)
    · rw [Store.find_write_interface_of_ne hm] at hj
      exact .inl hj
  | rewrite n =>
    obtain ⟨i, hi, rfl⟩ := Option.map_eq_some_iff.mp hstep
    obtain rfl := Store.name_of_find hi
    refine h.write hu rfl (fun m j hj => ?_) fun _ => .inl rfl
    by_cases hm : m = i.name
    · rw [hm, Store.find_write_interface] at hj
      rw [hm, hi]
      exact .inl hj
    · rw [Store.find_write_interface_of_ne hm] at hj
      exact .inl hj
  | delete n =>
    obtain rfl := Option.some.inj hstep
    exact h.remove hu rfl fun _ => .inl rfl
  | bind n p =>
    obtain ⟨i, hi, rfl⟩ := Option.map_eq_some_iff.mp hstep
    obtain rfl := Store.name_of_find hi
    refine h.write hu rfl (fun m j hj => .inl ?_) fun _ => .inl rfl
    rwa [Store.find, Store.write_l3Binding_attr (by rw [hi]; rfl)] at hj
  | unbind n p =>
    obtain ⟨i, -, rfl⟩ := Option.map_eq_some_iff.mp hstep
    exact h.remove hu rfl fun _ => .inl rfl
  | map x ns =>
    obtain rfl := Option.some.inj hstep
    refine h.write hu rfl (fun m j hj => .inl ?_) fun y => ?_
    · have hattr : (t.om.write (natKey x) (.natStatic ns)).attr = t.om.attr :=
        SharedStore.hold_attr fun n hn => by cases hn
      rwa [Store.find, hattr] at hj
    · by_cases hy : y = x
      · subst hy
        exact .inr (.inr ⟨ns, Function.update_self .., hu⟩)
      · exact .inl (Function.update_of_ne hy _ _)
  | unmap x =>
    obtain rfl := Option.some.inj hstep
    refine h.remove hu rfl fun y => ?_
    by_cases hy : y = x
    · subst hy
      exact .inr ⟨Function.update_self .., hu⟩
    · exact .inl (Function.update_of_ne hy _ _)

end Sweetcomb
