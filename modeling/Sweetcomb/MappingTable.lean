import Sweetcomb.Configuration

/-!
# `static_mapping_table` and the store

The NAT callback keeps a table of its own beside the store. The two agree over whole runs:
the table has an entry for exactly the indices that the store holds a mapping under, and
the entry is one of these mappings.
-/

namespace Sweetcomb

/-- An index is in the table when it is mapped, with a pair that is mapped. -/
structure Configuration.TableMatches (C : Configuration) : Prop where
  held : ∀ x p, C.table x = some p → (x, ⟨p.1, p.2⟩) ∈ C.mapped
  absent : ∀ x, C.table x = none → ∀ ns, (x, ns) ∉ C.mapped

variable {A : Asio} {s : PluginState} {C C' : Configuration} {u : PluginUpdate}

theorem TableMatches.addMapping (h : C.TableMatches) (x : UInt32) (ns : NatStatic) :
    (C.addMapping x ns).TableMatches := by
  constructor
  · intro y p hp
    by_cases hy : y = x
    · subst hy
      have hp : some (ns.inside, ns.outside) = some p := by
        simpa [Configuration.addMapping] using hp
      obtain rfl := Option.some.inj hp
      exact Set.mem_insert _ _
    · have hp : C.table y = some p := by simpa [Configuration.addMapping, hy] using hp
      exact Set.mem_insert_of_mem _ (h.held y p hp)
  · intro y hy ms hm
    by_cases hyx : y = x
    · simp [Configuration.addMapping, hyx] at hy
    · have hy : C.table y = none := by simpa [Configuration.addMapping, hyx] using hy
      rcases Set.mem_insert_iff.mp hm with heq | hm
      · exact hyx (Prod.mk.inj heq).1
      · exact h.absent y hy ms hm

theorem TableMatches.clearMapping (h : C.TableMatches) (x : UInt32) :
    (C.clearMapping x).TableMatches := by
  constructor
  · intro y p hp
    by_cases hy : y = x
    · simp [Configuration.clearMapping, hy] at hp
    · have hp : C.table y = some p := by simpa [Configuration.clearMapping, hy] using hp
      exact ⟨h.held y p hp, hy⟩
  · intro y hy ms hm
    have hy : C.table y = none := by
      have hne : y ≠ x := hm.2
      simpa [Configuration.clearMapping, hne] using hy
    exact h.absent y hy ms hm.1

/-- No update makes the table differ from the mappings. -/
theorem TableMatches.step (h : C.TableMatches) (hstep : C.step u = some C') :
    C'.TableMatches := by
  cases u with
  | map x ns =>
    obtain rfl := Option.some.inj hstep
    exact TableMatches.addMapping h x ns
  | unmap x =>
    obtain rfl := Option.some.inj hstep
    exact TableMatches.clearMapping h x
  | setState n b =>
    obtain rfl := Option.some.inj hstep
    exact ⟨h.held, h.absent⟩
  | create i =>
    obtain rfl := Option.some.inj hstep
    exact ⟨h.held, h.absent⟩
  | delete n =>
    obtain rfl := Option.some.inj hstep
    exact ⟨h.held, h.absent⟩
  | rewrite n =>
    obtain ⟨a, -, rfl⟩ := Option.map_eq_some_iff.mp hstep
    exact ⟨h.held, h.absent⟩
  | bind n p =>
    obtain ⟨a, -, rfl⟩ := Option.map_eq_some_iff.mp hstep
    exact ⟨h.held, h.absent⟩
  | unbind n p =>
    obtain ⟨a, -, rfl⟩ := Option.map_eq_some_iff.mp hstep
    exact ⟨h.held, h.absent⟩

theorem TableMatches.run {us : List PluginUpdate} (h : C.TableMatches)
    (hrun : Runs.run Configuration.step C us = some C') : C'.TableMatches := by
  have hmeets : Runs.Meets Configuration.step (fun _ _ => True) C us :=
    Runs.meets_of_forall fun _ _ => trivial
  exact Runs.invariant (fun _ _ _ h _ hstep => TableMatches.step h hstep) h hmeets hrun

/-- The table and the store agree on the mappings. -/
structure World.MappingsMatch (w : World) : Prop where
  held : ∀ x a b, w.table x = some (a, b) → (natKey x, .natStatic ⟨a, b⟩) ∈ w.om.refs
  absent : ∀ x, w.table x = none → ∀ ns, (natKey x, .natStatic ns) ∉ w.om.refs

theorem Represents.mappingsMatch_iff {w : World} (h : Represents A w.state C) :
    w.MappingsMatch ↔ C.TableMatches := by
  have htable : C.table = w.table := h.table
  constructor
  · refine fun hw => ⟨fun x p hp => ?_, fun x hx ns hm => ?_⟩
    · exact (h.mapped x _).mpr (hw.held x p.1 p.2 (by rw [← htable, hp]))
    · exact hw.absent x (by rw [← htable, hx]) ns ((h.mapped x ns).mp hm)
  · refine fun hC => ⟨fun x a b hp => ?_, fun x hx ns hm => ?_⟩
    · exact (h.mapped x _).mp (hC.held x (a, b) (by rw [htable, hp]))
    · exact hC.absent x (by rw [htable, hx]) ns ((h.mapped x ns).mpr hm)

end Sweetcomb
