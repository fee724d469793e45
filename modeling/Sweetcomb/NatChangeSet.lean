import Sweetcomb.NatLoop

/-!
# NAT change sets

A change set creates and deletes any number of mapping entries of one NAT instance. The
callback sums it up in one builder, one index and two flags, and commits one entry.
-/

namespace Sweetcomb

/-- `/ietf-nat:nat/instances/instance[id='id']/mapping-table/mapping-entry[index='i']/node`. -/
def natPath (id i : UInt32) (node : String) : XPath :=
  [⟨"ietf-nat:nat", []⟩, ⟨"instances", []⟩, ⟨"instance", [("id", id.toNat.repr)]⟩,
    ⟨"mapping-table", []⟩, ⟨"mapping-entry", [("index", i.toNat.repr)]⟩, ⟨node, []⟩]

def NatField.node : NatField → String
  | internalSrc => "internal-src-address"
  | externalSrc => "external-src-address"
  | internalDest => "internal-dst-address"
  | externalDest => "external-dst-address"

def NatField.all : List NatField := [.internalSrc, .externalSrc, .internalDest, .externalDest]

/-- A mapping entry; the address leaves are optional. -/
structure MappingEntry where
  index : UInt32
  type : String
  text : NatField → Option String

namespace MappingEntry

/-- The leaves of an entry. -/
def values (id : UInt32) (m : MappingEntry) : List SrVal :=
  ⟨natPath id m.index "index", .uint32 m.index⟩ :: ⟨natPath id m.index "type", .enum m.type⟩ ::
    NatField.all.filterMap fun f =>
      (m.text f).map fun p => ⟨natPath id m.index f.node, .string p⟩

/-- The address in a leaf of the entry. -/
def address (A : Asio) (f : NatField) (m : MappingEntry) : Option Address :=
  (m.text f).bind fun p => (UtilsPrefix.makePrefix A p).map (·.address)

/-- The internal and the external address of an entry: its source pair, else its
destination pair. -/
def pair (A : Asio) (m : MappingEntry) : Option (Address × Address) :=
  match m.address A .internalSrc, m.address A .externalSrc with
  | some i, some o => some (i, o)
  | _, _ =>
    match m.address A .internalDest, m.address A .externalDest with
    | some i, some o => some (i, o)
    | _, _ => none

/-- The source pair of an entry, with the default address for a missing leaf. -/
def sourcePair (A : Asio) (m : MappingEntry) : Address × Address :=
  ((m.address A .internalSrc).getD .default, (m.address A .externalSrc).getD .default)

end MappingEntry

inductive NatEntry
  | create (m : MappingEntry)
  | delete (m : MappingEntry)

namespace NatEntry

def index : NatEntry → UInt32
  | create m => m.index
  | delete m => m.index

def isCreate : NatEntry → Bool
  | create _ => true
  | delete _ => false

def changes (id : UInt32) : NatEntry → List Change
  | create m => (m.values id).map .created
  | delete m => (m.values id).map .deleted

/-- The change set of some entries, entry by entry. -/
def reported (id : UInt32) (es : List NatEntry) : List Change := es.flatMap (changes id)

/-- The type an entry gives to the builder. -/
def mappingType : NatEntry → Option String
  | create m => some m.type
  | delete _ => none

/-- The address an entry gives to a field of the builder. -/
def address (A : Asio) (f : NatField) : NatEntry → Option Address
  | create m => m.address A f
  | delete _ => none

/-- What the callback sees of an entry. -/
def events : NatEntry → List NatEvent
  | create m => .createIndex m.index :: .createType m.type ::
      NatField.all.filterMap fun f => (m.text f).map (.createAddress f)
  | delete m => .deleteIndex m.index :: .other ::
      NatField.all.filterMap fun f => (m.text f).map fun _ => .other

theorem map_natEvent (id : UInt32) (e : NatEntry) :
    (e.changes id).map Change.natEvent = e.events := by
  cases e with
  | create m =>
    simp only [changes, MappingEntry.values, List.map_cons, List.map_filterMap, Option.map_map,
      events]
    refine congrArg₂ _ rfl (congrArg₂ _ rfl (List.filterMap_congr fun f _ => ?_))
    cases f <;> cases m.text _ <;> rfl
  | delete m =>
    simp only [changes, MappingEntry.values, List.map_cons, List.map_filterMap, Option.map_map,
      events]
    refine congrArg₂ _ rfl (congrArg₂ _ rfl (List.filterMap_congr fun f _ => ?_))
    cases f <;> cases m.text _ <;> rfl

end NatEntry

open NatEntry (reported)

/-- A change set as sysrepo reports it against the table. -/
structure NatEntries (table : NatTable) (es : List NatEntry) : Prop where
  nodup : (es.map NatEntry.index).Nodup
  create_new : ∀ m, .create m ∈ es → table m.index = none
  delete_old : ∀ m, .delete m ∈ es → (table m.index).isSome

/-- The NAT objects of the store are those of the table. -/
def NatAgrees (om : Store) (table : NatTable) : Prop :=
  ∀ i ns, (natKey i, .natStatic ns) ∈ om.refs ↔ table i = some (ns.inside, ns.outside)

/-- The entries are what the table and the store have become from `table`. -/
structure MappingsApplied (A : Asio) (es : List NatEntry) (table : NatTable) (r : Effect) :
    Prop where
  created : ∀ m, .create m ∈ es → ∃ p, m.pair A = some p ∧ r.table m.index = some p
  deleted : ∀ m, .delete m ∈ es → r.table m.index = none
  others : ∀ i, i ∉ es.map NatEntry.index → r.table i = table i
  agrees : NatAgrees r.om r.table

/-! ## Tables and stores that agree -/

namespace NatAgrees

variable {om : Store} {table : NatTable} {i : UInt32} {ns : NatStatic}

theorem write (h : NatAgrees om table) (hi : table i = none) :
    NatAgrees (om.write (natKey i) (.natStatic ns))
      (Function.update table i (some (ns.inside, ns.outside))) := by
  intro j ms
  simp only [Store.write_refs, VomObj.ref, Finset.mem_insert, Prod.mk.injEq,
    ObjRef.natStatic.injEq, Function.update_apply, h j ms, natKey_injective.eq_iff]
  by_cases hj : j = i
  · subst hj
    obtain ⟨a, b⟩ := ns
    obtain ⟨c, d⟩ := ms
    simp [hi, eq_comm]
  · simp [hj]

theorem remove (h : NatAgrees om table) :
    NatAgrees (om.remove (natKey i)) (Function.update table i none) := by
  intro j ms
  simp only [Store.mem_remove, h j ms, ne_eq, natKey_injective.eq_iff, Function.update_apply]
  by_cases hj : j = i <;> simp [hj]

end NatAgrees

/-! ## What the loop reads off the entries -/

section Reported

variable {A : Asio} {id : UInt32} {es : List NatEntry}

theorem map_natEvent_reported (id : UInt32) (es : List NatEntry) :
    (reported id es).map Change.natEvent = es.flatMap NatEntry.events := by
  rw [reported, List.map_flatMap]
  exact congrArg (fun k => es.flatMap k) (funext fun e => e.map_natEvent id)

theorem filterMap_natEvent {β : Type} {f : NatEvent → Option β} {g : NatEntry → Option β}
    (h : ∀ e : NatEntry, e.events.filterMap f = (g e).toList) :
    ((reported id es).filterMap fun c => f c.natEvent) = es.filterMap g := by
  rw [← Function.comp_def f, ← List.filterMap_map, map_natEvent_reported, List.filterMap_flatMap,
    List.filterMap_eq_flatMap_toList]
  exact congrArg (fun k => es.flatMap k) (funext h)

theorem exists_natEvent {p : NatEvent → Prop} {q : NatEntry → Prop}
    (h : ∀ e : NatEntry, (∃ v ∈ e.events, p v) ↔ q e) :
    (∃ c ∈ reported id es, p c.natEvent) ↔ ∃ e ∈ es, q e := by
  have hmem : ∀ v, (∃ c ∈ reported id es, c.natEvent = v) ↔ ∃ e ∈ es, v ∈ e.events := fun v => by
    rw [← List.mem_flatMap, ← map_natEvent_reported id, List.mem_map]
  constructor
  · rintro ⟨c, hc, hp⟩
    obtain ⟨e, he, hv⟩ := (hmem _).mp ⟨c, hc, rfl⟩
    exact ⟨e, he, (h e).mp ⟨_, hv, hp⟩⟩
  · rintro ⟨e, he, hq⟩
    obtain ⟨v, hv, hp⟩ := (h e).mpr hq
    obtain ⟨c, hc, rfl⟩ := (hmem v).mpr ⟨e, he, hv⟩
    exact ⟨c, hc, hp⟩

theorem filterMap_create {β : Type} (f : NatEvent → Option β) (m : MappingEntry) :
    (NatEntry.create m).events.filterMap f =
      (f (.createIndex m.index)).toList ++ (f (.createType m.type)).toList ++
        NatField.all.filterMap fun x => (m.text x).bind fun p => f (.createAddress x p) := by
  simp only [NatEntry.events, List.filterMap_cons, List.filterMap_filterMap, Option.bind_map]
  cases f (.createIndex m.index) <;> cases f (.createType m.type) <;> rfl

theorem filterMap_delete {β : Type} (f : NatEvent → Option β) (hf : f .other = none)
    (m : MappingEntry) :
    (NatEntry.delete m).events.filterMap f = (f (.deleteIndex m.index)).toList := by
  simp only [NatEntry.events, List.filterMap_cons, List.filterMap_filterMap, Option.bind_map,
    Function.comp_def, hf, Option.bind_fun_none, List.filterMap_none]
  cases f (.deleteIndex m.index) <;> rfl

theorem indicesIn_nat : indicesIn (reported id es) = es.map NatEntry.index := by
  rw [← List.filterMap_eq_map]
  refine filterMap_natEvent fun e => ?_
  cases e with
  | create m => simp [filterMap_create, NatEvent.index, NatEntry.index]
  | delete m => exact filterMap_delete _ rfl m

theorem lastType_nat :
    lastType (reported id es) = (es.filterMap NatEntry.mappingType).getLastD "" := by
  refine congrArg (fun l : List String => l.getLastD "") (filterMap_natEvent fun e => ?_)
  cases e with
  | create m => simp [filterMap_create, NatEvent.mappingType, NatEntry.mappingType]
  | delete m => exact filterMap_delete _ rfl m

theorem lastAddress_nat (f : NatField) :
    lastAddress A f (reported id es) =
      (es.filterMap (NatEntry.address A f)).getLastD .default := by
  refine congrArg (fun l : List Address => l.getLastD .default) (filterMap_natEvent fun e => ?_)
  cases e with
  | create m =>
    cases f <;>
      · simp only [filterMap_create, NatEvent.address, NatEntry.address, MappingEntry.address,
          NatField.all, List.filterMap_cons, reduceCtorEq, if_false, if_true, Option.bind_fun_none]
        cases Option.bind _ _ <;> rfl
  | delete m => exact filterMap_delete _ rfl m

theorem createsIndex_nat : CreatesIndex (reported id es) ↔ ∃ e ∈ es, e.isCreate = true :=
  exists_natEvent (p := fun v => ∃ i, v = .createIndex i) fun e => by
    cases e <;> simp [NatEntry.events, NatEntry.isCreate]

theorem deletesIndex_nat : DeletesIndex (reported id es) ↔ ∃ e ∈ es, e.isCreate = false :=
  exists_natEvent (p := fun v => ∃ i, v = .deleteIndex i) fun e => by
    cases e <;> simp [NatEntry.events, NatEntry.isCreate]

/-- Some address leaf of a created entry does not parse. -/
def NatEntry.Unreadable (A : Asio) : NatEntry → Prop
  | create m => ∃ f p, m.text f = some p ∧ UtilsPrefix.makePrefix A p = none
  | delete _ => False

theorem exit_nat : (∃ c ∈ reported id es, (c.natEvent.exit A).isSome) ↔
    ∃ e ∈ es, e.Unreadable A :=
  exists_natEvent (p := fun v => (v.exit A).isSome) fun e => by
    cases e with
    | create m =>
      simp only [NatEntry.events, NatEntry.Unreadable, List.exists_mem_cons_iff,
        List.mem_filterMap, Option.map_eq_some_iff]
      constructor
      · rintro (h | h | ⟨v, ⟨f, -, p, hp, rfl⟩, hx⟩)
        · cases h
        · cases h
        · refine ⟨f, p, hp, ?_⟩
          by_contra hn
          simp [NatEvent.exit, Option.isSome_iff_ne_none.mpr hn] at hx
      · rintro ⟨f, p, hp, hn⟩
        refine .inr (.inr ⟨_, ⟨f, by cases f <;> decide, p, hp, rfl⟩, ?_⟩)
        simp [NatEvent.exit, hn]
    | delete m => simp [NatEntry.events, NatEntry.Unreadable, NatEvent.exit]

end Reported

/-! ## The one entry -/

/-- The index the loop ends up with. -/
def lastIndex (es : List NatEntry) : UInt32 := (es.map NatEntry.index).getLastD 0

/-- The mapping the builder ends up with. -/
def lastMapping (A : Asio) (es : List NatEntry) : NatStatic where
  inside := (es.filterMap (NatEntry.address A .internalSrc)).getLastD .default
  outside := (es.filterMap (NatEntry.address A .externalSrc)).getLastD .default

/-- The callback refuses the change set: an address does not parse, the last type is not
supported, or VPP does not accept the only mapping that is written. -/
def NatRefused (env : Env) (w : World) (es : List NatEntry) : Prop :=
  (∃ e ∈ es, e.Unreadable env.asio) ∨
  (∃ e ∈ es, e.isCreate = true) ∧
    ((es.filterMap NatEntry.mappingType).getLastD "" ≠ "static" ∨
      env.hw (w.ops ++ [.write (natKey (lastIndex es)) (.natStatic (lastMapping env.asio es))]) =
        .failed)

/-- The effect of the callback on the change set of some entries. -/
def mappingsEffect (env : Env) (stale : NatStale) (id : UInt32) (es : List NatEntry) (w : World) :
    Effect :=
  effect (natMappingTableConfigCb env stale .verify (.ok (reported id es)) w)

theorem not_unreadable {A : Asio} {es : List NatEntry} (hc : ∀ e ∈ es, e.isCreate = false) :
    ¬ ∃ e ∈ es, e.Unreadable A := by
  rintro ⟨e, he, hu⟩
  cases e with
  | create m => cases hc _ he
  | delete m => exact hu

section Effect

variable {env : Env} {stale : NatStale} {id : UInt32} {es : List NatEntry} {w : World}

/-- What the callback does to a change set that leaves the loop. -/
theorem mappings_unreadable (h : ∃ e ∈ es, e.Unreadable env.asio) :
    (mappingsEffect env stale id es w).outcome ≠ .returns .ok ∧
      (mappingsEffect env stale id es w).table = w.table := by
  obtain ⟨c, hc, hx⟩ := exit_nat.mpr h
  rcases nat_cases env w (reported id es) with ⟨hnone, -⟩ | ⟨pre, d, -, out, hout, hrun⟩
  · rw [hnone c hc] at hx
    cases hx
  · obtain ⟨hne, calls, hw⟩ := NatEvent.exit_refuses hout (w.afterAsked pre)
    rw [mappingsEffect, hrun]
    refine ⟨hne, ?_⟩
    show (out (w.afterAsked pre)).2.table = w.table
    rw [hw]
    exact afterAsked_table w pre

theorem mappings_eq_commit (h : ¬ ∃ e ∈ es, e.Unreadable env.asio) :
    mappingsEffect env stale id es w =
      effect (natCommit env ((NatLocals.init stale).run env.asio (reported id es))
        (w.afterAsked (reported id es))) := by
  have hno : ∀ c ∈ reported id es, c.natEvent.exit env.asio = none := by
    intro c hc
    by_contra hx
    exact h (exit_nat.mp ⟨c, hc, Option.isSome_iff_ne_none.mpr hx⟩)
  exact congrArg effect (nat_eq_commit hno)

theorem run_xindex_nat (h : es ≠ []) :
    ((NatLocals.init stale).run env.asio (reported id es)).xindex = lastIndex es := by
  rw [NatLocals.run_xindex, indicesIn_nat, lastIndex,
    LoopVariables.getLastD_congr (by simpa using h)]

/-- Some entry is created: the builder decides. -/
theorem mappings_create (h : ¬ ∃ e ∈ es, e.Unreadable env.asio)
    (hc : ∃ e ∈ es, e.isCreate = true)
    (ht : (es.filterMap NatEntry.mappingType).getLastD "" = "static") :
    mappingsEffect env stale id es w = natWriteEffect env (lastIndex es) (lastMapping env.asio es)
      (w.afterAsked (reported id es)) := by
  have hne : es ≠ [] := by
    obtain ⟨e, he, -⟩ := hc
    exact List.ne_nil_of_mem he
  rw [mappings_eq_commit h, natCommit_create
    (NatLocals.run_create.mpr (.inr (createsIndex_nat.mpr hc)))
    (by rwa [NatLocals.run_type, lastType_nat]), run_xindex_nat hne, NatLocals.run_address,
    NatLocals.run_address, lastAddress_nat, lastAddress_nat]
  rfl

theorem mappings_unsupported (h : ¬ ∃ e ∈ es, e.Unreadable env.asio)
    (hc : ∃ e ∈ es, e.isCreate = true)
    (ht : (es.filterMap NatEntry.mappingType).getLastD "" ≠ "static") :
    mappingsEffect env stale id es w = ⟨.returns .invalArg, w.ops, w.om, w.table⟩ := by
  rw [mappings_eq_commit h, natCommit_unbuildable
    (NatLocals.run_create.mpr (.inr (createsIndex_nat.mpr hc)))
    (by rwa [NatLocals.run_type, lastType_nat])]
  simp

/-- Entries are only deleted: the last one is removed. -/
theorem mappings_delete (hst : stale.Cleared) (hc : ∀ e ∈ es, e.isCreate = false)
    (hne : es ≠ []) :
    mappingsEffect env stale id es w =
      ⟨.returns .ok, w.ops ++ [.remove (natKey (lastIndex es))],
        w.om.remove (natKey (lastIndex es)), Function.update w.table (lastIndex es) none⟩ := by
  have hcreate : ((NatLocals.init stale).run env.asio (reported id es)).create = false := by
    rw [← Bool.not_eq_true, NatLocals.run_create, createsIndex_nat]
    rintro (h | ⟨e, he, h⟩)
    · exact Bool.false_ne_true (hst.create.symm.trans h)
    · exact Bool.false_ne_true ((hc e he).symm.trans h)
  have hremove : ((NatLocals.init stale).run env.asio (reported id es)).remove = true := by
    obtain ⟨e, he⟩ := List.exists_mem_of_ne_nil es hne
    exact NatLocals.run_remove.mpr (.inr (deletesIndex_nat.mpr ⟨e, he, hc e he⟩))
  rw [mappings_eq_commit (not_unreadable hc), natCommit_remove hcreate hremove, run_xindex_nat hne]
  simp

theorem mappings_nil (hst : stale.Cleared) :
    mappingsEffect env stale id [] w = ⟨.returns .ok, w.ops, w.om, w.table⟩ := by
  have hrun : (NatLocals.init stale).run env.asio (reported id []) = NatLocals.init stale := rfl
  rw [mappings_eq_commit (by simp), hrun, natCommit_nothing hst.create hst.remove]
  simp

/-- What a change set without unreadable addresses can be. -/
theorem natEntries_cases (es : List NatEntry) :
    (∃ e ∈ es, e.isCreate = true) ∨ (∀ e ∈ es, e.isCreate = false) ∧ es ≠ [] ∨ es = [] := by
  by_cases hc : ∃ e ∈ es, e.isCreate = true
  · exact .inl hc
  · by_cases hne : es = []
    · exact .inr (.inr hne)
    · exact .inr (.inl ⟨by simpa using hc, hne⟩)

theorem mappings_ok_iff (hst : stale.Cleared) :
    (mappingsEffect env stale id es w).outcome = .returns .ok ↔ ¬ NatRefused env w es := by
  by_cases hu : ∃ e ∈ es, e.Unreadable env.asio
  · exact iff_of_false (mappings_unreadable hu).1 fun h => h (.inl hu)
  rcases natEntries_cases es with hc | ⟨hc, hne⟩ | rfl
  · by_cases ht : (es.filterMap NatEntry.mappingType).getLastD "" = "static"
    · rw [mappings_create hu hc ht, natWriteEffect_ok_iff, afterAsked_ops]
      refine not_congr ⟨fun hf => .inr ⟨hc, .inr hf⟩, ?_⟩
      rintro (h | ⟨-, h | h⟩)
      · exact (hu h).elim
      · exact (h ht).elim
      · exact h
    · rw [mappings_unsupported hu hc ht]
      exact iff_of_false (by simp) fun h => h (.inr ⟨hc, .inl ht⟩)
  · rw [mappings_delete hst hc hne]
    refine iff_of_true rfl ?_
    rintro (h | ⟨⟨e, he, hce⟩, -⟩)
    · exact hu h
    · exact Bool.false_ne_true ((hc e he).symm.trans hce)
  · rw [mappings_nil hst]
    refine iff_of_true rfl ?_
    rintro (h | ⟨⟨e, he, -⟩, -⟩)
    · exact hu h
    · cases he

/-- A callback that does not succeed leaves the table as it was. -/
theorem mappings_table_of_not_ok (hst : stale.Cleared)
    (h : (mappingsEffect env stale id es w).outcome ≠ .returns .ok) :
    (mappingsEffect env stale id es w).table = w.table := by
  by_cases hu : ∃ e ∈ es, e.Unreadable env.asio
  · exact (mappings_unreadable hu).2
  rcases natEntries_cases es with hc | ⟨hc, hne⟩ | rfl
  · by_cases ht : (es.filterMap NatEntry.mappingType).getLastD "" = "static"
    · rw [mappings_create hu hc ht] at h ⊢
      rw [natWriteEffect_table_of_not_ok h, afterAsked_table]
    · rw [mappings_unsupported hu hc ht]
  · rw [mappings_delete hst hc hne] at h
    exact (h rfl).elim
  · rw [mappings_nil hst]

/-- The table changes at one index at most. -/
theorem mappings_table (env : Env) (id : UInt32) (w : World) (hst : stale.Cleared)
    {i : UInt32} (hi : i ≠ lastIndex es) :
    (mappingsEffect env stale id es w).table i = w.table i := by
  by_cases hok : (mappingsEffect env stale id es w).outcome = .returns .ok
  swap
  · rw [mappings_table_of_not_ok hst hok]
  have hn := (mappings_ok_iff hst).mp hok
  have hu : ¬ ∃ e ∈ es, e.Unreadable env.asio := fun hu => hn (.inl hu)
  rcases natEntries_cases es with hc | ⟨hc, hne⟩ | rfl
  · have ht : (es.filterMap NatEntry.mappingType).getLastD "" = "static" := by
      by_contra ht
      exact hn (.inr ⟨hc, .inl ht⟩)
    rw [mappings_create hu hc ht] at hok ⊢
    rw [(natWriteEffect_of_outcome hok).2, Function.update_of_ne hi, afterAsked_table]
  · rw [mappings_delete hst hc hne]
    exact Function.update_of_ne hi _ _
  · rw [mappings_nil hst]

end Effect

/-- Of two entries one has another index than the last. -/
theorem exists_index_ne {es : List NatEntry} (hnodup : (es.map NatEntry.index).Nodup)
    (hlen : 1 < es.length) (i : UInt32) : ∃ e ∈ es, e.index ≠ i := by
  by_contra h
  push Not at h
  have hrep : es.map NatEntry.index = List.replicate es.length i := by
    rw [List.eq_replicate_iff]
    simpa using h
  rw [hrep, List.nodup_replicate] at hnodup
  omega

section Applied

variable {env : Env} {stale : NatStale} {id : UInt32} {es : List NatEntry} {w : World}

/-- A change set that is applied has one entry at most. -/
theorem length_of_applied (hst : stale.Cleared) (hes : NatEntries w.table es)
    (h : MappingsApplied env.asio es w.table (mappingsEffect env stale id es w)) :
    es.length ≤ 1 := by
  by_contra hlen
  -- the table has not changed at the index of some entry
  obtain ⟨e, he, hi⟩ := exists_index_ne hes.nodup (by omega) (lastIndex es)
  have htable := mappings_table env id w hst hi
  cases e with
  | create m =>
    obtain ⟨p, -, hp⟩ := h.created m he
    rw [NatEntry.index] at htable
    rw [htable, hes.create_new m he] at hp
    cases hp
  | delete m =>
    have hold := hes.delete_old m he
    rw [NatEntry.index] at htable
    rw [← htable, h.deleted m he] at hold
    cases hold

theorem singleton_create {m : MappingEntry} (hst : stale.Cleared)
    (hok : (mappingsEffect env stale id [.create m] w).outcome = .returns .ok) :
    (mappingsEffect env stale id [.create m] w).om = w.om.write (natKey m.index)
        (.natStatic ⟨(m.sourcePair env.asio).1, (m.sourcePair env.asio).2⟩) ∧
      (mappingsEffect env stale id [.create m] w).table =
        Function.update w.table m.index (some (m.sourcePair env.asio)) := by
  have hn := (mappings_ok_iff hst).mp hok
  have hc : ∃ e ∈ [NatEntry.create m], e.isCreate = true := ⟨_, List.mem_cons_self, rfl⟩
  have hmapping : lastMapping env.asio [.create m] =
      ⟨(m.sourcePair env.asio).1, (m.sourcePair env.asio).2⟩ := by
    simp only [lastMapping, MappingEntry.sourcePair, NatEntry.address, List.filterMap_cons,
      List.filterMap_nil]
    cases m.address env.asio .internalSrc <;> cases m.address env.asio .externalSrc <;> rfl
  have ht : ([NatEntry.create m].filterMap NatEntry.mappingType).getLastD "" = "static" := by
    by_contra ht
    exact hn (.inr ⟨hc, .inl ht⟩)
  rw [mappings_create (fun hu => hn (.inl hu)) hc ht, hmapping] at hok ⊢
  rw [(natWriteEffect_of_outcome hok).1, (natWriteEffect_of_outcome hok).2, afterAsked_om,
    afterAsked_table]
  exact ⟨rfl, rfl⟩

/-- One created entry is applied exactly when the source pair is its own pair. -/
theorem applied_create_iff {m : MappingEntry} (hst : stale.Cleared)
    (hes : NatEntries w.table [.create m]) (hag : NatAgrees w.om w.table)
    (hok : (mappingsEffect env stale id [.create m] w).outcome = .returns .ok) :
    MappingsApplied env.asio [.create m] w.table (mappingsEffect env stale id [.create m] w) ↔
      m.pair env.asio = some (m.sourcePair env.asio) := by
  obtain ⟨hom, htable⟩ := singleton_create hst hok
  constructor
  · intro h
    obtain ⟨p, hp, hi⟩ := h.created m List.mem_cons_self
    rw [htable, Function.update_self] at hi
    rw [hp, hi]
  · intro hpair
    constructor
    · intro n hn
      obtain rfl : n = m := by simpa using hn
      exact ⟨_, hpair, by rw [htable, Function.update_self]⟩
    · simp
    · intro i hi
      rw [htable, Function.update_of_ne (by simpa [NatEntry.index] using hi)]
    · rw [hom, htable]
      exact hag.write (hes.create_new m List.mem_cons_self)

theorem applied_delete_one {m : MappingEntry} (hst : stale.Cleared)
    (hag : NatAgrees w.om w.table) :
    MappingsApplied env.asio [.delete m] w.table (mappingsEffect env stale id [.delete m] w) := by
  rw [mappings_delete hst (fun e he => by rw [List.mem_singleton.mp he]; rfl) (by simp)]
  have hlast : lastIndex [.delete m] = m.index := rfl
  rw [hlast]
  constructor
  · simp
  · intro n hn
    obtain rfl : n = m := by simpa using hn
    exact Function.update_self _ _ _
  · intro i hi
    exact Function.update_of_ne (by simpa [NatEntry.index] using hi) _ _
  · exact hag.remove

theorem applied_none (hst : stale.Cleared) (hag : NatAgrees w.om w.table) :
    MappingsApplied env.asio [] w.table (mappingsEffect env stale id [] w) := by
  rw [mappings_nil hst]
  exact ⟨by simp, by simp, fun _ _ => rfl, hag⟩

/-- An accepted change set is applied exactly when it has one entry at most, whose own
pair is what the builder takes for the source pair. -/
theorem mappings_applied_of_ok_iff (hst : stale.Cleared) (hes : NatEntries w.table es)
    (hag : NatAgrees w.om w.table)
    (hok : (mappingsEffect env stale id es w).outcome = .returns .ok) :
    MappingsApplied env.asio es w.table (mappingsEffect env stale id es w) ↔
      es.length ≤ 1 ∧
        ∀ m, .create m ∈ es → m.pair env.asio = some (m.sourcePair env.asio) := by
  refine ⟨fun h => ⟨length_of_applied hst hes h, ?_⟩, fun ⟨hlen, hpair⟩ => ?_⟩
  · have hlen := length_of_applied hst hes h
    match es, hlen with
    | [], _ => simp
    | [.create m], _ =>
      have hm := (applied_create_iff hst hes hag hok).mp h
      simpa using hm
    | [.delete m], _ => simp
  · match es, hlen with
    | [], _ => exact applied_none hst hag
    | [.create m], _ =>
      exact (applied_create_iff hst hes hag hok).mpr (hpair m List.mem_cons_self)
    | [.delete m], _ => exact applied_delete_one hst hag

end Applied

/-- The callback applies a change set, or leaves the table alone, exactly when it refuses the
change set or the change set has one entry at most, with the builder's source pair for its own. -/
theorem mappings_applied_iff (env : Env) (stale : NatStale) (id : UInt32) (es : List NatEntry)
    (w : World) (hst : stale.Cleared) (hes : NatEntries w.table es)
    (hag : NatAgrees w.om w.table) :
    let r := effect (natMappingTableConfigCb env stale .verify (.ok (reported id es)) w)
    ((r.outcome = .returns .ok → MappingsApplied env.asio es w.table r) ∧
        (r.outcome ≠ .returns .ok → r.table = w.table)) ↔
      NatRefused env w es ∨ es.length ≤ 1 ∧
        ∀ m, .create m ∈ es → m.pair env.asio = some (m.sourcePair env.asio) := by
  change ((mappingsEffect env stale id es w).outcome = .returns .ok →
      MappingsApplied env.asio es w.table (mappingsEffect env stale id es w)) ∧
    ((mappingsEffect env stale id es w).outcome ≠ .returns .ok →
      (mappingsEffect env stale id es w).table = w.table) ↔ _
  rw [and_iff_left (mappings_table_of_not_ok hst)]
  -- what is left to show is about the change sets that are accepted
  by_cases hok : (mappingsEffect env stale id es w).outcome = .returns .ok
  · rw [or_iff_right ((mappings_ok_iff hst).mp hok), ← mappings_applied_of_ok_iff hst hes hag hok]
    exact ⟨fun h => h hok, fun h _ => h⟩
  · refine iff_of_true (fun h => (hok h).elim) (.inl ?_)
    by_contra hn
    exact hok ((mappings_ok_iff hst).mpr hn)

/-- A static entry with a source pair. -/
def exampleMapping (i : UInt32) (host : String) : MappingEntry where
  index := i
  type := "static"
  text
    | .internalSrc => some (host ++ "/32")
    | .externalSrc => some "1.1.1.1/32"
    | _ => none

theorem natEntries_initial {es : List NatEntry} (hnodup : (es.map NatEntry.index).Nodup)
    (hc : ∀ e ∈ es, e.isCreate = true) : NatEntries (World.ofInterfaces []).table es := by
  refine ⟨hnodup, fun _ _ => rfl, fun m hm => ?_⟩
  cases hc _ hm

theorem natAgrees_initial : NatAgrees (World.ofInterfaces []).om (World.ofInterfaces []).table :=
  fun _ _ => iff_of_false (SharedStore.not_mem_empty _) (by simp [World.ofInterfaces])

/-- One created mapping is applied. -/
theorem mapping_applied :
    let es := [NatEntry.create (exampleMapping 1 "10.0.0.1")]
    let r := effect (natMappingTableConfigCb .accepting (.garbage false .null) .verify
      (.ok (reported 0 es)) (.ofInterfaces []))
    r.outcome = .returns .ok ∧ MappingsApplied Env.accepting.asio es (fun _ => none) r := by
  intro es r
  have hok : r.outcome = .returns .ok := by decide
  refine ⟨hok, ((mappings_applied_iff .accepting (.garbage false .null) 0 es (.ofInterfaces [])
    ⟨rfl, rfl⟩ (natEntries_initial (by decide) (by decide)) natAgrees_initial).mpr
      (.inr ⟨le_rfl, fun m hm => ?_⟩)).1 hok⟩
  obtain rfl : m = exampleMapping 1 "10.0.0.1" := by simpa [es] using hm
  decide

/-- Of two created mappings the second one is committed, and the callback reports success. -/
theorem two_mappings_not_applied :
    let es := [NatEntry.create (exampleMapping 1 "10.0.0.1"),
      NatEntry.create (exampleMapping 2 "10.0.0.2")]
    let w := World.ofInterfaces []
    let r := effect (natMappingTableConfigCb .accepting (.garbage false .null) .verify
      (.ok (reported 0 es)) w)
    NatEntries w.table es ∧ NatAgrees w.om w.table ∧ r.outcome = .returns .ok ∧
      ¬ MappingsApplied Env.accepting.asio es w.table r := by
  intro es w r
  refine ⟨natEntries_initial (by decide) (by decide), natAgrees_initial, by decide, fun h => ?_⟩
  obtain ⟨p, -, hp⟩ := h.created (exampleMapping 1 "10.0.0.1") List.mem_cons_self
  have hnone : r.table (exampleMapping 1 "10.0.0.1").index = none := by decide
  rw [hnone] at hp
  cases hp

end Sweetcomb
