import Sweetcomb.OcAgreement

/-!
# Interface change sets

A change set creates, deletes and modifies any number of interfaces. The callback sums it
up in one builder, one pointer and three flags, and issues one store operation.
-/

namespace Sweetcomb

/-- What a change set does to one interface. -/
inductive InterfaceEntry
  | create (itf : String) (b : Bool)
  | delete (itf : String) (b : Bool)
  | modify (itf : String) (b : Bool)
deriving DecidableEq, Repr

namespace InterfaceEntry

def itf : InterfaceEntry → String
  | create itf _ => itf
  | delete itf _ => itf
  | modify itf _ => itf

/-- The leaves that are reported for an entry. -/
def leaves : InterfaceEntry → List LeafChange
  | create itf b => LeafChange.creation itf b
  | delete itf b => LeafChange.deletion itf b
  | modify itf b => [.modified itf (.enabled !b) (.enabled b)]

/-- The change set of some entries, entry by entry. -/
def reported (es : List InterfaceEntry) : List Change := LeafChange.ietf (es.flatMap leaves)

def isCreate : InterfaceEntry → Bool
  | create .. => true
  | _ => false

/-- The name an entry gives to the builder. -/
def named : InterfaceEntry → Option String
  | create itf _ => some itf
  | delete itf _ => some itf
  | modify .. => none

/-- The state an entry gives to the builder. -/
def state : InterfaceEntry → Option Bool
  | create _ b => some b
  | _ => none

/-- The interface an entry modifies, with its new state. -/
def modification : InterfaceEntry → Option (String × Bool)
  | modify itf b => some (itf, b)
  | _ => none

/-- The state an entry sets the interface `n` to. -/
def setting (n : String) : InterfaceEntry → Option Bool
  | modify itf b => if itf = n then some b else none
  | _ => none

end InterfaceEntry

open InterfaceEntry (reported)

/-- A change set as sysrepo reports it against the interfaces of `om`. -/
structure InterfaceEntries (om : Store) (es : List InterfaceEntry) : Prop where
  nodup : (es.map InterfaceEntry.itf).Nodup
  create_new : ∀ n b, .create n b ∈ es → om.find n = none
  delete_old : ∀ n b, .delete n b ∈ es → (om.find n).isSome
  modify_old : ∀ n b, .modify n b ∈ es → (om.find n).isSome

/-- `ops` and the store `om'` they lead to from `om` do what the entries say. -/
structure InterfacesApplied (es : List InterfaceEntry) (om : Store) (ops : List OmOp)
    (om' : Store) : Prop where
  created : ∀ n b, .create n b ∈ es → (n, .interface n) ∈ om'.refs ∧
    om'.find n = some ⟨n, "ETHERNET", b⟩ ∧ .write n (.interface ⟨n, "ETHERNET", b⟩) ∈ ops
  modified : ∀ n b, .modify n b ∈ es →
    ∃ i, om'.find n = some i ∧ i.state = b ∧ .write n (.interface i) ∈ ops
  deleted : ∀ n b, .delete n b ∈ es → .remove n ∈ ops ∧ ∀ e ∈ om'.refs, e.1 ≠ n
  others : (∀ op ∈ ops, op.key ∈ es.map InterfaceEntry.itf) ∧
    ∀ e, e.1 ∉ es.map InterfaceEntry.itf → (e ∈ om'.refs ↔ e ∈ om.refs)

/-! ## What the loop reads off the entries -/

section Reported

variable {om : Store} {es : List InterfaceEntry} {n : String}

theorem filterMap_reported {β : Type} {f : Change → Option β} {g : InterfaceEntry → Option β}
    (h : ∀ e : InterfaceEntry, (LeafChange.ietf e.leaves).filterMap f = (g e).toList) :
    (reported es).filterMap f = es.filterMap g := by
  rw [reported, LeafChange.ietf, List.map_flatMap, List.filterMap_flatMap,
    List.filterMap_eq_flatMap_toList]
  exact congrArg (fun k => es.flatMap k) (funext h)

theorem namesIn_reported : namesIn (reported es) = es.filterMap InterfaceEntry.named :=
  filterMap_reported fun e => by cases e <;> rfl

theorem statesIn_reported : statesIn (reported es) = es.filterMap InterfaceEntry.state :=
  filterMap_reported fun e => by cases e <;> rfl

theorem modifiedIn_reported :
    modifiedIn (reported es) = (es.filterMap InterfaceEntry.modification).map Prod.fst := by
  rw [List.map_filterMap]
  exact filterMap_reported fun e => by cases e <;> rfl

theorem mem_reported {c : Change} : c ∈ reported es ↔
    ∃ e ∈ es, ∃ d ∈ e.leaves, d.reported ietfPath = c := by
  simp only [reported, LeafChange.ietf, List.mem_map, List.mem_flatMap]
  constructor
  · rintro ⟨d, ⟨e, he, hd⟩, hc⟩
    exact ⟨e, he, d, hd, hc⟩
  · rintro ⟨e, he, d, hd, hc⟩
    exact ⟨d, ⟨e, he, hd⟩, hc⟩

/-- An event is reported for an entry of the kind that reports it. -/
theorem exists_reported {p : LeafEvent → Prop} {q : InterfaceEntry → Prop}
    (h : ∀ e : InterfaceEntry, (∃ d ∈ e.leaves, p d.event) ↔ q e) :
    (∃ c ∈ reported es, p c.leafEvent) ↔ ∃ e ∈ es, q e := by
  constructor
  · rintro ⟨c, hc, hp⟩
    obtain ⟨e, he, d, hd, rfl⟩ := mem_reported.mp hc
    exact ⟨e, he, (h e).mp ⟨d, hd, by simpa using hp⟩⟩
  · rintro ⟨e, he, hq⟩
    obtain ⟨d, hd, hp⟩ := (h e).mpr hq
    exact ⟨_, mem_reported.mpr ⟨e, he, d, hd, rfl⟩, by simpa using hp⟩

theorem createsName_reported : CreatesName (reported es) ↔ ∃ e ∈ es, e.isCreate = true :=
  exists_reported (p := fun e => ∃ n, e = .createName n) fun e => by
    cases e <;> simp [InterfaceEntry.leaves, LeafChange.creation, LeafChange.deletion,
      LeafChange.event, InterfaceEntry.isCreate]

theorem deletesName_reported :
    DeletesName (reported es) ↔ ∃ e ∈ es, ∃ n b, e = .delete n b :=
  exists_reported (p := fun e => ∃ n, e = .deleteName n) fun e => by
    cases e <;> simp [InterfaceEntry.leaves, LeafChange.creation, LeafChange.deletion,
      LeafChange.event]

theorem createsEthernet_reported : CreatesEthernet (reported es) ↔ ∃ e ∈ es, e.isCreate = true :=
  exists_reported (p := fun e => e = .createType "iana-if-type:ethernetCsmacd") fun e => by
    cases e <;> simp [InterfaceEntry.leaves, LeafChange.creation, LeafChange.deletion,
      LeafChange.event, InterfaceEntry.isCreate]

end Reported

/-! ## The one operation -/

/-- The name the builder ends up with. -/
def lastNamed (es : List InterfaceEntry) : String :=
  (es.filterMap InterfaceEntry.named).getLastD ""

/-- The interface the builder ends up with. -/
def lastBuilt (es : List InterfaceEntry) : Interface :=
  ⟨lastNamed es, "ETHERNET", (es.filterMap InterfaceEntry.state).getLastD false⟩

/-- The effect of the callback on the change set of some entries. -/
def entriesEffect (env : Env) (stale : InterfaceStale) (es : List InterfaceEntry) (w : World) :
    Effect :=
  effect (ietfInterfaceCreateCb env stale .verify (.ok (reported es)) w)

section Effect

variable {env : Env} {stale : InterfaceStale} {w : World} {es : List InterfaceEntry} {n : String}
  {b : Bool} {i : Interface}

theorem exit_reported (hes : InterfaceEntries w.om es) :
    ∀ d ∈ es.flatMap InterfaceEntry.leaves, d.event.exit w.om = none := by
  intro d hd
  obtain ⟨e, he, hd⟩ := List.mem_flatMap.mp hd
  cases e with
  | create n b =>
    simp only [InterfaceEntry.leaves, LeafChange.creation, List.mem_cons, List.not_mem_nil,
      or_false] at hd
    rcases hd with rfl | rfl | rfl <;> rfl
  | delete n b =>
    simp only [InterfaceEntry.leaves, LeafChange.deletion, List.mem_cons, List.not_mem_nil,
      or_false] at hd
    rcases hd with rfl | rfl | rfl <;> rfl
  | modify n b =>
    obtain rfl := List.mem_singleton.mp hd
    exact if_pos (hes.modify_old n b he)

theorem changeSet_eq_commit (hes : InterfaceEntries w.om es) :
    entriesEffect env stale es w =
      effect (interfaceCommit env ((InterfaceLocals.init stale).run (reported es))
        (w.afterLoop (reported es))) :=
  congrArg effect (ietf_eq_commit (exit_reported hes))

/-- Some interface is created: the builder decides. -/
theorem changeSet_create (hes : InterfaceEntries w.om es) (hc : ∃ e ∈ es, e.isCreate = true)
    (hn : lastNamed es ≠ "") :
    entriesEffect env stale es w =
      writeEffect env (lastBuilt es) (w.afterLoop (reported es)) := by
  have hbuild : Buildable (reported es) := by
    refine ⟨?_, createsEthernet_reported.mpr hc⟩
    rwa [lastName, namesIn_reported]
  have hstates : statesIn (reported es) ≠ [] := by
    obtain ⟨e, he, hce⟩ := hc
    cases e with
    | create m b =>
      rw [statesIn_reported]
      exact List.ne_nil_of_mem (List.mem_filterMap.mpr ⟨_, he, rfl⟩)
    | _ => cases hce
  rw [changeSet_eq_commit hes, commit_create
    (InterfaceLocals.run_create.mpr (.inr (createsName_reported.mpr hc)))
    (InterfaceLocals.build_eq_some hbuild), LoopVariables.getLastD_congr hstates _ false,
    statesIn_reported, lastName, namesIn_reported]
  rfl

theorem changeSet_unnamed (hes : InterfaceEntries w.om es) (hc : ∃ e ∈ es, e.isCreate = true)
    (hn : lastNamed es = "") :
    entriesEffect env stale es w =
      ⟨.returns .invalArg, w.ops, w.om.run (reported es), w.table⟩ := by
  rw [changeSet_eq_commit hes, commit_unbuildable
    (InterfaceLocals.run_create.mpr (.inr (createsName_reported.mpr hc)))
    ((InterfaceLocals.build_eq_none_iff stale).mpr fun h => h.1 ?_)]
  · simp
  · rwa [lastName, namesIn_reported]

theorem run_create_false (hst : stale.Cleared) (hc : ∀ e ∈ es, e.isCreate = false) :
    ((InterfaceLocals.init stale).run (reported es)).create = false := by
  rw [← Bool.not_eq_true, InterfaceLocals.run_create, createsName_reported]
  rintro (h | ⟨e, he, h⟩)
  · exact Bool.false_ne_true (hst.create.symm.trans h)
  · exact Bool.false_ne_true ((hc e he).symm.trans h)

theorem mem_of_last
    (hl : (es.filterMap InterfaceEntry.modification).getLast? = some (n, b)) :
    .modify n b ∈ es := by
  obtain ⟨e, he, hmod⟩ := List.mem_filterMap.mp (List.mem_of_getLast? hl)
  cases e with
  | modify m c =>
    cases hmod
    exact he
  | _ => cases hmod

/-- Interfaces are only deleted: the last one is removed. -/
theorem changeSet_delete (hst : stale.Cleared) (hes : InterfaceEntries w.om es)
    (hd : ∀ e ∈ es, ∃ n b, e = .delete n b) (hne : es ≠ []) :
    entriesEffect env stale es w =
      ⟨.returns .ok, w.ops ++ [.remove (lastNamed es)],
        (w.om.run (reported es)).remove (lastNamed es), w.table⟩ := by
  have hc : ∀ e ∈ es, e.isCreate = false := by
    intro e he
    obtain ⟨n, b, rfl⟩ := hd e he
    rfl
  have hmodify : ((InterfaceLocals.init stale).run (reported es)).modify = false := by
    rw [← Bool.not_eq_true, InterfaceLocals.run_modify, modifiedIn_reported,
      List.filterMap_eq_nil_iff.mpr fun e he => ?_]
    · simp [InterfaceLocals.init, hst.modify]
    · obtain ⟨n, b, rfl⟩ := hd e he
      rfl
  have hremove : ((InterfaceLocals.init stale).run (reported es)).remove = true := by
    obtain ⟨e, he⟩ := List.exists_mem_of_ne_nil es hne
    exact InterfaceLocals.run_remove.mpr (.inr (deletesName_reported.mpr ⟨e, he, hd e he⟩))
  have hname : ((InterfaceLocals.init stale).run (reported es)).builder.name = lastNamed es := by
    rw [InterfaceLocals.run_name, namesIn_reported]
    rfl
  rw [changeSet_eq_commit hes, commit_remove (run_create_false hst hc) hmodify hremove, hname]
  simp

end Effect

/-! ## One interface at a time -/

section Applied

variable {om om' : Store} {n : String} {b : Bool} {i : Interface}

/-- Every entry is served by an operation under its name. -/
theorem InterfacesApplied.served {es : List InterfaceEntry} {ops : List OmOp}
    (h : InterfacesApplied es om ops om') : ∀ e ∈ es, ∃ op ∈ ops, op.key = e.itf := by
  intro e he
  cases e with
  | create n b => exact ⟨_, (h.created n b he).2.2, rfl⟩
  | delete n b => exact ⟨_, (h.deleted n b he).1, rfl⟩
  | modify n b =>
    obtain ⟨i, -, -, hop⟩ := h.modified n b he
    exact ⟨_, hop, rfl⟩

end Applied

/-! ## Whole change sets -/

end Sweetcomb
