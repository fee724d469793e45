import Sweetcomb.IetfInterface
import Sweetcomb.Lib.LoopVariables

/-!
# What the interface loops do

Seen from the interface callbacks a change is one of seven events. An event either
leaves the callback or updates the local variables and the store, so a loop that is not
left is two plain folds over the events.
-/

namespace Sweetcomb

/-- What the `switch (op)` of the interface callbacks tells apart. -/
inductive LeafEvent
  | createName (n : String)
  | createType (t : String)
  | createEnabled (b : Bool)
  | deleteName (n : String)
  | modifyEnabled (key : Option String) (b : Bool)
  | unsupported
  | other
deriving DecidableEq, Repr

def Change.leafEvent : Change → LeafEvent
  | .modified _ new =>
    if new.xpath.nodeNameEq "enabled" then
      .modifyEnabled (new.xpath.keyValue "interface" "name") new.data.boolVal
    else .other
  | .created new =>
    if new.xpath.nodeNameEq "name" then .createName new.data.stringVal
    else if new.xpath.nodeNameEq "type" then .createType new.data.stringVal
    else if new.xpath.nodeNameEq "enabled" then .createEnabled new.data.boolVal
    else .other
  | .deleted old =>
    if old.xpath.nodeNameEq "name" then .deleteName old.data.stringVal else .other
  | .moved .. => .unsupported

/-- The local variables after an event that does not leave the loop. -/
def InterfaceLocals.note (l : InterfaceLocals) : LeafEvent → InterfaceLocals
  | .createName n => { l with builder := l.builder.setName n, create := true }
  | .createType t => { l with builder := l.builder.setType t }
  | .createEnabled b => { l with builder := l.builder.setState b }
  | .deleteName n => { l with builder := l.builder.setName n, remove := true }
  | .modifyEnabled (some n) _ => { l with intf := .stored n, modify := true }
  | _ => l

def Store.note (om : Store) : LeafEvent → Store
  | .modifyEnabled (some n) b => om.setState n b
  | _ => om

def World.note (w : World) (e : LeafEvent) : World := { w with om := w.om.note e }

/-- How an event leaves the loop, if it does. -/
def LeafEvent.exit (om : Store) : LeafEvent → Option (World → Outcome × World)
  | .modifyEnabled none _ => some fun w => (.faults .throws, w)
  | .modifyEnabled (some n) _ =>
    if (om.find n).isSome then none else some (leave .operationFailed)
  | .unsupported => some (leave .unsupported)
  | _ => none

/-- A loop body given by the ways it can be left. -/
def interfaceBody (exit : Store → Change → Option (World → Outcome × World))
    (s : InterfaceLocals × World) (c : Change) :
    Except (Outcome × World) (InterfaceLocals × World) :=
  match exit s.2.om c with
  | some out => .error (out s.2)
  | none => .ok (s.1.note c.leafEvent, s.2.note c.leafEvent)

theorem interfaceSwitch_eq : interfaceSwitch = interfaceBody fun om c => c.leafEvent.exit om := by
  funext ⟨l, w⟩ c
  cases c with
  | created new =>
    simp only [interfaceSwitch, interfaceBody, Change.leafEvent]
    split_ifs <;> rfl
  | modified old new =>
    simp only [interfaceSwitch, interfaceBody, Change.leafEvent]
    split_ifs
    · cases new.xpath.keyValue "interface" "name" with
      | none => rfl
      | some n =>
        cases h : w.om.find n with
        | none => simp [LeafEvent.exit, h]
        | some i =>
          simp only [LeafEvent.exit, h, Option.isSome_some, if_true]
          rfl
    · rfl
  | deleted old =>
    simp only [interfaceSwitch, interfaceBody, Change.leafEvent]
    split_ifs <;> rfl
  | moved old new => rfl

/-- The VERIFY callback, in terms of the events. -/
theorem ietfInterfaceCreateCb_verify (env : Env) (stale : InterfaceStale) (cs : List Change)
    (w : World) : ietfInterfaceCreateCb env stale .verify (.ok cs) w =
      interfaceRun env .verify (interfaceBody fun om c => c.leafEvent.exit om) cs stale w := by
  rw [← interfaceSwitch_eq]
  rfl

/-! ## Events keep the interfaces of the store -/

/-- The same interfaces can be found. -/
def SameNames (om om' : Store) : Prop := ∀ n, (om'.find n).isSome = (om.find n).isSome

theorem SameNames.refl (om : Store) : SameNames om om := fun _ => rfl

@[simp] theorem Store.note_refs (om : Store) (e : LeafEvent) : (om.note e).refs = om.refs := by
  unfold Store.note
  split <;> rfl

theorem sameNames_note {om om' : Store} (h : SameNames om om') (e : LeafEvent) :
    SameNames om (om'.note e) := by
  intro n
  rw [← h n]
  unfold Store.note
  split
  · exact Store.find_setState_isSome
  · rfl

theorem LeafEvent.exit_congr {om om' : Store} (h : SameNames om om') (e : LeafEvent) :
    e.exit om' = e.exit om := by
  unfold LeafEvent.exit
  split <;> simp [h _]

/-! ## Whole loops -/

/-- The exits of a body look at the names in the store only. -/
def ExitByName (exit : Store → Change → Option (World → Outcome × World)) : Prop :=
  ∀ om om', SameNames om om' → ∀ c, exit om' c = exit om c

/-- One turn of the loop, on the world. -/
def World.turn (w : World) (c : Change) : World := (w.called .getChangeNext).note c.leafEvent

def InterfaceLocals.run (l : InterfaceLocals) (cs : List Change) : InterfaceLocals :=
  cs.foldl (fun l c => l.note c.leafEvent) l

def Store.run (om : Store) (cs : List Change) : Store :=
  cs.foldl (fun om c => om.note c.leafEvent) om

theorem turns_om (w : World) (cs : List Change) : (cs.foldl World.turn w).om = w.om.run cs := by
  induction cs generalizing w with
  | nil => rfl
  | cons c cs ih => exact ih (w.turn c)

@[simp] theorem turns_ops (w : World) (cs : List Change) : (cs.foldl World.turn w).ops = w.ops :=
  LoopVariables.keeps (f := World.turn) World.ops (fun _ _ => rfl) cs w

@[simp] theorem turns_table (w : World) (cs : List Change) :
    (cs.foldl World.turn w).table = w.table :=
  LoopVariables.keeps (f := World.turn) World.table (fun _ _ => rfl) cs w

@[simp] theorem Store.run_refs (om : Store) (cs : List Change) : (om.run cs).refs = om.refs :=
  LoopVariables.keeps SharedStore.refs (fun (om : Store) (c : Change) => om.note_refs c.leafEvent)
    cs om

theorem sameNames_run {om om' : Store} (h : SameNames om om') (cs : List Change) :
    SameNames om (om'.run cs) := by
  induction cs generalizing om' with
  | nil => exact h
  | cons c cs ih => exact ih (sameNames_note h _)

/-- The world once the loop has gone through all changes. -/
def World.afterLoop (w : World) (cs : List Change) : World :=
  (cs.foldl World.turn (w.called (.getChangesIter .ok))).called .getChangeNext

@[simp] theorem afterLoop_om (w : World) (cs : List Change) :
    (w.afterLoop cs).om = w.om.run cs := turns_om _ cs

@[simp] theorem afterLoop_ops (w : World) (cs : List Change) : (w.afterLoop cs).ops = w.ops :=
  turns_ops _ cs

@[simp] theorem afterLoop_table (w : World) (cs : List Change) :
    (w.afterLoop cs).table = w.table := turns_table _ cs

section Loop

variable {exit : Store → Change → Option (World → Outcome × World)} {event : NotifEvent}
  {env : Env} {stale : InterfaceStale} {w : World} {cs pre post : List Change} {c : Change}

/-- A turn that is not left, with what it keeps. -/
theorem body_turn (hexit : ExitByName exit) (s : InterfaceLocals × World)
    (hc : exit w.om c = none) (hs : SameNames w.om s.2.om) :
    interfaceBody exit (s.1, s.2.called .getChangeNext) c =
        .ok (s.1.note c.leafEvent, s.2.turn c) ∧
      SameNames w.om (s.1.note c.leafEvent, s.2.turn c).2.om := by
  refine ⟨?_, sameNames_note hs _⟩
  -- the store has changed in admin states only, and no exit looks at these
  simp only [interfaceBody, World.called_om, hexit _ _ hs, hc]
  rfl

theorem turns_eq (l : InterfaceLocals) (w : World) (cs : List Change) :
    cs.foldl (fun s c => (s.1.note c.leafEvent, s.2.turn c)) (l, w) =
      (l.run cs, cs.foldl World.turn w) := by
  induction cs generalizing l w with
  | nil => rfl
  | cons c cs ih => exact ih _ _

/-- No change leaves the loop: the callback goes on to its commit. -/
theorem interfaceRun_eq_commit (hexit : ExitByName exit) (hev : event ≠ .abort)
    (h : ∀ c ∈ cs, exit w.om c = none) :
    interfaceRun env event (interfaceBody exit) cs stale w =
      interfaceCommit env ((InterfaceLocals.init stale).run cs) (w.afterLoop cs) := by
  obtain ⟨hloop, -⟩ := EarlyExit.foldlM_eq_ok
    (g := fun s c => (s.1.note c.leafEvent, s.2.turn c))
    (I := fun s : InterfaceLocals × World => SameNames w.om s.2.om) cs
    (fun s c hc hs => body_turn hexit s (h c hc) hs)
    (InterfaceLocals.init stale, w.called (.getChangesIter .ok)) (SameNames.refl _)
  rw [turns_eq] at hloop
  simp only [interfaceRun, foreachChange, if_neg hev, hloop]
  rfl

/-- The first change that leaves the loop decides the callback. -/
theorem interfaceRun_eq_exit (hexit : ExitByName exit) (hev : event ≠ .abort)
    (hpre : ∀ c ∈ pre, exit w.om c = none) {out : World → Outcome × World}
    (hc : exit w.om c = some out) :
    interfaceRun env event (interfaceBody exit) (pre ++ c :: post) stale w =
      out (w.afterLoop pre) := by
  have hnames : SameNames w.om (w.afterLoop pre).om := by
    rw [afterLoop_om]
    exact sameNames_run (SameNames.refl _) pre
  have hloop := EarlyExit.foldlM_eq_error
    (f := fun s c => interfaceBody exit (s.1, s.2.called .getChangeNext) c)
    (g := fun s c => (s.1.note c.leafEvent, s.2.turn c))
    (I := fun s : InterfaceLocals × World => SameNames w.om s.2.om) pre
    (fun s c hc hs => body_turn hexit s (hpre c hc) hs) c post
    (InterfaceLocals.init stale, w.called (.getChangesIter .ok)) (SameNames.refl _)
    (r := out (w.afterLoop pre)) (by
      rw [turns_eq]
      change interfaceBody exit (_, w.afterLoop pre) c = _
      simp only [interfaceBody, hexit _ _ hnames, hc])
  simp only [interfaceRun, foreachChange, if_neg hev, hloop]
  rfl

/-- How a run goes, whatever its initial values are: no change leaves the loop, or a first one
does. -/
theorem interfaceRun_cases (env : Env) (w : World) (cs : List Change) (hexit : ExitByName exit)
    (hev : event ≠ .abort) :
    ((∀ c ∈ cs, exit w.om c = none) ∧
      ∀ stale, interfaceRun env event (interfaceBody exit) cs stale w =
        interfaceCommit env ((InterfaceLocals.init stale).run cs) (w.afterLoop cs)) ∨
    ∃ pre, ∃ c ∈ cs, ∃ out, exit w.om c = some out ∧
      ∀ stale, interfaceRun env event (interfaceBody exit) cs stale w =
        out (w.afterLoop pre) := by
  cases h : cs.findSome? (exit w.om) with
  | none =>
    have hnone := List.findSome?_eq_none_iff.mp h
    exact .inl ⟨hnone, fun _ => interfaceRun_eq_commit hexit hev hnone⟩
  | some out =>
    obtain ⟨pre, c, post, rfl, hout, hpre⟩ := List.findSome?_eq_some_iff.mp h
    exact .inr ⟨pre, c, by simp, out, hout, fun _ => interfaceRun_eq_exit hexit hev hpre hout⟩

end Loop

theorem exitByName_leafEvent : ExitByName fun om c => c.leafEvent.exit om :=
  fun _ _ h c => LeafEvent.exit_congr h c.leafEvent

/-! ## What the events assign -/

namespace LeafEvent

/-- The name an event gives to the builder; deletions name it too. -/
def builderName : LeafEvent → Option String
  | createName n => some n
  | deleteName n => some n
  | _ => none

/-- The state an event gives to the builder. -/
def builderState : LeafEvent → Option Bool
  | createEnabled b => some b
  | _ => none

/-- The type an event gives to the builder. -/
def builderType : LeafEvent → Option String
  | createType t => if t = "iana-if-type:ethernetCsmacd" then some "ETHERNET" else none
  | _ => none

/-- The state an event sets the stored interface `n` to. -/
def setting (n : String) : LeafEvent → Option Bool
  | modifyEnabled key b => if key = some n then some b else none
  | _ => none

/-- The interface an event points `intf` to. -/
def modified : LeafEvent → Option String
  | modifyEnabled key _ => key
  | _ => none

end LeafEvent

def CreatesName (cs : List Change) : Prop := ∃ c ∈ cs, ∃ n, c.leafEvent = .createName n

def DeletesName (cs : List Change) : Prop := ∃ c ∈ cs, ∃ n, c.leafEvent = .deleteName n

def CreatesEthernet (cs : List Change) : Prop :=
  ∃ c ∈ cs, c.leafEvent = .createType "iana-if-type:ethernetCsmacd"

/-- The names a change set gives to the builder, in order. -/
def namesIn (cs : List Change) : List String := cs.filterMap fun c => c.leafEvent.builderName

/-- The states a change set gives to the builder, in order. -/
def statesIn (cs : List Change) : List Bool := cs.filterMap fun c => c.leafEvent.builderState

/-- The interfaces a change set modifies, in order. -/
def modifiedIn (cs : List Change) : List String := cs.filterMap fun c => c.leafEvent.modified

/-- The name a fresh builder ends up with. -/
def lastName (cs : List Change) : String := (namesIn cs).getLastD ""

/-- The change set leaves a builder that builds: the last name is not empty, and an
ethernet type was created. -/
def Buildable (cs : List Change) : Prop := lastName cs ≠ "" ∧ CreatesEthernet cs

theorem mem_namesIn {cs : List Change} {n : String} : n ∈ namesIn cs ↔
    ∃ c ∈ cs, c.leafEvent = .createName n ∨ c.leafEvent = .deleteName n := by
  rw [namesIn, List.mem_filterMap]
  refine exists_congr fun c => and_congr_right fun _ => ?_
  cases c.leafEvent <;> simp [LeafEvent.builderName]

theorem mem_modifiedIn {cs : List Change} {n : String} : n ∈ modifiedIn cs ↔
    ∃ c ∈ cs, ∃ b, c.leafEvent = .modifyEnabled (some n) b := by
  rw [modifiedIn, List.mem_filterMap]
  refine exists_congr fun c => and_congr_right fun _ => ?_
  cases c.leafEvent <;> simp [LeafEvent.modified]

/-! ## The store after the loop -/

theorem Store.find_note (om : Store) (e : LeafEvent) (n : String) :
    (om.note e).find n =
      (om.find n).map fun i => { i with state := (e.setting n).getD i.state } := by
  cases e with
  | modifyEnabled key b =>
    cases key with
    | none => simp [note, LeafEvent.setting]
    | some m =>
      by_cases hm : m = n
      · subst hm
        cases h : om.find m with
        | none =>
          change (om.setState m b).find m = none
          rw [← Option.not_isSome_iff_eq_none, find_setState_isSome, h]
          simp
        | some i => simp [note, LeafEvent.setting, find_setState_self h]
      · simp [note, LeafEvent.setting, hm, find_setState_of_ne (Ne.symm hm)]
  | _ => simp [note, LeafEvent.setting]

/-- The loop sets the state of an interface to the last one that is modified. -/
theorem Store.find_run (om : Store) (cs : List Change) (n : String) :
    (om.run cs).find n = (om.find n).map fun i =>
      { i with state := (cs.filterMap fun c => c.leafEvent.setting n).getLastD i.state } := by
  induction cs generalizing om with
  | nil => simp [run]
  | cons c cs ih =>
    refine (ih (om.note c.leafEvent)).trans ?_
    -- the state that the first turn sets is the one the others start from
    rw [find_note, Option.map_map]
    refine congrArg (fun f => (om.find n).map f) (funext fun i => ?_)
    rw [List.filterMap_cons]
    cases c.leafEvent.setting n with
    | none => rfl
    | some b => simp only [Function.comp, Option.getD_some, List.getLastD_cons]

/-- A loop that leaves every admin state leaves the store. -/
theorem Store.run_eq_self {om : Store} {cs : List Change} (h : ∀ n i, om.find n = some i →
    (cs.filterMap fun c => c.leafEvent.setting n).getLastD i.state = i.state) :
    om.run cs = om := by
  apply Store.eq_of_find (Store.run_refs om cs)
  intro n
  rw [Store.find_run]
  cases hi : om.find n with
  | none => rfl
  | some i =>
    rw [Option.map_some, h n i hi]

/-! ## The local variables after the loop -/

namespace InterfaceLocals

variable {l : InterfaceLocals} {cs : List Change}

/-- One turn, variable by variable. -/
theorem note_spec (l : InterfaceLocals) (e : LeafEvent) :
    ((l.note e).create = true ↔ l.create = true ∨ ∃ n, e = .createName n) ∧
    ((l.note e).remove = true ↔ l.remove = true ∨ ∃ n, e = .deleteName n) ∧
    ((l.note e).modify = true ↔ l.modify = true ∨ ∃ n, e.modified = some n) ∧
    (l.note e).intf = (e.modified.map .stored).getD l.intf ∧
    (l.note e).builder.name = e.builderName.getD l.builder.name ∧
    (l.note e).builder.state = e.builderState.getD l.builder.state ∧
    (l.note e).builder.type = e.builderType.getD l.builder.type := by
  cases e with
  | modifyEnabled key b =>
    cases key <;> simp [note, LeafEvent.modified, LeafEvent.builderName, LeafEvent.builderState,
      LeafEvent.builderType]
  | createType t =>
    simp only [note, InterfaceBuilder.setType, LeafEvent.builderType]
    split_ifs <;> simp [LeafEvent.modified, LeafEvent.builderName, LeafEvent.builderState]
  | _ =>
    simp [note, InterfaceBuilder.setName, InterfaceBuilder.setState, LeafEvent.modified,
      LeafEvent.builderName, LeafEvent.builderState, LeafEvent.builderType]

theorem run_create : (l.run cs).create = true ↔ l.create = true ∨ CreatesName cs :=
  LoopVariables.flag create _ (fun l c => (note_spec l c.leafEvent).1) cs l

theorem run_remove : (l.run cs).remove = true ↔ l.remove = true ∨ DeletesName cs :=
  LoopVariables.flag remove _ (fun l c => (note_spec l c.leafEvent).2.1) cs l

theorem run_modify : (l.run cs).modify = true ↔ l.modify = true ∨ modifiedIn cs ≠ [] := by
  refine (LoopVariables.flag modify _ (fun l c => (note_spec l c.leafEvent).2.2.1) cs l).trans ?_
  refine or_congr_right ?_
  rw [modifiedIn, ne_eq, List.filterMap_eq_nil_iff]
  simp [Option.eq_none_iff_forall_ne_some]

theorem run_intf : (l.run cs).intf = ((modifiedIn cs).map .stored).getLastD l.intf := by
  rw [modifiedIn, List.map_filterMap]
  exact LoopVariables.last intf _ (fun l c => (note_spec l c.leafEvent).2.2.2.1) cs l

/-- After a modification the pointer is one to a modified interface. -/
theorem run_intf_stored (h : modifiedIn cs ≠ []) :
    ∃ n ∈ modifiedIn cs, (l.run cs).intf = .stored n := by
  have hmem := LoopVariables.getLastD_mem (l := (modifiedIn cs).map InterfacePtr.stored)
    (by simpa using h) l.intf
  obtain ⟨n, hn, hi⟩ := List.mem_map.mp hmem
  exact ⟨n, hn, run_intf.trans hi.symm⟩

theorem run_name : (l.run cs).builder.name = (namesIn cs).getLastD l.builder.name :=
  LoopVariables.last (fun l => l.builder.name) _
    (fun l c => (note_spec l c.leafEvent).2.2.2.2.1) cs l

theorem run_state : (l.run cs).builder.state = (statesIn cs).getLastD l.builder.state :=
  LoopVariables.last (fun l => l.builder.state) _
    (fun l c => (note_spec l c.leafEvent).2.2.2.2.2.1) cs l

theorem run_type : (l.run cs).builder.type =
    (cs.filterMap fun c => c.leafEvent.builderType).getLastD l.builder.type :=
  LoopVariables.last (fun l => l.builder.type) _
    (fun l c => (note_spec l c.leafEvent).2.2.2.2.2.2) cs l

theorem run_type_of_creates (h : CreatesEthernet cs) : (l.run cs).builder.type = "ETHERNET" := by
  obtain ⟨c, hc, he⟩ := h
  have hmem : "ETHERNET" ∈ cs.filterMap fun c => c.leafEvent.builderType :=
    List.mem_filterMap.mpr ⟨c, hc, by rw [he]; rfl⟩
  -- the last type that is kept is some type that is kept, so it is ETHERNET
  obtain ⟨d, -, hd⟩ := List.mem_filterMap.mp
    (LoopVariables.getLastD_mem (List.ne_nil_of_mem hmem) l.builder.type)
  rw [run_type]
  cases he : d.leafEvent with
  | createType t =>
    simp only [he, LeafEvent.builderType] at hd
    split_ifs at hd
    exact (Option.some.inj hd).symm
  | _ => simp [he, LeafEvent.builderType] at hd

theorem run_type_of_not_creates (h : ¬ CreatesEthernet cs) :
    (l.run cs).builder.type = l.builder.type := by
  rw [run_type, List.filterMap_eq_nil_iff.mpr fun c hc => ?_]
  · rfl
  cases he : c.leafEvent with
  | createType t => exact if_neg fun ht => h ⟨c, hc, by rw [he, ht]⟩
  | _ => rfl

/-- Whether a fresh builder builds is settled by the change set alone. -/
theorem build_eq_none_iff (stale : InterfaceStale) :
    ((init stale).run cs).builder.build = none ↔ ¬ Buildable cs := by
  have hname : ((init stale).run cs).builder.name = lastName cs := run_name
  by_cases ht : CreatesEthernet cs
  · simp [InterfaceBuilder.build, hname, run_type_of_creates ht, Buildable, ht]
  · simp [InterfaceBuilder.build, run_type_of_not_creates ht, Buildable, ht, init]

theorem build_eq_some {stale : InterfaceStale} (h : Buildable cs) :
    ((init stale).run cs).builder.build =
      some ⟨lastName cs, "ETHERNET", (statesIn cs).getLastD stale.state⟩ := by
  have hname : ((init stale).run cs).builder.name = lastName cs := run_name
  have hstate : ((init stale).run cs).builder.state = (statesIn cs).getLastD stale.state :=
    run_state
  simp [InterfaceBuilder.build, hname, hstate, run_type_of_creates h.2, h.1]

end InterfaceLocals

/-! ## The commit -/

section Commit

variable {env : Env} {l : InterfaceLocals} {w : World} {i : Interface}

/-- The effect of the one `OM::write` of a commit. -/
def writeEffect (env : Env) (i : Interface) (w : World) : Effect :=
  let ops := w.ops ++ [.write i.name (.interface i)]
  match env.hw ops with
  | .ok => ⟨.returns .ok, ops, w.om.write i.name (.interface i), w.table⟩
  | .failed => ⟨.returns .operationFailed, ops, w.om, w.table⟩

@[simp] theorem writeEffect_ops :
    (writeEffect env i w).ops = w.ops ++ [.write i.name (.interface i)] := by
  simp only [writeEffect]
  split <;> rfl

theorem writeEffect_of_ok (h : env.hw (w.ops ++ [.write i.name (.interface i)]) = .ok) :
    writeEffect env i w = ⟨.returns .ok, w.ops ++ [.write i.name (.interface i)],
      w.om.write i.name (.interface i), w.table⟩ := by
  simp [writeEffect, h]

theorem writeEffect_of_failed (h : env.hw (w.ops ++ [.write i.name (.interface i)]) = .failed) :
    writeEffect env i w =
      ⟨.returns .operationFailed, w.ops ++ [.write i.name (.interface i)], w.om, w.table⟩ := by
  simp [writeEffect, h]

theorem writeEffect_ok_iff : (writeEffect env i w).outcome = .returns .ok ↔
    env.hw (w.ops ++ [.write i.name (.interface i)]) ≠ .failed := by
  cases h : env.hw (w.ops ++ [.write i.name (.interface i)]) with
  | ok => simp [writeEffect_of_ok h]
  | failed => simp [writeEffect_of_failed h]

/-- A successful write is in the store. -/
theorem writeEffect_of_outcome (h : (writeEffect env i w).outcome = .returns .ok) :
    (writeEffect env i w).ops = w.ops ++ [.write i.name (.interface i)] ∧
      (writeEffect env i w).om = w.om.write i.name (.interface i) := by
  refine ⟨writeEffect_ops, ?_⟩
  cases hw : env.hw (w.ops ++ [.write i.name (.interface i)]) with
  | ok => rw [writeEffect_of_ok hw]
  | failed => exact (writeEffect_ok_iff.mp h hw).elim

theorem writeEffect_table : (writeEffect env i w).table = w.table := by
  simp only [writeEffect]
  split <;> rfl

theorem writeEffect_outcome : (writeEffect env i w).outcome = .returns .ok ∨
    (writeEffect env i w).outcome = .returns .operationFailed := by
  simp only [writeEffect]
  split
  · exact .inl rfl
  · exact .inr rfl

/-- The write of a commit, and the way it leaves the callback. -/
def writeAndLeave (env : Env) (i : Interface) (w : World) : Outcome × World :=
  match w.omWrite env i.name (.interface i) with
  | (.ok, w) => leave .ok w
  | (.failed, w) => leave .operationFailed w

theorem effect_writeAndLeave : effect (writeAndLeave env i w) = writeEffect env i w := by
  unfold writeAndLeave
  cases h : env.hw (w.ops ++ [.write i.name (.interface i)]) with
  | ok => simp [World.omWrite_ok h, writeEffect, h]
  | failed => simp [World.omWrite_failed h, writeEffect, h]

theorem interfaceCommit_create (hc : l.create = true) (hb : l.builder.build = some i) :
    interfaceCommit env l w = writeAndLeave env i w := by
  simp only [interfaceCommit, hc, hb, if_true, Option.map_some, Bool.true_or,
    InterfacePtr.deref]
  rfl

theorem interfaceCommit_modify (hc : l.create = false) (hm : l.modify = true)
    (hi : l.intf.deref w.om = some i) : interfaceCommit env l w = writeAndLeave env i w := by
  simp only [interfaceCommit, hc, hm, Bool.false_eq_true, if_false, Bool.false_or, if_true, hi]
  rfl

theorem commit_unbuildable (hc : l.create = true) (hb : l.builder.build = none) :
    effect (interfaceCommit env l w) = ⟨.returns .invalArg, w.ops, w.om, w.table⟩ := by
  simp [interfaceCommit, hc, hb]

theorem commit_create (hc : l.create = true) (hb : l.builder.build = some i) :
    effect (interfaceCommit env l w) = writeEffect env i w := by
  rw [interfaceCommit_create hc hb, effect_writeAndLeave]

theorem commit_modify (hc : l.create = false) (hm : l.modify = true)
    (hi : l.intf.deref w.om = some i) :
    effect (interfaceCommit env l w) = writeEffect env i w := by
  rw [interfaceCommit_modify hc hm hi, effect_writeAndLeave]

theorem commit_null (hc : l.create = false) (hm : l.modify = true)
    (hi : l.intf.deref w.om = none) :
    interfaceCommit env l w = (.faults .nullInterface, w) := by
  simp [interfaceCommit, hc, hm, hi]

theorem commit_remove (hc : l.create = false) (hm : l.modify = false) (hr : l.remove = true) :
    interfaceCommit env l w = leave .ok (w.omRemove l.builder.name) := by
  simp [interfaceCommit, hc, hm, hr]

theorem commit_nothing (hc : l.create = false) (hm : l.modify = false) (hr : l.remove = false) :
    interfaceCommit env l w = leave .ok w := by
  simp [interfaceCommit, hc, hm, hr]

/-- How a commit ends that does not refuse to build an interface. -/
theorem commit_outcome (h : l.create = true → l.builder.build ≠ none) :
    (effect (interfaceCommit env l w)).outcome = .returns .ok ∨
      (effect (interfaceCommit env l w)).outcome = .returns .operationFailed ∨
      (effect (interfaceCommit env l w)).outcome = .faults .nullInterface := by
  cases hc : l.create with
  | true =>
    obtain ⟨i, hb⟩ := Option.ne_none_iff_exists'.mp (h hc)
    rw [commit_create hc hb]
    exact writeEffect_outcome.imp_right .inl
  | false =>
    cases hm : l.modify with
    | true =>
      cases hi : l.intf.deref w.om with
      | none => exact .inr (.inr (by rw [commit_null hc hm hi]; rfl))
      | some i =>
        rw [commit_modify hc hm hi]
        exact writeEffect_outcome.imp_right .inl
    | false =>
      cases hr : l.remove with
      | true => exact .inl (by rw [commit_remove hc hm hr]; rfl)
      | false => exact .inl (by rw [commit_nothing hc hm hr]; rfl)

end Commit

end Sweetcomb
