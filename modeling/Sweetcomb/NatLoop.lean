import Sweetcomb.IetfNat
import Sweetcomb.Lib.LoopVariables
import Sweetcomb.Lib.Text

/-!
# What the NAT loop does

Seen from the NAT callback a change is one of six events. The loop only fills in local
variables, so a loop that is not left is a plain fold over the events.
-/

namespace Sweetcomb

/-- What the `switch (oper)` of the NAT callback tells apart. -/
inductive NatEvent
  | createIndex (i : UInt32)
  | createType (t : String)
  | createAddress (f : NatField) (p : String)
  | deleteIndex (i : UInt32)
  | unsupported
  | other
deriving DecidableEq, Repr

def Change.natEvent : Change → NatEvent
  | .created ne =>
    if ne.xpath.nodeNameEq "index" then .createIndex ne.data.uint32Val
    else if ne.xpath.nodeNameEq "type" then .createType ne.data.stringVal
    else if ne.xpath.nodeNameEq "internal-src-address" then
      .createAddress .internalSrc ne.data.stringVal
    else if ne.xpath.nodeNameEq "external-src-address" then
      .createAddress .externalSrc ne.data.stringVal
    else if ne.xpath.nodeNameEq "internal-dst-address" then
      .createAddress .internalDest ne.data.stringVal
    else if ne.xpath.nodeNameEq "external-dst-address" then
      .createAddress .externalDest ne.data.stringVal
    else .other
  | .deleted ol =>
    if ol.xpath.nodeNameEq "index" then .deleteIndex ol.data.uint32Val else .other
  | .modified .. => .unsupported
  | .moved .. => .unsupported

def NatLocals.note (A : Asio) (l : NatLocals) : NatEvent → NatLocals
  | .createIndex i => { l with xindex := i, create := true }
  | .createType t => { l with builder := l.builder.setType t }
  | .createAddress f p => { l with builder := (l.builder.setText A f p).getD l.builder }
  | .deleteIndex i => { l with xindex := i, remove := true }
  | _ => l

/-- How an event leaves the loop, if it does. -/
def NatEvent.exit (A : Asio) : NatEvent → Option (World → Outcome × World)
  | .createAddress _ p =>
    if (UtilsPrefix.makePrefix A p).isSome then none else some fun w => (.faults .throws, w)
  | .unsupported => some (leave .unsupported)
  | _ => none

/-- Every way out of the loop refuses the change set. -/
theorem NatEvent.exit_refuses {A : Asio} {e : NatEvent} {out : World → Outcome × World}
    (h : e.exit A = some out) : Refuses out := by
  unfold NatEvent.exit at h
  split at h
  · split_ifs at h
    cases h
    apply refuses_fault
  · cases h
    exact refuses_leave (by simp)
  · cases h

variable {A : Asio}

theorem natSet_eq (f : NatField) (s : NatLocals × World) (p : String) :
    natSet (NatStaticBuilder.setText A f) s p =
      match (NatEvent.createAddress f p).exit A with
      | some out => .error (out s.2)
      | none => .ok (s.1.note A (.createAddress f p), s.2) := by
  cases h : UtilsPrefix.makePrefix A p <;>
    simp [natSet, NatStaticBuilder.setText, NatEvent.exit, NatLocals.note, h]

theorem natSwitch_eq (s : NatLocals × World) (c : Change) :
    natSwitch A s c =
      match c.natEvent.exit A with
      | some out => .error (out s.2)
      | none => .ok (s.1.note A c.natEvent, s.2) := by
  cases c with
  | created ne =>
    simp only [natSwitch, Change.natEvent]
    split_ifs
    · rfl
    · rfl
    · exact natSet_eq .internalSrc s _
    · exact natSet_eq .externalSrc s _
    · exact natSet_eq .internalDest s _
    · exact natSet_eq .externalDest s _
    · rfl
  | deleted ol =>
    simp only [natSwitch, Change.natEvent]
    split_ifs <;> rfl
  | modified old new => rfl
  | moved old new => rfl

/-! ## Whole loops -/

def NatLocals.run (A : Asio) (l : NatLocals) (cs : List Change) : NatLocals :=
  cs.foldl (fun l c => l.note A c.natEvent) l

/-- The world after asking for the changes of a list, one by one. -/
def World.asked (w : World) (cs : List Change) : World :=
  cs.foldl (fun w _ => w.called .getChangeNext) w

@[simp] theorem asked_om (w : World) (cs : List Change) : (w.asked cs).om = w.om :=
  LoopVariables.keeps (f := fun (w : World) _ => w.called .getChangeNext)
    World.om (fun _ _ => rfl) cs w

@[simp] theorem asked_table (w : World) (cs : List Change) : (w.asked cs).table = w.table :=
  LoopVariables.keeps (f := fun (w : World) _ => w.called .getChangeNext)
    World.table (fun _ _ => rfl) cs w

@[simp] theorem asked_ops (w : World) (cs : List Change) : (w.asked cs).ops = w.ops :=
  LoopVariables.keeps (f := fun (w : World) _ => w.called .getChangeNext)
    World.ops (fun _ _ => rfl) cs w

/-- The world once the loop has gone through all changes. -/
def World.afterAsked (w : World) (cs : List Change) : World :=
  ((w.called (.getChangesIter .ok)).asked cs).called .getChangeNext

@[simp] theorem afterAsked_om (w : World) (cs : List Change) : (w.afterAsked cs).om = w.om :=
  asked_om _ cs

@[simp] theorem afterAsked_table (w : World) (cs : List Change) :
    (w.afterAsked cs).table = w.table := asked_table _ cs

@[simp] theorem afterAsked_ops (w : World) (cs : List Change) : (w.afterAsked cs).ops = w.ops :=
  asked_ops _ cs

section Loop

variable {env : Env} {stale : NatStale} {w : World} {cs pre post : List Change} {c : Change}

theorem nat_turn {s : NatLocals × World} (hc : c.natEvent.exit A = none) :
    natSwitch A (s.1, s.2.called .getChangeNext) c =
        .ok (s.1.note A c.natEvent, s.2.called .getChangeNext) ∧ True := by
  rw [natSwitch_eq, hc]
  exact ⟨rfl, trivial⟩

theorem nat_turns_eq (l : NatLocals) (w : World) (cs : List Change) :
    cs.foldl (fun s c => (NatLocals.note A s.1 c.natEvent, World.called s.2 .getChangeNext))
      (l, w) = (l.run A cs, w.asked cs) := by
  induction cs generalizing l w with
  | nil => rfl
  | cons c cs ih => exact ih _ _

/-- No change leaves the loop: the callback goes on to its commit. -/
theorem nat_eq_commit (h : ∀ c ∈ cs, c.natEvent.exit env.asio = none) :
    natMappingTableConfigCb env stale .verify (.ok cs) w =
      natCommit env ((NatLocals.init stale).run env.asio cs) (w.afterAsked cs) := by
  obtain ⟨hloop, -⟩ := EarlyExit.foldlM_eq_ok
    (f := fun s c => natSwitch env.asio (s.1, s.2.called .getChangeNext) c)
    (g := fun s c => (s.1.note env.asio c.natEvent, s.2.called .getChangeNext))
    (I := fun _ => True) cs (fun s c hc _ => nat_turn (h c hc))
    (NatLocals.init stale, w.called (.getChangesIter .ok)) trivial
  rw [nat_turns_eq] at hloop
  simp only [natMappingTableConfigCb, foreachChange, ne_eq, not_true_eq_false, reduceCtorEq,
    if_false, hloop]
  rfl

/-- The first change that leaves the loop decides the callback. -/
theorem nat_eq_exit (stale : NatStale) (w : World) (post : List Change)
    (hpre : ∀ c ∈ pre, c.natEvent.exit env.asio = none) {out : World → Outcome × World}
    (hc : c.natEvent.exit env.asio = some out) :
    natMappingTableConfigCb env stale .verify (.ok (pre ++ c :: post)) w =
      out (w.afterAsked pre) := by
  have hloop := EarlyExit.foldlM_eq_error
    (f := fun s c => natSwitch env.asio (s.1, s.2.called .getChangeNext) c)
    (g := fun s c => (s.1.note env.asio c.natEvent, s.2.called .getChangeNext))
    (I := fun _ => True) pre (fun s c hc _ => nat_turn (hpre c hc)) c post
    (NatLocals.init stale, w.called (.getChangesIter .ok)) trivial
    (r := out (w.afterAsked pre)) (by
      rw [nat_turns_eq, natSwitch_eq, hc]
      rfl)
  simp only [natMappingTableConfigCb, foreachChange, ne_eq, not_true_eq_false, reduceCtorEq,
    if_false, hloop]
  rfl

/-- How the callback goes, whatever its initial values are: no change leaves the loop, or a
first one does. -/
theorem nat_cases (env : Env) (w : World) (cs : List Change) :
    ((∀ c ∈ cs, c.natEvent.exit env.asio = none) ∧
      ∀ stale, natMappingTableConfigCb env stale .verify (.ok cs) w =
        natCommit env ((NatLocals.init stale).run env.asio cs) (w.afterAsked cs)) ∨
    ∃ pre, ∃ c ∈ cs, ∃ out, c.natEvent.exit env.asio = some out ∧
      ∀ stale, natMappingTableConfigCb env stale .verify (.ok cs) w = out (w.afterAsked pre) := by
  cases h : cs.findSome? (fun c => c.natEvent.exit env.asio) with
  | none =>
    have hnone := List.findSome?_eq_none_iff.mp h
    exact .inl ⟨hnone, fun _ => nat_eq_commit hnone⟩
  | some out =>
    obtain ⟨pre, c, post, rfl, hout, hpre⟩ := List.findSome?_eq_some_iff.mp h
    exact .inr ⟨pre, c, by simp, out, hout, fun stale => nat_eq_exit stale w post hpre hout⟩

end Loop

/-! ## The local variables after the loop -/

namespace NatEvent

/-- The index an event assigns to `xindex`. -/
def index : NatEvent → Option UInt32
  | createIndex i => some i
  | deleteIndex i => some i
  | _ => none

/-- The type an event gives to the builder. -/
def mappingType : NatEvent → Option String
  | createType t => some t
  | _ => none

/-- The address an event gives to a field of the builder. -/
def address (A : Asio) (f : NatField) : NatEvent → Option Address
  | createAddress g p => if g = f then (UtilsPrefix.makePrefix A p).map (·.address) else none
  | _ => none

end NatEvent

def CreatesIndex (cs : List Change) : Prop := ∃ c ∈ cs, ∃ i, c.natEvent = .createIndex i

def DeletesIndex (cs : List Change) : Prop := ∃ c ∈ cs, ∃ i, c.natEvent = .deleteIndex i

/-- The indices a change set assigns to `xindex`, in order. -/
def indicesIn (cs : List Change) : List UInt32 := cs.filterMap fun c => c.natEvent.index

/-- The type a change set gives a fresh builder. -/
def lastType (cs : List Change) : String :=
  (cs.filterMap fun c => c.natEvent.mappingType).getLastD ""

/-- The address a change set leaves in a field of a fresh builder. -/
def lastAddress (A : Asio) (f : NatField) (cs : List Change) : Address :=
  (cs.filterMap fun c => c.natEvent.address A f).getLastD .default

/-- The field of a builder. -/
def NatStaticBuilder.get (b : NatStaticBuilder) : NatField → UtilsPrefix
  | .internalSrc => b.internalSrc
  | .externalSrc => b.externalSrc
  | .internalDest => b.internalDest
  | .externalDest => b.externalDest

theorem NatStaticBuilder.get_set (b : NatStaticBuilder) (f g : NatField) (p : UtilsPrefix) :
    (b.set g p).get f = if g = f then p else b.get f := by
  cases f <;> cases g <;> rfl

namespace NatLocals

variable {l l' : NatLocals} {cs : List Change}

/-- One turn, variable by variable. -/
theorem note_spec (l : NatLocals) (e : NatEvent) :
    ((l.note A e).create = true ↔ l.create = true ∨ ∃ i, e = .createIndex i) ∧
    ((l.note A e).remove = true ↔ l.remove = true ∨ ∃ i, e = .deleteIndex i) ∧
    (l.note A e).xindex = e.index.getD l.xindex ∧
    (l.note A e).builder.type = e.mappingType.getD l.builder.type ∧
    ∀ f, ((l.note A e).builder.get f).address =
      (e.address A f).getD (l.builder.get f).address := by
  cases e with
  | createAddress g p =>
    cases hp : UtilsPrefix.makePrefix A p with
    | none => simp [note, NatEvent.index, NatEvent.mappingType, NatEvent.address,
        NatStaticBuilder.setText, hp]
    | some q =>
      refine ⟨by simp [note], by simp [note], rfl, ?_, fun f => ?_⟩
      · cases g <;> simp [note, NatEvent.mappingType, NatStaticBuilder.setText, hp,
          NatStaticBuilder.set]
      · simp only [note, NatEvent.address, NatStaticBuilder.setText, hp, Option.map_some,
          Option.getD_some, NatStaticBuilder.get_set]
        split_ifs <;> rfl
  | createType t =>
    refine ⟨by simp [note], by simp [note], rfl, rfl, fun f => ?_⟩
    cases f <;> rfl
  | _ => simp [note, NatEvent.index, NatEvent.mappingType, NatEvent.address]

theorem run_create : (l.run A cs).create = true ↔ l.create = true ∨ CreatesIndex cs :=
  LoopVariables.flag create _ (fun l c => (note_spec l c.natEvent).1) cs l

theorem run_remove : (l.run A cs).remove = true ↔ l.remove = true ∨ DeletesIndex cs :=
  LoopVariables.flag remove _ (fun l c => (note_spec l c.natEvent).2.1) cs l

theorem run_xindex : (l.run A cs).xindex = (indicesIn cs).getLastD l.xindex :=
  LoopVariables.last xindex _ (fun l c => (note_spec l c.natEvent).2.2.1) cs l

/-- The index is the last one of the change set, if there is any. -/
theorem run_xindex_congr (h : CreatesIndex cs) : (l.run A cs).xindex = (l'.run A cs).xindex := by
  obtain ⟨c, hc, i, hi⟩ := h
  have hmem : i ∈ indicesIn cs := List.mem_filterMap.mpr ⟨c, hc, by rw [hi]; rfl⟩
  rw [run_xindex, run_xindex, LoopVariables.getLastD_congr (List.ne_nil_of_mem hmem)]

theorem run_type (stale : NatStale) : ((init stale).run A cs).builder.type = lastType cs :=
  LoopVariables.last (fun l => l.builder.type) _
    (fun l c => (note_spec l c.natEvent).2.2.2.1) cs (init stale)

theorem run_address (stale : NatStale) (f : NatField) :
    (((init stale).run A cs).builder.get f).address = lastAddress A f cs := by
  refine (LoopVariables.last (fun l => (l.builder.get f).address) _
    (fun (l : NatLocals) (c : Change) => (note_spec (A := A) l c.natEvent).2.2.2.2 f)
    cs (init stale)).trans ?_
  cases f <;> rfl

end NatLocals

/-! ## The commit -/

theorem natKey_injective : Function.Injective natKey :=
  fun _ _ h => UInt32.toNat_inj.mp (Text.repr_injective h)

/-- Since no prefix is empty, `build` takes the source pair of every static entry. -/
theorem build_eq (b : NatStaticBuilder) : b.build A =
    if b.type = "static" then
      (some ⟨b.internalSrc.address, b.externalSrc.address⟩,
        { b with inside := b.internalSrc.address, outside := b.externalSrc.address })
    else (none, b) := by
  by_cases h : b.type = "static" <;> simp [NatStaticBuilder.build, h]

section Commit

variable {env : Env} {l : NatLocals} {w : World}

/-- The effect of committing the mapping `ns` as entry `x`. -/
def natWriteEffect (env : Env) (x : UInt32) (ns : NatStatic) (w : World) : Effect :=
  let ops := w.ops ++ [.write (natKey x) (.natStatic ns)]
  match env.hw ops with
  | .ok => ⟨.returns .ok, ops, w.om.write (natKey x) (.natStatic ns),
      Function.update w.table x (some (ns.inside, ns.outside))⟩
  | .failed => ⟨.returns .operationFailed, ops, w.om, w.table⟩

@[simp] theorem natWriteEffect_ops (x : UInt32) (ns : NatStatic) :
    (natWriteEffect env x ns w).ops = w.ops ++ [.write (natKey x) (.natStatic ns)] := by
  simp only [natWriteEffect]
  split <;> rfl

theorem natWriteEffect_of_ok {x : UInt32} {ns : NatStatic}
    (h : env.hw (w.ops ++ [.write (natKey x) (.natStatic ns)]) = .ok) :
    natWriteEffect env x ns w = ⟨.returns .ok, w.ops ++ [.write (natKey x) (.natStatic ns)],
      w.om.write (natKey x) (.natStatic ns),
      Function.update w.table x (some (ns.inside, ns.outside))⟩ := by
  simp [natWriteEffect, h]

theorem natWriteEffect_of_failed {x : UInt32} {ns : NatStatic}
    (h : env.hw (w.ops ++ [.write (natKey x) (.natStatic ns)]) = .failed) :
    natWriteEffect env x ns w = ⟨.returns .operationFailed,
      w.ops ++ [.write (natKey x) (.natStatic ns)], w.om, w.table⟩ := by
  simp [natWriteEffect, h]

theorem natWriteEffect_ok_iff {x : UInt32} {ns : NatStatic} :
    (natWriteEffect env x ns w).outcome = .returns .ok ↔
      env.hw (w.ops ++ [.write (natKey x) (.natStatic ns)]) ≠ .failed := by
  cases h : env.hw (w.ops ++ [.write (natKey x) (.natStatic ns)]) with
  | ok => simp [natWriteEffect_of_ok h]
  | failed => simp [natWriteEffect_of_failed h]

/-- A successful write is in the store and in the table. -/
theorem natWriteEffect_of_outcome {x : UInt32} {ns : NatStatic}
    (h : (natWriteEffect env x ns w).outcome = .returns .ok) :
    (natWriteEffect env x ns w).om = w.om.write (natKey x) (.natStatic ns) ∧
      (natWriteEffect env x ns w).table =
        Function.update w.table x (some (ns.inside, ns.outside)) := by
  cases hw : env.hw (w.ops ++ [.write (natKey x) (.natStatic ns)]) with
  | ok => simp [natWriteEffect_of_ok hw]
  | failed => exact (natWriteEffect_ok_iff.mp h hw).elim

theorem natWriteEffect_table_of_not_ok {x : UInt32} {ns : NatStatic}
    (h : (natWriteEffect env x ns w).outcome ≠ .returns .ok) :
    (natWriteEffect env x ns w).table = w.table := by
  cases hw : env.hw (w.ops ++ [.write (natKey x) (.natStatic ns)]) with
  | ok => exact (h (by rw [natWriteEffect_of_ok hw])).elim
  | failed => rw [natWriteEffect_of_failed hw]

theorem natCommit_unbuildable (hc : l.create = true) (ht : l.builder.type ≠ "static") :
    effect (natCommit env l w) = ⟨.returns .invalArg, w.ops, w.om, w.table⟩ := by
  simp [natCommit, hc, build_eq, ht]

theorem natCommit_create (hc : l.create = true) (ht : l.builder.type = "static") :
    effect (natCommit env l w) = natWriteEffect env l.xindex
      ⟨(l.builder.get .internalSrc).address, (l.builder.get .externalSrc).address⟩ w := by
  simp only [natCommit, hc, if_true, build_eq, ht, NatStaticBuilder.get]
  cases h : env.hw (w.ops ++ [.write (natKey l.xindex)
      (.natStatic ⟨l.builder.internalSrc.address, l.builder.externalSrc.address⟩)]) with
  | ok =>
    rw [World.omWrite_ok (w := w.called _) h]
    simp [natWriteEffect, effect, h]
  | failed =>
    rw [World.omWrite_failed (w := w.called _) h]
    simp [natWriteEffect, h]

theorem natCommit_remove (hc : l.create = false) (hr : l.remove = true) :
    effect (natCommit env l w) = ⟨.returns .ok, w.ops ++ [.remove (natKey l.xindex)],
      w.om.remove (natKey l.xindex), Function.update w.table l.xindex none⟩ := by
  simp [natCommit, hc, hr, effect]

theorem natCommit_nothing (hc : l.create = false) (hr : l.remove = false) :
    effect (natCommit env l w) = ⟨.returns .ok, w.ops, w.om, w.table⟩ := by
  simp [natCommit, hc, hr, effect]

end Commit

end Sweetcomb
