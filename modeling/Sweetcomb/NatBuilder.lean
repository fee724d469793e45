import Sweetcomb.NatLoop
import Sweetcomb.PrefixCover
import Sweetcomb.Lib.Runs

/-!
# The contract of `nat_static_builder`

The builder documents the pairs it accepts. Any sequence of setter calls is compared with
that contract; since no prefix is empty, the source pair is taken whether it is set or not.
-/

namespace Sweetcomb

/-- A call of a setter of the builder. -/
inductive BuilderCall
  | setType (t : String)
  | setAddress (f : NatField) (p : String)
deriving DecidableEq, Repr

namespace BuilderCall

/-- The call; none when it throws. -/
def perform (A : Asio) (b : NatStaticBuilder) : BuilderCall → Option NatStaticBuilder
  | setType t => some (b.setType t)
  | setAddress .internalSrc p => NatStaticBuilder.setInternalSrc A b p
  | setAddress .externalSrc p => NatStaticBuilder.setExternalSrc A b p
  | setAddress .internalDest p => NatStaticBuilder.setInternalDest A b p
  | setAddress .externalDest p => NatStaticBuilder.setExternalDest A b p

/-- The text of an address is a prefix. -/
def WellFormed (A : Asio) : BuilderCall → Prop
  | setType _ => True
  | setAddress _ p => (UtilsPrefix.makePrefix A p).isSome

/-- The type a call gives to the builder. -/
def mappingType : BuilderCall → Option String
  | setType t => some t
  | setAddress .. => none

/-- The address a call gives to a field of the builder. -/
def address (A : Asio) (f : NatField) : BuilderCall → Option Address
  | setType _ => none
  | setAddress g p => if g = f then (UtilsPrefix.makePrefix A p).map (·.address) else none

variable {A : Asio} {b b' : NatStaticBuilder} {c : BuilderCall}

theorem perform_setAddress (f : NatField) (p : String) :
    (setAddress f p).perform A b = b.setText A f p := by
  cases f <;> rfl

theorem perform_isSome (h : c.WellFormed A) : ∃ b', c.perform A b = some b' := by
  cases c with
  | setType t => exact ⟨_, rfl⟩
  | setAddress f p =>
    obtain ⟨q, hq⟩ := Option.isSome_iff_exists.mp h
    exact ⟨b.set f q, by simp [perform_setAddress, NatStaticBuilder.setText, hq]⟩

/-- One call, field by field. -/
theorem perform_spec (h : c.perform A b = some b') :
    b'.type = c.mappingType.getD b.type ∧
      ∀ f, (b'.get f).address = (c.address A f).getD (b.get f).address := by
  cases c with
  | setType t =>
    obtain rfl := Option.some.inj h
    exact ⟨rfl, fun f => by cases f <;> rfl⟩
  | setAddress g p =>
    rw [perform_setAddress, NatStaticBuilder.setText, Option.map_eq_some_iff] at h
    obtain ⟨q, hq, rfl⟩ := h
    refine ⟨by cases g <;> rfl, fun f => ?_⟩
    simp only [address, hq, Option.map_some, NatStaticBuilder.get_set]
    split_ifs <;> rfl

end BuilderCall

open BuilderCall

/-! ## Sequences of calls -/

/-- The type the last call of `set_type` gives. -/
def typeAfter (cs : List BuilderCall) : String := (cs.filterMap mappingType).getLastD ""

/-- The address of the last prefix that is given to a field; none when it is never set. -/
def addressAfter (A : Asio) (cs : List BuilderCall) (f : NatField) : Option Address :=
  (cs.filterMap (address A f)).getLast?

/-- What `build` returns after some calls on a fresh builder; none when one of them throws. -/
def buildAfter (A : Asio) (plen : NatField → UInt16) (cs : List BuilderCall) :
    Option (Option NatStatic) :=
  (Runs.run (perform A) (.fresh plen) cs).map fun b => (b.build A).1

section Calls

variable {A : Asio} {cs : List BuilderCall} {b b' : NatStaticBuilder}

theorem run_isSome (h : ∀ c ∈ cs, c.WellFormed A) : ∃ b', Runs.run (perform A) b cs = some b' := by
  induction cs generalizing b with
  | nil => exact ⟨b, rfl⟩
  | cons c cs ih =>
    rw [List.forall_mem_cons] at h
    obtain ⟨u, hu⟩ := perform_isSome (b := b) h.1
    obtain ⟨b', hb'⟩ := ih h.2 (b := u)
    exact ⟨b', Runs.run_cons.mpr ⟨u, hu, hb'⟩⟩

/-- The last value given to a field stands. -/
theorem run_spec (h : Runs.run (perform A) b cs = some b') :
    b'.type = (cs.filterMap mappingType).getLastD b.type ∧
      ∀ f, (b'.get f).address = (cs.filterMap (address A f)).getLastD (b.get f).address := by
  induction cs generalizing b with
  | nil =>
    obtain rfl := Option.some.inj h
    exact ⟨rfl, fun _ => rfl⟩
  | cons c cs ih =>
    obtain ⟨u, hu, hrest⟩ := Runs.run_cons.mp h
    obtain ⟨htype, haddr⟩ := ih hrest
    obtain ⟨hutype, huaddr⟩ := perform_spec hu
    constructor
    · rw [htype, hutype, List.filterMap_cons]
      cases c.mappingType with
      | none => rfl
      | some t => exact List.getLastD_cons.symm
    · intro f
      rw [haddr f, huaddr f, List.filterMap_cons]
      cases c.address A f with
      | none => rfl
      | some a => exact List.getLastD_cons.symm

/-- The source pair is mapped, with the default address for a field that is never set. -/
theorem buildAfter_eq (plen : NatField → UInt16) (h : ∀ c ∈ cs, c.WellFormed A) :
    buildAfter A plen cs = some (if typeAfter cs = "static" then
      some ⟨(addressAfter A cs .internalSrc).getD .default,
        (addressAfter A cs .externalSrc).getD .default⟩ else none) := by
  obtain ⟨b, hb⟩ := run_isSome (b := .fresh plen) h
  obtain ⟨htype, haddr⟩ := run_spec hb
  have hset : ∀ f, (b.get f).address =
      (addressAfter A cs f).getD ((NatStaticBuilder.fresh plen).get f).address := by
    intro f
    rw [haddr f, addressAfter, List.getLastD_eq_getLast?]
  have htype' : b.type = typeAfter cs := htype
  have hsrc : b.internalSrc.address = _ := hset .internalSrc
  have hext : b.externalSrc.address = _ := hset .externalSrc
  rw [buildAfter, hb, Option.map_some, build_eq, htype', hsrc, hext]
  by_cases ht : typeAfter cs = "static"
  · rw [if_pos ht, if_pos ht]
    rfl
  · rw [if_neg ht, if_neg ht]

end Calls

/-! ## The calls of the callback -/

/-- The setter that a change is handed to. -/
def NatEvent.builderCall : NatEvent → Option BuilderCall
  | createType t => some (.setType t)
  | createAddress f p => some (.setAddress f p)
  | _ => none

/-- A loop that is not left makes these calls on its builder, in this order. -/
theorem run_builderCalls {A : Asio} {cs : List Change} (h : ∀ c ∈ cs, c.natEvent.exit A = none)
    (l : NatLocals) :
    Runs.run (perform A) l.builder (cs.filterMap fun c => c.natEvent.builderCall) =
      some (l.run A cs).builder := by
  induction cs generalizing l with
  | nil => rfl
  | cons c cs ih =>
    rw [List.forall_mem_cons] at h
    obtain ⟨hexit, hcs⟩ := h
    have hrest := ih hcs (l.note A c.natEvent)
    rw [List.filterMap_cons, show l.run A (c :: cs) = (l.note A c.natEvent).run A cs from rfl]
    generalize c.natEvent = e at hexit hrest ⊢
    cases e with
    | createType t => exact Runs.run_cons.mpr ⟨_, rfl, hrest⟩
    | createAddress f p =>
      obtain ⟨q, hq⟩ : ∃ q, UtilsPrefix.makePrefix A p = some q := by
        cases hp : UtilsPrefix.makePrefix A p with
        | none => simp [NatEvent.exit, hp] at hexit
        | some q => exact ⟨q, rfl⟩
      refine Runs.run_cons.mpr ⟨(l.note A (.createAddress f p)).builder, ?_, hrest⟩
      simp [perform_setAddress, NatLocals.note, NatStaticBuilder.setText, hq]
    -- the other events leave the builder alone
    | _ => exact hrest

/-! ## The contract -/

/-- The mapping of a pair, which must be of one family. -/
def NatStatic.ofPair (i o : Address) : Option NatStatic :=
  if i.isV4 = o.isV4 then some ⟨i, o⟩ else none

/-- What the builder documents: the source pair if both of its prefixes are set, else the
destination pair. -/
def documentedMapping (A : Asio) (cs : List BuilderCall) : Option NatStatic :=
  if typeAfter cs = "static" then
    match addressAfter A cs .internalSrc, addressAfter A cs .externalSrc with
    | some i, some o => NatStatic.ofPair i o
    | _, _ =>
      match addressAfter A cs .internalDest, addressAfter A cs .externalDest with
      | some i, some o => NatStatic.ofPair i o
      | _, _ => none
  else none

/-- The calls give no static mapping, or a source pair of one family, or a destination pair
that reads like the unset source pair. -/
def KeepsToSource (A : Asio) (cs : List BuilderCall) : Prop :=
  typeAfter cs ≠ "static" ∨
  (∃ i o, addressAfter A cs .internalSrc = some i ∧ addressAfter A cs .externalSrc = some o ∧
    i.isV4 = o.isV4) ∨
  ((addressAfter A cs .internalSrc = none ∨ addressAfter A cs .externalSrc = none) ∧
    ∃ i o, addressAfter A cs .internalDest = some i ∧ addressAfter A cs .externalDest = some o ∧
      i.isV4 = o.isV4 ∧ (addressAfter A cs .internalSrc).getD .default = i ∧
      (addressAfter A cs .externalSrc).getD .default = o)

theorem some_eq_ofPair {ns : NatStatic} {i o : Address} :
    some ns = NatStatic.ofPair i o ↔ i.isV4 = o.isV4 ∧ ns.inside = i ∧ ns.outside = o := by
  obtain ⟨i', o'⟩ := ns
  unfold NatStatic.ofPair
  split_ifs with h <;> simp [h]

/-- The builder keeps its contract exactly for these sequences of calls. -/
theorem build_documented_iff {A : Asio} (plen : NatField → UInt16) {cs : List BuilderCall}
    (h : ∀ c ∈ cs, c.WellFormed A) :
    buildAfter A plen cs = some (documentedMapping A cs) ↔ KeepsToSource A cs := by
  rw [buildAfter_eq plen h, Option.some.injEq]
  unfold documentedMapping KeepsToSource
  by_cases ht : typeAfter cs = "static"
  · simp only [ht, if_true, ne_eq, not_true_eq_false, false_or]
    -- the destination pair counts when the source pair is incomplete
    cases addressAfter A cs .internalSrc with
    | some i =>
      cases addressAfter A cs .externalSrc with
      | some o => simp [some_eq_ofPair]
      | none =>
        cases addressAfter A cs .internalDest <;> cases addressAfter A cs .externalDest <;>
          grind [some_eq_ofPair]
    | none =>
      cases addressAfter A cs .internalDest <;> cases addressAfter A cs .externalDest <;>
        grind [some_eq_ofPair]
  · simp [ht]

/-- Both prefixes of the source pair are set. -/
theorem build_documented_source :
    buildAfter .uncompressed (fun _ => 0) [.setType "static",
        .setAddress .internalSrc "10.0.0.1/32", .setAddress .externalSrc "192.0.2.1/32"] =
      some (documentedMapping .uncompressed [.setType "static",
        .setAddress .internalSrc "10.0.0.1/32", .setAddress .externalSrc "192.0.2.1/32"]) := by
  refine (build_documented_iff (fun _ => 0) (by simp [WellFormed]; decide)).mpr (.inr (.inl ?_))
  exact ⟨.v4 10 0 0 1, .v4 192 0 2 1, by decide, by decide, by decide⟩

/-- A static mapping without any prefix is built from default addresses. -/
theorem build_undocumented_unset : ¬ ∀ (A : Asio) (plen : NatField → UInt16)
    (cs : List BuilderCall), (∀ c ∈ cs, c.WellFormed A) →
      buildAfter A plen cs = some (documentedMapping A cs) := by
  intro h
  have hunset := h .uncompressed (fun _ => 0) [.setType "static"] (by simp [WellFormed])
  rw [buildAfter_eq _ (by simp [WellFormed])] at hunset
  revert hunset
  decide

end Sweetcomb
