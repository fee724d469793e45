import Sweetcomb.NatChangeSet
import Sweetcomb.PrefixCover
import Sweetcomb.Lib.FieldRewrite

/-!
# What a mapping entry means

An entry describes the packets it translates, by addresses, ports and protocol, at their
source and at their destination. The callback installs a translation of one address to
another. The two agree exactly for the entries that are one-to-one.
-/

namespace Sweetcomb

/-! ## Entries -/

/-- The leaves of a `port-number` container; a start alone is a single port. -/
structure PortRange where
  start : UInt16
  stop : Option UInt16
deriving DecidableEq, Repr

def PortRange.Admits (r : PortRange) (p : UInt16) : Prop :=
  r.start ≤ p ∧ p ≤ r.stop.getD r.start

def NatField.portNode : NatField → String
  | internalSrc => "internal-src-port"
  | externalSrc => "external-src-port"
  | internalDest => "internal-dst-port"
  | externalDest => "external-dst-port"

/-- A mapping entry with everything that says which packets it is for; all but the index is
optional. -/
structure NatMapping where
  index : UInt32
  type : Option String
  protocol : Option UInt8
  text : NatField → Option String
  ports : NatField → Option PortRange

namespace NatMapping

def addressValues (id : UInt32) (m : NatMapping) (f : NatField) : List SrVal :=
  ((m.text f).map fun p => ⟨natPath id m.index f.node, .string p⟩).toList

def portValues (id : UInt32) (m : NatMapping) (f : NatField) : List SrVal :=
  match m.ports f with
  | none => []
  | some r =>
    let port := natPath id m.index f.portNode
    ⟨port, .container⟩ :: ⟨port ++ [⟨"start-port-number", []⟩], .uint16 r.start⟩ ::
      (r.stop.map fun n => ⟨port ++ [⟨"end-port-number", []⟩], .uint16 n⟩).toList

/-- The nodes of an entry, in the order of the schema. -/
def values (id : UInt32) (m : NatMapping) : List SrVal :=
  ⟨(natPath id m.index "index").dropLast, .list⟩ ::
    ⟨natPath id m.index "index", .uint32 m.index⟩ ::
    ((m.type.map fun t => ⟨natPath id m.index "type", .enum t⟩).toList ++
      (m.protocol.map fun n => ⟨natPath id m.index "transport-protocol", .uint8 n⟩).toList ++
      NatField.all.flatMap fun f => m.addressValues id f ++ m.portValues id f)

/-- The change set that creates an entry. -/
def changes (id : UInt32) (m : NatMapping) : List Change := (m.values id).map .created

/-- The prefix in an address leaf. -/
def prefixOf (A : Asio) (m : NatMapping) (f : NatField) : Option UtilsPrefix :=
  (m.text f).bind (UtilsPrefix.makePrefix A)

/-- The address the builder has for a leaf. -/
def addressOf (A : Asio) (m : NatMapping) (f : NatField) : Address :=
  ((m.prefixOf A f).map (·.address)).getD .default

/-- The source pair of an entry, with the default address for a missing leaf. -/
def sourcePair (A : Asio) (m : NatMapping) : NatStatic :=
  ⟨m.addressOf A .internalSrc, m.addressOf A .externalSrc⟩

end NatMapping

/-! ## The packets of an entry -/

inductive NatSide
  | source | destination
deriving DecidableEq, Repr

def NatSide.internal : NatSide → NatField
  | source => .internalSrc
  | destination => .internalDest

def NatSide.external : NatSide → NatField
  | source => .externalSrc
  | destination => .externalDest

/-- A packet as it arrives at the internal interface and as it is sent on the external one. -/
structure Translation where
  protocol : UInt8
  address : NatSide → Address × Address
  port : NatSide → UInt16 × UInt16

open FieldRewrite

namespace NatMapping

/-- What an entry says of the address at one side of a packet. -/
def AddressRule (A : Asio) (m : NatMapping) (s : NatSide) : Address × Address → Prop :=
  Rewrites ((m.prefixOf A s.internal).map UtilsPrefix.Covers)
    ((m.prefixOf A s.external).map UtilsPrefix.Covers)

def PortRule (m : NatMapping) (s : NatSide) : UInt16 × UInt16 → Prop :=
  Rewrites ((m.ports s.internal).map PortRange.Admits) ((m.ports s.external).map PortRange.Admits)

def ProtocolRule (m : NatMapping) (n : UInt8) : Prop := ∀ k, m.protocol = some k → n = k

/-- The packet is one the entry is for, and is rewritten as the entry says. -/
def Describes (A : Asio) (m : NatMapping) (t : Translation) : Prop :=
  m.ProtocolRule t.protocol ∧ (∀ s, m.AddressRule A s (t.address s)) ∧
    ∀ s, m.PortRule s (t.port s)

end NatMapping

namespace NatStatic

/-- The address inside becomes the address outside, at one side of the packet. -/
def AddressRule (ns : NatStatic) (side s : NatSide) (c : Address × Address) : Prop :=
  if s = side then c = (ns.inside, ns.outside) else c.2 = c.1

/-- A static mapping translates at its side of the packet, for every protocol and port. -/
def Translates (ns : NatStatic) (side : NatSide) (t : Translation) : Prop :=
  (∀ s, ns.AddressRule side s (t.address s)) ∧ ∀ s, (t.port s).2 = (t.port s).1

end NatStatic

/-- The entry is for one address at one side, which it maps as `ns` does. -/
structure NatMapping.OneToOne (A : Asio) (m : NatMapping) (ns : NatStatic) (side : NatSide) :
    Prop where
  protocol : m.protocol = none
  ports : ∀ s : NatSide, (∀ r, m.ports s.internal = some r → r.start = 0 ∧ r.stop = some 65535) ∧
    m.ports s.external = none
  others : ∀ s : NatSide, s ≠ side → m.prefixOf A s.internal = none ∧ m.prefixOf A s.external = none
  inside : ∃ p, m.prefixOf A side.internal = some p ∧ p.IsHost ∧ p.address = ns.inside
  outside : (∃ q, m.prefixOf A side.external = some q ∧ q.IsHost ∧ q.address = ns.outside) ∨
    m.prefixOf A side.external = none ∧ ns.outside = ns.inside

theorem PortRange.admits_all_iff {r : PortRange} :
    (∀ p, r.Admits p) ↔ r.start = 0 ∧ r.stop = some 65535 := by
  have htop : (65535 : UInt16).toNat = 65535 := rfl
  constructor
  · intro h
    have hstart : r.start = 0 := by
      have h0 := UInt16.le_iff_toNat_le.mp (h 0).1
      rw [← UInt16.toNat_inj]
      simpa using h0
    refine ⟨hstart, ?_⟩
    have hmax := UInt16.le_iff_toNat_le.mp (h 65535).2
    rw [htop, hstart] at hmax
    cases hstop : r.stop with
    | none => simp [hstop] at hmax
    | some n =>
      have hn := n.toNat_lt
      simp only [hstop, Option.getD_some] at hmax
      rw [Option.some.injEq, ← UInt16.toNat_inj, htop]
      omega
  · rintro ⟨hstart, hstop⟩ p
    have hp := p.toNat_lt
    rw [Admits, hstart, hstop, Option.getD_some, UInt16.le_iff_toNat_le, UInt16.le_iff_toNat_le,
      htop]
    exact ⟨Nat.zero_le _, by omega⟩

section Meaning

variable {A : Asio} {m : NatMapping} {ns : NatStatic} {side : NatSide}

/-- An entry and a mapping agree when they agree about each field of a packet. -/
theorem describes_iff_rules : (∀ t, m.Describes A t ↔ ns.Translates side t) ↔
    (∀ n, m.ProtocolRule n) ∧
    (∀ s c, m.AddressRule A s c ↔ ns.AddressRule side s c) ∧
    ∀ s c, m.PortRule s c ↔ c.2 = c.1 := by
  have haddress : ∃ t : NatSide → Address × Address, ∀ s, ns.AddressRule side s (t s) :=
    ⟨fun s => if s = side then (ns.inside, ns.outside) else (.default, .default), fun s => by
      by_cases hs : s = side <;> simp [NatStatic.AddressRule, hs]⟩
  have hport : ∃ u : NatSide → UInt16 × UInt16, ∀ s, (u s).2 = (u s).1 :=
    ⟨fun _ => (0, 0), fun _ => rfl⟩
  have hparts : (∀ t, m.Describes A t ↔ ns.Translates side t) ↔
      ∀ n (x : (NatSide → Address × Address) × (NatSide → UInt16 × UInt16)),
        (m.ProtocolRule n ∧ (∀ s, m.AddressRule A s (x.1 s)) ∧ ∀ s, m.PortRule s (x.2 s)) ↔
          (True ∧ (∀ s, ns.AddressRule side s (x.1 s)) ∧ ∀ s, (x.2 s).2 = (x.2 s).1) := by
    simp only [true_and]
    exact ⟨fun h n x => h ⟨n, x.1, x.2⟩, fun h t => h t.protocol (t.address, t.port)⟩
  obtain ⟨t, ht⟩ := haddress
  obtain ⟨u, hu⟩ := hport
  rw [hparts, forall_and_iff ⟨0, trivial⟩ ⟨(t, u), ht, hu⟩, Prod.forall]
  dsimp only
  rw [forall_and_iff ⟨t, ht⟩ ⟨u, hu⟩, forall_pi_iff ⟨t, ht⟩,
    forall_pi_iff (G := fun (_ : NatSide) (c : UInt16 × UInt16) => c.2 = c.1) ⟨u, hu⟩]
  simp only [iff_true]

theorem protocolRule_iff : (∀ n, m.ProtocolRule n) ↔ m.protocol = none := by
  constructor
  · intro h
    cases hp : m.protocol with
    | none => rfl
    | some k =>
      -- another protocol than the one of the entry
      have hk := (h (k + 1) k hp)
      simp at hk
  · intro h n k hk
    rw [h] at hk
    cases hk

theorem portRule_iff (s : NatSide) : (∀ c, m.PortRule s c ↔ c.2 = c.1) ↔
    (∀ r, m.ports s.internal = some r → r.start = 0 ∧ r.stop = some 65535) ∧
      m.ports s.external = none := by
  have : Nontrivial UInt16 := ⟨0, 1, by decide⟩
  unfold NatMapping.PortRule
  rw [rewrites_unchanged_iff, Option.map_eq_none_iff]
  refine and_congr_left fun _ => ?_
  simp only [Option.map_eq_some_iff, forall_exists_index, and_imp, forall_apply_eq_imp_iff₂,
    PortRange.admits_all_iff]

instance : Nontrivial Address := ⟨.v4 0 0 0 0, .v4 0 0 0 1, by decide⟩

/-- A side that the mapping leaves alone has no address leaf. -/
theorem addressRule_unchanged_iff (s : NatSide) : (∀ c, m.AddressRule A s c ↔ c.2 = c.1) ↔
    m.prefixOf A s.internal = none ∧ m.prefixOf A s.external = none := by
  unfold NatMapping.AddressRule
  rw [rewrites_unchanged_iff, Option.map_eq_none_iff]
  refine and_congr_left fun _ => ?_
  cases m.prefixOf A s.internal with
  | none => simp
  | some p =>
    obtain ⟨a, ha⟩ := p.exists_not_covers
    simp only [Option.map_some, Option.some.injEq, forall_eq', reduceCtorEq, iff_false]
    exact fun h => ha (h a)

theorem addressRule_single_iff (s : NatSide) {a b : Address} :
    (∀ c, m.AddressRule A s c ↔ c = (a, b)) ↔
    (∃ p, m.prefixOf A s.internal = some p ∧ p.IsHost ∧ p.address = a) ∧
      ((∃ q, m.prefixOf A s.external = some q ∧ q.IsHost ∧ q.address = b) ∨
        m.prefixOf A s.external = none ∧ b = a) := by
  unfold NatMapping.AddressRule
  rw [rewrites_single_iff]
  simp only [Option.map_eq_some_iff, Option.map_eq_none_iff, exists_exists_and_eq_and,
    UtilsPrefix.covers_single_iff]

/-- The entries that a mapping of one address to another expresses. -/
theorem describes_iff : (∀ t, m.Describes A t ↔ ns.Translates side t) ↔ m.OneToOne A ns side := by
  rw [describes_iff_rules, protocolRule_iff]
  constructor
  · rintro ⟨hprotocol, haddress, hport⟩
    have hside : ∀ c, m.AddressRule A side c ↔ c = (ns.inside, ns.outside) := by
      simpa [NatStatic.AddressRule] using haddress side
    obtain ⟨hinside, houtside⟩ := (addressRule_single_iff side).mp hside
    refine ⟨hprotocol, fun s => (portRule_iff s).mp (hport s), fun s hs => ?_, hinside, houtside⟩
    apply (addressRule_unchanged_iff s).mp
    simpa [NatStatic.AddressRule, hs] using haddress s
  · intro h
    refine ⟨h.protocol, fun s => ?_, fun s => (portRule_iff s).mpr (h.ports s)⟩
    by_cases hs : s = side
    · subst hs
      simpa [NatStatic.AddressRule] using (addressRule_single_iff s).mpr ⟨h.inside, h.outside⟩
    · simpa [NatStatic.AddressRule, hs] using (addressRule_unchanged_iff s).mpr (h.others s hs)

end Meaning

/-! ## The callback on one created entry -/

section Callback

variable {A : Asio} {m : NatMapping} {id : UInt32}

theorem filterMap_toList {α β : Type} (h : α → Option β) (o : Option α) :
    o.toList.filterMap h = (o.bind h).toList := by
  cases o with
  | none => rfl
  | some a =>
    rw [Option.toList_some, List.filterMap_cons, Option.bind_some]
    cases h a <;> rfl

theorem filterMap_cons_toList {α β : Type} (h : α → Option β) (a : α) (l : List α) :
    (a :: l).filterMap h = (h a).toList ++ l.filterMap h := by
  rw [List.filterMap_cons]
  cases h a <;> rfl

theorem natEvent_address (i : UInt32) (f : NatField) (p : String) :
    (Change.created ⟨natPath id i f.node, .string p⟩).natEvent = .createAddress f p := by
  cases f <;> rfl

/-- Protocol and ports are passed over. -/
theorem natEvent_port (f : NatField) : ∀ v ∈ m.portValues id f,
    (Change.created v).natEvent = .other := by
  unfold NatMapping.portValues
  cases m.ports f with
  | none => simp
  | some r => cases f <;> cases hstop : r.stop <;>
      simp [hstop, Change.natEvent, XPath.nodeNameEq, NatField.portNode, natPath]

/-- What the loop reads off an entry. -/
theorem filterMap_changes {β : Type} (g : NatEvent → Option β) (hg : g .other = none) :
    ((m.changes id).filterMap fun c => g c.natEvent) =
      (g (.createIndex m.index)).toList ++ (m.type.bind fun t => g (.createType t)).toList ++
        NatField.all.filterMap fun f => (m.text f).bind fun p => g (.createAddress f p) := by
  let h := fun v : SrVal => g (Change.created v).natEvent
  have hfields : ∀ fs : List NatField,
      (fs.flatMap fun f => m.addressValues id f ++ m.portValues id f).filterMap h =
        fs.filterMap fun f => (m.text f).bind fun p => g (.createAddress f p) := by
    intro fs
    rw [List.filterMap_flatMap, List.filterMap_eq_flatMap_toList]
    refine congrArg (fun k => fs.flatMap k) (funext fun f => ?_)
    have hports : (m.portValues id f).filterMap h = [] :=
      List.filterMap_eq_nil_iff.mpr fun v hv => by simp [h, natEvent_port f v hv, hg]
    rw [List.filterMap_append, hports, List.append_nil, NatMapping.addressValues, filterMap_toList,
      Option.bind_map]
    simp only [Function.comp_def, h, natEvent_address]
  have hvalues : (m.values id).filterMap h =
      (g (.createIndex m.index)).toList ++ ((m.type.bind fun t => g (.createType t)).toList ++
        (m.protocol.bind fun _ => g .other).toList ++ NatField.all.filterMap fun f =>
          (m.text f).bind fun p => g (.createAddress f p)) := by
    have hlist : h ⟨(natPath id m.index "index").dropLast, .list⟩ = none := hg
    rw [NatMapping.values, List.filterMap_cons_none hlist, filterMap_cons_toList,
      List.filterMap_append, List.filterMap_append, filterMap_toList, filterMap_toList,
      Option.bind_map, Option.bind_map, hfields]
    rfl
  rw [NatMapping.changes, List.filterMap_map]
  show (m.values id).filterMap h = _
  rw [hvalues, hg]
  simp

theorem createsIndex_mapping : CreatesIndex (m.changes id) :=
  ⟨.created ⟨natPath id m.index "index", .uint32 m.index⟩, by
    simp [NatMapping.changes, NatMapping.values], m.index, rfl⟩

theorem indicesIn_mapping : indicesIn (m.changes id) = [m.index] := by
  rw [indicesIn, filterMap_changes NatEvent.index rfl]
  cases m.type <;> simp [NatEvent.index]

theorem lastType_mapping : lastType (m.changes id) = m.type.getD "" := by
  rw [lastType, filterMap_changes NatEvent.mappingType rfl]
  cases m.type <;> simp [NatEvent.mappingType]

theorem lastAddress_mapping (f : NatField) :
    lastAddress A f (m.changes id) = m.addressOf A f := by
  rw [lastAddress, filterMap_changes (NatEvent.address A f) rfl]
  have haddr : m.addressOf A f = ((m.text f).bind fun p =>
      (UtilsPrefix.makePrefix A p).map (·.address)).getD .default := by
    rw [NatMapping.addressOf, NatMapping.prefixOf]
    cases m.text f <;> rfl
  rw [haddr]
  -- the other leaves give nothing to this field
  cases f <;> cases m.type <;>
    · simp only [NatEvent.address, NatField.all, List.filterMap_cons, reduceCtorEq, if_false,
        if_true, Option.bind_fun_none, Option.toList_none, List.nil_append]
      cases Option.bind _ _ <;> rfl

/-- The loop is left when some address does not parse. -/
theorem exit_mapping : (∀ c ∈ m.changes id, c.natEvent.exit A = none) ↔
    ∀ f p, m.text f = some p → (UtilsPrefix.makePrefix A p).isSome := by
  rw [← List.filterMap_eq_nil_iff, filterMap_changes (NatEvent.exit A) rfl]
  have hall : ∀ f, f ∈ NatField.all := by
    intro f
    cases f <;> decide
  have htype : (m.type.bind fun t => (NatEvent.createType t).exit A) = none := by
    cases m.type <;> rfl
  rw [htype]
  simp only [NatEvent.exit, Option.toList_none, List.nil_append, List.filterMap_eq_nil_iff, hall,
    forall_const, Option.bind_eq_none_iff, ite_eq_left_iff, reduceCtorEq, imp_false, not_not]

end Callback

/-- The callback refuses the entry: an address does not parse, the type is not supported, or
VPP does not accept the mapping. -/
def NatMapping.Refused (env : Env) (w : World) (m : NatMapping) : Prop :=
  (∃ f p, m.text f = some p ∧ UtilsPrefix.makePrefix env.asio p = none) ∨
  m.type ≠ some "static" ∨
  env.hw (w.ops ++ [.write (natKey m.index) (.natStatic (m.sourcePair env.asio))]) = .failed

section Effect

variable {env : Env} (stale : NatStale) (id : UInt32) {m : NatMapping} {w : World}

/-- Addresses that parse are committed, whatever the flags start as. -/
theorem mapping_commit
    (hparse : ∀ f p, m.text f = some p → (UtilsPrefix.makePrefix env.asio p).isSome) :
    effect (natMappingTableConfigCb env stale .verify (.ok (m.changes id)) w) =
      if m.type = some "static" then
        natWriteEffect env m.index (m.sourcePair env.asio) (w.afterAsked (m.changes id))
      else ⟨.returns .invalArg, w.ops, w.om, w.table⟩ := by
  have hcreate : ((NatLocals.init stale).run env.asio (m.changes id)).create = true :=
    NatLocals.run_create.mpr (.inr createsIndex_mapping)
  have htype : ((NatLocals.init stale).run env.asio (m.changes id)).builder.type =
      m.type.getD "" := by
    rw [NatLocals.run_type, lastType_mapping]
  have hindex : ((NatLocals.init stale).run env.asio (m.changes id)).xindex = m.index := by
    rw [NatLocals.run_xindex, indicesIn_mapping]
    rfl
  rw [nat_eq_commit (exit_mapping.mpr hparse)]
  by_cases ht : m.type = some "static"
  · rw [if_pos ht, natCommit_create hcreate (by rw [htype, ht]; rfl), hindex,
      NatLocals.run_address, NatLocals.run_address, lastAddress_mapping, lastAddress_mapping]
    rfl
  · have hne : m.type.getD "" ≠ "static" := by
      cases hm : m.type with
      | none => simp
      | some t =>
        rw [hm, Option.some.injEq] at ht
        exact ht
    rw [if_neg ht, natCommit_unbuildable hcreate (by rwa [htype])]
    simp

theorem mapping_ok_iff :
    (effect (natMappingTableConfigCb env stale .verify (.ok (m.changes id)) w)).outcome =
      .returns .ok ↔ ¬ m.Refused env w := by
  by_cases hparse : ∀ f p, m.text f = some p → (UtilsPrefix.makePrefix env.asio p).isSome
  · have hread : ¬ ∃ f p, m.text f = some p ∧ UtilsPrefix.makePrefix env.asio p = none := by
      rintro ⟨f, p, hp, hnone⟩
      have hsome := hparse f p hp
      rw [hnone] at hsome
      cases hsome
    rw [mapping_commit stale id hparse, NatMapping.Refused, or_iff_right hread]
    by_cases ht : m.type = some "static"
    · rw [if_pos ht, natWriteEffect_ok_iff, afterAsked_ops, ht]
      simp
    · rw [if_neg ht]
      simp [ht]
  · refine iff_of_false ?_ fun h => h (.inl ?_)
    · rcases nat_cases env w (m.changes id) with ⟨hnone, -⟩ | ⟨pre, c, -, out, hout, hrun⟩
      · exact (hparse (exit_mapping.mp hnone)).elim
      · rw [hrun]
        exact (NatEvent.exit_refuses hout (w.afterAsked pre)).1
    · push Not at hparse
      obtain ⟨f, p, hp, hnone⟩ := hparse
      exact ⟨f, p, hp, by simpa using hnone⟩

/-- An entry that is not refused is written as the builder has it. -/
theorem mapping_installed (h : ¬ m.Refused env w) :
    let r := effect (natMappingTableConfigCb env stale .verify (.ok (m.changes id)) w)
    r.ops = w.ops ++ [.write (natKey m.index) (.natStatic (m.sourcePair env.asio))] ∧
      r.om = w.om.write (natKey m.index) (.natStatic (m.sourcePair env.asio)) := by
  have hok := (mapping_ok_iff stale id).mpr h
  have hparse : ∀ f p, m.text f = some p → (UtilsPrefix.makePrefix env.asio p).isSome := by
    intro f p hp
    by_contra hnone
    exact h (.inl ⟨f, p, hp, by simpa using hnone⟩)
  have ht : m.type = some "static" := by
    by_contra ht
    exact h (.inr (.inl ht))
  rw [mapping_commit stale id hparse, if_pos ht] at hok ⊢
  refine ⟨?_, ?_⟩
  · rw [natWriteEffect_ops, afterAsked_ops]
  · rw [(natWriteEffect_of_outcome hok).1, afterAsked_om]

end Effect

/-- A created entry is refused, or installed as a mapping that translates the packets it
describes, exactly when it is refused or one-to-one as the builder reads it. -/
theorem mapping_means_iff (env : Env) (stale : NatStale) (id : UInt32) (m : NatMapping)
    (w : World) :
    let r := effect (natMappingTableConfigCb env stale .verify (.ok (m.changes id)) w)
    (r.outcome = .returns .ok → ∃ ns side,
        r.ops = w.ops ++ [.write (natKey m.index) (.natStatic ns)] ∧
        (natKey m.index, .natStatic ns) ∈ r.om.refs ∧
        ∀ t, m.Describes env.asio t ↔ ns.Translates side t) ↔
      m.Refused env w ∨ ∃ side, m.OneToOne env.asio (m.sourcePair env.asio) side := by
  intro r
  by_cases href : m.Refused env w
  · exact iff_of_true (fun hok => ((mapping_ok_iff stale id).mp hok href).elim) (.inl href)
  rw [or_iff_right href]
  have hok : r.outcome = .returns .ok := (mapping_ok_iff stale id).mpr href
  obtain ⟨hops, hom⟩ := mapping_installed stale id href
  constructor
  · intro h
    obtain ⟨ns, side, hns, -, hmeans⟩ := h hok
    have hpair : ns = m.sourcePair env.asio := by
      have hlast := List.append_cancel_left (hns.symm.trans hops)
      simpa using hlast
    rw [hpair] at hmeans
    exact ⟨side, describes_iff.mp hmeans⟩
  · rintro ⟨side, hone⟩ -
    refine ⟨m.sourcePair env.asio, side, hops, ?_, describes_iff.mpr hone⟩
    show _ ∈ r.om.refs
    rw [show r.om = _ from hom, Store.write_refs]
    exact Finset.mem_insert_self _ _


/-- The internal prefix of a static entry covers 256 addresses. -/
def subnetMapping : NatMapping where
  index := 1
  type := some "static"
  protocol := none
  text
    | .internalSrc => some "10.0.0.0/24"
    | .externalSrc => some "192.0.2.1/32"
    | _ => none
  ports _ := none

/-- It is installed for the one address that is written in the prefix. -/
theorem subnet_mapping_reduced : ¬ ∀ (env : Env) (stale : NatStale) (id : UInt32)
    (m : NatMapping) (w : World),
    let r := effect (natMappingTableConfigCb env stale .verify (.ok (m.changes id)) w)
    r.outcome = .returns .ok → ∃ ns side,
      r.ops = w.ops ++ [.write (natKey m.index) (.natStatic ns)] ∧
      (natKey m.index, .natStatic ns) ∈ r.om.refs ∧
      ∀ t, m.Describes env.asio t ↔ ns.Translates side t := by
  intro h
  have hmeans := h .accepting (.garbage false .null) 0 subnetMapping (.ofInterfaces [])
  rcases (mapping_means_iff _ _ _ _ _).mp hmeans with href | ⟨side, hone⟩
  · have hok := (mapping_ok_iff (.garbage false .null) 0).not_left.mpr href
    exact hok (by decide)
  · obtain ⟨p, hp, hhost, -⟩ := hone.inside
    cases side with
    | source =>
      have hsome : subnetMapping.prefixOf .uncompressed .internalSrc =
          some ⟨.v4 10 0 0 0, 24⟩ := by decide
      obtain rfl : p = ⟨.v4 10 0 0 0, 24⟩ := Option.some.inj (hp.symm.trans hsome)
      revert hhost
      decide
    | destination => cases hp

end Sweetcomb
