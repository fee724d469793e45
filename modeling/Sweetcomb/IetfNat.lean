import Sweetcomb.Session

/-!
# `nat_mapping_table_config_cb`

Static NAT mappings. One builder, one `xindex` and two flags are filled in by the loop
over the change set; one entry is then written or removed.
-/

namespace Sweetcomb

/-- The four address leaves of a mapping entry. -/
inductive NatField
  | internalSrc | externalSrc | internalDest | externalDest
deriving DecidableEq, Repr

/-- `class nat_static_builder`. -/
structure NatStaticBuilder where
  type : String := ""
  internalSrc : UtilsPrefix
  externalSrc : UtilsPrefix
  internalDest : UtilsPrefix
  externalDest : UtilsPrefix
  inside : Address := .default
  outside : Address := .default
deriving DecidableEq, Repr

namespace NatStaticBuilder

/-- A fresh builder; default prefixes hold whatever length they find. -/
def fresh (plen : NatField → UInt16) : NatStaticBuilder where
  internalSrc := .mk0 (plen .internalSrc)
  externalSrc := .mk0 (plen .externalSrc)
  internalDest := .mk0 (plen .internalDest)
  externalDest := .mk0 (plen .externalDest)

def setType (b : NatStaticBuilder) (t : String) : NatStaticBuilder := { b with type := t }

def set (b : NatStaticBuilder) : NatField → UtilsPrefix → NatStaticBuilder
  | .internalSrc, p => { b with internalSrc := p }
  | .externalSrc, p => { b with externalSrc := p }
  | .internalDest, p => { b with internalDest := p }
  | .externalDest, p => { b with externalDest := p }

/-- The four setters parse their text, and throw when that fails. -/
def setText (A : Asio) (f : NatField) (b : NatStaticBuilder) (p : String) :
    Option NatStaticBuilder :=
  (UtilsPrefix.makePrefix A p).map (b.set f)

def setInternalSrc (A : Asio) := setText A .internalSrc
def setExternalSrc (A : Asio) := setText A .externalSrc
def setInternalDest (A : Asio) := setText A .internalDest
def setExternalDest (A : Asio) := setText A .externalDest

/-- `build`: the object, and the builder with `m_inside` and `m_outside` filled in. -/
def build (A : Asio) (b : NatStaticBuilder) : Option NatStatic × NatStaticBuilder :=
  if b.type ≠ "static" then (none, b)
  else if !b.internalSrc.empty A && !b.externalSrc.empty A then
    let b := { b with inside := b.internalSrc.address, outside := b.externalSrc.address }
    (some ⟨b.inside, b.outside⟩, b)
  else if !b.internalDest.empty A && !b.externalDest.empty A then
    let b := { b with inside := b.internalDest.address, outside := b.externalDest.address }
    (some ⟨b.inside, b.outside⟩, b)
  else (none, b)

end NatStaticBuilder

/-- The variables that are declared without an initial value, as they are found. -/
structure NatStale where
  create : Bool
  remove : Bool
  xindex : UInt32
  rc : SrErr
  it : IterHandle
  plen : NatField → UInt16

/-- The flags happen to start as false. -/
structure NatStale.Cleared (stale : NatStale) : Prop where
  create : stale.create = false
  remove : stale.remove = false

/-- Garbage in which only the `create` flag and the iterator may be set. -/
def NatStale.garbage (create : Bool) (it : IterHandle) : NatStale where
  create := create
  remove := false
  xindex := 0
  rc := .ok
  it := it
  plen := fun _ => 0

/-- The local variables the loop works on. -/
structure NatLocals where
  builder : NatStaticBuilder
  xindex : UInt32
  create : Bool
  remove : Bool
deriving DecidableEq, Repr

def NatLocals.init (stale : NatStale) : NatLocals where
  builder := .fresh stale.plen
  xindex := stale.xindex
  create := stale.create
  remove := stale.remove

/-- A setter of the builder, called in the loop; no handler catches what it throws. -/
def natSet (set : NatStaticBuilder → String → Option NatStaticBuilder)
    (s : NatLocals × World) (p : String) : Except (Outcome × World) (NatLocals × World) :=
  match set s.1.builder p with
  | some builder => .ok ({ s.1 with builder }, s.2)
  | none => .error (.faults .throws, s.2)

/-- The `switch (oper)` of the loop. -/
def natSwitch (A : Asio) (s : NatLocals × World) (c : Change) :
    Except (Outcome × World) (NatLocals × World) :=
  let (l, w) := s
  match c with
  | .created ne =>
    if ne.xpath.nodeNameEq "index" then
      .ok ({ l with xindex := ne.data.uint32Val, create := true }, w)
    else if ne.xpath.nodeNameEq "type" then
      .ok ({ l with builder := l.builder.setType ne.data.stringVal }, w)
    else if ne.xpath.nodeNameEq "internal-src-address" then
      natSet (NatStaticBuilder.setInternalSrc A) s ne.data.stringVal
    else if ne.xpath.nodeNameEq "external-src-address" then
      natSet (NatStaticBuilder.setExternalSrc A) s ne.data.stringVal
    else if ne.xpath.nodeNameEq "internal-dst-address" then
      natSet (NatStaticBuilder.setInternalDest A) s ne.data.stringVal
    else if ne.xpath.nodeNameEq "external-dst-address" then
      natSet (NatStaticBuilder.setExternalDest A) s ne.data.stringVal
    else .ok (l, w)
  | .deleted ol =>
    if ol.xpath.nodeNameEq "index" then
      .ok ({ l with xindex := ol.data.uint32Val, remove := true }, w)
    else .ok (l, w)
  -- default
  | .modified .. => .error (leave .unsupported w)
  | .moved .. => .error (leave .unsupported w)

/-- `KEY(xindex)`: `to_string(xindex)`. -/
def natKey (xindex : UInt32) : String := xindex.toNat.repr

/-- What follows the loop; the iterator is released first, and again at the label `error`. -/
def natCommit (env : Env) (l : NatLocals) (w : World) : Outcome × World :=
  let w := w.called (.freeChangeIter .live)
  if l.create then
    match l.builder.build env.asio with
    | (none, _) => leave .invalArg w
    | (some ns, builder) =>
      match w.omWrite env (natKey l.xindex) (.natStatic ns) with
      | (.failed, w) => leave .operationFailed w
      | (.ok, w) =>
        (.returns .ok, { w with
          table := Function.update w.table l.xindex (some (builder.inside, builder.outside)) })
  else if l.remove then
    let w := w.omRemove (natKey l.xindex)
    (.returns .ok, { w with table := Function.update w.table l.xindex none })
  else (.returns .ok, w)

/-- Without an iterator the label `error` releases the handle as it was found. -/
def natNoIter (it : IterHandle) (rc : SrErr) (w : World) : Outcome × World :=
  let w := (w.called (.getChangesIter rc)).called (.freeChangeIter it)
  if it = .null then (.returns rc, w) else (.faults .wildIter, w)

def natMappingTableConfigCb (env : Env) (stale : NatStale) (event : NotifEvent)
    (changes : Except SrErr (List Change)) (w : World) : Outcome × World :=
  if event ≠ .verify then (.returns .ok, w)
  else match changes with
    | .error rc => natNoIter stale.it rc w
    | .ok changes =>
      match foreachChange event (natSwitch env.asio) changes
          (.init stale, w.called (.getChangesIter .ok)) with
      | .error out => out
      | .ok (l, w) => natCommit env l w

end Sweetcomb
