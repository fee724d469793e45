import Sweetcomb.Session

/-!
# `ietf_interface_create_cb`

Creation, deletion and admin state of interfaces. One builder, one `intf` pointer and
three flags are filled in by the loop over the change set; one store operation follows.
-/

namespace Sweetcomb

/-- `class interface_builder`, the same in the ietf and in the openconfig plugin. -/
structure InterfaceBuilder where
  name : String := ""
  type : String := ""
  state : Bool
deriving DecidableEq, Repr

namespace InterfaceBuilder

def setName (b : InterfaceBuilder) (n : String) : InterfaceBuilder := { b with name := n }

def setType (b : InterfaceBuilder) (t : String) : InterfaceBuilder :=
  if t = "iana-if-type:ethernetCsmacd" then { b with type := "ETHERNET" } else b

def setState (b : InterfaceBuilder) (enable : Bool) : InterfaceBuilder := { b with state := enable }

def build (b : InterfaceBuilder) : Option Interface :=
  if b.name.isEmpty || b.type.isEmpty then none else some ⟨b.name, b.type, b.state⟩

end InterfaceBuilder

/-- `shared_ptr<VOM::interface>`: null, an object of the store, or one just built. -/
inductive InterfacePtr
  | null
  | stored (name : String)
  | built (i : Interface)
deriving DecidableEq, Repr

/-- `*intf`. The pointer keeps a stored object alive, so it is found as long as it is held. -/
def InterfacePtr.deref (om : Store) : InterfacePtr → Option Interface
  | null => none
  | stored name => om.find name
  | built i => some i

/-- The variables that are declared without an initial value, as they are found. -/
structure InterfaceStale where
  create : Bool
  remove : Bool
  modify : Bool
  rc : SrErr
  state : Bool
deriving DecidableEq, Repr

/-- The flags happen to start as false. -/
structure InterfaceStale.Cleared (stale : InterfaceStale) : Prop where
  create : stale.create = false
  remove : stale.remove = false
  modify : stale.modify = false

/-- Garbage in which only the `create` flag and the state may be set. -/
def InterfaceStale.garbage (create state : Bool) : InterfaceStale where
  create := create
  remove := false
  modify := false
  rc := .ok
  state := state

/-- The local variables the loop works on. -/
structure InterfaceLocals where
  intf : InterfacePtr
  builder : InterfaceBuilder
  create : Bool
  remove : Bool
  modify : Bool
deriving DecidableEq, Repr

def InterfaceLocals.init (stale : InterfaceStale) : InterfaceLocals where
  intf := .null
  builder := { state := stale.state }
  create := stale.create
  remove := stale.remove
  modify := stale.modify

/-- The `switch (op)` of both interface callbacks. -/
def interfaceSwitch (s : InterfaceLocals × World) (c : Change) :
    Except (Outcome × World) (InterfaceLocals × World) :=
  let (l, w) := s
  match c with
  | .modified _ new =>
    if new.xpath.nodeNameEq "enabled" then
      match new.xpath.keyValue "interface" "name" with
      -- std::string made of the null pointer
      | none => .error (.faults .throws, w)
      | some n =>
        match w.om.find n with
        | none => .error (leave .operationFailed w)
        | some _ =>
          .ok ({ l with intf := .stored n, modify := true }, w.setState n new.data.boolVal)
    else .ok (l, w)
  | .created new =>
    if new.xpath.nodeNameEq "name" then
      .ok ({ l with builder := l.builder.setName new.data.stringVal, create := true }, w)
    else if new.xpath.nodeNameEq "type" then
      .ok ({ l with builder := l.builder.setType new.data.stringVal }, w)
    else if new.xpath.nodeNameEq "enabled" then
      .ok ({ l with builder := l.builder.setState new.data.boolVal }, w)
    else .ok (l, w)
  | .deleted old =>
    if old.xpath.nodeNameEq "name" then
      .ok ({ l with builder := l.builder.setName old.data.stringVal, remove := true }, w)
    else .ok (l, w)
  -- default
  | .moved .. => .error (leave .unsupported w)

/-- What both interface callbacks do after the loop. -/
def interfaceCommit (env : Env) (l : InterfaceLocals) (w : World) : Outcome × World :=
  match if l.create then l.builder.build.map .built else some l.intf with
  | none => leave .invalArg w
  | some intf =>
    if l.create || l.modify then
      match intf.deref w.om with
      -- intf->key() through the null pointer
      | none => (.faults .nullInterface, w)
      | some i =>
        match w.omWrite env i.name (.interface i) with
        | (.ok, w) => leave .ok w
        | (.failed, w) => leave .operationFailed w
    else if l.remove then leave .ok (w.omRemove l.builder.name)
    else leave .ok w

/-- The loop of a callback over the changes, then its commit. -/
def interfaceRun (env : Env) (event : NotifEvent)
    (body : InterfaceLocals × World → Change → Except (Outcome × World) (InterfaceLocals × World))
    (changes : List Change) (stale : InterfaceStale) (w : World) : Outcome × World :=
  match foreachChange event body changes (.init stale, w.called (.getChangesIter .ok)) with
  | .error out => out
  | .ok (l, w) => interfaceCommit env l w

/-- `changes` is what `sr_get_changes_iter` gives: an error, or the change set. -/
def ietfInterfaceCreateCb (env : Env) (stale : InterfaceStale) (event : NotifEvent)
    (changes : Except SrErr (List Change)) (w : World) : Outcome × World :=
  if event ≠ .verify then (.returns .ok, w)
  else match changes with
    | .error rc =>
      (.returns .operationFailed,
        (w.called (.getChangesIter rc)).called (.freeChangeIter .null))
    | .ok changes => interfaceRun env event interfaceSwitch changes stale w

end Sweetcomb
