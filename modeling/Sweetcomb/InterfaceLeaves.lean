import Sweetcomb.OpenconfigInterfaces

/-!
# The leaves of an interface

How sysrepo reports changes of the `name`, `type` and `enabled` leaves in the ietf and in
the openconfig tree, and what the two loops make of them.
-/

namespace Sweetcomb

/-- `/ietf-interfaces:interfaces/interface[name='itf']/node`. -/
def ietfPath (itf node : String) : XPath :=
  [⟨"ietf-interfaces:interfaces", []⟩, ⟨"interface", [("name", itf)]⟩, ⟨node, []⟩]

/-- `/openconfig-interfaces:interfaces/interface[name='itf']/config/node`. -/
def ocPath (itf node : String) : XPath :=
  [⟨"openconfig-interfaces:interfaces", []⟩, ⟨"interface", [("name", itf)]⟩, ⟨"config", []⟩,
    ⟨node, []⟩]

inductive InterfaceLeaf
  | name
  | type (t : String)
  | enabled (b : Bool)
deriving DecidableEq, Repr

def InterfaceLeaf.node : InterfaceLeaf → String
  | name => "name"
  | type _ => "type"
  | enabled _ => "enabled"

/-- The value of the leaf; `name` is the key of its list. -/
def InterfaceLeaf.data (itf : String) : InterfaceLeaf → SrData
  | name => .string itf
  | type t => .identityref t
  | enabled b => .bool b

/-- A change of one leaf of the interface `itf`. -/
inductive LeafChange
  | created (itf : String) (leaf : InterfaceLeaf)
  | modified (itf : String) (old new : InterfaceLeaf)
  | deleted (itf : String) (leaf : InterfaceLeaf)
deriving DecidableEq, Repr

namespace LeafChange

def itf : LeafChange → String
  | created itf _ => itf
  | modified itf _ _ => itf
  | deleted itf _ => itf

def isDeleted : LeafChange → Bool
  | deleted .. => true
  | _ => false

/-- The change as it is reported in the tree with these paths. -/
def reported (path : String → String → XPath) : LeafChange → Change
  | created itf leaf => .created ⟨path itf leaf.node, leaf.data itf⟩
  | modified itf old new =>
    .modified ⟨path itf old.node, old.data itf⟩ ⟨path itf new.node, new.data itf⟩
  | deleted itf leaf => .deleted ⟨path itf leaf.node, leaf.data itf⟩

def event : LeafChange → LeafEvent
  | created itf .name => .createName itf
  | created _ (.type t) => .createType t
  | created _ (.enabled b) => .createEnabled b
  | modified itf _ (.enabled b) => .modifyEnabled (some itf) b
  | modified _ _ _ => .other
  | deleted itf .name => .deleteName itf
  | deleted _ _ => .other

/-- An ethernet interface with all its leaves is created. -/
def creation (itf : String) (b : Bool) : List LeafChange :=
  [.created itf .name, .created itf (.type "iana-if-type:ethernetCsmacd"),
    .created itf (.enabled b)]

/-- An interface with all its leaves is deleted. -/
def deletion (itf : String) (b : Bool) : List LeafChange :=
  [.deleted itf .name, .deleted itf (.type "iana-if-type:ethernetCsmacd"),
    .deleted itf (.enabled b)]

/-- The form of an ietf change set. -/
def ietf (cs : List LeafChange) : List Change := cs.map (reported ietfPath)

/-- The form of an openconfig change set. -/
def oc (cs : List LeafChange) : List Change := cs.map (reported ocPath)

@[simp] theorem leafEvent_ietf (c : LeafChange) : (c.reported ietfPath).leafEvent = c.event := by
  cases c with
  | created itf leaf => cases leaf <;> rfl
  | modified itf old new => cases new <;> rfl
  | deleted itf leaf => cases leaf <;> rfl

@[simp] theorem leafEvent_oc (c : LeafChange) : (c.reported ocPath).leafEvent = c.event := by
  cases c with
  | created itf leaf => cases leaf <;> rfl
  | modified itf old new => cases new <;> rfl
  | deleted itf leaf => cases leaf <;> rfl

/-- The name check of the openconfig loop reads the new value, which a deletion lacks. -/
theorem ocNameCheck_oc (c : LeafChange) : ocNameCheck (c.reported ocPath) =
    if c.isDeleted then some fun w => (.faults .nullVal, w)
    else if c.itf.isEmpty then some fun w => (.returns .invalArg, w) else none := by
  cases c <;> rfl

end LeafChange

end Sweetcomb
