import Mathlib.Data.List.Basic

/-!
# Sysrepo: events, values and change sets

What a subscription callback receives. A value is a node of the data tree, named
by its xpath; a change carries the old value, the new value, or both.
-/

namespace Sweetcomb

/-- `sr_notif_event_t`. -/
inductive NotifEvent
  | verify | apply | abort | enabled
deriving DecidableEq, Repr

/-- `sr_error_t`. -/
inductive SrErr
  | ok | invalArg | nomem | notFound | internal | initFailed | io | disconnect | malformedMsg
  | unsupported | unknownModel | badElement | validationFailed | operationFailed | dataExists
  | dataMissing | unauthorized | invalUser | locked | timeOut | needRestart | versionMismatch
deriving DecidableEq, Repr

/-- One step of an xpath: the node's name and its list keys. -/
structure XNode where
  name : String
  keys : List (String × String) := []
deriving DecidableEq, Repr

abbrev XPath := List XNode

/-- `sr_xpath_node_name_eq`: compares the name of the last node. -/
def XPath.nodeNameEq (x : XPath) (name : String) : Bool :=
  x.getLast?.any fun n => n.name == name

/-- `sr_xpath_key_value`: the value of `key` at the node `node`, null when there is none. -/
def XPath.keyValue (x : XPath) (node key : String) : Option String :=
  (x.find? fun n => n.name == node).bind fun n => n.keys.lookup key

/-- `sr_data_t` with its `sr_type_t` tag. -/
inductive SrData
  | list
  | container
  | string (s : String)
  | identityref (s : String)
  | enum (s : String)
  | bool (b : Bool)
  | uint8 (n : UInt8)
  | uint16 (n : UInt16)
  | uint32 (n : UInt32)
deriving DecidableEq, Repr

/-- `SR_LIST_T == val->type`. -/
def SrData.isList : SrData → Bool
  | .list => true
  | _ => false

/-- `data.string_val`, the pointer that all textual members of the union share. A leaf's
YANG type fixes the member that is set, so the other members read as a default. -/
def SrData.stringVal : SrData → String
  | .string s | .identityref s | .enum s => s
  | _ => ""

def SrData.boolVal : SrData → Bool
  | .bool b => b
  | _ => false

def SrData.uint8Val : SrData → UInt8
  | .uint8 n => n
  | _ => 0

def SrData.uint32Val : SrData → UInt32
  | .uint32 n => n
  | _ => 0

/-- `sr_val_t`. -/
structure SrVal where
  xpath : XPath
  data : SrData
deriving DecidableEq, Repr

/-- What `sr_get_change_next` returns: an operation with the values it comes with. -/
inductive Change
  | created (new : SrVal)
  | modified (old new : SrVal)
  | deleted (old : SrVal)
  | moved (old : Option SrVal) (new : SrVal)
deriving DecidableEq, Repr

namespace Change

def newVal : Change → Option SrVal
  | created new => some new
  | modified _ new => some new
  | deleted _ => none
  | moved _ new => some new

/-- `new_val ? new_val->xpath : old_val->xpath`: one of the two is always there. -/
def xpath : Change → XPath
  | created new => new.xpath
  | modified _ new => new.xpath
  | deleted old => old.xpath
  | moved _ new => new.xpath

end Change

/-- `sr_change_iter_t *`: null, never set, or obtained from `sr_get_changes_iter`. -/
inductive IterHandle
  | null | stale | live
deriving DecidableEq, Repr

/-- What the callbacks ask of sysrepo about a change set. -/
inductive SrCall
  | getChangesIter (rc : SrErr)
  | getChangeNext
  | freeChangeIter (it : IterHandle)
deriving DecidableEq, Repr

end Sweetcomb
