import Sweetcomb.Lib.ArrayFill
import Sweetcomb.Sysrepo

/-!
# State requests: dumped interfaces and built values

What a state callback reads of a `sw_interface_details` message, and the `sr_val_t` array
it answers with. A character of a C string stands for a byte.
-/

namespace Sweetcomb

/-- The members of `sr_data_t` that the state callbacks set. -/
inductive BuiltData
  | string (s : String)
  | identityref (s : String)
  | enum (s : String)
  | bool (b : Bool)
  | int32 (n : Int32)
  | uint16 (n : UInt16)
  | uint32 (n : UInt32)
  | uint64 (n : UInt64)
deriving DecidableEq

/-- A value with the xpath text that `sr_val_build_xpath` has formatted. -/
structure BuiltVal where
  xpath : String
  data : BuiltData
deriving DecidableEq

def XNode.text (n : XNode) : String :=
  n.name ++ String.join (n.keys.map fun k => "[" ++ k.1 ++ "='" ++ k.2 ++ "']")

/-- The text of a request xpath. -/
def XPath.text (x : XPath) : String := String.join (x.map fun n => "/" ++ n.text)

/-- `vapi_payload_sw_interface_details`, as far as it is read. -/
structure SwInterfaceDetails where
  interfaceName : String
  swIfIndex : UInt32
  flags : UInt32
  linkDuplex : UInt32
  l2Address : Vector UInt8 6
  linkSpeed : UInt32
  linkMtu : UInt16
deriving DecidableEq

/-- The undefined behaviours a state callback can end in. -/
inductive StateFault
  /-- a string made of a null pointer -/
  | nullString
  /-- a write past the end of a variable -/
  | overrun
  /-- an `int` that gets too large -/
  | intOverflow
  /-- the first element of an empty dump is read -/
  | emptyDump
deriving DecidableEq

/-- What a state callback is run in: `sr_new_values`, the size of the name filter in the
request message, and VPP, which answers with all its interfaces when the filter is empty. -/
structure StateEnv where
  newValues : ℕ → SrErr
  nameFilterSize : ℕ
  dump : String → List SwInterfaceDetails

/-- What a state callback returns. -/
structure StateReply where
  rc : SrErr
  values : Filling BuiltVal
  /-- the reply to the dump the callback has issued, empty when it has issued none -/
  dumped : List SwInterfaceDetails

namespace StateReply

/-- `*values = nullptr; *values_cnt = 0;`. -/
def nothing (rc : SrErr) (dumped : List SwInterfaceDetails) : StateReply := ⟨rc, .alloc 0, dumped⟩

/-- The elements below `*values_cnt`. -/
def elements (r : StateReply) : List (Option BuiltVal) := r.values.cells.take r.values.cnt

@[simp] theorem elements_filled (rc : SrErr) {n : ℕ} (vs : List BuiltVal)
    (dumped : List SwInterfaceDetails) :
    (⟨rc, .filled n vs, dumped⟩ : StateReply).elements = vs.map some := by
  simp [elements, Filling.filled]

end StateReply

/-- `interface_dump::issue` with the wait for the reply: a name is copied into the filter of
the request. -/
def StateEnv.interfaceDump (env : StateEnv) (name : String) :
    Except StateFault (List SwInterfaceDetails) :=
  if name.isEmpty then .ok (env.dump name)
  else if name.length < env.nameFilterSize then .ok (env.dump name)
  else .error .overrun

end Sweetcomb
