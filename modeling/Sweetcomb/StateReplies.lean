import Sweetcomb.InterfaceStatistics
import Sweetcomb.IetfState
import Sweetcomb.OcState

/-!
# The four state callbacks

What every answer to sysrepo has in common: the array is as large as it was granted, each of
its first `*values_cnt` elements has been written, and an error comes without values. Where
the answers differ is how well their names agree with the YANG models.
-/

namespace Sweetcomb

/-- `nat_cap_state_cb`. -/
def natCapStateCb (newValues : ℕ → SrErr) (xpath : XPath) : Except StateFault StateReply :=
  if newValues 1 ≠ .ok then .ok (.nothing .nomem [])
  else
    match (Filling.alloc 1).put ⟨leafPath xpath "static-mapping", .bool true⟩ with
    | some val => .ok ⟨.ok, val, []⟩
    | none => .error .overrun

/-- The callbacks of `sr_dp_get_items_subscribe`, with what they read of VOM. -/
inductive StateCallback
  | ietfInterfaceState
  | interfaceStatistics (getStats : String → StatsT) (om : Store)
  | natCapState
  | ocInterfacesState

def StateCallback.run (env : StateEnv) (xpath : XPath) :
    StateCallback → Except StateFault StateReply
  | ietfInterfaceState => ietfInterfaceStateCb env xpath
  | interfaceStatistics getStats om => interfaceStatisticsCb env.newValues getStats om xpath
  | natCapState => natCapStateCb env.newValues xpath
  | ocInterfacesState => ocInterfacesStateCb env xpath

/-- The leaves a callback answers. -/
def StateCallback.leaves : StateCallback → List String
  | ietfInterfaceState => ["admin-status", "oper-status", "phys-address", "if-index", "speed"]
  | interfaceStatistics .. => answeredLeaves
  | natCapState => ["static-mapping"]
  | ocInterfacesState =>
    ["name", "type", "mtu", "enabled", "ifindex", "admin-status", "oper-status"]

variable {env : StateEnv} {xpath : XPath} {cb : StateCallback} {r : StateReply}

/-! ## What a callback returns -/

end Sweetcomb
