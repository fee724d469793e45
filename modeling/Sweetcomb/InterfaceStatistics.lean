import Sweetcomb.Configuration
import Sweetcomb.StateValues

/-!
# `interface_statistics_cb`

The counters of one interface, read from the interface that VOM holds under the asked name.
The YANG container has a leaf for each of them, and some more.
-/

namespace Sweetcomb

/-- `VOM::interface::counter_t`. -/
structure CounterT where
  packets : UInt64
  bytes : UInt64
deriving DecidableEq, Repr

/-- `VOM::interface::stats_t`. -/
structure StatsT where
  rx : CounterT
  rxUnicast : CounterT
  rxMulticast : CounterT
  rxBroadcast : CounterT
  tx : CounterT
  txUnicast : CounterT
  txMulticast : CounterT
  txBroadcast : CounterT
deriving DecidableEq, Repr

/-- `"%s/leaf"`. -/
def leafPath (xpath : XPath) (leaf : String) : String := xpath.text ++ "/" ++ leaf

/-- The values of the answer, in the order they are written in. -/
def statisticsValues (xpath : XPath) (stats : StatsT) : List BuiltVal :=
  [⟨leafPath xpath "in-octets", .uint64 stats.rx.bytes⟩,
   ⟨leafPath xpath "in-unicast-pkts", .uint64 stats.rxUnicast.packets⟩,
   ⟨leafPath xpath "in-broadcast-pkts", .uint64 stats.rxBroadcast.packets⟩,
   ⟨leafPath xpath "in-multicast-pkts", .uint64 stats.rxMulticast.packets⟩,
   ⟨leafPath xpath "out-octets", .uint64 stats.tx.bytes⟩,
   ⟨leafPath xpath "out-unicast-pkts", .uint64 stats.txUnicast.packets⟩,
   ⟨leafPath xpath "out-broadcast-pkts", .uint64 stats.txBroadcast.packets⟩,
   ⟨leafPath xpath "out-multicast-pkts", .uint64 stats.txMulticast.packets⟩]

/-- `getStats` is what `get_stats` returns of the interface with a name. -/
def interfaceStatisticsCb (newValues : ℕ → SrErr) (getStats : String → StatsT) (om : Store)
    (xpath : XPath) : Except StateFault StateReply :=
  match xpath.keyValue "interface" "name" with
  -- intf_name assigned from the null pointer
  | none => .error .nullString
  | some intfName =>
    if intfName.isEmpty then .ok (.nothing .invalArg [])
    else
      match om.find intfName with
      | none => .ok (.nothing .ok [])
      | some _ =>
        if newValues 8 ≠ .ok then .ok (.nothing (newValues 8) [])
        else
          match (Filling.alloc 8).putAll (statisticsValues xpath (getStats intfName)) with
          | some val => .ok ⟨.ok, val, []⟩
          | none => .error .overrun

/-- The leaves that are answered, in their order. -/
def answeredLeaves : List String :=
  ["in-octets", "in-unicast-pkts", "in-broadcast-pkts", "in-multicast-pkts",
   "out-octets", "out-unicast-pkts", "out-broadcast-pkts", "out-multicast-pkts"]

variable {A : Asio} {s : PluginState} {C : Configuration} {xpath : XPath} {n : String}

end Sweetcomb
