import Sweetcomb.IteratorRelease
import Sweetcomb.NestedLeaves
import Sweetcomb.PluginUpdates

/-!
# What crashes the plugin

The callbacks run in one process, and a fault of one of them is the end of it. All causes are
listed here; what the schemas promise of a change set rules out all but one.
-/

namespace Sweetcomb

open EarlyExit

/-! ## The causes -/

/-- A netmask leaf that holds an IPv6 address. -/
def SrVal.WideNetmask (A : Asio) (v : SrVal) : Prop :=
  v.data.isList = false ∧ v.xpath.nodeNameEq "netmask" = true ∧
    ∃ a b c d e f g h, A.fromString v.data.stringVal = some (.v6 a b c d e f g h)

/-- Such a netmask is read at the change. -/
def Change.WideNetmask (A : Asio) : Change → Prop
  | created new => new.WideNetmask A
  -- an exception of the old value keeps the new one from being read
  | modified old new => old.WideNetmask A ∨ ¬ old.Throws A ∧ new.WideNetmask A
  | deleted old => old.WideNetmask A
  | moved .. => False

namespace Callback

/-- The change does not end the loop. -/
def Stays (A : Asio) (om : Store) (cb : Callback) (c : Change) : Prop :=
  match cb with
  | ietfInterfaceCreate _ => c.leafEvent.exit om = none
  | ietfInterfaceIpv46AddressChange => ¬ c.Leaves A
  | ocInterfacesConfig _ => ocExit om c = none
  | natMappingTableConfig _ => c.natEvent.exit A = none

/-- What a callback crashes at in its loop. -/
inductive Crashes (A : Asio) : Callback → Change → Fault → Prop
  /-- an `enabled` leaf without the name of its interface -/
  | unnamedEnabled {stale c b} (h : c.leafEvent = .modifyEnabled none b) :
      Crashes A (ietfInterfaceCreate stale) c .throws
  /-- a deletion: the name is read from the new value -/
  | deletion {stale old} : Crashes A (ocInterfacesConfig stale) (.deleted old) .nullVal
  | unnamedInterface {stale c new} (hnew : c.newVal = some new)
      (h : new.xpath.keyValue "interface" "name" = none) :
      Crashes A (ocInterfacesConfig stale) c .nullString
  | unnamedAddress {c} (h : c.xpath.keyValue "interface" "name" = none) :
      Crashes A ietfInterfaceIpv46AddressChange c .nullString
  /-- `inet_pton` writes past the `in_addr_t` -/
  | wideNetmask {c n} (hn : c.xpath.keyValue "interface" "name" = some n)
      (hne : n.isEmpty = false) (h : c.WideNetmask A) :
      Crashes A ietfInterfaceIpv46AddressChange c .overrun
  /-- an address that `make_prefix` throws at -/
  | malformedAddress {stale c field p} (h : c.natEvent = .createAddress field p)
      (hp : UtilsPrefix.makePrefix A p = none) : Crashes A (natMappingTableConfig stale) c .throws

end Callback

/-- What a delivery crashes at. -/
inductive Delivery.Crashes (A : Asio) (om : Store) : Delivery → Fault → Prop
  /-- in the loop, at a change that is reached -/
  | inLoop {cb event cs f} (hevent : cb.ActsOn event)
      (h : First (cb.Stays A om) (cb.Crashes A · f) cs) : Crashes A om ⟨cb, event, .ok cs⟩ f
  /-- after the loop, with `modify` as it was found and no interface -/
  | inCommit {cb stale cs} (hcb : cb = .ietfInterfaceCreate stale ∨ cb = .ocInterfacesConfig stale)
      (hstays : ∀ c ∈ cs, cb.Stays A om c) (h : NullCommit stale cs) :
      Crashes A om ⟨cb, .verify, .ok cs⟩ .nullInterface
  /-- without an iterator, at the release of what the handle was found to be -/
  | wildRelease {stale rc} (h : stale.it ≠ .null) :
      Crashes A om ⟨.natMappingTableConfig stale, .verify, .error rc⟩ .wildIter

/-! ## The interface callbacks -/

section Interfaces

variable {A : Asio} {om : Store} {c : Change} {f : Fault} {out : World → Outcome × World}
  {w : World}

variable {env : Env} {stale : InterfaceStale} {cs : List Change}
  {exit : Store → Change → Option (World → Outcome × World)}

end Interfaces

/-! ## The address callback -/

section Addresses

variable {A : Asio} {v : SrVal} {c : Change} {f : Fault} {l : AddrLocals}

end Addresses

/-! ## The NAT callback -/

section Nat

variable {env : Env} {stale : NatStale} {w : World} {c : Change} {cs : List Change} {f : Fault}

end Nat

/-! ## Deliveries -/

section Deliveries

variable {env : Env} {w : World} {event : NotifEvent} {cs : List Change} {f : Fault}

end Deliveries

/-! ## The process -/

section Process

variable {env : Env} {w w' : World} {d : Delivery} {ds : List Delivery} {f : Fault}

end Process

/-! ## Change sets that conform to the schemas -/

section Conforming

variable {A : Asio} {om : Store} {d : Delivery} {f : Fault}

end Conforming

end Sweetcomb
