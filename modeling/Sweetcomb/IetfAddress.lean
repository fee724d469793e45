import Sweetcomb.Session

/-!
# `ietf_interface_ipv46_address_change_cb`

Addresses of interfaces. The loop keeps the last address and prefix length it has read,
for added and for deleted addresses, and asks VOM for a change after every turn.
-/

namespace Sweetcomb

/-- `"l3_" + l3->itf().name() + "_" + l3->prefix().to_string()`. -/
def l3Key (A : Asio) (itf : String) (pfx : RoutePrefix) : String :=
  "l3_" ++ itf ++ "_" ++ pfx.toString A

/-- `ipv46_config_add_remove`. -/
def ipv46ConfigAddRemove (env : Env) (ifName addr : String) (pfx : UInt8) (add : Bool)
    (w : World) : SrErr × World :=
  match w.om.find ifName with
  | none => (.invalArg, w)
  | some intf =>
    match env.asio.fromString addr with
    -- the exception of prefix_t is caught
    | none => (.operationFailed, w)
    | some a =>
      let l3 : L3Binding := ⟨intf, ⟨a, pfx⟩⟩
      let key := l3Key env.asio l3.itf.name l3.pfx
      if add then
        match w.omWrite env key (.l3Binding l3) with
        | (.ok, w) => (.ok, w)
        | (.failed, w) => (.operationFailed, w)
      else (.ok, w.omRemove key)

/-- `parse_interface_ipv46_address` on the address and the prefix length it updates. -/
def parseInterfaceIpv46Address (A : Asio) (val : Option SrVal) (addr : String) (pfx : UInt8) :
    Except Fault (String × UInt8) :=
  match val with
  | none => .error .throws
  | some val =>
    if val.data.isList then .ok ("", pfx)
    else if val.xpath.nodeNameEq "ip" then .ok (val.data.stringVal, pfx)
    else if val.xpath.nodeNameEq "prefix-length" then .ok (addr, val.data.uint8Val)
    else if val.xpath.nodeNameEq "netmask" then
      match A.fromString val.data.stringVal with
      | none => .error .throws
      | some netmask => (netmaskToPlen netmask).map fun plen => (addr, plen)
    else .ok (addr, pfx)

/-- The local variables the loop works on. -/
structure AddrLocals where
  newAddr : String := ""
  oldAddr : String := ""
  newPrefix : UInt8 := 0
  oldPrefix : UInt8 := 0
  opRc : SrErr := .ok
  create : Bool := false
  del : Bool := false
deriving DecidableEq, Repr

namespace AddrLocals

def parseOld (A : Asio) (l : AddrLocals) (val : Option SrVal) : Except Fault AddrLocals :=
  (parseInterfaceIpv46Address A val l.oldAddr l.oldPrefix).map fun p =>
    { l with oldAddr := p.1, oldPrefix := p.2 }

def parseNew (A : Asio) (l : AddrLocals) (val : Option SrVal) : Except Fault AddrLocals :=
  (parseInterfaceIpv46Address A val l.newAddr l.newPrefix).map fun p =>
    { l with newAddr := p.1, newPrefix := p.2 }

/-- `catch (std::exception &exc)`: the exception is logged, the variables stay. -/
def catchThrows (l : AddrLocals) : Except Fault AddrLocals → Except Fault AddrLocals
  | .error .throws => .ok l
  | r => r

/-- The `try` block with the `switch (op)`. -/
def parse (A : Asio) (l : AddrLocals) : Change → Except Fault AddrLocals
  | .created new =>
    let l := { l with create := true }
    l.catchThrows (l.parseNew A new)
  | .modified old new =>
    let l := { l with create := true, del := true }
    match l.parseOld A old with
    | .error .throws => .ok l
    | .error f => .error f
    | .ok l => l.catchThrows (l.parseNew A new)
  | .deleted old =>
    let l := { l with del := true }
    l.catchThrows (l.parseOld A old)
  | .moved .. => .ok l

/-- The two calls after the `try` block. -/
def commit (env : Env) (ifName : String) (l : AddrLocals) (w : World) : AddrLocals × World :=
  let (l, w) :=
    if l.del && !l.oldAddr.isEmpty then
      let (opRc, w) := ipv46ConfigAddRemove env ifName l.oldAddr l.oldPrefix false w
      ({ l with opRc }, w)
    else (l, w)
  if l.create && !l.newAddr.isEmpty then
    let (opRc, w) := ipv46ConfigAddRemove env ifName l.newAddr l.newPrefix true w
    ({ l with opRc }, w)
  else (l, w)

end AddrLocals

/-- The body of the loop. -/
def addrBody (env : Env) (s : AddrLocals × World) (c : Change) :
    Except (Outcome × World) (AddrLocals × World) :=
  match c.xpath.keyValue "interface" "name" with
  -- if_name assigned from the null pointer
  | none => .error (.faults .nullString, s.2)
  | some ifName =>
    if ifName.isEmpty then .error (leave .operationFailed s.2)
    else match s.1.parse env.asio c with
      | .error f => .error (.faults f, s.2)
      | .ok l => .ok (l.commit env ifName s.2)

def ietfInterfaceIpv46AddressChangeCb (env : Env) (event : NotifEvent)
    (changes : Except SrErr (List Change)) (w : World) : Outcome × World :=
  if event = .apply then (.returns .ok, w)
  else match changes with
    | .error rc => (.returns rc, (w.called (.getChangesIter rc)).called (.freeChangeIter .null))
    | .ok changes =>
      match foreachChange event (addrBody env) changes ({}, w.called (.getChangesIter .ok)) with
      | .error out => out
      | .ok (l, w) => leave l.opRc w

end Sweetcomb
