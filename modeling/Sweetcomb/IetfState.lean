import Mathlib.Algebra.Group.Nat.Defs
import Sweetcomb.StateValues

/-!
# `ietf_interface_state_cb`

Each dumped interface takes five elements of the answer, one after the other, of the six
that are allocated for it.
-/

namespace Sweetcomb

/-- Two lower-case hexadecimal digits: `%02x`. -/
def hexByte (n : UInt8) : String :=
  String.ofList [(n.toNat / 16).digitChar, (n.toNat % 16).digitChar]

def physAddress (l : Vector UInt8 6) : String := ":".intercalate (l.toList.map hexByte)

/-- `"%s[name='%s']/leaf"`. -/
def entryPath (xpath : XPath) (name leaf : String) : String :=
  xpath.text ++ "[name='" ++ name ++ "']" ++ "/" ++ leaf

/-- The values of one interface, in the order they are written in. -/
def ietfStateValues (xpath : XPath) (d : SwInterfaceDetails) : List BuiltVal :=
  [⟨entryPath xpath d.interfaceName "admin-status", .enum (if d.flags ≠ 0 then "up" else "down")⟩,
   ⟨entryPath xpath d.interfaceName "oper-status",
     .enum (if d.linkDuplex ≠ 0 then "up" else "down")⟩,
   ⟨entryPath xpath d.interfaceName "phys-address", .string (physAddress d.l2Address)⟩,
   ⟨entryPath xpath d.interfaceName "if-index", .int32 d.swIfIndex.toInt32⟩,
   ⟨entryPath xpath d.interfaceName "speed", .uint64 d.linkSpeed.toUInt64⟩]

/-- The number of elements allocated for an interface. -/
def valuesPerInterface : ℕ := 6

def ietfInterfaceStateCb (env : StateEnv) (xpath : XPath) : Except StateFault StateReply :=
  if !xpath.nodeNameEq "interface" then .ok (.nothing .ok [])
  else do
    let dump ← env.interfaceDump ""
    let size := (dump.length + 1) * valuesPerInterface
    if 2 ^ 31 ≤ size then .error .intOverflow
    else if env.newValues size ≠ .ok then .ok (.nothing (env.newValues size) dump)
    else
      match dump.foldlM (fun val d => val.putAll (ietfStateValues xpath d)) (.alloc size) with
      | some val => .ok ⟨.ok, val, dump⟩
      | none => .error .overrun

/-! ## The layout -/

@[simp] theorem length_ietfStateValues (xpath : XPath) (d : SwInterfaceDetails) :
    (ietfStateValues xpath d).length = 5 := rfl

/-- A request for the list that is granted the elements it asks for. -/
structure Granted (env : StateEnv) (xpath : XPath) : Prop where
  interface : xpath.nodeNameEq "interface"
  small : ((env.dump "").length + 1) * valuesPerInterface < 2 ^ 31
  allocated : env.newValues (((env.dump "").length + 1) * valuesPerInterface) = .ok

/-- The loop fills the array as far as it goes. -/
theorem ietfInterfaceStateCb_eq (env : StateEnv) (xpath : XPath) :
    ietfInterfaceStateCb env xpath =
      if !xpath.nodeNameEq "interface" then .ok (.nothing .ok [])
      else
        let size := ((env.dump "").length + 1) * valuesPerInterface
        if 2 ^ 31 ≤ size then .error .intOverflow
        else if env.newValues size ≠ .ok then .ok (.nothing (env.newValues size) (env.dump ""))
        else .ok ⟨.ok, .filled size ((env.dump "").flatMap (ietfStateValues xpath)),
          env.dump ""⟩ := by
  have hdump : env.interfaceDump "" = .ok (env.dump "") := by simp [StateEnv.interfaceDump]
  have hroom : ((env.dump "").flatMap (ietfStateValues xpath)).length ≤
      ((env.dump "").length + 1) * valuesPerInterface := by
    rw [Filling.length_flatMap_of_length (length_ietfStateValues xpath), valuesPerInterface]
    omega
  have hfill := Filling.foldlM_putAll (f := ietfStateValues xpath) (env.dump "") []
    (by simpa using hroom)
  rw [← Filling.alloc_eq_filled, List.nil_append] at hfill
  simp only [ietfInterfaceStateCb, hdump, bind, Except.bind, hfill]

theorem Granted.eq_ok {env : StateEnv} {xpath : XPath} (h : Granted env xpath) :
    ietfInterfaceStateCb env xpath =
      .ok ⟨.ok, .filled (((env.dump "").length + 1) * valuesPerInterface)
        ((env.dump "").flatMap (ietfStateValues xpath)), env.dump ""⟩ := by
  have hsmall := Nat.not_le_of_lt h.small
  simp only [ietfInterfaceStateCb_eq, h.interface, hsmall, h.allocated, Bool.not_true,
    Bool.false_eq_true, if_false, ne_eq, not_true_eq_false]

/-- Five elements from the index `i` on that carry the values of `d`. -/
structure CarriesAt (a : Filling BuiltVal) (i : ℕ) (xpath : XPath) (d : SwInterfaceDetails) :
    Prop where
  admin : a.cells[i]? = some (some ⟨entryPath xpath d.interfaceName "admin-status",
    .enum (if d.flags = 0 then "down" else "up")⟩)
  oper : a.cells[i + 1]? = some (some ⟨entryPath xpath d.interfaceName "oper-status",
    .enum (if d.linkDuplex = 0 then "down" else "up")⟩)
  phys : a.cells[i + 2]? = some (some ⟨entryPath xpath d.interfaceName "phys-address",
    .string (physAddress d.l2Address)⟩)
  index : a.cells[i + 3]? = some (some ⟨entryPath xpath d.interfaceName "if-index",
    .int32 d.swIfIndex.toInt32⟩)
  speed : a.cells[i + 4]? = some (some ⟨entryPath xpath d.interfaceName "speed",
    .uint64 d.linkSpeed.toUInt64⟩)

theorem getElem?_layout (xpath : XPath) (n : ℕ) {dump : List SwInterfaceDetails} {k j : ℕ}
    {d : SwInterfaceDetails} (hd : dump[k]? = some d) (hj : j < 5) :
    (Filling.filled n (dump.flatMap (ietfStateValues xpath))).cells[5 * k + j]? =
      ((ietfStateValues xpath d)[j]?).map some := by
  have hk : k < dump.length := (List.getElem?_eq_some_iff.mp hd).1
  have hlen := Filling.length_flatMap_of_length (length_ietfStateValues xpath) dump
  rw [Filling.getElem?_filled (by omega),
    Filling.getElem?_flatMap_of_length (length_ietfStateValues xpath) dump k hj, hd,
    Option.bind_some]

/-- Every index below five times the number of interfaces is written once, none is past the
allocated elements, and the `k`-th interface has the five from `5 * k` on. -/
theorem ietf_state_layout {env : StateEnv} {xpath : XPath} (h : Granted env xpath) :
    ∃ r, ietfInterfaceStateCb env xpath = .ok r ∧ r.rc = .ok ∧
      r.values.cells.length = ((env.dump "").length + 1) * valuesPerInterface ∧
      (∀ i ∈ r.values.writes, i < r.values.cells.length) ∧
      r.values.cnt = 5 * (env.dump "").length ∧
      r.values.writes = List.range r.values.cnt ∧
      ∀ k d, (env.dump "")[k]? = some d → CarriesAt r.values (5 * k) xpath d := by
  have hlen := Filling.length_flatMap_of_length (length_ietfStateValues xpath) (env.dump "")
  have hcells : (Filling.filled (((env.dump "").length + 1) * valuesPerInterface)
      ((env.dump "").flatMap (ietfStateValues xpath))).cells.length =
        ((env.dump "").length + 1) * valuesPerInterface := by
    simp only [Filling.filled, List.length_append, List.length_map, List.length_replicate, hlen,
      valuesPerInterface]
    omega
  refine ⟨_, h.eq_ok, rfl, hcells, fun i hi => ?_, hlen, rfl, fun k d hd => ?_⟩
  · have hi' := List.mem_range.mp hi
    rw [hlen] at hi'
    rw [hcells, valuesPerInterface]
    omega
  · have hat : ∀ j < 5, _ := fun j hj => getElem?_layout xpath
      (((env.dump "").length + 1) * valuesPerInterface) hd hj
    constructor
    · simpa [ietfStateValues, ite_not] using hat 0 (by omega)
    · simpa [ietfStateValues, ite_not] using hat 1 (by omega)
    · simpa [ietfStateValues] using hat 2 (by omega)
    · simpa [ietfStateValues] using hat 3 (by omega)
    · simpa [ietfStateValues] using hat 4 (by omega)

/-- VPP with its loopback and one port. -/
def twoInterfaces : StateEnv where
  newValues _ := .ok
  nameFilterSize := 64
  dump _ :=
    [⟨"local0", 0, 0, 0, #v[0, 0, 0, 0, 0, 0], 0, 0⟩,
     ⟨"host-vpp1", 1, 3, 2, #v[2, 254, 200, 23, 58, 1], 1000000, 9216⟩]

theorem ietf_state_layout_twoInterfaces :
    ∃ r, ietfInterfaceStateCb twoInterfaces [⟨"interfaces-state", []⟩, ⟨"interface", []⟩] = .ok r ∧
      r.values.writes = [0, 1, 2, 3, 4, 5, 6, 7, 8, 9] ∧
      CarriesAt r.values 5 [⟨"interfaces-state", []⟩, ⟨"interface", []⟩]
        ⟨"host-vpp1", 1, 3, 2, #v[2, 254, 200, 23, 58, 1], 1000000, 9216⟩ := by
  have hgranted : Granted twoInterfaces [⟨"interfaces-state", []⟩, ⟨"interface", []⟩] :=
    ⟨by decide, by decide, rfl⟩
  obtain ⟨r, hr, -, -, -, hcnt, hwrites, hat⟩ := ietf_state_layout hgranted
  refine ⟨r, hr, ?_, hat 1 _ rfl⟩
  rw [hwrites, hcnt]
  decide

end Sweetcomb
