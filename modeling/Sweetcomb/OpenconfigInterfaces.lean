import Sweetcomb.InterfaceLoop

/-!
# `oc_interfaces_config_cb`

The openconfig twin of `ietf_interface_create_cb`. Its loop first reads the interface
name from the xpath of the new value, whatever the operation is.
-/

namespace Sweetcomb

/-- `sr_xpath_key_value(ne->xpath, "interface", "name", &state)` and the check that follows. -/
def ocNameCheck (c : Change) : Option (World → Outcome × World) :=
  match c.newVal with
  | none => some fun w => (.faults .nullVal, w)
  | some ne =>
    match ne.xpath.keyValue "interface" "name" with
    -- intf_name assigned from the null pointer
    | none => some fun w => (.faults .nullString, w)
    -- returns without releasing the iterator
    | some n => if n.isEmpty then some fun w => (.returns .invalArg, w) else none

def ocInterfacesBody (s : InterfaceLocals × World) (c : Change) :
    Except (Outcome × World) (InterfaceLocals × World) :=
  match ocNameCheck c with
  | some out => .error (out s.2)
  | none => interfaceSwitch s c

def ocInterfacesConfigCb (env : Env) (stale : InterfaceStale) (event : NotifEvent)
    (changes : Except SrErr (List Change)) (w : World) : Outcome × World :=
  if event ≠ .verify then (.returns .ok, w)
  else match changes with
    | .error rc =>
      (.returns .ok, (w.called (.getChangesIter rc)).called (.freeChangeIter .null))
    | .ok changes => interfaceRun env event ocInterfacesBody changes stale w

def ocExit (om : Store) (c : Change) : Option (World → Outcome × World) :=
  (ocNameCheck c).or (c.leafEvent.exit om)

theorem ocInterfacesBody_eq : ocInterfacesBody = interfaceBody ocExit := by
  funext s c
  cases h : ocNameCheck c with
  | some out => simp [ocInterfacesBody, interfaceBody, ocExit, h]
  | none =>
    simp only [ocInterfacesBody, h, interfaceSwitch_eq, interfaceBody, ocExit, Option.none_or]

theorem ocInterfacesConfigCb_verify (env : Env) (stale : InterfaceStale) (cs : List Change)
    (w : World) : ocInterfacesConfigCb env stale .verify (.ok cs) w =
      interfaceRun env .verify (interfaceBody ocExit) cs stale w := by
  rw [← ocInterfacesBody_eq]
  rfl

theorem exitByName_ocExit : ExitByName ocExit :=
  fun _ _ h c => by rw [ocExit, ocExit, LeafEvent.exit_congr h]

end Sweetcomb
