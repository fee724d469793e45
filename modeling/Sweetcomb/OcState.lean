import Mathlib.Data.List.Infix
import Mathlib.Data.List.TakeDrop
import Sweetcomb.StateValues

/-!
# `oc_interfaces_state_cb`

VPP lists the interfaces whose name contains the asked one. The callback answers with the
first of them, under an xpath made of the asked name in a buffer of fixed size.
-/

namespace Sweetcomb

/-- `XPATH_SIZE`. -/
def xpathSize : ℕ := 2000

/-- The text that `snprintf` leaves in a buffer, which ends in a NUL. -/
def snprintf (size : ℕ) (s : String) : String := String.ofList (s.toList.take (size - 1))

theorem snprintf_eq_self {size : ℕ} (hsize : 0 < size) (s : String) :
    snprintf size s = s ↔ s.length < size := by
  rw [← String.toList_inj, snprintf, String.toList_ofList, List.take_eq_self_iff,
    String.length_toList]
  omega

def stateRoot (name : String) : String :=
  "/openconfig-interfaces:interfaces/interface[name='" ++ name ++ "']/state"

/-- The values of one interface, in the order they are written in. -/
def ocStateValues (xpathRoot : String) (reply : SwInterfaceDetails) : List BuiltVal :=
  [⟨xpathRoot ++ "/name", .string reply.interfaceName⟩,
   ⟨xpathRoot ++ "/type", .identityref "ianaift:ethernetCsmacd"⟩,
   ⟨xpathRoot ++ "/mtu", .uint16 reply.linkMtu⟩,
   ⟨xpathRoot ++ "/enabled", .bool (reply.flags ≠ 0)⟩,
   ⟨xpathRoot ++ "/ifindex", .uint32 reply.swIfIndex⟩,
   ⟨xpathRoot ++ "/admin-status", .enum (if reply.flags ≠ 0 then "UP" else "DOWN")⟩,
   ⟨xpathRoot ++ "/oper-status", .enum (if reply.linkDuplex ≠ 0 then "UP" else "DOWN")⟩]

def ocInterfacesStateCb (env : StateEnv) (xpath : XPath) : Except StateFault StateReply :=
  match xpath.keyValue "interface" "name" with
  -- intf_name assigned from the null pointer
  | none => .error .nullString
  | some intfName =>
    if intfName.isEmpty then .ok (.nothing .invalArg [])
    else if env.newValues 7 ≠ .ok then .ok (.nothing (env.newValues 7) [])
    else do
      let dump ← env.interfaceDump intfName
      match dump with
      -- the element that begin() of an empty dump points to
      | [] => .error .emptyDump
      | reply :: _ =>
        let xpathRoot := snprintf xpathSize (stateRoot intfName)
        match (Filling.alloc 7).putAll (ocStateValues xpathRoot reply) with
        | some vals => .ok ⟨.ok, vals, dump⟩
        | none => .error .overrun

/-! ## Whose state is answered -/

/-- The reply describes the dumped interface of the asked name under its xpath, or it holds
no values because the dump lists no such interface. -/
def AnswersFor (asked : String) (r : StateReply) : Prop :=
  (r.rc = .ok ∧ ∃ d ∈ r.dumped, d.interfaceName = asked ∧
    r.elements = (ocStateValues (stateRoot asked) d).map some) ∨
  ((∀ d ∈ r.dumped, d.interfaceName ≠ asked) ∧ (r.rc ≠ .ok ∨ r.elements = []))

/-- The asked name fits the filter of the request message and the buffer of the xpath. -/
structure Fits (env : StateEnv) (asked : String) : Prop where
  filter : asked.length < env.nameFilterSize
  root : (stateRoot asked).length < xpathSize

theorem answersFor_nothing (asked : String) {rc : SrErr} (h : rc ≠ .ok) :
    AnswersFor asked (.nothing rc []) :=
  .inr ⟨by simp [StateReply.nothing], .inl h⟩

/-- A reply with the values of `d` answers for `asked` when `d` is the interface of that name
and the xpath is not cut short. -/
theorem answersFor_filled {asked : String} {d : SwInterfaceDetails}
    {ds : List SwInterfaceDetails} :
    AnswersFor asked
        ⟨.ok, .filled 7 (ocStateValues (snprintf xpathSize (stateRoot asked)) d), d :: ds⟩ ↔
      (stateRoot asked).length < xpathSize ∧ d.interfaceName = asked := by
  unfold AnswersFor
  rw [StateReply.elements_filled]
  constructor
  · rintro (⟨-, d', -, hname, hvalues⟩ | ⟨-, hrc | hnil⟩)
    · -- the values named `name` tell both the root and the interface
      simp only [ocStateValues, List.map_cons, List.cons.injEq, Option.some.injEq,
        BuiltVal.mk.injEq, BuiltData.string.injEq] at hvalues
      obtain ⟨⟨hroot, hd⟩, -⟩ := hvalues
      have hlist := congrArg String.toList hroot
      rw [String.toList_append, String.toList_append, List.append_cancel_right_eq] at hlist
      exact ⟨(snprintf_eq_self (by decide) _).mp (String.toList_inj.mp hlist), hd.trans hname⟩
    · exact absurd rfl hrc
    · simp [ocStateValues] at hnil
  · rintro ⟨hroot, hd⟩
    refine .inl ⟨rfl, d, List.mem_cons_self, hd, ?_⟩
    rw [(snprintf_eq_self (by decide) _).mpr hroot]

/-- What the callback comes to when it issues its dump. -/
theorem ocInterfacesStateCb_dump {env : StateEnv} {xpath : XPath} {asked : String}
    (hkey : xpath.keyValue "interface" "name" = some asked) (hne : asked ≠ "")
    (halloc : env.newValues 7 = .ok) :
    ocInterfacesStateCb env xpath =
      if asked.length < env.nameFilterSize then
        match env.dump asked with
        | [] => .error .emptyDump
        | d :: ds =>
          .ok ⟨.ok, .filled 7 (ocStateValues (snprintf xpathSize (stateRoot asked)) d), d :: ds⟩
      else .error .overrun := by
  have hempty : asked.isEmpty = false := by simpa using hne
  simp only [ocInterfacesStateCb, hkey, hempty, halloc, StateEnv.interfaceDump, ne_eq,
    not_true_eq_false, Bool.false_eq_true, if_false]
  split
  · cases env.dump asked with
    | nil => rfl
    | cons d ds =>
      have hfill := Filling.putAll_filled (n := 7)
        (ocStateValues (snprintf xpathSize (stateRoot asked)) d) [] (by simp [ocStateValues])
      rw [← Filling.alloc_eq_filled, List.nil_append] at hfill
      simp only [bind, Except.bind, hfill]
  · rfl

/-- The callback answers for the asked interface exactly when it issues no dump, or when VPP
lists that interface first and its name fits. -/
theorem answersFor_iff {env : StateEnv} {xpath : XPath} {asked : String}
    (hkey : xpath.keyValue "interface" "name" = some asked) :
    (∃ r, ocInterfacesStateCb env xpath = .ok r ∧ AnswersFor asked r) ↔
      asked = "" ∨ env.newValues 7 ≠ .ok ∨
        (Fits env asked ∧ ∃ d ds, env.dump asked = d :: ds ∧ d.interfaceName = asked) := by
  by_cases hempty : asked = ""
  · refine iff_of_true ⟨.nothing .invalArg [], ?_, answersFor_nothing _ (by decide)⟩ (.inl hempty)
    simp [ocInterfacesStateCb, hkey, hempty]
  by_cases halloc : env.newValues 7 = .ok
  · rw [ocInterfacesStateCb_dump hkey hempty halloc]
    split
    · next hfilter =>
      cases hdump : env.dump asked with
      | nil => simp [hempty, halloc]
      | cons d ds =>
        constructor
        · rintro ⟨r, hr, hanswers⟩
          cases hr
          obtain ⟨hroot, hd⟩ := answersFor_filled.mp hanswers
          exact .inr (.inr ⟨⟨hfilter, hroot⟩, d, ds, rfl, hd⟩)
        · rintro (h | h | ⟨hfits, d', ds', hcons, hd⟩)
          · exact absurd h hempty
          · exact absurd halloc h
          · cases hcons
            exact ⟨_, rfl, answersFor_filled.mpr ⟨hfits.root, hd⟩⟩
    · next hfilter =>
      simp only [reduceCtorEq, false_and, exists_false, hempty, halloc, ne_eq, not_true_eq_false,
        false_or, false_iff]
      exact fun h => hfilter h.1.filter
  · have hisEmpty : asked.isEmpty = false := by simpa using hempty
    refine iff_of_true ⟨.nothing (env.newValues 7) [], ?_, answersFor_nothing _ halloc⟩
      (.inr (.inl halloc))
    simp [ocInterfacesStateCb, hkey, hisEmpty, halloc]

/-- VPP with three loopbacks, of which the one created last has the shortest name. -/
def threeLoops : StateEnv where
  newValues _ := .ok
  nameFilterSize := 64
  dump f :=
    [⟨"loop10", 1, 3, 2, #v[222, 173, 0, 0, 0, 10], 0, 9000⟩,
     ⟨"loop12", 2, 0, 0, #v[222, 173, 0, 0, 0, 12], 0, 9000⟩,
     ⟨"loop1", 3, 0, 0, #v[222, 173, 0, 0, 0, 1], 0, 1500⟩].filter
      fun d => f.toList <:+: d.interfaceName.toList

def stateRequest (name : String) : XPath :=
  [⟨"openconfig-interfaces:interfaces", []⟩, ⟨"interface", [("name", name)]⟩, ⟨"state", []⟩]

theorem answersFor_loop12 :
    ∃ r, ocInterfacesStateCb threeLoops (stateRequest "loop12") = .ok r ∧
      AnswersFor "loop12" r := by
  have hkey : (stateRequest "loop12").keyValue "interface" "name" = some "loop12" := rfl
  have hdump : threeLoops.dump "loop12" =
      [⟨"loop12", 2, 0, 0, #v[222, 173, 0, 0, 0, 12], 0, 9000⟩] := by decide
  exact (answersFor_iff hkey).mpr
    (.inr (.inr ⟨⟨by decide, by decide⟩, _, _, hdump, rfl⟩))

/-- Asked for `loop1`, the callback answers with the state of `loop10`. -/
theorem not_answersFor_loop1 :
    ¬ ∃ r, ocInterfacesStateCb threeLoops (stateRequest "loop1") = .ok r ∧
      AnswersFor "loop1" r := by
  have hkey : (stateRequest "loop1").keyValue "interface" "name" = some "loop1" := rfl
  have hdump : threeLoops.dump "loop1" =
      [⟨"loop10", 1, 3, 2, #v[222, 173, 0, 0, 0, 10], 0, 9000⟩,
       ⟨"loop12", 2, 0, 0, #v[222, 173, 0, 0, 0, 12], 0, 9000⟩,
       ⟨"loop1", 3, 0, 0, #v[222, 173, 0, 0, 0, 1], 0, 1500⟩] := by decide
  rw [ocInterfacesStateCb_dump hkey (by decide) rfl, if_pos (by decide), hdump]
  rintro ⟨r, hr, hanswers⟩
  cases hr
  exact absurd (answersFor_filled.mp hanswers).2 (by decide)

end Sweetcomb
