import Mathlib.Algebra.Group.Int.Defs
import Mathlib.Data.List.Nodup
import Sweetcomb.IetfState
import Sweetcomb.Lib.Text

/-!
# `ietf_interface_state_cb` against its YANG list

The list `interfaces-state/interface` makes the type of an interface mandatory, and the
callback never answers it. What it does answer is an entry for each interface, whose
`if-index` is in range unless VPP has numbered it `0`, as it does its loopback.
-/

namespace Sweetcomb

/-- The mandatory leaves of `list interface` in `interfaces-state`. -/
def mandatoryLeaves : List String := ["type", "admin-status", "oper-status", "if-index"]

/-- The values of an answer are entries of the dumped interfaces and of no other, each with
the given leaves and with an `if-index` of its own that is in the range of its type. -/
structure ValidEntries (leaves : List String) (xpath : XPath) (dump : List SwInterfaceDetails)
    (vs : List (Option BuiltVal)) : Prop where
  complete : ∀ d ∈ dump, ∀ leaf ∈ leaves,
    ∃ v, some v ∈ vs ∧ v.xpath = entryPath xpath d.interfaceName leaf
  ranged : ∀ d ∈ dump, ∀ v, some v ∈ vs → v.xpath = entryPath xpath d.interfaceName "if-index" →
    ∃ n : Int32, v.data = .int32 n ∧ 1 ≤ n.toInt ∧ n.toInt ≤ 2147483647
  distinct : ∀ d ∈ dump, ∀ d' ∈ dump, d.interfaceName ≠ d'.interfaceName →
    ∀ v v', some v ∈ vs → some v' ∈ vs → v.xpath = entryPath xpath d.interfaceName "if-index" →
      v'.xpath = entryPath xpath d'.interfaceName "if-index" → v.data ≠ v'.data
  dumped : ∀ e ∈ vs, ∃ v, e = some v ∧ ∃ d ∈ dump, ∃ leaf,
    v.xpath = entryPath xpath d.interfaceName leaf

/-- Paths to leaves without a slash tell the interface and the leaf. -/
theorem entryPath_inj {xpath : XPath} {n n' leaf leaf' : String} (hl : '/' ∉ leaf.toList)
    (hl' : '/' ∉ leaf'.toList) (h : entryPath xpath n leaf = entryPath xpath n' leaf') :
    n = n' ∧ leaf = leaf' := by
  obtain ⟨hentry, hleaf⟩ := Text.append_sep_inj '/' hl hl' h
  have hn := congrArg String.toList hentry
  simp only [String.toList_append, List.append_cancel_right_eq, List.append_cancel_left_eq] at hn
  exact ⟨String.toList_inj.mp hn, hleaf⟩

/-- What is written for an interface is a leaf of its entry, and none is its type. -/
theorem mem_ietfStateValues {xpath : XPath} {d : SwInterfaceDetails} {v : BuiltVal}
    (hv : v ∈ ietfStateValues xpath d) :
    ∃ leaf : String, '/' ∉ leaf.toList ∧ leaf ≠ "type" ∧
      v.xpath = entryPath xpath d.interfaceName leaf ∧
        (leaf = "if-index" → v.data = .int32 d.swIfIndex.toInt32) := by
  simp only [ietfStateValues, List.mem_cons, List.not_mem_nil, or_false] at hv
  rcases hv with rfl | rfl | rfl | rfl | rfl
  · exact ⟨"admin-status", by decide, by decide, rfl, by simp⟩
  · exact ⟨"oper-status", by decide, by decide, rfl, by simp⟩
  · exact ⟨"phys-address", by decide, by decide, rfl, by simp⟩
  · exact ⟨"if-index", by decide, by decide, rfl, fun _ => rfl⟩
  · exact ⟨"speed", by decide, by decide, rfl, by simp⟩

/-- The callback returns no values, or those of all interfaces. -/
theorem elements_cases {env : StateEnv} {xpath : XPath} {r : StateReply}
    (h : ietfInterfaceStateCb env xpath = .ok r) :
    r.elements = [] ∨
      r.elements = ((env.dump "").flatMap (ietfStateValues xpath)).map some := by
  rw [ietfInterfaceStateCb_eq] at h
  simp only at h
  split_ifs at h
  · cases h
    exact .inl rfl
  · cases h
    exact .inl rfl
  · cases h
    exact .inr (StateReply.elements_filled _ _ _)

theorem exists_of_mem_elements {env : StateEnv} {xpath : XPath} {r : StateReply}
    (h : ietfInterfaceStateCb env xpath = .ok r) {e : Option BuiltVal} (he : e ∈ r.elements) :
    ∃ v d, e = some v ∧ d ∈ env.dump "" ∧ v ∈ ietfStateValues xpath d := by
  rcases elements_cases h with hnil | hall
  · simp [hnil] at he
  · rw [hall] at he
    obtain ⟨v, hv, rfl⟩ := List.mem_map.mp he
    obtain ⟨d, hd, hvd⟩ := List.mem_flatMap.mp hv
    exact ⟨v, d, rfl, hd, hvd⟩

/-- No answer holds the type of an interface. -/
theorem type_not_answered {env : StateEnv} {xpath : XPath} {r : StateReply}
    (h : ietfInterfaceStateCb env xpath = .ok r) {v : BuiltVal} (hv : some v ∈ r.elements)
    (n : String) : v.xpath ≠ entryPath xpath n "type" := by
  obtain ⟨v', d, hv', -, hvd⟩ := exists_of_mem_elements h hv
  rw [Option.some.injEq] at hv'
  subst hv'
  obtain ⟨leaf, hslash, hleaf, hpath, -⟩ := mem_ietfStateValues hvd
  intro htype
  exact hleaf (entryPath_inj hslash (by decide) (hpath.symm.trans htype)).2

/-- The callback returns when the number of elements is an `int`. -/
theorem exists_reply (env : StateEnv) (xpath : XPath)
    (h : ((env.dump "").length + 1) * valuesPerInterface < 2 ^ 31) :
    ∃ r, ietfInterfaceStateCb env xpath = .ok r := by
  rw [ietfInterfaceStateCb_eq]
  simp only [Nat.not_le_of_lt h, if_false]
  split_ifs <;> exact ⟨_, rfl⟩

/-- The answer is valid for an empty dump only. -/
theorem validEntries_iff (env : StateEnv) (xpath : XPath) :
    (∃ r, ietfInterfaceStateCb env xpath = .ok r ∧
      ValidEntries mandatoryLeaves xpath (env.dump "") r.elements) ↔ env.dump "" = [] := by
  constructor
  · rintro ⟨r, hr, hvalid⟩
    by_contra hne
    obtain ⟨d, hd⟩ := List.exists_mem_of_ne_nil _ hne
    obtain ⟨v, hv, hpath⟩ := hvalid.complete d hd "type" (by decide)
    exact type_not_answered hr hv _ hpath
  · intro hnil
    obtain ⟨r, hr⟩ := exists_reply env xpath (by rw [hnil]; decide)
    have hnone : ∀ e, e ∉ r.elements := by
      intro e he
      obtain ⟨v, d, -, hd, -⟩ := exists_of_mem_elements hr he
      simp [hnil] at hd
    refine ⟨r, hr, ?_, ?_, ?_, ?_⟩
    · simp [hnil]
    · simp [hnil]
    · simp [hnil]
    · exact fun e he => absurd he (hnone e)

theorem not_valid_type_missing :
    ¬ ∃ r, ietfInterfaceStateCb twoInterfaces
        [⟨"interfaces-state", []⟩, ⟨"interface", []⟩] = .ok r ∧
      ValidEntries mandatoryLeaves [⟨"interfaces-state", []⟩, ⟨"interface", []⟩]
        (twoInterfaces.dump "") r.elements := by
  rintro ⟨r, hr, hvalid⟩
  obtain ⟨v, hv, hpath⟩ := hvalid.complete _ List.mem_cons_self "type" (by decide)
  exact type_not_answered hr hv _ hpath

theorem toInt32_in_range (u : UInt32) :
    1 ≤ u.toInt32.toInt ∧ u.toInt32.toInt ≤ 2147483647 ↔ 1 ≤ u.toNat ∧ u.toNat < 2 ^ 31 := by
  have hlt := u.toNat_lt
  have hval : u.toInt32.toInt =
      if 2 * u.toNat < 2 ^ 32 then (u.toNat : Int) else (u.toNat : Int) - 2 ^ 32 := by
    rw [Int32.toInt, UInt32.toBitVec_toInt32, BitVec.toInt_eq_toNat_cond]
    rfl
  rw [hval]
  split <;> omega

/-- The value at the `if-index` of an interface is the one converted from its own index. -/
theorem data_of_if_index {env : StateEnv} {xpath : XPath} {r : StateReply}
    (h : ietfInterfaceStateCb env xpath = .ok r)
    (hnames : ((env.dump "").map SwInterfaceDetails.interfaceName).Nodup)
    {d : SwInterfaceDetails} (hd : d ∈ env.dump "") {v : BuiltVal} (hv : some v ∈ r.elements)
    (hpath : v.xpath = entryPath xpath d.interfaceName "if-index") :
    v.data = .int32 d.swIfIndex.toInt32 := by
  obtain ⟨v', d', hv', hd', hvd⟩ := exists_of_mem_elements h hv
  rw [Option.some.injEq] at hv'
  subst hv'
  obtain ⟨leaf, hslash, -, hpath', hindex⟩ := mem_ietfStateValues hvd
  obtain ⟨hname, hsame⟩ := entryPath_inj hslash (by decide) (hpath'.symm.trans hpath)
  have hdd : d' = d := List.inj_on_of_nodup_map hnames hd' hd hname
  rw [hindex hsame, hdd]

theorem Granted.answered {env : StateEnv} {xpath : XPath} (h : Granted env xpath) {r : StateReply}
    (hr : ietfInterfaceStateCb env xpath = .ok r) {d : SwInterfaceDetails}
    (hd : d ∈ env.dump "") {v : BuiltVal} (hv : v ∈ ietfStateValues xpath d) :
    some v ∈ r.elements := by
  rw [h.eq_ok, Except.ok.injEq] at hr
  subst hr
  rw [StateReply.elements_filled]
  exact List.mem_map_of_mem (List.mem_flatMap.mpr ⟨d, hd, hv⟩)

/-- The mandatory leaves but the type are among the values of an interface. -/
theorem exists_mem_ietfStateValues (xpath : XPath) (d : SwInterfaceDetails) {leaf : String}
    (hleaf : leaf ∈ mandatoryLeaves.tail) :
    ∃ v ∈ ietfStateValues xpath d, v.xpath = entryPath xpath d.interfaceName leaf := by
  simp only [mandatoryLeaves, List.tail_cons, List.mem_cons, List.not_mem_nil, or_false] at hleaf
  rcases hleaf with rfl | rfl | rfl <;> simp [ietfStateValues]

/-- Apart from the type, the answer is valid when VPP numbers no interface `0` and none
from `2 ^ 31` on. -/
theorem validEntries_without_type {env : StateEnv} {xpath : XPath} (h : Granted env xpath)
    (hnames : ((env.dump "").map SwInterfaceDetails.interfaceName).Nodup)
    (hindices : ((env.dump "").map SwInterfaceDetails.swIfIndex).Nodup) :
    (∃ r, ietfInterfaceStateCb env xpath = .ok r ∧
      ValidEntries mandatoryLeaves.tail xpath (env.dump "") r.elements) ↔
      ∀ d ∈ env.dump "", 1 ≤ d.swIfIndex.toNat ∧ d.swIfIndex.toNat < 2 ^ 31 := by
  constructor
  · rintro ⟨r, hr, hvalid⟩ d hd
    obtain ⟨v, hv, hpath⟩ := hvalid.complete d hd "if-index" (by decide)
    obtain ⟨n, hn, hrange⟩ := hvalid.ranged d hd v hv hpath
    have hdata := data_of_if_index hr hnames hd hv hpath
    rw [hn, BuiltData.int32.injEq] at hdata
    rw [hdata] at hrange
    exact (toInt32_in_range _).mp hrange
  · intro hrange
    refine ⟨_, h.eq_ok, fun d hd leaf hleaf => ?_, fun d hd v hv hpath => ?_,
      fun d hd d' hd' hne v v' hv hv' hpath hpath' => ?_, fun e he => ?_⟩
    · obtain ⟨v, hv, hpath⟩ := exists_mem_ietfStateValues xpath d hleaf
      exact ⟨v, h.answered h.eq_ok hd hv, hpath⟩
    · exact ⟨_, data_of_if_index h.eq_ok hnames hd hv hpath,
        (toInt32_in_range _).mpr (hrange d hd)⟩
    · -- the conversion to `int32_t` keeps different indices apart
      rw [data_of_if_index h.eq_ok hnames hd hv hpath,
        data_of_if_index h.eq_ok hnames hd' hv' hpath', ne_eq, BuiltData.int32.injEq]
      intro hsame
      have hindex : d.swIfIndex = d'.swIfIndex := by
        simpa using congrArg Int32.toUInt32 hsame
      exact hne (congrArg _ (List.inj_on_of_nodup_map hindices hd hd' hindex))
    · obtain ⟨v, d, hv, hd, hvd⟩ := exists_of_mem_elements h.eq_ok he
      obtain ⟨leaf, -, -, hpath, -⟩ := mem_ietfStateValues hvd
      exact ⟨v, hv, d, hd, leaf, hpath⟩

end Sweetcomb
