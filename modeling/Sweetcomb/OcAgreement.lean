import Sweetcomb.InterfaceLeaves

/-!
# The openconfig and the ietf callback side by side

Both callbacks receive one change set over the leaves of interfaces, each in the form of
its own tree. They agree up to the first change that the openconfig loop stops at.
-/

namespace Sweetcomb

namespace LeafChange

/-- The change is no deletion, and its interface has a name. -/
def proper (c : LeafChange) : Bool := !c.isDeleted && !c.itf.isEmpty

/-- The openconfig loop is left at the change. -/
def stopsOc (om : Store) (c : LeafChange) : Bool := !c.proper || (c.event.exit om).isSome

theorem ocExit_oc (om : Store) (c : LeafChange) : (ocExit om (c.reported ocPath)).isSome =
    c.stopsOc om := by
  rw [ocExit, ocNameCheck_oc, leafEvent_oc, stopsOc, proper]
  cases c.isDeleted <;> cases c.itf.isEmpty <;> simp

theorem ocExit_of_proper {om : Store} {c : LeafChange} (h : c.proper = true) :
    ocExit om (c.reported ocPath) = c.event.exit om := by
  simp only [proper, Bool.and_eq_true, Bool.not_eq_true'] at h
  simp [ocExit, ocNameCheck_oc, h.1, h.2]

theorem ocExit_of_deleted {om : Store} {c : LeafChange} (h : c.isDeleted = true) :
    ocExit om (c.reported ocPath) = some fun w => (.faults .nullVal, w) := by
  simp [ocExit, ocNameCheck_oc, h]

theorem ocExit_of_nameless {om : Store} {c : LeafChange} (h : c.proper = false)
    (hd : c.isDeleted = false) :
    ocExit om (c.reported ocPath) = some fun w => (.returns .invalArg, w) := by
  have he : c.itf.isEmpty = true := by simpa [proper, hd] using h
  simp [ocExit, ocNameCheck_oc, hd, he]

theorem exit_eq_none_of_stopsOc {om : Store} {c : LeafChange} (h : c.stopsOc om = false) :
    c.event.exit om = none := by
  simp only [stopsOc, Bool.or_eq_false_iff, Option.isSome_eq_false_iff,
    Option.isNone_iff_eq_none] at h
  exact h.2

theorem exit_of_stopsOc {om : Store} {c : LeafChange} (h : c.stopsOc om = true)
    (hp : c.proper = true) : (c.event.exit om).isSome = true := by
  simpa [stopsOc, hp] using h

/-- The only way such changes leave both loops is an unknown interface. -/
theorem exit_eq_operationFailed {om : Store} {c : LeafChange}
    {out : World → Outcome × World} (h : c.event.exit om = some out) :
    out = leave .operationFailed := by
  unfold event at h
  split at h <;> simp only [LeafEvent.exit, reduceCtorEq] at h
  split_ifs at h
  exact (Option.some.inj h).symm

end LeafChange

/-- The ietf loop goes through, and no interface can be built where one is created. -/
def Unbuilt (om : Store) (stale : InterfaceStale) (cs : List LeafChange) : Prop :=
  (∀ c ∈ cs, c.event.exit om = none) ∧
    (stale.create = true ∨ CreatesName (LeafChange.ietf cs)) ∧ ¬ Buildable (LeafChange.ietf cs)

/-- No change stops the openconfig loop, or the first one that does stops the ietf loop in
the same way, or it has no name and the ietf callback refuses the change set as well,
without setting another state than was set so far. -/
def OcAgrees (om : Store) (stale : InterfaceStale) (cs : List LeafChange) : Prop :=
  match cs.find? (LeafChange.stopsOc om) with
  | none => True
  | some c => c.proper = true ∨
      c.isDeleted = false ∧ Unbuilt om stale cs ∧
        om.run (LeafChange.ietf cs) =
          om.run (LeafChange.ietf (cs.takeWhile fun c => !c.stopsOc om))

section Runs

variable {env : Env} {stale : InterfaceStale} {w : World} {cs pre post : List LeafChange}
  {c : LeafChange}

/-! ## Both forms are seen alike -/

theorem run_oc (l : InterfaceLocals) :
    l.run (LeafChange.oc cs) = l.run (LeafChange.ietf cs) := by
  simp [InterfaceLocals.run, LeafChange.oc, LeafChange.ietf, List.foldl_map]

theorem afterLoop_oc : w.afterLoop (LeafChange.oc cs) = w.afterLoop (LeafChange.ietf cs) := by
  simp [World.afterLoop, World.turn, LeafChange.oc, LeafChange.ietf, List.foldl_map]

/-! ## The ietf callback -/

theorem ietf_eq_commit (h : ∀ c ∈ cs, c.event.exit w.om = none) :
    ietfInterfaceCreateCb env stale .verify (.ok (LeafChange.ietf cs)) w =
      interfaceCommit env ((InterfaceLocals.init stale).run (LeafChange.ietf cs))
        (w.afterLoop (LeafChange.ietf cs)) := by
  rw [ietfInterfaceCreateCb_verify]
  exact interfaceRun_eq_commit exitByName_leafEvent (by decide)
    (by simpa [LeafChange.ietf] using h)

theorem ietf_eq_exit (hpre : ∀ c ∈ pre, c.event.exit w.om = none)
    (hc : (c.event.exit w.om).isSome) :
    ietfInterfaceCreateCb env stale .verify (.ok (LeafChange.ietf (pre ++ c :: post))) w =
      leave .operationFailed (w.afterLoop (LeafChange.ietf pre)) := by
  obtain ⟨out, hout⟩ := Option.isSome_iff_exists.mp hc
  obtain rfl := LeafChange.exit_eq_operationFailed hout
  rw [ietfInterfaceCreateCb_verify, LeafChange.ietf, List.map_append, List.map_cons]
  exact interfaceRun_eq_exit exitByName_leafEvent (by decide) (by simpa using hpre)
    (by simpa using hout)

theorem ietf_unbuilt (h : Unbuilt w.om stale cs) :
    effect (ietfInterfaceCreateCb env stale .verify (.ok (LeafChange.ietf cs)) w) =
      ⟨.returns .invalArg, w.ops, w.om.run (LeafChange.ietf cs), w.table⟩ := by
  obtain ⟨hno, hcreate, hbuild⟩ := h
  rw [ietf_eq_commit hno, commit_unbuildable (InterfaceLocals.run_create.mpr hcreate)
    ((InterfaceLocals.build_eq_none_iff stale).mpr hbuild)]
  simp

theorem ietf_outcome (env : Env) (h : ¬ Unbuilt w.om stale cs) :
    let r := effect (ietfInterfaceCreateCb env stale .verify (.ok (LeafChange.ietf cs)) w)
    r.outcome = .returns .ok ∨ r.outcome = .returns .operationFailed ∨
      r.outcome = .faults .nullInterface := by
  cases hfirst : cs.findSome? (fun c => c.event.exit w.om) with
  | none =>
    have hnone := List.findSome?_eq_none_iff.mp hfirst
    rw [ietf_eq_commit hnone]
    refine commit_outcome fun hcreate hbuild => h ⟨hnone, ?_, ?_⟩
    · exact InterfaceLocals.run_create.mp hcreate
    · exact (InterfaceLocals.build_eq_none_iff stale).mp hbuild
  | some out =>
    obtain ⟨pre, c, post, rfl, hout, hpre⟩ := List.findSome?_eq_some_iff.mp hfirst
    rw [ietf_eq_exit hpre (by simp [hout])]
    exact .inr (.inl rfl)

theorem ietf_ne_nullVal :
    (effect (ietfInterfaceCreateCb env stale .verify (.ok (LeafChange.ietf cs)) w)).outcome ≠
      .faults .nullVal := by
  by_cases hu : Unbuilt w.om stale cs
  · rw [ietf_unbuilt hu]
    simp
  · intro h
    rcases ietf_outcome env hu with hr | hr | hr <;> cases h.symm.trans hr

/-! ## The openconfig callback -/

theorem oc_eq_commit (h : ∀ c ∈ cs, c.stopsOc w.om = false) :
    ocInterfacesConfigCb env stale .verify (.ok (LeafChange.oc cs)) w =
      interfaceCommit env ((InterfaceLocals.init stale).run (LeafChange.ietf cs))
        (w.afterLoop (LeafChange.ietf cs)) := by
  rw [ocInterfacesConfigCb_verify, ← run_oc, ← afterLoop_oc]
  refine interfaceRun_eq_commit exitByName_ocExit (by decide) fun c hc => ?_
  obtain ⟨d, hd, rfl⟩ := List.mem_map.mp hc
  rw [← Option.not_isSome_iff_eq_none, LeafChange.ocExit_oc, h d hd]
  simp

theorem oc_eq_exit (hpre : ∀ c ∈ pre, c.stopsOc w.om = false) {out : World → Outcome × World}
    (hc : ocExit w.om (c.reported ocPath) = some out) :
    ocInterfacesConfigCb env stale .verify (.ok (LeafChange.oc (pre ++ c :: post))) w =
      out (w.afterLoop (LeafChange.ietf pre)) := by
  rw [ocInterfacesConfigCb_verify, ← afterLoop_oc, LeafChange.oc, List.map_append, List.map_cons]
  refine interfaceRun_eq_exit exitByName_ocExit (by decide) (fun c hc => ?_) hc
  obtain ⟨d, hd, rfl⟩ := List.mem_map.mp hc
  rw [← Option.not_isSome_iff_eq_none, LeafChange.ocExit_oc, hpre d hd]
  simp

end Runs

theorem ocAgrees_of_first {om : Store} {stale : InterfaceStale} {pre post : List LeafChange}
    {c : LeafChange} (hpre : ∀ x ∈ pre, x.stopsOc om = false) (hc : c.stopsOc om = true) :
    OcAgrees om stale (pre ++ c :: post) ↔ c.proper = true ∨
      c.isDeleted = false ∧ Unbuilt om stale (pre ++ c :: post) ∧
        om.run (LeafChange.ietf (pre ++ c :: post)) = om.run (LeafChange.ietf pre) := by
  have hfind : (pre ++ c :: post).find? (LeafChange.stopsOc om) = some c :=
    List.find?_eq_some_iff_append.mpr ⟨hc, pre, post, rfl, by simpa using hpre⟩
  have htake : (pre ++ c :: post).takeWhile (fun c => !c.stopsOc om) = pre := by
    rw [List.takeWhile_append_of_pos (by simpa using hpre), List.takeWhile_cons, hc]
    simp
  rw [OcAgrees, hfind, htake]

/-- The two callbacks have one effect exactly on the change sets of `OcAgrees`. -/
theorem oc_agrees_iff (env : Env) (stale : InterfaceStale) (cs : List LeafChange) (w : World) :
    effect (ocInterfacesConfigCb env stale .verify (.ok (LeafChange.oc cs)) w) =
        effect (ietfInterfaceCreateCb env stale .verify (.ok (LeafChange.ietf cs)) w) ↔
      OcAgrees w.om stale cs := by
  cases hfirst : cs.find? (LeafChange.stopsOc w.om) with
  | none =>
    have hgo : ∀ c ∈ cs, c.stopsOc w.om = false := by simpa using hfirst
    have hnone : ∀ c ∈ cs, c.event.exit w.om = none :=
      fun c hc => LeafChange.exit_eq_none_of_stopsOc (hgo c hc)
    rw [oc_eq_commit hgo, ietf_eq_commit hnone, OcAgrees, hfirst]
    simp
  | some c =>
    obtain ⟨hc, pre, post, rfl, hpre⟩ := List.find?_eq_some_iff_append.mp hfirst
    have hgo : ∀ x ∈ pre, x.stopsOc w.om = false := by simpa using hpre
    rw [ocAgrees_of_first hgo hc]
    cases hp : c.proper with
    -- an unknown interface is modified: both loops are left here
    | true =>
      refine iff_of_true ?_ (.inl rfl)
      obtain ⟨out, hout⟩ := Option.isSome_iff_exists.mp (LeafChange.exit_of_stopsOc hc hp)
      rw [oc_eq_exit hgo ((LeafChange.ocExit_of_proper hp).trans hout),
        LeafChange.exit_eq_operationFailed hout,
        ietf_eq_exit (fun x hx => LeafChange.exit_eq_none_of_stopsOc (hgo x hx)) (by simp [hout])]
    | false =>
      cases hd : c.isDeleted with
      -- the new value is absent, and only the openconfig callback reads it
      | true =>
        rw [oc_eq_exit hgo (LeafChange.ocExit_of_deleted hd)]
        refine iff_of_false (fun h => ?_) (by simp)
        have ho := congrArg Effect.outcome h
        exact ietf_ne_nullVal ho.symm
      -- the openconfig callback refuses the name, so the ietf one has to refuse to build
      | false =>
        rw [oc_eq_exit hgo (LeafChange.ocExit_of_nameless hp hd)]
        by_cases hu : Unbuilt w.om stale (pre ++ c :: post)
        · rw [ietf_unbuilt hu]
          simp [effect, hu, eq_comm]
        · refine iff_of_false (fun h => ?_) (by simp [hu])
          have ho := congrArg Effect.outcome h
          rcases ietf_outcome env hu with hr | hr | hr <;> cases ho.trans hr

/-- Deleting an interface through the openconfig tree reads an absent value. -/
theorem oc_deletion_faults :
    ¬ effect (ocInterfacesConfigCb .accepting (.garbage false false) .verify
          (.ok (LeafChange.oc (LeafChange.deletion "loop0" true)))
          (.ofInterfaces [⟨"loop0", "ETHERNET", true⟩])) =
      effect (ietfInterfaceCreateCb .accepting (.garbage false false) .verify
          (.ok (LeafChange.ietf (LeafChange.deletion "loop0" true)))
          (.ofInterfaces [⟨"loop0", "ETHERNET", true⟩])) := by
  intro h
  have ho := congrArg Effect.outcome h
  revert ho
  decide

end Sweetcomb
