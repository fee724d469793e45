import Mathlib.Data.List.TakeWhile
import Sweetcomb.Callbacks

/-!
# Change sets that are read alike

What two change sets have to agree on for `ietf_interface_create_cb` to do the same with
both: how they end the loop, which states they set, and what the commit makes of them.
-/

namespace Sweetcomb

/-! ## What is read off a change set -/

/-- How an event leaves the loop, if it does. -/
def LeafEvent.leaves (om : Store) : LeafEvent → Option Outcome
  | .modifyEnabled none _ => some (.faults .throws)
  | .modifyEnabled (some n) _ =>
    if (om.find n).isSome then none else some (.returns .operationFailed)
  | .unsupported => some (.returns .unsupported)
  | _ => none

def firstLeave (om : Store) (cs : List Change) : Option Outcome :=
  cs.findSome? fun c => c.leafEvent.leaves om

/-- The changes before the one that leaves the loop. -/
def processed (om : Store) (cs : List Change) : List Change :=
  cs.takeWhile fun c => (c.leafEvent.leaves om).isNone

/-- The last state that the interface `n` is set to. -/
def lastState (cs : List Change) (n : String) (state : Bool) : Bool :=
  (cs.filterMap fun c => c.leafEvent.setting n).getLastD state

def Creates (stale : InterfaceStale) (cs : List Change) : Prop :=
  stale.create = true ∨ CreatesName cs

/-- The interface that the builder ends up with. -/
def builtInterface (stale : InterfaceStale) (cs : List Change) : Interface :=
  ⟨lastName cs, "ETHERNET", (statesIn cs).getLastD stale.state⟩

/-- A new object is written over the interface `n`. -/
def Overwrites (env : Env) (stale : InterfaceStale) (w : World) (cs : List Change) (n : String) :
    Prop :=
  let i := builtInterface stale cs
  firstLeave w.om cs = none ∧ Creates stale cs ∧ Buildable cs ∧ n = i.name ∧
    env.hw (w.ops ++ [.write i.name (.interface i)]) = .ok

/-- Two change sets with the same names and types. -/
structure SameShape (cs cs' : List Change) : Prop where
  creates : CreatesName cs ↔ CreatesName cs'
  deletes : DeletesName cs ↔ DeletesName cs'
  ethernet : CreatesEthernet cs ↔ CreatesEthernet cs'
  names : namesIn cs = namesIn cs'

/-- The callback cannot tell the change sets apart: they end the loop alike, they set the
interfaces of the store to the same states, they build the same interface, or they modify the
same one last. -/
structure ReadAlike (env : Env) (stale : InterfaceStale) (w : World) (cs cs' : List Change) :
    Prop where
  leaves : firstLeave w.om cs = firstLeave w.om cs'
  settings : ∀ n i, w.om.find n = some i → ¬ Overwrites env stale w cs n →
    lastState (processed w.om cs) n i.state = lastState (processed w.om cs') n i.state
  created : firstLeave w.om cs = none → Creates stale cs → Buildable cs →
    (builtInterface stale cs).state = (builtInterface stale cs').state
  modified : firstLeave w.om cs = none → ¬ Creates stale cs →
    (modifiedIn cs).getLast? = (modifiedIn cs').getLast?

section Runs

variable {env : Env} {stale : InterfaceStale} {w : World} {cs cs' : List Change}

theorem SameShape.lastName (h : SameShape cs cs') : lastName cs = lastName cs' := by
  rw [Sweetcomb.lastName, h.names]
  rfl

theorem SameShape.buildable (h : SameShape cs cs') : Buildable cs ↔ Buildable cs' := by
  rw [Buildable, Buildable, h.lastName, h.ethernet]

theorem SameShape.create (h : SameShape cs cs') : Creates stale cs ↔ Creates stale cs' :=
  or_congr_right h.creates

theorem exit_outcome (om : Store) (e : LeafEvent) (w : World) :
    (e.exit om).map (fun out => (out w).1) = e.leaves om := by
  cases e with
  | modifyEnabled key b =>
    cases key with
    | none => rfl
    | some n =>
      simp only [LeafEvent.exit, LeafEvent.leaves]
      split_ifs <;> rfl
  | _ => rfl

theorem firstLeave_eq (w : World) (cs : List Change) (w' : World) :
    (cs.findSome? fun c => c.leafEvent.exit w.om).map (fun out => (out w').1) =
      firstLeave w.om cs := by
  rw [List.map_findSome?]
  exact congrArg (fun f => cs.findSome? f) (funext fun c => exit_outcome w.om c.leafEvent w')

theorem processed_eq (w : World) (cs : List Change) :
    (cs.takeWhile fun c => (c.leafEvent.exit w.om).isNone) = processed w.om cs := by
  rw [processed]
  congr 1
  funext c
  rw [← exit_outcome w.om c.leafEvent w, Option.isNone_map]

/-- The callback, by the way its loop ends. -/
theorem create_effect (env : Env) (stale : InterfaceStale) (w : World) (cs : List Change) :
    effect (ietfInterfaceCreateCb env stale .verify (.ok cs) w) =
      match firstLeave w.om cs with
      | some o => ⟨o, w.ops, w.om.run (processed w.om cs), w.table⟩
      | none => effect (interfaceCommit env ((InterfaceLocals.init stale).run cs)
          (w.afterLoop cs)) := by
  rw [ietfInterfaceCreateCb_verify,
    interfaceRun_effect env stale w cs exitByName_leafEvent exitRefuses_leafEvent,
    processed_eq, ← firstLeave_eq w cs (w.afterLoop (processed w.om cs))]
  cases cs.findSome? fun c => c.leafEvent.exit w.om <;> rfl

theorem processed_eq_self (h : firstLeave w.om cs = none) : processed w.om cs = cs :=
  List.takeWhile_eq_self_iff.mpr fun c hc => by
    simp [List.findSome?_eq_none_iff.mp h c hc]

/-! ### Stores -/

theorem find_run_eq_iff {om : Store} {n : String} : (om.run cs).find n = (om.run cs').find n ↔
    ∀ i, om.find n = some i → lastState cs n i.state = lastState cs' n i.state := by
  rw [Store.find_run, Store.find_run]
  cases om.find n with
  | none => simp
  | some i => simp [lastState]

theorem run_eq_run_iff {om : Store} : om.run cs = om.run cs' ↔
    ∀ n i, om.find n = some i → lastState cs n i.state = lastState cs' n i.state := by
  constructor
  · intro h n
    exact find_run_eq_iff.mp (congrArg (fun s => Store.find s n) h)
  · intro h
    apply Store.eq_of_find
    · rw [Store.run_refs, Store.run_refs]
    · exact fun n => find_run_eq_iff.mpr (h n)

/-- The state of an interface does not matter once another object is written over it. -/
theorem write_run_eq_iff {om : Store} {i : Interface} :
    (om.run cs).write i.name (.interface i) = (om.run cs').write i.name (.interface i) ↔
      ∀ n j, om.find n = some j → n ≠ i.name →
        lastState cs n j.state = lastState cs' n j.state := by
  constructor
  · intro h n j hj hne
    have hfind := congrArg (fun s => Store.find s n) h
    simp only [Store.find_write_interface_of_ne hne] at hfind
    exact find_run_eq_iff.mp hfind j hj
  · intro h
    apply Store.eq_of_find
    · rw [Store.write_refs, Store.write_refs, Store.run_refs, Store.run_refs]
    · intro n
      by_cases hne : n = i.name
      · rw [hne, Store.find_write_interface, Store.find_write_interface]
      · rw [Store.find_write_interface_of_ne hne, Store.find_write_interface_of_ne hne]
        exact find_run_eq_iff.mpr fun j hj => h n j hj hne

/-! ### Commits -/

theorem writeEffect_inj {i j : Interface} {w' : World} (hops : w.ops = w'.ops)
    (h : writeEffect env i w = writeEffect env j w') : i = j := by
  have hwrites := congrArg Effect.ops h
  rw [writeEffect_ops, writeEffect_ops, hops] at hwrites
  exact VomObj.interface.inj (OmOp.write.inj (List.singleton_inj.mp
    (List.append_cancel_left hwrites))).2

theorem writeEffect_eq_iff {i : Interface} {w' : World} (hops : w.ops = w'.ops)
    (htable : w.table = w'.table) : writeEffect env i w = writeEffect env i w' ↔
      if env.hw (w.ops ++ [.write i.name (.interface i)]) = .ok then
        w.om.write i.name (.interface i) = w'.om.write i.name (.interface i)
      else w.om = w'.om := by
  cases hw : env.hw (w.ops ++ [.write i.name (.interface i)]) with
  | ok =>
    rw [writeEffect_of_ok hw, writeEffect_of_ok (hops ▸ hw), hops, htable]
    simp
  | failed =>
    rw [writeEffect_of_failed hw, writeEffect_of_failed (hops ▸ hw), hops, htable]
    simp

/-- The effect of a commit that the loop has gone through to. -/
def commitEffect (env : Env) (stale : InterfaceStale) (w : World) (cs : List Change) : Effect :=
  effect (interfaceCommit env ((InterfaceLocals.init stale).run cs) (w.afterLoop cs))

theorem run_create_eq (h : ¬ Creates stale cs) :
    ((InterfaceLocals.init stale).run cs).create = false := by
  rw [Bool.eq_false_iff, ne_eq, InterfaceLocals.run_create]
  exact h

theorem commitEffect_unbuilt (hc : Creates stale cs) (hb : ¬ Buildable cs) :
    commitEffect env stale w cs = ⟨.returns .invalArg, w.ops, w.om.run cs, w.table⟩ := by
  rw [commitEffect, commit_unbuildable (InterfaceLocals.run_create (l := .init stale) |>.mpr hc)
    ((InterfaceLocals.build_eq_none_iff stale).mpr hb)]
  simp

theorem commitEffect_built (hc : Creates stale cs) (hb : Buildable cs) :
    commitEffect env stale w cs = writeEffect env (builtInterface stale cs) (w.afterLoop cs) :=
  commit_create (InterfaceLocals.run_create.mpr hc) (InterfaceLocals.build_eq_some hb)

theorem commitEffect_modified (hc : ¬ Creates stale cs) {n : String}
    (hlast : (modifiedIn cs).getLast? = some n) (hn : (w.om.find n).isSome) :
    ∃ i, (w.om.run cs).find n = some i ∧
      commitEffect env stale w cs = writeEffect env i (w.afterLoop cs) := by
  rw [← sameNames_run (SameNames.refl _) cs n] at hn
  obtain ⟨i, hi⟩ := Option.isSome_iff_exists.mp hn
  refine ⟨i, hi, commit_modify (run_create_eq hc) ?_ ?_⟩
  · refine InterfaceLocals.run_modify.mpr (.inr fun hnil => ?_)
    rw [hnil] at hlast
    cases hlast
  · rw [InterfaceLocals.run_intf, List.getLastD_eq_getLast?, List.getLast?_map, hlast]
    show (w.afterLoop cs).om.find n = some i
    rw [afterLoop_om]
    exact hi

/-- Without a modification nothing is written, and the states stay. -/
theorem commitEffect_unmodified (hc : ¬ Creates stale cs) (hnil : modifiedIn cs = []) :
    commitEffect env stale w cs =
      if stale.modify then ⟨.faults .nullInterface, w.ops, w.om.run cs, w.table⟩
      else if ((InterfaceLocals.init stale).run cs).remove then
        ⟨.returns .ok, w.ops ++ [.remove (lastName cs)], (w.om.run cs).remove (lastName cs),
          w.table⟩
      else ⟨.returns .ok, w.ops, w.om.run cs, w.table⟩ := by
  let l := (InterfaceLocals.init stale).run cs
  have hcreate : l.create = false := run_create_eq hc
  have hmodify : l.modify = stale.modify := by
    rw [Bool.eq_iff_iff, InterfaceLocals.run_modify]
    simp [hnil, InterfaceLocals.init]
  have hintf : l.intf = .null := by
    rw [InterfaceLocals.run_intf, hnil]
    rfl
  have hname : l.builder.name = lastName cs := InterfaceLocals.run_name
  unfold commitEffect
  cases hm : stale.modify with
  | true =>
    rw [commit_null hcreate (hmodify.trans hm) (by rw [hintf]; rfl)]
    simp [effect]
  | false =>
    cases hr : l.remove with
    | true =>
      rw [commit_remove hcreate (hmodify.trans hm) hr, hname]
      simp
    | false =>
      rw [commit_nothing hcreate (hmodify.trans hm) hr]
      simp

/-- No change leaves the loop, so every interface that is modified is in the store. -/
theorem found_of_stays (h : firstLeave w.om cs = none) {n : String}
    (hn : (modifiedIn cs).getLast? = some n) : (w.om.find n).isSome := by
  obtain ⟨c, hc, b, he⟩ := mem_modifiedIn.mp (List.mem_of_getLast? hn)
  have hleaves := List.findSome?_eq_none_iff.mp h c hc
  by_contra hnone
  simp [he, LeafEvent.leaves, hnone] at hleaves

theorem not_overwrites (hc : ¬ Creates stale cs) {n : String} : ¬ Overwrites env stale w cs n :=
  fun h => hc h.2.1

/-- Two commits that build an interface. -/
theorem built_eq_iff (h : SameShape cs cs') (hstays : firstLeave w.om cs = none)
    (hc : Creates stale cs) (hb : Buildable cs) :
    commitEffect env stale w cs = commitEffect env stale w cs' ↔
      (∀ n i, w.om.find n = some i → ¬ Overwrites env stale w cs n →
        lastState cs n i.state = lastState cs' n i.state) ∧
      (builtInterface stale cs).state = (builtInterface stale cs').state := by
  rw [commitEffect_built hc hb, commitEffect_built (h.create.mp hc) (h.buildable.mp hb)]
  have hsame : (builtInterface stale cs).state = (builtInterface stale cs').state →
      builtInterface stale cs = builtInterface stale cs' := by
    intro hstate
    simp only [builtInterface] at hstate ⊢
    rw [hstate, h.lastName]
  have hover : ∀ n, Overwrites env stale w cs n ↔ n = (builtInterface stale cs).name ∧
      env.hw (w.ops ++ [.write (builtInterface stale cs).name
        (.interface (builtInterface stale cs))]) = .ok :=
    fun n => ⟨fun ho => ho.2.2.2, fun ho => ⟨hstays, hc, hb, ho⟩⟩
  have hwrites : writeEffect env (builtInterface stale cs) (w.afterLoop cs) =
      writeEffect env (builtInterface stale cs) (w.afterLoop cs') ↔
      ∀ n i, w.om.find n = some i → ¬ Overwrites env stale w cs n →
        lastState cs n i.state = lastState cs' n i.state := by
    rw [writeEffect_eq_iff (by simp) (by simp), afterLoop_om, afterLoop_om, afterLoop_ops]
    simp only [hover]
    generalize builtInterface stale cs = b
    split_ifs with hw
    -- the write takes the state of the interface of that name with it
    · rw [write_run_eq_iff]
      simp only [hw, and_true]
    · rw [run_eq_run_iff]
      simp [hw]
  constructor
  · intro heq
    have hbuilt := writeEffect_inj (by simp) heq
    rw [← hbuilt] at heq
    exact ⟨hwrites.mp heq, congrArg Interface.state hbuilt⟩
  · rintro ⟨hsettings, hstate⟩
    rw [← hsame hstate]
    exact hwrites.mpr hsettings

theorem run_of_unmodified (h : modifiedIn cs = []) (om : Store) : om.run cs = om := by
  apply Store.run_eq_self
  intro n i _
  have hnone : cs.filterMap (fun c => c.leafEvent.setting n) = [] := by
    rw [List.filterMap_eq_nil_iff]
    intro c hc
    have hc' := List.filterMap_eq_nil_iff.mp h c hc
    cases he : c.leafEvent with
    | modifyEnabled key b =>
      rw [he] at hc'
      obtain rfl : key = none := hc'
      rfl
    | _ => rfl
  rw [hnone]
  rfl

/-- Nothing is written without a modification. -/
theorem unmodified_ops (hc : ¬ Creates stale cs) (hnil : modifiedIn cs = []) (key : String)
    (obj : VomObj) : (commitEffect env stale w cs).ops ≠ w.ops ++ [.write key obj] := by
  rw [commitEffect_unmodified hc hnil]
  split_ifs <;> simp

/-- A modified interface is written as the loop has left it. -/
theorem modified_written (hstays : firstLeave w.om cs = none) (hc : ¬ Creates stale cs)
    {n : String} (hn : (modifiedIn cs).getLast? = some n) :
    ∃ i, i.name = n ∧ (w.om.run cs).find n = some i ∧
      commitEffect env stale w cs = writeEffect env i (w.afterLoop cs) := by
  obtain ⟨i, hi, heff⟩ := commitEffect_modified hc hn (found_of_stays hstays hn)
  exact ⟨i, Store.name_of_find hi, hi, heff⟩

/-- Two commits that write a modified interface. -/
theorem modified_eq_iff {i j : Interface} (hi : (w.om.run cs).find i.name = some i)
    (hj : (w.om.run cs').find j.name = some j) :
    writeEffect env i (w.afterLoop cs) = writeEffect env j (w.afterLoop cs') ↔
      w.om.run cs = w.om.run cs' ∧ i.name = j.name := by
  have hwrites : writeEffect env i (w.afterLoop cs) = writeEffect env i (w.afterLoop cs') ↔
      if env.hw (w.ops ++ [.write i.name (.interface i)]) = .ok then
        (w.om.run cs).write i.name (.interface i) = (w.om.run cs').write i.name (.interface i)
      else w.om.run cs = w.om.run cs' := by
    rw [writeEffect_eq_iff (by simp) (by simp), afterLoop_om, afterLoop_om, afterLoop_ops]
  constructor
  · intro heq
    obtain rfl := writeEffect_inj (by simp) heq
    rw [hwrites] at heq
    refine ⟨?_, rfl⟩
    split_ifs at heq
    · rw [write_run_eq_iff] at heq
      rw [run_eq_run_iff]
      intro n k hk
      by_cases hne : n = i.name
      · subst hne
        exact find_run_eq_iff.mp (hi.trans hj.symm) k hk
      · exact heq n k hk hne
    · exact heq
  · rintro ⟨hom, hname⟩
    rw [hom, hname, hj] at hi
    obtain rfl := Option.some.inj hi
    rw [hwrites, hom]
    split_ifs <;> rfl

/-- Two commits that create nothing. -/
theorem uncreated_eq_iff (h : SameShape cs cs') (hstays : firstLeave w.om cs = none)
    (hstays' : firstLeave w.om cs' = none) (hc : ¬ Creates stale cs) :
    commitEffect env stale w cs = commitEffect env stale w cs' ↔
      w.om.run cs = w.om.run cs' ∧ (modifiedIn cs).getLast? = (modifiedIn cs').getLast? := by
  have hc' : ¬ Creates stale cs' := h.create.not.mp hc
  cases hlast : (modifiedIn cs).getLast? with
  | some n =>
    obtain ⟨i, rfl, hi, heff⟩ := modified_written hstays hc hlast
    cases hlast' : (modifiedIn cs').getLast? with
    | some n' =>
      obtain ⟨j, rfl, hj, heff'⟩ := modified_written hstays' hc' hlast'
      rw [heff, heff', modified_eq_iff hi hj, Option.some.injEq]
    | none =>
      refine iff_of_false (fun heq => ?_) (by simp)
      have hops := congrArg Effect.ops heq
      rw [heff, writeEffect_ops, afterLoop_ops] at hops
      exact unmodified_ops hc' (List.getLast?_eq_none_iff.mp hlast') _ _ hops.symm
  | none =>
    have hnil := List.getLast?_eq_none_iff.mp hlast
    cases hlast' : (modifiedIn cs').getLast? with
    | some n' =>
      obtain ⟨j, rfl, hj, heff'⟩ := modified_written hstays' hc' hlast'
      refine iff_of_false (fun heq => ?_) (by simp)
      have hops := congrArg Effect.ops heq
      rw [heff', writeEffect_ops, afterLoop_ops] at hops
      exact unmodified_ops hc hnil _ _ hops
    | none =>
      have hnil' := List.getLast?_eq_none_iff.mp hlast'
      have hom : w.om.run cs = w.om.run cs' := by
        rw [run_of_unmodified hnil, run_of_unmodified hnil']
      have hremove : ((InterfaceLocals.init stale).run cs).remove =
          ((InterfaceLocals.init stale).run cs').remove := by
        rw [Bool.eq_iff_iff, InterfaceLocals.run_remove, InterfaceLocals.run_remove, h.deletes]
      refine iff_of_true ?_ ⟨hom, rfl⟩
      rw [commitEffect_unmodified hc hnil, commitEffect_unmodified hc' hnil', hom, hremove,
        h.lastName]

/-- A loop that is left does not end like a commit: that one issues an operation, or it returns
with another result. -/
theorem left_ne_commit {o : Outcome} {om : Store} (hleft : firstLeave w.om cs = some o)
    (hstays : firstLeave w.om cs' = none) :
    (⟨o, w.ops, om, w.table⟩ : Effect) ≠ commitEffect env stale w cs' := by
  have ho : o ≠ .returns .ok ∧ o ≠ .returns .invalArg ∧ o ≠ .faults .nullInterface := by
    obtain ⟨c, -, hc⟩ := List.exists_of_findSome?_eq_some hleft
    cases he : c.leafEvent with
    | modifyEnabled key b =>
      rw [he] at hc
      cases key with
      | none => cases hc; simp
      | some n =>
        simp only [LeafEvent.leaves] at hc
        split_ifs at hc
        cases hc
        simp
    | unsupported => rw [he] at hc; cases hc; simp
    | _ => rw [he] at hc; cases hc
  intro heq
  have hout := congrArg Effect.outcome heq
  have hops := congrArg Effect.ops heq
  by_cases hc : Creates stale cs'
  · by_cases hb : Buildable cs'
    · rw [commitEffect_built hc hb, writeEffect_ops, afterLoop_ops] at hops
      simp at hops
    · rw [commitEffect_unbuilt hc hb] at hout
      exact ho.2.1 hout
  · cases hlast : (modifiedIn cs').getLast? with
    | some n =>
      obtain ⟨i, -, -, heff⟩ := modified_written hstays hc hlast
      rw [heff, writeEffect_ops, afterLoop_ops] at hops
      simp at hops
    | none =>
      rw [commitEffect_unmodified hc (List.getLast?_eq_none_iff.mp hlast)] at hout
      split_ifs at hout
      · exact ho.2.2 hout
      · exact ho.1 hout
      · exact ho.1 hout

/-- What is left to agree on when both loops are gone through. -/
theorem readAlike_of_stays (hstays : firstLeave w.om cs = none)
    (hstays' : firstLeave w.om cs' = none) : ReadAlike env stale w cs cs' ↔
      (∀ n i, w.om.find n = some i → ¬ Overwrites env stale w cs n →
        lastState cs n i.state = lastState cs' n i.state) ∧
      (Creates stale cs → Buildable cs →
        (builtInterface stale cs).state = (builtInterface stale cs').state) ∧
      (¬ Creates stale cs → (modifiedIn cs).getLast? = (modifiedIn cs').getLast?) := by
  have hprocessed := processed_eq_self hstays
  have hprocessed' := processed_eq_self hstays'
  constructor
  · rintro ⟨-, hsettings, hcreated, hmodified⟩
    rw [hprocessed, hprocessed'] at hsettings
    exact ⟨hsettings, hcreated hstays, hmodified hstays⟩
  · rintro ⟨hsettings, hcreated, hmodified⟩
    refine ⟨hstays.trans hstays'.symm, ?_, fun _ => hcreated, fun _ => hmodified⟩
    rwa [hprocessed, hprocessed']

/-- Loops that are left agree on the exit and on the states set before it. -/
theorem readAlike_of_leaves {o o' : Outcome} (hleft : firstLeave w.om cs = some o)
    (hleft' : firstLeave w.om cs' = some o') : ReadAlike env stale w cs cs' ↔
      o = o' ∧ w.om.run (processed w.om cs) = w.om.run (processed w.om cs') := by
  rw [run_eq_run_iff]
  constructor
  · intro h
    refine ⟨Option.some.inj (hleft.symm.trans (h.leaves.trans hleft')), fun n i hi => ?_⟩
    exact h.settings n i hi (by simp [Overwrites, hleft])
  · rintro ⟨rfl, hrun⟩
    exact ⟨hleft.trans hleft'.symm, fun n i hi _ => hrun n i hi, by simp [hleft], by simp [hleft]⟩

/-- Two commits, after loops that are gone through. -/
theorem commitEffect_eq_iff (h : SameShape cs cs') (hstays : firstLeave w.om cs = none)
    (hstays' : firstLeave w.om cs' = none) :
    commitEffect env stale w cs = commitEffect env stale w cs' ↔
      ReadAlike env stale w cs cs' := by
  rw [readAlike_of_stays hstays hstays']
  by_cases hc : Creates stale cs
  · by_cases hb : Buildable cs
    · rw [built_eq_iff h hstays hc hb]
      simp [hc, hb]
    · have hunbuilt' : commitEffect env stale w cs' = _ :=
        commitEffect_unbuilt (h.create.mp hc) (h.buildable.not.mp hb)
      have hover : ∀ n, ¬ Overwrites env stale w cs n := fun n ho => hb ho.2.2.1
      rw [commitEffect_unbuilt hc hb, hunbuilt', Effect.mk.injEq, run_eq_run_iff]
      simp [hc, hb, hover]
  · rw [uncreated_eq_iff h hstays hstays' hc, run_eq_run_iff]
    simp [hc, not_overwrites hc]

/-- Change sets with the same names and types have the same effect exactly when they are read
alike. -/
theorem create_effect_eq_iff (env : Env) (stale : InterfaceStale) (w : World)
    (h : SameShape cs cs') :
    effect (ietfInterfaceCreateCb env stale .verify (.ok cs) w) =
        effect (ietfInterfaceCreateCb env stale .verify (.ok cs') w) ↔
      ReadAlike env stale w cs cs' := by
  rw [create_effect, create_effect]
  cases hf : firstLeave w.om cs with
  | some o =>
    cases hf' : firstLeave w.om cs' with
    | some o' =>
      rw [readAlike_of_leaves hf hf', Effect.mk.injEq]
      simp
    | none =>
      refine iff_of_false (left_ne_commit hf hf') fun hread => ?_
      cases hf.symm.trans (hread.leaves.trans hf')
  | none =>
    cases hf' : firstLeave w.om cs' with
    | some o' =>
      refine iff_of_false (fun heq => left_ne_commit hf' hf heq.symm) fun hread => ?_
      cases hf.symm.trans (hread.leaves.trans hf')
    | none => exact commitEffect_eq_iff h hf hf'

end Runs

end Sweetcomb
