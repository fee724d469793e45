import Sweetcomb.AddressLoop
import Sweetcomb.NatLoop
import Sweetcomb.OpenconfigInterfaces

/-!
# Runs of the callbacks

Sysrepo delivers events to the configuration callbacks, one after the other. What a run
leaves in the store follows from the store operations it has issued.
-/

namespace Sweetcomb

/-- A configuration callback, with what it finds in its uninitialised variables. -/
inductive Callback
  | ietfInterfaceCreate (stale : InterfaceStale)
  | ietfInterfaceIpv46AddressChange
  | ocInterfacesConfig (stale : InterfaceStale)
  | natMappingTableConfig (stale : NatStale)

def Callback.run (env : Env) (event : NotifEvent) (changes : Except SrErr (List Change))
    (w : World) : Callback → Outcome × World
  | ietfInterfaceCreate stale => ietfInterfaceCreateCb env stale event changes w
  | ietfInterfaceIpv46AddressChange => ietfInterfaceIpv46AddressChangeCb env event changes w
  | ocInterfacesConfig stale => ocInterfacesConfigCb env stale event changes w
  | natMappingTableConfig stale => natMappingTableConfigCb env stale event changes w

/-- An event as it is delivered to a callback. -/
structure Delivery where
  cb : Callback
  event : NotifEvent
  changes : Except SrErr (List Change)

def Delivery.run (env : Env) (d : Delivery) (w : World) : Outcome × World :=
  d.cb.run env d.event d.changes w

/-- The world after a sequence of deliveries. -/
def World.afterAll (env : Env) (w : World) (ds : List Delivery) : World :=
  ds.foldl (fun w d => (d.run env w).2) w

/-- How the deliveries of a sequence end. -/
def outcomes (env : Env) : List Delivery → World → List Outcome
  | [], _ => []
  | d :: ds, w => (d.run env w).1 :: outcomes env ds (d.run env w).2

/-! ## The operations a run issues -/

/-- The operations issued so far, and the references in the store. -/
abbrev Books := List OmOp × Finset (String × ObjRef)

def World.books (w : World) : Books := (w.ops, w.om.refs)

/-- One more operation: a refused write changes nothing. -/
def OmOp.applyTo (env : Env) (b : Books) (op : OmOp) : Books :=
  (b.1 ++ [op],
    match op with
    | .write key obj => if env.hw (b.1 ++ [op]) = .ok then insert (key, obj.ref) b.2 else b.2
    | .remove key => b.2.filter fun e => e.1 ≠ key)

/-- The references in the store after some more operations. -/
def refsAfter (env : Env) (b : Books) (ops : List OmOp) : Finset (String × ObjRef) :=
  (ops.foldl (OmOp.applyTo env) b).2

variable {env : Env} {w w' w'' : World} {key : String} {obj : VomObj} {Q : OmOp → Prop}

theorem books_omWrite :
    (w.omWrite env key obj).2.books = OmOp.applyTo env w.books (.write key obj) := by
  cases h : env.hw (w.ops ++ [.write key obj]) with
  | ok => simp [World.omWrite_ok h, World.books, OmOp.applyTo, h]
  | failed => simp [World.omWrite_failed h, World.books, OmOp.applyTo, h]

theorem foldl_applyTo_ops (ops : List OmOp) (b : Books) :
    (ops.foldl (OmOp.applyTo env) b).1 = b.1 ++ ops := by
  induction ops generalizing b with
  | nil => exact (List.append_nil _).symm
  | cons op ops ih =>
    rw [List.foldl_cons, ih]
    exact List.append_assoc b.1 [op] ops

/-- `w'` follows from `w` by operations that have the property `Q`. -/
def Issues (env : Env) (Q : OmOp → Prop) (w w' : World) : Prop :=
  ∃ ops : List OmOp, w'.books = ops.foldl (OmOp.applyTo env) w.books ∧ ∀ op ∈ ops, Q op

theorem Issues.of_books (h : w'.books = w.books) : Issues env Q w w' := ⟨[], h, by simp⟩

theorem Issues.trans (h : Issues env Q w w') (h' : Issues env Q w' w'') : Issues env Q w w'' := by
  obtain ⟨ops, hb, hQ⟩ := h
  obtain ⟨ops', hb', hQ'⟩ := h'
  refine ⟨ops ++ ops', ?_, ?_⟩
  · rw [hb', hb, List.foldl_append]
  · intro op hop
    rcases List.mem_append.mp hop with hop | hop
    · exact hQ op hop
    · exact hQ' op hop

theorem Issues.write (h : Q (.write key obj)) : Issues env Q w (w.omWrite env key obj).2 :=
  ⟨[.write key obj], books_omWrite, by simpa using h⟩

theorem Issues.remove (h : Q (.remove key)) : Issues env Q w (w.omRemove key) :=
  ⟨[.remove key], rfl, by simpa using h⟩

/-- What is issued from a world with the same books is issued from the world itself. -/
theorem Issues.congr_left (w' : World) (hb : w'.books = w.books) (h : Issues env Q w' w'') :
    Issues env Q w w'' := (Issues.of_books hb).trans h

/-- What each operation keeps of the references, the operations between two worlds keep. -/
theorem Issues.invariant {I : Finset (String × ObjRef) → Prop}
    (hstep : ∀ (b : Books) op, Q op → I b.2 → I (OmOp.applyTo env b op).2)
    (h : Issues env Q w w') (hw : I w.om.refs) : I w'.om.refs := by
  obtain ⟨ops, hb, hops⟩ := h
  have hfold : ∀ b : Books, I b.2 → I (ops.foldl (OmOp.applyTo env) b).2 := by
    clear hb
    induction ops with
    | nil => exact fun _ hI => hI
    | cons op ops ih =>
      rw [List.forall_mem_cons] at hops
      exact fun b hI => ih hops.2 _ (hstep b op hops.1 hI)
  have hbooks := hfold w.books hw
  rw [← hb] at hbooks
  exact hbooks

/-! ## The interface callbacks -/

section InterfaceRun

variable {exit : Store → Change → Option (World → Outcome × World)} {cs : List Change}
  {stale : InterfaceStale}

theorem Refuses.books {out : World → Outcome × World} (h : Refuses out) (w : World) :
    (out w).2.books = w.books := by
  obtain ⟨-, calls, hw⟩ := h w
  rw [hw]
  rfl

/-- Every way out of the loop refuses the change set. -/
def ExitRefuses (exit : Store → Change → Option (World → Outcome × World)) : Prop :=
  ∀ om c out, exit om c = some out → Refuses out

theorem exitRefuses_leafEvent : ExitRefuses fun om c => c.leafEvent.exit om := by
  intro om c out h
  simp only [LeafEvent.exit] at h
  split at h
  · cases h
    apply refuses_fault
  · split_ifs at h
    cases h
    exact refuses_leave (by simp)
  · cases h
    exact refuses_leave (by simp)
  · cases h

theorem ocNameCheck_refuses {c : Change} {out : World → Outcome × World}
    (h : ocNameCheck c = some out) : Refuses out := by
  unfold ocNameCheck at h
  split at h
  · cases h
    apply refuses_fault
  · split at h
    · cases h
      apply refuses_fault
    · split_ifs at h
      cases h
      exact fun w => ⟨by simp, w.calls, rfl⟩

theorem exitRefuses_ocExit : ExitRefuses ocExit := by
  intro om c out h
  unfold ocExit at h
  cases hn : ocNameCheck c with
  | some out' =>
    rw [hn] at h
    cases h
    exact ocNameCheck_refuses hn
  | none =>
    rw [hn, Option.none_or] at h
    exact exitRefuses_leafEvent om c out h

/-- What VOM and sysrepo see of an interface callback, by the way its loop ends. -/
theorem interfaceRun_effect (env : Env) (stale : InterfaceStale) (w : World) (cs : List Change)
    (hexit : ExitByName exit) (hrefuses : ExitRefuses exit) :
    let before := cs.takeWhile fun c => (exit w.om c).isNone
    effect (interfaceRun env .verify (interfaceBody exit) cs stale w) =
      match cs.findSome? (exit w.om) with
      | some out => ⟨(out (w.afterLoop before)).1, w.ops, w.om.run before, w.table⟩
      | none => effect (interfaceCommit env ((InterfaceLocals.init stale).run cs)
          (w.afterLoop cs)) := by
  have hev : NotifEvent.verify ≠ .abort := by simp
  intro before
  cases hfirst : cs.findSome? (exit w.om) with
  | none => rw [interfaceRun_eq_commit hexit hev (List.findSome?_eq_none_iff.mp hfirst)]
  | some out =>
    obtain ⟨pre, c, post, rfl, hout, hpre⟩ := List.findSome?_eq_some_iff.mp hfirst
    have hbefore : before = pre := by
      simp only [before]
      rw [List.takeWhile_append_of_pos fun d hd => by simp [hpre d hd]]
      simp [hout]
    obtain ⟨-, calls, hw⟩ := hrefuses _ _ _ hout (w.afterLoop pre)
    rw [interfaceRun_eq_exit hexit hev hpre hout, hbefore]
    simp [effect, hw, World.withCalls]

theorem books_afterLoop (w : World) (cs : List Change) : (w.afterLoop cs).books = w.books := by
  simp [World.books]

/-- A name the builder ends up with is one of the change set, or the one it started with. -/
theorem run_name_mem (l : InterfaceLocals) (cs : List Change) :
    (l.run cs).builder.name ∈ namesIn cs ∨ (l.run cs).builder.name = l.builder.name := by
  rw [InterfaceLocals.run_name]
  by_cases h : namesIn cs = []
  · exact .inr (by rw [h]; rfl)
  · exact .inl (LoopVariables.getLastD_mem h _)

theorem build_eq_some_iff {b : InterfaceBuilder} {i : Interface} :
    b.build = some i ↔ b.name ≠ "" ∧ b.type ≠ "" ∧ i = ⟨b.name, b.type, b.state⟩ := by
  by_cases hn : b.name = ""
  · simp [InterfaceBuilder.build, hn]
  · by_cases ht : b.type = ""
    · simp [InterfaceBuilder.build, ht]
    · constructor
      · intro h
        refine ⟨hn, ht, ?_⟩
        simpa [InterfaceBuilder.build, hn, ht, eq_comm (b := i)] using h
      · rintro ⟨-, -, rfl⟩
        simp [InterfaceBuilder.build, hn, ht]

/-- A commit writes an interface that is built or found, or removes the named one. -/
theorem interfaceCommit_issues {l : InterfaceLocals}
    (hbuilt : ∀ i, l.builder.build = some i → Q (.write i.name (.interface i)))
    (hfound : ∀ i, l.intf.deref w.om = some i → Q (.write i.name (.interface i)))
    (hremove : Q (.remove l.builder.name)) : Issues env Q w (interfaceCommit env l w).2 := by
  have hwrite : ∀ i : Interface, Q (.write i.name (.interface i)) →
      Issues env Q w (writeAndLeave env i w).2 := by
    intro i hi
    apply (Issues.write hi).trans
    apply Issues.of_books
    unfold writeAndLeave
    cases h : w.omWrite env i.name (.interface i) with
    | mk rc w' => cases rc <;> rfl
  cases hc : l.create with
  | true =>
    cases hb : l.builder.build with
    | none =>
      simp only [interfaceCommit, hc, hb, if_true, Option.map_none]
      exact Issues.of_books rfl
    | some i =>
      rw [interfaceCommit_create hc hb]
      exact hwrite i (hbuilt i hb)
  | false =>
    cases hm : l.modify with
    | true =>
      cases hi : l.intf.deref w.om with
      | none =>
        rw [commit_null hc hm hi]
        exact Issues.of_books rfl
      | some i =>
        rw [interfaceCommit_modify hc hm hi]
        exact hwrite i (hfound i hi)
    | false =>
      cases hr : l.remove with
      | true =>
        rw [commit_remove hc hm hr]
        exact (Issues.remove hremove).trans (Issues.of_books rfl)
      | false =>
        rw [commit_nothing hc hm hr]
        exact Issues.of_books rfl

/-- An interface callback writes interfaces it is given or finds, and removes named ones. -/
theorem interfaceRun_issues (hexit : ExitByName exit) (hrefuses : ExitRefuses exit)
    (hgiven : ∀ i : Interface, i.name ∈ namesIn cs → i.name ≠ "" →
      Q (.write i.name (.interface i)))
    (hlive : ∀ i : Interface, (w.om.find i.name).isSome → Q (.write i.name (.interface i)))
    (hnamed : ∀ n, n ∈ namesIn cs ∨ n = "" → Q (.remove n)) :
    Issues env Q w (interfaceRun env .verify (interfaceBody exit) cs stale w).2 := by
  rcases interfaceRun_cases env w cs hexit (show NotifEvent.verify ≠ .abort by simp) with
    ⟨-, hrun⟩ | ⟨pre, c, -, out, hout, hrun⟩
  · rw [hrun]
    apply Issues.congr_left _ (books_afterLoop w cs)
    have hname := run_name_mem (.init stale) cs
    apply interfaceCommit_issues
    · intro i hi
      obtain ⟨hne, -, rfl⟩ := build_eq_some_iff.mp hi
      exact hgiven _ (hname.resolve_right hne) hne
    -- the pointer is null, or points to an interface that the loop has found
    · intro i hi
      rw [InterfaceLocals.run_intf] at hi
      by_cases hm : modifiedIn cs = []
      · rw [hm] at hi
        cases hi
      · obtain ⟨n, -, hn⟩ := InterfaceLocals.run_intf_stored (l := .init stale) hm
        rw [← InterfaceLocals.run_intf, hn] at hi
        apply hlive
        rw [← sameNames_run (SameNames.refl w.om) cs i.name, ← afterLoop_om]
        have hi : (w.afterLoop cs).om.find n = some i := hi
        rw [Store.name_of_find hi, hi]
        rfl
    · exact hnamed _ hname
  · rw [hrun]
    apply Issues.of_books
    rw [(hrefuses _ _ _ hout).books, books_afterLoop]

end InterfaceRun

/-! ## The NAT callback -/

theorem books_afterAsked (w : World) (cs : List Change) : (w.afterAsked cs).books = w.books := by
  simp [World.books]

/-- A NAT commit writes a mapping under the key of its index, or removes that key. -/
theorem natCommit_issues {l : NatLocals} (hwrite : ∀ n, Q (.write (natKey l.xindex) (.natStatic n)))
    (hremove : Q (.remove (natKey l.xindex))) : Issues env Q w (natCommit env l w).2 := by
  -- the iterator is released before anything is asked of VOM
  apply Issues.congr_left (w.called (.freeChangeIter .live)) rfl
  unfold natCommit
  cases hc : l.create with
  | true =>
    simp only [if_true, build_eq]
    by_cases ht : l.builder.type = "static"
    · simp only [ht, if_true]
      apply (Issues.write (hwrite _)).trans
      apply Issues.of_books
      split
      · next h => rw [h]; rfl
      · next h => rw [h]; rfl
    · simp only [ht, if_false]
      exact Issues.of_books rfl
  | false =>
    cases hr : l.remove with
    | true => exact (Issues.remove hremove).trans (Issues.of_books rfl)
    | false => exact Issues.of_books rfl

/-- The NAT callback writes and removes under the key of an index. -/
theorem nat_issues {stale : NatStale} {event : NotifEvent}
    {changes : Except SrErr (List Change)}
    (hwrite : ∀ x n, Q (.write (natKey x) (.natStatic n)))
    (hremove : ∀ x, Q (.remove (natKey x))) :
    Issues env Q w (natMappingTableConfigCb env stale event changes w).2 := by
  by_cases hev : event = .verify
  · subst hev
    cases changes with
    | error rc =>
      apply Issues.of_books
      show (natNoIter stale.it rc w).2.books = _
      unfold natNoIter
      split <;> rfl
    | ok cs =>
      rcases nat_cases env w cs with ⟨-, hrun⟩ | ⟨pre, c, -, out, hout, hrun⟩
      · rw [hrun]
        apply Issues.congr_left _ (books_afterAsked w cs)
        exact natCommit_issues (hwrite _) (hremove _)
      · rw [hrun]
        apply Issues.of_books
        rw [(NatEvent.exit_refuses hout).books, books_afterAsked]
  · have hcb : natMappingTableConfigCb env stale event changes w = (.returns .ok, w) := if_pos hev
    rw [hcb]
    exact Issues.of_books rfl

/-! ## The address callback -/

/-- A request changes the binding of an interface that is alive. -/
theorem perform_issues {r : AddrRequest}
    (hwrite : ∀ i a, w.om.find r.itf = some i →
      Q (.write (l3Key env.asio r.itf ⟨a, r.pfx⟩) (.l3Binding ⟨i, ⟨a, r.pfx⟩⟩)))
    (hremove : ∀ i a, w.om.find r.itf = some i →
      Q (.remove (l3Key env.asio r.itf ⟨a, r.pfx⟩))) :
    Issues env Q w (r.perform env w).2 := by
  obtain ⟨itf, addr, pfx, add⟩ := r
  cases hi : w.om.find itf with
  | none =>
    rw [perform_unknown add hi]
    exact Issues.of_books rfl
  | some i =>
    cases ha : env.asio.fromString addr with
    | none =>
      rw [perform_malformed add hi ha]
      exact Issues.of_books rfl
    | some a =>
      cases add with
      | false =>
        rw [perform_remove hi ha]
        exact Issues.remove (hremove i a hi)
      | true =>
        rw [perform_add hi ha]
        apply (Issues.write (hwrite i a hi)).trans
        apply Issues.of_books
        split <;> next h => rw [h]

/-! ## Whole deliveries -/

/-- The names in the change set of an interface callback. -/
def Delivery.names (d : Delivery) : List String :=
  match d.cb, d.changes with
  | .ietfInterfaceCreate _, .ok cs => namesIn cs
  | .ocInterfacesConfig _, .ok cs => namesIn cs
  | _, _ => []

section Deliveries

variable {P : World → Prop} {d : Delivery}

/-- Requests one after the other: `P` holds of the world before each of them. -/
theorem performAll_issues (hP : ∀ w w', Issues env Q w w' → P w → P w')
    (hserve : ∀ w n i pfx, P w → w.om.find n = some i →
      Q (.write (l3Key env.asio n pfx) (.l3Binding ⟨i, pfx⟩)) ∧ Q (.remove (l3Key env.asio n pfx)))
    (rs : List AddrRequest) (rc : SrErr) (hw : P w) :
    Issues env Q w (performAll env rs (rc, w)).2 := by
  induction rs generalizing w rc with
  | nil => exact Issues.of_books rfl
  | cons r rs ih =>
    have hr : Issues env Q w (r.perform env w).2 := by
      apply perform_issues
      · exact fun i a hi => (hserve w r.itf i ⟨a, r.pfx⟩ hw hi).1
      · exact fun i a hi => (hserve w r.itf i ⟨a, r.pfx⟩ hw hi).2
    exact hr.trans (ih (r.perform env w).1 (hP _ _ hr hw))

theorem address_issues (hP : ∀ w w', Issues env Q w w' → P w → P w')
    (hserve : ∀ w n i pfx, P w → w.om.find n = some i →
      Q (.write (l3Key env.asio n pfx) (.l3Binding ⟨i, pfx⟩)) ∧ Q (.remove (l3Key env.asio n pfx)))
    {event : NotifEvent} {changes : Except SrErr (List Change)} (hw : P w) :
    Issues env Q w (ietfInterfaceIpv46AddressChangeCb env event changes w).2 := by
  by_cases hev : event = .apply
  · subst hev
    exact Issues.of_books rfl
  · cases changes with
    | error rc =>
      have hcb : ietfInterfaceIpv46AddressChangeCb env event (.error rc) w =
          (.returns rc, (w.called (.getChangesIter rc)).called (.freeChangeIter .null)) :=
        if_neg hev
      rw [hcb]
      exact Issues.of_books rfl
    | ok cs =>
      by_cases habort : event = .abort
      · subst habort
        exact Issues.of_books rfl
      · have heff := addr_effect env w hev habort cs
        have hbooks : (ietfInterfaceIpv46AddressChangeCb env event (.ok cs) w).2.books =
            (performAll env (AddrLocals.pass env.asio {} cs).1 (.ok, w)).2.books :=
          congrArg₂ Prod.mk (congrArg Effect.ops heff) (congrArg (fun e => e.om.refs) heff)
        exact (performAll_issues hP hserve _ _ hw).trans (Issues.of_books hbooks)

/-- What a delivery issues, by the callback it goes to. -/
theorem delivery_issues (hP : ∀ w w', Issues env Q w w' → P w → P w')
    (hserve : ∀ w n i pfx, P w → w.om.find n = some i →
      Q (.write (l3Key env.asio n pfx) (.l3Binding ⟨i, pfx⟩)) ∧ Q (.remove (l3Key env.asio n pfx)))
    (hgiven : ∀ i : Interface, i.name ∈ d.names → i.name ≠ "" → Q (.write i.name (.interface i)))
    (hlive : ∀ i : Interface, (w.om.find i.name).isSome → Q (.write i.name (.interface i)))
    (hnamed : ∀ n, n ∈ d.names ∨ n = "" → Q (.remove n))
    (hmapping : ∀ x n, Q (.write (natKey x) (.natStatic n)) ∧ Q (.remove (natKey x)))
    (hw : P w) : Issues env Q w (d.run env w).2 := by
  obtain ⟨cb, event, changes⟩ := d
  cases cb with
  | ietfInterfaceCreate stale =>
    show Issues _ _ w (ietfInterfaceCreateCb env stale event changes w).2
    by_cases hev : event = .verify
    · subst hev
      cases changes with
      | error rc => exact Issues.of_books rfl
      | ok cs =>
        rw [ietfInterfaceCreateCb_verify]
        exact interfaceRun_issues exitByName_leafEvent exitRefuses_leafEvent hgiven hlive hnamed
    · have hcb : ietfInterfaceCreateCb env stale event changes w = (.returns .ok, w) := if_pos hev
      rw [hcb]
      exact Issues.of_books rfl
  | ietfInterfaceIpv46AddressChange => exact address_issues hP hserve hw
  | ocInterfacesConfig stale =>
    show Issues _ _ w (ocInterfacesConfigCb env stale event changes w).2
    by_cases hev : event = .verify
    · subst hev
      cases changes with
      | error rc => exact Issues.of_books rfl
      | ok cs =>
        rw [ocInterfacesConfigCb_verify]
        exact interfaceRun_issues exitByName_ocExit exitRefuses_ocExit hgiven hlive hnamed
    · have hcb : ocInterfacesConfigCb env stale event changes w = (.returns .ok, w) := if_pos hev
      rw [hcb]
      exact Issues.of_books rfl
  | natMappingTableConfig stale =>
    exact nat_issues (fun x n => (hmapping x n).1)
      (fun x => (hmapping x ⟨.default, .default⟩).2)

/-- A run issues what its deliveries issue. -/
theorem afterAll_issues (hP : ∀ w w', Issues env Q w w' → P w → P w') (ds : List Delivery)
    (hds : ∀ w, P w → ∀ d ∈ ds, Issues env Q w (d.run env w).2) (hw : P w) :
    Issues env Q w (w.afterAll env ds) := by
  induction ds generalizing w with
  | nil => exact Issues.of_books rfl
  | cons d ds ih =>
    have hd := hds w hw d List.mem_cons_self
    exact hd.trans (ih (fun w hw d hd => hds w hw d (List.mem_cons_of_mem _ hd)) (hP _ _ hd hw))

end Deliveries

/-! ## No interface without a name -/

/-- An interface is written under its name only when it has one. -/
def OmOp.Named : OmOp → Prop
  | .write _ obj => obj.ref.itf ≠ some ""
  | .remove _ => True

theorem find_empty_iff {om : Store} : om.find "" = none ↔ ∀ e ∈ om.refs, e.2.itf ≠ some "" := by
  rw [Store.find_eq_none, SharedStore.attr_eq_none]

theorem Issues.nameless (h : Issues env OmOp.Named w w') (hw : w.om.find "" = none) :
    w'.om.find "" = none := by
  rw [find_empty_iff] at hw ⊢
  refine h.invariant (I := fun refs => ∀ e ∈ refs, e.2.itf ≠ some "") (fun b op hop hb => ?_) hw
  cases op with
  | write key obj =>
    simp only [OmOp.applyTo]
    split_ifs
    · intro e he
      rcases Finset.mem_insert.mp he with rfl | he
      · exact hop
      · exact hb e he
    · exact hb
  | remove key => exact fun e he => hb e (Finset.mem_filter.mp he).1

theorem delivery_nameless (d : Delivery) (hw : w.om.find "" = none) :
    Issues env OmOp.Named w (d.run env w).2 := by
  have hlive : ∀ (w : World) (i : Interface), w.om.find "" = none → (w.om.find i.name).isSome →
      some i.name ≠ some "" := by
    intro w i hw hi h
    rw [Option.some.inj h, hw] at hi
    cases hi
  apply delivery_issues (P := fun w => w.om.find "" = none)
  · exact fun w w' h hw => h.nameless hw
  · intro w n i pfx hw hi
    refine ⟨hlive w i hw ?_, trivial⟩
    rw [Store.name_of_find hi, hi]
    rfl
  · exact fun i _ hne h => hne (Option.some.inj h)
  · exact fun i hi => hlive w i hw hi
  · exact fun _ _ => trivial
  · exact fun x n => ⟨by simp [OmOp.Named, VomObj.ref, ObjRef.itf], trivial⟩
  · exact hw

/-- A store without a nameless interface never gets one. -/
theorem nameless_afterAll (ds : List Delivery) (hw : w.om.find "" = none) :
    (w.afterAll env ds).om.find "" = none :=
  (afterAll_issues (P := fun w => w.om.find "" = none) (fun _ _ h hw => h.nameless hw) ds
    (fun _ hw d _ => delivery_nameless d hw) hw).nameless hw

end Sweetcomb
