import Sweetcomb.AddressErrors
import Sweetcomb.Callbacks

/-!
# The release of the change iterator

A callback that obtains an iterator has to release it once, after its loop. The ways out by
a fault do not release it, one way out of the openconfig callback does not either, and the
NAT callback releases it a second time when its commit fails.
-/

namespace Sweetcomb

/-- Every iterator obtained is released once, no change is asked for after that, and no
handle is released that was never set. -/
structure ReleasesOnce (calls : List SrCall) : Prop where
  once : calls.count (.freeChangeIter .live) = calls.count (.getChangesIter .ok)
  atEnd : calls.Pairwise fun c d => c = .freeChangeIter .live → d ≠ .getChangeNext
  obtained : ∀ it, .freeChangeIter it ∈ calls → it = .live

/-- The calls a callback has issued, starting in `w`, release its iterator once. -/
def Releases (w : World) (r : Outcome × World) : Prop :=
  ∃ calls, r.2.calls = w.calls ++ calls ∧ ReleasesOnce calls

theorem releases_iff {w : World} {r : Outcome × World} {calls : List SrCall}
    (h : r.2.calls = w.calls ++ calls) : Releases w r ↔ ReleasesOnce calls := by
  constructor
  · rintro ⟨calls', h', hreleases⟩
    rwa [List.append_cancel_left (h.symm.trans h')]
  · exact fun hreleases => ⟨calls, h, hreleases⟩

/-- `m` releases of an iterator that has been asked for changes are one release. -/
theorem releasesOnce_iff (k m : ℕ) :
    ReleasesOnce (.getChangesIter .ok ::
      (List.replicate k .getChangeNext ++ List.replicate m (.freeChangeIter .live))) ↔ m = 1 := by
  constructor
  · intro h
    simpa [List.count_replicate] using h.once
  · rintro rfl
    refine ⟨by simp [List.count_replicate], ?_, by simp⟩
    simp [List.pairwise_append, List.pairwise_replicate]

/-- The calls of a loop: the iterator is obtained and asked for changes. -/
def Looped (w w' : World) : Prop :=
  ∃ k, w'.calls = w.calls ++ .getChangesIter .ok :: List.replicate k .getChangeNext

theorem Looped.releases_iff {w w' : World} (h : Looped w w') {r : Outcome × World} {m : ℕ}
    (hr : r.2.calls = w'.calls ++ List.replicate m (.freeChangeIter .live)) :
    Releases w r ↔ m = 1 := by
  obtain ⟨k, hk⟩ := h
  rw [hk, List.append_assoc, List.cons_append] at hr
  rw [Sweetcomb.releases_iff hr, releasesOnce_iff]

/-- A way out of a loop releases the iterator, or not. -/
def Ends (out : World → Outcome × World) (released : Bool) : Prop :=
  ∀ w, (out w).2.calls = w.calls ++ List.replicate released.toNat (.freeChangeIter .live)

theorem ends_leave (rc : SrErr) : Ends (leave rc) true := fun _ => rfl

theorem ends_keeping (o : Outcome) : Ends (fun w => (o, w)) false :=
  fun w => (List.append_nil w.calls).symm

theorem Looped.ends {w w' : World} (h : Looped w w') {out : World → Outcome × World} {b : Bool}
    (hout : Ends out b) : Releases w (out w') ↔ b = true := by
  rw [h.releases_iff (hout w')]
  cases b <;> simp

/-- The changes that are known to end a loop are those that do. -/
theorem rel_eq_none_iff {α β : Type} {R : α → β → Prop} {o : Option α} {b : Option β}
    (h : Option.Rel R o b) : b = none ↔ o = none := by
  cases h <;> simp

/-! ## The interface callbacks -/

/-- Whether the way an event leaves the loop releases the iterator. -/
def LeafEvent.releases (om : Store) : LeafEvent → Option Bool
  | .modifyEnabled none _ => some false
  | .modifyEnabled (some n) _ => if (om.find n).isSome then none else some true
  | .unsupported => some true
  | _ => none

/-- The same for the openconfig callback, which reads the interface name of the new value
first, and returns without a release when it is empty. -/
def ocReleases (om : Store) (c : Change) : Option Bool :=
  match c.newVal.bind fun ne => ne.xpath.keyValue "interface" "name" with
  | none => some false
  | some n => if n.isEmpty then some false else c.leafEvent.releases om

/-- The commit writes through a null pointer: `modify` is found set and nothing is modified. -/
def NullCommit (stale : InterfaceStale) (cs : List Change) : Prop :=
  stale.create = false ∧ ¬ CreatesName cs ∧ stale.modify = true ∧ modifiedIn cs = []

theorem LeafEvent.exit_ends (om : Store) (e : LeafEvent) :
    Option.Rel Ends (e.exit om) (e.releases om) := by
  cases e with
  | modifyEnabled key b =>
    cases key with
    | none => exact .some (ends_keeping _)
    | some n =>
      simp only [LeafEvent.exit, LeafEvent.releases]
      split_ifs
      · exact .none
      · exact .some (ends_leave _)
  | unsupported => exact .some (ends_leave _)
  | _ => exact .none

theorem ocExit_ends (om : Store) (c : Change) :
    Option.Rel Ends (ocExit om c) (ocReleases om c) := by
  unfold ocExit ocNameCheck ocReleases
  cases c.newVal with
  | none => exact .some (ends_keeping _)
  | some ne =>
    simp only [Option.bind_some]
    cases ne.xpath.keyValue "interface" "name" with
    | none => exact .some (ends_keeping _)
    | some n =>
      cases hempty : n.isEmpty with
      | true =>
        simp only [hempty, if_true, Option.some_or]
        exact .some (ends_keeping _)
      | false =>
        simp only [hempty, Bool.false_eq_true, if_false, Option.none_or]
        exact LeafEvent.exit_ends om c.leafEvent

theorem turns_calls (w : World) (cs : List Change) :
    (cs.foldl World.turn w).calls = w.calls ++ List.replicate cs.length .getChangeNext := by
  induction cs generalizing w with
  | nil => exact (List.append_nil _).symm
  | cons c cs ih =>
    have hturn : (w.turn c).calls = w.calls ++ [.getChangeNext] := rfl
    rw [List.foldl_cons, ih, hturn, List.append_assoc, List.length_cons, List.replicate_succ]
    rfl

theorem looped_afterLoop (w : World) (cs : List Change) : Looped w (w.afterLoop cs) := by
  have hturns := turns_calls (w.called (.getChangesIter .ok)) cs
  refine ⟨cs.length + 1, ?_⟩
  rw [World.afterLoop, World.called, hturns, World.called, List.replicate_succ']
  simp

/-- A commit that does not write through a null pointer releases the iterator. -/
theorem interfaceCommit_calls {env : Env} {l : InterfaceLocals} {w : World}
    (h : l.create = false → l.modify = true → l.intf.deref w.om ≠ none) :
    (interfaceCommit env l w).2.calls = w.calls ++ [.freeChangeIter .live] := by
  have hwrite : ∀ i : Interface,
      (writeAndLeave env i w).2.calls = w.calls ++ [.freeChangeIter .live] := by
    intro i
    unfold writeAndLeave
    cases hw : env.hw (w.ops ++ [.write i.name (.interface i)]) with
    | ok => rw [World.omWrite_ok hw]; rfl
    | failed => rw [World.omWrite_failed hw]; rfl
  cases hc : l.create with
  | true =>
    cases hb : l.builder.build with
    | none => simp [interfaceCommit, hc, hb, leave, World.called]
    | some i =>
      rw [interfaceCommit_create hc hb]
      exact hwrite i
  | false =>
    cases hm : l.modify with
    | true =>
      obtain ⟨i, hi⟩ := Option.ne_none_iff_exists'.mp (h hc hm)
      rw [interfaceCommit_modify hc hm hi]
      exact hwrite i
    | false =>
      cases hr : l.remove with
      | true => rw [commit_remove hc hm hr]; rfl
      | false => rw [commit_nothing hc hm hr]; rfl

section InterfaceRun

variable {exit : Store → Change → Option (World → Outcome × World)} {rel : Change → Option Bool}
  {env : Env} {stale : InterfaceStale} {w : World} {cs : List Change}

theorem nullCommit_iff :
    NullCommit stale cs ↔ ((InterfaceLocals.init stale).run cs).create = false ∧
      ((InterfaceLocals.init stale).run cs).modify = true ∧ modifiedIn cs = [] := by
  have hcreate : ((InterfaceLocals.init stale).run cs).create = false ↔
      stale.create = false ∧ ¬ CreatesName cs := by
    rw [Bool.eq_false_iff, ne_eq, InterfaceLocals.run_create, not_or, ← ne_eq, ← Bool.eq_false_iff]
    rfl
  rw [hcreate, InterfaceLocals.run_modify, NullCommit, and_assoc]
  refine and_congr_right fun _ => and_congr_right fun _ => and_congr_left fun hnil => ?_
  simp [hnil, InterfaceLocals.init]

/-- The interface that the loop has modified last is still in the store. -/
theorem deref_after_loop (hfound : ∀ c ∈ cs, c.leafEvent.exit w.om = none)
    (hmodified : modifiedIn cs ≠ []) :
    ((InterfaceLocals.init stale).run cs).intf.deref (w.afterLoop cs).om ≠ none := by
  obtain ⟨n, hn, hintf⟩ :=
    InterfaceLocals.run_intf_stored (l := InterfaceLocals.init stale) hmodified
  obtain ⟨c, hc, b, hevent⟩ := mem_modifiedIn.mp hn
  have hstored : (w.om.find n).isSome := by
    have hexit := hfound c hc
    rw [hevent] at hexit
    simpa [LeafEvent.exit, Option.isSome_iff_ne_none] using hexit
  have hnames := sameNames_run (SameNames.refl w.om) cs n
  rw [hintf, afterLoop_om]
  exact Option.isSome_iff_ne_none.mp (hnames.trans hstored)

/-- A run of an interface callback releases its iterator when the change that ends the loop
does, or when the loop goes through and the commit is not one through a null pointer. -/
theorem interfaceRun_releases (hexit : ExitByName exit)
    (hrel : ∀ c, Option.Rel Ends (exit w.om c) (rel c))
    (hleaf : ∀ c, exit w.om c = none → c.leafEvent.exit w.om = none) :
    Releases w (interfaceRun env .verify (interfaceBody exit) cs stale w) ↔
      cs.findSome? rel = some true ∨ cs.findSome? rel = none ∧ ¬ NullCommit stale cs := by
  have hev : NotifEvent.verify ≠ .abort := by decide
  have hnone := fun c => rel_eq_none_iff (hrel c)
  cases hfirst : cs.findSome? rel with
  | some b =>
    obtain ⟨pre, c, post, rfl, hc, hpre⟩ := List.findSome?_eq_some_iff.mp hfirst
    have hends := hrel c
    rw [hc] at hends
    generalize hout : exit w.om c = o at hends
    cases hends with
    | some hends =>
      rw [interfaceRun_eq_exit hexit hev (fun d hd => (hnone d).mp (hpre d hd)) hout,
        (looped_afterLoop w pre).ends hends]
      simp
  | none =>
    have hall : ∀ c ∈ cs, exit w.om c = none :=
      fun c hc => (hnone c).mp (List.findSome?_eq_none_iff.mp hfirst c hc)
    rw [interfaceRun_eq_commit hexit hev hall]
    by_cases hnull : NullCommit stale cs
    · obtain ⟨hc, hm, hmodified⟩ := nullCommit_iff.mp hnull
      have hi : ((InterfaceLocals.init stale).run cs).intf = .null := by
        rw [InterfaceLocals.run_intf, hmodified]
        rfl
      rw [commit_null hc hm (by rw [hi]; rfl),
        (looped_afterLoop w cs).ends (ends_keeping (.faults .nullInterface))]
      simp [hnull]
    · have hderef : ((InterfaceLocals.init stale).run cs).create = false →
          ((InterfaceLocals.init stale).run cs).modify = true →
            ((InterfaceLocals.init stale).run cs).intf.deref (w.afterLoop cs).om ≠ none := by
        intro hc hm
        refine deref_after_loop (fun c hcs => hleaf c (hall c hcs)) fun hmodified => ?_
        exact hnull (nullCommit_iff.mpr ⟨hc, hm, hmodified⟩)
      rw [(looped_afterLoop w cs).releases_iff (m := 1) (interfaceCommit_calls hderef)]
      simp [hnull]

end InterfaceRun

/-! ## The address callback -/

/-- Whether the way a change leaves the address loop releases the iterator. -/
def addrReleases (A : Asio) (c : Change) : Option Bool :=
  match c.xpath.keyValue "interface" "name" with
  | none => some false
  | some n =>
    if n.isEmpty then some true
    else
      match AddrLocals.parse A {} c with
      | .error _ => some false
      | .ok _ => none

theorem performAll_calls (env : Env) (rs : List AddrRequest) (s : SrErr × World) :
    (performAll env rs s).2.calls = s.2.calls := by
  refine LoopVariables.keeps (fun s => s.2.calls) (fun s r => ?_) rs s
  have hwith : r.perform env (s.2.withCalls s.2.calls) = _ := perform_withCalls r
  exact congrArg (fun p => p.2.calls) hwith

/-- One turn of the address loop: it goes on, or it leaves with the release or without. -/
theorem addrTurn_calls (env : Env) (l : AddrLocals) (w : World) (c : Change) :
    match addrReleases env.asio c with
    | none => ∃ l' w', addrTurn env (l, w) c = .ok (l', w') ∧
        w'.calls = w.calls ++ [.getChangeNext]
    | some b => ∃ out, addrTurn env (l, w) c = .error (out (w.called .getChangeNext)) ∧
        Ends out b := by
  unfold addrReleases addrTurn addrBody
  cases c.xpath.keyValue "interface" "name" with
  | none => exact ⟨_, rfl, ends_keeping _⟩
  | some n =>
    cases hempty : n.isEmpty with
    | true =>
      simp only [hempty, if_true]
      exact ⟨_, rfl, ends_leave _⟩
    | false =>
      simp only [hempty, Bool.false_eq_true, if_false]
      cases hparse : AddrLocals.parse env.asio {} c with
      | error f =>
        rw [(AddrLocals.parse_change_error_iff (l := l) c).mpr hparse]
        exact ⟨_, rfl, ends_keeping (.faults f)⟩
      | ok l₀ =>
        cases hl : l.parse env.asio c with
        | error f =>
          rw [(AddrLocals.parse_change_error_iff c).mp hl] at hparse
          cases hparse
        | ok l' =>
          have hcommit : (l'.commit env n (w.called .getChangeNext)).2.calls =
              w.calls ++ [.getChangeNext] := by
            rw [AddrLocals.commit_eq]
            exact performAll_calls env _ _
          exact ⟨(l'.commit env n (w.called .getChangeNext)).1,
            (l'.commit env n (w.called .getChangeNext)).2, rfl, hcommit⟩

theorem addrLoop_calls (env : Env) (cs : List Change) (l : AddrLocals) (w : World) :
    match cs.findSome? (addrReleases env.asio) with
    | none => ∃ l' w', cs.foldlM (addrTurn env) (l, w) = .ok (l', w') ∧
        w'.calls = w.calls ++ List.replicate cs.length .getChangeNext
    | some b => ∃ out w' k, cs.foldlM (addrTurn env) (l, w) = .error (out w') ∧
        w'.calls = w.calls ++ List.replicate k .getChangeNext ∧ Ends out b := by
  induction cs generalizing l w with
  | nil => exact ⟨l, w, rfl, (List.append_nil _).symm⟩
  | cons c cs ih =>
    have hturn := addrTurn_calls env l w c
    cases hc : addrReleases env.asio c with
    | some b =>
      rw [hc] at hturn
      obtain ⟨out, hout, hends⟩ := hturn
      rw [List.findSome?_cons, hc, EarlyExit.foldlM_cons_error cs hout]
      exact ⟨out, _, 1, rfl, rfl, hends⟩
    | none =>
      rw [hc] at hturn
      obtain ⟨l', w', hok, hcalls⟩ := hturn
      -- the turns that are left start from one call more
      have hone : ∀ k, w'.calls ++ List.replicate k .getChangeNext =
          w.calls ++ List.replicate (k + 1) .getChangeNext := by
        intro k
        rw [hcalls, List.append_assoc, List.replicate_succ]
        rfl
      have htail := ih l' w'
      rw [List.findSome?_cons, hc, EarlyExit.foldlM_cons_ok cs hok]
      simp only at htail ⊢
      cases hfirst : cs.findSome? (addrReleases env.asio) with
      | none =>
        rw [hfirst] at htail
        obtain ⟨l'', w'', hrest, hcalls'⟩ := htail
        exact ⟨l'', w'', hrest, hcalls'.trans (hone _)⟩
      | some b =>
        rw [hfirst] at htail
        obtain ⟨out, w'', k, hrest, hcalls', hends⟩ := htail
        exact ⟨out, w'', k + 1, hrest, hcalls'.trans (hone _), hends⟩

theorem addr_releases_abort (env : Env) (w : World) (cs : List Change) :
    Releases w (ietfInterfaceIpv46AddressChangeCb env .abort (.ok cs) w) := by
  have hloop : Looped w (w.called (.getChangesIter .ok)) := ⟨0, rfl⟩
  exact (hloop.ends (ends_leave .ok)).mpr rfl

/-- At an event that asks for the changes, the callback releases its iterator unless a fault
ends the loop. -/
theorem addr_releases_iff (env : Env) (w : World) {event : NotifEvent} (hev : event ≠ .apply)
    (habort : event ≠ .abort) (cs : List Change) :
    Releases w (ietfInterfaceIpv46AddressChangeCb env event (.ok cs) w) ↔
      cs.findSome? (addrReleases env.asio) ≠ some false := by
  have hloop := addrLoop_calls env cs {} (w.called (.getChangesIter .ok))
  have hobtained : ∀ (w' : World) k,
      w'.calls = (w.called (.getChangesIter .ok)).calls ++ List.replicate k .getChangeNext →
        Looped w w' := by
    intro w' k h
    refine ⟨k, ?_⟩
    rw [h, World.called, List.append_assoc]
    rfl
  cases hfirst : cs.findSome? (addrReleases env.asio) with
  | none =>
    rw [hfirst] at hloop
    obtain ⟨l', w', hok, hcalls⟩ := hloop
    have hcb := addressCb_eq env w hev habort cs
    rw [hok] at hcb
    have hlast : Looped w (w'.called .getChangeNext) := by
      refine hobtained _ (cs.length + 1) ?_
      rw [World.called, hcalls, List.replicate_succ', List.append_assoc]
    rw [hcb, hlast.ends (ends_leave _)]
    simp
  | some b =>
    rw [hfirst] at hloop
    obtain ⟨out, w', k, hout, hcalls, hends⟩ := hloop
    have hcb := addressCb_eq env w hev habort cs
    rw [hout] at hcb
    rw [hcb, (hobtained w' k hcalls).ends hends]
    cases b <;> simp

/-! ## The NAT callback -/

/-- Whether the way an event leaves the NAT loop releases the iterator. -/
def NatEvent.releases (A : Asio) : NatEvent → Option Bool
  | .createAddress _ p => if (UtilsPrefix.makePrefix A p).isSome then none else some false
  | .unsupported => some true
  | _ => none

/-- An entry that is created can be built, and VPP accepts it. -/
def NatAccepted (env : Env) (stale : NatStale) (w : World) (cs : List Change) : Prop :=
  stale.create = true ∨ CreatesIndex cs → lastType cs = "static" ∧
    env.hw (w.ops ++ [.write (natKey ((indicesIn cs).getLastD stale.xindex))
      (.natStatic ⟨lastAddress env.asio .internalSrc cs,
        lastAddress env.asio .externalSrc cs⟩)]) = .ok

theorem NatEvent.exit_ends (A : Asio) (e : NatEvent) :
    Option.Rel Ends (e.exit A) (e.releases A) := by
  cases e with
  | createAddress f p =>
    simp only [NatEvent.exit, NatEvent.releases]
    split_ifs
    · exact .none
    · exact .some (ends_keeping _)
  | unsupported => exact .some (ends_leave _)
  | _ => exact .none

theorem looped_afterAsked (w : World) (cs : List Change) : Looped w (w.afterAsked cs) := by
  have hasked : ∀ w : World, (w.asked cs).calls =
      w.calls ++ List.replicate cs.length .getChangeNext := by
    induction cs with
    | nil => exact fun w => (List.append_nil _).symm
    | cons c cs ih =>
      intro w
      have hrest := ih (w.called .getChangeNext)
      rw [World.called, List.append_assoc] at hrest
      exact hrest
  refine ⟨cs.length + 1, ?_⟩
  rw [World.afterAsked, World.called, hasked, World.called, List.replicate_succ']
  simp

/-- The commit releases the iterator, and once more when it creates an entry that cannot be
built or that VPP does not accept. -/
theorem natCommit_calls (env : Env) (l : NatLocals) (w : World) :
    ∃ m, (natCommit env l w).2.calls = w.calls ++ List.replicate m (.freeChangeIter .live) ∧
      (m = 1 ↔ (l.create = true → l.builder.type = "static" ∧
        env.hw (w.ops ++ [.write (natKey l.xindex) (.natStatic
          ⟨(l.builder.get .internalSrc).address, (l.builder.get .externalSrc).address⟩)]) =
            .ok)) := by
  cases hc : l.create with
  | false =>
    refine ⟨1, ?_, by simp⟩
    cases hr : l.remove with
    | true => simp [natCommit, hc, hr, World.called, World.omRemove]
    | false => simp [natCommit, hc, hr, World.called]
  | true =>
    by_cases ht : l.builder.type = "static"
    · simp only [natCommit, hc, if_true, build_eq, ht, NatStaticBuilder.get]
      cases hw : env.hw (w.ops ++ [.write (natKey l.xindex)
          (.natStatic ⟨l.builder.internalSrc.address, l.builder.externalSrc.address⟩)]) with
      | ok =>
        rw [World.omWrite_ok (w := w.called _) hw]
        exact ⟨1, rfl, by simp⟩
      | failed =>
        rw [World.omWrite_failed (w := w.called _) hw]
        exact ⟨2, by simp [leave, World.called, List.replicate_succ], by simp⟩
    · exact ⟨2, by simp [natCommit, hc, build_eq, ht, leave, World.called, List.replicate_succ],
        by simp [ht]⟩

theorem natNoIter_calls (it : IterHandle) (rc : SrErr) (w : World) :
    (natNoIter it rc w).2.calls = w.calls ++ [.getChangesIter rc, .freeChangeIter it] := by
  unfold natNoIter
  split <;> simp [World.called]

theorem nat_releases_iff (env : Env) (stale : NatStale) (w : World) (cs : List Change) :
    Releases w (natMappingTableConfigCb env stale .verify (.ok cs) w) ↔
      cs.findSome? (fun c => c.natEvent.releases env.asio) = some true ∨
        cs.findSome? (fun c => c.natEvent.releases env.asio) = none ∧
          NatAccepted env stale w cs := by
  have hnone := fun c : Change => rel_eq_none_iff (c.natEvent.exit_ends env.asio)
  cases hfirst : cs.findSome? (fun c => c.natEvent.releases env.asio) with
  | some b =>
    obtain ⟨pre, c, post, rfl, hc, hpre⟩ := List.findSome?_eq_some_iff.mp hfirst
    have hends := c.natEvent.exit_ends env.asio
    rw [hc] at hends
    generalize hout : c.natEvent.exit env.asio = o at hends
    cases hends with
    | some hends =>
      rw [nat_eq_exit stale w post (fun d hd => (hnone d).mp (hpre d hd)) hout,
        (looped_afterAsked w pre).ends hends]
      simp
  | none =>
    have hall : ∀ c ∈ cs, c.natEvent.exit env.asio = none :=
      fun c hc => (hnone c).mp (List.findSome?_eq_none_iff.mp hfirst c hc)
    obtain ⟨m, hcalls, hm⟩ := natCommit_calls env ((NatLocals.init stale).run env.asio cs)
      (w.afterAsked cs)
    rw [NatLocals.run_type, NatLocals.run_address, NatLocals.run_address, NatLocals.run_create,
      NatLocals.run_xindex, afterAsked_ops] at hm
    rw [nat_eq_commit hall, (looped_afterAsked w cs).releases_iff hcalls, hm]
    simp only [reduceCtorEq, true_and, false_or]
    rfl

/-! ## All four callbacks -/

namespace Callback

/-- The callback asks for the changes at this event. -/
def Active (event : NotifEvent) : Callback → Prop
  | .ietfInterfaceIpv46AddressChange => event ≠ .apply
  | _ => event = .verify

instance (event : NotifEvent) : (cb : Callback) → Decidable (cb.Active event)
  | .ietfInterfaceIpv46AddressChange => inferInstanceAs (Decidable (event ≠ .apply))
  | .ietfInterfaceCreate _ | .ocInterfacesConfig _ | .natMappingTableConfig _ =>
    inferInstanceAs (Decidable (event = .verify))

/-- The handle before `sr_get_changes_iter` sets it. -/
def unsetHandle : Callback → IterHandle
  | .natMappingTableConfig stale => stale.it
  | _ => .null

/-- What has to hold of the change set for its iterator to be released once. -/
def ReleasedBy (env : Env) (event : NotifEvent) (cs : List Change) (w : World) : Callback → Prop
  | .ietfInterfaceCreate stale =>
    let first := cs.findSome? fun c => c.leafEvent.releases w.om
    first = some true ∨ first = none ∧ ¬ NullCommit stale cs
  | .ietfInterfaceIpv46AddressChange =>
    event = .abort ∨ cs.findSome? (addrReleases env.asio) ≠ some false
  | .ocInterfacesConfig stale =>
    let first := cs.findSome? (ocReleases w.om)
    first = some true ∨ first = none ∧ ¬ NullCommit stale cs
  | .natMappingTableConfig stale =>
    let first := cs.findSome? fun c => c.natEvent.releases env.asio
    first = some true ∨ first = none ∧ NatAccepted env stale w cs

/-- What has to hold of a callback, its event and its change set for the iterator to be
released once. -/
def ReleaseCondition (env : Env) (event : NotifEvent) (changes : Except SrErr (List Change))
    (w : World) (cb : Callback) : Prop :=
  cb.Active event → ∃ cs, changes = .ok cs ∧ cb.ReleasedBy env event cs w

variable {env : Env} {event : NotifEvent} {w : World}

theorem run_ignored {cb : Callback} (h : ¬ cb.Active event)
    (changes : Except SrErr (List Change)) : (cb.run env event changes w).2 = w := by
  cases cb with
  | ietfInterfaceIpv46AddressChange =>
    simp [run, ietfInterfaceIpv46AddressChangeCb, not_not.mp h]
  | ietfInterfaceCreate stale => simp [run, ietfInterfaceCreateCb, show event ≠ .verify from h]
  | ocInterfacesConfig stale => simp [run, ocInterfacesConfigCb, show event ≠ .verify from h]
  | natMappingTableConfig stale =>
    simp [run, natMappingTableConfigCb, show event ≠ .verify from h]

/-- Without an iterator the handle is released as it was found, which only the NAT callback has
not set to null. -/
theorem run_error {cb : Callback} (h : cb.Active event) (rc : SrErr) :
    (cb.run env event (.error rc) w).2.calls =
      w.calls ++ [.getChangesIter rc, .freeChangeIter cb.unsetHandle] := by
  cases cb with
  | ietfInterfaceIpv46AddressChange =>
    simp [run, ietfInterfaceIpv46AddressChangeCb, show event ≠ .apply from h, World.called,
      unsetHandle]
  | ietfInterfaceCreate stale =>
    simp [run, ietfInterfaceCreateCb, show event = .verify from h, World.called, unsetHandle]
  | ocInterfacesConfig stale =>
    simp [run, ocInterfacesConfigCb, show event = .verify from h, World.called, unsetHandle]
  | natMappingTableConfig stale =>
    obtain rfl : event = .verify := h
    exact natNoIter_calls stale.it rc w

theorem run_releases_iff {cb : Callback} (h : cb.Active event) (cs : List Change) :
    Releases w (cb.run env event (.ok cs) w) ↔ cb.ReleasedBy env event cs w := by
  cases cb with
  | ietfInterfaceIpv46AddressChange =>
    by_cases habort : event = .abort
    · rw [habort]
      exact iff_of_true (addr_releases_abort env w cs) (.inl rfl)
    · refine (addr_releases_iff env w h habort cs).trans ?_
      simp [ReleasedBy, habort]
  | ietfInterfaceCreate stale =>
    obtain rfl : event = .verify := h
    rw [run, ietfInterfaceCreateCb_verify]
    exact interfaceRun_releases exitByName_leafEvent (fun c => c.leafEvent.exit_ends w.om)
      fun _ h => h
  | ocInterfacesConfig stale =>
    obtain rfl : event = .verify := h
    rw [run, ocInterfacesConfigCb_verify]
    refine interfaceRun_releases exitByName_ocExit (ocExit_ends w.om) fun c hc => ?_
    rw [ocExit, Option.or_eq_none_iff] at hc
    exact hc.2
  | natMappingTableConfig stale =>
    obtain rfl : event = .verify := h
    exact nat_releases_iff env stale w cs

end Callback

/-- The handle of an iterator that was not obtained is not to be released, whatever it is. -/
theorem not_releasesOnce_error {rc : SrErr} (hrc : rc ≠ .ok) (it : IterHandle) :
    ¬ ReleasesOnce [.getChangesIter rc, .freeChangeIter it] := by
  intro h
  obtain rfl := h.obtained it (by simp)
  have honce := h.once
  simp [hrc] at honce

theorem releasesOnce_nil : ReleasesOnce [] := ⟨rfl, .nil, by simp⟩

/-- Each callback releases its iterator exactly once in exactly these cases. -/
theorem releases_iff_condition (cb : Callback) (env : Env) (event : NotifEvent)
    (changes : Except SrErr (List Change)) (w : World)
    (hchanges : ∀ rc, changes = .error rc → rc ≠ .ok) :
    Releases w (cb.run env event changes w) ↔ cb.ReleaseCondition env event changes w := by
  unfold Callback.ReleaseCondition
  by_cases hactive : cb.Active event
  · cases changes with
    | error rc =>
      rw [releases_iff (Callback.run_error hactive rc)]
      exact iff_of_false (not_releasesOnce_error (hchanges rc rfl) _) (by simp [hactive])
    | ok cs =>
      rw [Callback.run_releases_iff hactive]
      simp [hactive]
  · refine iff_of_true ⟨[], ?_, releasesOnce_nil⟩ fun h => absurd h hactive
    rw [Callback.run_ignored hactive, List.append_nil]

/-- The leaves of the entry with index 7: its index, and its type if it has one. -/
def entrySeven (type : Option String) : List Change :=
  .created ⟨[⟨"mapping-entry", [("index", "7")]⟩, ⟨"index", []⟩], .uint32 7⟩ ::
    type.toList.map fun t =>
      .created ⟨[⟨"mapping-entry", [("index", "7")]⟩, ⟨"type", []⟩], .enum t⟩

theorem releases_entry_seven :
    Releases (World.ofInterfaces []) ((Callback.natMappingTableConfig (.garbage false .stale)).run
      .accepting .verify (.ok (entrySeven (some "static"))) (World.ofInterfaces [])) := by
  refine (releases_iff_condition (.natMappingTableConfig (.garbage false .stale)) .accepting .verify
    (.ok (entrySeven (some "static"))) (World.ofInterfaces []) (by simp)).mpr ?_
  exact fun _ => ⟨_, rfl, .inr ⟨by decide, fun _ => ⟨by decide, rfl⟩⟩⟩

/-- Without a type the entry is not built, and the iterator is released twice. -/
theorem not_releases_entry_seven :
    ¬ Releases (World.ofInterfaces [])
      ((Callback.natMappingTableConfig (.garbage false .stale)).run .accepting .verify
        (.ok (entrySeven none)) (World.ofInterfaces [])) := by
  have hcalls : ((Callback.natMappingTableConfig (.garbage false .stale)).run .accepting .verify
      (.ok (entrySeven none)) (World.ofInterfaces [])).2.calls =
        (World.ofInterfaces []).calls ++ [.getChangesIter .ok, .getChangeNext, .getChangeNext,
          .freeChangeIter .live, .freeChangeIter .live] := by decide
  intro h
  exact absurd ((releases_iff hcalls).mp h).once (by decide)

end Sweetcomb
