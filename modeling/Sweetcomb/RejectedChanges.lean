import Sweetcomb.AddressErrors
import Sweetcomb.Callbacks
import Sweetcomb.InterfaceLeaves

/-!
# What a rejected change leaves behind

The callbacks change the store while they go through the change set, and do not take
anything back. A rejected change set leaves the state as it was when what was done before
the error happens to make no difference.
-/

namespace Sweetcomb

/-- The same interfaces in the same state, and the same bindings. -/
structure Unchanged (A : Asio) (om om' : Store) : Prop where
  interfaces : ∀ n, om'.find n = om.find n
  bindings : om'.bindings A = om.bindings A

/-- The callback returns an error. -/
def Outcome.Rejects (o : Outcome) : Prop := ∃ rc, rc ≠ .ok ∧ o = .returns rc

/-! ## Interfaces -/

/-- The modifications, taken together, leave every admin state as it is. -/
def KeepsStates (om : Store) (cs : List Change) : Prop :=
  ∀ n i, om.find n = some i →
    (cs.filterMap fun c => c.leafEvent.setting n).getLastD i.state = i.state

section Interfaces

variable {env : Env} {stale : InterfaceStale} {cs : List Change} {w : World}
  {exit : Store → Change → Option (World → Outcome × World)}

theorem unchanged_run_iff (A : Asio) (om : Store) (cs : List Change) :
    Unchanged A om (om.run cs) ↔ KeepsStates om cs := by
  constructor
  · intro h n i hi
    have hfind := h.interfaces n
    rw [Store.find_run, hi, Option.map_some] at hfind
    exact congrArg Interface.state (Option.some.inj hfind)
  · intro h
    rw [Store.run_eq_self h]
    exact ⟨fun _ => rfl, rfl⟩

/-- A commit that is refused has changed nothing. -/
theorem commit_rejected {l : InterfaceLocals}
    (h : (effect (interfaceCommit env l w)).outcome.Rejects) :
    (effect (interfaceCommit env l w)).om = w.om := by
  have hwrite : ∀ i, (writeEffect env i w).outcome.Rejects → (writeEffect env i w).om = w.om := by
    rintro i ⟨rc, hrc, hout⟩
    cases hhw : env.hw (w.ops ++ [.write i.name (.interface i)]) with
    | ok =>
      rw [writeEffect_of_ok hhw] at hout
      exact absurd (Outcome.returns.inj hout).symm hrc
    | failed => rw [writeEffect_of_failed hhw]
  cases hc : l.create with
  | true =>
    cases hb : l.builder.build with
    | none => rw [commit_unbuildable hc hb]
    | some i =>
      rw [commit_create hc hb] at h ⊢
      exact hwrite i h
  | false =>
    cases hm : l.modify with
    | true =>
      cases hi : l.intf.deref w.om with
      | none => rw [commit_null hc hm hi]; rfl
      | some i =>
        rw [commit_modify hc hm hi] at h ⊢
        exact hwrite i h
    | false =>
      obtain ⟨rc, hrc, hout⟩ := h
      cases hr : l.remove with
      | true =>
        rw [commit_remove hc hm hr] at hout
        exact absurd (Outcome.returns.inj hout).symm hrc
      | false =>
        rw [commit_nothing hc hm hr] at hout
        exact absurd (Outcome.returns.inj hout).symm hrc

/-- After an error the store holds what the loop has set before it. -/
theorem interfaceRun_rejected (hexit : ExitByName exit) (hrefuses : ExitRefuses exit)
    (h : (effect (interfaceRun env .verify (interfaceBody exit) cs stale w)).outcome.Rejects) :
    (effect (interfaceRun env .verify (interfaceBody exit) cs stale w)).om =
      w.om.run (cs.takeWhile fun c => (exit w.om c).isNone) := by
  rw [interfaceRun_effect env stale w cs hexit hrefuses] at h ⊢
  cases hfirst : cs.findSome? (exit w.om) with
  | none =>
    have hall : cs.takeWhile (fun c => (exit w.om c).isNone) = cs :=
      List.takeWhile_eq_self_iff.mpr fun c hc => by
        simp [List.findSome?_eq_none_iff.mp hfirst c hc]
    rw [hfirst] at h
    rw [hall]
    exact (commit_rejected h).trans (afterLoop_om w cs)
  | some out => rfl

/-- A rejected interface change leaves the state if the modifications before the error do. -/
theorem interfaceRun_unchanged_iff (hexit : ExitByName exit) (hrefuses : ExitRefuses exit)
    (h : (effect (interfaceRun env .verify (interfaceBody exit) cs stale w)).outcome.Rejects) :
    Unchanged env.asio w.om
        (effect (interfaceRun env .verify (interfaceBody exit) cs stale w)).om ↔
      KeepsStates w.om (cs.takeWhile fun c => (exit w.om c).isNone) := by
  rw [interfaceRun_rejected hexit hrefuses h]
  exact unchanged_run_iff _ _ _

end Interfaces

/-! ## Addresses -/

namespace AddrRequest

variable {env : Env} {w : World} {r : AddrRequest} {b : String × RoutePrefix}

/-- The requests that VOM serves, each in the state the ones before it have left. -/
def served (env : Env) : List AddrRequest → World → List AddrRequest
  | [], _ => []
  | r :: rs, w =>
    (if (r.perform env w).1 = .ok then [r] else []) ++ served env rs (r.perform env w).2

/-- The last of some requests that is about the binding. -/
def lastFor (A : Asio) (b : String × RoutePrefix) (rs : List AddrRequest) : Option AddrRequest :=
  (rs.filter fun r => r.binding A = some b).getLast?

/-- An entry that is not a binding under its own key. -/
def Foreign (A : Asio) (e : String × ObjRef) : Prop :=
  ∀ b : String × RoutePrefix, e ≠ (l3Key A b.1 b.2, .l3Binding b.1 b.2)

/-- A removal is asked for under this key. -/
def DropsKey (A : Asio) (rs : List AddrRequest) (key : String) : Prop :=
  ∃ r ∈ rs, r.add = false ∧ ∃ b, r.binding A = some b ∧ key = l3Key A b.1 b.2

/-- What one request does to a binding. -/
theorem mem_bindings_perform (hA : env.asio.Lawful) :
    b ∈ (r.perform env w).2.om.bindings env.asio ↔
      if (r.perform env w).1 = .ok ∧ r.binding env.asio = some b then r.add = true
      else b ∈ w.om.bindings env.asio := by
  have h := performs env r w
  generalize r.perform env w = s at h ⊢
  cases h with
  | refused hrc => simp [hrc]
  | removed hi hb hadd =>
    simp only [hb, true_and, Option.some.injEq, hadd, Bool.false_eq_true]
    split_ifs with heq
    · subst heq
      exact iff_of_false (fun hm => (Store.mem_remove.mp hm).2 rfl) id
    · refine ⟨fun hm => (Store.mem_remove.mp hm).1, fun hm => Store.mem_remove.mpr ⟨hm, ?_⟩⟩
      intro hkey
      obtain ⟨hn, hp⟩ := ManagedObject.l3Key_inj hA hkey
      exact heq (Prod.ext hn.symm hp.symm)
  | written hi hb hadd =>
    have hname := name_of_binding hi hb
    simp only [hb, true_and, Option.some.injEq, hadd]
    show _ ∈ (Store.write _ _ _).refs ↔ _
    rw [Store.write_refs, Finset.mem_insert]
    split_ifs with heq
    · subst heq
      exact iff_of_true (.inl (by rw [← hname]; rfl)) trivial
    · refine or_iff_right fun hm => heq ?_
      obtain ⟨hn, hp⟩ := ManagedObject.l3Key_inj hA (Prod.ext_iff.mp hm).1
      exact Prod.ext hn.symm hp.symm
  | failed => simp

theorem not_foreign {A : Asio} {e : String × ObjRef} :
    ¬ Foreign A e ↔ ∃ b : String × RoutePrefix, e = (l3Key A b.1 b.2, .l3Binding b.1 b.2) := by
  simp only [Foreign, ne_eq, not_forall, not_not]

theorem dropsKey_removal {A : Asio} {key : String} (hadd : r.add = false)
    (hb : r.binding A = some b) : DropsKey A [r] key ↔ key = l3Key A b.1 b.2 := by
  constructor
  · rintro ⟨q, hq, -, c, hc, hkey⟩
    obtain rfl := List.mem_singleton.mp hq
    obtain rfl := Option.some.inj (hb.symm.trans hc)
    exact hkey
  · exact fun hkey => ⟨r, List.mem_singleton_self r, hadd, b, hb, hkey⟩

theorem not_dropsKey_addition {A : Asio} {key : String} (hadd : r.add = true) :
    ¬ DropsKey A [r] key := by
  rintro ⟨q, hq, hfalse, -⟩
  obtain rfl := List.mem_singleton.mp hq
  cases hadd.symm.trans hfalse

/-- What one request does to the other entries. -/
theorem mem_perform_foreign {e : String × ObjRef} (he : Foreign env.asio e) :
    e ∈ (r.perform env w).2.om.refs ↔ e ∈ w.om.refs ∧
      ¬ DropsKey env.asio (if (r.perform env w).1 = .ok then [r] else []) e.1 := by
  have h := performs env r w
  generalize r.perform env w = s at h ⊢
  cases h with
  | refused hrc => simp [hrc, DropsKey]
  | removed hi hb hadd =>
    rw [if_pos rfl, dropsKey_removal hadd hb]
    exact Store.mem_remove
  | @written i b hi hb hadd =>
    have hentry : (VomObj.l3Binding ⟨i, b.2⟩).ref = .l3Binding b.1 b.2 := by
      rw [← name_of_binding hi hb]
      rfl
    rw [if_pos rfl, and_iff_left (not_dropsKey_addition hadd)]
    show e ∈ (Store.write _ _ _).refs ↔ _
    rw [Store.write_refs, Finset.mem_insert, hentry]
    exact or_iff_right (he b)
  | failed => simp [DropsKey]

theorem dropsKey_append {A : Asio} {rs rs' : List AddrRequest} {key : String} :
    DropsKey A (rs ++ rs') key ↔ DropsKey A rs key ∨ DropsKey A rs' key := by
  simp only [DropsKey, List.mem_append, or_and_right, exists_or]

/-- Of the requests that are served, the last one for a binding decides. -/
theorem mem_bindings_performAll (hA : env.asio.Lawful) (rs : List AddrRequest) (rc : SrErr) :
    b ∈ (performAll env rs (rc, w)).2.om.bindings env.asio ↔
      (lastFor env.asio b (served env rs w)).elim (b ∈ w.om.bindings env.asio)
        (fun r => r.add = true) := by
  induction rs generalizing w rc with
  | nil => rfl
  | cons r rs ih =>
    show b ∈ (performAll env rs (r.perform env w)).2.om.bindings env.asio ↔ _
    rw [ih, served, lastFor, lastFor, List.filter_append, List.getLast?_append]
    cases (List.filter _ (served env rs (r.perform env w).2)).getLast? with
    | some q => rfl
    -- no later request is about the binding
    | none =>
      rw [Option.elim_none, Option.none_or, mem_bindings_perform hA]
      by_cases hok : (r.perform env w).1 = .ok <;>
        by_cases hb : r.binding env.asio = some b <;> simp [hok, hb]

theorem mem_performAll_foreign {e : String × ObjRef} (he : Foreign env.asio e)
    (rs : List AddrRequest) (rc : SrErr) :
    e ∈ (performAll env rs (rc, w)).2.om.refs ↔
      e ∈ w.om.refs ∧ ¬ DropsKey env.asio (served env rs w) e.1 := by
  induction rs generalizing w rc with
  | nil => simp [performAll, served, DropsKey]
  | cons r rs ih =>
    show e ∈ (performAll env rs (r.perform env w)).2.om.refs ↔ _
    rw [ih, mem_perform_foreign he, served, dropsKey_append, not_or, and_assoc]

theorem find_of_performAll {n : String} {i : Interface} (rs : List AddrRequest) (rc : SrErr)
    (h : (performAll env rs (rc, w)).2.om.find n = some i) : w.om.find n = some i := by
  induction rs generalizing w rc with
  | nil => exact h
  | cons r rs ih => exact find_of_perform (ih _ h)

end AddrRequest

open AddrRequest

/-- What VOM serves ends where it began: a binding whose last request adds it was there, one
whose last request removes it was not; and an interface that lives by an entry of another kind
keeps one. -/
structure RestoresBindings (A : Asio) (om : Store) (rs : List AddrRequest) : Prop where
  bindings : ∀ b, ∀ r ∈ lastFor A b rs, (r.add = true ↔ b ∈ om.bindings A)
  interfaces : ∀ n, (om.find n).isSome → ∃ e ∈ om.refs, e.2.itf = some n ∧
    (Foreign A e → ¬ DropsKey A rs e.1)

/-- Requests leave the state as it was when those that are served restore it. -/
theorem performAll_unchanged_iff (env : Env) (hA : env.asio.Lawful) (w : World)
    (rs : List AddrRequest) (rc : SrErr) :
    Unchanged env.asio w.om (performAll env rs (rc, w)).2.om ↔
      RestoresBindings env.asio w.om (served env rs w) := by
  have hbindings : (performAll env rs (rc, w)).2.om.bindings env.asio = w.om.bindings env.asio ↔
      ∀ b, ∀ r ∈ lastFor env.asio b (served env rs w),
        (r.add = true ↔ b ∈ w.om.bindings env.asio) := by
    rw [Set.ext_iff]
    refine forall_congr' fun b => ?_
    rw [mem_bindings_performAll hA]
    cases lastFor env.asio b (served env rs w) <;> simp
  constructor
  · intro h
    refine ⟨hbindings.mp h.bindings, fun n hn => ?_⟩
    -- what keeps the interface alive afterwards was there before
    rw [← h.interfaces n, Store.find_isSome, SharedStore.live] at hn
    obtain ⟨e, he, howner⟩ := hn
    by_cases hforeign : Foreign env.asio e
    · obtain ⟨he', hkey⟩ := (mem_performAll_foreign hforeign rs rc).mp he
      exact ⟨e, he', howner, fun _ => hkey⟩
    · obtain ⟨b, rfl⟩ := not_foreign.mp hforeign
      have hb : b ∈ w.om.bindings env.asio := by
        rw [← h.bindings]
        exact he
      exact ⟨_, hb, howner, fun hne => absurd rfl (hne b)⟩
  · rintro ⟨hb, hitf⟩
    have hset := hbindings.mpr hb
    refine ⟨fun n => ?_, hset⟩
    cases hi : (performAll env rs (rc, w)).2.om.find n with
    | some i => exact (find_of_performAll rs rc hi).symm
    | none =>
      by_contra hne
      obtain ⟨e, he, howner, hkey⟩ := hitf n (Option.isSome_iff_ne_none.mpr (Ne.symm hne))
      rw [Store.find_eq_none, SharedStore.attr_eq_none] at hi
      refine hi e ?_ howner
      by_cases hforeign : Foreign env.asio e
      · exact (mem_performAll_foreign hforeign rs rc).mpr ⟨he, hkey hforeign⟩
      · obtain ⟨b, rfl⟩ := not_foreign.mp hforeign
        show b ∈ (performAll env rs (rc, w)).2.om.bindings env.asio
        rw [hset]
        exact he

/-! ## The three callbacks -/

/-- A rejected change set leaves the state as it was exactly when the modifications of the
interfaces before the error, or the requests that VOM has served, lead back to it. -/
theorem rejected_unchanged_iff (env : Env) (stale : InterfaceStale) (cs : List Change) (w : World)
    (hA : env.asio.Lawful) :
    let ietf := effect (ietfInterfaceCreateCb env stale .verify (.ok cs) w)
    let oc := effect (ocInterfacesConfigCb env stale .verify (.ok cs) w)
    let addr := effect (ietfInterfaceIpv46AddressChangeCb env .verify (.ok cs) w)
    (ietf.outcome.Rejects → (Unchanged env.asio w.om ietf.om ↔
      KeepsStates w.om (cs.takeWhile fun c => (c.leafEvent.exit w.om).isNone))) ∧
    (oc.outcome.Rejects → (Unchanged env.asio w.om oc.om ↔
      KeepsStates w.om (cs.takeWhile fun c => (ocExit w.om c).isNone))) ∧
    (addr.outcome.Rejects → (Unchanged env.asio w.om addr.om ↔
      RestoresBindings env.asio w.om (served env (callsMade env.asio cs) w))) := by
  intro ietf oc addr
  have hietf : ietf = _ := congrArg effect (ietfInterfaceCreateCb_verify env stale cs w)
  have hoc : oc = _ := congrArg effect (ocInterfacesConfigCb_verify env stale cs w)
  have haddr : addr.om = (performAll env (callsMade env.asio cs) (.ok, w)).2.om :=
    congrArg Effect.om (addr_effect env w (by simp) (by simp) cs)
  rw [hietf, hoc, haddr]
  exact ⟨interfaceRun_unchanged_iff exitByName_leafEvent exitRefuses_leafEvent,
    interfaceRun_unchanged_iff exitByName_ocExit exitRefuses_ocExit,
    fun _ => performAll_unchanged_iff env hA w _ _⟩

/-- loop0 alone, and enabled. -/
def loop0Alone : World := World.ofInterfaces [⟨"loop0", "ETHERNET", true⟩]

/-- An interface that does not exist is disabled, after those of `before`. -/
def unknownAfter (before : List LeafChange) : List LeafChange :=
  before ++ [.modified "loop9" (.enabled true) (.enabled false)]

/-- Where the first change is the one that is refused, nothing has happened. -/
theorem unknown_interface_unchanged :
    Unchanged Env.accepting.asio loop0Alone.om (effect (ietfInterfaceCreateCb .accepting
      (.garbage false false) .verify (.ok (LeafChange.ietf (unknownAfter []))) loop0Alone)).om :=
  ((rejected_unchanged_iff .accepting (.garbage false false) (LeafChange.ietf (unknownAfter []))
    loop0Alone Asio.uncompressed_lawful).1 ⟨.operationFailed, by decide, by decide⟩).mpr
    fun _ _ _ => rfl

/-- loop0 stays disabled, and keeps its new address, when the change of loop9 that follows is
refused. -/
theorem rejected_changed :
    (¬ ∀ env stale cs w,
      (effect (ietfInterfaceCreateCb env stale .verify (.ok cs) w)).outcome.Rejects →
      Unchanged env.asio w.om (effect (ietfInterfaceCreateCb env stale .verify (.ok cs) w)).om) ∧
    (¬ ∀ env stale cs w,
      (effect (ocInterfacesConfigCb env stale .verify (.ok cs) w)).outcome.Rejects →
      Unchanged env.asio w.om (effect (ocInterfacesConfigCb env stale .verify (.ok cs) w)).om) ∧
    ¬ ∀ env cs w,
      (effect (ietfInterfaceIpv46AddressChangeCb env .verify (.ok cs) w)).outcome.Rejects →
      Unchanged env.asio w.om
        (effect (ietfInterfaceIpv46AddressChangeCb env .verify (.ok cs) w)).om := by
  let disabled : List LeafChange := [.modified "loop0" (.enabled true) (.enabled false)]
  refine ⟨fun h => ?_, fun h => ?_, fun h => ?_⟩
  · have hloop0 := (h .accepting (.garbage false false) (LeafChange.ietf (unknownAfter disabled))
      loop0Alone ⟨.operationFailed, by decide, by decide⟩).interfaces "loop0"
    revert hloop0
    decide
  · have hloop0 := (h .accepting (.garbage false false) (LeafChange.oc (unknownAfter disabled))
      loop0Alone ⟨.operationFailed, by decide, by decide⟩).interfaces "loop0"
    revert hloop0
    decide
  · have hbinding := (h .accepting (AddrChange.reported
      [hostAddress "loop0" 1 (.created (.prefixLength 24)),
        hostAddress "loop9" 2 (.created (.prefixLength 24))])
      loop0Alone ⟨.invalArg, by decide, by decide⟩).bindings
    have hnew : ("loop0", (⟨.v4 10 0 0 1, 24⟩ : RoutePrefix)) ∉
        loop0Alone.om.bindings Env.accepting.asio := by decide
    rw [← hbinding] at hnew
    revert hnew
    decide

end Sweetcomb
