import Sweetcomb.AddressLoop
import Sweetcomb.ObjectKeys

/-!
# What requests do to the bindings

One request adds or removes one binding, or is refused. What a list of requests can add,
what it leaves in place, and which operations it issues, follow from that.
-/

namespace Sweetcomb

/-- The bindings of a store, each held under its own key. -/
def Store.bindings (A : Asio) (om : Store) : Set (String × RoutePrefix) :=
  {b | (l3Key A b.1 b.2, .l3Binding b.1 b.2) ∈ om.refs}

instance (A : Asio) (om : Store) (b : String × RoutePrefix) : Decidable (b ∈ om.bindings A) :=
  inferInstanceAs (Decidable ((l3Key A b.1 b.2, .l3Binding b.1 b.2) ∈ om.refs))

/-- The interface is kept alive under a key which is not that of a binding. -/
def Store.HoldsApart (A : Asio) (om : Store) (n : String) : Prop :=
  ∃ e ∈ om.refs, e.2.itf = some n ∧ ∀ b : String × RoutePrefix, e.1 ≠ l3Key A b.1 b.2

theorem Store.HoldsApart.isSome {A : Asio} {om : Store} {n : String} (h : om.HoldsApart A n) :
    (om.find n).isSome := by
  rw [Store.find_isSome, SharedStore.live]
  obtain ⟨e, he, howner, -⟩ := h
  exact ⟨e, he, howner⟩

def OmOp.isWrite : OmOp → Bool
  | write .. => true
  | remove _ => false

namespace AddrRequest

/-- The binding a request is about, if its address parses. -/
def binding (A : Asio) (r : AddrRequest) : Option (String × RoutePrefix) :=
  (A.fromString r.addr).map fun a => (r.itf, ⟨a, r.pfx⟩)

variable {env : Env} {w : World} {r : AddrRequest} {b : String × RoutePrefix}

theorem binding_eq_some {A : Asio} :
    r.binding A = some b ↔
      b.1 = r.itf ∧ b.2.len = r.pfx ∧ A.fromString r.addr = some b.2.address := by
  obtain ⟨n, a, len⟩ := b
  simp only [binding, Option.map_eq_some_iff, Prod.mk.injEq, RoutePrefix.mk.injEq]
  constructor
  · rintro ⟨a', ha, rfl, rfl, rfl⟩
    exact ⟨rfl, rfl, ha⟩
  · rintro ⟨rfl, rfl, ha⟩
    exact ⟨a, ha, rfl, rfl, rfl⟩

/-- The ways a request can go. -/
inductive Performs (env : Env) (r : AddrRequest) (w : World) : SrErr × World → Prop
  | refused {rc : SrErr} (hrc : rc ≠ .ok)
      (h : w.om.find r.itf = none ∨ r.binding env.asio = none) : Performs env r w (rc, w)
  | removed {i : Interface} {b : String × RoutePrefix} (hi : w.om.find r.itf = some i)
      (hb : r.binding env.asio = some b) (hadd : r.add = false) :
      Performs env r w (.ok, w.omRemove (l3Key env.asio b.1 b.2))
  | written {i : Interface} {b : String × RoutePrefix} (hi : w.om.find r.itf = some i)
      (hb : r.binding env.asio = some b) (hadd : r.add = true)
      (hw : env.hw (w.ops ++ [.write (l3Key env.asio b.1 b.2) (.l3Binding ⟨i, b.2⟩)]) = .ok) :
      Performs env r w (.ok, { w with
        om := w.om.write (l3Key env.asio b.1 b.2) (.l3Binding ⟨i, b.2⟩)
        ops := w.ops ++ [.write (l3Key env.asio b.1 b.2) (.l3Binding ⟨i, b.2⟩)] })
  | failed {i : Interface} {b : String × RoutePrefix} (hi : w.om.find r.itf = some i)
      (hb : r.binding env.asio = some b) (hadd : r.add = true)
      (hw : env.hw (w.ops ++ [.write (l3Key env.asio b.1 b.2) (.l3Binding ⟨i, b.2⟩)]) = .failed) :
      Performs env r w (.operationFailed, { w with
        ops := w.ops ++ [.write (l3Key env.asio b.1 b.2) (.l3Binding ⟨i, b.2⟩)] })

theorem performs (env : Env) (r : AddrRequest) (w : World) :
    Performs env r w (r.perform env w) := by
  obtain ⟨itf, addr, pfx, add⟩ := r
  cases hi : w.om.find itf with
  | none =>
    rw [perform_unknown add hi]
    exact .refused (by simp) (.inl hi)
  | some i =>
    cases ha : env.asio.fromString addr with
    | none =>
      rw [perform_malformed add hi ha]
      exact .refused (by simp) (.inr (by simp [binding, ha]))
    | some a =>
      have hb : binding env.asio ⟨itf, addr, pfx, add⟩ = some (itf, ⟨a, pfx⟩) := by
        simp [binding, ha]
      cases add with
      | false =>
        rw [perform_remove hi ha]
        exact .removed (b := (itf, ⟨a, pfx⟩)) hi hb rfl
      | true =>
        rw [perform_add hi ha]
        cases h : env.hw (w.ops ++
            [.write (l3Key env.asio itf ⟨a, pfx⟩) (.l3Binding ⟨i, ⟨a, pfx⟩⟩)]) with
        | ok =>
          rw [World.omWrite_ok h]
          exact .written (b := (itf, ⟨a, pfx⟩)) hi hb rfl h
        | failed =>
          rw [World.omWrite_failed h]
          exact .failed (b := (itf, ⟨a, pfx⟩)) hi hb rfl h

/-- The interface of a request is the one its binding is made on. -/
theorem name_of_binding {i : Interface} (hi : w.om.find r.itf = some i)
    (hb : r.binding env.asio = some b) : i.name = b.1 :=
  (Store.name_of_find hi).trans (binding_eq_some.mp hb).1.symm

/-! ## One request -/

/-- The operation that serves a request is one under the key of its binding. -/
theorem perform_ops (env : Env) (r : AddrRequest) (w : World) :
    ∃ ops, (r.perform env w).2.ops = w.ops ++ ops ∧ ∀ op ∈ ops, ∃ b,
      r.binding env.asio = some b ∧ op.key = l3Key env.asio b.1 b.2 ∧ op.isWrite = r.add ∧
        (w.om.find r.itf).isSome := by
  have h := performs env r w
  generalize r.perform env w = s at h ⊢
  cases h with
  | refused => exact ⟨[], by simp⟩
  | removed hi hb hadd => exact ⟨_, rfl, by simp [hi, hb, hadd, OmOp.key, OmOp.isWrite]⟩
  | written hi hb hadd => exact ⟨_, rfl, by simp [hi, hb, hadd, OmOp.key, OmOp.isWrite]⟩
  | failed hi hb hadd => exact ⟨_, rfl, by simp [hi, hb, hadd, OmOp.key, OmOp.isWrite]⟩

/-- On an interface of the store a request is served. -/
theorem perform_served (hi : (w.om.find r.itf).isSome) (hb : r.binding env.asio = some b) :
    ∃ op, (r.perform env w).2.ops = w.ops ++ [op] ∧ op.key = l3Key env.asio b.1 b.2 := by
  have h := performs env r w
  generalize r.perform env w = s at h ⊢
  cases h with
  | refused hrc hno =>
    rcases hno with hnone | hnone
    · simp [hnone] at hi
    · simp [hb] at hnone
  | removed _ hb' =>
    obtain rfl := Option.some.inj (hb.symm.trans hb')
    exact ⟨_, rfl, rfl⟩
  | written _ hb' =>
    obtain rfl := Option.some.inj (hb.symm.trans hb')
    exact ⟨_, rfl, rfl⟩
  | failed _ hb' =>
    obtain rfl := Option.some.inj (hb.symm.trans hb')
    exact ⟨_, rfl, rfl⟩

/-- No request brings an interface to life. -/
theorem find_of_perform {n : String} {i : Interface} (h : (r.perform env w).2.om.find n = some i) :
    w.om.find n = some i := by
  have hp := performs env r w
  generalize r.perform env w = s at hp h
  cases hp with
  | refused => exact h
  | removed hi hb hadd => exact Store.find_of_remove h
  | written hi hb hadd =>
    change Option.map _ _ = _ at h
    rwa [Store.write_l3Binding_attr (by rw [Store.name_of_find hi, hi]; rfl)] at h
  | failed hi hb hadd => exact h

/-- Nothing is in the store that was not there, but the binding of a request to add. -/
theorem mem_of_perform {e : String × ObjRef} (he : e ∈ (r.perform env w).2.om.refs) :
    e ∈ w.om.refs ∨ r.add = true ∧ ∃ b, r.binding env.asio = some b ∧
      e = (l3Key env.asio b.1 b.2, .l3Binding b.1 b.2) := by
  have h := performs env r w
  generalize r.perform env w = s at h he
  cases h with
  | refused => exact .inl he
  | removed hi hb hadd => exact .inl (Store.mem_remove.mp he).1
  | written hi hb hadd =>
    rw [Store.write_refs, Finset.mem_insert] at he
    refine he.symm.imp_right fun he => ⟨hadd, _, hb, ?_⟩
    rw [he, ← name_of_binding hi hb]
    rfl
  | failed hi hb hadd => exact .inl he

/-- Only a request to remove takes anything away, and only what is under its key. -/
theorem mem_perform {e : String × ObjRef} (he : e ∈ w.om.refs)
    (hkey : ∀ b, r.add = false → r.binding env.asio = some b → e.1 ≠ l3Key env.asio b.1 b.2) :
    e ∈ (r.perform env w).2.om.refs := by
  have h := performs env r w
  generalize r.perform env w = s at h ⊢
  cases h with
  | refused => exact he
  | removed hi hb hadd => exact Store.mem_remove.mpr ⟨he, hkey _ hadd hb⟩
  | written hi hb hadd =>
    rw [Store.write_refs]
    exact Finset.mem_insert_of_mem he
  | failed hi hb hadd => exact he

/-- An interface that is not found has no bindings. -/
theorem not_mem_of_find {A : Asio} {om : Store} (h : om.find b.1 = none) : b ∉ om.bindings A := by
  intro hb
  rw [Store.find_eq_none, SharedStore.attr_eq_none] at h
  exact h _ hb rfl

/-- A binding is gone once its removal has been asked for, served or not. -/
theorem not_mem_perform (hadd : r.add = false) (hb : r.binding env.asio = some b) :
    b ∉ (r.perform env w).2.om.bindings env.asio := by
  have h := performs env r w
  generalize r.perform env w = s at h ⊢
  cases h with
  | refused hrc hno =>
    apply not_mem_of_find
    rw [(binding_eq_some.mp hb).1]
    exact hno.resolve_right (by simp [hb])
  | removed hi hb' =>
    obtain rfl := Option.some.inj (hb.symm.trans hb')
    exact fun hm => (Store.mem_remove.mp hm).2 rfl
  | written _ _ hadd' => cases hadd.symm.trans hadd'
  | failed _ _ hadd' => cases hadd.symm.trans hadd'

/-- Requests leave what is not held as a binding in place. -/
theorem holdsApart_perform {n : String} (h : w.om.HoldsApart env.asio n) (r : AddrRequest) :
    (r.perform env w).2.om.HoldsApart env.asio n := by
  obtain ⟨e, he, howner, hkey⟩ := h
  exact ⟨e, mem_perform he fun b _ _ => hkey b, howner, hkey⟩

/-- An interface stays alive as long as no reference is lost. -/
theorem alive_of_subset {om om' : Store} (hsub : om.refs ⊆ om'.refs) {n : String}
    (hn : (om.find n).isSome) : (om'.find n).isSome := by
  rw [Store.find_isSome, SharedStore.live] at hn ⊢
  obtain ⟨e, he, ho⟩ := hn
  exact ⟨e, hsub he, ho⟩

theorem refs_subset_perform (hadd : r.add = true) :
    w.om.refs ⊆ (r.perform env w).2.om.refs :=
  fun _ he => mem_perform he fun _ hfalse => by cases hadd.symm.trans hfalse

/-- A request to add is served on a live interface when VPP accepts the write. -/
theorem perform_added (hhw : ∀ ops, env.hw ops = .ok) (hadd : r.add = true)
    (hi : (w.om.find r.itf).isSome) (hb : r.binding env.asio = some b) :
    (r.perform env w).1 = .ok ∧ b ∈ (r.perform env w).2.om.bindings env.asio := by
  have h := performs env r w
  generalize r.perform env w = s at h ⊢
  cases h with
  | refused hrc hno =>
    rcases hno with hnone | hnone
    · simp [hnone] at hi
    · simp [hb] at hnone
  | removed _ _ hadd' => cases hadd.symm.trans hadd'
  | written hi' hb' =>
    obtain rfl := Option.some.inj (hb.symm.trans hb')
    refine ⟨rfl, ?_⟩
    show _ ∈ (Store.write _ _ _).refs
    rw [Store.write_refs, Finset.mem_insert, ← name_of_binding hi' hb]
    exact .inl rfl
  | failed _ _ _ hw => cases (hhw _).symm.trans hw

/-! ## Lists of requests -/

variable {rs : List AddrRequest} {s : SrErr × World}

theorem performAll_ops (env : Env) (rs : List AddrRequest) (s : SrErr × World) :
    ∃ ops, (performAll env rs s).2.ops = s.2.ops ++ ops ∧ ∀ op ∈ ops, ∃ r ∈ rs, ∃ b,
      r.binding env.asio = some b ∧ op.key = l3Key env.asio b.1 b.2 ∧ op.isWrite = r.add ∧
        (s.2.om.find r.itf).isSome := by
  induction rs generalizing s with
  | nil => exact ⟨[], by simp [performAll]⟩
  | cons r rs ih =>
    obtain ⟨ops, hops, hserve⟩ := perform_ops env r s.2
    obtain ⟨ops', hops', hserve'⟩ := ih (r.perform env s.2)
    refine ⟨ops ++ ops', ?_, fun op hop => ?_⟩
    · show (performAll env rs (r.perform env s.2)).2.ops = _
      rw [hops', hops, List.append_assoc]
    · rcases List.mem_append.mp hop with hop | hop
      · exact ⟨r, List.mem_cons_self, hserve op hop⟩
      -- an interface that is found after the first request was there before it
      · obtain ⟨r', hr', b, hb, hkey, hwrite, hi⟩ := hserve' op hop
        obtain ⟨i, hi⟩ := Option.isSome_iff_exists.mp hi
        exact ⟨r', List.mem_cons_of_mem _ hr', b, hb, hkey, hwrite, by rw [find_of_perform hi]; rfl⟩

/-- A request is served when its interface does not depend on bindings. -/
theorem performAll_served {r : AddrRequest} (hr : r ∈ rs) (hi : s.2.om.HoldsApart env.asio r.itf)
    {b : String × RoutePrefix} (hb : r.binding env.asio = some b) :
    ∃ ops, (performAll env rs s).2.ops = s.2.ops ++ ops ∧
      ∃ op ∈ ops, op.key = l3Key env.asio b.1 b.2 := by
  induction rs generalizing s with
  | nil => cases hr
  | cons r' rs ih =>
    rcases List.mem_cons.mp hr with rfl | hr
    · obtain ⟨op, hop, hkey⟩ := perform_served hi.isSome hb
      obtain ⟨ops, hops, -⟩ := performAll_ops env rs (r.perform env s.2)
      refine ⟨op :: ops, ?_, op, List.mem_cons_self, hkey⟩
      show (performAll env rs (r.perform env s.2)).2.ops = _
      rw [hops, hop, List.append_assoc]
      rfl
    · obtain ⟨ops, hops, -⟩ := perform_ops env r' s.2
      have hi' := holdsApart_perform hi r'
      obtain ⟨ops', hops', op, hop, hkey⟩ := ih (s := r'.perform env s.2) hr hi'
      refine ⟨ops ++ ops', ?_, op, List.mem_append_right _ hop, hkey⟩
      show (performAll env rs (r'.perform env s.2)).2.ops = _
      rw [hops', hops, List.append_assoc]

theorem mem_of_performAll {e : String × ObjRef} (he : e ∈ (performAll env rs s).2.om.refs) :
    e ∈ s.2.om.refs ∨ ∃ r ∈ rs, r.add = true ∧ ∃ b, r.binding env.asio = some b ∧
      e = (l3Key env.asio b.1 b.2, .l3Binding b.1 b.2) := by
  induction rs generalizing s with
  | nil => exact .inl he
  | cons r rs ih =>
    rcases ih (s := r.perform env s.2) he with he | ⟨r', hr', hb⟩
    · rcases mem_of_perform he with he | hb
      · exact .inl he
      · exact .inr ⟨r, List.mem_cons_self, hb⟩
    · exact .inr ⟨r', List.mem_cons_of_mem _ hr', hb⟩

theorem mem_performAll {e : String × ObjRef} (he : e ∈ s.2.om.refs)
    (hkey : ∀ r ∈ rs, ∀ b, r.add = false → r.binding env.asio = some b →
      e.1 ≠ l3Key env.asio b.1 b.2) : e ∈ (performAll env rs s).2.om.refs := by
  induction rs generalizing s with
  | nil => exact he
  | cons r rs ih =>
    rw [List.forall_mem_cons] at hkey
    exact ih (s := r.perform env s.2) (mem_perform he hkey.1) hkey.2

/-! ### On an interface that stays -/

/-- The operation that serves a request on the interface. -/
def op (A : Asio) (i : Interface) (r : AddrRequest) : Option OmOp :=
  (r.binding A).map fun b =>
    if r.add then .write (l3Key A b.1 b.2) (.l3Binding ⟨i, b.2⟩) else .remove (l3Key A b.1 b.2)

/-- How a request goes on a live interface. -/
theorem perform_on {i : Interface} (hi : w.om.find r.itf = some i)
    (hb : r.binding env.asio = some b) :
    (r.perform env w).2.ops = w.ops ++ (r.op env.asio i).toList ∧
      ((r.perform env w).1 = .ok ↔
        r.add = true → env.hw (w.ops ++ (r.op env.asio i).toList) = .ok) := by
  have h := performs env r w
  generalize r.perform env w = s at h ⊢
  cases h with
  | refused hrc hno => simp [hi, hb] at hno
  | removed hi' hb' hadd =>
    obtain rfl := Option.some.inj (hb.symm.trans hb')
    simp [op, hb, hadd]
  | written hi' hb' hadd hw =>
    obtain rfl := Option.some.inj (hi.symm.trans hi')
    obtain rfl := Option.some.inj (hb.symm.trans hb')
    simp [op, hb, hadd, hw]
  | failed hi' hb' hadd hw =>
    obtain rfl := Option.some.inj (hi.symm.trans hi')
    obtain rfl := Option.some.inj (hb.symm.trans hb')
    simp [op, hb, hadd, hw]

/-- Requests about one interface that leave an entry of the store alone. -/
structure Spares (A : Asio) (n : String) (e : String × ObjRef) (rs : List AddrRequest) : Prop where
  itf : ∀ r ∈ rs, r.itf = n
  parses : ∀ r ∈ rs, (r.binding A).isSome
  key : ∀ r ∈ rs, ∀ b, r.add = false → r.binding A = some b → e.1 ≠ l3Key A b.1 b.2

/-- As long as an entry keeps the interface alive, it serves all its requests. -/
theorem performAll_on {i : Interface} {n : String} {e : String × ObjRef}
    (hi : s.2.om.find n = some i) (he : e ∈ s.2.om.refs) (howner : e.2.itf = some n)
    (hrs : Spares env.asio n e rs) :
    (performAll env rs s).2.om.find n = some i ∧
      (performAll env rs s).2.ops = s.2.ops ++ rs.filterMap (op env.asio i) := by
  induction rs generalizing s with
  | nil => exact ⟨hi, by simp [performAll]⟩
  | cons r rs ih =>
    obtain ⟨hitf, hb, hkey⟩ := hrs
    rw [List.forall_mem_cons] at hitf hb hkey
    obtain ⟨b, hb'⟩ := Option.isSome_iff_exists.mp hb.1
    have he' : e ∈ (r.perform env s.2).2.om.refs := mem_perform he hkey.1
    have hi' : (r.perform env s.2).2.om.find n = some i := by
      have hlive : ((r.perform env s.2).2.om.find n).isSome := by
        rw [Store.find_isSome, SharedStore.live]
        exact ⟨e, he', howner⟩
      obtain ⟨j, hj⟩ := Option.isSome_iff_exists.mp hlive
      rwa [← find_of_perform hj, hi] at hj
    obtain ⟨hfind, hops⟩ := ih (s := r.perform env s.2) hi' he' ⟨hitf.2, hb.2, hkey.2⟩
    refine ⟨hfind, ?_⟩
    show (performAll env rs (r.perform env s.2)).2.ops = _
    rw [hops, (perform_on (hitf.1 ▸ hi) hb').1, List.append_assoc]
    simp [op, hb']

/-- The result is VPP's answer to the last request, if that is one to add. -/
theorem performAll_result {i : Interface} {n : String} {e : String × ObjRef}
    (hi : s.2.om.find n = some i) (he : e ∈ s.2.om.refs) (howner : e.2.itf = some n)
    (hrs : Spares env.asio n e (rs ++ [r])) :
    (performAll env (rs ++ [r]) s).1 = .ok ↔
      r.add = true → env.hw (s.2.ops ++ (rs ++ [r]).filterMap (op env.asio i)) = .ok := by
  have hinit : Spares env.asio n e rs :=
    ⟨fun q hq => hrs.itf q (List.mem_append_left _ hq),
      fun q hq => hrs.parses q (List.mem_append_left _ hq),
      fun q hq => hrs.key q (List.mem_append_left _ hq)⟩
  obtain ⟨hfind, hops⟩ := performAll_on hi he howner hinit
  have hlast : r ∈ rs ++ [r] := List.mem_append_right _ List.mem_cons_self
  obtain ⟨b, hb⟩ := Option.isSome_iff_exists.mp (hrs.parses r hlast)
  rw [← hrs.itf r hlast] at hfind
  have hresult := (perform_on hfind hb).2
  rw [hops, List.append_assoc] at hresult
  rw [performAll_append, List.filterMap_append]
  show (r.perform env (performAll env rs s).2).1 = .ok ↔ _
  rw [hresult]
  simp [op, hb]

/-! ### Additions alone, and removals alone -/

/-- After removals, none of the bindings asked for is left. -/
theorem not_mem_performAll (hadd : ∀ r ∈ rs, r.add = false) {r : AddrRequest} (hr : r ∈ rs)
    (hb : r.binding env.asio = some b) : b ∉ (performAll env rs s).2.om.bindings env.asio := by
  induction rs generalizing s with
  | nil => cases hr
  | cons r' rs ih =>
    rw [List.forall_mem_cons] at hadd
    rcases List.mem_cons.mp hr with rfl | hr
    -- it is gone after this request, and none of the others adds anything
    · intro hm
      rcases mem_of_performAll (s := r.perform env s.2) hm with hm | ⟨r', hr', htrue, -⟩
      · exact not_mem_perform hadd.1 hb hm
      · cases (hadd.2 r' hr').symm.trans htrue
    · exact ih (s := r'.perform env s.2) hadd.2 hr

/-- Additions to live interfaces that VPP accepts are all served. -/
theorem mem_performAll_added (hhw : ∀ ops, env.hw ops = .ok) (hadd : ∀ r ∈ rs, r.add = true)
    (hi : ∀ r ∈ rs, (s.2.om.find r.itf).isSome) {r : AddrRequest} (hr : r ∈ rs)
    (hb : r.binding env.asio = some b) : b ∈ (performAll env rs s).2.om.bindings env.asio := by
  induction rs generalizing s with
  | nil => cases hr
  | cons r' rs ih =>
    rw [List.forall_mem_cons] at hadd hi
    rcases List.mem_cons.mp hr with rfl | hr
    · have hmem := (perform_added hhw hadd.1 hi.1 hb).2
      refine mem_performAll (s := r.perform env s.2) hmem fun r' hr' b' hfalse => ?_
      cases (hadd.2 r' hr').symm.trans hfalse
    · have hsub : s.2.om.refs ⊆ (r'.perform env s.2).2.om.refs := refs_subset_perform hadd.1
      exact ih (s := r'.perform env s.2) hadd.2 (fun r hr => alive_of_subset hsub (hi.2 r hr)) hr

end AddrRequest

end Sweetcomb
