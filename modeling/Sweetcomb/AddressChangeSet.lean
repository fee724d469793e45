import Sweetcomb.AddressLoop

/-!
# Address change sets

Added or deleted addresses are reported as their list node, their `ip` leaf and their
`prefix-length` leaf. The loop asks for a change after the `ip` leaf already, with the
prefix length of the entry before.
-/

namespace Sweetcomb

inductive IpFamily
  | ipv4 | ipv6
deriving DecidableEq, Repr

def IpFamily.node : IpFamily → String
  | ipv4 => "ietf-ip:ipv4"
  | ipv6 => "ietf-ip:ipv6"

/-- `/ietf-interfaces:interfaces/interface[name='itf']/ietf-ip:ipv4/address[ip='ip']`. -/
def addressPath (itf : String) (f : IpFamily) (ip : String) : XPath :=
  [⟨"ietf-interfaces:interfaces", []⟩, ⟨"interface", [("name", itf)]⟩, ⟨f.node, []⟩,
    ⟨"address", [("ip", ip)]⟩]

/-- An entry of the address list: the text of its `ip` leaf, with the address it stands for,
and its prefix length. -/
structure AddrEntry where
  text : String
  address : Address
  plen : UInt8
deriving DecidableEq, Repr

namespace AddrEntry

def Reads (A : Asio) (e : AddrEntry) : Prop := A.fromString e.text = some e.address

def pfx (e : AddrEntry) : RoutePrefix := ⟨e.address, e.plen⟩

/-- The nodes of an entry, in the order they are reported in. -/
def values (itf : String) (f : IpFamily) (e : AddrEntry) : List SrVal :=
  [⟨addressPath itf f e.text, .list⟩,
    ⟨addressPath itf f e.text ++ [⟨"ip", []⟩], .string e.text⟩,
    ⟨addressPath itf f e.text ++ [⟨"prefix-length", []⟩], .uint8 e.plen⟩]

def changes (itf : String) (f : IpFamily) (add : Bool) (e : AddrEntry) : List Change :=
  (e.values itf f).map fun v => if add then .created v else .deleted v

/-- The change set that adds or deletes some addresses, entry by entry. -/
def reported (itf : String) (f : IpFamily) (add : Bool) (es : List AddrEntry) : List Change :=
  es.flatMap (changes itf f add)

/-- What is asked for: each entry first with the length of the entry before it, then with
its own. -/
def asked : UInt8 → List AddrEntry → List AddrEntry
  | _, [] => []
  -- after the ip leaf, and after the prefix-length leaf; the list node asks for nothing
  | prev, e :: es => { e with plen := prev } :: e :: asked e.plen es

def request (itf : String) (add : Bool) (e : AddrEntry) : AddrRequest := ⟨itf, e.text, e.plen, add⟩

theorem mem_asked {e : AddrEntry} {es : List AddrEntry} (prev : UInt8) (he : e ∈ es) :
    e ∈ asked prev es := by
  induction es generalizing prev with
  | nil => exact he
  | cons d es ih =>
    rw [asked]
    rcases List.mem_cons.mp he with rfl | he
    · simp
    · simp [ih d.plen he]

/-- Every request is about the address of an entry. -/
theorem reads_asked {A : Asio} {es : List AddrEntry} (prev : UInt8)
    (h : ∀ e ∈ es, e.Reads A) : ∀ e ∈ asked prev es, e.Reads A := by
  induction es generalizing prev with
  | nil => simp [asked]
  | cons d es ih =>
    rw [List.forall_mem_cons] at h
    rw [asked, List.forall_mem_cons, List.forall_mem_cons]
    exact ⟨h.1, h.1, ih d.plen h.2⟩

theorem text_ne_empty {A : Asio} (hA : A.Lawful) {e : AddrEntry} (he : e.Reads A) :
    e.text ≠ "" := by
  intro h
  rw [Reads, h, hA.empty_malformed] at he
  cases he

end AddrEntry

open AddrEntry

/-! ## Bindings added and removed -/

section Bindings

variable {env : Env} {itf : String} {es : List AddrEntry} {w : World}

/-- The entry of the store that is made for an address. -/
def bindingEntry (A : Asio) (itf : String) (e : AddrEntry) : String × ObjRef :=
  (l3Key A itf e.pfx, .l3Binding itf e.pfx)

/-- Adding addresses to a live interface succeeds when VPP accepts every write. -/
theorem performAll_added (hhw : ∀ ops, env.hw ops = .ok) (hreads : ∀ e ∈ es, e.Reads env.asio)
    (hitf : (w.om.find itf).isSome) :
    let s := performAll env (es.map (request itf true)) (.ok, w)
    s.1 = .ok ∧ s.2.om.attr = w.om.attr ∧
      ∀ x, x ∈ s.2.om.refs ↔ x ∈ w.om.refs ∨ ∃ e ∈ es, x = bindingEntry env.asio itf e := by
  induction es generalizing w with
  | nil => simp [performAll]
  | cons e es ih =>
    rw [List.forall_mem_cons] at hreads
    obtain ⟨i, hi⟩ := Option.isSome_iff_exists.mp hitf
    have hname := Store.name_of_find hi
    let w' : World :=
      { w with
        om := w.om.write (l3Key env.asio itf e.pfx) (.l3Binding ⟨i, e.pfx⟩)
        ops := w.ops ++ [.write (l3Key env.asio itf e.pfx) (.l3Binding ⟨i, e.pfx⟩)] }
    have hstep : (request itf true e).perform env w = (.ok, w') := by
      rw [request, perform_add hi hreads.1, World.omWrite_ok (hhw _)]
      rfl
    have hattr : w'.om.attr = w.om.attr := by
      apply SharedStore.hold_attr
      intro m hm
      obtain rfl : i.name = m := Option.some.inj hm
      rw [hname, ← Store.find_isSome]
      exact hitf
    have hitf' : (w'.om.find itf).isSome := by
      rw [Store.find_isSome, hattr, ← Store.find_isSome]
      exact hitf
    obtain ⟨hok, htail, hrefs⟩ := ih hreads.2 hitf'
    have hs : performAll env ((e :: es).map (request itf true)) (.ok, w) =
        performAll env (es.map (request itf true)) (.ok, w') :=
      congrArg (performAll env (es.map (request itf true))) hstep
    rw [hs]
    refine ⟨hok, htail.trans hattr, fun x => ?_⟩
    have hnew : (VomObj.l3Binding ⟨i, e.pfx⟩).ref = .l3Binding itf e.pfx := by
      rw [← hname]
      rfl
    rw [hrefs x, Store.write_refs, hnew, Finset.mem_insert, List.exists_mem_cons_iff, or_assoc,
      or_left_comm]
    rfl

/-- A dead interface refuses every request. -/
theorem performAll_dead (rs : List AddrRequest) (hrs : ∀ r ∈ rs, r.itf = itf)
    (hitf : w.om.find itf = none) : performAll env rs (.invalArg, w) = (.invalArg, w) := by
  induction rs with
  | nil => rfl
  | cons r rs ih =>
    rw [List.forall_mem_cons] at hrs
    show performAll env rs (r.perform env w) = _
    rw [show r.perform env w = (.invalArg, w) from perform_unknown r.add (by rw [hrs.1, hitf])]
    exact ih hrs.2

/-- Removals succeed when the interface is still alive before the last of them; all keys are
then dropped. -/
theorem performAll_deleted (itf : String) (w : World) (hreads : ∀ e ∈ es, e.Reads env.asio)
    (hne : es ≠ []) (rc : SrErr) :
    let keys := es.map fun e => l3Key env.asio itf e.pfx
    let s := performAll env (es.map (request itf false)) (rc, w)
    (s.1 = .ok ↔ ((w.om.dropAll keys.dropLast).attr itf).isSome) ∧
      (s.1 = .ok → s.2.om = w.om.dropAll keys) := by
  induction es generalizing w rc with
  | nil => exact (hne rfl).elim
  | cons e es ih =>
    rw [List.forall_mem_cons] at hreads
    intro keys s
    cases hi : w.om.find itf with
    -- nothing brings the interface back, so the last request fails as well
    | none =>
      have hfail : s = (.invalArg, w) := by
        show performAll env (es.map (request itf false)) ((request itf false e).perform env w) = _
        rw [request, perform_unknown false hi]
        exact performAll_dead _ (by simp [request]) hi
      have hdead : ¬ ((w.om.dropAll keys.dropLast).attr itf).isSome := by
        intro h
        obtain ⟨a, ha⟩ := Option.isSome_iff_exists.mp h
        rw [Store.find_eq_none, SharedStore.dropAll_attr_eq_some ha] at hi
        cases hi
      rw [hfail]
      exact ⟨iff_of_false (by simp) hdead, by simp⟩
    | some i =>
      have hstep : s = performAll env (es.map (request itf false))
          (.ok, w.omRemove (l3Key env.asio itf e.pfx)) := by
        show performAll env (es.map (request itf false)) ((request itf false e).perform env w) = _
        rw [request, perform_remove hi hreads.1]
        rfl
      by_cases hes : es = []
      -- this is the last request
      · subst hes
        rw [hstep]
        refine ⟨iff_of_true rfl ?_, fun _ => rfl⟩
        show (w.om.attr itf).isSome
        rw [← Store.find_isSome, hi]
        rfl
      · obtain ⟨hiff, hdrop⟩ :=
          ih (w.omRemove (l3Key env.asio itf e.pfx)) hreads.2 hes .ok
        rw [← hstep] at hiff hdrop
        have hkeys : keys.dropLast = l3Key env.asio itf e.pfx ::
            (es.map fun e => l3Key env.asio itf e.pfx).dropLast :=
          List.dropLast_cons_of_ne_nil (by simpa using hes)
        rw [hkeys]
        exact ⟨hiff, hdrop⟩

end Bindings

end Sweetcomb
