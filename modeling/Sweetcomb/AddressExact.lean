import Sweetcomb.AddressEntries

/-!
# Adding and deleting addresses of several interfaces

Every entry of the change set is added, or every one is deleted, on whatever interface it
is. What is asked for after the `ip` leaf carries the prefix length of the entry before.
-/

namespace Sweetcomb

/-- An address on an interface, with its prefix length. -/
structure ItfAddress where
  itf : String
  family : IpFamily
  entry : AddrEntry
deriving DecidableEq, Repr

namespace ItfAddress

def binding (e : ItfAddress) : String × RoutePrefix := (e.itf, e.entry.pfx)

/-- The entry is added or deleted: its list node, its `ip` and its `prefix-length` leaf. -/
def change (add : Bool) (e : ItfAddress) : AddrChange where
  itf := e.itf
  family := e.family
  text := e.entry.text
  address := e.entry.address
  op := if add then .created (.prefixLength e.entry.plen) else .deleted (.prefixLength e.entry.plen)

def reported (add : Bool) (es : List ItfAddress) : List Change :=
  AddrChange.reported (es.map (change add))

/-- Another prefix length for the same address. -/
def withPlen (e : ItfAddress) (n : UInt8) : ItfAddress :=
  { e with entry := { e.entry with plen := n } }

/-- Each entry is asked for with the length of the entry before it, then with its own. -/
def asked : UInt8 → List ItfAddress → List ItfAddress
  | _, [] => []
  | prev, e :: es => e.withPlen prev :: e :: asked e.entry.plen es

def request (add : Bool) (e : ItfAddress) : AddrRequest := ⟨e.itf, e.entry.text, e.entry.plen, add⟩

variable {A : Asio} {es : List ItfAddress} {l : AddrLocals}

theorem mem_asked {e : ItfAddress} (prev : UInt8) (he : e ∈ es) : e ∈ asked prev es := by
  induction es generalizing prev with
  | nil => exact he
  | cons d es ih =>
    rw [asked]
    rcases List.mem_cons.mp he with rfl | he
    · simp
    · simp [ih d.entry.plen he]

/-- What is asked for is an address of the change set, with some length. -/
theorem of_mem_asked {x : ItfAddress} (prev : UInt8) (hx : x ∈ asked prev es) :
    ∃ e ∈ es, ∃ n, x = e.withPlen n := by
  induction es generalizing prev with
  | nil => cases hx
  | cons d es ih =>
    rw [asked] at hx
    rcases List.mem_cons.mp hx with rfl | hx
    · exact ⟨d, List.mem_cons_self, prev, rfl⟩
    rcases List.mem_cons.mp hx with rfl | hx
    · exact ⟨x, List.mem_cons_self, x.entry.plen, rfl⟩
    · obtain ⟨e, he, hn⟩ := ih d.entry.plen hx
      exact ⟨e, List.mem_cons_of_mem _ he, hn⟩

/-- Entries of one address list of one interface. -/
theorem asked_map_mk (itf : String) (f : IpFamily) (es : List AddrEntry) (prev : UInt8) :
    asked prev (es.map (mk itf f)) = (AddrEntry.asked prev es).map (mk itf f) := by
  induction es generalizing prev with
  | nil => rfl
  | cons e es ih =>
    rw [List.map_cons, asked, ih]
    rfl

theorem reported_map_mk (itf : String) (f : IpFamily) (add : Bool) (es : List AddrEntry) :
    reported add (es.map (mk itf f)) = AddrEntry.reported itf f add es := by
  rw [reported, AddrChange.reported, AddrEntry.reported, List.map_map, List.flatMap_map]
  congr 1
  funext e
  cases add <;> rfl

/-- Additions alone, and deletions alone, work on variables of their own. -/
theorem allRequests_eq (add : Bool) (htext : ∀ e ∈ es, e.entry.text ≠ "")
    (hother : (if add then l.del else l.create) = false) :
    AddrChange.allRequests l (es.map (change add)) =
      (asked (if add then l.newPrefix else l.oldPrefix) es).map (request add) := by
  induction es generalizing l with
  | nil => rfl
  | cons e es ih =>
    rw [List.forall_mem_cons] at htext
    rw [List.map_cons, AddrChange.allRequests, asked]
    cases add with
    | true =>
      rw [ih htext.2 (l := (e.change true).localsAfter l) hother]
      simp only [if_true] at hother
      simp [change, AddrChange.requests, AddrChange.localsAfter, AddrLocals.requests, hother,
        htext.1, request, withPlen, Subnet.plen]
    | false =>
      rw [ih htext.2 (l := (e.change false).localsAfter l) hother]
      simp only [Bool.false_eq_true, if_false] at hother
      simp [change, AddrChange.requests, AddrChange.localsAfter, AddrLocals.requests, hother,
        htext.1, request, withPlen, Subnet.plen]

/-- What is asked for on the way through the change set. -/
theorem pass_reported_change (add : Bool) (hA : A.Lawful) (hne : ∀ e ∈ es, e.itf ≠ "")
    (hreads : ∀ e ∈ es, e.entry.Reads A) :
    AddrLocals.pass A {} (reported add es) = ((asked 0 es).map (request add), none) := by
  have hne' : ∀ c ∈ es.map (change add), c.itf ≠ "" := by
    intro c hc
    obtain ⟨e, he, rfl⟩ := List.mem_map.mp hc
    exact hne e he
  have hreads' : ∀ c ∈ es.map (change add), c.Reads A := by
    intro c hc
    obtain ⟨e, he, rfl⟩ := List.mem_map.mp hc
    exact ⟨hreads e he, by cases add <;> trivial⟩
  rw [reported, pass_reported hne' hreads',
    allRequests_eq add fun e he => AddrEntry.text_ne_empty hA (hreads e he)]
  · cases add <;> rfl
  · cases add <;> rfl

/-- The same for one address list of one interface. -/
theorem pass_entries (add : Bool) {itf : String} {f : IpFamily} {es : List AddrEntry}
    (hA : A.Lawful) (hitf : itf ≠ "") (hreads : ∀ e ∈ es, e.Reads A) :
    AddrLocals.pass A {} (AddrEntry.reported itf f add es) =
      ((AddrEntry.asked 0 es).map (AddrEntry.request itf add), none) := by
  rw [← reported_map_mk, pass_reported_change add hA, asked_map_mk, List.map_map]
  · rfl
  · exact List.forall_mem_map.mpr fun _ _ => hitf
  · exact List.forall_mem_map.mpr hreads

end ItfAddress

open ItfAddress

/-- The change set is about addresses that parse, on interfaces of the store. -/
structure OnInterfaces (A : Asio) (om : Store) (es : List ItfAddress) : Prop where
  reads : ∀ e ∈ es, e.entry.Reads A
  alive : ∀ e ∈ es, (om.find e.itf).isSome

section Callback

variable {env : Env} {w : World} {es : List ItfAddress}

/-- The callback asks for every entry twice. -/
theorem effect_reported (add : Bool) (hA : env.asio.Lawful) (hname : w.om.find "" = none)
    (hes : OnInterfaces env.asio w.om es) :
    let s := performAll env ((asked 0 es).map (request add)) (.ok, w)
    effect (ietfInterfaceIpv46AddressChangeCb env .verify (.ok (reported add es)) w) =
      ⟨.returns s.1, s.2.ops, s.2.om, s.2.table⟩ := by
  have hne : ∀ e ∈ es, e.itf ≠ "" := by
    intro e he h
    have halive := hes.alive e he
    rw [h, hname] at halive
    cases halive
  intro s
  rw [addr_effect env w (by simp) (by simp), pass_reported_change add hA hne hes.reads]
  rfl

theorem request_binding {A : Asio} {add : Bool} {x : ItfAddress} (hx : x.entry.Reads A) :
    (x.request add).binding A = some x.binding := by
  rw [AddrRequest.binding_eq_some]
  exact ⟨rfl, rfl, hx⟩

/-- Every request is about the interface and the address of an entry. -/
theorem asked_spec {A : Asio} {om : Store} (hes : OnInterfaces A om es) {x : ItfAddress}
    (hx : x ∈ asked 0 es) :
    x.entry.Reads A ∧ (om.find x.itf).isSome ∧ ∃ e ∈ es, ∃ n, x = e.withPlen n := by
  obtain ⟨e, he, n, rfl⟩ := of_mem_asked 0 hx
  exact ⟨hes.reads e he, hes.alive e he, e, he, n, rfl⟩

theorem of_request_binding {A : Asio} {om : Store} {add : Bool} (hes : OnInterfaces A om es)
    {q : AddrRequest} (hq : q ∈ (asked 0 es).map (request add)) {b : String × RoutePrefix}
    (hb : q.binding A = some b) : ∃ x ∈ asked 0 es, b = x.binding := by
  obtain ⟨x, hx, rfl⟩ := List.mem_map.mp hq
  exact ⟨x, hx, Option.some.inj (hb.symm.trans (request_binding (asked_spec hes hx).1))⟩

end Callback

/-- A host address or a network of loop0. -/
def loop0Address (d plen : UInt8) : ItfAddress where
  itf := "loop0"
  family := .ipv4
  entry := ⟨Asio.uncompressed.toString (.v4 10 0 0 d), .v4 10 0 0 d, plen⟩

theorem onInterfaces_loop0 (ds : List (UInt8 × UInt8)) :
    OnInterfaces Env.accepting.asio (World.ofInterfaces [⟨"loop0", "ETHERNET", true⟩]).om
      (ds.map fun d => loop0Address d.1 d.2) := by
  constructor
  · intro e he
    obtain ⟨d, -, rfl⟩ := List.mem_map.mp he
    exact Asio.uncompressed_lawful.fromString_toString _
  · intro e he
    obtain ⟨d, -, rfl⟩ := List.mem_map.mp he
    show ((World.ofInterfaces [⟨"loop0", "ETHERNET", true⟩]).om.find "loop0").isSome
    decide

theorem no_bindings_loop0 (b : String × RoutePrefix) :
    b ∉ (World.ofInterfaces [⟨"loop0", "ETHERNET", true⟩]).om.bindings Env.accepting.asio := by
  intro hb
  have hmem : (_, ObjRef.l3Binding b.1 b.2) ∈ ({("loop0", .interface "loop0")} : Finset _) := hb
  simp at hmem

/-! ## Additions -/

/-- The bindings of new addresses are those of the entries exactly when what is asked for
after each `ip` leaf is an entry of the change set as well. -/
theorem additions_exact_iff (env : Env) (w : World) (es : List ItfAddress)
    (hA : env.asio.Lawful) (hhw : ∀ ops, env.hw ops = .ok) (hname : w.om.find "" = none)
    (hes : OnInterfaces env.asio w.om es)
    (hnew : ∀ e ∈ es, ∀ n, (e.withPlen n).binding ∉ w.om.bindings env.asio) :
    let r := effect (ietfInterfaceIpv46AddressChangeCb env .verify (.ok (reported true es)) w)
    (r.om.bindings env.asio = w.om.bindings env.asio ∪ {b | ∃ e ∈ es, b = e.binding} ∧
        ∃ ops, r.ops = w.ops ++ ops ∧
          ∀ op ∈ ops, ∃ e ∈ es, op.key = l3Key env.asio e.binding.1 e.binding.2) ↔
      ∀ x ∈ asked 0 es, ∃ e ∈ es, x.binding = e.binding := by
  intro r
  let rs := (asked 0 es).map (request true)
  have hr : r = _ := effect_reported true hA hname hes
  have hadd : ∀ q ∈ rs, q.add = true := by simp [rs, request]
  have halive : ∀ q ∈ rs, (w.om.find q.itf).isSome := by
    intro q hq
    obtain ⟨x, hx, rfl⟩ := List.mem_map.mp hq
    exact (asked_spec hes hx).2.1
  have hwritten : ∀ x ∈ asked 0 es, x.binding ∈ r.om.bindings env.asio := by
    intro x hx
    rw [hr]
    exact AddrRequest.mem_performAll_added hhw hadd halive (List.mem_map_of_mem hx)
      (request_binding (asked_spec hes hx).1)
  constructor
  · rintro ⟨hset, -⟩ x hx
    have hmem := hwritten x hx
    rw [hset] at hmem
    refine hmem.resolve_left fun hold => ?_
    obtain ⟨-, -, e, he, n, rfl⟩ := asked_spec hes hx
    exact hnew e he n hold
  · intro hown
    refine ⟨Set.ext fun b => ⟨fun hb => ?_, fun hb => ?_⟩, ?_⟩
    · rw [hr] at hb
      rcases AddrRequest.mem_of_performAll hb with hb | ⟨q, hq, -, b', hb', heq⟩
      · exact .inl hb
      · obtain ⟨x, hx, rfl⟩ := of_request_binding hes hq hb'
        obtain ⟨e, he, hbind⟩ := hown x hx
        refine .inr ⟨e, he, ?_⟩
        rw [← hbind]
        simpa [Prod.ext_iff] using (Prod.mk.inj heq).2
    · rcases hb with hb | ⟨e, he, rfl⟩
      · rw [hr]
        refine AddrRequest.mem_performAll hb fun q hq b' hfalse => ?_
        cases (hadd q hq).symm.trans hfalse
      · exact hwritten e (mem_asked 0 he)
    · obtain ⟨ops, hops, hserve⟩ := AddrRequest.performAll_ops env rs (.ok, w)
      refine ⟨ops, by rw [hr]; exact hops, fun op hop => ?_⟩
      obtain ⟨q, hq, b, hb, hkey, -⟩ := hserve op hop
      obtain ⟨x, hx, rfl⟩ := of_request_binding hes hq hb
      obtain ⟨e, he, hbind⟩ := hown x hx
      exact ⟨e, he, hbind ▸ hkey⟩

/-- An address of length 0 is added as it is. -/
theorem addition_exact_default :
    let w := World.ofInterfaces [⟨"loop0", "ETHERNET", true⟩]
    let es := [loop0Address 1 0]
    let r := effect (ietfInterfaceIpv46AddressChangeCb .accepting .verify
      (.ok (reported true es)) w)
    r.om.bindings Env.accepting.asio =
        w.om.bindings Env.accepting.asio ∪ {b | ∃ e ∈ es, b = e.binding} ∧
      ∃ ops, r.ops = w.ops ++ ops ∧
        ∀ op ∈ ops, ∃ e ∈ es, op.key = l3Key Env.accepting.asio e.binding.1 e.binding.2 :=
  (additions_exact_iff .accepting _ _ Asio.uncompressed_lawful (fun _ => rfl) (by decide)
    (onInterfaces_loop0 [(1, 0)]) (fun _ _ _ => no_bindings_loop0 _)).mpr (by decide)

/-- 10.0.0.1/24 is added as 10.0.0.1/0 as well. -/
theorem addition_not_exact : ¬ ∀ (env : Env) (w : World) (es : List ItfAddress),
    env.asio.Lawful → (∀ ops, env.hw ops = .ok) → w.om.find "" = none →
    OnInterfaces env.asio w.om es →
    (∀ e ∈ es, ∀ n, (e.withPlen n).binding ∉ w.om.bindings env.asio) →
    let r := effect (ietfInterfaceIpv46AddressChangeCb env .verify (.ok (reported true es)) w)
    r.om.bindings env.asio = w.om.bindings env.asio ∪ {b | ∃ e ∈ es, b = e.binding} ∧
      ∃ ops, r.ops = w.ops ++ ops ∧
        ∀ op ∈ ops, ∃ e ∈ es, op.key = l3Key env.asio e.binding.1 e.binding.2 := by
  intro h
  have hexact := h .accepting _ _ Asio.uncompressed_lawful (fun _ => rfl) (by decide)
    (onInterfaces_loop0 [(1, 24)]) (fun _ _ _ => no_bindings_loop0 _)
  have hown := (additions_exact_iff .accepting _ _ Asio.uncompressed_lawful (fun _ => rfl)
    (by decide) (onInterfaces_loop0 [(1, 24)]) (fun _ _ _ => no_bindings_loop0 _)).mp hexact
  revert hown
  decide

section Own

variable {es : List ItfAddress}

/-- Of entries with addresses of their own, each is asked for with the length before it. -/
theorem plen_of_own {es₀ : List ItfAddress}
    (hnodup : (es₀.map fun e => (e.itf, e.entry.address)).Nodup) (hsub : es ⊆ es₀) (prev : UInt8)
    (hown : ∀ x ∈ asked prev es, ∃ e ∈ es₀, x.binding = e.binding) :
    ∀ e ∈ es, e.entry.plen = prev := by
  induction es with
  | nil => simp
  | cons d es ih =>
    rw [asked, List.forall_mem_cons, List.forall_mem_cons] at hown
    rw [List.cons_subset] at hsub
    obtain ⟨⟨e, he, hbind⟩, -, htail⟩ := hown
    have hkey : (d.itf, d.entry.address) = (e.itf, e.entry.address) :=
      congrArg (fun b : String × RoutePrefix => (b.1, b.2.address)) hbind
    obtain rfl := List.inj_on_of_nodup_map hnodup hsub.1 he hkey
    have hplen : d.entry.plen = prev :=
      (congrArg (fun b : String × RoutePrefix => b.2.len) hbind).symm
    rw [hplen] at htail
    exact List.forall_mem_cons.mpr ⟨hplen, ih hsub.2 htail⟩

theorem own_of_plen (prev : UInt8) (h : ∀ e ∈ es, e.entry.plen = prev) :
    ∀ x ∈ asked prev es, x ∈ es := by
  induction es with
  | nil => simp [asked]
  | cons d es ih =>
    rw [List.forall_mem_cons] at h
    obtain ⟨hd, hes⟩ := h
    rw [asked, hd, List.forall_mem_cons, List.forall_mem_cons]
    have hsame : d.withPlen prev = d := by rw [← hd]; rfl
    rw [hsame]
    exact ⟨List.mem_cons_self, List.mem_cons_self, fun x hx => List.mem_cons_of_mem _ (ih hes x hx)⟩

/-- Where no address is listed twice, that is to say that all prefix lengths are 0. -/
theorem asked_own_iff (hnodup : (es.map fun e => (e.itf, e.entry.address)).Nodup) :
    (∀ x ∈ asked 0 es, ∃ e ∈ es, x.binding = e.binding) ↔ ∀ e ∈ es, e.entry.plen = 0 :=
  ⟨plen_of_own hnodup (List.Subset.refl es) 0, fun h x hx => ⟨x, own_of_plen 0 h x hx, rfl⟩⟩

end Own

/-! ## Deletions -/

/-- Deleted entries lose their bindings, all other addresses keep theirs, and nothing is
written. An interface whose last binding goes takes part in this as well. -/
theorem deletions_exact (env : Env) (w : World) (es : List ItfAddress) (hA : env.asio.Lawful)
    (hname : w.om.find "" = none) (hes : OnInterfaces env.asio w.om es) :
    let r := effect (ietfInterfaceIpv46AddressChangeCb env .verify (.ok (reported false es)) w)
    (∀ e ∈ es, e.binding ∉ r.om.bindings env.asio) ∧
    (∃ ops, r.ops = w.ops ++ ops ∧ ∀ op ∈ ops, op.isWrite = false) ∧
    ∀ b ∈ w.om.bindings env.asio, (∀ e ∈ es, (b.1, b.2.address) ≠ (e.itf, e.entry.address)) →
      b ∈ r.om.bindings env.asio := by
  intro r
  let rs := (asked 0 es).map (request false)
  have hr : r = _ := effect_reported false hA hname hes
  have hadd : ∀ q ∈ rs, q.add = false := by simp [rs, request]
  refine ⟨fun e he => ?_, ?_, fun b hb hother => ?_⟩
  · have he' := mem_asked 0 he
    rw [hr]
    exact AddrRequest.not_mem_performAll hadd (List.mem_map_of_mem he')
      (request_binding (asked_spec hes he').1)
  · obtain ⟨ops, hops, hserve⟩ := AddrRequest.performAll_ops env rs (.ok, w)
    refine ⟨ops, by rw [hr]; exact hops, fun op hop => ?_⟩
    obtain ⟨q, hq, b, -, -, hwrite, -⟩ := hserve op hop
    rw [hwrite, hadd q hq]
  · rw [hr]
    refine AddrRequest.mem_performAll hb fun q hq b' _ hb' hkey => ?_
    obtain ⟨x, hx, rfl⟩ := of_request_binding hes hq hb'
    obtain ⟨-, -, e, he, n, rfl⟩ := asked_spec hes hx
    obtain ⟨hitf, hpfx⟩ := ManagedObject.l3Key_inj hA hkey
    exact hother e he (by rw [hitf, hpfx]; rfl)

/-- Two addresses are deleted from a store that holds one of them. -/
theorem deletion_exact_loop0 :
    let w : World := { World.ofInterfaces [⟨"loop0", "ETHERNET", true⟩] with
      om := (World.ofInterfaces [⟨"loop0", "ETHERNET", true⟩]).om.write
        (l3Key .uncompressed "loop0" ⟨.v4 10 0 0 1, 24⟩)
        (.l3Binding ⟨⟨"loop0", "ETHERNET", true⟩, ⟨.v4 10 0 0 1, 24⟩⟩) }
    let es := [loop0Address 1 24, loop0Address 2 16]
    let r := effect (ietfInterfaceIpv46AddressChangeCb .accepting .verify
      (.ok (reported false es)) w)
    (∀ e ∈ es, e.binding ∉ r.om.bindings Env.accepting.asio) ∧
    (∃ ops, r.ops = w.ops ++ ops ∧ ∀ op ∈ ops, op.isWrite = false) ∧
    ∀ b ∈ w.om.bindings Env.accepting.asio,
      (∀ e ∈ es, (b.1, b.2.address) ≠ (e.itf, e.entry.address)) →
        b ∈ r.om.bindings Env.accepting.asio := by
  intro w es
  refine deletions_exact .accepting w es Asio.uncompressed_lawful (by decide) ⟨?_, ?_⟩
  · exact (onInterfaces_loop0 [(1, 24), (2, 16)]).reads
  · decide

end Sweetcomb
