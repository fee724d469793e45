import Sweetcomb.AddressExact
import Sweetcomb.InterfaceChangeSet

/-!
# Creating and deleting a whole interface

One commit creates an interface with its addresses, a later one deletes it. The store is
as before when the addresses asked for on the way in, each of them twice, are all asked
for again on the way out, and the interface does not vanish too early.
-/

namespace Sweetcomb

open AddrEntry (asked request)

/-- The VERIFY callbacks of a commit that creates or deletes an interface with its addresses,
in the order of their priorities 100, 99 and 98. -/
def commit (stale : InterfaceStale) (e : InterfaceEntry) (v4 v6 : List AddrEntry) :
    List Delivery :=
  [⟨.ietfInterfaceCreate stale, .verify, .ok (InterfaceEntry.reported [e])⟩,
    ⟨.ietfInterfaceIpv46AddressChange, .verify,
      .ok (AddrEntry.reported e.itf .ipv4 e.isCreate v4)⟩,
    ⟨.ietfInterfaceIpv46AddressChange, .verify,
      .ok (AddrEntry.reported e.itf .ipv6 e.isCreate v6)⟩]

/-- All callbacks succeed, the addresses are bound in between, and the store is restored. -/
structure Restores (env : Env) (w : World) (itf : String) (es : List AddrEntry)
    (create delete : List Delivery) : Prop where
  accepted : ∀ o ∈ outcomes env (create ++ delete) w, o = .returns .ok
  bound : ∀ e ∈ es, bindingEntry env.asio itf e ∈ (w.afterAll env create).om.refs
  restored : (w.afterAll env (create ++ delete)).om = w.om

/-- The interface has a name; no key that is removed holds anything before; every prefix
asked for on creation is asked for on deletion; and the deletion leaves one of these for its
last request. -/
structure Undone (A : Asio) (itf : String) (om : Store) (created deleted : List AddrEntry) :
    Prop where
  named : itf ≠ ""
  unheld : ∀ x ∈ om.refs, x.1 ≠ itf ∧ ∀ e ∈ deleted, x.1 ≠ l3Key A itf e.pfx
  covered : ∀ e ∈ created, e.pfx ∈ deleted.map AddrEntry.pfx
  alive : deleted ≠ [] → ∃ e ∈ created, e.pfx ∉ (deleted.map AddrEntry.pfx).dropLast

/-! ## One callback -/

section OneCallback

variable {env : Env} {stale : InterfaceStale} {w : World} {itf : String} {b : Bool}
  {f : IpFamily} {es : List AddrEntry}

/-- What VOM sees of the VERIFY call of the address callback. -/
theorem address_verify {rs : List AddrRequest} {cs : List Change}
    (hpass : AddrLocals.pass env.asio {} cs = (rs, none)) :
    let s := performAll env rs (.ok, w)
    let r := ietfInterfaceIpv46AddressChangeCb env .verify (.ok cs) w
    r.1 = .returns s.1 ∧ r.2.om = s.2.om := by
  have h := addr_effect env w (show NotifEvent.verify ≠ .apply by simp) (by simp) cs
  rw [hpass] at h
  exact ⟨congrArg Effect.outcome h, congrArg Effect.om h⟩

theorem interface_unnamed (env : Env) (stale : InterfaceStale) (b : Bool)
    (hnew : w.om.find "" = none) :
    (ietfInterfaceCreateCb env stale .verify
      (.ok (InterfaceEntry.reported [.create "" b])) w).1 ≠ .returns .ok := by
  have hes : InterfaceEntries w.om [.create "" b] :=
    ⟨by simp, by simpa using hnew, by simp, by simp⟩
  have h : entriesEffect env stale [.create "" b] w = _ :=
    changeSet_unnamed hes ⟨_, List.mem_cons_self, rfl⟩ rfl
  intro hok
  cases (congrArg Effect.outcome h).symm.trans hok

theorem interface_created (stale : InterfaceStale) (b : Bool)
    (hhw : ∀ ops, env.hw ops = .ok) (hitf : itf ≠ "") (hnew : w.om.find itf = none) :
    let r := ietfInterfaceCreateCb env stale .verify
      (.ok (InterfaceEntry.reported [.create itf b])) w
    r.1 = .returns .ok ∧ r.2.om = w.om.write itf (.interface ⟨itf, "ETHERNET", b⟩) := by
  have hes : InterfaceEntries w.om [.create itf b] :=
    ⟨by simp, by simpa using hnew, by simp, by simp⟩
  have h : entriesEffect env stale [.create itf b] w = _ :=
    changeSet_create hes ⟨_, List.mem_cons_self, rfl⟩ hitf
  rw [writeEffect_of_ok (hhw _)] at h
  exact ⟨congrArg Effect.outcome h, congrArg Effect.om h⟩

theorem interface_deleted (env : Env) (b : Bool) (hst : stale.Cleared)
    (hold : (w.om.find itf).isSome) :
    let r := ietfInterfaceCreateCb env stale .verify
      (.ok (InterfaceEntry.reported [.delete itf b])) w
    r.1 = .returns .ok ∧ r.2.om = w.om.remove itf := by
  have hes : InterfaceEntries w.om [.delete itf b] :=
    ⟨by simp, by simp, by simpa using hold, by simp⟩
  have h : entriesEffect env stale [.delete itf b] w = _ := changeSet_delete hst hes
    (fun e he => ⟨itf, b, List.mem_singleton.mp he⟩) (by simp)
  exact ⟨congrArg Effect.outcome h, congrArg Effect.om h⟩

theorem addresses_added (hA : env.asio.Lawful) (hhw : ∀ ops, env.hw ops = .ok)
    (hitf : itf ≠ "") (hreads : ∀ e ∈ es, e.Reads env.asio) (hlive : (w.om.find itf).isSome) :
    let r := ietfInterfaceIpv46AddressChangeCb env .verify
      (.ok (AddrEntry.reported itf f true es)) w
    r.1 = .returns .ok ∧ r.2.om.attr = w.om.attr ∧
      ∀ x, x ∈ r.2.om.refs ↔
        x ∈ w.om.refs ∨ ∃ e ∈ asked 0 es, x = bindingEntry env.asio itf e := by
  intro r
  have hpass := ItfAddress.pass_entries (f := f) true hA hitf hreads
  obtain ⟨hrc, hom⟩ := address_verify (w := w) hpass
  obtain ⟨hok, hattr, hrefs⟩ := performAll_added hhw (AddrEntry.reads_asked 0 hreads) hlive
  refine ⟨hrc.trans (congrArg Outcome.returns hok), ?_, ?_⟩
  · exact (congrArg SharedStore.attr hom).trans hattr
  · intro x
    rw [show r.2.om = _ from hom]
    exact hrefs x

theorem addresses_deleted (hA : env.asio.Lawful) (hitf : itf ≠ "")
    (hreads : ∀ e ∈ es, e.Reads env.asio) :
    let keys := (asked 0 es).map fun e => l3Key env.asio itf e.pfx
    let r := ietfInterfaceIpv46AddressChangeCb env .verify
      (.ok (AddrEntry.reported itf f false es)) w
    (r.1 = .returns .ok ↔ (keys ≠ [] → ((w.om.dropAll keys.dropLast).attr itf).isSome)) ∧
      (r.1 = .returns .ok → r.2.om = w.om.dropAll keys) := by
  intro keys r
  have hpass := ItfAddress.pass_entries (f := f) false hA hitf hreads
  obtain ⟨hrc, hom⟩ := address_verify (w := w) hpass
  have hkeys : keys ≠ [] ↔ asked 0 es ≠ [] := by simp [keys]
  rw [show r.1 = _ from hrc, show r.2.om = _ from hom, Outcome.returns.injEq, hkeys]
  by_cases hne : asked 0 es = []
  · rw [show keys = [] by simpa [keys] using hne]
    simp only [hne]
    exact ⟨iff_of_true rfl fun h => (h rfl).elim, fun _ => rfl⟩
  · obtain ⟨hiff, hdrop⟩ :=
      performAll_deleted itf w (AddrEntry.reads_asked 0 hreads) hne .ok
    exact ⟨hiff.trans ⟨fun h _ => h, fun h => h hne⟩, hdrop⟩

end OneCallback

/-! ## The two commits -/

/-- What a creation makes of a store. -/
structure Created (A : Asio) (itf : String) (es : List AddrEntry) (om om' : Store) : Prop where
  refs : ∀ x, x ∈ om'.refs ↔
    x ∈ om.refs ∨ x = (itf, .interface itf) ∨ ∃ e ∈ es, x = bindingEntry A itf e
  attr : ∀ m, m ≠ itf → om'.attr m = om.attr m

section Commits

variable {env : Env} {stale : InterfaceStale} {w : World} {itf : String} {b : Bool}
  {v4 v6 : List AddrEntry}

/-- The requests of both address callbacks. -/
def allAsked (v4 v6 : List AddrEntry) : List AddrEntry := asked 0 v4 ++ asked 0 v6

theorem afterAll_commit (e : InterfaceEntry) :
    let w₁ := (ietfInterfaceCreateCb env stale .verify (.ok (InterfaceEntry.reported [e])) w).2
    let w₂ := (ietfInterfaceIpv46AddressChangeCb env .verify
      (.ok (AddrEntry.reported e.itf .ipv4 e.isCreate v4)) w₁).2
    w.afterAll env (commit stale e v4 v6) = (ietfInterfaceIpv46AddressChangeCb env .verify
      (.ok (AddrEntry.reported e.itf .ipv6 e.isCreate v6)) w₂).2 := rfl

theorem creation_commit (stale : InterfaceStale) (b : Bool) (hA : env.asio.Lawful)
    (hhw : ∀ ops, env.hw ops = .ok) (hitf : itf ≠ "") (hnew : w.om.find itf = none)
    (hreads : ∀ e ∈ v4 ++ v6, e.Reads env.asio) :
    (∀ o ∈ outcomes env (commit stale (.create itf b) v4 v6) w, o = .returns .ok) ∧
      Created env.asio itf (allAsked v4 v6) w.om
        (w.afterAll env (commit stale (.create itf b) v4 v6)).om := by
  rw [List.forall_mem_append] at hreads
  obtain ⟨hok₁, hom₁⟩ := interface_created stale b hhw hitf hnew
  let w₁ := (ietfInterfaceCreateCb env stale .verify
    (.ok (InterfaceEntry.reported [.create itf b])) w).2
  have hlive₁ : (w₁.om.find itf).isSome := by
    rw [show w₁.om = _ from hom₁, Store.find_write_interface (i := ⟨itf, "ETHERNET", b⟩)]
    rfl
  obtain ⟨hok₂, hattr₂, hrefs₂⟩ :=
    addresses_added (f := .ipv4) hA hhw hitf hreads.1 hlive₁
  let w₂ := (ietfInterfaceIpv46AddressChangeCb env .verify
    (.ok (AddrEntry.reported itf .ipv4 true v4)) w₁).2
  have hlive₂ : (w₂.om.find itf).isSome := by
    rw [Store.find_isSome, show w₂.om.attr = _ from hattr₂, ← Store.find_isSome]
    exact hlive₁
  obtain ⟨hok₃, hattr₃, hrefs₃⟩ :=
    addresses_added (f := .ipv6) hA hhw hitf hreads.2 hlive₂
  refine ⟨?_, ?_, ?_⟩
  · show ∀ o ∈ [_, _, _], o = _
    simp only [List.forall_mem_cons]
    exact ⟨hok₁, hok₂, hok₃, by simp⟩
  · intro x
    rw [afterAll_commit]
    refine (hrefs₃ x).trans ?_
    rw [hrefs₂ x, show w₁.om = _ from hom₁, Store.write_refs, Finset.mem_insert]
    simp only [allAsked, List.mem_append, or_and_right, exists_or]
    rw [or_assoc, or_assoc, or_left_comm]
    rfl
  · intro m hm
    rw [afterAll_commit]
    refine (congrFun (hattr₃.trans hattr₂) m).trans ?_
    rw [show w₁.om = _ from hom₁]
    exact if_neg fun h => hm (Option.some.inj h).symm

/-- The deletion succeeds when the interface is still alive before the last request; then all
keys are dropped. -/
theorem deletion_commit (b : Bool) (hA : env.asio.Lawful) (hst : stale.Cleared) (hitf : itf ≠ "")
    (hlive : (w.om.find itf).isSome) (hreads : ∀ e ∈ v4 ++ v6, e.Reads env.asio) :
    let keys := (allAsked v4 v6).map fun e => l3Key env.asio itf e.pfx
    let ds := commit stale (.delete itf b) v4 v6
    ((∀ o ∈ outcomes env ds w, o = .returns .ok) ↔
        (keys ≠ [] → ((w.om.dropAll (itf :: keys.dropLast)).attr itf).isSome)) ∧
      ((∀ o ∈ outcomes env ds w, o = .returns .ok) →
        (w.afterAll env ds).om = w.om.dropAll (itf :: keys)) := by
  rw [List.forall_mem_append] at hreads
  intro keys ds
  obtain ⟨hok₁, hom₁⟩ := interface_deleted env b hst hlive
  let w₁ := (ietfInterfaceCreateCb env stale .verify
    (.ok (InterfaceEntry.reported [.delete itf b])) w).2
  let w₂ := (ietfInterfaceIpv46AddressChangeCb env .verify
    (.ok (AddrEntry.reported itf .ipv4 false v4)) w₁).2
  let keys₄ := (asked 0 v4).map fun e => l3Key env.asio itf e.pfx
  let keys₆ := (asked 0 v6).map fun e => l3Key env.asio itf e.pfx
  obtain ⟨hiff₂, hdrop₂⟩ := addresses_deleted (w := w₁) (f := .ipv4) hA hitf hreads.1
  obtain ⟨hiff₃, hdrop₃⟩ := addresses_deleted (w := w₂) (f := .ipv6) hA hitf hreads.2
  have hall : (∀ o ∈ outcomes env ds w, o = .returns .ok) ↔
      (ietfInterfaceIpv46AddressChangeCb env .verify
        (.ok (AddrEntry.reported itf .ipv4 false v4)) w₁).1 = .returns .ok ∧
      (ietfInterfaceIpv46AddressChangeCb env .verify
        (.ok (AddrEntry.reported itf .ipv6 false v6)) w₂).1 = .returns .ok := by
    show (∀ o ∈ [_, _, _], o = _) ↔ _
    simp only [List.forall_mem_cons]
    exact ⟨fun h => ⟨h.2.1, h.2.2.1⟩, fun h => ⟨hok₁, h.1, h.2, by simp⟩⟩
  have hkeys : keys = keys₄ ++ keys₆ := List.map_append
  have hdropped : ∀ ks, w₁.om.dropAll ks = w.om.dropAll (itf :: ks) := by
    intro ks
    rw [show w₁.om = _ from hom₁]
    rfl
  rw [hall, afterAll_commit]
  refine ⟨?_, fun h => ?_⟩
  · rw [hkeys, ← hdropped, SharedStore.isSome_dropLast_append, ← hiff₂]
    refine and_congr_right fun h₂ => ?_
    rw [← hdrop₂ h₂]
    exact hiff₃
  · rw [← hdropped, hkeys, SharedStore.dropAll_append, ← hdrop₂ h.1]
    exact hdrop₃ h.2

end Commits

/-! ## The round trip -/

theorem l3Key_ne_name (A : Asio) (itf : String) (p : RoutePrefix) : l3Key A itf p ≠ itf := by
  intro h
  have hlen := congrArg (fun s : String => s.toList.length) h
  simp [l3Key] at hlen
  omega

section RoundTrip

variable {A : Asio} {itf : String} {om om' : Store} {created deleted : List AddrEntry}

theorem mem_keys (hA : A.Lawful) {e : AddrEntry} {es : List AddrEntry} :
    l3Key A itf e.pfx ∈ es.map (fun e => l3Key A itf e.pfx) ↔
      e.pfx ∈ es.map AddrEntry.pfx := by
  simp only [List.mem_map]
  constructor
  · rintro ⟨d, hd, hkey⟩
    exact ⟨d, hd, (ManagedObject.l3Key_inj hA hkey).2⟩
  · rintro ⟨d, hd, hpfx⟩
    exact ⟨d, hd, by rw [hpfx]⟩

theorem dropLast_keys (es : List AddrEntry) :
    (es.map fun e => l3Key A itf e.pfx).dropLast =
      es.dropLast.map fun e => l3Key A itf e.pfx := List.map_dropLast.symm

theorem owner_new (hnew : om.find itf = none) {x : String × ObjRef} (hx : x ∈ om.refs) :
    x.2.itf ≠ some itf :=
  SharedStore.attr_eq_none.mp (Store.find_eq_none.mp hnew) x hx

/-- The interface is alive before the last request if a binding of its own is left. -/
theorem alive_iff (hA : A.Lawful) (hnew : om.find itf = none)
    (h : Created A itf created om om') (ds : List AddrEntry) :
    ((om'.dropAll (itf :: ds.map fun e => l3Key A itf e.pfx)).attr itf).isSome ↔
      ∃ e ∈ created, e.pfx ∉ ds.map AddrEntry.pfx := by
  rw [SharedStore.isSome_dropAll]
  constructor
  · rintro ⟨x, hx, hk, hown⟩
    rw [List.mem_cons, not_or] at hk
    rcases (h.refs x).mp hx with hx | rfl | ⟨e, he, rfl⟩
    · exact (owner_new hnew hx hown).elim
    · exact (hk.1 rfl).elim
    · exact ⟨e, he, fun hm => hk.2 ((mem_keys hA).mpr hm)⟩
  · rintro ⟨e, he, hp⟩
    refine ⟨bindingEntry A itf e, (h.refs _).mpr (.inr (.inr ⟨e, he, rfl⟩)), ?_, rfl⟩
    rw [List.mem_cons, not_or]
    exact ⟨l3Key_ne_name A itf e.pfx, fun hm => hp ((mem_keys hA).mp hm)⟩

/-- Dropping the name and the keys leads back to the first store if they held nothing there
and cover all bindings. -/
theorem dropAll_eq_iff (hA : A.Lawful) (hnew : om.find itf = none)
    (h : Created A itf created om om') :
    om'.dropAll (itf :: deleted.map fun e => l3Key A itf e.pfx) = om ↔
      (∀ x ∈ om.refs, x.1 ≠ itf ∧ ∀ e ∈ deleted, x.1 ≠ l3Key A itf e.pfx) ∧
        ∀ e ∈ created, e.pfx ∈ deleted.map AddrEntry.pfx := by
  have hkey : ∀ x : String × ObjRef,
      x.1 ∉ itf :: deleted.map (fun e => l3Key A itf e.pfx) ↔
        x.1 ≠ itf ∧ ∀ e ∈ deleted, x.1 ≠ l3Key A itf e.pfx := by
    intro x
    simp only [List.mem_cons, List.mem_map, not_or, not_exists, not_and]
    exact and_congr_right fun _ => forall₂_congr fun e _ => ne_comm
  constructor
  · intro heq
    have hmem : ∀ x, x ∈ om.refs ↔ x ∈ om'.refs ∧
        x.1 ∉ itf :: deleted.map (fun e => l3Key A itf e.pfx) := by
      intro x
      rw [← SharedStore.mem_dropAll, heq]
    refine ⟨fun x hx => (hkey x).mp ((hmem x).mp hx).2, fun e he => ?_⟩
    -- a binding that is not covered stays, and the first store had none of this interface
    by_contra hp
    have hx : bindingEntry A itf e ∈ om.refs := by
      rw [hmem, List.mem_cons, not_or]
      exact ⟨(h.refs _).mpr (.inr (.inr ⟨e, he, rfl⟩)), l3Key_ne_name A itf e.pfx,
        fun hm => hp ((mem_keys hA).mp hm)⟩
    exact owner_new hnew hx rfl
  · rintro ⟨hunheld, hcovered⟩
    have hrefs : (om'.dropAll (itf :: deleted.map fun e => l3Key A itf e.pfx)).refs = om.refs := by
      ext x
      rw [SharedStore.mem_dropAll, h.refs]
      constructor
      · rintro ⟨hx | rfl | ⟨e, he, rfl⟩, hk⟩
        · exact hx
        · exact absurd List.mem_cons_self hk
        · exact absurd (List.mem_cons_of_mem _ ((mem_keys hA).mpr (hcovered e he))) hk
      · intro hx
        exact ⟨.inl hx, (hkey x).mpr (hunheld x hx)⟩
    apply SharedStore.eq_of_refs hrefs
    intro m a ha
    by_cases hm : m = itf
    · have hnone := SharedStore.attr_eq_none.mp (Store.find_eq_none.mp hnew)
      rw [← hrefs] at hnone
      rw [hm, SharedStore.attr_eq_none.mpr hnone] at ha
      cases ha
    · rw [← h.attr m hm]
      exact SharedStore.dropAll_attr_eq_some ha

end RoundTrip

theorem outcomes_append (env : Env) (ds ds' : List Delivery) (w : World) :
    outcomes env (ds ++ ds') w = outcomes env ds w ++ outcomes env ds' (w.afterAll env ds) := by
  induction ds generalizing w with
  | nil => rfl
  | cons d ds ih => exact congrArg _ (ih (d.run env w).2)

theorem afterAll_append (env : Env) (ds ds' : List Delivery) (w : World) :
    w.afterAll env (ds ++ ds') = (w.afterAll env ds).afterAll env ds' := List.foldl_append

/-- Creating an interface with its addresses and then deleting it restores the store if and
only if what is asked for on the way in is undone on the way out. -/
theorem restores_iff (env : Env) (stale stale' : InterfaceStale) (w : World) (itf : String)
    (b : Bool) (c4 c6 d4 d6 : List AddrEntry) (hA : env.asio.Lawful)
    (hhw : ∀ ops, env.hw ops = .ok) (hst : stale'.Cleared) (hnew : w.om.find itf = none)
    (hreads : ∀ e ∈ c4 ++ c6, e.Reads env.asio) (h4 : d4.Perm c4) (h6 : d6.Perm c6) :
    Restores env w itf (c4 ++ c6) (commit stale (.create itf b) c4 c6)
        (commit stale' (.delete itf b) d4 d6) ↔
      Undone env.asio itf w.om (allAsked c4 c6) (allAsked d4 d6) := by
  have hreads' : ∀ e ∈ d4 ++ d6, e.Reads env.asio := fun e he =>
    hreads e ((h4.append h6).mem_iff.mp he)
  by_cases hitf : itf = ""
  · subst hitf
    refine iff_of_false (fun h => ?_) fun h => h.named rfl
    exact interface_unnamed env stale b hnew (h.accepted _ List.mem_cons_self)
  obtain ⟨hok, hcreated⟩ :=
    creation_commit stale b hA hhw hitf hnew hreads
  let w' := w.afterAll env (commit stale (.create itf b) c4 c6)
  have hlive : (w'.om.find itf).isSome := by
    rw [Store.find_isSome, w'.om.live]
    exact ⟨(itf, .interface itf), (hcreated.refs _).mpr (.inr (.inl rfl)), rfl⟩
  obtain ⟨hdeleted, hdropped⟩ := deletion_commit b hA hst hitf hlive hreads'
  have haccepted : (∀ o ∈ outcomes env (commit stale (.create itf b) c4 c6 ++
      commit stale' (.delete itf b) d4 d6) w, o = .returns .ok) ↔
      (allAsked d4 d6 ≠ [] →
        ∃ e ∈ allAsked c4 c6, e.pfx ∉ ((allAsked d4 d6).map AddrEntry.pfx).dropLast) := by
    rw [outcomes_append, List.forall_mem_append, and_iff_right hok, hdeleted, dropLast_keys,
      alive_iff hA hnew hcreated, ← List.map_dropLast]
    simp
  constructor
  · intro h
    have hdel := (haccepted.mp h.accepted)
    have hrestored := h.restored
    rw [outcomes_append, List.forall_mem_append] at haccepted
    rw [afterAll_append, hdropped (haccepted.mpr hdel).2,
      dropAll_eq_iff hA hnew hcreated] at hrestored
    exact ⟨hitf, hrestored.1, hrestored.2, hdel⟩
  · intro h
    have hacc := haccepted.mpr h.alive
    refine ⟨hacc, fun e he => ?_, ?_⟩
    · have hasked : e ∈ allAsked c4 c6 := by
        rcases List.mem_append.mp he with he | he
        · exact List.mem_append_left _ (AddrEntry.mem_asked 0 he)
        · exact List.mem_append_right _ (AddrEntry.mem_asked 0 he)
      exact (hcreated.refs _).mpr (.inr (.inr ⟨e, hasked, rfl⟩))
    · rw [outcomes_append, List.forall_mem_append] at hacc
      rw [afterAll_append, hdropped hacc.2]
      exact (dropAll_eq_iff hA hnew hcreated).mpr ⟨h.unheld, h.covered⟩

/-- `10.0.0.host` with a prefix length. -/
def exampleAddress (text : String) (host plen : UInt8) : AddrEntry := ⟨text, .v4 10 0 0 host, plen⟩

/-- An interface with one address comes and goes without a trace. -/
theorem one_address_restores :
    let e := exampleAddress "10.0.0.1" 1 24
    Restores .accepting (.ofInterfaces []) "loop0" [e]
      (commit (.garbage false false) (.create "loop0" true) [e] [])
      (commit (.garbage false false) (.delete "loop0" true) [e] []) := by
  intro e
  apply (restores_iff .accepting (.garbage false false) (.garbage false false) (.ofInterfaces [])
    "loop0" true [e] [] [e] [] Asio.uncompressed_lawful (fun _ => rfl) ⟨rfl, rfl, rfl⟩ rfl
    ?_ (.refl _) (.refl _)).mpr
  · constructor
    · decide
    · exact fun x hx => absurd hx (Finset.notMem_empty x)
    · decide
    · decide
  · rintro d hd
    obtain rfl : d = e := List.mem_singleton.mp hd
    show Asio.uncompressed.fromString "10.0.0.1" = some (.v4 10 0 0 1)
    decide

/-- Two addresses deleted in the other order leave bindings behind that were never asked for. -/
theorem reversed_deletion_not_restores :
    let e := exampleAddress "10.0.0.1" 1 24
    let d := exampleAddress "10.0.0.2" 2 16
    let create := commit (.garbage false false) (.create "loop0" true) [e, d] []
    let delete := commit (.garbage false false) (.delete "loop0" true) [d, e] []
    (∀ o ∈ outcomes .accepting (create ++ delete) (.ofInterfaces []), o = .returns .ok) ∧
      ¬ Restores .accepting (.ofInterfaces []) "loop0" [e, d] create delete := by
  intro e d create delete
  refine ⟨by decide, fun h => ?_⟩
  have hgone : bindingEntry Env.accepting.asio "loop0" { e with plen := 0 } ∉
      ((World.ofInterfaces []).afterAll .accepting (create ++ delete)).om.refs := by
    rw [h.restored]
    exact Finset.notMem_empty _
  exact hgone (by decide)

end Sweetcomb
