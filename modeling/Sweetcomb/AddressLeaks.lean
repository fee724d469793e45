import Sweetcomb.AddressEntries

/-!
# Addresses of one interface asked for on another

The loop reads the name of the interface at every change, but holds on to the last address
it was given. After an entry of one interface it still asks for the address created last and
for the removal of the address deleted last, whatever interfaces these were for.
-/

namespace Sweetcomb

namespace AddrChange

/-- Some change of the set is about this address of this interface. -/
def Names (es : List AddrChange) (n : String) (a : Address) : Prop :=
  ∃ e ∈ es, e.itf = n ∧ e.address = a

instance (es : List AddrChange) (n : String) (a : Address) : Decidable (Names es n a) :=
  inferInstanceAs (Decidable (∃ e ∈ es, e.itf = n ∧ e.address = a))

/-- At every entry of an interface of the store, the address created last and the address
deleted last are addresses that are changed on this interface, too. -/
def OwnAddresses (om : Store) (es : List AddrChange) : Prop :=
  ∀ p ∈ (named es).inits, ∀ e ∈ p.getLast?, (om.find e.itf).isSome →
    ∀ add, ∀ d ∈ last add p, Names es e.itf d.address

instance (om : Store) (es : List AddrChange) : Decidable (OwnAddresses om es) :=
  inferInstanceAs (Decidable (∀ p ∈ (named es).inits, ∀ e ∈ p.getLast?,
    (om.find e.itf).isSome → ∀ add, ∀ d ∈ last add p, Names es e.itf d.address))

variable {es : List AddrChange}

theorem mem_of_mem_inits {p : List AddrChange} {e : AddrChange} (hp : p ∈ (named es).inits)
    (he : e ∈ p) : e ∈ es :=
  named_subset (((List.mem_inits _ _).mp hp).subset he)

end AddrChange

open AddrChange

/-- Every operation is one on a binding of the change set's own interfaces and addresses. -/
def OwnOps (A : Asio) (es : List AddrChange) (ops : List OmOp) : Prop :=
  ∀ op ∈ ops, ∃ b : String × RoutePrefix, op.key = l3Key A b.1 b.2 ∧ Names es b.1 b.2.address

section Callback

variable {env : Env} {w : World} {es : List AddrChange}

/-- Nothing leaks when every address held is one of the interface it is asked for on. -/
theorem ownOps_of_ownAddresses (hA : env.asio.Lawful) (hes : ∀ e ∈ es, e.Reads env.asio)
    (hown : OwnAddresses w.om es) :
    ∃ ops, (performAll env (allRequests {} (named es)) (.ok, w)).2.ops = w.ops ++ ops ∧
      OwnOps env.asio es ops := by
  obtain ⟨ops, hops, hserve⟩ := AddrRequest.performAll_ops env (allRequests {} (named es)) (.ok, w)
  refine ⟨ops, hops, fun op hop => ?_⟩
  obtain ⟨q, hq, b, hb, hkey, -, hlive⟩ := hserve op hop
  have htext := text_ne_empty hA fun e he => hes e (named_subset he)
  obtain ⟨p, hp, e, he, hitf, d, hd, hdtext⟩ := (request_iff htext).mp ⟨q, hq, rfl, rfl, rfl⟩
  have hread := hes d (mem_of_mem_inits hp (mem_of_last hd).1)
  rw [binding_of_text hread hdtext.symm] at hb
  obtain rfl := Option.some.inj hb
  refine ⟨_, hkey, ?_⟩
  show Names es q.itf d.address
  rw [← hitf] at hlive ⊢
  exact hown p hp e he hlive _ d hd

/-- An address held for another interface is asked for, and the request is served. -/
theorem ownAddresses_of_ownOps (hA : env.asio.Lawful) (hes : ∀ e ∈ es, e.Reads env.asio)
    (hheld : ∀ e ∈ es, (w.om.find e.itf).isSome → w.om.HoldsApart env.asio e.itf)
    {ops : List OmOp}
    (hops : (performAll env (allRequests {} (named es)) (.ok, w)).2.ops = w.ops ++ ops)
    (hown : OwnOps env.asio es ops) : OwnAddresses w.om es := by
  intro p hp e he hlive add d hd
  have htext := text_ne_empty hA fun e he => hes e (named_subset he)
  obtain ⟨q, hq, hitf, haddr, -⟩ : ∃ q ∈ allRequests {} (named es),
      q.itf = e.itf ∧ q.addr = d.text ∧ q.add = add :=
    (request_iff htext).mpr ⟨p, hp, e, he, rfl, d, hd, rfl⟩
  have hread := hes d (mem_of_mem_inits hp (mem_of_last hd).1)
  have hlast : e ∈ p := List.mem_of_getLast? he
  have happ : w.om.HoldsApart env.asio q.itf := hitf ▸ hheld e (mem_of_mem_inits hp hlast) hlive
  obtain ⟨ops', hops', op, hop, hkey⟩ := AddrRequest.performAll_served (s := (.ok, w)) hq happ
    (binding_of_text hread haddr)
  obtain rfl : ops = ops' := List.append_cancel_left (hops.symm.trans hops')
  -- the operation is on a binding that the change set names
  obtain ⟨b, hkey', hnames⟩ := hown op hop
  obtain ⟨hitf', hpfx⟩ := ManagedObject.l3Key_inj hA (hkey.symm.trans hkey')
  rw [← hitf', ← hpfx, hitf] at hnames
  exact hnames

/-- Operations stay with the interfaces that name their addresses when every address held is
named by the interface it is asked for on; and for interfaces that do not live by their
bindings alone, only then. -/
theorem no_leak_iff (env : Env) (w : World) (es : List AddrChange) (hA : env.asio.Lawful)
    (hes : ∀ e ∈ es, e.Reads env.asio) :
    let r := effect (ietfInterfaceIpv46AddressChangeCb env .verify (.ok (reported es)) w)
    let noLeak := ∃ ops, r.ops = w.ops ++ ops ∧ OwnOps env.asio es ops
    (OwnAddresses w.om es → noLeak) ∧
      ((∀ e ∈ es, (w.om.find e.itf).isSome → w.om.HoldsApart env.asio e.itf) →
        (noLeak ↔ OwnAddresses w.om es)) := by
  intro r noLeak
  have hr : r.ops = _ := congrArg Effect.ops (reported_effect env w hes)
  have hsuff : OwnAddresses w.om es → noLeak := by
    intro hown
    obtain ⟨ops, hops, h⟩ := ownOps_of_ownAddresses hA hes hown
    exact ⟨ops, hr.trans hops, h⟩
  refine ⟨hsuff, fun hheld => ⟨?_, hsuff⟩⟩
  rintro ⟨ops, hops, h⟩
  exact ownAddresses_of_ownOps hA hes hheld (hr.symm.trans hops) h

end Callback

/-- The store of two interfaces. -/
def twoLoops : World :=
  World.ofInterfaces [⟨"loop0", "ETHERNET", true⟩, ⟨"loop1", "ETHERNET", true⟩]

/-- Addresses that are all created do not leak. -/
theorem additions_no_leak :
    let es := [hostAddress "loop0" 1 (.created (.prefixLength 24)),
      hostAddress "loop1" 2 (.created (.prefixLength 24))]
    let r := effect (ietfInterfaceIpv46AddressChangeCb .accepting .verify (.ok (reported es))
      twoLoops)
    ∃ ops, r.ops = twoLoops.ops ++ ops ∧ OwnOps Env.accepting.asio es ops :=
  (no_leak_iff .accepting twoLoops _ Asio.uncompressed_lawful
    (by simp [EntryOp.Reads, Subnet.Reads])).1 (by decide)

theorem twoLoops_holdsApart (n : String) (hn : n = "loop0" ∨ n = "loop1") :
    twoLoops.om.HoldsApart Env.accepting.asio n := by
  have hapart : ∀ b : String × RoutePrefix, n ≠ l3Key Env.accepting.asio b.1 b.2 := by
    intro b h
    have hl := congrArg String.toList h
    rcases hn with rfl | rfl <;> simp [l3Key] at hl
  refine ⟨(n, .interface n), ?_, rfl, hapart⟩
  rcases hn with rfl | rfl <;> decide

/-- An address of loop0, and one that is deleted on loop1. -/
def createdThenDeleted : List AddrChange :=
  [hostAddress "loop0" 1 (.created (.prefixLength 24)),
    hostAddress "loop1" 2 (.deleted (.prefixLength 24))]

/-- 10.0.0.1 is created on loop0, and added to loop1 when another address is deleted there. -/
theorem address_leaks : ¬ ∀ (env : Env) (w : World) (es : List AddrChange), env.asio.Lawful →
    (∀ e ∈ es, e.Reads env.asio) →
    let r := effect (ietfInterfaceIpv46AddressChangeCb env .verify (.ok (reported es)) w)
    ∃ ops, r.ops = w.ops ++ ops ∧ OwnOps env.asio es ops := by
  intro h
  have hreads : ∀ e ∈ createdThenDeleted, e.Reads Env.accepting.asio := by
    simp [createdThenDeleted, EntryOp.Reads, Subnet.Reads]
  obtain ⟨ops, hops, hown⟩ := h .accepting twoLoops _ Asio.uncompressed_lawful hreads
  rw [reported_effect .accepting twoLoops hreads] at hops
  have hheld : ∀ e ∈ createdThenDeleted, (twoLoops.om.find e.itf).isSome →
      twoLoops.om.HoldsApart Env.accepting.asio e.itf := by
    intro e he _
    apply twoLoops_holdsApart
    rcases List.mem_pair.mp he with rfl | rfl
    · exact .inl rfl
    · exact .inr rfl
  have hnamed := ownAddresses_of_ownOps Asio.uncompressed_lawful hreads hheld hops hown
  revert hnamed
  decide

end Sweetcomb
