import Sweetcomb.AddressEntries

/-!
# Changing the subnet of an address

The key leaf `ip` does not change with the subnet, so it is not reported. The loop takes the
address from the `ip` leaf alone: it asks for the addresses of other entries, or for none.
-/

namespace Sweetcomb

open AddrChange

/-- The subnet of an entry is changed, among changes of other addresses of its interface. -/
structure SubnetChange (A : Asio) (e : AddrChange) (others : List AddrChange) : Prop where
  kept : e.op.whole = none
  reads : e.Reads A
  others_read : ∀ d ∈ others, d.Reads A
  itf : ∀ d ∈ others, d.itf = e.itf
  address : ∀ d ∈ others, d.address ≠ e.address

/-- The operations that a change set asks for on its interface. -/
def opsAskedFor (A : Asio) (i : Interface) (es : List AddrChange) : List OmOp :=
  (allRequests {} es).filterMap (AddrRequest.op A i)

/-- What VOM and sysrepo see of the callback when some entries are changed. -/
def afterChange (env : Env) (w : World) (es : List AddrChange) : Effect :=
  effect (ietfInterfaceIpv46AddressChangeCb env .verify (.ok (reported es)) w)

/-- After `SR_ERR_OK` the address of `e` has its new length `q` and not its old one `p`, and
the other addresses of the interface are as they would be without this change. -/
def SubnetMoves (env : Env) (w : World) (pre post : List AddrChange) (e : AddrChange)
    (p q : UInt8) : Prop :=
  let r := afterChange env w (pre ++ e :: post)
  let r' := afterChange env w (pre ++ post)
  r.outcome = .returns .ok →
    (e.itf, ⟨e.address, q⟩) ∈ r.om.bindings env.asio ∧
    (e.itf, ⟨e.address, p⟩) ∉ r.om.bindings env.asio ∧
    ∀ a n, a ≠ e.address → ((e.itf, ⟨a, n⟩) ∈ r.om.bindings env.asio ↔
      (e.itf, ⟨a, n⟩) ∈ r'.om.bindings env.asio)

section Callback

variable {env : Env} {w : World} {pre post : List AddrChange} {e : AddrChange} {p : UInt8}

theorem SubnetChange.mem {A : Asio} (h : SubnetChange A e (pre ++ post)) {d : AddrChange}
    (hd : d ∈ pre ++ e :: post) : d.Reads A ∧ d.itf = e.itf := by
  rw [List.mem_append, List.mem_cons, or_left_comm, ← List.mem_append] at hd
  rcases hd with rfl | hd
  · exact ⟨h.reads, rfl⟩
  · exact ⟨h.others_read d hd, h.itf d hd⟩

/-- Nothing is asked for about the address itself. -/
theorem SubnetChange.spares (hA : env.asio.Lawful) (h : SubnetChange env.asio e (pre ++ post)) :
    AddrRequest.Spares env.asio e.itf
      (l3Key env.asio e.itf ⟨e.address, p⟩, .l3Binding e.itf ⟨e.address, p⟩)
      (allRequests {} (pre ++ e :: post)) := by
  have hread : ∀ d ∈ pre ++ e :: post, d.Reads env.asio := fun d hd => (h.mem hd).1
  have hbinding : ∀ q ∈ allRequests {} (pre ++ e :: post), ∃ d ∈ pre ++ post,
      q.itf = e.itf ∧ q.binding env.asio = some (q.itf, ⟨d.address, q.pfx⟩) := by
    intro q hq
    obtain ⟨⟨c, hc, hitf⟩, d, hd, hop, haddr⟩ := of_mem_allRequests (text_ne_empty hA hread) hq
    have hbind := binding_of_text (hread d hd) haddr
    rw [List.mem_append, List.mem_cons, or_left_comm, ← List.mem_append] at hd
    rcases hd with rfl | hd
    · cases h.kept.symm.trans hop
    · exact ⟨d, hd, hitf.trans (h.mem hc).2, hbind⟩
  refine ⟨fun q hq => ?_, fun q hq => ?_, fun q hq b _ hb hkey => ?_⟩
  · obtain ⟨d, -, hitf, -⟩ := hbinding q hq
    exact hitf
  · obtain ⟨d, -, -, hbind⟩ := hbinding q hq
    rw [hbind]
    rfl
  · obtain ⟨d, hd, -, hbind⟩ := hbinding q hq
    obtain rfl := Option.some.inj (hbind.symm.trans hb)
    exact h.address d hd (congrArg RoutePrefix.address (ManagedObject.l3Key_inj hA hkey).2).symm

/-- The result of a change set whose interface has a name: VPP's answer to the last write,
where an address is created. -/
theorem SubnetChange.result (hA : env.asio.Lawful) (h : SubnetChange env.asio e (pre ++ post))
    {i : Interface} (hi : w.om.find e.itf = some i)
    (hp : (e.itf, ⟨e.address, p⟩) ∈ w.om.bindings env.asio) :
    (performAll env (allRequests {} (pre ++ e :: post)) (.ok, w)).1 = .ok ↔
      ((∃ d ∈ pre ++ post, d.op.whole = some true) →
        env.hw (w.ops ++ opsAskedFor env.asio i (pre ++ e :: post)) = .ok) := by
  have hspares := h.spares hA (p := p)
  have htext := text_ne_empty hA fun d hd => (h.mem hd).1
  have hmem : ∀ d, d.op.whole = some true → (d ∈ pre ++ e :: post ↔ d ∈ pre ++ post) := by
    intro d hd
    have hne : d ≠ e := by
      rintro rfl
      cases h.kept.symm.trans hd
    simp [hne]
  by_cases hnew : ∃ d ∈ pre ++ post, d.op.whole = some true
  · obtain ⟨d, hd, hop⟩ := hnew
    have hends := allRequests_ends htext ⟨d, (hmem d hop).mpr hd, hop⟩
    obtain ⟨rs, q, hrs, hadd⟩ := hends
    rw [opsAskedFor]
    rw [hrs] at hspares ⊢
    rw [AddrRequest.performAll_result (s := (.ok, w)) hi hp rfl hspares]
    exact ⟨fun hw _ => hw hadd, fun hw _ => hw ⟨d, hd, hop⟩⟩
  -- without one, all requests are removals
  · refine iff_of_true ?_ fun hex => absurd hex hnew
    rcases List.eq_nil_or_concat (allRequests {} (pre ++ e :: post)) with hnil | ⟨rs, q, hrs⟩
    · rw [hnil]
      rfl
    · rw [List.concat_eq_append] at hrs
      have hq : q ∈ allRequests {} (pre ++ e :: post) := by simp [hrs]
      obtain ⟨-, d, hd, hop, -⟩ := of_mem_allRequests htext hq
      rw [hrs] at hspares ⊢
      rw [AddrRequest.performAll_result (s := (.ok, w)) hi hp rfl hspares]
      intro hadd
      rw [hadd] at hop
      exact absurd ⟨d, (hmem d hop).mp hd, hop⟩ hnew

/-- The change of a subnet takes effect in no run that returns `SR_ERR_OK`, whatever the old
length `p` and the new length `q` are: the old binding stays. So it is as good as claimed
exactly where the callback refuses: where the interface has no name, or where an address is
created and VPP does not accept the last write. -/
theorem subnet_change_iff (env : Env) (w : World) (pre post : List AddrChange) (e : AddrChange)
    (p q : UInt8) (hA : env.asio.Lawful) (h : SubnetChange env.asio e (pre ++ post))
    (hp : (e.itf, ⟨e.address, p⟩) ∈ w.om.bindings env.asio) :
    SubnetMoves env w pre post e p q ↔
    e.itf = "" ∨ (∃ d ∈ pre ++ post, d.op.whole = some true) ∧
      ∃ i, w.om.find e.itf = some i ∧
        env.hw (w.ops ++ opsAskedFor env.asio i (pre ++ e :: post)) ≠ .ok := by
  let es := pre ++ e :: post
  simp only [SubnetMoves]
  generalize hrun : afterChange env w (pre ++ e :: post) = r
  have hread : ∀ d ∈ es, d.Reads env.asio := fun d hd => (h.mem hd).1
  have hr : r = _ := hrun.symm.trans (reported_effect env w hread)
  by_cases hname : e.itf = ""
  · refine iff_of_true (fun hok => ?_) (.inl hname)
    rw [hr, if_neg fun hall => hall e (by simp) hname] at hok
    cases hok
  · have hall : ∀ d ∈ es, d.itf ≠ "" := fun d hd => (h.mem hd).2 ▸ hname
    rw [named_eq_self hall, if_pos hall] at hr
    obtain ⟨i, hi⟩ := Option.isSome_iff_exists.mp
      (Option.isSome_iff_ne_none.mpr fun hnone => AddrRequest.not_mem_of_find hnone hp)
    have houtcome : r.outcome = .returns .ok ↔
        (performAll env (allRequests {} es) (.ok, w)).1 = .ok := by
      rw [hr, Outcome.returns.injEq]
    have hresult := houtcome.trans (h.result hA hi hp)
    -- the old binding is left alone, so that nothing is as claimed after SR_ERR_OK
    have hstays : (e.itf, ⟨e.address, p⟩) ∈ r.om.bindings env.asio := by
      rw [hr]
      exact AddrRequest.mem_performAll (s := (.ok, w)) hp (h.spares hA).key
    constructor
    · intro himp
      have hrefused : ¬ r.outcome = .returns .ok := fun hok => (himp hok).2.1 hstays
      rw [hresult, Classical.not_imp] at hrefused
      exact .inr ⟨hrefused.1, i, hi, hrefused.2⟩
    · rintro (hempty | ⟨hnew, j, hj, hw⟩) hok
      · exact absurd hempty hname
      · obtain rfl := Option.some.inj (hi.symm.trans hj)
        exact absurd (hresult.mp hok hnew) hw

end Callback

/-- loop0 with the address 10.0.0.1/24. -/
def boundLoop : World where
  table _ := none
  om := (World.ofInterfaces [⟨"loop0", "ETHERNET", true⟩]).om.write
    (l3Key .uncompressed "loop0" ⟨.v4 10 0 0 1, 24⟩)
    (.l3Binding ⟨⟨"loop0", "ETHERNET", true⟩, ⟨.v4 10 0 0 1, 24⟩⟩)

/-- The /24 of 10.0.0.1 becomes a /16. -/
def widened : AddrChange :=
  hostAddress "loop0" 1 (.modified (.prefixLength 24) (.prefixLength 16))

theorem widened_change {others : List AddrChange} (hread : ∀ d ∈ others, d.Reads Env.accepting.asio)
    (hitf : ∀ d ∈ others, d.itf = "loop0") (haddr : ∀ d ∈ others, d.address ≠ .v4 10 0 0 1) :
    SubnetChange Env.accepting.asio widened others where
  kept := rfl
  reads := hostAddress_reads.mpr ⟨trivial, trivial⟩
  others_read := hread
  itf := hitf
  address := haddr

/-- VPP refuses the other address of the change set, and the callback reports it. -/
theorem widened_refused :
    SubnetMoves { Env.accepting with hw := fun _ => .failed } boundLoop
      [hostAddress "loop0" 2 (.created (.prefixLength 24))] [] widened 24 16 :=
  (subnet_change_iff { Env.accepting with hw := fun _ => .failed } boundLoop
    [hostAddress "loop0" 2 (.created (.prefixLength 24))] [] widened 24 16
    Asio.uncompressed_lawful
    (widened_change (by simp [EntryOp.Reads, Subnet.Reads]) (by decide) (by decide))
    (by decide)).mpr (.inr ⟨by decide, _, rfl, by decide⟩)

/-- 10.0.0.1 keeps its /24, and the callback returns `SR_ERR_OK`. -/
theorem widened_without_effect : ¬ ∀ (env : Env) (w : World) (pre post : List AddrChange)
    (e : AddrChange) (p q : UInt8), env.asio.Lawful → SubnetChange env.asio e (pre ++ post) →
    e.op = .modified (.prefixLength p) (.prefixLength q) →
    (e.itf, ⟨e.address, p⟩) ∈ w.om.bindings env.asio → SubnetMoves env w pre post e p q := by
  intro h
  have hmoved := h .accepting boundLoop [] [] widened 24 16 Asio.uncompressed_lawful
    (widened_change (by simp) (by simp) (by simp)) rfl (by decide) (by decide)
  exact hmoved.2.1 (by decide)

end Sweetcomb
