import Sweetcomb.InterfaceLifetime
import Sweetcomb.ScPlugins

/-!
# The order of the callbacks

Sysrepo calls the subscribers of a commit by their priorities: the interface callback before
the address callbacks. This is the order a creation needs. A deletion needs the reverse.
-/

namespace Sweetcomb

open AddrEntry (asked request)

section Order

variable {env : Env} {stale : InterfaceStale} {w : World} {itf : String} {b : Bool}
  {gs : List (IpFamily × List AddrEntry)}

/-! ## Address lists one after the other -/

end Order

theorem reads_exampleAddress : (exampleAddress "10.0.0.1" 1 24).Reads Env.accepting.asio := by
  show Asio.uncompressed.fromString "10.0.0.1" = some (.v4 10 0 0 1)
  decide

def Subscription.priority : Subscription → Option ℕ
  | .subtreeChange _ priority => some priority
  | .dpGetItems _ => none

/-- The VERIFY calls of a commit, with the priorities that `ietf_interface_init` asks for. -/
def prioritized (stale : InterfaceStale) (e : InterfaceEntry) (v4 v6 : List AddrEntry) :
    List (ℕ × Delivery) := (ietfInterfaceInit.filterMap Subscription.priority).zip
  (commit stale e v4 v6)

/-- The priorities leave one order. -/
theorem eq_commit_of_sorted {stale : InterfaceStale} {e : InterfaceEntry} {v4 v6 : List AddrEntry}
    {l : List (ℕ × Delivery)} (hperm : l.Perm (prioritized stale e v4 v6))
    (hsorted : l.Pairwise fun x y => y.1 ≤ x.1) : l.map Prod.snd = commit stale e v4 v6 := by
  have hdescending : (prioritized stale e v4 v6).Pairwise fun x y => y.1 ≤ x.1 := by
    simp [prioritized, ietfInterfaceInit, Subscription.priority, commit]
  have hapart : ((prioritized stale e v4 v6).map Prod.fst).Nodup := by
    show [100, 99, 98].Nodup
    decide
  have heq : l = prioritized stale e v4 v6 := by
    refine hperm.eq_of_pairwise (fun x y hx hy hyx hxy => ?_) hsorted hdescending
    exact List.inj_on_of_nodup_map hapart (hperm.subset hx) hy (Nat.le_antisymm hxy hyx)
  rw [heq]
  rfl

/-- Whatever order sysrepo chooses within the priorities, a creation is accepted, and all its
addresses are bound. -/
theorem creation_by_priority (env : Env) (stale : InterfaceStale) (w : World) (itf : String)
    (b : Bool) (v4 v6 : List AddrEntry) (l : List (ℕ × Delivery)) (hA : env.asio.Lawful)
    (hhw : ∀ ops, env.hw ops = .ok) (hitf : itf ≠ "") (hnew : w.om.find itf = none)
    (hreads : ∀ e ∈ v4 ++ v6, e.Reads env.asio)
    (hperm : l.Perm (prioritized stale (.create itf b) v4 v6))
    (hsorted : l.Pairwise fun x y => y.1 ≤ x.1) :
    (∀ o ∈ outcomes env (l.map Prod.snd) w, o = .returns .ok) ∧
      Created env.asio itf (allAsked v4 v6) w.om (w.afterAll env (l.map Prod.snd)).om := by
  rw [eq_commit_of_sorted hperm hsorted]
  exact creation_commit stale b hA hhw hitf hnew hreads

theorem created_by_priority :
    let e := exampleAddress "10.0.0.1" 1 24
    let l := prioritized (.garbage false false) (.create "loop0" true) [e] []
    (∀ o ∈ outcomes .accepting (l.map Prod.snd) (.ofInterfaces []), o = .returns .ok) ∧
      bindingEntry Env.accepting.asio "loop0" e ∈
        ((World.ofInterfaces []).afterAll .accepting (l.map Prod.snd)).om.refs := by
  intro e l
  obtain ⟨hok, hcreated⟩ := creation_by_priority .accepting (.garbage false false)
    (.ofInterfaces []) "loop0" true [e] [] l Asio.uncompressed_lawful (fun _ => rfl) (by decide) rfl
    (List.forall_mem_singleton.mpr reads_exampleAddress) (.refl _)
    (by simp [l, prioritized, ietfInterfaceInit, Subscription.priority, commit])
  exact ⟨hok, (hcreated.refs _).mpr (.inr (.inr ⟨e, by decide, rfl⟩))⟩

end Sweetcomb
