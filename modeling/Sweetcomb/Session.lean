import Sweetcomb.Sysrepo
import Sweetcomb.SysUtil
import Sweetcomb.Vom
import Sweetcomb.Lib.EarlyExit

/-!
# The world a callback runs in

A callback reads and changes the VOM store and the NAT table; what it asks of VOM and
of sysrepo is recorded on the way. Boost and the answers of VPP are parameters.
-/

namespace Sweetcomb

/-- `VOM::rc_t`, which the plugins only compare with `rc_t::OK`. -/
inductive RcT
  | ok | failed
deriving DecidableEq, Repr

/-- A call of `OM::write` or `OM::remove`. -/
inductive OmOp
  | write (key : String) (obj : VomObj)
  | remove (key : String)
deriving DecidableEq, Repr

def OmOp.key : OmOp → String
  | write key _ => key
  | remove key => key

/-- `nat_table_t`: mapping entry index to internal and external address. -/
abbrev NatTable := UInt32 → Option (Address × Address)

/-- The text conversions of Boost, and what `OM::write` returns as the last of the
operations issued so far. -/
structure Env where
  asio : Asio
  hw : List OmOp → RcT

/-- Uncompressed address texts, and a VPP that accepts every write. -/
def Env.accepting : Env where
  asio := .uncompressed
  hw _ := .ok

structure World where
  om : Store
  table : NatTable
  ops : List OmOp := []
  calls : List SrCall := []

/-- Nothing is configured but these interfaces. -/
def World.ofInterfaces (is : List Interface) : World where
  om := is.foldl (fun s i => s.write i.name (.interface i)) .empty
  table _ := none

/-- How a callback ends. -/
inductive Outcome
  | returns (rc : SrErr)
  | faults (f : Fault)
deriving DecidableEq, Repr

namespace World

def called (w : World) (c : SrCall) : World := { w with calls := w.calls ++ [c] }

/-- The same world with another record of sysrepo calls. -/
def withCalls (w : World) (calls : List SrCall) : World := { w with calls }

/-- `OM::write(key, obj)`: a failed write changes nothing. -/
def omWrite (w : World) (env : Env) (key : String) (obj : VomObj) : RcT × World :=
  let ops := w.ops ++ [.write key obj]
  match env.hw ops with
  | .ok => (.ok, { w with om := w.om.write key obj, ops })
  | .failed => (.failed, { w with ops })

/-- `OM::remove(key)`. -/
def omRemove (w : World) (key : String) : World :=
  { w with om := w.om.remove key, ops := w.ops ++ [.remove key] }

/-- `intf->set(state)` on the interface found under `name`. -/
def setState (w : World) (name : String) (state : Bool) : World :=
  { w with om := w.om.setState name state }

variable {w : World} {c : SrCall} {key : String}

@[simp] theorem called_om : (w.called c).om = w.om := rfl
@[simp] theorem called_table : (w.called c).table = w.table := rfl
@[simp] theorem called_ops : (w.called c).ops = w.ops := rfl
@[simp] theorem omRemove_om : (w.omRemove key).om = w.om.remove key := rfl
@[simp] theorem omRemove_table : (w.omRemove key).table = w.table := rfl
@[simp] theorem omRemove_ops : (w.omRemove key).ops = w.ops ++ [.remove key] := rfl

variable {env : Env} {obj : VomObj}

theorem omWrite_ok (h : env.hw (w.ops ++ [.write key obj]) = .ok) :
    w.omWrite env key obj =
      (.ok, { w with om := w.om.write key obj, ops := w.ops ++ [.write key obj] }) := by
  simp [omWrite, h]

theorem omWrite_failed (h : env.hw (w.ops ++ [.write key obj]) = .failed) :
    w.omWrite env key obj = (.failed, { w with ops := w.ops ++ [.write key obj] }) := by
  simp [omWrite, h]

end World

/-- The `foreach_change` loop over the change set: it ends at once on `SR_EV_ABORT`, else it
asks for the next change until there is none. The body may leave the callback. -/
def foreachChange {σ : Type} (event : NotifEvent)
    (body : σ × World → Change → Except (Outcome × World) (σ × World))
    (changes : List Change) (s : σ × World) : Except (Outcome × World) (σ × World) :=
  if event = .abort then .ok s
  else do
    let (l, w) ← changes.foldlM (fun s c => body (s.1, s.2.called .getChangeNext) c) s
    -- the call that finds no further change
    return (l, w.called .getChangeNext)

/-- `sr_free_change_iter(iter); return rc`, as on most ways out of a callback. -/
def leave (rc : SrErr) (w : World) : Outcome × World :=
  (.returns rc, w.called (.freeChangeIter .live))

/-- A way out of a callback that reports no success and changes nothing. -/
def Refuses (out : World → Outcome × World) : Prop :=
  ∀ w : World, (out w).1 ≠ .returns .ok ∧ ∃ calls, (out w).2 = w.withCalls calls

theorem refuses_fault (f : Fault) : Refuses fun w => (.faults f, w) :=
  fun _ => ⟨Outcome.noConfusion, _, rfl⟩

theorem refuses_leave {rc : SrErr} (hrc : rc ≠ .ok) : Refuses (leave rc) :=
  fun _ => ⟨fun h => hrc (Outcome.returns.inj h), _, rfl⟩

/-- What VOM and sysrepo see of a callback. -/
structure Effect where
  outcome : Outcome
  ops : List OmOp
  om : Store
  table : NatTable

def effect (r : Outcome × World) : Effect := ⟨r.1, r.2.ops, r.2.om, r.2.table⟩

@[simp] theorem effect_leave (rc : SrErr) (w : World) :
    effect (leave rc w) = ⟨.returns rc, w.ops, w.om, w.table⟩ := rfl

end Sweetcomb
