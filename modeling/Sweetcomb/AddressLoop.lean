import Sweetcomb.IetfAddress

/-!
# What the address loop asks for

The local variables of the address loop follow from the change set alone. The loop comes
down to a list of calls of `ipv46_config_add_remove`, and the way it is left, if it is.
-/

namespace Sweetcomb

/-! ## Requests -/

/-- A call of `ipv46_config_add_remove`. -/
structure AddrRequest where
  itf : String
  addr : String
  pfx : UInt8
  add : Bool
deriving DecidableEq, Repr

def AddrRequest.perform (env : Env) (r : AddrRequest) (w : World) : SrErr × World :=
  ipv46ConfigAddRemove env r.itf r.addr r.pfx r.add w

/-- Perform requests one after the other; the last result stands. -/
def performAll (env : Env) (rs : List AddrRequest) (s : SrErr × World) : SrErr × World :=
  rs.foldl (fun s r => r.perform env s.2) s

theorem performAll_append (env : Env) (rs rs' : List AddrRequest) (s : SrErr × World) :
    performAll env (rs ++ rs') s = performAll env rs' (performAll env rs s) :=
  List.foldl_append

namespace AddrLocals

/-- The calls a turn ends with. -/
def requests (l : AddrLocals) (ifName : String) : List AddrRequest :=
  (if l.del && !l.oldAddr.isEmpty then [⟨ifName, l.oldAddr, l.oldPrefix, false⟩] else []) ++
    if l.create && !l.newAddr.isEmpty then [⟨ifName, l.newAddr, l.newPrefix, true⟩] else []

theorem commit_eq (env : Env) (ifName : String) (l : AddrLocals) (w : World) :
    l.commit env ifName w =
      let s := performAll env (l.requests ifName) (l.opRc, w)
      ({ l with opRc := s.1 }, s.2) := by
  simp only [commit, requests, performAll, AddrRequest.perform]
  split_ifs <;> rfl

/-- The requests of a change set, and the way its loop is left, if it is. -/
def pass (A : Asio) (l : AddrLocals) : List Change → List AddrRequest × Option Outcome
  | [] => ([], none)
  | c :: cs =>
    match c.xpath.keyValue "interface" "name" with
    | none => ([], some (.faults .nullString))
    | some ifName =>
      if ifName.isEmpty then ([], some (.returns .operationFailed))
      else match l.parse A c with
        | .error f => ([], some (.faults f))
        | .ok l => (l.requests ifName ++ (l.pass A cs).1, (l.pass A cs).2)

/-! ## The result plays no part -/

/-- The same variables with another result. -/
def setRc (rc : SrErr) (l : AddrLocals) : AddrLocals := { l with opRc := rc }

variable {A : Asio} {l : AddrLocals} (rc : SrErr)

theorem catchThrows_setRc (r : Except Fault AddrLocals) :
    (l.setRc rc).catchThrows (r.map (setRc rc)) = (l.catchThrows r).map (setRc rc) := by
  cases r with
  | ok l' => rfl
  | error f => cases f <;> rfl

theorem parseNew_setRc (val : Option SrVal) :
    (l.setRc rc).parseNew A val = (l.parseNew A val).map (setRc rc) := by
  unfold parseNew setRc
  cases parseInterfaceIpv46Address A val l.newAddr l.newPrefix <;> rfl

theorem parseOld_setRc (val : Option SrVal) :
    (l.setRc rc).parseOld A val = (l.parseOld A val).map (setRc rc) := by
  unfold parseOld setRc
  cases parseInterfaceIpv46Address A val l.oldAddr l.oldPrefix <;> rfl

/-- An exception while the old value is read leaves the new one unread. -/
theorem parse_modified (old new : SrVal) :
    l.parse A (.modified old new) =
      match { l with create := true, del := true }.parseOld A old with
      | .error .throws => .ok { l with create := true, del := true }
      | .error f => .error f
      | .ok l' => l'.catchThrows (l'.parseNew A new) := rfl

theorem parse_setRc (c : Change) :
    (l.setRc rc).parse A c = (l.parse A c).map (setRc rc) := by
  cases c with
  | created new =>
    let m : AddrLocals := { l with create := true }
    show (m.setRc rc).catchThrows ((m.setRc rc).parseNew A new) = _
    rw [parseNew_setRc, catchThrows_setRc]
    rfl
  | deleted old =>
    let m : AddrLocals := { l with del := true }
    show (m.setRc rc).catchThrows ((m.setRc rc).parseOld A old) = _
    rw [parseOld_setRc, catchThrows_setRc]
    rfl
  | modified old new =>
    let m : AddrLocals := { l with create := true, del := true }
    have hold : { l.setRc rc with create := true, del := true }.parseOld A old =
        (m.parseOld A old).map (setRc rc) := parseOld_setRc (l := m) rc (some old)
    rw [parse_modified, parse_modified, hold]
    show _ = Except.map (setRc rc) _
    cases m.parseOld A old with
    | error f => cases f <;> rfl
    | ok l' =>
      show (l'.setRc rc).catchThrows ((l'.setRc rc).parseNew A new) = _
      rw [parseNew_setRc, catchThrows_setRc]
  | moved old new => rfl

theorem parse_opRc {l' : AddrLocals} {c : Change} (h : l.parse A c = .ok l') :
    l'.opRc = l.opRc := by
  have hset : l.parse A c = (l.parse A c).map (setRc l.opRc) := parse_setRc l.opRc c
  rw [h] at hset
  have heq : l' = l'.setRc l.opRc := Except.ok.inj hset
  rw [heq]
  rfl

theorem pass_setRc (cs : List Change) : (l.setRc rc).pass A cs = l.pass A cs := by
  induction cs generalizing l with
  | nil => rfl
  | cons c cs ih =>
    unfold pass
    rw [parse_setRc]
    cases l.parse A c with
    | error f => rfl
    | ok l' =>
      simp only [Except.map, ih]
      rfl

end AddrLocals

/-! ## One request -/

section Perform

variable {env : Env} {w : World} {itf addr : String} {pfx : UInt8} {i : Interface} {a : Address}

theorem perform_unknown (add : Bool) (hi : w.om.find itf = none) :
    (AddrRequest.mk itf addr pfx add).perform env w = (.invalArg, w) := by
  simp [AddrRequest.perform, ipv46ConfigAddRemove, hi]

theorem perform_malformed (add : Bool) (hi : w.om.find itf = some i)
    (ha : env.asio.fromString addr = none) :
    (AddrRequest.mk itf addr pfx add).perform env w = (.operationFailed, w) := by
  simp [AddrRequest.perform, ipv46ConfigAddRemove, hi, ha]

theorem perform_remove (hi : w.om.find itf = some i) (ha : env.asio.fromString addr = some a) :
    (AddrRequest.mk itf addr pfx false).perform env w =
      (.ok, w.omRemove (l3Key env.asio itf ⟨a, pfx⟩)) := by
  simp [AddrRequest.perform, ipv46ConfigAddRemove, hi, ha, Store.name_of_find hi]

theorem perform_add (hi : w.om.find itf = some i) (ha : env.asio.fromString addr = some a) :
    (AddrRequest.mk itf addr pfx true).perform env w =
      match w.omWrite env (l3Key env.asio itf ⟨a, pfx⟩) (.l3Binding ⟨i, ⟨a, pfx⟩⟩) with
      | (.ok, w) => (.ok, w)
      | (.failed, w) => (.operationFailed, w) := by
  obtain ⟨rc, w', hwrite⟩ : ∃ rc w', w.omWrite env (l3Key env.asio itf ⟨a, pfx⟩)
      (.l3Binding ⟨i, ⟨a, pfx⟩⟩) = (rc, w') := ⟨_, _, rfl⟩
  cases rc <;>
    simp [AddrRequest.perform, ipv46ConfigAddRemove, hi, ha, Store.name_of_find hi, hwrite]

end Perform

/-! ## The loop performs the requests -/

section Loop

variable {env : Env} {w : World} {calls : List SrCall}

theorem perform_withCalls (r : AddrRequest) :
    r.perform env (w.withCalls calls) =
      ((r.perform env w).1, (r.perform env w).2.withCalls calls) := by
  obtain ⟨itf, addr, pfx, add⟩ := r
  cases hi : w.om.find itf with
  | none => rw [perform_unknown add hi, perform_unknown (w := w.withCalls calls) add hi]
  | some i =>
    cases ha : env.asio.fromString addr with
    | none => rw [perform_malformed add hi ha, perform_malformed (w := w.withCalls calls) add hi ha]
    | some a =>
      cases add with
      | false =>
        rw [perform_remove hi ha, perform_remove (w := w.withCalls calls) hi ha]
        rfl
      | true =>
        rw [perform_add hi ha, perform_add (w := w.withCalls calls) hi ha]
        cases h : env.hw (w.ops ++
            [.write (l3Key env.asio itf ⟨a, pfx⟩) (.l3Binding ⟨i, ⟨a, pfx⟩⟩)]) with
        | ok =>
          rw [World.omWrite_ok h, World.omWrite_ok (w := w.withCalls calls) h]
          rfl
        | failed =>
          rw [World.omWrite_failed h, World.omWrite_failed (w := w.withCalls calls) h]
          rfl

theorem performAll_withCalls (rs : List AddrRequest) (rc : SrErr) :
    performAll env rs (rc, w.withCalls calls) =
      ((performAll env rs (rc, w)).1, (performAll env rs (rc, w)).2.withCalls calls) := by
  induction rs generalizing w rc with
  | nil => rfl
  | cons r rs ih =>
    show performAll env rs (r.perform env (w.withCalls calls)) = _
    rw [perform_withCalls, ih]
    rfl

/-- One turn of the loop, as `foreachChange` takes it. -/
def addrTurn (env : Env) (s : AddrLocals × World) (c : Change) :
    Except (Outcome × World) (AddrLocals × World) :=
  addrBody env (s.1, s.2.called .getChangeNext) c

/-- The loop performs the requests of its change set, then it is over or left. -/
theorem addrLoop_post (env : Env) (cs : List Change) (l : AddrLocals) (w : World)
    (calls : List SrCall) :
    EarlyExit.Post
      (fun s => (l.pass env.asio cs).2 = none ∧
        s.1.opRc = (performAll env (l.pass env.asio cs).1 (l.opRc, w)).1 ∧
        ∃ calls, s.2 = (performAll env (l.pass env.asio cs).1 (l.opRc, w)).2.withCalls calls)
      (fun r => (l.pass env.asio cs).2 = some r.1 ∧
        ∃ calls, r.2 = (performAll env (l.pass env.asio cs).1 (l.opRc, w)).2.withCalls calls)
      (cs.foldlM (addrTurn env) (l, w.withCalls calls)) := by
  induction cs generalizing l w calls with
  | nil => exact ⟨rfl, rfl, calls, rfl⟩
  | cons c cs ih =>
    have hstep : addrTurn env (l, w.withCalls calls) c =
        match c.xpath.keyValue "interface" "name" with
        | none => .error (.faults .nullString, w.withCalls (calls ++ [.getChangeNext]))
        | some ifName =>
          if ifName.isEmpty then
            .error (leave .operationFailed (w.withCalls (calls ++ [.getChangeNext])))
          else match l.parse env.asio c with
            | .error f => .error (.faults f, w.withCalls (calls ++ [.getChangeNext]))
            | .ok l' => .ok (l'.commit env ifName (w.withCalls (calls ++ [.getChangeNext]))) := rfl
    unfold AddrLocals.pass
    cases hkey : c.xpath.keyValue "interface" "name" with
    | none =>
      simp only [hkey] at hstep ⊢
      rw [EarlyExit.foldlM_cons_error cs hstep]
      exact ⟨rfl, _, rfl⟩
    | some ifName =>
      simp only [hkey] at hstep ⊢
      by_cases hempty : ifName.isEmpty = true
      · simp only [hempty, if_true] at hstep ⊢
        rw [EarlyExit.foldlM_cons_error cs hstep]
        exact ⟨rfl, _, rfl⟩
      · simp only [hempty, Bool.false_eq_true, if_false] at hstep ⊢
        cases hparse : l.parse env.asio c with
        | error f =>
          simp only [hparse] at hstep ⊢
          rw [EarlyExit.foldlM_cons_error cs hstep]
          exact ⟨rfl, _, rfl⟩
        | ok l' =>
          simp only [hparse, AddrLocals.commit_eq, performAll_withCalls] at hstep ⊢
          -- the turn has performed its requests; the others start from its result
          rw [EarlyExit.foldlM_cons_ok cs hstep, performAll_append,
            ← show l'.opRc = l.opRc from AddrLocals.parse_opRc hparse]
          have htail := ih (l'.setRc (performAll env (l'.requests ifName) (l'.opRc, w)).1)
            (performAll env (l'.requests ifName) (l'.opRc, w)).2 (calls ++ [.getChangeNext])
          rw [AddrLocals.pass_setRc] at htail
          exact htail

/-- The callback at the events it does not ignore. -/
theorem addressCb_eq (env : Env) (w : World) {event : NotifEvent} (hev : event ≠ .apply)
    (habort : event ≠ .abort) (cs : List Change) :
    ietfInterfaceIpv46AddressChangeCb env event (.ok cs) w =
      match cs.foldlM (addrTurn env) ({}, w.called (.getChangesIter .ok)) with
      | .error out => out
      | .ok (l, w) => leave l.opRc (w.called .getChangeNext) := by
  cases h : cs.foldlM (addrTurn env) ({}, w.called (.getChangesIter .ok)) with
  | error out =>
    unfold addrTurn at h
    simp only [ietfInterfaceIpv46AddressChangeCb, hev, if_false, foreachChange, habort, h]
    rfl
  | ok s =>
    unfold addrTurn at h
    simp only [ietfInterfaceIpv46AddressChangeCb, hev, if_false, foreachChange, habort, h]
    rfl

/-- What VOM and sysrepo see of the callback at the events it does not ignore. -/
theorem addr_effect (env : Env) (w : World) {event : NotifEvent} (hev : event ≠ .apply)
    (habort : event ≠ .abort) (cs : List Change) :
    let p := AddrLocals.pass env.asio {} cs
    let s := performAll env p.1 (.ok, w)
    effect (ietfInterfaceIpv46AddressChangeCb env event (.ok cs) w) =
      ⟨p.2.getD (.returns s.1), s.2.ops, s.2.om, s.2.table⟩ := by
  intro p s
  have hpost := addrLoop_post env cs {} w (w.calls ++ [.getChangesIter .ok])
  have hcalled : w.withCalls (w.calls ++ [.getChangesIter .ok]) =
      w.called (.getChangesIter .ok) := rfl
  rw [hcalled] at hpost
  rw [addressCb_eq env w hev habort]
  cases h : cs.foldlM (addrTurn env) ({}, w.called (.getChangesIter .ok)) with
  | error r =>
    rw [h] at hpost
    obtain ⟨hout, calls, hw⟩ := hpost
    simp only [effect, hw, p, hout]
    rfl
  | ok s' =>
    rw [h] at hpost
    obtain ⟨hnone, hrc, calls, hw⟩ := hpost
    simp only [effect_leave, hw, hrc, p, hnone]
    rfl

end Loop

end Sweetcomb
