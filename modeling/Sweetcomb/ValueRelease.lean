import Sweetcomb.IteratorRelease

/-!
# The values of the changes

Each `sr_get_change_next` hands over an old and a new value, which the callback owns. A turn of
the loop frees both at its end, and the label `nothing_todo`, or `error`, frees what the two
variables point to. After the loop these may still be the values of the last turn.
-/

namespace Sweetcomb

/-- `sr_val_t *`: null, or a value of the change that came in this turn. -/
inductive ValPtr
  | null | oldVal (turn : ℕ) | newVal (turn : ℕ)
deriving DecidableEq, Repr

/-- The value that is pointed to, if any. -/
def ValPtr.toList : ValPtr → List ValPtr
  | .null => []
  | p => [p]

def Change.oldVal : Change → Option SrVal
  | created _ => none
  | modified old _ => some old
  | deleted old => some old
  | moved old _ => old

/-- The two variables of the loop, with the values handed over and those freed so far. -/
structure Values where
  old : ValPtr := .null
  new : ValPtr := .null
  turn : ℕ := 0
  handed : List ValPtr := []
  freed : List ValPtr := []
deriving DecidableEq, Repr

namespace Values

def held (m : Values) : List ValPtr := m.old.toList ++ m.new.toList

/-- `sr_get_change_next`, when it finds a change. -/
def next (m : Values) (c : Change) : Values :=
  let old := if c.oldVal.isSome then .oldVal m.turn else .null
  let new := if c.newVal.isSome then .newVal m.turn else .null
  { m with old, new, turn := m.turn + 1, handed := m.handed ++ (old.toList ++ new.toList) }

/-- `sr_get_change_next`, when there is none: it leaves the variables, or clears them. -/
def last (clears : Bool) (m : Values) : Values :=
  if clears then { m with old := .null, new := .null } else m

/-- `sr_free_val`, to which a null pointer is nothing. -/
def free (m : Values) (p : ValPtr) : Values := { m with freed := m.freed ++ p.toList }

def freeBoth (m : Values) : Values := (m.free m.old).free m.new

/-- Every value handed over has been freed, and none twice. -/
structure FreedOnce (m : Values) : Prop where
  freed : m.freed.Perm m.handed
  nodup : m.handed.Nodup

end Values

/-- How a callback ends, and whether it goes through the label that frees the variables. -/
structure WayOut where
  result : Outcome × World
  label : Bool

section Run

variable {σ : Type}

/-- A turn of the loop, on the values. -/
def valuesTurn (body : σ × World → Change → Except WayOut (σ × World))
    (s : (σ × World) × Values) (c : Change) :
    Except (WayOut × Values) ((σ × World) × Values) :=
  let m := s.2.next c
  match body (s.1.1, s.1.2.called .getChangeNext) c with
  | .error e => .error (e, if e.label then m.freeBoth else m)
  | .ok s => .ok (s, m.freeBoth)

/-- The loop over the changes and what follows it, on the values. -/
def valuesRun (event : NotifEvent) (clears : Bool)
    (body : σ × World → Change → Except WayOut (σ × World)) (finish : σ × World → WayOut)
    (cs : List Change) (s : σ × World) : WayOut × Values :=
  let loop : Except (WayOut × Values) ((σ × World) × Values) :=
    if event = .abort then .ok (s, {})
    else do
      let (s, m) ← cs.foldlM (valuesTurn body) (s, {})
      return ((s.1, s.2.called .getChangeNext), m.last clears)
  match loop with
  | .error r => r
  | .ok (s, m) =>
    let e := finish s
    (e, if e.label then m.freeBoth else m)

end Run

/-- Every `return` in the loop stands after the label; an exception passes it by. -/
def viaLabel (r : Outcome × World) : WayOut where
  result := r
  label := match r.1 with
    | .returns _ => true
    | .faults _ => false

/-- After the loop, only the errors go through the label. -/
def errorViaLabel (r : Outcome × World) : WayOut where
  result := r
  label := match r.1 with
    | .returns rc => decide (rc ≠ .ok)
    | .faults _ => false

/-- A body of which every `return` goes through the label. -/
def labelled {σ : Type} (body : σ × World → Change → Except (Outcome × World) (σ × World))
    (s : σ × World) (c : Change) : Except WayOut (σ × World) :=
  (body s c).mapError viaLabel

/-- The name check of the openconfig loop returns at once. -/
def ocLabelled (s : InterfaceLocals × World) (c : Change) :
    Except WayOut (InterfaceLocals × World) :=
  match ocNameCheck c with
  | some out => .error ⟨out s.2, false⟩
  | none => labelled interfaceSwitch s c

/-- The callbacks on a change set, with the values they own. -/
def Callback.loopValues (env : Env) (clears : Bool) (event : NotifEvent) (cs : List Change)
    (w : World) : Callback → WayOut × Values
  | ietfInterfaceCreate stale =>
    valuesRun event clears (labelled interfaceSwitch)
      (fun s => errorViaLabel (interfaceCommit env s.1 s.2)) cs
      (.init stale, w.called (.getChangesIter .ok))
  | ietfInterfaceIpv46AddressChange =>
    -- op_rc is returned past the label, whatever it is
    valuesRun event clears (labelled (addrBody env)) (fun s => ⟨leave s.1.opRc s.2, false⟩) cs
      ({}, w.called (.getChangesIter .ok))
  | ocInterfacesConfig stale =>
    valuesRun event clears ocLabelled (fun s => errorViaLabel (interfaceCommit env s.1 s.2)) cs
      (.init stale, w.called (.getChangesIter .ok))
  | natMappingTableConfig stale =>
    valuesRun event clears (labelled (natSwitch env.asio))
      (fun s => errorViaLabel (natCommit env s.1 s.2)) cs
      (.init stale, w.called (.getChangesIter .ok))

/-- Without an iterator, and at the events that are ignored, there are no values. -/
def Callback.runValues (env : Env) (clears : Bool) (event : NotifEvent)
    (changes : Except SrErr (List Change)) (w : World) (cb : Callback) : WayOut × Values :=
  match changes with
  | .error _ => (⟨cb.run env event changes w, false⟩, {})
  | .ok cs =>
    if cb.Active event then cb.loopValues env clears event cs w
    else (⟨cb.run env event changes w, false⟩, {})

/-! ## The values over a loop -/

namespace Values

variable {m : Values} {c : Change}

theorem next_handed (m : Values) (c : Change) :
    (m.next c).handed = m.handed ++ (m.next c).held := rfl

theorem next_freed (m : Values) (c : Change) : (m.next c).freed = m.freed := rfl

theorem freeBoth_freed (m : Values) : m.freeBoth.freed = m.freed ++ m.held :=
  List.append_assoc ..

theorem freeBoth_handed (m : Values) : m.freeBoth.handed = m.handed := rfl

/-- A change comes with one value at least. -/
theorem next_held_ne_nil (m : Values) (c : Change) : (m.next c).held ≠ [] := by
  cases c <;> simp [next, held, Change.newVal, Change.oldVal, ValPtr.toList]

theorem mem_next_held {p : ValPtr} (hp : p ∈ (m.next c).held) :
    p = .oldVal m.turn ∨ p = .newVal m.turn := by
  simp only [next, held, List.mem_append] at hp
  rcases hp with hp | hp
  · split_ifs at hp
    · exact .inl (List.mem_singleton.mp hp)
    · cases hp
  · split_ifs at hp
    · exact .inr (List.mem_singleton.mp hp)
    · cases hp

theorem next_held_nodup (m : Values) (c : Change) : (m.next c).held.Nodup := by
  simp only [next, held]
  split_ifs <;> simp [ValPtr.toList]

/-- Nothing is owned, and the values to come are new. -/
structure Settled (m : Values) : Prop extends m.FreedOnce where
  past : ∀ p ∈ m.handed, ∃ k < m.turn, p = .oldVal k ∨ p = .newVal k

theorem Settled.next_nodup (hm : m.Settled) (c : Change) : (m.next c).handed.Nodup := by
  rw [next_handed]
  refine hm.nodup.append (next_held_nodup m c) fun p hp hp' => ?_
  obtain ⟨k, hk, hpast⟩ := hm.past p hp
  rcases mem_next_held hp' with rfl | rfl
  · rcases hpast with h | h <;> cases h
    exact absurd hk (lt_irrefl _)
  · rcases hpast with h | h <;> cases h
    exact absurd hk (lt_irrefl _)

theorem Settled.turn (hm : m.Settled) (c : Change) : (m.next c).freeBoth.Settled := by
  refine ⟨⟨?_, hm.next_nodup c⟩, fun p hp => ?_⟩
  · rw [freeBoth_freed, freeBoth_handed, next_freed, next_handed]
    exact hm.freed.append_right _
  · rw [freeBoth_handed, next_handed, List.mem_append] at hp
    rcases hp with hp | hp
    · obtain ⟨k, hk, hpast⟩ := hm.past p hp
      exact ⟨k, hk.trans (Nat.lt_succ_self _), hpast⟩
    · exact ⟨m.turn, Nat.lt_succ_self _, mem_next_held hp⟩

/-- The values of a turn that is left without freeing them are lost. -/
theorem FreedOnce.not_next (hm : m.FreedOnce) (c : Change) : ¬ (m.next c).FreedOnce := by
  intro h
  have hlength := h.freed.length_eq
  rw [next_freed, next_handed, List.length_append, hm.freed.length_eq] at hlength
  exact next_held_ne_nil m c (List.eq_nil_of_length_eq_zero (by omega))

/-- What is freed once more is freed twice. -/
theorem FreedOnce.freeBoth_iff (hm : m.FreedOnce) : m.freeBoth.FreedOnce ↔ m.held = [] := by
  constructor
  · intro h
    have hlength := h.freed.length_eq
    rw [freeBoth_freed, freeBoth_handed, List.length_append, hm.freed.length_eq] at hlength
    exact List.eq_nil_of_length_eq_zero (by omega)
  · intro hnil
    refine ⟨?_, hm.nodup⟩
    rw [freeBoth_freed, hnil, List.append_nil]
    exact hm.freed

theorem last_freedOnce {clears : Bool} : (m.last clears).FreedOnce ↔ m.FreedOnce := by
  unfold last
  split
  · exact ⟨fun h => ⟨h.freed, h.nodup⟩, fun h => ⟨h.freed, h.nodup⟩⟩
  · exact Iff.rfl

theorem last_held {clears : Bool} : (m.last clears).held = [] ↔ clears = true ∨ m.held = [] := by
  unfold last
  cases clears
  · simp
  · simp [held, ValPtr.toList]

theorem freedOnce_none : ({} : Values).FreedOnce := ⟨.nil, .nil⟩

theorem settled_none : ({} : Values).Settled := ⟨freedOnce_none, nofun⟩

end Values

section Loop

variable {σ : Type} {body : σ × World → Change → Except WayOut (σ × World)}
  {finish : σ × World → WayOut} {event : NotifEvent} {clears : Bool}

/-- The changes that leave the loop, and which of them do so through the label. -/
def Leaves (body : σ × World → Change → Except WayOut (σ × World)) (I : σ × World → Prop)
    (rel : Change → Option Bool) : Prop :=
  ∀ s c, I s →
    match rel c with
    | none => ∃ s', body (s.1, s.2.called .getChangeNext) c = .ok s' ∧ I s'
    | some b => ∃ e, body (s.1, s.2.called .getChangeNext) c = .error e ∧ e.label = b

/-- A loop that goes through has freed what it was handed; one that is left has when it is left
through the label. -/
theorem values_loop {I : σ × World → Prop} {rel : Change → Option Bool}
    (hleaves : Leaves body I rel) (cs : List Change) (s : σ × World) (m : Values) (hs : I s)
    (hm : m.Settled) :
    match cs.findSome? rel with
    | none => ∃ s' m', cs.foldlM (valuesTurn body) (s, m) = .ok (s', m') ∧ m'.Settled ∧
        (m'.held = [] ↔ m.held = [] ∧ cs = [])
    | some b => ∃ e m', cs.foldlM (valuesTurn body) (s, m) = .error (e, m') ∧
        (m'.FreedOnce ↔ b = true) := by
  induction cs generalizing s m with
  | nil => exact ⟨s, m, rfl, hm, by simp⟩
  | cons c cs ih =>
    have hturn := hleaves s c hs
    cases hc : rel c with
    | some b =>
      rw [hc] at hturn
      obtain ⟨e, hbody, rfl⟩ := hturn
      have hleft : valuesTurn body (s, m) c =
          .error (e, if e.label then (m.next c).freeBoth else m.next c) := by
        simp only [valuesTurn, hbody]
      rw [List.findSome?_cons, hc, EarlyExit.foldlM_cons_error cs hleft]
      refine ⟨e, _, rfl, ?_⟩
      cases e.label with
      | true => exact iff_of_true (hm.turn c).toFreedOnce rfl
      | false => exact iff_of_false (hm.not_next c) Bool.false_ne_true
    | none =>
      rw [hc] at hturn
      obtain ⟨s', hbody, hs'⟩ := hturn
      have hgoes : valuesTurn body (s, m) c = .ok (s', (m.next c).freeBoth) := by
        simp only [valuesTurn, hbody]
      have hrest := ih s' (m.next c).freeBoth hs' (hm.turn c)
      rw [List.findSome?_cons, hc, EarlyExit.foldlM_cons_ok cs hgoes]
      -- from here on the variables point to values of a turn
      have hheld : (m.next c).freeBoth.held ≠ [] := Values.next_held_ne_nil m c
      simpa [hheld] using hrest

theorem valuesRun_ok (hev : event ≠ .abort) {cs : List Change} {s s' : σ × World} {m : Values}
    (hloop : cs.foldlM (valuesTurn body) (s, {}) = .ok (s', m)) :
    valuesRun event clears body finish cs s =
      (finish (s'.1, s'.2.called .getChangeNext),
        if (finish (s'.1, s'.2.called .getChangeNext)).label then (m.last clears).freeBoth
        else m.last clears) := by
  simp only [valuesRun, if_neg hev, hloop]
  rfl

theorem valuesRun_error (hev : event ≠ .abort) {cs : List Change} {s : σ × World}
    {r : WayOut × Values} (hloop : cs.foldlM (valuesTurn body) (s, {}) = .error r) :
    valuesRun event clears body finish cs s = r := by
  simp only [valuesRun, if_neg hev, hloop]
  rfl

/-- A run whose loop goes through ends as its commit does. -/
theorem valuesRun_finish {I : σ × World → Prop} {rel : Change → Option Bool}
    (hleaves : Leaves body I rel) (hev : event ≠ .abort) {cs : List Change} {s : σ × World}
    (hs : I s) (hfirst : cs.findSome? rel = none) :
    ∃ s', (valuesRun event clears body finish cs s).1 = finish s' := by
  have hloop := values_loop hleaves cs s {} hs Values.settled_none
  rw [hfirst] at hloop
  obtain ⟨s', m', hfold, -⟩ := hloop
  rw [valuesRun_ok hev hfold]
  exact ⟨_, rfl⟩

/-- The values of a whole run: lost where the loop is left past the label, and freed twice where
the label is reached after the loop with the values of the last turn. -/
theorem valuesRun_freedOnce {I : σ × World → Prop} {rel : Change → Option Bool}
    (hleaves : Leaves body I rel) (hev : event ≠ .abort) (cs : List Change) {s : σ × World}
    (hs : I s) :
    (valuesRun event clears body finish cs s).2.FreedOnce ↔
      cs.findSome? rel = some true ∨ cs.findSome? rel = none ∧
        ((valuesRun event clears body finish cs s).1.label = true → clears = true ∨ cs = []) := by
  have hloop := values_loop hleaves cs s {} hs Values.settled_none
  cases hfirst : cs.findSome? rel with
  | some b =>
    rw [hfirst] at hloop
    obtain ⟨e, m', hfold, hm'⟩ := hloop
    rw [valuesRun_error hev hfold]
    simpa using hm'
  | none =>
    rw [hfirst] at hloop
    obtain ⟨s', m', hfold, hm', hheld⟩ := hloop
    have honce : (m'.last clears).FreedOnce := Values.last_freedOnce.mpr hm'.toFreedOnce
    have hnil : m'.held = [] ↔ cs = [] := hheld.trans (and_iff_right rfl)
    rw [valuesRun_ok hev hfold]
    cases hlabel : (finish (s'.1, s'.2.called .getChangeNext)).label with
    | true =>
      rw [if_pos rfl, honce.freeBoth_iff, Values.last_held, hnil]
      simp
    | false =>
      rw [if_neg Bool.false_ne_true]
      exact iff_of_true honce (by simp)

/-- At an abort the loop is not entered, and the variables point to nothing. -/
theorem valuesRun_abort (cs : List Change) (s : σ × World) :
    (valuesRun .abort clears body finish cs s).2.FreedOnce := by
  simp only [valuesRun, if_true]
  split <;> exact Values.freedOnce_none

/-- The values aside, the run is that of the callback. -/
theorem valuesRun_result {body' : σ × World → Change → Except (Outcome × World) (σ × World)}
    (commit : σ → World → Outcome × World)
    (hbody : ∀ s c, (body s c).mapError WayOut.result = body' s c)
    (hfinish : ∀ l w, (finish (l, w)).result = commit l w) (cs : List Change) (s : σ × World) :
    (valuesRun event clears body finish cs s).1.result =
      match foreachChange event body' cs s with
      | .error out => out
      | .ok (l, w) => commit l w := by
  have hturn : ∀ (s : (σ × World) × Values) c, body' (s.1.1, s.1.2.called .getChangeNext) c =
      ((valuesTurn body s c).map Prod.fst).mapError fun r => r.1.result := by
    intro s c
    rw [← hbody]
    unfold valuesTurn
    cases body (s.1.1, s.1.2.called .getChangeNext) c <;> rfl
  have hfold := EarlyExit.foldlM_map (f := valuesTurn body)
    (g := fun s c => body' (s.1, s.2.called .getChangeNext) c) Prod.fst (fun r => r.1.result)
    hturn cs (s, {})
  unfold valuesRun foreachChange
  by_cases hev : event = .abort
  · simp only [if_pos hev]
    exact hfinish s.1 s.2
  · simp only [if_neg hev]
    cases hrun : cs.foldlM (valuesTurn body) (s, {}) with
    | error r =>
      rw [hrun] at hfold
      simp only [hfold]
      rfl
    | ok r =>
      rw [hrun] at hfold
      simp only [hfold]
      exact hfinish _ _

end Loop

/-! ## The callbacks -/

theorem labelled_result {σ : Type}
    (body : σ × World → Change → Except (Outcome × World) (σ × World)) (s : σ × World)
    (c : Change) : (labelled body s c).mapError WayOut.result = body s c := by
  unfold labelled
  cases body s c <;> rfl

theorem ocLabelled_result (s : InterfaceLocals × World) (c : Change) :
    (ocLabelled s c).mapError WayOut.result = ocInterfacesBody s c := by
  unfold ocLabelled ocInterfacesBody
  cases ocNameCheck c with
  | some out => rfl
  | none => exact labelled_result interfaceSwitch s c

/-- On the ways out of the interface loops the values go with the iterator. -/
theorem LeafEvent.exit_label (om : Store) (e : LeafEvent) :
    match e.releases om with
    | none => e.exit om = none
    | some b => ∃ out, e.exit om = some out ∧ ∀ w, (viaLabel (out w)).label = b := by
  cases e with
  | modifyEnabled key b =>
    cases key with
    | none => exact ⟨_, rfl, fun _ => rfl⟩
    | some n =>
      simp only [LeafEvent.exit, LeafEvent.releases]
      split_ifs
      · rfl
      · exact ⟨_, rfl, fun _ => rfl⟩
  | unsupported => exact ⟨_, rfl, fun _ => rfl⟩
  | _ => rfl

theorem NatEvent.exit_label (A : Asio) (e : NatEvent) :
    match e.releases A with
    | none => e.exit A = none
    | some b => ∃ out, e.exit A = some out ∧ ∀ w, (viaLabel (out w)).label = b := by
  cases e with
  | createAddress f p =>
    simp only [NatEvent.exit, NatEvent.releases]
    split_ifs
    · rfl
    · exact ⟨_, rfl, fun _ => rfl⟩
  | unsupported => exact ⟨_, rfl, fun _ => rfl⟩
  | _ => rfl

theorem interfaceSwitch_leaves (om : Store) :
    Leaves (labelled interfaceSwitch) (fun s => SameNames om s.2.om)
      fun c => c.leafEvent.releases om := by
  intro s c hs
  have hexit := c.leafEvent.exit_label om
  have hsame : c.leafEvent.exit (s.2.called .getChangeNext).om = c.leafEvent.exit om :=
    LeafEvent.exit_congr hs _
  unfold labelled
  simp only [interfaceSwitch_eq, interfaceBody, hsame]
  cases hreleases : c.leafEvent.releases om with
  | none =>
    rw [hreleases] at hexit
    simp only [hexit]
    exact ⟨_, rfl, sameNames_note hs _⟩
  | some b =>
    rw [hreleases] at hexit
    obtain ⟨out, hout, hlabel⟩ := hexit
    simp only [hout]
    exact ⟨_, rfl, hlabel _⟩

theorem ocLabelled_leaves (om : Store) :
    Leaves ocLabelled (fun s => SameNames om s.2.om) (ocReleases om) := by
  intro s c hs
  have hswitch := interfaceSwitch_leaves om s c hs
  unfold ocLabelled ocNameCheck ocReleases
  cases c.newVal with
  | none => exact ⟨_, rfl, rfl⟩
  | some ne =>
    simp only [Option.bind_some]
    cases ne.xpath.keyValue "interface" "name" with
    | none => exact ⟨_, rfl, rfl⟩
    | some n =>
      cases hempty : n.isEmpty with
      | true =>
        simp only [hempty, if_true]
        exact ⟨_, rfl, rfl⟩
      | false =>
        simp only [hempty, Bool.false_eq_true, if_false]
        exact hswitch

theorem addrBody_leaves (env : Env) :
    Leaves (labelled (addrBody env)) (fun _ => True) (addrReleases env.asio) := by
  rintro ⟨l, w⟩ c -
  unfold labelled addrBody addrReleases
  cases c.xpath.keyValue "interface" "name" with
  | none => exact ⟨_, rfl, rfl⟩
  | some n =>
    cases hempty : n.isEmpty with
    | true =>
      simp only [hempty, if_true]
      exact ⟨_, rfl, rfl⟩
    | false =>
      simp only [hempty, Bool.false_eq_true, if_false]
      cases hparse : AddrLocals.parse env.asio {} c with
      | error f =>
        simp only [(AddrLocals.parse_change_error_iff (l := l) c).mpr hparse]
        exact ⟨_, rfl, rfl⟩
      | ok l₀ =>
        cases hl : l.parse env.asio c with
        | error f =>
          rw [(AddrLocals.parse_change_error_iff c).mp hl] at hparse
          cases hparse
        | ok l' => exact ⟨_, rfl, trivial⟩

theorem natSwitch_leaves (A : Asio) :
    Leaves (labelled (natSwitch A)) (fun _ => True) fun c => c.natEvent.releases A := by
  intro s c _
  have hexit := c.natEvent.exit_label A
  unfold labelled
  simp only [natSwitch_eq]
  cases hreleases : c.natEvent.releases A with
  | none =>
    rw [hreleases] at hexit
    simp only [hexit]
    exact ⟨_, rfl, trivial⟩
  | some b =>
    rw [hreleases] at hexit
    obtain ⟨out, hout, hlabel⟩ := hexit
    simp only [hout]
    exact ⟨_, rfl, hlabel _⟩

namespace Callback

variable {env : Env} {clears : Bool} {event : NotifEvent} {w : World} {cs : List Change}

/-- The changes that leave the loop, and which of them do so through the label. -/
def leaves (env : Env) (w : World) : Callback → Change → Option Bool
  | ietfInterfaceCreate _ => fun c => c.leafEvent.releases w.om
  | ietfInterfaceIpv46AddressChange => addrReleases env.asio
  | ocInterfacesConfig _ => ocReleases w.om
  | natMappingTableConfig _ => fun c => c.natEvent.releases env.asio

/-- The callback reports an error of what it does after its loop through the label. -/
def ErrorViaLabel (env : Env) (cs : List Change) (w : World) : Callback → Prop
  | ietfInterfaceIpv46AddressChange => False
  | cb => ∃ rc, rc ≠ .ok ∧ (cb.run env .verify (.ok cs) w).1 = .returns rc

/-- What has to hold of a change set for its values to be freed once. -/
def FreesValues (env : Env) (clears : Bool) (cs : List Change) (w : World) (cb : Callback) : Prop :=
  cs.findSome? (cb.leaves env w) = some true ∨
    cs.findSome? (cb.leaves env w) = none ∧
      (cb.ErrorViaLabel env cs w → clears = true ∨ cs = [])

theorem errorViaLabel_label (r : Outcome × World) :
    (errorViaLabel r).label = true ↔ ∃ rc, rc ≠ .ok ∧ r.1 = .returns rc := by
  unfold errorViaLabel
  split
  · next rc h => simp [h]
  · next f h => simp [h]

/-- The values aside, the callbacks do what they did. -/
theorem loopValues_result {cb : Callback} (hactive : cb.Active event) (clears : Bool)
    (cs : List Change) :
    (cb.loopValues env clears event cs w).1.result = cb.run env event (.ok cs) w := by
  cases cb with
  | ietfInterfaceCreate stale =>
    obtain rfl : event = .verify := hactive
    rw [loopValues, valuesRun_result (interfaceCommit env) (labelled_result interfaceSwitch)
      fun _ _ => rfl]
    show _ = interfaceRun env .verify interfaceSwitch cs stale w
    unfold interfaceRun
    cases foreachChange .verify interfaceSwitch cs
      (.init stale, w.called (.getChangesIter .ok)) <;> rfl
  | ietfInterfaceIpv46AddressChange =>
    have hev : event ≠ .apply := hactive
    rw [loopValues, valuesRun_result (fun l : AddrLocals => leave l.opRc)
      (labelled_result (addrBody env)) fun _ _ => rfl]
    simp only [run, ietfInterfaceIpv46AddressChangeCb, if_neg hev]
    cases foreachChange event (addrBody env) cs
      ({}, w.called (.getChangesIter .ok)) <;> rfl
  | ocInterfacesConfig stale =>
    obtain rfl : event = .verify := hactive
    rw [loopValues, valuesRun_result (interfaceCommit env) ocLabelled_result fun _ _ => rfl]
    show _ = interfaceRun env .verify ocInterfacesBody cs stale w
    unfold interfaceRun
    cases foreachChange .verify ocInterfacesBody cs
      (.init stale, w.called (.getChangesIter .ok)) <;> rfl
  | natMappingTableConfig stale =>
    obtain rfl : event = .verify := hactive
    rw [loopValues, valuesRun_result (natCommit env) (labelled_result (natSwitch env.asio))
      fun _ _ => rfl]
    simp only [run, natMappingTableConfigCb, ne_eq, not_true_eq_false, if_false]
    cases foreachChange .verify (natSwitch env.asio) cs
      (.init stale, w.called (.getChangesIter .ok)) <;> rfl

theorem runValues_result (env : Env) (clears : Bool) (event : NotifEvent)
    (changes : Except SrErr (List Change)) (w : World) (cb : Callback) :
    (cb.runValues env clears event changes w).1.result = cb.run env event changes w := by
  cases changes with
  | error rc => rfl
  | ok cs =>
    by_cases hactive : cb.Active event
    · simp only [runValues, if_pos hactive]
      exact loopValues_result hactive clears cs
    · simp only [runValues, if_neg hactive]

/-- A callback that commits after its loop. -/
theorem freedOnce_iff_of_commit {σ : Type} {cb : Callback} {rel : Change → Option Bool}
    {body : σ × World → Change → Except WayOut (σ × World)} {I : σ × World → Prop}
    {commit : σ × World → Outcome × World} {s : σ × World} (hleaves : Leaves body I rel) (hs : I s)
    (hresult : (valuesRun .verify clears body (fun s => errorViaLabel (commit s)) cs s).1.result =
      cb.run env .verify (.ok cs) w) :
    (valuesRun .verify clears body (fun s => errorViaLabel (commit s)) cs s).2.FreedOnce ↔
      cs.findSome? rel = some true ∨ cs.findSome? rel = none ∧
        ((∃ rc, rc ≠ .ok ∧ (cb.run env .verify (.ok cs) w).1 = .returns rc) →
          clears = true ∨ cs = []) := by
  have hev : NotifEvent.verify ≠ .abort := by decide
  rw [valuesRun_freedOnce hleaves hev cs hs]
  refine or_congr_right (and_congr_right fun hfirst => ?_)
  obtain ⟨s', hs'⟩ := valuesRun_finish hleaves hev hs hfirst
  rw [hs', errorViaLabel_label, ← hresult, hs']
  rfl

/-- The condition on the values, for a delivery that is acted on. -/
theorem loopValues_freedOnce {cb : Callback} (hactive : cb.Active event) (hev : event ≠ .abort)
    (clears : Bool) (cs : List Change) :
    (cb.loopValues env clears event cs w).2.FreedOnce ↔ cb.FreesValues env clears cs w := by
  have hresult : (cb.loopValues env clears event cs w).1.result = cb.run env event (.ok cs) w :=
    loopValues_result hactive clears cs
  have hnames : SameNames w.om (w.called (.getChangesIter .ok)).om := .refl _
  cases cb with
  | ietfInterfaceCreate stale =>
    obtain rfl : event = .verify := hactive
    exact freedOnce_iff_of_commit (interfaceSwitch_leaves w.om) hnames hresult
  | ietfInterfaceIpv46AddressChange =>
    rw [loopValues, valuesRun_freedOnce (addrBody_leaves env) hev cs trivial]
    refine or_congr_right (and_congr_right fun hfirst => ?_)
    obtain ⟨s', hs'⟩ := valuesRun_finish (addrBody_leaves env) hev trivial hfirst
    rw [hs']
    simp [ErrorViaLabel]
  | ocInterfacesConfig stale =>
    obtain rfl : event = .verify := hactive
    exact freedOnce_iff_of_commit (ocLabelled_leaves w.om) hnames hresult
  | natMappingTableConfig stale =>
    obtain rfl : event = .verify := hactive
    exact freedOnce_iff_of_commit (natSwitch_leaves env.asio) trivial hresult

/-- For every callback, every event and every change set: the callback frees each value it is
handed once, unless it leaves its loop past the label, or reports an error after its loop; it
then frees the values of the last change again, if `sr_get_change_next` has left the variables. -/
theorem values_freed_once_iff (env : Env) (clears : Bool) (event : NotifEvent)
    (changes : Except SrErr (List Change)) (w : World) (cb : Callback) :
    (cb.runValues env clears event changes w).1.result = cb.run env event changes w ∧
    ((cb.runValues env clears event changes w).2.FreedOnce ↔
      ∀ cs, changes = .ok cs → cb.Active event → event ≠ .abort →
        cb.FreesValues env clears cs w) := by
  refine ⟨runValues_result env clears event changes w cb, ?_⟩
  cases changes with
  | error rc => exact iff_of_true Values.freedOnce_none nofun
  | ok cs =>
    by_cases hactive : cb.Active event
    · simp only [runValues, if_pos hactive]
      by_cases hev : event = .abort
      · have hnone : (cb.loopValues env clears event cs w).2.FreedOnce := by
          subst hev
          cases cb with
          | ietfInterfaceIpv46AddressChange => exact valuesRun_abort cs _
          | ietfInterfaceCreate | ocInterfacesConfig | natMappingTableConfig =>
            have hverify : NotifEvent.abort = .verify := hactive
            cases hverify
        exact iff_of_true hnone fun _ _ _ h => absurd hev h
      · rw [loopValues_freedOnce hactive hev]
        simp [hactive, hev]
    · simp only [runValues, if_neg hactive]
      exact iff_of_true Values.freedOnce_none fun _ _ h => absurd h hactive

end Callback

/-- An entry without a type: the value that came last is freed once more when the entry cannot be
built. -/
example :
    let index : Change := .created
      ⟨[⟨"mapping-entry", [("index", "7")]⟩, ⟨"index", []⟩], .uint32 7⟩
    ((Callback.natMappingTableConfig (.garbage false .null)).runValues .accepting false .verify
      (.ok [index]) (.ofInterfaces [])).2.freed = [.newVal 0, .newVal 0] := by decide

end Sweetcomb
