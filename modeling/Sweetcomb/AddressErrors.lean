import Sweetcomb.AddressEntries

/-!
# Errors of the address loop

An exception of the parser is logged and forgotten, and every call of
`ipv46_config_add_remove` overwrites the result of the one before. What is returned is the
result of the last call, unless the loop is left.
-/

namespace Sweetcomb

/-! ## Exceptions -/

section Values

variable {A : Asio} {v : SrVal} {f : Fault}

/-- Whether a value is read does not depend on the address and the length it updates. -/
theorem parse_error_iff (a : String) (n : UInt8) :
    parseInterfaceIpv46Address A (some v) a n = .error f ↔
      parseInterfaceIpv46Address A (some v) "" 0 = .error f := by
  unfold parseInterfaceIpv46Address
  by_cases hlist : v.data.isList = true
  · simp [hlist]
  by_cases hip : v.xpath.nodeNameEq "ip" = true
  · simp [hlist, hip]
  by_cases hplen : v.xpath.nodeNameEq "prefix-length" = true
  · simp [hlist, hip, hplen]
  by_cases hmask : v.xpath.nodeNameEq "netmask" = true
  · cases hread : A.fromString v.data.stringVal with
    | none => simp [hlist, hip, hplen, hmask, hread]
    | some netmask =>
      cases netmask <;> simp [hlist, hip, hplen, hmask, hread, netmaskToPlen, Except.map]
  · simp [hlist, hip, hplen, hmask]

/-- Reading the value throws. -/
def SrVal.Throws (A : Asio) (v : SrVal) : Prop :=
  parseInterfaceIpv46Address A (some v) "" 0 = .error .throws

end Values

namespace Change

/-- A value that is read at the change throws. -/
def Throws (A : Asio) : Change → Prop
  | created new => new.Throws A
  | modified old new => old.Throws A ∨ new.Throws A
  | deleted old => old.Throws A
  | moved .. => False

/-- The change ends the loop: its interface has no name, or one of its values is not read at
all. -/
def Leaves (A : Asio) (c : Change) : Prop :=
  c.xpath.keyValue "interface" "name" = none ∨ c.xpath.keyValue "interface" "name" = some "" ∨
    ∃ f, AddrLocals.parse A {} c = .error f

end Change

namespace AddrLocals

variable {A : Asio} {l : AddrLocals} {f : Fault}

theorem parseNew_error_iff {v : SrVal} :
    l.parseNew A (some v) = .error f ↔
      parseInterfaceIpv46Address A (some v) "" 0 = .error f := by
  rw [← parse_error_iff l.newAddr l.newPrefix, parseNew]
  cases parseInterfaceIpv46Address A (some v) l.newAddr l.newPrefix <;> simp [Except.map]

theorem parseOld_error_iff {v : SrVal} :
    l.parseOld A (some v) = .error f ↔
      parseInterfaceIpv46Address A (some v) "" 0 = .error f := by
  rw [← parse_error_iff l.oldAddr l.oldPrefix, parseOld]
  cases parseInterfaceIpv46Address A (some v) l.oldAddr l.oldPrefix <;> simp [Except.map]

theorem catchThrows_error_iff {r : Except Fault AddrLocals} :
    l.catchThrows r = .error f ↔ r = .error f ∧ f ≠ .throws := by
  unfold catchThrows
  cases r with
  | ok l' => simp
  | error g =>
    cases g <;> simp
    all_goals
      rintro rfl
      simp

/-- Of a modified leaf the new value is read when the old one is. -/
theorem parse_modified_error_iff {old new : SrVal} :
    l.parse A (.modified old new) = .error f ↔ f ≠ .throws ∧
      (parseInterfaceIpv46Address A (some old) "" 0 = .error f ∨
        (∀ g, parseInterfaceIpv46Address A (some old) "" 0 ≠ .error g) ∧
          parseInterfaceIpv46Address A (some new) "" 0 = .error f) := by
  rw [parse_modified]
  cases hm : { l with create := true, del := true }.parseOld A (some old) with
  | error g =>
    rw [parseOld_error_iff.mp hm]
    cases g <;> simp
    · exact fun hne heq => hne heq.symm
    all_goals
      rintro rfl
      simp
  | ok l' =>
    have hread : ∀ g, parseInterfaceIpv46Address A (some old) "" 0 ≠ .error g := by
      intro g hg
      rw [parseOld_error_iff.mpr hg] at hm
      cases hm
    simp [hread, catchThrows_error_iff, parseNew_error_iff, and_comm]

/-- What the loop makes of a change that it cannot read does not depend on its variables. -/
theorem parse_change_error_iff (c : Change) :
    l.parse A c = .error f ↔ AddrLocals.parse A {} c = .error f := by
  cases c with
  | created new =>
    simp only [parse, catchThrows_error_iff, parseNew_error_iff]
  | deleted old =>
    simp only [parse, catchThrows_error_iff, parseOld_error_iff]
  | modified old new => rw [parse_modified_error_iff, parse_modified_error_iff]
  | moved old new => simp [parse]

/-- A change that does not end the loop. -/
theorem parse_ok_of_stays {c : Change} (h : ¬ c.Leaves A) :
    ∃ n l', c.xpath.keyValue "interface" "name" = some n ∧ n.isEmpty = false ∧
      l.parse A c = .ok l' := by
  simp only [Change.Leaves, not_or, not_exists] at h
  obtain ⟨hnone, hempty, hparse⟩ := h
  obtain ⟨n, hn⟩ := Option.ne_none_iff_exists'.mp hnone
  refine ⟨n, ?_⟩
  cases hl : l.parse A c with
  | ok l' => exact ⟨l', hn, by simpa [hn] using hempty, rfl⟩
  | error f => exact absurd ((parse_change_error_iff c).mp hl) (hparse f)

theorem pass_leaves {c : Change} (hc : c.Leaves A) (cs : List Change) :
    ∃ o, (l.pass A (c :: cs)).2 = some o ∧ o ≠ .returns .ok := by
  rw [pass]
  cases hkey : c.xpath.keyValue "interface" "name" with
  | none => exact ⟨.faults .nullString, rfl, by simp⟩
  | some n =>
    cases hn : n.isEmpty with
    | true => exact ⟨.returns .operationFailed, by simp [hn], by simp⟩
    | false =>
      rcases hc with hnone | hempty | ⟨f, hf⟩
      · cases hkey.symm.trans hnone
      · obtain rfl := Option.some.inj (hkey.symm.trans hempty)
        cases hn
      · exact ⟨.faults f, by simp [hn, (parse_change_error_iff c).mpr hf], by simp⟩

/-- The loop is left at the first change that ends it, always with an error. -/
theorem pass_left (l : AddrLocals) (cs : List Change) :
    ((l.pass A cs).2 = none ↔ ∀ c ∈ cs, ¬ c.Leaves A) ∧ (l.pass A cs).2 ≠ some (.returns .ok) := by
  induction cs generalizing l with
  | nil => simp [pass]
  | cons c cs ih =>
    by_cases hc : c.Leaves A
    · obtain ⟨o, ho, hne⟩ := pass_leaves (l := l) hc cs
      simp [ho, hc, hne]
    · obtain ⟨n, l', hn, hne, hl⟩ := parse_ok_of_stays (l := l) hc
      simpa [pass, hn, hne, hl, hc] using ih l'

end AddrLocals

/-! ## Results -/

namespace AddrRequest

/-- The interface is there, the address parses, and VPP accepts what is written. -/
def Accepted (env : Env) (w : World) (r : AddrRequest) : Prop :=
  ∃ i b, w.om.find r.itf = some i ∧ r.binding env.asio = some b ∧
    (r.add = true →
      env.hw (w.ops ++ [.write (l3Key env.asio b.1 b.2) (.l3Binding ⟨i, b.2⟩)]) = .ok)

variable {env : Env} {w : World} {r : AddrRequest}

theorem perform_ok_iff : (r.perform env w).1 = .ok ↔ r.Accepted env w := by
  have h := performs env r w
  generalize r.perform env w = s at h ⊢
  unfold Accepted
  cases h with
  | refused hrc hno =>
    refine iff_of_false hrc ?_
    rintro ⟨i, b, hi, hb, -⟩
    simp [hi, hb] at hno
  | removed hi hb hadd => exact iff_of_true rfl ⟨_, _, hi, hb, by simp [hadd]⟩
  | written hi hb hadd hw => exact iff_of_true rfl ⟨_, _, hi, hb, fun _ => hw⟩
  | failed hi hb hadd hw =>
    refine iff_of_false (by simp) ?_
    rintro ⟨j, c, hj, hc, hok⟩
    obtain rfl := Option.some.inj (hi.symm.trans hj)
    obtain rfl := Option.some.inj (hb.symm.trans hc)
    cases hw.symm.trans (hok hadd)

end AddrRequest

/-- The world in which a call is made, after the calls before it. -/
def worldAfter (env : Env) (rs : List AddrRequest) (w : World) : World :=
  (performAll env rs (.ok, w)).2

/-- The result of some calls is that of the last one. -/
theorem performAll_ok_iff (env : Env) (rs : List AddrRequest) (w : World) :
    (performAll env rs (.ok, w)).1 = .ok ↔
      ∀ pre r, rs = pre ++ [r] → r.Accepted env (worldAfter env pre w) := by
  rcases List.eq_nil_or_concat rs with rfl | ⟨pre, r, rfl⟩
  · simp [performAll]
  · rw [List.concat_eq_append, performAll_append]
    show (r.perform env (worldAfter env pre w)).1 = .ok ↔ _
    rw [AddrRequest.perform_ok_iff]
    constructor
    · intro h pre' r' heq
      obtain ⟨rfl, hr⟩ := List.append_inj' heq rfl
      obtain rfl := List.singleton_inj.mp hr
      exact h
    · exact fun h => h pre r rfl

/-! ## What is returned -/

/-- The calls of `ipv46_config_add_remove` that a change set makes. -/
def callsMade (A : Asio) (cs : List Change) : List AddrRequest := (AddrLocals.pass A {} cs).1

/-- `SR_ERR_OK` is returned exactly when the loop goes through and its last call succeeds. -/
theorem address_ok_iff (env : Env) (w : World) (cs : List Change) :
    (effect (ietfInterfaceIpv46AddressChangeCb env .verify (.ok cs) w)).outcome = .returns .ok ↔
      (∀ c ∈ cs, ¬ c.Leaves env.asio) ∧
        ∀ pre r, callsMade env.asio cs = pre ++ [r] → r.Accepted env (worldAfter env pre w) := by
  obtain ⟨hnone, hleft⟩ := AddrLocals.pass_left (A := env.asio) {} cs
  rw [addr_effect env w (by simp) (by simp), ← hnone, ← performAll_ok_iff]
  show (Option.getD _ _ = _) ↔ _
  cases hout : (AddrLocals.pass env.asio {} cs).2 with
  | none => simp [callsMade]
  | some o =>
    rw [hout] at hleft
    simpa using hleft

/-- Errors are reported exactly when the loop is left, or its last call fails, or nothing goes
wrong before the last call. -/
theorem errors_reported_iff (env : Env) (w : World) (cs : List Change) :
    let r := effect (ietfInterfaceIpv46AddressChangeCb env .verify (.ok cs) w)
    let calls := callsMade env.asio cs
    (r.outcome = .returns .ok →
      (∀ c ∈ cs, ¬ c.Throws env.asio) ∧
      ∀ pre q post, calls = pre ++ q :: post →
        (q.perform env (worldAfter env pre w)).1 = .ok) ↔
    (∃ c ∈ cs, c.Leaves env.asio) ∨
    (∃ pre q, calls = pre ++ [q] ∧ ¬ q.Accepted env (worldAfter env pre w)) ∨
    (∀ c ∈ cs, ¬ c.Throws env.asio) ∧
      ∀ pre q post, calls = pre ++ q :: post → post ≠ [] →
        q.Accepted env (worldAfter env pre w) := by
  intro r calls
  have hok : r.outcome = .returns .ok ↔ _ := address_ok_iff env w cs
  rw [hok]
  simp only [AddrRequest.perform_ok_iff]
  by_cases hleaves : ∃ c ∈ cs, c.Leaves env.asio
  -- the loop is left with an error
  · refine iff_of_true ?_ (.inl hleaves)
    rintro ⟨hstay, -⟩
    obtain ⟨c, hc, hl⟩ := hleaves
    exact absurd hl (hstay c hc)
  have hstay : ∀ c ∈ cs, ¬ c.Leaves env.asio := fun c hc hl => hleaves ⟨c, hc, hl⟩
  by_cases hlast : ∃ pre q, calls = pre ++ [q] ∧ ¬ q.Accepted env (worldAfter env pre w)
  -- the last call fails, and its error is returned
  · refine iff_of_true ?_ (.inr (.inl hlast))
    rintro ⟨-, haccept⟩
    obtain ⟨pre, q, hq, hfail⟩ := hlast
    exact absurd (haccept pre q hq) hfail
  have haccept : ∀ pre q, calls = pre ++ [q] → q.Accepted env (worldAfter env pre w) := by
    intro pre q hq
    by_contra hfail
    exact hlast ⟨pre, q, hq, hfail⟩
  -- SR_ERR_OK is returned, and the last call is fine
  constructor
  · intro h
    obtain ⟨hthrows, hall⟩ := h ⟨hstay, haccept⟩
    exact .inr (.inr ⟨hthrows, fun pre q post hq _ => hall pre q post hq⟩)
  · rintro (hl | hl | ⟨hthrows, hearlier⟩)
    · exact absurd hl hleaves
    · exact absurd hl hlast
    · intro _
      refine ⟨hthrows, fun pre q post hq => ?_⟩
      by_cases hpost : post = []
      · exact haccept pre q (hpost ▸ hq)
      · exact hearlier pre q post hq hpost

/-- 10.0.0.1 of an interface that does not exist, then 10.0.0.2 of one that does. -/
theorem unknown_interface_masked : ¬ ∀ (env : Env) (w : World) (cs : List Change),
    let r := effect (ietfInterfaceIpv46AddressChangeCb env .verify (.ok cs) w)
    r.outcome = .returns .ok →
      (∀ c ∈ cs, ¬ c.Throws env.asio) ∧
      ∀ pre q post, callsMade env.asio cs = pre ++ q :: post →
        (q.perform env (worldAfter env pre w)).1 = .ok := by
  intro h
  have hok := h .accepting (World.ofInterfaces [⟨"loop0", "ETHERNET", true⟩])
    (AddrChange.reported [hostAddress "loop9" 1 (.created (.prefixLength 24)),
      hostAddress "loop0" 2 (.created (.prefixLength 24))]) (by decide)
  have hfirst := hok.2 [] _ _ rfl
  revert hfirst
  decide

end Sweetcomb
