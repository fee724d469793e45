import Sweetcomb.HealthCheck

/-!
# Recovery from restarts of VPP

Once VPP goes on running, the next health check repairs what its restarts have left, unless
the plugin remembers the running VPP without having connected to it. The order in which a
call connects and samples decides whether that can happen.
-/

namespace Sweetcomb

variable {pid : Incarnation → Int} {s s' : Sys} {a : Action} {i b : Incarnation} {n : Int}

namespace Pc

/-- In the initialisation, between the connection and the pid sample. -/
def initialising : Pc → Bool
  | initPopulate | initFunctions | initPid => true
  | _ => false

/-- The steps that are left of a call, while VPP runs. -/
def remaining : Pc → ℕ
  | idle | initFailed => 0
  | initReturn | checkReturn => 1
  | initPid | checkStore _ => 2
  | initFunctions | checkReplay _ => 3
  | initPopulate | checkConnect _ => 4
  | initConnect | checkDisconnect _ => 5
  | checkPid => 6

end Pc

/-! ## What a check repairs -/

/-- The plugin does not remember, and is not about to remember, the pid of incarnation `i`
without being connected to it and having configured it. -/
def Recoverable (pid : Incarnation → Int) (i : Incarnation) (s : Sys) : Prop :=
  match s.pc with
  | .initConnect => True
  | .initPopulate => s.hw = some i ∧ s.connected = some i
  | .initFunctions | .initPid => s.connected = some i ∧ s.configured = some i
  | .initFailed => False
  -- the connection is still to be made, to the incarnation that runs then
  | .checkDisconnect _ | .checkConnect _ => True
  | .checkReplay now => now = pid i → s.hw = some i ∧ s.connected = some i
  | .checkStore now => now = pid i → s.connected = some i ∧ s.configured = some i
  | .initReturn | .idle | .checkPid | .checkReturn => s.vppPidStart = pid i → Tracks pid s i

/-- A check has sampled the pid of incarnation `i`, or is about to. -/
def Checked (pid : Incarnation → Int) (i : Incarnation) (s : Sys) : Prop :=
  match s.pc with
  | .checkPid => True
  | .checkDisconnect now | .checkConnect now | .checkReplay now | .checkStore now => now = pid i
  | .checkReturn | .idle => s.vppPidStart = pid i
  | _ => False

theorem connect_running {pc : Pc} (hr : s.running = some i) :
    s.connect pc = { s with hw := some i, connected := some i, pc } := by
  unfold Sys.connect
  rw [hr]

/-- The plugin's own steps neither make a state recoverable nor spoil one. -/
theorem recoverable_advance (hpid : ∀ i, 0 ≤ pid i) (hr : s.running = some i)
    (h : s.advance pid = some s') : Recoverable pid i s' ↔ Recoverable pid i s := by
  obtain ⟨running, born, hw, connected, configured, vppPidStart, pc⟩ := s
  have hsample : ∀ {pc : Pc}, Sys.getVppPid pid
      ⟨running, born, hw, connected, configured, vppPidStart, pc⟩ = pid i :=
    getVppPid_some hr
  cases pc with
  | initConnect =>
    obtain rfl := Option.some.inj h
    rw [connect_running hr]
    exact iff_of_true ⟨rfl, rfl⟩ trivial
  | initPopulate =>
    obtain rfl := Option.some.inj h
    exact and_comm
  | initPid =>
    obtain rfl := Option.some.inj h
    simp only [hsample, if_neg (Int.not_lt.mpr (hpid i))]
    constructor
    · intro hs
      exact ⟨(hs rfl).connected, (hs rfl).configured⟩
    · rintro ⟨hcon, hconf⟩ -
      exact ⟨hcon, hconf, rfl⟩
  | checkPid =>
    obtain rfl := Option.some.inj h
    simp only [hsample]
    split_ifs with hnow
    · constructor <;> exact fun hs heq => ⟨(hs heq).connected, (hs heq).configured, heq⟩
    -- another pid is remembered, so the check goes on to connect
    · exact iff_of_true trivial fun heq => absurd heq.symm hnow
  | checkConnect now =>
    obtain rfl := Option.some.inj h
    rw [connect_running hr]
    exact iff_of_true (fun _ => ⟨rfl, rfl⟩) trivial
  | checkReplay now =>
    obtain rfl := Option.some.inj h
    exact forall_congr' fun _ => and_comm
  | checkStore now =>
    obtain rfl := Option.some.inj h
    constructor
    · exact fun hs heq => ⟨(hs heq).connected, (hs heq).configured⟩
    · exact fun hs heq => ⟨(hs heq).1, (hs heq).2, heq⟩
  | initReturn | checkReturn =>
    obtain rfl := Option.some.inj h
    constructor <;> exact fun hs heq => ⟨(hs heq).connected, (hs heq).configured, heq⟩
  | initFunctions | checkDisconnect now =>
    obtain rfl := Option.some.inj h
    exact Iff.rfl
  | idle => cases h
  | initFailed => cases h

theorem checked_advance (hr : s.running = some i) (hs : Checked pid i s)
    (h : s.advance pid = some s') : Checked pid i s' := by
  obtain ⟨running, born, hw, connected, configured, vppPidStart, pc⟩ := s
  cases pc with
  | checkPid =>
    obtain rfl := Option.some.inj h
    have hsample : Sys.getVppPid pid
        ⟨running, born, hw, connected, configured, vppPidStart, .checkPid⟩ = pid i :=
      getVppPid_some hr
    unfold Checked
    simp only [hsample]
    split_ifs with hnow
    · exact hnow.symm
    · rfl
  | checkConnect now =>
    obtain rfl := Option.some.inj h
    rw [connect_running hr]
    exact hs
  | checkDisconnect now | checkReplay now | checkStore now | checkReturn =>
    obtain rfl := Option.some.inj h
    exact hs
  | idle => cases h
  | initFailed => cases h
  | _ => exact hs.elim

/-- The plugin neither stops VPP nor starts it. -/
theorem vpp_advance (h : s.advance pid = some s') :
    s'.running = s.running ∧ s'.born = s.born := by
  obtain ⟨running, born, hw, connected, configured, vppPidStart, pc⟩ := s
  cases pc with
  | initConnect | checkConnect now =>
    obtain rfl := Option.some.inj h
    refine connect_rule (P := fun u => u.running = running ∧ u.born = born) ⟨rfl, rfl⟩ ?_
    exact fun _ _ => ⟨rfl, rfl⟩
  | idle => cases h
  | initFailed => cases h
  | _ =>
    obtain rfl := Option.some.inj h
    exact ⟨rfl, rfl⟩

theorem running_advance (h : s.advance pid = some s') : s'.running = s.running :=
  (vpp_advance h).1

theorem quiet_cases (ha : a.isEvent = false) (h : s.step pid a = some s') :
    (s.pc = .idle ∧ s' = { s with pc := .checkPid }) ∨ s.advance pid = some s' := by
  cases a with
  | stop => cases ha
  | start => cases ha
  | call => exact .inl (step_call h)
  | advance => exact .inr h

/-- VPP goes on running, and the plugin will track it after a check if and only if it would
have before. -/
structure Quiet (pid : Incarnation → Int) (i : Incarnation) (s s' : Sys) : Prop where
  running : s'.running = some i
  recoverable : Recoverable pid i s' ↔ Recoverable pid i s

theorem quiet_step (hpid : ∀ i, 0 ≤ pid i) {u : Sys} (hu : Quiet pid i u s)
    (ha : a.isEvent = false) (h : s.step pid a = some s') : Quiet pid i u s' := by
  rcases quiet_cases ha h with ⟨hpc, rfl⟩ | hadv
  · refine ⟨hu.running, Iff.trans ?_ hu.recoverable⟩
    unfold Recoverable
    rw [hpc]
    constructor <;> exact fun hs heq => ⟨(hs heq).connected, (hs heq).configured, heq⟩
  · exact ⟨(running_advance hadv).trans hu.running,
      (recoverable_advance hpid hu.running hadv).trans hu.recoverable⟩

theorem checked_step (hr : s.running = some i) (hs : Checked pid i s) (ha : a.isEvent = false)
    (h : s.step pid a = some s') : s'.running = some i ∧ Checked pid i s' := by
  rcases quiet_cases ha h with ⟨-, rfl⟩ | hadv
  · exact ⟨hr, trivial⟩
  · exact ⟨(running_advance hadv).trans hr, checked_advance hr hs hadv⟩

variable {as bs : List Action}

theorem quiet_run (hpid : ∀ i, 0 ≤ pid i) (hr : s.running = some i)
    (has : ∀ a ∈ as, a.isEvent = false) (hrun : Runs.run (Sys.step pid) s as = some s') :
    Quiet pid i s s' := by
  have hmeets : Runs.Meets (Sys.step pid) (fun _ a => a.isEvent = false) s as :=
    Runs.meets_of_forall has
  exact Runs.invariant (fun _ _ _ => quiet_step hpid) ⟨hr, Iff.rfl⟩ hmeets hrun

/-- A check that begins after the last event samples the VPP that runs. -/
theorem checked_run (hpid : ∀ i, 0 ≤ pid i) (hr : s.running = some i)
    (has : ∀ a ∈ as, a.isEvent = false) (hcall : .call ∈ as)
    (hrun : Runs.run (Sys.step pid) s as = some s') : Checked pid i s' := by
  obtain ⟨pre, post, rfl⟩ := List.append_of_mem hcall
  rw [List.forall_mem_append, List.forall_mem_cons] at has
  obtain ⟨u, hpre, hrest⟩ := Runs.run_append.mp hrun
  obtain ⟨v, hcall, hpost⟩ := Runs.run_cons.mp hrest
  have hu := quiet_run hpid hr has.1 hpre
  obtain ⟨-, rfl⟩ := step_call hcall
  have hmeets : Runs.Meets (Sys.step pid) (fun _ a => a.isEvent = false)
      { u with pc := .checkPid } post := Runs.meets_of_forall has.2.2
  have hchecked : Checked pid i { u with pc := .checkPid } := trivial
  exact (Runs.invariant (I := fun s => s.running = some i ∧ Checked pid i s)
    (fun _ _ _ hs => checked_step hs.1 hs.2) ⟨hu.running, hchecked⟩ hmeets hpost).2

theorem tracks_iff_recoverable (hpid : ∀ i, 0 ≤ pid i) (hr : s.running = some i)
    (has : ∀ a ∈ as, a.isEvent = false) (hcall : .call ∈ as)
    (hrun : Runs.run (Sys.step pid) s as = some s') (hidle : s'.pc = .idle) :
    Tracks pid s' i ↔ Recoverable pid i s := by
  have hstart : s'.vppPidStart = pid i := by
    have hs := checked_run hpid hr has hcall hrun
    rwa [Checked, hidle] at hs
  have hrec : Recoverable pid i s' ↔ (s'.vppPidStart = pid i → Tracks pid s' i) := by
    rw [Recoverable, hidle]
  rw [← (quiet_run hpid hr has hrun).recoverable, hrec]
  exact ⟨fun h _ => h, fun h => h hstart⟩

/-! ## A call comes to an end -/

theorem advance_progress (hpid : ∀ i, 0 ≤ pid i) (hr : s.running = some i)
    (hidle : s.pc ≠ .idle) (hinit : s.pc ≠ .initFailed) :
    ∃ s', s.advance pid = some s' ∧ s'.pc ≠ .initFailed ∧
      s'.pc.remaining < s.pc.remaining := by
  obtain ⟨running, born, hw, connected, configured, vppPidStart, pc⟩ := s
  have hsample : ∀ {pc : Pc}, Sys.getVppPid pid
      ⟨running, born, hw, connected, configured, vppPidStart, pc⟩ = pid i :=
    getVppPid_some hr
  cases pc with
  | initConnect =>
    refine ⟨_, rfl, ?_⟩
    rw [connect_running hr]
    exact ⟨Pc.noConfusion, Nat.lt_succ_self 4⟩
  | checkConnect now =>
    refine ⟨_, rfl, ?_⟩
    rw [connect_running hr]
    exact ⟨Pc.noConfusion, Nat.lt_succ_self 3⟩
  | initPid =>
    refine ⟨_, rfl, ?_⟩
    simp only [hsample, if_neg (Int.not_lt.mpr (hpid i))]
    exact ⟨Pc.noConfusion, by decide⟩
  | checkPid =>
    refine ⟨_, rfl, ?_⟩
    simp only [hsample]
    split_ifs
    · exact ⟨Pc.noConfusion, by decide⟩
    · exact ⟨Pc.noConfusion, Nat.lt_succ_self 5⟩
  | idle => exact absurd rfl hidle
  | initFailed => exact absurd rfl hinit
  | _ => exact ⟨_, rfl, Pc.noConfusion, Nat.lt_succ_self _⟩

theorem returns (hpid : ∀ i, 0 ≤ pid i) (hr : s.running = some i) (hinit : s.pc ≠ .initFailed) :
    ∃ n s', Runs.run (Sys.step pid) s (List.replicate n .advance) = some s' ∧
      s'.pc = .idle ∧ s'.running = some i := by
  induction hn : s.pc.remaining using Nat.strongRecOn generalizing s with
  | ind k ih =>
    by_cases hidle : s.pc = .idle
    · exact ⟨0, s, rfl, hidle, hr⟩
    · obtain ⟨u, hadv, hu, hlt⟩ := advance_progress hpid hr hidle hinit
      obtain ⟨n, s', hrun, hs'⟩ := ih _ (hn ▸ hlt) ((running_advance hadv).trans hr) hu rfl
      exact ⟨n + 1, s', Runs.run_cons.mpr ⟨u, hadv, hrun⟩, hs'⟩

/-- The plugin ends its call, and makes a whole check. -/
theorem check_completes (hpid : ∀ i, 0 ≤ pid i) (hr : s.running = some i)
    (hinit : s.pc ≠ .initFailed) :
    ∃ as s', (∀ a ∈ as, a.isEvent = false) ∧ .call ∈ as ∧
      Runs.run (Sys.step pid) s as = some s' ∧ s'.pc = .idle := by
  obtain ⟨n, u, hu, huidle, hur⟩ := returns hpid hr hinit
  have hcall : Sys.step pid u .call = some { u with pc := .checkPid } := if_pos huidle
  obtain ⟨m, s', hrun, hidle, -⟩ :=
    returns (s := { u with pc := .checkPid }) hpid hur Pc.noConfusion
  refine ⟨List.replicate n .advance ++ .call :: List.replicate m .advance, s', ?_, by simp,
    Runs.run_append.mpr ⟨u, hu, Runs.run_cons.mpr ⟨_, hcall, hrun⟩⟩, hidle⟩
  intro a ha
  simp only [List.mem_append, List.mem_cons, List.mem_replicate] at ha
  rcases ha with ⟨-, rfl⟩ | rfl | ⟨-, rfl⟩ <;> rfl

/-- Whatever VPP has done so far and wherever the plugin is in its calls: when incarnation `i`
goes on running, a health check is completed, and the plugin tracks `i` after one, and after
any number of checks, if and only if the state was recoverable. -/
theorem one_check_settles (hpid : ∀ i, 0 ≤ pid i) (hr : s.running = some i)
    (hinit : s.pc ≠ .initFailed) :
    (∃ as s', (∀ a ∈ as, a.isEvent = false) ∧ .call ∈ as ∧
      Runs.run (Sys.step pid) s as = some s' ∧ s'.pc = .idle) ∧
    ∀ as s', (∀ a ∈ as, a.isEvent = false) → .call ∈ as →
      Runs.run (Sys.step pid) s as = some s' → s'.pc = .idle →
      (Tracks pid s' i ↔ Recoverable pid i s) :=
  ⟨check_completes hpid hr hinit, fun _ _ has hcall hrun hidle =>
    tracks_iff_recoverable hpid hr has hcall hrun hidle⟩

theorem examplePid_nonneg (i : Incarnation) : 0 ≤ examplePid i := by
  simp only [examplePid]
  omega

theorem examplePid_injective : Function.Injective examplePid := fun _ _ h =>
  Int.natCast_inj.mp (Int.add_left_cancel h)

/-- VPP was restarted in the initialisation, between connection and sample: no check ever
connects the plugin to the VPP that runs. -/
theorem misled_for_good :
    ∃ s, Runs.run (Sys.step examplePid) .initial
        [.start, .advance, .stop, .start, .advance, .advance, .advance, .advance] = some s ∧
      ∀ as s', (∀ a ∈ as, a.isEvent = false) → .call ∈ as →
        Runs.run (Sys.step examplePid) s as = some s' → s'.pc = .idle →
        ¬ Tracks examplePid s' 1 := by
  refine ⟨_, rfl, fun as s' has hcall hrun hidle htracks => ?_⟩
  have hrec := ((one_check_settles examplePid_nonneg rfl (by decide)).2 as s' has hcall hrun
    hidle).mp htracks
  exact absurd (hrec (by decide)).connected (by decide)

/-! ## The order of connection and sample -/

/-- The pid belongs to the incarnation connected to or to an earlier one, or none was found. -/
structure Behind (pid : Incarnation → Int) (s : Sys) (b : Incarnation) (n : Int) : Prop where
  connected : s.connected = some b
  born : b < s.born
  pid : n = -Sys.esrch ∨ ∃ a ≤ b, n = pid a

/-- What the steps keep when nothing happens between connection and sample of the
initialisation. A check samples first, and so remembers an incarnation that is no later than
the one it connects to. -/
def LagInv (pid : Incarnation → Int) (s : Sys) : Prop :=
  match s.pc with
  | .initConnect => True
  | .initPopulate => ∃ i, s.running = some i ∧ s.hw = some i ∧ s.connected = some i
  | .initFunctions | .initPid =>
    ∃ i, s.running = some i ∧ s.connected = some i ∧ s.configured = some i
  | .initFailed => False
  | .checkDisconnect now | .checkConnect now => now = -Sys.esrch ∨ ∃ a < s.born, now = pid a
  | .checkReplay now => ∃ b, Behind pid s b now ∧ s.hw = some b
  | .checkStore now => ∃ b, Behind pid s b now ∧ s.configured = some b
  | .initReturn | .idle | .checkPid | .checkReturn =>
    ∃ b, Behind pid s b s.vppPidStart ∧ s.configured = some b

/-- The incarnation that runs is the last one that was started. -/
def Latest (s : Sys) : Prop := ∀ i, s.running = some i → s.born = i + 1

theorem Behind.mono (h : Behind pid s b n) {s' : Sys} (hcon : s'.connected = s.connected)
    (hborn : s.born ≤ s'.born) : Behind pid s' b n :=
  ⟨hcon.trans h.connected, Nat.lt_of_lt_of_le h.born hborn, h.pid⟩

/-- A pid that is behind names the incarnation that runs only when that is connected to. -/
theorem Behind.eq_running (h : Behind pid s b n) (hinj : Function.Injective pid)
    (hpid : ∀ i, 0 ≤ pid i) (hborn : s.born = i + 1) (hn : n = pid i) : b = i := by
  have hle : b ≤ i := Nat.le_of_lt_succ (Nat.lt_of_lt_of_eq h.born hborn)
  rcases h.pid with hdown | ⟨a, hab, ha⟩
  -- no incarnation has the error code for its pid
  · have hnonneg := hpid i
    rw [← hn, hdown] at hnonneg
    exact absurd hnonneg (by decide)
  · have hai : a = i := hinj (ha.symm.trans hn)
    exact Nat.le_antisymm hle (hai ▸ hab)

theorem latest_step (hs : Latest s) (h : s.step pid a = some s') : Latest s' := by
  cases a with
  | stop =>
    obtain ⟨-, -, rfl⟩ := Option.map_eq_some_iff.mp h
    rintro i ⟨⟩
  | start =>
    change (if s.running = none then _ else none) = _ at h
    split_ifs at h
    obtain rfl := Option.some.inj h
    rintro i ⟨⟩
    rfl
  | call =>
    obtain ⟨-, rfl⟩ := step_call h
    exact hs
  | advance =>
    obtain ⟨hrunning, hborn⟩ := vpp_advance h
    intro i hi
    rw [hborn]
    exact hs i (hrunning.symm.trans hi)

/-- A restart leaves what is remembered behind the connection, or further behind the VPP. -/
theorem lagInv_event (hs : LagInv pid s) (hpc : s.pc.initialising = false) {r : Option Incarnation}
    {m : ℕ} (hm : s.born ≤ m) : LagInv pid { s with running := r, born := m } := by
  obtain ⟨running, born, hw, connected, configured, vppPidStart, pc⟩ := s
  cases pc with
  | initPopulate | initFunctions | initPid => cases hpc
  | initConnect => trivial
  | initFailed => exact hs.elim
  | checkDisconnect now | checkConnect now =>
    exact hs.imp_right fun ⟨a, ha, hnow⟩ => ⟨a, Nat.lt_of_lt_of_le ha hm, hnow⟩
  | checkReplay now | checkStore now | initReturn | idle | checkPid | checkReturn =>
    obtain ⟨b, hb, hconf⟩ := hs
    exact ⟨b, hb.mono rfl hm, hconf⟩

/-- What a check samples is a pid that some incarnation started so far has. -/
theorem sample_born (pid : Incarnation → Int) (hl : Latest s) :
    s.getVppPid pid = -Sys.esrch ∨ ∃ a < s.born, s.getVppPid pid = pid a := by
  cases hr : s.running with
  | none =>
    left
    rw [Sys.getVppPid, hr]
  | some i => exact .inr ⟨i, by rw [hl i hr]; exact i.lt_succ_self, getVppPid_some hr⟩

theorem lagInv_advance (hpid : ∀ i, 0 ≤ pid i) (hl : Latest s) (hs : LagInv pid s)
    (h : s.advance pid = some s') : LagInv pid s' := by
  obtain ⟨running, born, hw, connected, configured, vppPidStart, pc⟩ := s
  cases pc with
  | initConnect =>
    obtain rfl := Option.some.inj h
    apply connect_rule
    · trivial
    · exact fun i hr => ⟨i, hr, rfl, rfl⟩
  | initPopulate =>
    obtain rfl := Option.some.inj h
    obtain ⟨i, hr, hhw, hcon⟩ := hs
    exact ⟨i, hr, hcon, hhw⟩
  | initFunctions =>
    obtain rfl := Option.some.inj h
    exact hs
  | initPid =>
    obtain rfl := Option.some.inj h
    obtain ⟨i, hr, hcon, hconf⟩ := hs
    have hsample : Sys.getVppPid pid _ = pid i := getVppPid_some hr
    have hborn : i < born := Nat.lt_of_succ_le (Nat.le_of_eq (hl i hr).symm)
    simp only [hsample, if_neg (Int.not_lt.mpr (hpid i))]
    exact ⟨i, ⟨hcon, hborn, .inr ⟨i, (Nat.le_refl _), rfl⟩⟩, hconf⟩
  | checkPid =>
    obtain rfl := Option.some.inj h
    have hsample := sample_born pid hl
    unfold LagInv
    simp only
    split_ifs
    · obtain ⟨b, hb, hconf⟩ := hs
      exact ⟨b, hb.mono rfl (Nat.le_refl _), hconf⟩
    · exact hsample
  | checkDisconnect now =>
    obtain rfl := Option.some.inj h
    exact hs
  | checkConnect now =>
    obtain rfl := Option.some.inj h
    apply connect_rule
    · exact hs
    -- the sample came first, so it is of the incarnation connected to or of an earlier one
    · intro i hr
      have hborn : born = i + 1 := hl i hr
      have hlag : now = -Sys.esrch ∨ ∃ a ≤ i, now = pid a :=
        hs.imp_right fun ⟨a, ha, hnow⟩ => ⟨a, Nat.le_of_lt_succ (Nat.lt_of_lt_of_eq ha hborn), hnow⟩
      exact ⟨i, ⟨rfl, Nat.lt_of_succ_le (Nat.le_of_eq hborn.symm), hlag⟩, rfl⟩
  | checkReplay now | checkStore now | initReturn | checkReturn =>
    obtain rfl := Option.some.inj h
    obtain ⟨b, hb, hconf⟩ := hs
    exact ⟨b, hb.mono rfl (Nat.le_refl _), hconf⟩
  | idle => cases h
  | initFailed => cases h

theorem born_event (ha : a.isEvent = true) (h : s.step pid a = some s') :
    ∃ r m, s' = { s with running := r, born := m } ∧ s.born ≤ m := by
  cases a with
  | stop =>
    obtain ⟨-, -, rfl⟩ := Option.map_eq_some_iff.mp h
    exact ⟨none, s.born, rfl, (Nat.le_refl _)⟩
  | start =>
    change (if s.running = none then _ else none) = _ at h
    split_ifs at h
    obtain rfl := Option.some.inj h
    exact ⟨_, _, rfl, s.born.le_succ⟩
  | call => cases ha
  | advance => cases ha

theorem lagInv_step (hpid : ∀ i, 0 ≤ pid i) (hl : Latest s) (hs : LagInv pid s)
    (ha : Calm Pc.initialising s a) (h : s.step pid a = some s') : LagInv pid s' := by
  cases hev : a.isEvent with
  | true =>
    obtain ⟨r, m, rfl, hm⟩ := born_event hev h
    exact lagInv_event hs (ha hev) hm
  | false =>
    rcases quiet_cases hev h with ⟨hpc, rfl⟩ | hadv
    · rw [LagInv, hpc] at hs
      obtain ⟨b, hb, hconf⟩ := hs
      exact ⟨b, hb.mono rfl (Nat.le_refl _), hconf⟩
    · exact lagInv_advance hpid hl hs hadv

theorem LagInv.recoverable (hs : LagInv pid s) (hl : Latest s) (hinj : Function.Injective pid)
    (hpid : ∀ i, 0 ≤ pid i) (hr : s.running = some i) : Recoverable pid i s := by
  have hborn := hl i hr
  have hsame : ∀ {j}, s.running = some j → j = i := fun hj => Option.some.inj (hj.symm.trans hr)
  unfold LagInv at hs
  unfold Recoverable
  split at hs
  · trivial
  · obtain ⟨j, hj, hhw, hcon⟩ := hs
    exact hsame hj ▸ ⟨hhw, hcon⟩
  · obtain ⟨j, hj, hcon, hconf⟩ := hs
    exact hsame hj ▸ ⟨hcon, hconf⟩
  · obtain ⟨j, hj, hcon, hconf⟩ := hs
    exact hsame hj ▸ ⟨hcon, hconf⟩
  · exact hs
  · trivial
  · trivial
  · obtain ⟨b, hb, hhw⟩ := hs
    exact fun heq => hb.eq_running hinj hpid hborn heq ▸ ⟨hhw, hb.connected⟩
  · obtain ⟨b, hb, hconf⟩ := hs
    exact fun heq => hb.eq_running hinj hpid hborn heq ▸ ⟨hb.connected, hconf⟩
  all_goals
    obtain ⟨b, hb, hconf⟩ := hs
    intro heq
    obtain rfl := hb.eq_running hinj hpid hborn heq
    exact ⟨hb.connected, hconf, heq⟩

/-- In every run in which VPP does not stop or start between the connection and the pid sample
of the initialisation, wherever else it does: once it goes on running, the plugin tracks it
after the next health check. -/
theorem restarts_recover (hinj : Function.Injective pid) (hpid : ∀ i, 0 ≤ pid i)
    (hrun : Runs.run (Sys.step pid) .initial as = some s)
    (hcalm : Runs.Meets (Sys.step pid) (Calm Pc.initialising) .initial as)
    (hr : s.running = some i) (hbs : ∀ a ∈ bs, a.isEvent = false) (hcall : .call ∈ bs)
    (hrun' : Runs.run (Sys.step pid) s bs = some s') (hidle : s'.pc = .idle) :
    Tracks pid s' i := by
  have hinitial : Latest .initial ∧ LagInv pid .initial := ⟨nofun, trivial⟩
  have hs : Latest s ∧ LagInv pid s :=
    Runs.invariant (I := fun s => Latest s ∧ LagInv pid s)
      (fun _ _ _ hs ha h => ⟨latest_step hs.1 h, lagInv_step hpid hs.1 hs.2 ha h⟩)
      hinitial hcalm hrun
  have hrec : Recoverable pid i s := hs.2.recoverable hs.1 hinj hpid hr
  exact (tracks_iff_recoverable hpid hr hbs hcall hrun' hidle).mpr hrec

/-- VPP goes down, and comes up again in the middle of a check, which remembers no pid: the
check after it connects once more. -/
theorem restart_during_check :
    ∃ s', Runs.run (Sys.step examplePid) .initial
        (quietInit ++ [.stop, .call, .advance, .advance, .start, .advance, .advance, .advance,
          .advance] ++ (.call :: List.replicate 6 .advance)) = some s' ∧
      Tracks examplePid s' 1 := by
  let as : List Action := quietInit ++ [.stop, .call, .advance, .advance, .start, .advance,
    .advance, .advance, .advance]
  let bs : List Action := .call :: List.replicate 6 .advance
  have hcalm : Runs.Meets (Sys.step examplePid) (Calm Pc.initialising) .initial as := by decide
  have hbs : ∀ a ∈ bs, a.isEvent = false := by decide
  have hcall : .call ∈ bs := by decide
  exact ⟨_, rfl, restarts_recover examplePid_injective examplePid_nonneg
    (show Runs.run (Sys.step examplePid) .initial as = some _ from rfl) hcalm rfl hbs hcall rfl rfl⟩

end Sweetcomb
