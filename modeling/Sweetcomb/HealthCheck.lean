import Mathlib.Tactic.Common
import Sweetcomb.Lib.Runs

/-!
# VPP restarts: `sr_plugin_init_cb` and `sr_plugin_health_check_cb`

VPP runs as a sequence of incarnations that stop and start at any moment. The plugin
connects to the one that runs and remembers a pid. It samples the pid after it has
connected in the initialisation, and before it connects in the health check.
-/

namespace Sweetcomb

/-- The incarnations of VPP, in the order they are started in. -/
abbrev Incarnation := ℕ

/-- Where the plugin is in one of its calls. A health check carries its sample `vpp_pid_now`. -/
inductive Pc
  | initConnect | initPopulate | initFunctions | initPid | initReturn | initFailed
  | idle
  | checkPid
  | checkDisconnect (now : Int) | checkConnect (now : Int) | checkReplay (now : Int)
  | checkStore (now : Int)
  | checkReturn
deriving DecidableEq, Repr

/-- VPP and the plugin. -/
structure Sys where
  running : Option Incarnation
  /-- the incarnations started so far -/
  born : ℕ
  /-- the connection of `HW` -/
  hw : Option Incarnation
  /-- the incarnation `HW::connect` last connected to -/
  connected : Option Incarnation
  /-- the incarnation that was configured last -/
  configured : Option Incarnation
  vppPidStart : Int
  pc : Pc
deriving DecidableEq, Repr

inductive Action
  | stop | start
  /-- sysrepo calls `sr_plugin_health_check_cb` -/
  | call
  /-- the plugin takes its next step -/
  | advance
deriving DecidableEq, Repr

/-- VPP stops or starts. -/
def Action.isEvent : Action → Bool
  | stop | start => true
  | call | advance => false

namespace Sys

/-- Before the plugin is initialised, and VPP is started for the first time. -/
def initial : Sys where
  running := none
  born := 0
  hw := none
  connected := none
  configured := none
  vppPidStart := 0
  pc := .initConnect

/-- `ESRCH`. -/
def esrch : Int := 3

/-- `get_vpp_pid`. -/
def getVppPid (pid : Incarnation → Int) (s : Sys) : Int :=
  match s.running with
  | some i => pid i
  | none => -esrch

/-- `HW::connect`, which is tried again until it succeeds. -/
def connect (s : Sys) (pc : Pc) : Sys :=
  match s.running with
  | some i => { s with hw := some i, connected := some i, pc }
  | none => s

/-- The next step of the plugin; it has none when it is idle, or has failed to initialise. -/
def advance (pid : Incarnation → Int) (s : Sys) : Option Sys :=
  match s.pc with
  | .initConnect => some (s.connect .initPopulate)
  | .initPopulate => some { s with configured := s.hw, pc := .initFunctions }
  | .initFunctions => some { s with pc := .initPid }
  | .initPid =>
    let start := s.getVppPid pid
    some { s with vppPidStart := start, pc := if start < 0 then .initFailed else .initReturn }
  | .initReturn => some { s with pc := .idle }
  | .checkPid =>
    let now := s.getVppPid pid
    some { s with pc := if now = s.vppPidStart then .checkReturn else .checkDisconnect now }
  | .checkDisconnect now => some { s with hw := none, pc := .checkConnect now }
  | .checkConnect now => some (s.connect (.checkReplay now))
  | .checkReplay now => some { s with configured := s.hw, pc := .checkStore now }
  | .checkStore now => some { s with vppPidStart := now, pc := .checkReturn }
  | .checkReturn => some { s with pc := .idle }
  | .idle | .initFailed => none

def step (pid : Incarnation → Int) (s : Sys) : Action → Option Sys
  | .stop => s.running.map fun _ => { s with running := none }
  | .start =>
    if s.running = none then some { s with running := some s.born, born := s.born + 1 } else none
  | .call => if s.pc = .idle then some { s with pc := .checkPid } else none
  | .advance => s.advance pid

end Sys

/-! ## Where an event does harm -/

namespace Pc

/-- Between the connection and the pid sample of one call, in either order. -/
def connecting : Pc → Bool
  | initPopulate | initFunctions | initPid | checkDisconnect _ | checkConnect _ => true
  | _ => false

/-- Between the pid sample of a call and its return. -/
def sampled : Pc → Bool
  | initReturn | checkDisconnect _ | checkConnect _ | checkReplay _ | checkStore _ | checkReturn =>
    true
  | _ => false

/-- About to return with success. -/
def returning : Pc → Bool
  | initReturn | checkReturn => true
  | _ => false

/-- In the part of a health check that disconnects, connects and replays. -/
def reconnecting : Pc → Bool
  | checkDisconnect _ | checkConnect _ | checkReplay _ | checkStore _ => true
  | _ => false

end Pc

/-- VPP does not stop or start while the plugin is in this part of a call. -/
def Calm (part : Pc → Bool) (s : Sys) (a : Action) : Prop := a.isEvent = true → part s.pc = false

instance (part : Pc → Bool) (s : Sys) (a : Action) : Decidable (Calm part s a) :=
  inferInstanceAs (Decidable (_ → _))

/-- A state that tracks VPP: the pid is that of the incarnation connected to, which has also
been configured. -/
structure Tracks (pid : Incarnation → Int) (s : Sys) (i : Incarnation) : Prop where
  connected : s.connected = some i
  configured : s.configured = some i
  pid : s.vppPidStart = pid i

variable {pid : Incarnation → Int} {s s' : Sys} {a : Action}

/-- What the steps keep when nothing happens between connection and sample. -/
def TrackInv (pid : Incarnation → Int) (s : Sys) : Prop :=
  match s.pc with
  | .initConnect | .initFailed => True
  | .initPopulate => ∃ i, s.running = some i ∧ s.hw = some i ∧ s.connected = some i
  | .initFunctions | .initPid =>
    ∃ i, s.running = some i ∧ s.connected = some i ∧ s.configured = some i
  -- VPP may be down here, then the sample is the error code
  | .checkDisconnect now | .checkConnect now => s.getVppPid pid = now
  | .checkReplay now => ∃ i, s.hw = some i ∧ s.connected = some i ∧ now = pid i
  | .checkStore now => ∃ i, s.connected = some i ∧ s.configured = some i ∧ now = pid i
  | .initReturn | .idle | .checkPid | .checkReturn => ∃ i, Tracks pid s i

/-- What the steps keep when nothing happens between sample and return. -/
def SampleInv (pid : Incarnation → Int) (s : Sys) : Prop :=
  match s.pc with
  | .initReturn | .checkReturn => s.getVppPid pid = s.vppPidStart
  | .checkDisconnect now | .checkConnect now | .checkReplay now | .checkStore now =>
    s.getVppPid pid = now
  | _ => True

theorem getVppPid_some {i : Incarnation} (h : s.running = some i) : s.getVppPid pid = pid i := by
  simp [Sys.getVppPid, h]

/-- VPP stops and starts outside of the plugin. -/
theorem step_event (ha : a.isEvent = true) (h : s.step pid a = some s') :
    ∃ r n, s' = { s with running := r, born := n } := by
  cases a with
  | stop =>
    obtain ⟨-, -, rfl⟩ := Option.map_eq_some_iff.mp h
    exact ⟨none, s.born, rfl⟩
  | start =>
    change (if s.running = none then _ else none) = _ at h
    split_ifs at h
    obtain rfl := Option.some.inj h
    exact ⟨_, _, rfl⟩
  | call => cases ha
  | advance => cases ha

theorem step_call (h : s.step pid .call = some s') :
    s.pc = .idle ∧ s' = { s with pc := .checkPid } := by
  change (if s.pc = .idle then _ else none) = _ at h
  split_ifs at h with hpc
  exact ⟨hpc, (Option.some.inj h).symm⟩

/-- A connection attempt changes nothing, or it reaches the incarnation that runs. -/
theorem connect_rule {P : Sys → Prop} {pc : Pc} (hs : P s)
    (h : ∀ i, s.running = some i → P { s with hw := some i, connected := some i, pc }) :
    P (s.connect pc) := by
  unfold Sys.connect
  split
  · next i hr => exact h i hr
  · exact hs

/-! ## One step -/

theorem trackInv_event {r : Option Incarnation} {n : ℕ} (hs : TrackInv pid s)
    (hpc : s.pc.connecting = false) : TrackInv pid { s with running := r, born := n } := by
  obtain ⟨running, born, hw, connected, configured, vppPidStart, pc⟩ := s
  cases pc with
  | initPopulate | initFunctions | initPid | checkDisconnect | checkConnect => cases hpc
  | initReturn | idle | checkPid | checkReturn =>
    obtain ⟨i, h⟩ := hs
    exact ⟨i, h.connected, h.configured, h.pid⟩
  | initConnect | initFailed => trivial
  | checkReplay now => exact hs
  | checkStore now => exact hs

theorem trackInv_advance (hpid : ∀ i, 0 ≤ pid i) (hs : TrackInv pid s)
    (h : s.advance pid = some s') : TrackInv pid s' := by
  obtain ⟨running, born, hw, connected, configured, vppPidStart, pc⟩ := s
  cases pc with
  | initConnect =>
    obtain rfl := Option.some.inj h
    apply connect_rule
    · trivial
    · exact fun i hrun => ⟨i, hrun, rfl, rfl⟩
  | initPopulate =>
    obtain rfl := Option.some.inj h
    obtain ⟨i, hrun, hhw, hcon⟩ := hs
    exact ⟨i, hrun, hcon, hhw⟩
  | initFunctions =>
    obtain rfl := Option.some.inj h
    exact hs
  | initPid =>
    obtain rfl := Option.some.inj h
    obtain ⟨i, hrun, hcon, hconf⟩ := hs
    -- the sample is taken from the incarnation connected to, so it is no error code
    have hsample : Sys.getVppPid pid _ = pid i := getVppPid_some hrun
    simp only [hsample, if_neg (Int.not_lt.mpr (hpid i))]
    exact ⟨i, hcon, hconf, rfl⟩
  | initReturn =>
    obtain rfl := Option.some.inj h
    obtain ⟨i, h⟩ := hs
    exact ⟨i, h.connected, h.configured, h.pid⟩
  | checkPid =>
    obtain rfl := Option.some.inj h
    by_cases hnow : Sys.getVppPid pid
        ⟨running, born, hw, connected, configured, vppPidStart, .checkPid⟩ = vppPidStart
    · simp only [hnow, if_true]
      obtain ⟨i, h⟩ := hs
      exact ⟨i, h.connected, h.configured, h.pid⟩
    · simp only [hnow, if_false]
      exact rfl
  | checkDisconnect now =>
    obtain rfl := Option.some.inj h
    exact hs
  | checkConnect now =>
    obtain rfl := Option.some.inj h
    apply connect_rule
    · exact hs
    -- no event since the sample: the incarnation that runs is the one that was sampled
    · exact fun i hrun => ⟨i, rfl, rfl, hs.symm.trans (getVppPid_some hrun)⟩
  | checkReplay now =>
    obtain rfl := Option.some.inj h
    obtain ⟨i, hhw, hcon, hnow⟩ := hs
    exact ⟨i, hcon, hhw, hnow⟩
  | checkStore now =>
    obtain rfl := Option.some.inj h
    obtain ⟨i, hcon, hconf, hnow⟩ := hs
    exact ⟨i, hcon, hconf, hnow⟩
  | checkReturn =>
    obtain rfl := Option.some.inj h
    obtain ⟨i, h⟩ := hs
    exact ⟨i, h.connected, h.configured, h.pid⟩
  | idle => cases h
  | initFailed => cases h

theorem trackInv_step (hpid : ∀ i, 0 ≤ pid i) (hs : TrackInv pid s)
    (ha : Calm Pc.connecting s a) (h : s.step pid a = some s') : TrackInv pid s' := by
  -- an event happens where the invariant says nothing of the running VPP
  cases hev : a.isEvent with
  | true =>
    obtain ⟨r, n, rfl⟩ := step_event hev h
    exact trackInv_event hs (ha hev)
  | false =>
    cases a with
    | stop => cases hev
    | start => cases hev
    | call =>
      obtain ⟨hpc, rfl⟩ := step_call h
      rw [TrackInv, hpc] at hs
      obtain ⟨i, h⟩ := hs
      exact ⟨i, h.connected, h.configured, h.pid⟩
    | advance => exact trackInv_advance hpid hs h

theorem sampleInv_event {r : Option Incarnation} {n : ℕ} (hpc : s.pc.sampled = false) :
    SampleInv pid { s with running := r, born := n } := by
  obtain ⟨running, born, hw, connected, configured, vppPidStart, pc⟩ := s
  cases pc with
  | initConnect | initPopulate | initFunctions | initPid | initFailed | idle | checkPid => trivial
  | _ => cases hpc

theorem sampleInv_advance (hs : SampleInv pid s) (h : s.advance pid = some s') :
    SampleInv pid s' := by
  obtain ⟨running, born, hw, connected, configured, vppPidStart, pc⟩ := s
  cases pc with
  | initConnect =>
    obtain rfl := Option.some.inj h
    apply connect_rule
    · trivial
    · exact fun _ _ => trivial
  | initPid =>
    obtain rfl := Option.some.inj h
    unfold SampleInv
    split_ifs
    · trivial
    · rfl
  | checkPid =>
    obtain rfl := Option.some.inj h
    unfold SampleInv
    split_ifs with hnow
    · exact hnow
    · rfl
  | checkConnect now =>
    obtain rfl := Option.some.inj h
    apply connect_rule
    · exact hs
    · exact fun _ _ => hs
  | initPopulate | initFunctions | initReturn | checkReturn =>
    obtain rfl := Option.some.inj h
    trivial
  | checkDisconnect now | checkReplay now | checkStore now =>
    obtain rfl := Option.some.inj h
    exact hs
  | idle => cases h
  | initFailed => cases h

theorem sampleInv_step (hs : SampleInv pid s) (ha : Calm Pc.sampled s a)
    (h : s.step pid a = some s') : SampleInv pid s' := by
  cases hev : a.isEvent with
  | true =>
    obtain ⟨r, n, rfl⟩ := step_event hev h
    exact sampleInv_event (ha hev)
  | false =>
    cases a with
    | stop => cases hev
    | start => cases hev
    | call =>
      obtain ⟨-, rfl⟩ := step_call h
      trivial
    | advance => exact sampleInv_advance hs h

/-- The pid that is remembered is the one a check would find, and no reconnection is going on. -/
def Settled (pid : Incarnation → Int) (s : Sys) : Prop :=
  s.getVppPid pid = s.vppPidStart ∧ (s.pc.returning = true ∨ s.pc = .idle ∨ s.pc = .checkPid)

/-- Without events, checks find the pid that is remembered. -/
theorem settled_step (hs : Settled pid s) (ha : a.isEvent = false)
    (h : s.step pid a = some s') : Settled pid s' := by
  obtain ⟨running, born, hw, connected, configured, vppPidStart, pc⟩ := s
  obtain ⟨hpid, hpc⟩ := hs
  cases a with
  | stop => cases ha
  | start => cases ha
  | call =>
    obtain ⟨-, rfl⟩ := step_call h
    exact ⟨hpid, .inr (.inr rfl)⟩
  | advance =>
    cases pc with
    | initReturn | checkReturn =>
      obtain rfl := Option.some.inj h
      exact ⟨hpid, .inr (.inl rfl)⟩
    | checkPid =>
      obtain rfl := Option.some.inj h
      refine ⟨hpid, .inl ?_⟩
      show Pc.returning (if _ = vppPidStart then .checkReturn else .checkDisconnect _) = true
      rw [if_pos hpid]
      rfl
    | idle => cases h
    | initFailed => cases h
    | _ => simp [Pc.returning] at hpc

/-! ## What the invariants say -/

theorem TrackInv.tracks (hs : TrackInv pid s) (hpc : s.pc = .idle ∨ s.pc = .checkPid) :
    ∃ i, Tracks pid s i := by
  rcases hpc with hpc | hpc <;> rwa [TrackInv, hpc] at hs

/-- A check that finds the remembered pid has found a VPP, for no pid is an error code. -/
theorem Tracks.running {i : Incarnation} (h : Tracks pid s i) (hinj : Function.Injective pid)
    (hpid : ∀ i, 0 ≤ pid i) (hsample : s.getVppPid pid = s.vppPidStart) :
    s.running = some i := by
  cases hr : s.running with
  | none =>
    rw [h.pid, Sys.getVppPid, hr] at hsample
    have hnonneg := hpid i
    simp only [Sys.esrch] at hsample
    omega
  | some j =>
    rw [getVppPid_some hr, h.pid] at hsample
    rw [hinj hsample]

theorem SampleInv.settled (hs : SampleInv pid s) (hret : s.pc.returning = true) :
    Settled pid s := by
  refine ⟨?_, .inl hret⟩
  unfold SampleInv at hs
  split at hs
  · exact hs
  · exact hs
  all_goals simp_all [Pc.returning]

theorem Settled.not_reconnecting (hs : Settled pid s) : s.pc.reconnecting = false := by
  rcases hs.2 with h | h | h
  · cases hpc : s.pc <;> rw [hpc] at h <;> first | rfl | cases h
  · rw [h]
    rfl
  · rw [h]
    rfl

/-! ## Whole runs -/

/-- What a health check relies on holds in every run in which VPP does not stop or start
between the connection and the pid sample of one call; and when it does not between the sample
and the return either, later checks leave a VPP alone that goes on running, or being down. -/
theorem health_check_tracks (pid : Incarnation → Int) (hinj : Function.Injective pid)
    (hpid : ∀ i, 0 ≤ pid i) (as : List Action) (s : Sys)
    (hrun : Runs.run (Sys.step pid) .initial as = some s) :
    (Runs.Meets (Sys.step pid) (Calm Pc.connecting) .initial as →
      (s.pc = .idle → ∃ i, s.connected = some i ∧ s.vppPidStart = pid i) ∧
      (s.pc = .checkPid → s.getVppPid pid = s.vppPidStart →
        ∃ i, s.running = some i ∧ s.connected = some i ∧ s.configured = some i)) ∧
    (Runs.Meets (Sys.step pid) (Calm Pc.sampled) .initial as → s.pc.returning = true →
      ∀ bs : List Action, (∀ a ∈ bs, a.isEvent = false) →
        ∀ s', Runs.run (Sys.step pid) s bs = some s' → s'.pc.reconnecting = false) := by
  constructor
  · intro hcalm
    have hs : TrackInv pid s :=
      Runs.invariant (fun _ _ _ => trackInv_step hpid) (by trivial) hcalm hrun
    constructor
    · intro hpc
      obtain ⟨i, h⟩ := hs.tracks (.inl hpc)
      exact ⟨i, h.connected, h.pid⟩
    · intro hpc hsample
      obtain ⟨i, h⟩ := hs.tracks (.inr hpc)
      exact ⟨i, h.running hinj hpid hsample, h.connected, h.configured⟩
  · intro hcalm hret bs hbs s' hrun'
    have hs : SampleInv pid s :=
      Runs.invariant (fun _ _ _ => sampleInv_step) (by trivial) hcalm hrun
    have hquiet : Runs.Meets (Sys.step pid) (fun _ a => a.isEvent = false) s bs :=
      Runs.meets_of_forall hbs
    have hs' : Settled pid s' :=
      Runs.invariant (fun _ _ _ => settled_step) (hs.settled hret) hquiet hrun'
    exact hs'.not_reconnecting

/-- VPP starts, and the plugin is initialised. -/
def quietInit : List Action := [.start, .advance, .advance, .advance, .advance, .advance]

def examplePid (i : Incarnation) : Int := 1000 + i

/-- VPP is restarted while the plugin is idle: the next check connects to the new VPP. -/
theorem restart_tracked :
    ∃ s, Runs.run (Sys.step examplePid) .initial
        (quietInit ++ [.stop, .start, .call] ++ List.replicate 6 .advance) = some s ∧
      s.pc = .idle ∧ ∃ i, s.connected = some i ∧ s.vppPidStart = examplePid i := by
  have hinj : Function.Injective examplePid := fun i j h =>
    Int.natCast_inj.mp (Int.add_left_cancel h)
  have hpid : ∀ i, 0 ≤ examplePid i := fun i => by
    simp only [examplePid]
    omega
  let as := quietInit ++ [.stop, .start, .call] ++ List.replicate 6 .advance
  have hsome : (Runs.run (Sys.step examplePid) .initial as).isSome = true := by decide
  obtain ⟨s, hrun⟩ := Option.isSome_iff_exists.mp hsome
  have hidle : (Runs.run (Sys.step examplePid) .initial as).map Sys.pc = some .idle := by decide
  have hpc : s.pc = .idle := by
    rw [hrun] at hidle
    exact Option.some.inj hidle
  exact ⟨s, hrun, hpc, ((health_check_tracks examplePid hinj hpid as s hrun).1 (by decide)).1 hpc⟩

/-- VPP is restarted between the connection and the pid sample of the initialisation: the
plugin remembers the pid of a VPP it has not connected to, and finds it when it checks. And a
check that is made while VPP is down connects to the next VPP without remembering its pid: the
next check connects again, with VPP running all the time. -/
theorem restart_not_tracked :
    (∃ s, Runs.run (Sys.step examplePid) .initial
        [.start, .advance, .stop, .start, .advance, .advance, .advance, .advance] = some s ∧
      s.pc = .idle ∧ s.connected = some 0 ∧ s.vppPidStart ≠ examplePid 0 ∧
      s.vppPidStart = s.getVppPid examplePid) ∧
    ∃ s s', Runs.run (Sys.step examplePid) .initial
        (quietInit ++ [.stop, .call, .advance, .advance, .start, .advance, .advance, .advance,
          .advance]) = some s ∧
      s.pc = .idle ∧ s.connected = some 1 ∧ s.vppPidStart ≠ examplePid 1 ∧
      Runs.run (Sys.step examplePid) s [.call, .advance] = some s' ∧ s'.pc.reconnecting = true := by
  refine ⟨⟨_, rfl, ?_⟩, _, _, rfl, ?_, ?_, ?_, rfl, ?_⟩
  all_goals decide

end Sweetcomb
