import Sweetcomb.VppPid

/-!
# The descriptors of `get_vpp_pid`

The scan of `/proc` holds a directory and one file at a time. It closes every file, but returns
at a failed `readdir` with the directory open, and takes an `errno` that an entry has left for
such a failure. A health check that loses a descriptor so has one less from then on.
-/

namespace Sweetcomb

/-! ## What a scan opens and closes -/

/-- An operation on the directory `dir` or the file `fp`. -/
inductive HandleOp
  | opendir | readdir | fopen | fread | fclose | closedir
deriving DecidableEq, Repr

/-- Whether `dir` and `fp` are open. -/
structure Handles where
  dir : Bool
  file : Bool
deriving DecidableEq, Repr

namespace Handles

def closed : Handles := ⟨false, false⟩

/-- An operation on what is not open is undefined, and opening what is open loses it. -/
def apply (h : Handles) : HandleOp → Option Handles
  | .opendir => if h.dir then none else some { h with dir := true }
  | .readdir => if h.dir then some h else none
  | .fopen => if h.file then none else some { h with file := true }
  | .fread => if h.file then some h else none
  | .fclose => if h.file then some { h with file := false } else none
  | .closedir => if h.dir then some { h with dir := false } else none

end Handles

namespace DirEntry

/-- `visit`, with the operations of the turn; a failing `fopen` opens nothing. -/
def visitOps (errno : ℤ) (e : DirEntry) : List HandleOp × Except ℤ ℤ :=
  if e.isDot then ([], .ok errno)
  else if !e.isDir then ([], .ok errno)
  else
    match e.cmdline with
    | .readable text =>
      if filetext text = [] then ([.fopen, .fread, .fclose], .ok errno)
      else
        match strtok (filetext text) with
        | some first =>
          if vppNames.contains first then
            ([.fopen, .fread, .fclose, .closedir], .error (atoi e.name.toList))
          else ([.fopen, .fread, .fclose], .ok 0)
        | none => ([.fopen, .fread, .fclose], .ok errno)
    | .unreadable n => ([.fopen, .fread, .fclose], .ok n)
    | .unopenable n => ([], .ok n)

end DirEntry

/-- The loop of `get_vpp_pid` and what follows it. -/
def scanOps (readdir : Option ℤ) : ℤ → List DirEntry → List HandleOp × ℤ
  | errno, [] =>
    let errno := readdir.getD errno
    if errno ≠ 0 then ([.readdir], -errno) else ([.readdir, .closedir], -Sys.esrch)
  | errno, e :: es =>
    match e.visitOps errno with
    | (ops, .error pid) => (.readdir :: ops, pid)
    | (ops, .ok errno) =>
      let rest := scanOps readdir errno es
      (.readdir :: (ops ++ rest.1), rest.2)

/-- `get_vpp_pid`, with its operations. -/
def getVppPidOps (errno : ℤ) : ProcDir → List HandleOp × ℤ
  | .unopenable n => ([], -n)
  | .listed es readdir =>
    let scan := scanOps readdir errno es
    (.opendir :: scan.1, scan.2)

/-- The scan finds no process to return at, and ends with an `errno`. -/
def leaks (errno : ℤ) : ProcDir → Bool
  | .unopenable _ => false
  | .listed es readdir =>
    !es.any DirEntry.isMatch && decide (readdir.getD (lastErrno errno es) ≠ 0)

/-- What a turn does to the handles while `dir` is open. -/
theorem visitOps_cases (errno : ℤ) (e : DirEntry) :
    ∃ ops, Runs.run Handles.apply ⟨true, false⟩ ops = some ⟨true, false⟩ ∧
      e.visitOps errno =
        if e.isMatch then (ops ++ [.closedir], .error (atoi e.name.toList))
        else (ops, .ok (e.errnoAfter.getD errno)) := by
  unfold DirEntry.visitOps DirEntry.isMatch DirEntry.process DirEntry.errnoAfter
  cases e.isDot with
  | true => exact ⟨[], rfl, by simp⟩
  | false =>
    cases e.isDir with
    | false => exact ⟨[], rfl, by simp⟩
    | true =>
      cases e.cmdline with
      | unopenable n => exact ⟨[], rfl, by simp⟩
      | unreadable n => exact ⟨[.fopen, .fread, .fclose], rfl, by simp⟩
      | readable text =>
        refine ⟨[.fopen, .fread, .fclose], rfl, ?_⟩
        by_cases hempty : DirEntry.filetext text = []
        · simp [hempty, strtok, firstToken]
        · cases hfirst : strtok (DirEntry.filetext text) with
          | none => simp [hempty, hfirst]
          | some first => by_cases hname : first ∈ vppNames <;> simp [hempty, hfirst, hname]

/-- What the loop returns. -/
theorem scanOps_result (readdir : Option ℤ) (errno : ℤ) (es : List DirEntry) :
    (scanOps readdir errno es).2 = getVppPid errno (.listed es readdir) := by
  induction es generalizing errno with
  | nil =>
    simp only [scanOps, getVppPid, List.foldlM_nil, pure, Except.pure]
    split <;> rfl
  | cons e es ih =>
    obtain ⟨ops, -, hops⟩ := visitOps_cases errno e
    have hvisit := e.visit_eq errno
    unfold scanOps getVppPid
    unfold getVppPid at ih
    cases hmatch : e.isMatch with
    | true =>
      rw [hmatch, if_pos rfl] at hvisit hops
      simp only [hops, EarlyExit.foldlM_cons_error es hvisit]
    | false =>
      rw [hmatch, if_neg Bool.false_ne_true] at hvisit hops
      simp only [hops, EarlyExit.foldlM_cons_ok es hvisit]
      exact ih _

/-- The loop is entered with the directory open, and leaves it so when it leaks. -/
theorem scanOps_handles (readdir : Option ℤ) (errno : ℤ) (es : List DirEntry) :
    Runs.run Handles.apply ⟨true, false⟩ (scanOps readdir errno es).1 =
      some ⟨leaks errno (.listed es readdir), false⟩ := by
  induction es generalizing errno with
  | nil =>
    by_cases herrno : readdir.getD errno = 0
    · simp only [scanOps, leaks, lastErrno, herrno, ne_eq, not_true_eq_false, if_false]
      simp [herrno]
      rfl
    · simp only [scanOps, leaks, lastErrno, ne_eq, herrno, not_false_eq_true, if_true]
      simp [herrno]
      rfl
  | cons e es ih =>
    obtain ⟨ops, hrun, hops⟩ := visitOps_cases errno e
    unfold scanOps
    cases hmatch : e.isMatch with
    | true =>
      rw [hmatch, if_pos rfl] at hops
      have hleaks : leaks errno (.listed (e :: es) readdir) = false := by simp [leaks, hmatch]
      rw [hops, hleaks]
      exact Runs.run_cons.mpr ⟨_, rfl, Runs.run_append.mpr ⟨_, hrun, rfl⟩⟩
    | false =>
      rw [hmatch, if_neg Bool.false_ne_true] at hops
      have hleaks : leaks errno (.listed (e :: es) readdir) =
          leaks (e.errnoAfter.getD errno) (.listed es readdir) := by
        simp [leaks, hmatch, lastErrno_cons]
      rw [hops, hleaks]
      exact Runs.run_cons.mpr ⟨_, rfl, Runs.run_append.mpr ⟨_, hrun, ih _⟩⟩

/-- Whatever `/proc` holds, and whatever `errno` was: the scan uses nothing that is not open,
opens no file before the last one is closed, and closes all files; the directory stays open
exactly when it found no VPP and an `errno` is left. -/
theorem scan_handles (errno : ℤ) (proc : ProcDir) :
    (getVppPidOps errno proc).2 = getVppPid errno proc ∧
    Runs.run Handles.apply .closed (getVppPidOps errno proc).1 =
      some ⟨leaks errno proc, false⟩ := by
  cases proc with
  | unopenable n => exact ⟨rfl, rfl⟩
  | listed es readdir =>
    exact ⟨scanOps_result readdir errno es,
      Runs.run_cons.mpr ⟨_, rfl, scanOps_handles readdir errno es⟩⟩

/-! ## A plugin that runs out of descriptors -/

/-- `EMFILE`. -/
def emfile : ℤ := 24

namespace DirEntry

/-- A directory whose `cmdline` the scan opens. -/
def isCandidate (e : DirEntry) : Bool := !e.isDot && e.isDir

/-- The entry, when no descriptor is left for its file. -/
def starved (e : DirEntry) : DirEntry := { e with cmdline := .unopenable emfile }

end DirEntry

/-- A call of `get_vpp_pid`: the `errno` before it, and what `/proc` holds. -/
structure Scan where
  errno : ℤ
  entries : List DirEntry
deriving DecidableEq, Repr

/-- What the call finds with so many descriptors left: `opendir` takes one, `fopen` another. -/
def Scan.seen (c : Scan) : ℕ → ProcDir
  | 0 => .unopenable emfile
  | 1 => .listed (c.entries.map DirEntry.starved) none
  | _ + 2 => .listed c.entries none

/-- `/proc` lists a process, if only the plugin's own. -/
def Scan.Populated (c : Scan) : Prop := ∃ e ∈ c.entries, e.isCandidate = true

/-- What the health checks go by. The rest of the plugin gives back the descriptors it takes. -/
structure Watch where
  free : ℕ
  vppPidStart : ℤ
deriving DecidableEq, Repr

namespace Watch

/-- `sr_plugin_health_check_cb`, when it returns: whether it has connected anew. -/
def check (w : Watch) (c : Scan) : Bool × Watch :=
  let proc := c.seen w.free
  let now := getVppPid c.errno proc
  let free := w.free - (leaks c.errno proc).toNat
  if now = w.vppPidStart then (false, { w with free }) else (true, ⟨free, now⟩)

def after (w : Watch) (cs : List Scan) : Watch := cs.foldl (fun w c => (w.check c).2) w

/-- Which of the checks connect anew. -/
def reconnections : Watch → List Scan → List Bool
  | _, [] => []
  | w, c :: cs => (w.check c).1 :: reconnections (w.check c).2 cs

/-- How many of the checks lose a descriptor. -/
def leakCount : Watch → List Scan → ℕ
  | _, [] => 0
  | w, c :: cs => (leaks c.errno (c.seen w.free)).toNat + leakCount (w.check c).2 cs

variable {w : Watch} {c : Scan}

theorem check_free (w : Watch) (c : Scan) :
    (w.check c).2.free = w.free - (leaks c.errno (c.seen w.free)).toNat := by
  simp only [check]
  split <;> rfl

theorem check_vppPidStart (w : Watch) (c : Scan) :
    (w.check c).2.vppPidStart = getVppPid c.errno (c.seen w.free) := by
  simp only [check]
  split
  · next h => exact h.symm
  · rfl

theorem check_fst (w : Watch) (c : Scan) :
    (w.check c).1 = decide (getVppPid c.errno (c.seen w.free) ≠ w.vppPidStart) := by
  simp only [check]
  split <;> simp [*]

/-- Only an open directory can be lost. -/
theorem leaks_le_free (w : Watch) (c : Scan) :
    (leaks c.errno (c.seen w.free)).toNat ≤ w.free := by
  cases hfree : w.free with
  | zero => exact Nat.le_refl 0
  | succ n => exact (Bool.toNat_le _).trans n.succ_pos

/-- The descriptors that are left and those that are lost make up the ones at the start. -/
theorem free_add_leakCount (w : Watch) (cs : List Scan) :
    (w.after cs).free + w.leakCount cs = w.free := by
  induction cs generalizing w with
  | nil => rfl
  | cons c cs ih =>
    have hcheck := ih (w.check c).2
    have hfree := check_free w c
    have hle := leaks_le_free w c
    simp only [after, List.foldl_cons, leakCount] at hcheck ⊢
    omega

end Watch

theorem starved_isMatch (e : DirEntry) : e.starved.isMatch = false := by
  unfold DirEntry.isMatch DirEntry.process DirEntry.starved
  split <;> rfl

theorem starved_errnoAfter (e : DirEntry) :
    e.starved.errnoAfter = if e.isCandidate then some emfile else none := by
  unfold DirEntry.errnoAfter DirEntry.starved DirEntry.isCandidate DirEntry.isDot
  cases e.isDir with
  | false => simp
  | true =>
    by_cases hdot : (e.name == "." || e.name == "..") = true
    · simp [hdot]
    · simp [hdot]

/-- Every file that is not opened leaves the same `errno`. -/
theorem lastErrno_starved (errno : ℤ) (es : List DirEntry) :
    lastErrno errno (es.map DirEntry.starved) =
      if es.any DirEntry.isCandidate then emfile else errno := by
  induction es generalizing errno with
  | nil => rfl
  | cons e es ih =>
    rw [List.map_cons, lastErrno_cons, ih, starved_errnoAfter, List.any_cons]
    cases e.isCandidate <;> cases es.any DirEntry.isCandidate <;> rfl

/-- With a descriptor for the directory at most, the scan finds no VPP that runs. -/
theorem Scan.Populated.blind {c : Scan} (hc : c.Populated) {free : ℕ} (hfree : free ≤ 1) :
    getVppPid c.errno (c.seen free) = -emfile := by
  have hany : c.entries.any DirEntry.isCandidate = true := List.any_eq_true.mpr hc
  cases free with
  | zero => rfl
  | succ n =>
    obtain rfl : n = 0 := by omega
    have hfind : (c.entries.map DirEntry.starved).find? DirEntry.isMatch = none := by
      simp [List.find?_eq_none, starved_isMatch]
    rw [Scan.seen, getVppPid_listed, hfind, lastErrno_starved, if_pos hany]
    decide

namespace Watch

variable {w : Watch} {cs : List Scan}

theorem free_after_le (w : Watch) (cs : List Scan) : (w.after cs).free ≤ w.free := by
  have hsum := free_add_leakCount w cs
  omega

/-- Once a check has remembered that it could not look, the checks after it find no change. -/
theorem reconnections_blind (hfree : w.free ≤ 1) (hstart : w.vppPidStart = -emfile)
    (hcs : ∀ c ∈ cs, c.Populated) : w.reconnections cs = List.replicate cs.length false := by
  induction cs generalizing w with
  | nil => rfl
  | cons c cs ih =>
    rw [List.forall_mem_cons] at hcs
    have hnow := hcs.1.blind hfree
    have hsame : (w.check c).1 = false := by rw [check_fst, hnow, hstart]; decide
    have hfree' : (w.check c).2.free ≤ 1 := (free_after_le w [c]).trans hfree
    have hstart' : (w.check c).2.vppPidStart = -emfile := (check_vppPidStart w c).trans hnow
    rw [reconnections, hsame, ih hfree' hstart' hcs.2]
    rfl

/-- The checks see all of `/proc` for as long as they have lost at most all descriptors but two.
With one more lost they see no process any more, for good: from the second check on, none finds
that VPP has crashed, whatever VPP does. -/
theorem blind_after_leaks (w : Watch) (cs : List Scan) (c : Scan) (hc : c.Populated) :
    (w.leakCount cs + 1 < w.free → c.seen (w.after cs).free = .listed c.entries none) ∧
    (w.free ≤ w.leakCount cs + 1 →
      getVppPid c.errno (c.seen (w.after cs).free) = -emfile ∧
      ∀ ds : List Scan, (∀ d ∈ ds, d.Populated) →
        (w.after (cs ++ [c])).reconnections ds = List.replicate ds.length false) := by
  have hsum := free_add_leakCount w cs
  constructor
  · intro hleft
    obtain ⟨n, hn⟩ : ∃ n, (w.after cs).free = n + 2 := ⟨(w.after cs).free - 2, by omega⟩
    rw [hn, Scan.seen]
  · intro hlost
    have hfree : (w.after cs).free ≤ 1 := by omega
    have hlast : w.after (cs ++ [c]) = ((w.after cs).check c).2 := by
      simp only [after, List.foldl_append, List.foldl_cons, List.foldl_nil]
    refine ⟨hc.blind hfree, fun ds hds => ?_⟩
    have hstart := (check_vppPidStart (w.after cs) c).trans (hc.blind hfree)
    have hless := (free_after_le (w.after cs) [c]).trans hfree
    rw [hlast]
    exact reconnections_blind hless hstart hds

end Watch

/-- A process that exits while VPP is down. -/
def vanished : Scan := ⟨0, [⟨"4711", true, .unopenable 2⟩]⟩

def vppAt (pid : ℕ) : Scan := ⟨0, [⟨pid.repr, true, .readable "/usr/bin/vpp".toList⟩]⟩

/-- The last descriptor but one is lost while VPP is down. VPP starts, which one more check
reports as a crash; it is then restarted under another pid each time, and no check notices. -/
theorem restarts_unnoticed :
    (Watch.after ⟨2, 12⟩ [vanished, vppAt 12]).reconnections [vppAt 13, vppAt 14, vppAt 15] =
      [false, false, false] := by
  have hvpp : ∀ pid : ℕ, pid = 12 ∨ pid = 13 ∨ pid = 14 ∨ pid = 15 → (vppAt pid).Populated := by
    rintro _ (rfl | rfl | rfl | rfl) <;> exact ⟨_, List.mem_singleton_self _, by decide⟩
  have hlost := (Watch.blind_after_leaks ⟨2, 12⟩ [vanished] (vppAt 12) (hvpp 12 (by simp))).2
    (by decide)
  refine hlost.2 [vppAt 13, vppAt 14, vppAt 15] fun d hd => ?_
  simp only [List.mem_cons, List.not_mem_nil, or_false] at hd
  rcases hd with rfl | rfl | rfl <;> exact hvpp _ (by simp)

end Sweetcomb
