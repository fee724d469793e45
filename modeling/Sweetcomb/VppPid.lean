import Sweetcomb.HealthCheck
import Sweetcomb.Lib.EarlyExit
import Sweetcomb.PrefixText

/-!
# `get_vpp_pid`

The scan of `/proc` returns at the first command line that names VPP. When there is none,
the outcome is the `errno` that the entries seen on the way have left.
-/

namespace Sweetcomb

/-! ## Reading a directory -/

/-- What `fopen` and `fread` find in `cmdline`; a failing call sets `errno`. -/
inductive CmdlineFile
  | unopenable (errno : ℤ)
  | unreadable (errno : ℤ)
  | readable (text : List Char)
deriving DecidableEq, Repr

structure DirEntry where
  name : String
  /-- `d_type` is `DT_DIR` -/
  isDir : Bool
  cmdline : CmdlineFile
deriving DecidableEq, Repr

/-- What `opendir` and `readdir` answer on `/proc`: the error of the first, or the entries
and the error of the second that ends them. -/
inductive ProcDir
  | unopenable (errno : ℤ)
  | listed (entries : List DirEntry) (readdir : Option ℤ)
deriving DecidableEq, Repr

/-- `std::atoi`. -/
def atoi (l : List Char) : ℤ := (stoi l).getD 0

theorem atoi_repr {pid : ℕ} (h : pid < 2 ^ 31) : atoi pid.repr.toList = pid := by
  rw [atoi, Numeral.stoi_repr h, Option.getD_some]

/-- The characters up to the first NUL or space. -/
def firstToken (l : List Char) : List Char := l.takeWhile fun c => c != '\x00' && c != ' '

/-- `strtok(s, " ")` on a C string, which ends at its first NUL. -/
def strtok (s : List Char) : Option (List Char) :=
  let t := firstToken (s.dropWhile (· == ' '))
  if t = [] then none else some t

/-- `VPP_FULL_PATH`. -/
def vppFullPath : String := "/usr/bin/vpp"

def vppNames : List (List Char) := ["vpp".toList, vppFullPath.toList]

namespace DirEntry

def isDot (e : DirEntry) : Bool := e.name == "." || e.name == ".."

/-- `filetext`: as much of the command line as the buffer is read for. -/
def filetext (text : List Char) : List Char := text.take (vppFullPath.length + 1)

/-- One turn of the loop: `.error` returns the pid, `.ok` goes on with `errno`. -/
def visit (errno : ℤ) (e : DirEntry) : Except ℤ ℤ :=
  if e.isDot then .ok errno
  else if !e.isDir then .ok errno
  else
    match e.cmdline with
    | .unopenable n => .ok n
    | .unreadable n => .ok n
    | .readable text =>
      if filetext text = [] then .ok errno
      else
        match strtok (filetext text) with
        | none => .ok errno
        | some first => if first ∈ vppNames then .error (atoi e.name.toList) else .ok 0

/-- The command line of an entry that is a process. -/
def process (e : DirEntry) : Option (List Char) :=
  if e.isDot || !e.isDir then none
  else
    match e.cmdline with
    | .readable text => some text
    | _ => none

/-- The entry the loop returns at. -/
def isMatch (e : DirEntry) : Bool :=
  e.process.any fun text => (strtok (filetext text)).any (· ∈ vppNames)

/-- The process whose first token is a name of VPP. -/
def isVpp (e : DirEntry) : Bool := e.process.any fun text => firstToken text ∈ vppNames

/-- The process whose command line starts with blanks, and what the buffer holds after
them with a name of VPP. -/
def isBlankLed (e : DirEntry) : Bool :=
  e.process.any fun text =>
    text.head? == some ' ' && decide (firstToken ((filetext text).dropWhile (· == ' ')) ∈ vppNames)

/-- What a turn that goes on does to `errno`: a failing call sets it, a process with a name
of its own clears it, and every other entry leaves it. -/
def errnoAfter (e : DirEntry) : Option ℤ :=
  if e.isDot || !e.isDir then none
  else
    match e.cmdline with
    | .unopenable n | .unreadable n => some n
    | .readable text => (strtok (filetext text)).map fun _ => 0

theorem visit_eq (errno : ℤ) (e : DirEntry) :
    e.visit errno =
      if e.isMatch then .error (atoi e.name.toList) else .ok (e.errnoAfter.getD errno) := by
  unfold visit isMatch process errnoAfter
  cases e.isDot with
  | true => simp
  | false =>
    cases e.isDir with
    | false => simp
    | true =>
      cases e.cmdline with
      | unopenable n => simp
      | unreadable n => simp
      | readable text =>
        by_cases hempty : filetext text = []
        · simp [hempty, strtok, firstToken]
        · cases hfirst : strtok (filetext text) with
          | none => simp [hempty, hfirst]
          | some first => by_cases hname : first ∈ vppNames <;> simp [hempty, hfirst, hname]

end DirEntry

open DirEntry

/-- `get_vpp_pid`, called with `errno`. -/
def getVppPid (errno : ℤ) : ProcDir → ℤ
  | .unopenable n => -n
  | .listed es readdir =>
    match es.foldlM (fun errno e => e.visit errno) errno with
    | .error pid => pid
    | .ok errno =>
      let errno := readdir.getD errno
      if errno ≠ 0 then -errno else -Sys.esrch

/-! ## The entry the scan returns at -/

theorem any_strtok (s : List Char) :
    (strtok s).any (· ∈ vppNames) = decide (firstToken (s.dropWhile (· == ' ')) ∈ vppNames) := by
  unfold strtok
  by_cases h : firstToken (s.dropWhile (· == ' ')) = []
  · have hnil : ([] : List Char) ∉ vppNames := by decide
    simp [h, hnil]
  · simp [h]

/-- The buffer is longer than a name of VPP, so that a longer name is not cut to one. -/
theorem take_mem_vppNames (t : List Char) :
    t.take (vppFullPath.length + 1) ∈ vppNames ↔ t ∈ vppNames := by
  have hlength : ∀ w ∈ vppNames, w.length < vppFullPath.length + 1 := by decide
  by_cases ht : t.length ≤ vppFullPath.length + 1
  · rw [List.take_of_length_le ht]
  · constructor <;> intro hm
    · have hlt := hlength _ hm
      rw [List.length_take] at hlt
      omega
    · have hlt := hlength _ hm
      omega

theorem firstToken_filetext (text : List Char) :
    firstToken (filetext text) ∈ vppNames ↔ firstToken text ∈ vppNames := by
  rw [firstToken, filetext, ← List.take_takeWhile]
  exact take_mem_vppNames _

theorem isMatch_eq (e : DirEntry) : e.isMatch = (e.isVpp || e.isBlankLed) := by
  unfold isMatch isVpp isBlankLed
  cases e.process with
  | none => rfl
  | some text =>
    simp only [Option.any_some, any_strtok]
    cases text with
    | nil => decide
    | cons c text =>
      by_cases hc : c = ' '
      · -- the token before the blank is empty
        have hnil : firstToken (' ' :: text) = [] := by simp [firstToken]
        have hnone : firstToken (' ' :: text) ∉ vppNames := by rw [hnil]; decide
        simp [hc, hnone]
      · have hdrop : (filetext (c :: text)).dropWhile (· == ' ') = filetext (c :: text) := by
          simp [filetext, hc]
        simp [hdrop, hc, firstToken_filetext]

/-- No process before the first VPP one takes its place. -/
def Unled (es : List DirEntry) : Prop :=
  ∀ e ∈ es.takeWhile (fun e => !e.isVpp), e.isBlankLed = false

theorem find?_isMatch (es : List DirEntry) :
    (Unled es ∧ es.find? isMatch = es.find? isVpp) ∨
      (¬ Unled es ∧ ∃ e, es.find? isMatch = some e ∧ e.isVpp = false) := by
  induction es with
  | nil => exact .inl ⟨by simp [Unled], rfl⟩
  | cons e es ih =>
    unfold Unled at ih ⊢
    cases hvpp : e.isVpp with
    | true => exact .inl ⟨by simp [hvpp], by simp [isMatch_eq, hvpp]⟩
    | false =>
      cases hled : e.isBlankLed with
      | true => exact .inr ⟨by simp [hvpp, hled], e, by simp [isMatch_eq, hled], hvpp⟩
      | false =>
        have hmatch : e.isMatch = false := by rw [isMatch_eq, hvpp, hled]; rfl
        simpa [hvpp, hled, hmatch] using ih

/-! ## The `errno` the scan ends with -/

/-- What the last entry that touches `errno` leaves there. -/
def lastErrno (errno : ℤ) (es : List DirEntry) : ℤ := (es.filterMap errnoAfter).getLastD errno

theorem lastErrno_cons (errno : ℤ) (e : DirEntry) (es : List DirEntry) :
    lastErrno errno (e :: es) = lastErrno (e.errnoAfter.getD errno) es := by
  unfold lastErrno
  cases h : e.errnoAfter with
  | none => simp [h]
  | some n => rw [List.filterMap_cons_some h, List.getLastD_cons, Option.getD_some]

/-- The scan as a whole, when `readdir` reports no error. -/
theorem getVppPid_listed (errno : ℤ) (es : List DirEntry) :
    getVppPid errno (.listed es none) =
      match es.find? isMatch with
      | some e => atoi e.name.toList
      | none =>
        if lastErrno errno es ≠ 0 then -lastErrno errno es else -Sys.esrch := by
  induction es generalizing errno with
  | nil => rfl
  | cons e es ih =>
    have hvisit := e.visit_eq errno
    unfold getVppPid at ih ⊢
    cases hmatch : e.isMatch with
    | true =>
      rw [hmatch, if_pos rfl] at hvisit
      simp only [EarlyExit.foldlM_cons_error es hvisit, List.find?_cons, hmatch]
    | false =>
      rw [hmatch, if_neg Bool.false_ne_true] at hvisit
      simp only [EarlyExit.foldlM_cons_ok es hvisit, List.find?_cons, hmatch, lastErrno_cons]
      exact ih _

/-! ## What the scan finds -/

/-- `/proc` lists each name once, and a process under its decimal pid. -/
structure Procfs (es : List DirEntry) : Prop where
  named : ∀ e ∈ es, ∀ text, e.process = some text → ∃ pid : ℕ, pid < 2 ^ 31 ∧ e.name = pid.repr
  nodup : (es.map DirEntry.name).Nodup

/-- `r` is the pid of the first VPP process, or tells that there is none. -/
structure FindsVpp (es : List DirEntry) (r : ℤ) : Prop where
  first : ∀ e, es.find? isVpp = some e → ∃ pid : ℕ, e.name = pid.repr ∧ r = pid
  absent : r = -Sys.esrch ↔ ∀ e ∈ es, e.isVpp = false
  negative : r < 0 → r = -Sys.esrch

theorem Procfs.pid_of_isMatch {es : List DirEntry} (hes : Procfs es) {e : DirEntry}
    (he : e ∈ es) (hmatch : e.isMatch) :
    ∃ pid : ℕ, e.name = pid.repr ∧ atoi e.name.toList = pid := by
  cases hproc : e.process with
  | none => simp [isMatch, hproc] at hmatch
  | some text =>
    obtain ⟨pid, hpid, hname⟩ := hes.named e he text hproc
    exact ⟨pid, hname, by rw [hname, atoi_repr hpid]⟩

/-- The first VPP process is what is to be found. -/
theorem Procfs.findsVpp_of_first {es : List DirEntry} (hes : Procfs es) {e : DirEntry}
    (hfirst : es.find? isVpp = some e) : FindsVpp es (atoi e.name.toList) := by
  have he := List.mem_of_find?_eq_some hfirst
  have hvpp := List.find?_some hfirst
  have hesrch : Sys.esrch = 3 := rfl
  obtain ⟨pid, hname, hpid⟩ := hes.pid_of_isMatch he (by simp [isMatch_eq, hvpp])
  rw [hpid]
  refine ⟨fun e' he' => ?_, iff_of_false (by omega) fun h => ?_, by omega⟩
  · rw [hfirst, Option.some.injEq] at he'
    exact ⟨pid, he' ▸ hname, rfl⟩
  · simp [h e he] at hvpp

theorem findsVpp_absent_iff {es : List DirEntry} (habsent : ∀ e ∈ es, e.isVpp = false) {r : ℤ} :
    FindsVpp es r ↔ r = -Sys.esrch := by
  constructor
  · exact fun h => h.absent.mpr habsent
  · intro hr
    refine ⟨fun e he => ?_, iff_of_true hr habsent, fun _ => hr⟩
    have hvpp := List.find?_some he
    rw [habsent e (List.mem_of_find?_eq_some he)] at hvpp
    cases hvpp

/-- The pid of another process is not what is to be found. -/
theorem Procfs.not_findsVpp_other {es : List DirEntry} (hes : Procfs es) {e : DirEntry}
    (he : e ∈ es) (hmatch : e.isMatch) (hvpp : e.isVpp = false) :
    ¬ FindsVpp es (atoi e.name.toList) := by
  intro h
  have hesrch : Sys.esrch = 3 := rfl
  obtain ⟨pid, hname, hpid⟩ := hes.pid_of_isMatch he hmatch
  rw [hpid] at h
  cases hfirst : es.find? isVpp with
  | none =>
    have hr := h.absent.mpr (by simpa [List.find?_eq_none] using hfirst)
    omega
  | some f =>
    -- names tell processes apart
    obtain ⟨pid', hname', hpid'⟩ := h.first f hfirst
    have hsame : pid = pid' := by omega
    have hef : e = f := List.inj_on_of_nodup_map hes.nodup he (List.mem_of_find?_eq_some hfirst)
      (by rw [hname, hname', hsame])
    have hvpp' := List.find?_some hfirst
    rw [← hef, hvpp] at hvpp'
    cases hvpp'

/-- The scan finds VPP or reports its absence, unless a blank-led command line comes first
or a failed `fopen` is the last to touch `errno`. -/
theorem findsVpp_iff {es : List DirEntry} (hes : Procfs es) (errno : ℤ) :
    FindsVpp es (getVppPid errno (.listed es none)) ↔
      Unled es ∧ ((∀ e ∈ es, e.isVpp = false) →
        lastErrno errno es = 0 ∨ lastErrno errno es = Sys.esrch) := by
  rw [getVppPid_listed]
  rcases find?_isMatch es with ⟨hled, hfind⟩ | ⟨hled, e, hfind, hvpp⟩
  · rw [hfind]
    cases hfirst : es.find? isVpp with
    | some e =>
      refine iff_of_true (hes.findsVpp_of_first hfirst) ⟨hled, fun h => ?_⟩
      have hvpp := List.find?_some hfirst
      rw [h e (List.mem_of_find?_eq_some hfirst)] at hvpp
      cases hvpp
    | none =>
      have habsent : ∀ e ∈ es, e.isVpp = false := by
        simpa [List.find?_eq_none] using hfirst
      have hlast : (if lastErrno errno es ≠ 0 then -lastErrno errno es else -Sys.esrch) =
          -Sys.esrch ↔ lastErrno errno es = 0 ∨ lastErrno errno es = Sys.esrch := by
        split <;> omega
      rw [findsVpp_absent_iff habsent]
      exact hlast.trans ⟨fun h => ⟨hled, fun _ => h⟩, fun h => h.2 habsent⟩
  · -- the scan returns at a process that is not VPP
    rw [hfind]
    refine iff_of_false ?_ fun h => hled h.1
    exact hes.not_findsVpp_other (List.mem_of_find?_eq_some hfind) (List.find?_some hfind) hvpp

/-- The last process has exited between `readdir` and `fopen`. -/
theorem not_findsVpp_enoent :
    ¬ FindsVpp
      [⟨"1", true, .readable "/sbin/init".toList⟩, ⟨"4711", true, .unopenable 2⟩]
      (getVppPid 0 (.listed
        [⟨"1", true, .readable "/sbin/init".toList⟩, ⟨"4711", true, .unopenable 2⟩] none)) := by
  intro h
  exact absurd (h.absent.mpr (by decide)) (by decide)

/-- A process that only extends the name of VPP is passed over, and the next one is found. -/
theorem findsVpp_after_vppctl :
    FindsVpp
      [⟨"7", true, .readable "/usr/bin/vppctl".toList⟩,
        ⟨"12", true, .readable "/usr/bin/vpp".toList⟩]
      (getVppPid 2 (.listed [⟨"7", true, .readable "/usr/bin/vppctl".toList⟩,
        ⟨"12", true, .readable "/usr/bin/vpp".toList⟩] none)) := by
  have hes : Procfs [⟨"7", true, .readable "/usr/bin/vppctl".toList⟩,
      ⟨"12", true, .readable "/usr/bin/vpp".toList⟩] := by
    refine ⟨fun e he _ _ => ?_, by decide⟩
    simp only [List.mem_cons, List.not_mem_nil, or_false] at he
    rcases he with rfl | rfl
    · exact ⟨7, by decide, by decide⟩
    · exact ⟨12, by decide, by decide⟩
  refine (findsVpp_iff hes 2).mpr ⟨?_, fun h => ?_⟩
  · unfold Unled
    decide
  · exact absurd (h _ (List.mem_cons_of_mem _ List.mem_cons_self)) (by decide)

/-- The sample of the health check is the scan of a `/proc` that lists the running VPP. -/
theorem FindsVpp.eq_sample {es : List DirEntry} {r : ℤ} (h : FindsVpp es r) {s : Sys}
    {pid : Incarnation → ℕ}
    (hrunning : ∀ i, s.running = some i → ∃ e, es.find? isVpp = some e ∧ e.name = (pid i).repr)
    (hstopped : s.running = none → ∀ e ∈ es, e.isVpp = false) :
    r = s.getVppPid fun i => pid i := by
  unfold Sys.getVppPid
  cases hs : s.running with
  | some i =>
    obtain ⟨e, he, hname⟩ := hrunning i hs
    obtain ⟨n, hn, hr⟩ := h.first e he
    have hpid : n = pid i := Text.repr_injective (hn.symm.trans hname)
    simp only [hr, hpid]
  | none => exact h.absent.mpr (hstopped hs)

end Sweetcomb
