import Mathlib.Data.List.Find
import Sweetcomb.Dependencies
import Sweetcomb.Lib.LinkedList

/-!
# The list of registrations: `SC_DECLARE_FUNCTION`

Constructors put the functions in front of a linked list, one static element for each, and
destructors take them out. The list that the head leads to holds the functions that are
registered, the newest first.
-/

namespace Sweetcomb

/-- `_sc_init_function_list_elt_t`, and the same for the exit functions. Elements are named by
the function they are declared with. -/
structure FunctionListElt (F : Type) where
  next : Option F
  func : Option F
  isCalled : Bool
deriving DecidableEq, Repr

/-- The static elements, and `pm->init_function_registrations`. -/
structure Registrations (F : Type) where
  head : Option F
  elt : F → FunctionListElt F

/-- What may go wrong when pointers are followed. -/
inductive PointerFault
  | nullPointer
  /-- more pointers than the fuel allows for -/
  | endless
deriving DecidableEq, Repr

namespace Registrations

variable {F : Type}

/-- Static storage before any constructor has run. -/
def initial : Registrations F := ⟨none, fun _ => ⟨none, none, false⟩⟩

def next (s : Registrations F) (p : F) : Option F := (s.elt p).next

variable [DecidableEq F]

/-- `p->next = q`. -/
def setNext (s : Registrations F) (p : F) (q : Option F) : Registrations F :=
  { s with elt := Function.update s.elt p { s.elt p with next := q } }

/-- `p->is_called = true`. -/
def setCalled (s : Registrations F) (p : F) : Registrations F :=
  { s with elt := Function.update s.elt p { s.elt p with isCalled := true } }

/-- `__sc_add_##tag##_function_##f`. -/
def scAddFunction (f : F) (s : Registrations F) : Registrations F where
  head := some f
  elt := Function.update s.elt f ⟨s.head, some f, false⟩

/-- The loop `while (p->next != NULL)` of the removal. -/
def rmLoop (f : F) : ℕ → F → Registrations F → Except PointerFault (Registrations F)
  | fuel, p, s =>
    match s.next p with
    | none => .ok s
    | some q =>
      if (s.elt q).func = some f then .ok (s.setNext p (s.next q))
      else
        match fuel with
        | 0 => .error .endless
        | fuel + 1 => rmLoop f fuel q s

/-- `__sc_rm_##tag##_function_##f`. -/
def scRmFunction (fuel : ℕ) (f : F) (s : Registrations F) :
    Except PointerFault (Registrations F) :=
  match s.head with
  -- pm->init_function_registrations->func
  | none => .error .nullPointer
  | some h =>
    if (s.elt h).func = some f then .ok { s with head := s.next h } else rmLoop f fuel h s

/-- The walk of `sc_call_init_function` to the element it sets the flag of. -/
def walkToCall (fuel : ℕ) (f : F) (s : Registrations F) : Except PointerFault (Option F) :=
  match LinkedList.search s.next (fun p => (s.elt p).func = some f && !(s.elt p).isCalled) fuel
      s.head with
  | none => .error .endless
  | some p => .ok p

inductive Step (F : Type)
  | add (f : F)
  | rm (f : F)
  /-- `sc_call_init_function` sets the flag of the function -/
  | call (f : F)
deriving DecidableEq, Repr

/-- The function that a step is about. -/
def Step.func : Step F → F
  | .add f => f
  | .rm f => f
  | .call f => f

/-- The function that a step adds. -/
def Step.added : Step F → Option F
  | .add f => some f
  | _ => none

def step (fuel : ℕ) (s : Registrations F) : Step F → Except PointerFault (Registrations F)
  | .add f => .ok (s.scAddFunction f)
  | .rm f => s.scRmFunction fuel f
  | .call f => (s.walkToCall fuel f).map fun p => p.elim s s.setCalled

def run (fuel : ℕ) (steps : List (Step F)) (s : Registrations F) :
    Except PointerFault (Registrations F) :=
  steps.foldlM (step fuel) s

/-! ## The registered functions -/

/-- The functions added and not removed, the newest first. -/
def live : List F → Step F → List F
  | l, .add f => f :: l
  | l, .rm f => l.erase f
  | l, .call _ => l

/-- Whether a function is registered, and its flag, after a step that is about it. -/
def own : Bool × Bool → Step F → Bool × Bool
  | _, .add _ => (true, false)
  | (_, isCalled), .rm _ => (false, isCalled)
  | (registered, isCalled), .call _ => (registered, isCalled || registered)

/-- Only functions that are not registered are added, and only registered ones removed. -/
def Allowed : List F → List (Step F) → Prop
  | _, [] => True
  | l, .add f :: steps => f ∉ l ∧ Allowed (f :: l) steps
  | l, .rm f :: steps => f ∈ l ∧ Allowed (l.erase f) steps
  | l, .call _ :: steps => Allowed l steps

/-- The head leads through the elements of `l`, each of which holds its function. -/
structure Represents (s : Registrations F) (l : List F) : Prop where
  linked : LinkedList.Linked s.next s.head l
  func : ∀ f ∈ l, (s.elt f).func = some f

/-- The list after some steps: it holds the functions added and not removed, each once and the
newest first, and only the steps of a function itself bear on its flag. -/
structure Holds (steps : List (Step F)) (s : Registrations F) : Prop where
  represents : s.Represents (steps.foldl live [])
  nodup : (steps.foldl live []).Nodup
  newestFirst : (steps.foldl live []).Sublist (steps.filterMap Step.added).reverse
  mem_iff : ∀ g, g ∈ steps.foldl live [] ↔
    ((steps.filter fun st => st.func = g).foldl own (false, false)).1 = true
  isCalled : ∀ g, (s.elt g).isCalled =
    ((steps.filter fun st => st.func = g).foldl own (false, false)).2

/-! ## Writes to one element -/

omit [DecidableEq F] in
theorem Represents.ext {s s' : Registrations F} {l : List F} (h : s.Represents l)
    (hhead : s'.head = s.head) (hnext : s'.next = s.next)
    (hfunc : ∀ p, (s'.elt p).func = (s.elt p).func) : s'.Represents l where
  linked := by
    rw [hhead, hnext]
    exact h.linked
  func f hf := (hfunc f).trans (h.func f hf)

theorem next_setNext (s : Registrations F) (p : F) (q : Option F) :
    (s.setNext p q).next = Function.update s.next p q :=
  Function.comp_update FunctionListElt.next s.elt p _

theorem next_scAddFunction (f : F) (s : Registrations F) :
    (s.scAddFunction f).next = Function.update s.next f s.head :=
  Function.comp_update FunctionListElt.next s.elt f _

/-- A member of the elements that a write leaves as it is. -/
theorem comp_update_self {α : Type} (member : FunctionListElt F → α) (s : Registrations F) {p : F}
    {e : FunctionListElt F} (h : member e = member (s.elt p)) :
    member ∘ Function.update s.elt p e = member ∘ s.elt := by
  rw [Function.comp_update, h]
  exact Function.update_eq_self p (member ∘ s.elt)

@[simp] theorem head_setNext (s : Registrations F) (p : F) (q : Option F) :
    (s.setNext p q).head = s.head := rfl

@[simp] theorem func_setNext (s : Registrations F) (p : F) (q : Option F) (r : F) :
    ((s.setNext p q).elt r).func = (s.elt r).func :=
  congrFun (comp_update_self FunctionListElt.func s (e := { s.elt p with next := q }) rfl) r

@[simp] theorem isCalled_setNext (s : Registrations F) (p : F) (q : Option F) (r : F) :
    ((s.setNext p q).elt r).isCalled = (s.elt r).isCalled :=
  congrFun (comp_update_self FunctionListElt.isCalled s (e := { s.elt p with next := q }) rfl) r

theorem next_setCalled (s : Registrations F) (p : F) : (s.setCalled p).next = s.next :=
  comp_update_self FunctionListElt.next s rfl

theorem func_setCalled (s : Registrations F) (p r : F) :
    ((s.setCalled p).elt r).func = (s.elt r).func :=
  congrFun (comp_update_self FunctionListElt.func s (e := { s.elt p with isCalled := true }) rfl) r

/-! ## The steps -/

/-- A new registration goes in front of the list. -/
theorem Represents.scAddFunction {s : Registrations F} {l : List F} (h : s.Represents l) {f : F}
    (hf : f ∉ l) : (s.scAddFunction f).Represents (f :: l) where
  linked := by
    rw [next_scAddFunction]
    exact h.linked.push hf
  func g hg := by
    rcases List.mem_cons.mp hg with rfl | hg
    · simp [Registrations.scAddFunction]
    · have hgf : g ≠ f := fun hgf => hf (hgf ▸ hg)
      simp [Registrations.scAddFunction, hgf, h.func g hg]

/-- The loop from `p` finds `f` behind the elements of `pre`, and points the element before it
past it. -/
theorem rmLoop_eq {s : Registrations F} {f p : F} {pre post : List F}
    (hlinked : LinkedList.Linked s.next (some p) (p :: (pre ++ f :: post)))
    (hfunc : ∀ g ∈ pre ++ f :: post, (s.elt g).func = some g) {fuel : ℕ}
    (hfuel : pre.length ≤ fuel) :
    ∃ before prev, p :: pre = before ++ [prev] ∧
      rmLoop f fuel p s = .ok (s.setNext prev (s.next f)) := by
  have hnodup := (List.nodup_cons.mp hlinked.nodup).2
  have hnext := (LinkedList.linked_cons.mp hlinked).2
  induction pre generalizing p fuel with
  | nil =>
    obtain ⟨hp, -⟩ := LinkedList.linked_cons.mp hnext
    refine ⟨[], p, rfl, ?_⟩
    unfold rmLoop
    simp only [hp, hfunc f (by simp), if_true]
  | cons q pre ih =>
    obtain ⟨hp, hq⟩ := LinkedList.linked_cons.mp hnext
    have hqf : q ≠ f := by
      rintro rfl
      exact (List.nodup_cons.mp hnodup).1 (by simp)
    obtain ⟨fuel, rfl⟩ : ∃ n, fuel = n + 1 :=
      ⟨fuel - 1, by rw [List.length_cons] at hfuel; omega⟩
    obtain ⟨before, prev, hsplit, hloop⟩ := ih (hp ▸ hnext)
      (fun g hg => hfunc g (List.mem_cons_of_mem q hg)) (Nat.le_of_succ_le_succ hfuel)
      (List.nodup_cons.mp hnodup).2 hq
    refine ⟨p :: before, prev, by rw [hsplit, List.cons_append], ?_⟩
    unfold rmLoop
    simpa only [hp, hfunc q (by simp), Option.some.injEq, hqf, if_false] using hloop

/-- A registered function is taken out of the list, from its head or from behind another
element. The flags stay as they are. -/
theorem Represents.scRmFunction {s : Registrations F} {l : List F} (h : s.Represents l) {f : F}
    (hf : f ∈ l) {fuel : ℕ} (hfuel : l.length ≤ fuel) :
    ∃ s', s.scRmFunction fuel f = .ok s' ∧ s'.Represents (l.erase f) ∧
      ∀ g, (s'.elt g).isCalled = (s.elt g).isCalled := by
  cases l with
  | nil => cases hf
  | cons a l =>
    obtain ⟨hhead, hnext⟩ := LinkedList.linked_cons.mp h.linked
    have hfunc := fun g hg => h.func g (List.mem_cons_of_mem a hg)
    unfold Registrations.scRmFunction
    simp only [hhead, h.func a List.mem_cons_self, Option.some.injEq]
    by_cases haf : a = f
    · -- the head is moved on
      subst haf
      rw [List.erase_cons_head]
      exact ⟨_, if_pos rfl, ⟨hnext, hfunc⟩, fun _ => rfl⟩
    · rw [if_neg haf, List.erase_cons_tail (by simpa using haf)]
      have hfl := (List.mem_cons.mp hf).resolve_left (Ne.symm haf)
      obtain ⟨pre, post, rfl⟩ := List.append_of_mem hfl
      have hlinked := hhead ▸ h.linked
      simp only [List.length_cons, List.length_append] at hfuel
      obtain ⟨before, prev, hsplit, hloop⟩ :=
        rmLoop_eq hlinked hfunc (show pre.length ≤ fuel by omega)
      have hnodup := (List.nodup_cons.mp h.linked.nodup).2
      have hpre : f ∉ pre := fun hm =>
        (List.nodup_append.mp hnodup).2.2 f hm f List.mem_cons_self rfl
      refine ⟨_, hloop, ⟨?_, fun g hg => ?_⟩, isCalled_setNext s prev _⟩
      · rw [head_setNext, hhead, next_setNext, List.erase_append_right _ hpre, List.erase_cons_head,
          ← List.cons_append, hsplit, List.append_assoc]
        refine LinkedList.Linked.unlink ?_
        rw [← List.cons_append, hsplit, List.append_assoc] at hlinked
        exact hlinked
      · rw [func_setNext]
        exact h.func g (by
          rcases List.mem_cons.mp hg with rfl | hg
          · exact List.mem_cons_self
          · exact List.mem_cons_of_mem a (List.mem_of_mem_erase hg))

/-- A call finds the element of a registered function whose flag is not set. -/
theorem Represents.walkToCall {s : Registrations F} {l : List F} (h : s.Represents l) (f : F)
    {fuel : ℕ} (hfuel : l.length ≤ fuel) :
    s.walkToCall fuel f = .ok (l.find? fun p => p = f && !(s.elt p).isCalled) := by
  have hfind : (l.find? fun p => (s.elt p).func = some f && !(s.elt p).isCalled) =
      l.find? fun p => p = f && !(s.elt p).isCalled := by
    refine List.find?_congr fun p hp => ?_
    rw [h.func p hp]
    simp only [Option.some.injEq]
  rw [Registrations.walkToCall, h.linked.search_eq _ hfuel, hfind]

/-- The walk through the list is `sc_call_init_function` as the dependencies have it. -/
theorem Represents.scCallInitFunction_eq {W : Type} {s : Registrations F} {l : List F}
    (h : s.Represents l) {fuel : ℕ} (hfuel : l.length ≤ fuel)
    (func : F → CallOnce.State F W SrErr → Option (SrErr × CallOnce.State F W SrErr)) (f : F)
    {st : CallOnce.State F W SrErr} (hcalled : ∀ p, st.called p = (s.elt p).isCalled) :
    scCallInitFunction l func f st =
      match s.walkToCall fuel f with
      | .ok (some p) => func p st
      | _ => some (.ok, st) := by
  rw [h.walkToCall f hfuel, scCallInitFunction, CallOnce.callFunction]
  simp only [hcalled]
  cases l.find? fun p => p = f && !(s.elt p).isCalled with
  | none => rfl
  | some p => rfl

/-- A call changes no more than the flag of the function it is about. -/
theorem Represents.call {s : Registrations F} {l : List F} (h : s.Represents l) (f : F)
    {fuel : ℕ} (hfuel : l.length ≤ fuel) :
    ∃ s', step fuel s (.call f) = .ok s' ∧ s'.Represents l ∧
      ∀ g, (s'.elt g).isCalled = if f = g ∧ g ∈ l then true else (s.elt g).isCalled := by
  rw [step, h.walkToCall f hfuel]
  cases hfind : l.find? fun p => p = f && !(s.elt p).isCalled with
  | none =>
    refine ⟨s, rfl, h, fun g => ?_⟩
    split
    · next hg =>
      obtain ⟨rfl, hg⟩ := hg
      simpa using List.find?_eq_none.mp hfind f hg
    · rfl
  | some p =>
    have hp := List.find?_some hfind
    simp only [Bool.and_eq_true, decide_eq_true_eq] at hp
    obtain ⟨rfl, -⟩ := hp
    have hpl := List.mem_of_find?_eq_some hfind
    refine ⟨s.setCalled p, rfl, h.ext rfl (next_setCalled s p) (func_setCalled s p), fun g => ?_⟩
    by_cases hpg : p = g
    · subst hpg
      simp [setCalled, hpl]
    · simp [setCalled, hpg, Ne.symm hpg]

/-! ## Runs -/

/-- What a step does to the list and to the flags. -/
theorem Represents.step {s : Registrations F} {l : List F} (h : s.Represents l) {st : Step F}
    (hst : Allowed l [st]) {fuel : ℕ} (hfuel : l.length ≤ fuel) :
    ∃ s', step fuel s st = .ok s' ∧ s'.Represents (live l st) ∧ ∀ g,
      (decide (g ∈ live l st), (s'.elt g).isCalled) =
        if st.func = g then own (decide (g ∈ l), (s.elt g).isCalled) st
        else (decide (g ∈ l), (s.elt g).isCalled) := by
  cases st with
  | add f =>
    refine ⟨s.scAddFunction f, rfl, h.scAddFunction hst.1, fun g => ?_⟩
    by_cases hgf : f = g
    · subst hgf
      simp [Registrations.scAddFunction, Step.func, live, own]
    · simp [Registrations.scAddFunction, Step.func, live, hgf, Ne.symm hgf]
  | rm f =>
    obtain ⟨s', hrm, hs', hflags⟩ := h.scRmFunction hst.1 hfuel
    refine ⟨s', hrm, hs', fun g => ?_⟩
    rw [hflags g]
    by_cases hgf : f = g
    · subst hgf
      simp [Step.func, live, own, h.linked.nodup.not_mem_erase]
    · simp [Step.func, live, hgf, List.mem_erase_of_ne (Ne.symm hgf)]
  | call f =>
    obtain ⟨s', hcall, hs', hflags⟩ := h.call f hfuel
    refine ⟨s', hcall, hs', fun g => ?_⟩
    rw [hflags g]
    by_cases hgf : f = g
    · subst hgf
      by_cases hfl : f ∈ l <;> simp [Step.func, live, own, hfl]
    · simp only [Step.func, live, hgf, false_and, if_false]
      rfl

theorem allowed_cons {l : List F} {st : Step F} {steps : List (Step F)} :
    Allowed l (st :: steps) ↔ Allowed l [st] ∧ Allowed (live l st) steps := by
  cases st <;> simp [Allowed, live]

theorem length_live_le (l : List F) (st : Step F) : (live l st).length ≤ l.length + 1 := by
  cases st with
  | add f => exact Nat.le_refl _
  | rm f => exact Nat.le_succ_of_le List.length_erase_le
  | call f => exact Nat.le_succ _

theorem Represents.run {s : Registrations F} {l : List F} (h : s.Represents l)
    {steps : List (Step F)} (hsteps : Allowed l steps) {fuel : ℕ}
    (hfuel : l.length + steps.length ≤ fuel) :
    ∃ s', run fuel steps s = .ok s' ∧ s'.Represents (steps.foldl live l) ∧ ∀ g,
      (decide (g ∈ steps.foldl live l), (s'.elt g).isCalled) =
        (steps.filter fun st => st.func = g).foldl own
          (decide (g ∈ l), (s.elt g).isCalled) := by
  induction steps generalizing s l with
  | nil => exact ⟨s, rfl, h, fun _ => rfl⟩
  | cons st steps ih =>
    rw [List.length_cons] at hfuel
    obtain ⟨hst, hrest⟩ := allowed_cons.mp hsteps
    obtain ⟨s₁, hstep, hs₁, hflags₁⟩ := h.step hst (show l.length ≤ fuel by omega)
    have hlength := length_live_le l st
    obtain ⟨s', hrun, hs', hflags⟩ := ih hs₁ hrest (by omega)
    refine ⟨s', ?_, hs', fun g => ?_⟩
    · rw [Registrations.run, List.foldlM_cons, hstep]
      exact hrun
    · rw [List.foldl_cons, hflags g, hflags₁ g, List.filter_cons]
      by_cases hg : st.func = g
      · simp only [hg, if_true, decide_true, List.foldl_cons]
      · simp only [hg, if_false, decide_false, Bool.false_eq_true]

theorem live_sublist (steps : List (Step F)) (l : List F) :
    (steps.foldl live l).Sublist ((steps.filterMap Step.added).reverse ++ l) := by
  induction steps generalizing l with
  | nil => exact List.Sublist.refl l
  | cons st steps ih =>
    rw [List.foldl_cons]
    refine (ih _).trans ?_
    cases st with
    | add f => simp [live, Step.added]
    | rm f => exact List.erase_sublist.append_left _
    | call f => exact List.Sublist.refl _

/-- After any registrations and removals in any order, the list from the head is that of the
functions registered, and no null pointer has been followed. -/
theorem registrations_hold {steps : List (Step F)} (hsteps : Allowed [] steps) {fuel : ℕ}
    (hfuel : steps.length ≤ fuel) : ∃ s, run fuel steps initial = .ok s ∧ Holds steps s := by
  have hinitial : (initial : Registrations F).Represents [] := ⟨.nil, by simp⟩
  obtain ⟨s, hrun, hs, hflags⟩ :=
    hinitial.run hsteps (show [].length + steps.length ≤ fuel by simpa)
  refine ⟨s, hrun, hs, hs.linked.nodup, by simpa using live_sublist steps [], fun g => ?_,
    fun g => congrArg Prod.snd (hflags g)⟩
  rw [← decide_eq_true_iff (p := g ∈ steps.foldl live [])]
  exact congrArg (· = true) (congrArg Prod.fst (hflags g)) |>.to_iff

/-- A removal from between two others, one of which was called before. -/
theorem registrations_hold_interior :
    ∃ s, run 5 [.add 0, .add 1, .call 0, .add 2, .rm 1] initial = .ok s ∧
      s.Represents [2, 0] ∧ (s.elt 0).isCalled = true ∧ (s.elt 2).isCalled = false := by
  obtain ⟨s, hrun, hs⟩ := registrations_hold
    (show Allowed [] [.add 0, .add 1, .call 0, .add 2, .rm 1] by simp [Allowed]) (Nat.le_refl 5)
  exact ⟨s, hrun, hs.represents, hs.isCalled 0, hs.isCalled 2⟩

end Registrations

end Sweetcomb
