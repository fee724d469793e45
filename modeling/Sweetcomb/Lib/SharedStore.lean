import Mathlib.Data.Finset.Basic
import Mathlib.Tactic.Common

/-!
# A keyed store of references to shared objects

Clients hold references under keys. Some references keep a shared object alive
(`owner`); a shared object has an attribute exactly as long as some reference
keeps it, so dropping the last one destroys it.
-/

variable {K R N A : Type*}

/-- The references held, and the attributes of the shared objects they keep. -/
@[ext] structure SharedStore (K A : Type*) {R N : Type*} (owner : R → Option N) where
  refs : Finset (K × R)
  attr : N → Option A
  live : ∀ n, (attr n).isSome ↔ ∃ e ∈ refs, owner e.2 = some n

namespace SharedStore

variable {owner : R → Option N} {s : SharedStore K A owner} {k k' : K} {r r' : R} {a : A}
  {n m : N} {f : A → A}

/-- The store of a client that holds nothing. -/
def empty : SharedStore K A owner where
  refs := ∅
  attr _ := none
  live n := by simp

@[simp] theorem not_mem_empty (e : K × R) : e ∉ (empty : SharedStore K A owner).refs :=
  Finset.notMem_empty e

theorem attr_eq_none : s.attr n = none ↔ ∀ e ∈ s.refs, owner e.2 ≠ some n := by
  rw [← Option.not_isSome_iff_eq_none, s.live n]
  push Not
  rfl

/-! ## Changing a shared object in place -/

section Adjust
variable [DecidableEq N]

/-- Change the attribute of the shared object `n`, if it is alive. -/
def adjust (s : SharedStore K A owner) (n : N) (f : A → A) : SharedStore K A owner where
  refs := s.refs
  attr m := if m = n then (s.attr m).map f else s.attr m
  live m := by
    split_ifs with h
    · rw [Option.isSome_map]
      exact s.live m
    · exact s.live m

theorem adjust_attr :
    (s.adjust n f).attr m = if m = n then (s.attr m).map f else s.attr m := rfl

@[simp] theorem isSome_adjust : ((s.adjust n f).attr m).isSome = (s.attr m).isSome := by
  rw [adjust_attr]
  split_ifs <;> simp

end Adjust

/-! ## Dropping a key -/

section Drop
variable [DecidableEq N] [DecidableEq K]

/-- Forget every reference held under `k`. -/
def drop (s : SharedStore K A owner) (k : K) : SharedStore K A owner where
  refs := s.refs.filter fun e => e.1 ≠ k
  attr n :=
    if ∃ e ∈ s.refs.filter (fun e : K × R => e.1 ≠ k), owner e.2 = some n then s.attr n else none
  live n := by
    split_ifs with h
    · refine iff_of_true ((s.live n).mpr ?_) h
      obtain ⟨e, he, ho⟩ := h
      exact ⟨e, (Finset.mem_filter.mp he).1, ho⟩
    · exact iff_of_false (by simp) h

@[simp] theorem mem_drop {e : K × R} : e ∈ (s.drop k).refs ↔ e ∈ s.refs ∧ e.1 ≠ k :=
  Finset.mem_filter

/-- A shared object outlives a drop as long as another key refers to it. -/
theorem drop_attr_of_mem {e : K × R} (he : e ∈ s.refs) (hk : e.1 ≠ k) (ho : owner e.2 = some n) :
    (s.drop k).attr n = s.attr n :=
  if_pos ⟨e, Finset.mem_filter.mpr ⟨he, hk⟩, ho⟩

theorem drop_attr_of_forall (h : ∀ e ∈ s.refs, owner e.2 = some n → e.1 = k) :
    (s.drop k).attr n = none := by
  refine if_neg ?_
  rintro ⟨e, he, ho⟩
  obtain ⟨he, hk⟩ := Finset.mem_filter.mp he
  exact hk (h e he ho)

theorem drop_attr_eq_some (h : (s.drop k).attr n = some a) : s.attr n = some a := by
  change (if _ then _ else _) = _ at h
  split_ifs at h
  exact h

/-- Dropping a key under which nothing is held changes nothing. -/
theorem drop_eq_self (h : ∀ e ∈ s.refs, e.1 ≠ k) : s.drop k = s := by
  ext1
  · exact Finset.filter_true_of_mem h
  · funext n
    by_cases hn : ∃ e ∈ s.refs, owner e.2 = some n
    · obtain ⟨e, he, ho⟩ := hn
      exact drop_attr_of_mem he (h e he) ho
    -- an object that nothing keeps has no attribute, before and after
    · rw [attr_eq_none.mpr fun e he ho => hn ⟨e, he, ho⟩]
      exact drop_attr_of_forall fun e he ho => (hn ⟨e, he, ho⟩).elim

/-! ### Several keys -/

def dropAll (s : SharedStore K A owner) (ks : List K) : SharedStore K A owner := ks.foldl drop s

@[simp] theorem mem_dropAll {e : K × R} {ks : List K} :
    e ∈ (s.dropAll ks).refs ↔ e ∈ s.refs ∧ e.1 ∉ ks := by
  induction ks generalizing s with
  | nil => simp [dropAll]
  | cons k ks ih =>
    -- the first key is dropped before the others
    show e ∈ ((s.drop k).dropAll ks).refs ↔ _
    rw [ih, mem_drop, List.mem_cons, not_or, and_assoc]

theorem dropAll_append (s : SharedStore K A owner) (ks ks' : List K) :
    s.dropAll (ks ++ ks') = (s.dropAll ks).dropAll ks' := List.foldl_append

theorem dropAll_attr_eq_some {ks : List K} (h : (s.dropAll ks).attr n = some a) :
    s.attr n = some a := by
  induction ks generalizing s with
  | nil => exact h
  | cons k ks ih => exact drop_attr_eq_some (ih h)

/-- What is alive after some keys are dropped is kept by another key. -/
theorem isSome_dropAll {ks : List K} :
    ((s.dropAll ks).attr n).isSome ↔ ∃ e ∈ s.refs, e.1 ∉ ks ∧ owner e.2 = some n := by
  rw [live]
  simp only [mem_dropAll, and_assoc]

/-- Dropping fewer keys keeps more objects alive. -/
theorem isSome_dropAll_mono {ks ks' : List K} (hsub : ks ⊆ ks')
    (h : ((s.dropAll ks').attr n).isSome) : ((s.dropAll ks).attr n).isSome := by
  obtain ⟨e, he, hk, ho⟩ := isSome_dropAll.mp h
  exact isSome_dropAll.mpr ⟨e, he, fun hm => hk (hsub hm), ho⟩

/-- An object that is there before the last of two lists of removals was there before the last
of the first list, which drops fewer keys. -/
theorem isSome_dropLast_append {ks ks' : List K} :
    (ks ++ ks' ≠ [] → ((s.dropAll (ks ++ ks').dropLast).attr n).isSome) ↔
      (ks ≠ [] → ((s.dropAll ks.dropLast).attr n).isSome) ∧
        (ks' ≠ [] → (((s.dropAll ks).dropAll ks'.dropLast).attr n).isSome) := by
  by_cases hks' : ks' = []
  · simp [hks']
  · rw [List.dropLast_append_of_ne_nil hks', dropAll_append]
    constructor
    · intro h
      have halive := h (by simp [hks'])
      refine ⟨fun _ => ?_, fun _ => halive⟩
      rw [← dropAll_append] at halive
      exact isSome_dropAll_mono
        (fun k hk => List.mem_append_left _ (List.dropLast_subset _ hk)) halive
    · exact fun h _ => h.2 hks'

end Drop

/-- Stores with the same references are equal when one's attributes are the other's. -/
theorem eq_of_refs {s' : SharedStore K A owner} (hrefs : s.refs = s'.refs)
    (hattr : ∀ n a, s.attr n = some a → s'.attr n = some a) : s = s' := by
  ext1
  · exact hrefs
  · funext n
    cases h : s.attr n with
    | some a => exact (hattr n a h).symm
    | none =>
      have hnone := attr_eq_none.mp h
      rw [hrefs] at hnone
      exact (attr_eq_none.mpr hnone).symm

/-! ## Holding a reference -/

section Hold
variable [DecidableEq N] [DecidableEq K] [DecidableEq R]

/-- Hold `r` under `k`; the shared object it keeps gets the attribute `a`. -/
def put (s : SharedStore K A owner) (k : K) (r : R) (a : A) : SharedStore K A owner where
  refs := insert (k, r) s.refs
  attr n := if owner r = some n then some a else s.attr n
  live n := by
    by_cases h : owner r = some n
    · simp [h]
    · simp [h, s.live n]

/-- Hold `r` under `k`; the shared object it keeps stays as it is, if it is alive. -/
def hold (s : SharedStore K A owner) (k : K) (r : R) (a : A) : SharedStore K A owner where
  refs := insert (k, r) s.refs
  attr n := if owner r = some n then some ((s.attr n).getD a) else s.attr n
  live n := by
    by_cases h : owner r = some n
    · simp [h]
    · simp [h, s.live n]

theorem put_attr : (s.put k r a).attr n = if owner r = some n then some a else s.attr n := rfl

/-- Holding a reference to an object that is alive changes no attribute. -/
theorem hold_attr (h : ∀ n, owner r = some n → (s.attr n).isSome) :
    (s.hold k r a).attr = s.attr := by
  funext n
  change (if owner r = some n then _ else _) = _
  split_ifs with hn
  · obtain ⟨b, hb⟩ := Option.isSome_iff_exists.mp (h n hn)
    simp [hb]
  · rfl

end Hold

end SharedStore
