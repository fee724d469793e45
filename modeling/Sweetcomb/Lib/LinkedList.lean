import Mathlib.Data.List.Nodup
import Mathlib.Logic.Function.Basic

/-!
# Linked lists in memory

Nodes point to the next node or to null. A list of nodes is linked from a head when the
pointers go through it, in order, and end at null. Such a list is finite and repeats no
node; pointers of other nodes do not matter to it.
-/

namespace LinkedList

variable {α : Type*} {next next' : α → Option α} {head : Option α} {l l' : List α}

/-- From `head` the pointers lead through `l` and end. -/
inductive Linked (next : α → Option α) : Option α → List α → Prop
  | nil : Linked next none []
  | cons {a : α} {l : List α} (h : Linked next (next a) l) : Linked next (some a) (a :: l)

theorem linked_cons {a : α} :
    Linked next head (a :: l) ↔ head = some a ∧ Linked next (next a) l := by
  constructor
  · intro h
    cases h with
    | cons h => exact ⟨rfl, h⟩
  · rintro ⟨rfl, h⟩
    exact .cons h

/-- Only one list is linked from a head. -/
theorem Linked.unique (h : Linked next head l) (h' : Linked next head l') : l = l' := by
  induction h generalizing l' with
  | nil =>
    cases h' with
    | nil => rfl
  | cons _ ih =>
    cases h' with
    | cons h' => rw [ih h']

/-- The nodes from a node of the list on are linked from that node. -/
theorem Linked.suffix {pre post : List α} {a : α} (h : Linked next head (pre ++ a :: post)) :
    Linked next (some a) (a :: post) := by
  induction pre generalizing head with
  | nil =>
    obtain ⟨rfl, -⟩ := linked_cons.mp h
    exact h
  | cons b pre ih => exact ih (linked_cons.mp h).2

/-- A linked list has no cycle: the part from a node on determines itself, so the node does
not come back in it. -/
theorem Linked.nodup (h : Linked next head l) : l.Nodup := by
  induction h with
  | nil => exact List.nodup_nil
  | @cons a l h ih =>
    refine List.nodup_cons.mpr ⟨fun hm => ?_, ih⟩
    obtain ⟨pre, post, rfl⟩ := List.append_of_mem hm
    have hlength := congrArg List.length (Linked.unique (.cons h) h.suffix)
    simp only [List.length_cons, List.length_append] at hlength
    omega

/-- Pointers of other nodes may change. -/
theorem Linked.congr (h : Linked next head l) (hl : ∀ a ∈ l, next' a = next a) :
    Linked next' head l := by
  induction h with
  | nil => exact .nil
  | @cons a l _ ih =>
    have htail := ih fun b hb => hl b (List.mem_cons_of_mem a hb)
    rw [← hl a List.mem_cons_self] at htail
    exact .cons htail

section Update

variable [DecidableEq α]

/-- A new node in front of the list. -/
theorem Linked.push (h : Linked next head l) {a : α} (ha : a ∉ l) :
    Linked (Function.update next a head) (some a) (a :: l) := by
  refine .cons ?_
  rw [Function.update_self]
  refine h.congr fun b hb => Function.update_of_ne ?_ _ _
  rintro rfl
  exact ha hb

/-- The node after `p` is taken out by pointing `p` past it. -/
theorem Linked.unlink {pre post : List α} {p q : α}
    (h : Linked next head (pre ++ p :: q :: post)) :
    Linked (Function.update next p (next q)) head (pre ++ p :: post) := by
  have hnodup := h.nodup
  induction pre generalizing head with
  | nil =>
    obtain ⟨rfl, hp⟩ := linked_cons.mp h
    obtain ⟨-, hq⟩ := linked_cons.mp hp
    have hpost : p ∉ post := fun hm =>
      (List.nodup_cons.mp hnodup).1 (List.mem_cons_of_mem q hm)
    refine linked_cons.mpr ⟨rfl, ?_⟩
    rw [Function.update_self]
    refine hq.congr fun b hb => Function.update_of_ne ?_ _ _
    rintro rfl
    exact hpost hb
  | cons a pre ih =>
    obtain ⟨rfl, hrest⟩ := linked_cons.mp h
    obtain ⟨ha, hnodup'⟩ := List.nodup_cons.mp hnodup
    have hap : a ≠ p := by
      rintro rfl
      exact ha (by simp)
    refine linked_cons.mpr ⟨rfl, ?_⟩
    rw [Function.update_of_ne hap]
    exact ih hrest hnodup'

end Update

/-- The first node from `head` on that passes the test; `none` when the fuel runs out before
the pointers end. -/
def search (next : α → Option α) (test : α → Bool) : ℕ → Option α → Option (Option α)
  | _, none => some none
  | 0, some _ => none
  | n + 1, some a => if test a then some (some a) else search next test n (next a)

/-- On a linked list the search through the pointers is the search through the list. -/
theorem Linked.search_eq (h : Linked next head l) (test : α → Bool) {n : ℕ}
    (hn : l.length ≤ n) : search next test n head = some (l.find? test) := by
  induction h generalizing n with
  | nil => cases n <;> rfl
  | @cons a l _ ih =>
    obtain ⟨m, rfl⟩ : ∃ m, n = m + 1 := ⟨n - 1, by rw [List.length_cons] at hn; omega⟩
    rw [List.length_cons] at hn
    rw [search, List.find?_cons]
    cases test a with
    | true => rfl
    | false => exact ih (by omega)

end LinkedList
