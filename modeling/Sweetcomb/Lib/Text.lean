import Mathlib.Data.List.Basic

/-!
# Text of numbers and of joined fields

Decimal numbers are recovered from their text, and two fields joined by a
separator are recovered from the joined text when the last field is free of it. A scan
stops where the characters it accepts end.
-/

namespace Text

theorem isDigit_of_mem_repr {n : ℕ} {c : Char} (hc : c ∈ n.repr.toList) : c.isDigit := by
  rw [Nat.toList_repr] at hc
  exact Nat.isDigit_of_mem_toDigits (by decide) (by decide) hc

theorem repr_injective : Function.Injective Nat.repr := by
  intro m n h
  have hd := congrArg (fun s : String => Nat.ofDigitChars 10 s.toList 0) h
  simpa only [Nat.toList_repr, Nat.ofDigitChars_ten_toDigits] using hd

/-- The first separator is where a list is cut. -/
theorem cut_inj {α : Type*} {sep : α} {x y z w : List α} (hx : sep ∉ x) (hy : sep ∉ y)
    (h : x ++ sep :: z = y ++ sep :: w) : x = y ∧ z = w := by
  induction x generalizing y with
  | nil =>
    cases y with
    | nil => exact ⟨rfl, (List.cons.inj h).2⟩
    | cons b y => exact (hy (by simp [(List.cons.inj h).1])).elim
  | cons a x ih =>
    cases y with
    | nil => exact (hx (by simp [(List.cons.inj h).1])).elim
    | cons b y =>
      obtain ⟨rfl, ht⟩ := List.cons.inj h
      obtain ⟨rfl, rfl⟩ := ih (fun hm => hx (List.mem_cons_of_mem _ hm))
        (fun hm => hy (List.mem_cons_of_mem _ hm)) ht
      exact ⟨rfl, rfl⟩

/-- The last separator is where the joined text is cut. -/
theorem append_sep_inj (sep : Char) {a b p q : String} (hp : sep ∉ p.toList)
    (hq : sep ∉ q.toList)
    (h : a ++ String.singleton sep ++ p = b ++ String.singleton sep ++ q) : a = b ∧ p = q := by
  -- read backwards, the last separator comes first
  have hl := congrArg (fun s : String => s.toList.reverse) h
  simp only [String.toList_append, String.toList_singleton, List.reverse_append,
    List.reverse_singleton, List.singleton_append] at hl
  obtain ⟨h1, h2⟩ := cut_inj (by simpa using hp) (by simpa using hq) hl
  exact ⟨String.toList_inj.mp (List.reverse_injective h2),
    String.toList_inj.mp (List.reverse_injective h1)⟩

/-! ## Scanning -/

/-- A run of accepted characters is taken up to the first one that is not accepted. -/
theorem takeWhile_append_of_head {α : Type*} {p : α → Bool} {xs ys : List α}
    (hxs : ∀ a ∈ xs, p a) (hys : ∀ a ∈ ys.head?, ¬ p a) : (xs ++ ys).takeWhile p = xs := by
  rw [List.takeWhile_append_of_pos hxs]
  cases ys with
  | nil => simp
  | cons y ys => simp [List.takeWhile_cons_of_neg (hys y (by simp))]

theorem dropWhile_append_of_head {α : Type*} {p : α → Bool} {xs ys : List α}
    (hxs : ∀ a ∈ xs, p a) (hys : ∀ a ∈ ys.head?, ¬ p a) : (xs ++ ys).dropWhile p = ys := by
  rw [List.dropWhile_append_of_pos hxs]
  cases ys with
  | nil => rfl
  | cons y ys => exact List.dropWhile_cons_of_neg (hys y (by simp))

end Text
