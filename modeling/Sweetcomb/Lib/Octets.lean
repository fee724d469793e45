import Mathlib.Data.Nat.Digits.Defs
import Mathlib.Data.Nat.Size

/-!
# Octets in network order, read as a little-endian integer

The bits of a list of octets are counted from the most significant bit of the first octet.
A little-endian host reads the first octet as the least significant one; the bit length of
what it reads is compared with the number of leading ones.
-/

namespace Octets

variable {o : ℕ} {os : List ℕ} {k k' : ℕ}

/-- Bit `i` in network order. -/
def bit (os : List ℕ) (i : ℕ) : Bool := (os.getD (i / 8) 0).testBit (7 - i % 8)

/-- `k` ones followed by zeros. -/
def LeadingOnes (os : List ℕ) (k : ℕ) : Prop :=
  k ≤ 8 * os.length ∧ ∀ i < 8 * os.length, bit os i = decide (i < k)

instance : Decidable (LeadingOnes os k) :=
  inferInstanceAs (Decidable (k ≤ 8 * os.length ∧ ∀ i < 8 * os.length, bit os i = decide (i < k)))

/-- Octets of ones followed by octets of zeros. -/
def WholeOctets (os : List ℕ) : Prop :=
  ∃ j ≤ os.length, os = List.replicate j 255 ++ List.replicate (os.length - j) 0

theorem bit_cons_of_lt {i : ℕ} (hi : i < 8) : bit (o :: os) i = o.testBit (7 - i) := by
  simp [bit, Nat.div_eq_of_lt hi, Nat.mod_eq_of_lt hi]

theorem bit_cons_add (i : ℕ) : bit (o :: os) (i + 8) = bit os i := by
  simp [bit]

/-- The number of leading ones is determined. -/
theorem LeadingOnes.unique (h : LeadingOnes os k) (h' : LeadingOnes os k') : k = k' := by
  by_contra hne
  -- the two disagree about the bit at the smaller number
  have hlt : min k k' < 8 * os.length := by
    have := h.1
    have := h'.1
    omega
  have hbit := (h.2 _ hlt).symm.trans (h'.2 _ hlt)
  rw [decide_eq_decide] at hbit
  omega

theorem leadingOnes_nil : LeadingOnes [] k ↔ k = 0 := by
  simp [LeadingOnes]

/-- Octet by octet: the ones reach into the tail only past a full first octet. -/
theorem leadingOnes_cons : LeadingOnes (o :: os) k ↔
    (∀ i < 8, o.testBit (7 - i) = decide (i < k)) ∧ LeadingOnes os (k - 8) := by
  constructor
  · rintro ⟨hk, h⟩
    rw [List.length_cons] at hk h
    refine ⟨fun i hi => ?_, by omega, fun i hi => ?_⟩
    · rw [← bit_cons_of_lt hi]
      exact h i (by omega)
    · rw [← bit_cons_add (o := o), h (i + 8) (by omega), decide_eq_decide]
      omega
  · rintro ⟨hhead, hk, htail⟩
    rw [LeadingOnes, List.length_cons]
    refine ⟨by omega, fun i hi => ?_⟩
    by_cases hi8 : i < 8
    · rw [bit_cons_of_lt hi8]
      exact hhead i hi8
    · obtain ⟨j, rfl⟩ : ∃ j, i = j + 8 := ⟨i - 8, by omega⟩
      rw [bit_cons_add, htail j (by omega), decide_eq_decide]
      omega

/-! ## One octet -/

theorem testBit_of_le (ho : o < 256) {j : ℕ} (hj : 8 ≤ j) : o.testBit j = false := by
  have hpow : 2 ^ 8 ≤ 2 ^ j := Nat.pow_le_pow_right (by omega) hj
  exact Nat.testBit_lt_two_pow (lt_of_lt_of_le ho hpow)

/-- The octet of ones, and no other, has no zero bit. -/
theorem eq_255_of_bits (ho : o < 256) (h : ∀ i < 8, o.testBit (7 - i) = true) : o = 255 := by
  apply Nat.eq_of_testBit_eq
  intro j
  rw [show 255 = 2 ^ 8 - 1 from rfl, Nat.testBit_two_pow_sub_one]
  by_cases hj : j < 8
  · have hbit := h (7 - j) (by omega)
    rw [show 7 - (7 - j) = j by omega] at hbit
    simp [hbit, hj]
  · simp [testBit_of_le ho (by omega : 8 ≤ j), hj]

theorem eq_zero_of_bits (ho : o < 256) (h : ∀ i < 8, o.testBit (7 - i) = false) : o = 0 := by
  apply Nat.eq_of_testBit_eq
  intro j
  rw [Nat.zero_testBit]
  by_cases hj : j < 8
  · have hbit := h (7 - j) (by omega)
    rwa [show 7 - (7 - j) = j by omega] at hbit
  · exact testBit_of_le ho (by omega)

theorem size_of_topBit (ho : o < 256) (h : o.testBit 7 = true) : o.size = 8 := by
  apply le_antisymm
  · exact Nat.size_le.mpr ho
  · exact Nat.lt_size.mpr (Nat.ge_two_pow_of_testBit h)

/-! ## The bit length of the integer that is read -/

theorem size_ofDigits_cons (ho : o < 256) : (Nat.ofDigits 256 (o :: os)).size =
    if Nat.ofDigits 256 os = 0 then o.size else (Nat.ofDigits 256 os).size + 8 := by
  rw [Nat.ofDigits_cons]
  split_ifs with h
  · simp [h]
  -- the most significant one of the tail moves up by an octet
  · obtain ⟨m, hm⟩ : ∃ m, (Nat.ofDigits 256 os).size = m + 1 :=
      ⟨_, (Nat.succ_pred_eq_of_pos (Nat.size_pos.mpr (Nat.pos_of_ne_zero h))).symm⟩
    have hlt : Nat.ofDigits 256 os < 2 ^ (m + 1) := Nat.size_le.mp hm.le
    have hge : 2 ^ m ≤ Nat.ofDigits 256 os := Nat.lt_size.mp (by omega)
    rw [hm]
    apply le_antisymm
    · apply Nat.size_le.mpr
      rw [Nat.pow_add]
      push_cast
      omega
    · apply Nat.lt_size.mpr
      rw [show m + 1 + 7 = m + 8 by omega, Nat.pow_add]
      push_cast
      omega

/-- The bit length counts the ones up to whole octets. -/
theorem size_of_leadingOnes (hos : ∀ o ∈ os, o < 256) (h : LeadingOnes os k) :
    (Nat.ofDigits 256 os).size = 8 * ((k + 7) / 8) := by
  induction os generalizing k with
  | nil => simp [leadingOnes_nil.mp h]
  | cons o os ih =>
    rw [List.forall_mem_cons] at hos
    obtain ⟨hhead, htail⟩ := leadingOnes_cons.mp h
    have hsize := ih hos.2 htail
    rw [size_ofDigits_cons hos.1]
    by_cases hk : k ≤ 8
    · have hzero : Nat.ofDigits 256 os = 0 := by
        rw [← Nat.size_eq_zero, hsize]
        omega
      rw [if_pos hzero]
      by_cases hk0 : k = 0
      · have ho : o = 0 := eq_zero_of_bits hos.1 fun i hi => by simp [hhead i hi, hk0]
        simp [ho, hk0]
      -- some ones in the first octet, so its top bit is among them
      · have htop : o.testBit 7 = true := by
          have hbit := hhead 0 (by omega)
          simpa [Nat.pos_of_ne_zero hk0] using hbit
        rw [size_of_topBit hos.1 htop]
        omega
    · have hne : Nat.ofDigits 256 os ≠ 0 := by
        intro hzero
        rw [hzero, Nat.size_zero] at hsize
        omega
      rw [if_neg hne, hsize]
      omega

/-! ## Whole octets -/

theorem wholeOctets_of_leadingOnes (hos : ∀ o ∈ os, o < 256) {j : ℕ}
    (h : LeadingOnes os (8 * j)) :
    os = List.replicate j 255 ++ List.replicate (os.length - j) 0 := by
  induction os generalizing j with
  | nil =>
    have hj := leadingOnes_nil.mp h
    obtain rfl : j = 0 := by omega
    rfl
  | cons o os ih =>
    rw [List.forall_mem_cons] at hos
    obtain ⟨hhead, htail⟩ := leadingOnes_cons.mp h
    cases j with
    | zero =>
      have ho : o = 0 := eq_zero_of_bits hos.1 fun i hi => by simp [hhead i hi]
      have hrest := ih hos.2 (j := 0) htail
      simpa [ho, List.replicate_succ] using hrest
    | succ j =>
      have ho : o = 255 := eq_255_of_bits hos.1 fun i hi => by
        rw [hhead i hi, decide_eq_true_eq]
        omega
      have hrest := ih hos.2 (j := j) (by rwa [show 8 * (j + 1) - 8 = 8 * j by omega] at htail)
      rw [ho, List.length_cons, Nat.add_sub_add_right, List.replicate_succ, List.cons_append,
        ← hrest]

theorem leadingOnes_whole (j n : ℕ) :
    LeadingOnes (List.replicate j 255 ++ List.replicate n 0) (8 * j) := by
  induction j with
  | zero =>
    refine ⟨Nat.zero_le _, fun i _ => ?_⟩
    by_cases hi : i / 8 < n <;> simp [bit, hi]
  | succ j ih =>
    rw [List.replicate_succ, List.cons_append, leadingOnes_cons]
    refine ⟨fun i hi => ?_, by rwa [show 8 * (j + 1) - 8 = 8 * j by omega]⟩
    rw [show 255 = 2 ^ 8 - 1 from rfl, Nat.testBit_two_pow_sub_one, decide_eq_decide]
    omega

/-- The bit length is the number of leading ones exactly for whole octets. -/
theorem size_eq_iff_leadingOnes (hos : ∀ o ∈ os, o < 256) :
    LeadingOnes os (Nat.ofDigits 256 os).size ↔ WholeOctets os := by
  constructor
  · intro h
    have hsize := size_of_leadingOnes hos h
    rw [hsize] at h
    refine ⟨_, ?_, wholeOctets_of_leadingOnes hos h⟩
    have hle := h.1
    omega
  · rintro ⟨j, hj, heq⟩
    have hones : LeadingOnes os (8 * j) := by
      rw [heq]
      exact leadingOnes_whole j _
    rw [size_of_leadingOnes hos hones]
    convert hones using 1
    omega

end Octets
