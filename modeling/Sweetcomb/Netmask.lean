import Sweetcomb.SysUtil
import Sweetcomb.Lib.Octets

/-!
# `netmask_to_plen`

The loop counts the bit length of the integer it reads, so it counts whole octets: a netmask
is turned into its prefix length exactly when no octet of it is cut.
-/

namespace Sweetcomb

open Octets

/-- The loop counts the bits of its integer. -/
theorem shiftCount_eq_size (n : ℕ) : shiftCount n = n.size := by
  induction n using Nat.strongRecOn with
  | ind n ih =>
    rw [shiftCount]
    split_ifs with h
    · rw [h, Nat.size_zero]
    · rw [ih (n / 2) (by omega), ← Nat.div2_val]
      nth_rewrite 2 [← Nat.bit_bodd_div2 n]
      rw [Nat.size_bit (by rwa [Nat.bit_bodd_div2])]

section Netmask

variable (a b c d : UInt8)

/-- The octets of a netmask, in network order. -/
def maskOctets : List ℕ := [a.toNat, b.toNat, c.toNat, d.toNat]

theorem maskOctets_lt : ∀ o ∈ maskOctets a b c d, o < 256 := by
  intro o ho
  have ha := a.toNat_lt
  have hb := b.toNat_lt
  have hc := c.toNat_lt
  have hd := d.toNat_lt
  simp only [maskOctets, List.mem_cons, List.not_mem_nil, or_false] at ho
  rcases ho with rfl | rfl | rfl | rfl <;> assumption

/-- What is returned is the bit length of the little-endian integer. -/
theorem netmaskToPlen_eq : netmaskToPlen (.v4 a b c d) =
    .ok (UInt8.ofNat (Nat.ofDigits 256 (maskOctets a b c d)).size) := by
  rw [netmaskToPlen, shiftCount_eq_size]
  simp [maskOctets, Nat.ofDigits_cons]

theorem size_maskOctets_le : (Nat.ofDigits 256 (maskOctets a b c d)).size ≤ 32 := by
  have hlt := Nat.ofDigits_lt_base_pow_length (by omega) (maskOctets_lt a b c d)
  rw [show (maskOctets a b c d).length = 4 from rfl] at hlt
  rw [Nat.size_le]
  norm_num at hlt ⊢
  exact hlt

/-- A netmask of `k` ones gives `k` rounded up to whole octets. -/
theorem netmaskToPlen_of_leadingOnes {k : ℕ} (h : LeadingOnes (maskOctets a b c d) k) :
    netmaskToPlen (.v4 a b c d) = .ok (UInt8.ofNat (8 * ((k + 7) / 8))) := by
  rw [netmaskToPlen_eq, size_of_leadingOnes (maskOctets_lt a b c d) h]

/-- What is asked of `netmask_to_plen`: the number of leading ones of a netmask, and an
exception for any other address. -/
def InvertsNetmask : Prop :=
  (∀ k : UInt8, netmaskToPlen (.v4 a b c d) = .ok k ↔
    LeadingOnes (maskOctets a b c d) k.toNat) ∧
  ((∀ k, ¬ LeadingOnes (maskOctets a b c d) k) → netmaskToPlen (.v4 a b c d) = .error .throws)

/-- The prefix length is right exactly for netmasks of whole octets; no other address is
refused. -/
theorem netmaskToPlen_inverts_iff :
    InvertsNetmask a b c d ↔ WholeOctets (maskOctets a b c d) := by
  rw [← size_eq_iff_leadingOnes (maskOctets_lt a b c d)]
  have hsize := size_maskOctets_le a b c d
  generalize hk : (Nat.ofDigits 256 (maskOctets a b c d)).size = k at hsize ⊢
  have heq := netmaskToPlen_eq a b c d
  rw [hk] at heq
  have hnat : (UInt8.ofNat k).toNat = k :=
    UInt8.toNat_ofNat_of_lt' (lt_of_le_of_lt hsize (by decide))
  constructor
  · rintro ⟨hones, -⟩
    rw [← hnat]
    exact (hones _).mp heq
  · intro h
    refine ⟨fun k' => ⟨fun hk' => ?_, fun hk' => ?_⟩, fun hno => (hno k h).elim⟩
    · rw [heq] at hk'
      rw [← Except.ok.inj hk', hnat]
      exact h
    · rw [heq, h.unique hk']
      simp

/-- 255.255.240.0 has 20 leading ones, and is read as 24. -/
theorem netmaskToPlen_cut_octet : ¬ ∀ a b c d, InvertsNetmask a b c d := by
  intro h
  have h20 : LeadingOnes (maskOctets 255 255 240 0) 20 := by decide
  have h24 : netmaskToPlen (.v4 255 255 240 0) = .ok 24 :=
    netmaskToPlen_of_leadingOnes 255 255 240 0 h20
  have hones := ((h 255 255 240 0).1 24).mp h24
  exact absurd (hones.unique h20) (by decide)

end Netmask

end Sweetcomb
