import Mathlib.Data.Nat.Digits.Lemmas
import Sweetcomb.SysUtil

/-!
# The addresses of a prefix

A prefix stands for the addresses of its family that agree with it in the leading bits. It
stands for one address alone exactly when its length is that of a host prefix.
-/

namespace Sweetcomb

namespace Address

def isV4 : Address → Bool
  | v4 .. => true
  | v6 .. => false

/-- The number of bits. -/
def width : Address → ℕ
  | v4 .. => 32
  | v6 .. => 128

/-- The base its numbers are digits in. -/
def radix : Address → ℕ
  | v4 .. => 256
  | v6 .. => 65536

/-- The bits as a number, the first one most significant. -/
def value (a : Address) : ℕ := Nat.ofDigits a.radix (Asio.numbers a).reverse

theorem numbers_lt (a : Address) : ∀ n ∈ (Asio.numbers a).reverse, n < a.radix := by
  intro n hn
  rw [List.mem_reverse] at hn
  cases a with
  | v4 a b c d =>
    simp only [Asio.numbers, List.mem_cons, List.not_mem_nil, or_false] at hn
    rcases hn with rfl | rfl | rfl | rfl <;> apply UInt8.toNat_lt
  | v6 a b c d e f g h =>
    simp only [Asio.numbers, List.mem_cons, List.not_mem_nil, or_false] at hn
    rcases hn with rfl | rfl | rfl | rfl | rfl | rfl | rfl | rfl <;> apply UInt16.toNat_lt

theorem numbers_injective : Function.Injective Asio.numbers := by
  intro a b h
  have hp := congrArg Asio.ofNumbers h
  rwa [Asio.ofNumbers_numbers, Asio.ofNumbers_numbers, Option.some.injEq] at hp

theorem value_inj {a b : Address} (hfamily : a.isV4 = b.isV4) (h : a.value = b.value) : a = b := by
  have hradix : a.radix = b.radix := by
    cases a <;> cases b <;> first | rfl | cases hfamily
  have hlen : (Asio.numbers a).reverse.length = (Asio.numbers b).reverse.length := by
    cases a <;> cases b <;> first | rfl | cases hfamily
  have hone : 1 < b.radix := by cases b <;> simp [radix]
  have hdigits := Nat.ofDigits_inj_of_len_eq hone hlen (hradix ▸ a.numbers_lt) b.numbers_lt
    (by rwa [value, value, hradix] at h)
  exact numbers_injective (List.reverse_injective hdigits)

/-- The address that differs in the last bit. -/
def sibling : Address → Address
  | v4 a b c d => v4 a b c (.ofNat (2 * (d.toNat / 2) + (1 - d.toNat % 2)))
  | v6 a b c d e f g h => v6 a b c d e f g (.ofNat (2 * (h.toNat / 2) + (1 - h.toNat % 2)))

theorem sibling_isV4 (a : Address) : a.sibling.isV4 = a.isV4 := by
  cases a <;> rfl

theorem sibling_value (a : Address) :
    a.sibling.value / 2 = a.value / 2 ∧ a.sibling.value ≠ a.value := by
  cases a with
  | v4 a b c d =>
    have hlt := d.toNat_lt
    simp only [sibling, value, radix, Asio.numbers, List.reverse_cons, List.reverse_nil,
      List.nil_append, List.cons_append, Nat.ofDigits_cons, UInt8.toNat_ofNat']
    omega
  | v6 a b c d e f g h =>
    have hlt := h.toNat_lt
    simp only [sibling, value, radix, Asio.numbers, List.reverse_cons, List.reverse_nil,
      List.nil_append, List.cons_append, Nat.ofDigits_cons, UInt16.toNat_ofNat']
    omega

theorem sibling_ne (a : Address) : a.sibling ≠ a := by
  intro h
  exact a.sibling_value.2 (congrArg value h)

end Address

namespace UtilsPrefix

/-- The address agrees with the prefix in its leading bits. -/
def Covers (p : UtilsPrefix) (a : Address) : Prop :=
  a.isV4 = p.address.isV4 ∧
    a.value / 2 ^ (p.address.width - p.prefixLen.toNat) =
      p.address.value / 2 ^ (p.address.width - p.prefixLen.toNat)

/-- All bits of the address belong to the prefix. -/
def IsHost (p : UtilsPrefix) : Prop := p.address.width ≤ p.prefixLen.toNat

instance (p : UtilsPrefix) : Decidable p.IsHost :=
  inferInstanceAs (Decidable (p.address.width ≤ p.prefixLen.toNat))

variable {p : UtilsPrefix} {a : Address}

theorem covers_address (p : UtilsPrefix) : p.Covers p.address := ⟨rfl, rfl⟩

theorem covers_of_host (hp : p.IsHost) : p.Covers a ↔ a = p.address := by
  constructor
  · rintro ⟨hfamily, hbits⟩
    rw [Nat.sub_eq_zero_of_le hp, pow_zero, Nat.div_one, Nat.div_one] at hbits
    exact Address.value_inj hfamily hbits
  · rintro rfl
    exact p.covers_address

theorem covers_sibling (hp : ¬ p.IsHost) : p.Covers p.address.sibling := by
  obtain ⟨n, hn⟩ : ∃ n, p.address.width - p.prefixLen.toNat = n + 1 :=
    ⟨_, (Nat.succ_pred_eq_of_pos (Nat.sub_pos_of_lt (not_le.mp hp))).symm⟩
  refine ⟨p.address.sibling_isV4, ?_⟩
  rw [hn, pow_succ', ← Nat.div_div_eq_div_mul, ← Nat.div_div_eq_div_mul,
    p.address.sibling_value.1]

/-- A prefix covers a single address exactly when it is the host prefix of that address. -/
theorem covers_single_iff : (∀ b, p.Covers b ↔ b = a) ↔ p.IsHost ∧ p.address = a := by
  constructor
  · intro h
    have ha : p.address = a := (h _).mp p.covers_address
    refine ⟨?_, ha⟩
    by_contra hp
    have hs := (h _).mp (covers_sibling hp)
    exact p.address.sibling_ne (hs.trans ha.symm)
  · rintro ⟨hp, rfl⟩ b
    exact covers_of_host hp

/-- No prefix covers the addresses of both families. -/
theorem exists_not_covers (p : UtilsPrefix) : ∃ a, ¬ p.Covers a := by
  cases hp : p.address.isV4 with
  | true => exact ⟨.v6 0 0 0 0 0 0 0 0, fun h => by cases h.1.trans hp⟩
  | false => exact ⟨.v4 0 0 0 0, fun h => by cases h.1.trans hp⟩

end UtilsPrefix

end Sweetcomb
