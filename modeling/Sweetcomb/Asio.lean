import Mathlib.Data.List.Basic
import Mathlib.Tactic.Common

/-!
# IP addresses

`boost::asio::ip::address` is outside the repository. The type is given here, its
text conversions are a parameter, and `Asio.Lawful` is what the plugins rely on.
-/

namespace Sweetcomb

/-- `boost::asio::ip::address`: four octets, or eight groups, in network order. -/
inductive Address
  | v4 (a b c d : UInt8)
  | v6 (a b c d e f g h : UInt16)
deriving DecidableEq, Repr

/-- The address a default-constructed `boost::asio::ip::address` holds. -/
def Address.default : Address := .v4 0 0 0 0

/-- `address::from_string`, which throws on malformed text, and `address::to_string`. -/
structure Asio where
  fromString : String → Option Address
  toString : Address → String

/-- Printed addresses parse back and hold no underscore; an empty text is no address. -/
structure Asio.Lawful (A : Asio) : Prop where
  fromString_toString : ∀ a, A.fromString (A.toString a) = some a
  empty_malformed : A.fromString "" = none
  underscore_free : ∀ a, '_' ∉ (A.toString a).toList

theorem Asio.Lawful.toString_injective {A : Asio} (hA : A.Lawful) :
    Function.Injective A.toString := by
  intro a b h
  have hp := congrArg A.fromString h
  simpa only [hA.fromString_toString, Option.some.injEq] using hp

/-! ## Uncompressed texts

A computable instance: dotted quads, and IPv6 addresses with all eight groups
written out, which is what Boost prints when no group is zero.
-/

namespace Asio

def hexVal (c : Char) : ℕ := if c.isDigit then c.toNat - 48 else c.toNat - 87

/-- The number that hexadecimal digits denote; decimal digits are read with base 10. -/
def ofDigits (b : ℕ) (l : List Char) : ℕ := l.foldl (fun n c => b * n + hexVal c) 0

theorem hexVal_digitChar : ∀ d < 16, hexVal d.digitChar = d := by decide

theorem ofDigits_toDigits {b : ℕ} (hb : 1 < b) (hb' : b ≤ 16) (n : ℕ) :
    ofDigits b (Nat.toDigits b n) = n := by
  induction n using Nat.strongRecOn with
  | ind n ih =>
    by_cases h : n < b
    · rw [Nat.toDigits_of_lt_base h]
      simp [ofDigits, hexVal_digitChar n (by omega)]
    -- the last digit is `n % b`, the others are those of `n / b`
    · have hlt : n / b < n := Nat.div_lt_self (by omega) hb
      have hmod : n % b < b := Nat.mod_lt n (by omega)
      have hq := ih (n / b) hlt
      rw [Nat.toDigits_of_base_le hb (by omega)]
      simp only [ofDigits] at hq
      simp only [ofDigits, List.foldl_append, List.foldl_cons, List.foldl_nil, hq,
        hexVal_digitChar (n % b) (by omega)]
      exact Nat.div_add_mod n b

theorem mem_toDigits {b n : ℕ} (hb : 1 < b) {c : Char} (hc : c ∈ Nat.toDigits b n) :
    ∃ d < b, c = d.digitChar := by
  induction n using Nat.strongRecOn with
  | ind n ih =>
    by_cases h : n < b
    · rw [Nat.toDigits_of_lt_base h, List.mem_singleton] at hc
      exact ⟨n, h, hc⟩
    · rw [Nat.toDigits_of_base_le hb (by omega), List.mem_append, List.mem_singleton] at hc
      rcases hc with hc | hc
      · exact ih (n / b) (Nat.div_lt_self (by omega) hb) hc
      · exact ⟨n % b, Nat.mod_lt n (by omega), hc⟩

/-- No separator is a digit. -/
theorem not_mem_toDigits {b n : ℕ} (hb : 1 < b) (hb' : b ≤ 16) {c : Char}
    (hc : ∀ d < 16, d.digitChar ≠ c) : c ∉ Nat.toDigits b n := by
  intro hm
  obtain ⟨d, hd, rfl⟩ := mem_toDigits hb hm
  exact hc d (by omega) rfl

/-- The numbers of an address, most significant first. -/
def numbers : Address → List ℕ
  | .v4 a b c d => [a.toNat, b.toNat, c.toNat, d.toNat]
  | .v6 a b c d e f g h =>
    [a.toNat, b.toNat, c.toNat, d.toNat, e.toNat, f.toNat, g.toNat, h.toNat]

def ofNumbers : List ℕ → Option Address
  | [a, b, c, d] => some (.v4 (.ofNat a) (.ofNat b) (.ofNat c) (.ofNat d))
  | [a, b, c, d, e, f, g, h] =>
    some (.v6 (.ofNat a) (.ofNat b) (.ofNat c) (.ofNat d)
      (.ofNat e) (.ofNat f) (.ofNat g) (.ofNat h))
  | _ => none

def separator : Address → Char
  | .v4 .. => '.'
  | .v6 .. => ':'

def base : Address → ℕ
  | .v4 .. => 10
  | .v6 .. => 16

def textOf (a : Address) : List Char :=
  [separator a].intercalate ((numbers a).map (Nat.toDigits (base a)))

def readAs (sep : Char) (b : ℕ) (l : List Char) : Option Address :=
  ofNumbers ((l.splitOn sep).map (ofDigits b))

/-- Uncompressed texts, each read back only in the spelling it is printed in. -/
def uncompressed : Asio where
  fromString s :=
    ((readAs '.' 10 s.toList).or (readAs ':' 16 s.toList)).filter fun a => textOf a = s.toList
  toString a := String.ofList (textOf a)

theorem base_bounds (a : Address) : 1 < base a ∧ base a ≤ 16 := by
  cases a <;> simp [base]

theorem digitChar_ne_separator (a : Address) : ∀ d < 16, d.digitChar ≠ separator a := by
  cases a <;> simp only [separator] <;> decide

theorem ofNumbers_numbers (a : Address) : ofNumbers (numbers a) = some a := by
  cases a <;> simp [numbers, ofNumbers]

theorem mem_intercalate {sep c : Char} {ls : List (List Char)} (h : c ∈ [sep].intercalate ls) :
    c = sep ∨ ∃ l ∈ ls, c ∈ l := by
  induction ls with
  | nil => simp at h
  | cons l ls ih =>
    cases ls with
    | nil => exact .inr ⟨l, List.mem_cons_self, by simpa using h⟩
    | cons l' ls =>
      rw [List.intercalate_cons_cons, List.mem_append, List.mem_append, List.mem_singleton] at h
      rcases h with (h | h) | h
      · exact .inr ⟨l, List.mem_cons_self, h⟩
      · exact .inl h
      · rcases ih h with h | ⟨k, hk, hc⟩
        · exact .inl h
        · exact .inr ⟨k, List.mem_cons_of_mem _ hk, hc⟩

theorem not_mem_textOf {a : Address} {c : Char} (hs : c ≠ separator a)
    (hc : ∀ d < 16, d.digitChar ≠ c) : c ∉ textOf a := by
  intro hm
  rcases mem_intercalate hm with h | ⟨l, hl, h⟩
  · exact hs h
  · obtain ⟨n, -, rfl⟩ := List.mem_map.mp hl
    exact not_mem_toDigits (base_bounds a).1 (base_bounds a).2 hc h

theorem readAs_textOf (a : Address) : readAs (separator a) (base a) (textOf a) = some a := by
  have hsep : ∀ l ∈ (numbers a).map (Nat.toDigits (base a)), separator a ∉ l := by
    intro l hl
    obtain ⟨n, -, rfl⟩ := List.mem_map.mp hl
    exact not_mem_toDigits (base_bounds a).1 (base_bounds a).2 (digitChar_ne_separator a)
  have hne : (numbers a).map (Nat.toDigits (base a)) ≠ [] := by cases a <;> simp [numbers]
  rw [readAs, textOf, List.splitOn_intercalate _ hsep hne, List.map_map]
  have hid : ofDigits (base a) ∘ Nat.toDigits (base a) = id :=
    funext fun n => ofDigits_toDigits (base_bounds a).1 (base_bounds a).2 n
  rw [hid, List.map_id, ofNumbers_numbers]

theorem readAs_v6 {a b c d e f g h : UInt16} :
    readAs '.' 10 (textOf (.v6 a b c d e f g h)) = none := by
  have hdot : '.' ∉ textOf (.v6 a b c d e f g h) := not_mem_textOf (by simp [separator]) (by decide)
  rw [readAs, List.splitOn_eq_singleton hdot]
  rfl

theorem uncompressed_lawful : uncompressed.Lawful where
  fromString_toString a := by
    have hread := readAs_textOf a
    cases a with
    | v4 a b c d =>
      change readAs '.' 10 _ = _ at hread
      simp [uncompressed, hread]
    -- a text without dots is no dotted quad
    | v6 a b c d e f g h =>
      change readAs ':' 16 _ = _ at hread
      simp [uncompressed, readAs_v6, hread]
  empty_malformed := by decide
  underscore_free a := by
    simp only [uncompressed, String.toList_ofList]
    exact not_mem_textOf (by cases a <;> simp [separator]) (by decide)

example : uncompressed.toString (.v4 192 168 0 1) = "192.168.0.1" := by decide

end Asio

end Sweetcomb
