import Mathlib.Data.List.TakeWhile
import Sweetcomb.PrefixCover
import Sweetcomb.Lib.Text

/-!
# The language of the prefix parser

`std::stoi` reads a numeral: blanks, a sign, digits, and whatever follows them. The parser
hence takes many texts that are no prefix, and the length it stores may be another one. A
printed prefix is read back as it was.
-/

namespace Sweetcomb

/-! ## Numerals -/

inductive Sign
  | unsigned
  | plus
  | minus
deriving DecidableEq, Repr

def Sign.text : Sign → List Char
  | unsigned => []
  | plus => ['+']
  | minus => ['-']

/-- A text that starts with a number, and how it is cut. -/
structure Numeral where
  blanks : List Char
  sign : Sign
  digits : List Char
  rest : List Char
  blanks_isSpace : ∀ c ∈ blanks, isSpace c
  digits_ne_nil : digits ≠ []
  digits_isDigit : ∀ c ∈ digits, c.isDigit
  rest_not_isDigit : ∀ c ∈ rest.head?, ¬ c.isDigit

namespace Numeral

def text (m : Numeral) : List Char := m.blanks ++ (m.sign.text ++ (m.digits ++ m.rest))

def value (m : Numeral) : ℤ :=
  if m.sign = .minus then -(Nat.ofDigitChars 10 m.digits 0 : ℤ)
  else Nat.ofDigitChars 10 m.digits 0

/-- The value is an `int`. -/
def InRange (m : Numeral) : Prop := -2 ^ 31 ≤ m.value ∧ m.value < 2 ^ 31

theorem isDigit_not_isSpace {c : Char} (h : c.isDigit) : isSpace c = false := by
  rw [Bool.eq_false_iff]
  intro hs
  simp only [isSpace, Bool.or_eq_true, beq_iff_eq] at hs
  rcases hs with ((((rfl | rfl) | rfl) | rfl) | rfl) | rfl <;> exact absurd h (by decide)

/-- No blank stands where the digits start, with or without a sign before them. -/
theorem head_not_isSpace (m : Numeral) :
    ∀ c ∈ (m.sign.text ++ (m.digits ++ m.rest)).head?, ¬ isSpace c := by
  obtain ⟨d, ds, hd⟩ := List.exists_cons_of_ne_nil m.digits_ne_nil
  have hdigit : isSpace d = false := isDigit_not_isSpace (m.digits_isDigit d (by simp [hd]))
  intro c hc
  cases hs : m.sign <;> simp only [hs, hd, Sign.text, List.nil_append, List.cons_append,
    List.head?_cons, Option.mem_some_iff] at hc
  · simp [← hc, hdigit]
  · subst hc; decide
  · subst hc; decide

theorem signOf_text (m : Numeral) :
    signOf (m.sign.text ++ (m.digits ++ m.rest)) =
      (decide (m.sign = .minus), m.digits ++ m.rest) := by
  obtain ⟨d, ds, hd⟩ := List.exists_cons_of_ne_nil m.digits_ne_nil
  have hdigit := m.digits_isDigit d (by simp [hd])
  cases hs : m.sign with
  | unsigned =>
    -- the first digit is no sign
    rw [hd]
    simp only [Sign.text, List.nil_append, List.cons_append]
    unfold signOf
    split
    · simp_all
    · simp_all
    · simp
  | plus => simp [Sign.text, signOf]
  | minus => simp [Sign.text, signOf]

theorem stoi_text (m : Numeral) (hm : m.InRange) : stoi m.text = some m.value := by
  have hblanks := Text.dropWhile_append_of_head m.blanks_isSpace m.head_not_isSpace
  have hdigits := Text.takeWhile_append_of_head m.digits_isDigit m.rest_not_isDigit
  unfold stoi
  rw [text, hblanks]
  simp only [signOf_text, hdigits, decide_eq_true_eq]
  exact if_pos ⟨m.digits_ne_nil, hm⟩

/-- The cut that `std::stoi` makes. -/
def ofText (l : List Char)
    (h : (signOf (l.dropWhile isSpace)).2.takeWhile Char.isDigit ≠ []) : Numeral where
  blanks := l.takeWhile isSpace
  sign := match l.dropWhile isSpace with
    | '-' :: _ => .minus
    | '+' :: _ => .plus
    | _ => .unsigned
  digits := (signOf (l.dropWhile isSpace)).2.takeWhile Char.isDigit
  rest := (signOf (l.dropWhile isSpace)).2.dropWhile Char.isDigit
  blanks_isSpace c hc := List.mem_takeWhile_imp hc
  digits_ne_nil := h
  digits_isDigit c hc := List.mem_takeWhile_imp hc
  rest_not_isDigit c hc := by
    have hnot := List.head?_dropWhile_not Char.isDigit (signOf (l.dropWhile isSpace)).2
    rw [Option.mem_def] at hc
    simpa [hc] using hnot

theorem text_ofText {l : List Char} (h) : (ofText l h).text = l := by
  have hsign : (ofText l h).sign.text ++ (signOf (l.dropWhile isSpace)).2 =
      l.dropWhile isSpace := by
    simp only [ofText]
    unfold signOf
    split <;> simp_all [Sign.text]
  have hdigits : (ofText l h).digits ++ (ofText l h).rest = (signOf (l.dropWhile isSpace)).2 :=
    List.takeWhile_append_dropWhile
  rw [text, hdigits, hsign]
  exact List.takeWhile_append_dropWhile

theorem value_ofText {l : List Char} (h) :
    (ofText l h).value =
      if (signOf (l.dropWhile isSpace)).1 then
        -(Nat.ofDigitChars 10 ((signOf (l.dropWhile isSpace)).2.takeWhile Char.isDigit) 0 : ℤ)
      else Nat.ofDigitChars 10 ((signOf (l.dropWhile isSpace)).2.takeWhile Char.isDigit) 0 := by
  have hsign : ((ofText l h).sign = .minus) ↔ (signOf (l.dropWhile isSpace)).1 = true := by
    simp only [ofText]
    unfold signOf
    split <;> simp_all
  simp only [value, hsign]
  rfl

/-- `std::stoi` accepts the numerals whose value is an `int`, and no other text. -/
theorem stoi_eq_some {l : List Char} {v : ℤ} :
    stoi l = some v ↔ ∃ m : Numeral, m.text = l ∧ m.InRange ∧ m.value = v := by
  constructor
  · intro h
    obtain ⟨hc, hv⟩ := Option.ite_none_right_eq_some.mp h
    refine ⟨ofText l hc.1, text_ofText hc.1, ?_, ?_⟩
    · rw [InRange, value_ofText hc.1]
      exact hc.2
    · rw [value_ofText hc.1]
      exact Option.some.inj hv
  · rintro ⟨m, rfl, hrange, rfl⟩
    exact stoi_text m hrange

/-- Digits alone, as a numeral. -/
def ofDigits (d : List Char) (hne : d ≠ []) (hd : ∀ c ∈ d, c.isDigit) : Numeral where
  blanks := []
  sign := .unsigned
  digits := d
  rest := []
  blanks_isSpace := by simp
  digits_ne_nil := hne
  digits_isDigit := hd
  rest_not_isDigit := by simp

theorem stoi_digits {d : List Char} (hne : d ≠ []) (hd : ∀ c ∈ d, c.isDigit)
    (hrange : Nat.ofDigitChars 10 d 0 < 2 ^ 31) :
    stoi d = some (Nat.ofDigitChars 10 d 0 : ℤ) := by
  have htext : (ofDigits d hne hd).text = d := by simp [text, ofDigits, Sign.text]
  have hvalue : (ofDigits d hne hd).value = Nat.ofDigitChars 10 d 0 := by
    simp [value, ofDigits]
  refine stoi_eq_some.mpr ⟨ofDigits d hne hd, htext, ?_, hvalue⟩
  rw [InRange, hvalue]
  omega

theorem stoi_repr {n : ℕ} (hn : n < 2 ^ 31) : stoi n.repr.toList = some (n : ℤ) := by
  have hvalue : Nat.ofDigitChars 10 n.repr.toList 0 = n := by
    rw [Nat.toList_repr, Nat.ofDigitChars_ten_toDigits]
  have hread := stoi_digits (d := n.repr.toList) (by simp)
    (fun _ hc => Text.isDigit_of_mem_repr hc) (by omega)
  rwa [hvalue] at hread

end Numeral

/-! ## Cutting at the last slash -/

namespace UtilsPrefix

theorem cutLast_append {a d : List Char} (hd : '/' ∉ d) :
    cutLast (a ++ '/' :: d) = some (a, d) := by
  have hrev : (a ++ '/' :: d).reverse = d.reverse ++ '/' :: a.reverse := by simp
  have hfree : ∀ c ∈ d.reverse, (c != '/') = true := by
    intro c hc
    rw [bne_iff_ne]
    rintro rfl
    exact hd (List.mem_reverse.mp hc)
  have hstop : ∀ c ∈ ('/' :: a.reverse).head?, ¬ (c != '/') = true := by simp
  have htake := Text.takeWhile_append_of_head hfree hstop
  have hdrop := Text.dropWhile_append_of_head hfree hstop
  unfold cutLast
  rw [hrev, List.span_eq_takeWhile_dropWhile, htake, hdrop]
  simp

theorem eq_of_cutLast {l a d : List Char} (h : cutLast l = some (a, d)) :
    l = a ++ '/' :: d ∧ '/' ∉ d := by
  have hcut := List.takeWhile_append_dropWhile (p := fun c => c != '/') (l := l.reverse)
  have hhead := List.head?_dropWhile_not (fun c => c != '/') l.reverse
  have hfree : ∀ c ∈ l.reverse.takeWhile (fun c => c != '/'), (c != '/') = true :=
    fun _ hc => List.mem_takeWhile_imp (p := fun c => c != '/') hc
  unfold cutLast at h
  rw [List.span_eq_takeWhile_dropWhile] at h
  generalize l.reverse.takeWhile (fun c => c != '/') = len at h hcut hfree
  generalize l.reverse.dropWhile (fun c => c != '/') = tail at h hcut hhead
  cases tail with
  | nil => cases h
  | cons c addr =>
    -- the scan from the end stops at a slash
    have hc : c = '/' := by simpa using hhead
    cases h
    subst hc
    constructor
    · have hl := congrArg List.reverse hcut
      simpa using hl.symm
    · intro hm
      simpa using hfree '/' (List.mem_reverse.mp hm)

/-- What follows the last slash is read with `std::stoi`, whatever it holds besides a
number. -/
theorem makePrefix_eq_some {A : Asio} {s : String} {p : UtilsPrefix} :
    makePrefix A s = some p ↔
      ∃ a l : String, s = a ++ "/" ++ l ∧ '/' ∉ l.toList ∧ A.fromString a = some p.address ∧
        ∃ v, stoi l.toList = some v ∧ UInt16.ofInt v = p.prefixLen := by
  constructor
  · intro h
    simp only [makePrefix, Option.bind_eq_bind, Option.bind_eq_some_iff, Prod.exists] at h
    obtain ⟨a, d, hcut, addr, haddr, v, hv, hp⟩ := h
    obtain ⟨hs, hd⟩ := eq_of_cutLast hcut
    cases hp
    refine ⟨String.ofList a, String.ofList d, ?_, by simpa using hd, haddr, v, by simpa using hv,
      rfl⟩
    apply String.toList_inj.mp
    simp [hs]
  · rintro ⟨a, l, rfl, hl, haddr, v, hv, hlen⟩
    have hcut : cutLast (a ++ "/" ++ l).toList = some (a.toList, l.toList) := by
      have hlist : (a ++ "/" ++ l).toList = a.toList ++ '/' :: l.toList := by simp
      rw [hlist]
      exact cutLast_append hl
    rw [makePrefix, hcut]
    simp [haddr, hv, hlen]

/-! ## The grammar -/

/-- `s` is an address text, a slash and decimal digits for the length of `p`, which its
address has room for. -/
def Denotes (A : Asio) (s : String) (p : UtilsPrefix) : Prop :=
  ∃ a d : String, s = a ++ "/" ++ d ∧ A.fromString a = some p.address ∧ d ≠ "" ∧
    (∀ c ∈ d.toList, c.isDigit) ∧ Nat.ofDigitChars 10 d.toList 0 = p.prefixLen.toNat ∧
    p.prefixLen.toNat ≤ p.address.width

/-- The parser takes `s` as the prefix it denotes, and throws when it denotes none. -/
def ReadExactly (A : Asio) (s : String) : Prop :=
  ∀ p, makePrefix A s = some p ↔ Denotes A s p

/-- `s` is an address text, a slash and a text that starts with an `int`. -/
def Readable (A : Asio) (s : String) : Prop :=
  ∃ a l : String, s = a ++ "/" ++ l ∧ '/' ∉ l.toList ∧ (A.fromString a).isSome ∧
    ∃ m : Numeral, m.text = l.toList ∧ m.InRange

theorem isSome_makePrefix {A : Asio} {s : String} :
    (makePrefix A s).isSome ↔ Readable A s := by
  rw [Option.isSome_iff_exists]
  constructor
  · rintro ⟨p, hp⟩
    obtain ⟨a, l, hs, hl, haddr, v, hv, -⟩ := makePrefix_eq_some.mp hp
    obtain ⟨m, hm, hrange, -⟩ := Numeral.stoi_eq_some.mp hv
    exact ⟨a, l, hs, hl, Option.isSome_iff_exists.mpr ⟨_, haddr⟩, m, hm, hrange⟩
  · rintro ⟨a, l, hs, hl, haddr, m, hm, hrange⟩
    obtain ⟨addr, haddr⟩ := Option.isSome_iff_exists.mp haddr
    exact ⟨⟨addr, UInt16.ofInt m.value⟩, makePrefix_eq_some.mpr
      ⟨a, l, hs, hl, haddr, m.value, Numeral.stoi_eq_some.mpr ⟨m, hm, hrange, rfl⟩, rfl⟩⟩

theorem ofInt_toNat (n : UInt16) : UInt16.ofInt (n.toNat : ℤ) = n := by
  have hbound := n.toNat_lt
  apply UInt16.toNat_inj.mp
  simp only [UInt16.ofInt, UInt16.toNat_ofNat']
  omega

theorem makePrefix_of_denotes {A : Asio} {s : String} {p : UtilsPrefix} (h : Denotes A s p) :
    makePrefix A s = some p := by
  obtain ⟨a, d, hs, haddr, hne, hd, hlen, -⟩ := h
  have hslash : '/' ∉ d.toList := fun hm => absurd (hd '/' hm) (by decide)
  have hbound : p.prefixLen.toNat < 65536 := p.prefixLen.toNat_lt
  have hread := Numeral.stoi_digits (by simpa using hne) hd (by omega)
  rw [hlen] at hread
  exact makePrefix_eq_some.mpr ⟨a, d, hs, hslash, haddr, _, hread, ofInt_toNat _⟩

/-- The parser reads `s` exactly when `s` denotes a prefix or is no address text followed
by a number: whatever else it accepts, it accepts against the grammar. -/
theorem readExactly_iff (A : Asio) (s : String) :
    ReadExactly A s ↔ (∃ p, Denotes A s p) ∨ ¬ Readable A s := by
  constructor
  · intro h
    by_cases hr : Readable A s
    · obtain ⟨p, hp⟩ := Option.isSome_iff_exists.mp (isSome_makePrefix.mpr hr)
      exact .inl ⟨p, (h p).mp hp⟩
    · exact .inr hr
  · rintro (⟨q, hq⟩ | hr) p
    · refine ⟨fun hp => ?_, makePrefix_of_denotes⟩
      -- no other prefix is read
      have hpq : some q = some p := (makePrefix_of_denotes hq).symm.trans hp
      cases hpq
      exact hq
    · have hnone : ¬ makePrefix A s = some p := by
        intro hp
        exact hr (isSome_makePrefix.mp (by simp [hp]))
      exact ⟨fun hp => absurd hp hnone, fun hd => absurd (makePrefix_of_denotes hd) hnone⟩

/-- A length of `65560` is stored as `24`. -/
theorem not_readExactly_wrapped : ¬ ReadExactly Asio.uncompressed "10.0.0.0/65560" := by
  intro h
  have hparse : makePrefix Asio.uncompressed "10.0.0.0/65560" = some ⟨.v4 10 0 0 0, 24⟩ := by
    decide
  obtain ⟨a, d, hs, -, -, hd, hlen, -⟩ := (h _).mp hparse
  have hcut := Text.append_sep_inj '/' (a := "10.0.0.0") (p := "65560") (b := a) (q := d)
    (by decide) (fun hm => absurd (hd '/' hm) (by decide)) hs
  rw [← hcut.2] at hlen
  exact absurd hlen (by decide)

/-! ## Reading a printed prefix -/

theorem makePrefix_toString {A : Asio}
    (hA : ∀ a, A.fromString (A.toString a) = some a) (p : UtilsPrefix) :
    makePrefix A (p.toString A) = some p := by
  have hslash : '/' ∉ p.prefixLen.toNat.repr.toList :=
    fun hm => absurd (Text.isDigit_of_mem_repr hm) (by decide)
  have hbound : p.prefixLen.toNat < 65536 := p.prefixLen.toNat_lt
  exact makePrefix_eq_some.mpr ⟨A.toString p.address, p.prefixLen.toNat.repr, rfl, hslash,
    hA p.address, _, Numeral.stoi_repr (by omega), ofInt_toNat _⟩

/-- `to_string` after `make_prefix`. -/
def normalize (A : Asio) (s : String) : Option String := (makePrefix A s).map (toString A)

/-- A printed prefix is read back, whether it was read from a text or made of an address and
a length, so that normalizing twice changes nothing. -/
theorem round_trip {A : Asio} (hA : ∀ a, A.fromString (A.toString a) = some a) :
    (∀ s p, makePrefix A s = some p → makePrefix A (p.toString A) = some p) ∧
      (∀ s t, normalize A s = some t → normalize A t = some t) ∧
      ∀ a n, makePrefix A (toString A ⟨a, n⟩) = some ⟨a, n⟩ := by
  refine ⟨fun _ p _ => makePrefix_toString hA p, fun s t h => ?_,
    fun a n => makePrefix_toString hA ⟨a, n⟩⟩
  obtain ⟨p, -, rfl⟩ := Option.map_eq_some_iff.mp h
  rw [normalize, makePrefix_toString hA, Option.map_some]

/-- Both families, and a length that no address has room for. -/
theorem round_trip_uncompressed :
    makePrefix Asio.uncompressed (toString Asio.uncompressed ⟨.v4 10 0 0 1, 65535⟩) =
        some ⟨.v4 10 0 0 1, 65535⟩ ∧
      makePrefix Asio.uncompressed (toString Asio.uncompressed ⟨.v6 8193 3512 1 1 1 1 1 1, 48⟩) =
        some ⟨.v6 8193 3512 1 1 1 1 1 1, 48⟩ ∧
      normalize Asio.uncompressed "10.0.0.1/+24" = some "10.0.0.1/24" ∧
      normalize Asio.uncompressed "10.0.0.1/24" = some "10.0.0.1/24" := by
  have h := round_trip Asio.uncompressed_lawful.fromString_toString
  have hread : normalize Asio.uncompressed "10.0.0.1/+24" = some "10.0.0.1/24" := by decide
  exact ⟨h.2.2 _ _, h.2.2 _ _, hread, h.2.1 _ _ hread⟩

end UtilsPrefix

end Sweetcomb
