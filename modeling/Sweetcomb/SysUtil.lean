import Mathlib.Algebra.Group.Int.Defs
import Sweetcomb.Asio

/-!
# `sys_util`: netmasks and prefixes
-/

namespace Sweetcomb

/-- The C++ undefined behaviours and the exception a callback can end in. -/
inductive Fault
  /-- an exception that no handler of the callback catches -/
  | throws
  /-- a read through an absent `sr_val_t` -/
  | nullVal
  /-- a string made of a null pointer -/
  | nullString
  /-- a read through a null `shared_ptr` to an interface -/
  | nullInterface
  /-- the release of an iterator handle that was never set -/
  | wildIter
  /-- a write past the end of a variable -/
  | overrun
deriving DecidableEq, Repr

/-! ## Netmasks -/

/-- `while (n > 0) { n = n >> 1; i++; }`. -/
def shiftCount (n : ℕ) : ℕ := if n = 0 then 0 else shiftCount (n / 2) + 1
termination_by n
decreasing_by omega

/-- `netmask_to_plen`: `inet_pton` stores the octets in network order, the loop reads
them as a little-endian integer. The 16 octets of an IPv6 address do not fit `in_addr_t`. -/
def netmaskToPlen : Address → Except Fault UInt8
  | .v4 a b c d =>
    .ok (UInt8.ofNat
      (shiftCount (a.toNat + 256 * (b.toNat + 256 * (c.toNat + 256 * d.toNat)))))
  -- inet_pton(AF_INET6, ...) writes past the variable
  | .v6 .. => .error .overrun

/-! ## Prefixes -/

/-- `std::isspace` in the C locale. -/
def isSpace (c : Char) : Bool :=
  c == ' ' || c == '\t' || c == '\n' || c == '\x0b' || c == '\x0c' || c == '\r'

/-- The sign `std::stoi` allows before the digits. -/
def signOf : List Char → Bool × List Char
  | '-' :: l => (true, l)
  | '+' :: l => (false, l)
  | l => (false, l)

/-- `std::stoi`: blanks, a sign, then the longest run of digits; it throws when there is
none or when the value is no `int`. -/
def stoi (l : List Char) : Option Int :=
  let (neg, l) := signOf (l.dropWhile isSpace)
  let digits := l.takeWhile Char.isDigit
  let n : Int := Nat.ofDigitChars 10 digits 0
  let v := if neg then -n else n
  if digits ≠ [] ∧ -2 ^ 31 ≤ v ∧ v < 2 ^ 31 then some v else none

/-- `utils::prefix`. -/
structure UtilsPrefix where
  address : Address
  prefixLen : UInt16
deriving DecidableEq, Repr

namespace UtilsPrefix

/-- `prefix::prefix()`: the length is left as it is found. -/
def mk0 (stale : UInt16) : UtilsPrefix := ⟨.default, stale⟩

/-- `p.find_last_of('/')` and the two `substr` around it. -/
def cutLast (l : List Char) : Option (List Char × List Char) :=
  match l.reverse.span (fun c => c != '/') with
  | (len, _ :: addr) => some (addr.reverse, len.reverse)
  | (_, []) => none

/-- `prefix::make_prefix`, by way of `prefix::prefix(std::string)`; `none` when it throws.
The `int` of `std::stoi` is narrowed to `unsigned short`. -/
def makePrefix (A : Asio) (p : String) : Option UtilsPrefix := do
  let (addr, len) ← cutLast p.toList
  let address ← A.fromString (String.ofList addr)
  let n ← stoi len
  return ⟨address, UInt16.ofInt n⟩

/-- `prefix::to_string`. -/
def toString (A : Asio) (p : UtilsPrefix) : String :=
  A.toString p.address ++ "/" ++ p.prefixLen.toNat.repr

/-- `prefix::empty`. -/
def empty (A : Asio) (p : UtilsPrefix) : Bool := (p.toString A).isEmpty

/-- The text always holds a `/`, so no prefix is empty, not even a default one. -/
@[simp] theorem empty_eq_false (A : Asio) (p : UtilsPrefix) : p.empty A = false := by
  have hne : p.toString A ≠ "" := by
    intro h
    have hl := congrArg String.toList h
    simp [toString] at hl
  simpa [empty] using hne

end UtilsPrefix

end Sweetcomb
