import Mathlib.Algebra.Group.Int.Defs
import Mathlib.Algebra.Group.Nat.Defs
import Mathlib.Data.List.DropRight

/-!
# SipDemo.Bytes

Byte strings and the parts of the C library the parsers rest on: `tolower`,
`strtol`, `strtoull`, `atoi`, `std::to_string` and the two `trim` helpers (the
same code in `SipParser.cpp` and `Sdp.cpp`).

A C++ `std::string` is its list of bytes.  Library calls behave as in the
"C" locale on a platform with 64-bit `long`; `longMin` and `longMax` are the
only place where that width shows.
-/

namespace SipDemo

/-- A C++ `std::string`. -/
abbrev Str := List UInt8

/-- No string is longer: a bound of `std::string::max_size`, and `LONG_MAX`. -/
def maxSize : Nat := 2 ^ 63 - 1

/-- One byte of an ASCII literal. -/
def ch (c : Char) : UInt8 := c.toNat.toUInt8

/-- The bytes of an ASCII literal. -/
def str (s : String) : Str := s.toList.map ch

/-- The line end of SDP and SIP. -/
def crlf : Str := [13, 10]

/-- A property of all bytes is a property of the 256 of them. -/
theorem forall_byte {p : UInt8 → Prop} (h : ∀ n : Fin 256, p (UInt8.ofFin n)) (b : UInt8) : p b :=
  h b.toFin

/-! ## character classes -/

/-- `std::isspace`, also the separators of `std::istream >> std::string`. -/
def isspace (c : UInt8) : Bool := c = ch ' ' || (9 ≤ c && c ≤ 13)

/-- `std::isdigit`. -/
def isdigit (c : UInt8) : Bool := ch '0' ≤ c && c ≤ ch '9'

/-- `lower`: `std::tolower` on the byte as `unsigned char`. -/
def lower (c : UInt8) : UInt8 := if ch 'A' ≤ c && c ≤ ch 'Z' then c + 32 else c

/-- `toLower`: `lower` on every byte. -/
def toLower (s : Str) : Str := s.map lower

/-- The `ws` lambda of `trim`: space, tab, CR and LF only. -/
def ws (c : UInt8) : Bool := c = ch ' ' || c = 9 || c = 13 || c = 10

/-- `trim`: cut the `ws` bytes off both ends. -/
def trim (s : Str) : Str := (s.dropWhile ws).rdropWhile ws

/-! Membership in a class is a range of the byte's value. -/

theorem isspace_iff {c : UInt8} :
    isspace c = true ↔ c.toNat = 32 ∨ 9 ≤ c.toNat ∧ c.toNat ≤ 13 := by
  simp [isspace, ← UInt8.toNat_inj, UInt8.le_iff_toNat_le, ch]

theorem isdigit_iff {c : UInt8} : isdigit c = true ↔ 48 ≤ c.toNat ∧ c.toNat ≤ 57 := by
  simp [isdigit, UInt8.le_iff_toNat_le, ch]

theorem ws_iff {c : UInt8} :
    ws c = true ↔ c.toNat = 32 ∨ c.toNat = 9 ∨ c.toNat = 13 ∨ c.toNat = 10 := by
  simp [ws, ← UInt8.toNat_inj, ch, or_assoc]

/-- The bytes that `trim` cuts off are among those that separate tokens. -/
theorem isspace_of_ws {c : UInt8} (h : ws c = true) : isspace c = true := by
  rw [ws_iff] at h
  rw [isspace_iff]
  omega

theorem ws_of_not_isspace {c : UInt8} (h : isspace c = false) : ws c = false :=
  Bool.eq_false_iff.mpr fun hws => Bool.eq_false_iff.mp h (isspace_of_ws hws)

/-! ## numerals -/

/-- `LONG_MIN`. -/
def longMin : Int := -2 ^ 63

/-- `LONG_MAX`. -/
def longMax : Int := 2 ^ 63 - 1

/-- The value of a run of decimal digits. -/
def digitsValue (ds : Str) : Nat := ds.foldl (fun n d => 10 * n + (d - ch '0').toNat) 0

/-- The numeral the `strto*` family reads at the front of a string: white
space, an optional sign (`true` for minus), then the longest run of digits.
`none` when there is no digit, which is when `end` stays at the start. -/
def scanNumeral (s : Str) : Option (Bool × Nat) :=
  let s := s.dropWhile isspace
  let (neg, s) := match s with
    | c :: rest => if c = ch '-' then (true, rest) else if c = ch '+' then (false, rest) else (false, s)
    | [] => (false, s)
  match s.takeWhile isdigit with
  | [] => none
  | ds => some (neg, digitsValue ds)

/-- `std::strtol(s, &end, 10)`: `none` when `end == s`, otherwise the value,
which saturates at the bounds of `long`. -/
def strtol (s : Str) : Option Int :=
  (scanNumeral s).map fun (neg, n) => max longMin (min longMax (if neg then -(n : Int) else n))

/-- `std::atoi`: `strtol` with 0 for no numeral, narrowed to a 32-bit `int`
(out-of-range values are undefined in C; this is what the narrowing
conversion of the common implementations gives). -/
def atoi (s : Str) : Int := ((strtol s).getD 0).bmod (2 ^ 32)

/-- `std::strtoull(s, nullptr, 10)`: 0 for no numeral, `ULLONG_MAX` beyond the
range, and the modular negation of a numeral with a minus sign. -/
def strtoull (s : Str) : UInt64 :=
  match scanNumeral s with
  | none => 0
  | some (neg, n) =>
      if 2 ^ 64 ≤ n then UInt64.ofNat (2 ^ 64 - 1)
      else if neg then -UInt64.ofNat n else UInt64.ofNat n

/-- Decimal digits, as `std::to_string` and `operator<<` print them. -/
def natStr (n : Nat) : Str := (Nat.toDigits 10 n).map ch

/-- A signed integer in decimal. -/
def intStr (i : Int) : Str := if i < 0 then ch '-' :: natStr i.natAbs else natStr i.natAbs

/-- Lower-case hexadecimal digits, as `operator<<` prints them under `std::hex`. -/
def hexStr (n : Nat) : Str := (Nat.toDigits 16 n).map ch

/-! ## case-insensitive comparison -/

/-- `iequals`: equal size, and `lower` agrees at every index. -/
def iequals (a b : Str) : Bool :=
  a.length == b.length && (a.zip b).all fun (x, y) => lower x == lower y

/-- `iequals` compares the lower-cased strings. -/
theorem iequals_iff {a b : Str} : iequals a b = true ↔ toLower a = toLower b := by
  induction a generalizing b with
  | nil => cases b <;> simp [iequals, toLower]
  | cons x a ih =>
      cases b with
      | nil => simp [iequals, toLower]
      | cons y b =>
          have h := ih (b := b)
          simp only [iequals, toLower, Bool.and_eq_true, beq_iff_eq] at h
          simp only [iequals, toLower, List.length_cons, List.zip_cons_cons, List.all_cons,
            Bool.and_eq_true, beq_iff_eq, List.map_cons, List.cons.injEq, Nat.add_right_cancel_iff]
          rw [← h]
          exact and_left_comm

theorem iequals_comm (a b : Str) : iequals a b = iequals b a := by
  rw [Bool.eq_iff_iff, iequals_iff, iequals_iff]
  exact eq_comm

/-- Names equal to `a` up to case are equal to whatever `a` is equal to. -/
theorem iequals_congr {a b : Str} (h : iequals a b = true) (c : Str) :
    iequals a c = iequals b c := by
  rw [Bool.eq_iff_iff, iequals_iff, iequals_iff, iequals_iff.mp h]

end SipDemo
