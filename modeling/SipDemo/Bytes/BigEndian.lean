import Mathlib.Data.List.Induction
import Mathlib.Data.Nat.Bitwise
import Mathlib.Tactic.Linarith
import Mathlib.Tactic.Positivity
import Mathlib.Tactic.Ring

/-!
# SipDemo.Bytes.BigEndian

Numbers as big-endian byte strings (network byte order): the value of a byte
string, its digits to base 256, and the two round trips

```
value (bytes k n) = n          for  n < 256 ^ k
bytes l.length (value l) = l
```

The module names nothing of the program.
-/

namespace BigEndian

/-- The number a byte string stands for, the most significant byte first. -/
def value (l : List UInt8) : Nat := l.foldl (fun n b => n * 256 + b.toNat) 0

/-- The low `k` digits of `n` to base 256. -/
def bytes : Nat → Nat → List UInt8
  | 0, _ => []
  | k + 1, n => UInt8.ofNat (n / 256 ^ k) :: bytes k n

@[simp] theorem value_nil : value [] = 0 := rfl

@[simp] theorem value_concat (l : List UInt8) (b : UInt8) :
    value (l ++ [b]) = value l * 256 + b.toNat := by
  unfold value
  rw [List.foldl_append, List.foldl_cons, List.foldl_nil]

theorem value_append (l r : List UInt8) : value (l ++ r) = value l * 256 ^ r.length + value r := by
  induction r using List.reverseRecOn with
  | nil => simp
  | append_singleton r b ih =>
      rw [← List.append_assoc, value_concat, ih, value_concat, List.length_append,
        List.length_singleton, pow_succ]
      ring

theorem value_cons (b : UInt8) (l : List UInt8) :
    value (b :: l) = b.toNat * 256 ^ l.length + value l := by
  have h := value_append [b] l
  simpa [value] using h

theorem value_lt (l : List UInt8) : value l < 256 ^ l.length := by
  induction l with
  | nil => simp
  | cons b l ih =>
      have hb : (b.toNat + 1) * 256 ^ l.length ≤ 256 * 256 ^ l.length :=
        Nat.mul_le_mul_right _ b.toNat_lt
      rw [value_cons, List.length_cons, pow_succ, Nat.mul_comm _ 256]
      linarith

@[simp] theorem length_bytes (k n : Nat) : (bytes k n).length = k := by
  induction k with
  | zero => rfl
  | succ k ih => rw [bytes, List.length_cons, ih]

/-- Digits above the first `k` do not show in them. -/
theorem bytes_add_mul (k m n : Nat) : bytes k (m * 256 ^ k + n) = bytes k n := by
  induction k generalizing m with
  | zero => rfl
  | succ k ih =>
      have hsplit : m * 256 ^ (k + 1) + n = m * 256 * 256 ^ k + n := by ring
      have hdigit : (m * 256 ^ (k + 1) + n) / 256 ^ k = n / 256 ^ k + m * 256 := by
        rw [hsplit, Nat.add_comm, Nat.add_mul_div_right _ _ (by positivity)]
      rw [bytes, bytes, hdigit, hsplit, ih]
      congr 1
      apply UInt8.toNat_inj.mp
      simp only [UInt8.toNat_ofNat']
      omega

/-- **Round trip**, from the number. -/
theorem value_bytes (k n : Nat) (h : n < 256 ^ k) : value (bytes k n) = n := by
  induction k generalizing n with
  | zero =>
      have : n = 0 := by simpa using h
      rw [this]
      rfl
  | succ k ih =>
      have hdigit : n / 256 ^ k < 256 := by
        rw [pow_succ, Nat.mul_comm] at h
        exact (Nat.div_lt_iff_lt_mul (by positivity)).mpr h
      have hrest : bytes k n = bytes k (n % 256 ^ k) := by
        conv_lhs => rw [← Nat.div_add_mod' n (256 ^ k)]
        exact bytes_add_mul k (n / 256 ^ k) (n % 256 ^ k)
      rw [bytes, value_cons, length_bytes, hrest, ih _ (Nat.mod_lt n (by positivity)),
        UInt8.toNat_ofNat', Nat.mod_eq_of_lt hdigit]
      exact Nat.div_add_mod' n (256 ^ k)

/-- **Round trip**, from the byte string. -/
theorem bytes_value (l : List UInt8) : bytes l.length (value l) = l := by
  induction l with
  | nil => rfl
  | cons b l ih =>
      have hdigit : (b.toNat * 256 ^ l.length + value l) / 256 ^ l.length = b.toNat := by
        rw [Nat.add_comm, Nat.add_mul_div_right _ _ (by positivity),
          Nat.div_eq_of_lt (value_lt l), Nat.zero_add]
      rw [List.length_cons, value_cons, bytes, hdigit, bytes_add_mul, ih, UInt8.ofNat_toNat]

/-! ## shifts and masks -/

/-- Shifting a byte in: `(n << 8) | b`. -/
theorem shiftLeft_or (n : Nat) (b : UInt8) : n <<< 8 ||| b.toNat = n * 256 + b.toNat := by
  rw [← Nat.shiftLeft_add_eq_or_of_lt b.toNat_lt, Nat.shiftLeft_eq]

end BigEndian
