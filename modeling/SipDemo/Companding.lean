import Mathlib.Algebra.Order.Ring.Nat
import Mathlib.Data.Nat.Log
import Mathlib.Order.Lattice

/-!
# SipDemo.Companding

Cells whose width grows with the number, as those of a floating-point format: a
number keeps `b + 1` leading bits, but no cell is narrower than `2 ^ a`.  A
number is told by its cell and read back as the middle of it; that keeps the
order of numbers (`middle_mono`) and errs by half a cell (`middle_near`), a fixed
share of the number (`half_le`).

The module names nothing of the program.
-/

namespace Companding

variable {a b m n : Nat}

/-- The width of a cell is two to this power. -/
def exponent (a b m : Nat) : Nat := max a (Nat.log 2 m - b)

def lower (a b m : Nat) : Nat := m / 2 ^ exponent a b m * 2 ^ exponent a b m

/-- What is read back, for cells of at least two. -/
def middle (a b m : Nat) : Nat := lower a b m + 2 ^ (exponent a b m - 1)

theorem exponent_mono (h : m ≤ n) : exponent a b m ≤ exponent a b n := by
  have hlog : Nat.log 2 m ≤ Nat.log 2 n := Nat.log_mono_right h
  unfold exponent
  omega

theorem exponent_eq_of_lt (h : m < 2 ^ (a + b + 1)) : exponent a b m = a := by
  have hlog : Nat.log 2 m < a + b + 1 := Nat.log_lt_of_lt_pow' (by omega) h
  unfold exponent
  omega

theorem exponent_eq {e : Nat} (hae : a ≤ e) (hle : 2 ^ (e + b) ≤ m) (hlt : m < 2 ^ (e + b + 1)) :
    exponent a b m = e := by
  have hlog : Nat.log 2 m = e + b := (Nat.log_eq_iff (by omega)).mpr ⟨hle, hlt⟩
  unfold exponent
  omega

/-- Every number from `2 ^ (a + b)` on has an exponent that leaves it `b + 1` bits. -/
theorem exists_exponent {k : Nat} (hlo : 2 ^ (a + b) ≤ m) (hhi : m < 2 ^ (k + b)) :
    ∃ e, a ≤ e ∧ e < k ∧ 2 ^ (e + b) ≤ m ∧ m < 2 ^ (e + b + 1) := by
  have hpos : m ≠ 0 := by
    rintro rfl
    simp at hlo
  have hlog : a + b ≤ Nat.log 2 m := (Nat.le_log_iff_pow_le (by omega) hpos).mpr hlo
  have hbelow : Nat.log 2 m < k + b := Nat.log_lt_of_lt_pow hpos hhi
  refine ⟨Nat.log 2 m - b, by omega, by omega, ?_⟩
  rw [Nat.sub_add_cancel (by omega)]
  exact ⟨Nat.pow_log_le_self 2 hpos, Nat.lt_pow_succ_log_self (by omega) m⟩

/-- The leading one of them is one, the others are any. -/
theorem leading_bits {e : Nat} (hlo : 2 ^ (e + b) ≤ m) (hhi : m < 2 ^ (e + b + 1)) :
    ∃ q < 2 ^ b, m / 2 ^ e = 2 ^ b + q := by
  have hge : 2 ^ b ≤ m / 2 ^ e := by
    rw [Nat.le_div_iff_mul_le (Nat.two_pow_pos e), ← Nat.pow_add, Nat.add_comm]
    exact hlo
  have hlt : m / 2 ^ e < 2 ^ (b + 1) := by
    rw [Nat.div_lt_iff_lt_mul (Nat.two_pow_pos e), ← Nat.pow_add, Nat.add_comm, ← Nat.add_assoc]
    exact hhi
  rw [Nat.pow_succ] at hlt
  exact ⟨m / 2 ^ e - 2 ^ b, by omega, by omega⟩

theorem middle_eq {e d : Nat} (he : exponent a b m = e) (hd : m / 2 ^ e = d) :
    middle a b m = d * 2 ^ e + 2 ^ (e - 1) := by
  rw [middle, lower, he, hd]

/-- A number lies in its cell. -/
theorem mem_cell (a b m : Nat) :
    lower a b m ≤ m ∧ m < lower a b m + 2 ^ exponent a b m :=
  ⟨Nat.div_mul_le_self _ _, Nat.lt_div_mul_add (Nat.two_pow_pos _)⟩

theorem lt_pow_exponent (a b m : Nat) : m < 2 ^ (exponent a b m + b + 1) :=
  (Nat.lt_pow_succ_log_self (by omega) m).trans_le
    (Nat.pow_le_pow_right (by omega) (by unfold exponent; omega))

/-- A number whose cell is wider than the least has all its `b + 1` bits. -/
theorem pow_le_of_lt_exponent (h : a < exponent a b m) : 2 ^ (exponent a b m + b) ≤ m := by
  have hlog : exponent a b m + b = Nat.log 2 m := by
    unfold exponent at h ⊢
    omega
  have hpos : m ≠ 0 := by
    rintro rfl
    simp [exponent] at h
  rw [hlog]
  exact Nat.pow_log_le_self 2 hpos

/-- Cells are a fixed share of their numbers, or of the least width. -/
theorem width_le (a b m : Nat) : 2 ^ (exponent a b m + b) ≤ max (2 ^ (a + b)) m := by
  by_cases h : a < exponent a b m
  · exact (pow_le_of_lt_exponent h).trans (le_max_right _ _)
  · have hleast : exponent a b m = a := by
      unfold exponent at h ⊢
      omega
    rw [hleast]
    exact le_max_left _ _

/-- A number in another, wider cell is above the whole cell of the smaller one. -/
theorem upper_le_lower (h : exponent a b m < exponent a b n) :
    lower a b m + 2 ^ exponent a b m ≤ lower a b n := by
  have hn : 2 ^ (exponent a b n + b) ≤ n :=
    pow_le_of_lt_exponent ((le_max_left a _).trans_lt h)
  have hm : m < 2 ^ (exponent a b n + b) :=
    (lt_pow_exponent a b m).trans_le (Nat.pow_le_pow_right (by omega) (by omega))
  -- the power is a bound of cells of either width
  calc lower a b m + 2 ^ exponent a b m
      = (m / 2 ^ exponent a b m + 1) * 2 ^ exponent a b m := by rw [lower, Nat.succ_mul]
    _ ≤ 2 ^ (exponent a b n + b - exponent a b m) * 2 ^ exponent a b m := by
        refine Nat.mul_le_mul_right _ (Nat.div_lt_of_lt_mul ?_)
        rwa [← Nat.pow_add, Nat.add_sub_cancel' (by omega)]
    _ = 2 ^ b * 2 ^ exponent a b n := by
        rw [← Nat.pow_add, ← Nat.pow_add]
        congr 1
        omega
    _ ≤ lower a b n := by
        refine Nat.mul_le_mul_right _ ((Nat.le_div_iff_mul_le (Nat.two_pow_pos _)).mpr ?_)
        rwa [← Nat.pow_add, Nat.add_comm]

theorem middle_mono (h : m ≤ n) : middle a b m ≤ middle a b n := by
  cases (exponent_mono h : exponent a b m ≤ exponent a b n).eq_or_lt with
  | inl heq =>
      unfold middle lower
      rw [heq]
      exact Nat.add_le_add_right (Nat.mul_le_mul_right _ (Nat.div_le_div_right h)) _
  | inr hlt =>
      have hhalf : 2 ^ (exponent a b m - 1) ≤ 2 ^ exponent a b m :=
        Nat.pow_le_pow_right (by omega) (by omega)
      calc middle a b m
          ≤ lower a b m + 2 ^ exponent a b m := Nat.add_le_add_left hhalf _
        _ ≤ lower a b n := upper_le_lower hlt
        _ ≤ middle a b n := Nat.le_add_right _ _

/-- The middle is half a cell from any number of the cell. -/
theorem middle_near (ha : 0 < a) (b m : Nat) :
    m < middle a b m + 2 ^ (exponent a b m - 1) ∧
      middle a b m ≤ m + 2 ^ (exponent a b m - 1) := by
  obtain ⟨hlo, hhi⟩ := mem_cell a b m
  have hpos : 0 < exponent a b m := ha.trans_le (le_max_left a _)
  have hhalf : 2 ^ exponent a b m = 2 ^ (exponent a b m - 1) * 2 := by
    rw [← Nat.pow_succ, Nat.succ_eq_add_one, Nat.sub_add_cancel hpos]
  unfold middle
  omega

/-- As a share of the number, half a cell is fixed. -/
theorem half_le (ha : 0 < a) (b m : Nat) :
    2 ^ (b + 1) * 2 ^ (exponent a b m - 1) ≤ max (2 ^ (a + b)) m := by
  have hpos : 0 < exponent a b m := ha.trans_le (le_max_left a _)
  rw [← Nat.pow_add, show b + 1 + (exponent a b m - 1) = exponent a b m + b by omega]
  exact width_le a b m

end Companding
