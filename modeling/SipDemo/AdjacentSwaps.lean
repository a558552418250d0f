import Mathlib.Data.List.Perm.Basic
import SipDemo.RunningMax

/-!
# SipDemo.AdjacentSwaps

Lists that differ by swapping pairwise disjoint adjacent entries.  `Swaps xs ys
n` says that `ys` is `xs` with `n` such pairs exchanged; the list is cut into
single entries and pairs from the front, and `concat` and `concat_swap` add to
it at the back, where a program that emits the entries one by one adds them.

The module names nothing of the program.
-/

namespace AdjacentSwaps

variable {α : Type*} {xs ys xs' ys' : List α} {n n' : Nat}

inductive Swaps : List α → List α → Nat → Prop
  | nil : Swaps [] [] 0
  | keep {xs ys : List α} {n : Nat} (x : α) (h : Swaps xs ys n) : Swaps (x :: xs) (x :: ys) n
  | swap {xs ys : List α} {n : Nat} (x y : α) (h : Swaps xs ys n) :
      Swaps (x :: y :: xs) (y :: x :: ys) (n + 1)

theorem Swaps.append (h : Swaps xs ys n) (h' : Swaps xs' ys' n') :
    Swaps (xs ++ xs') (ys ++ ys') (n + n') := by
  induction h with
  | nil => simpa using h'
  | keep x _ ih => exact .keep x ih
  | @swap xs ys n x y _ ih =>
      rw [Nat.add_right_comm]
      exact .swap x y ih

/-- One more entry, in its place. -/
theorem Swaps.concat (h : Swaps xs ys n) (x : α) : Swaps (xs ++ [x]) (ys ++ [x]) n :=
  h.append (.keep x .nil)

/-- Two more, exchanged. -/
theorem Swaps.concat_swap (h : Swaps xs ys n) (x y : α) :
    Swaps (xs ++ [x, y]) (ys ++ [y, x]) (n + 1) :=
  h.append (.swap x y .nil)

/-- Nothing is lost and nothing is doubled. -/
theorem Swaps.perm (h : Swaps xs ys n) : ys.Perm xs := by
  induction h with
  | nil => exact .refl []
  | keep x _ ih => exact ih.cons x
  | swap x y _ ih => exact (List.Perm.swap x y _).trans ((ih.cons y).cons x)

theorem Swaps.map {β : Type*} (f : α → β) (h : Swaps xs ys n) : Swaps (xs.map f) (ys.map f) n := by
  induction h with
  | nil => exact .nil
  | keep x _ ih => exact .keep (f x) ih
  | swap x y _ ih => exact .swap (f x) (f y) ih

/-- Of a row that was in order, one member comes late for each pair exchanged. -/
theorem Swaps.late_eq [LinearOrder α] (h : Swaps xs ys n) (hsorted : xs.Pairwise (· < ·))
    {before : List α} (hbefore : ∀ b ∈ before, ∀ x ∈ xs, b < x) :
    RunningMax.late before ys = n := by
  induction h generalizing before with
  | nil => rfl
  | @keep xs _ n x _ ih =>
      rw [List.pairwise_cons] at hsorted
      have hlater : ∀ b ∈ before ++ [x], ∀ z ∈ xs, b < z := by
        simp only [List.mem_append, List.mem_singleton]
        rintro b (hb | rfl) z hz
        · exact hbefore b hb z (List.mem_cons_of_mem _ hz)
        · exact hsorted.1 z hz
      have hfirst : ¬∃ b ∈ before, x < b := fun ⟨b, hb, hlt⟩ =>
        lt_asymm hlt (hbefore b hb x List.mem_cons_self)
      rw [RunningMax.late, if_neg hfirst, ih hsorted.2 hlater, Nat.zero_add]
  | @swap xs _ n x y _ ih =>
      rw [List.pairwise_cons, List.pairwise_cons] at hsorted
      have hxy : x < y := hsorted.1 y List.mem_cons_self
      have hlater : ∀ b ∈ before ++ [y] ++ [x], ∀ z ∈ xs, b < z := by
        simp only [List.mem_append, List.mem_singleton]
        rintro b ((hb | rfl) | rfl) z hz
        · exact hbefore b hb z (List.mem_cons_of_mem _ (List.mem_cons_of_mem _ hz))
        · exact hsorted.2.1 z hz
        · exact hsorted.1 z (List.mem_cons_of_mem _ hz)
      have hfirst : ¬∃ b ∈ before, y < b := fun ⟨b, hb, hlt⟩ =>
        lt_asymm hlt (hbefore b hb y (by simp))
      have hsecond : ∃ b ∈ before ++ [y], x < b := ⟨y, by simp, hxy⟩
      rw [RunningMax.late, RunningMax.late, if_neg hfirst, if_pos hsecond,
        ih hsorted.2.2 hlater, Nat.zero_add, Nat.add_comm]

end AdjacentSwaps
