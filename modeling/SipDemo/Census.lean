import Mathlib.Data.Finset.Card
import Mathlib.Data.Fintype.Basic
import Mathlib.Logic.Function.Basic

/-!
# SipDemo.Census

How many members of a finite family are in a phase of a given kind.

A system of concurrent parties is a function `f : ι → σ` from the parties to
their local states, and counting invariants compare how many parties are in
states of different kinds.  A step moves one party, `Function.update f i x`,
or all of them at once; the lemmas say what that does to a count.

The module names nothing of the program.
-/

variable {ι σ : Type*} [Fintype ι]

/-- The number of members whose state is of the kind `p`. -/
def census (p : σ → Bool) (f : ι → σ) : Nat := (Finset.univ.filter fun i => p (f i) = true).card

namespace Census

theorem pos_iff (p : σ → Bool) (f : ι → σ) : 0 < census p f ↔ ∃ i, p (f i) = true := by
  rw [census, Finset.card_pos, Finset.filter_nonempty_iff]
  simp

theorem eq_zero_iff (p : σ → Bool) (f : ι → σ) : census p f = 0 ↔ ∀ i, p (f i) = false := by
  rw [← Nat.le_zero, ← Nat.not_lt, pos_iff]
  simp

/-- What the members other than `i` contribute, and what `i` does. -/
theorem erase_add [DecidableEq ι] (p : σ → Bool) (f : ι → σ) (i : ι) :
    ((Finset.univ.erase i).filter fun j => p (f j) = true).card + (p (f i)).toNat =
      census p f := by
  unfold census
  conv_rhs => rw [← Finset.insert_erase (Finset.mem_univ i), Finset.filter_insert]
  cases hi : p (f i) with
  | false => simp
  | true =>
      rw [if_pos rfl, Finset.card_insert_of_notMem (by simp)]
      rfl

/-- **One member moves**: the count loses its old state and gains its new one. -/
theorem update [DecidableEq ι] (p : σ → Bool) (f : ι → σ) (i : ι) (x : σ) :
    census p (Function.update f i x) + (p (f i)).toNat = census p f + (p x).toNat := by
  have hothers : ((Finset.univ.erase i).filter fun j => p (Function.update f i x j) = true) =
      (Finset.univ.erase i).filter fun j => p (f j) = true := by
    apply Finset.filter_congr
    intro j hj
    rw [Function.update_of_ne (Finset.ne_of_mem_erase hj)]
  rw [← erase_add p f i, ← erase_add p (Function.update f i x) i, hothers, Function.update_self]
  omega

/-- All members move at once, none of them into or out of the kind. -/
theorem congr {p q : σ → Bool} {f g : ι → σ} (h : ∀ i, p (f i) = q (g i)) :
    census p f = census q g := by
  unfold census
  simp only [h]

end Census
