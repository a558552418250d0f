import Mathlib.Data.Finset.Card
import Mathlib.Data.Finset.Dedup
import Mathlib.Order.Interval.Finset.Defs

/-!
# SipDemo.RunningMax

Rows of numbers read one after another, with the largest so far kept:

* `top` — the largest of a row;
* `late` — how many of a row come after a larger one;
* `slots` and `missing` — the slots from the first of a row to its largest, and
  those that the row leaves out.

The module names nothing of the program.
-/

namespace RunningMax

variable {α : Type*} [LinearOrder α]

/-- The largest of a row that opens with `first`. -/
def top (first : α) (rest : List α) : α := rest.foldl max first

/-- How many members of a row come after a larger one, with `before` in front
of the row. -/
def late (before : List α) : List α → Nat
  | [] => 0
  | e :: l => (if ∃ x ∈ before, e < x then 1 else 0) + late (before ++ [e]) l

/-- The slots from the first of a row to its largest. -/
def slots [LocallyFiniteOrder α] (first : α) (rest : List α) : Finset α :=
  Finset.Icc first (top first rest)

/-- Those of them that are not in the row. -/
def missing [LocallyFiniteOrder α] (first : α) (rest : List α) : Finset α :=
  slots first rest \ (first :: rest).toFinset

/-! ## the largest -/

@[simp] theorem top_nil (first : α) : top first [] = first := rfl

@[simp] theorem top_concat (first : α) (rest : List α) (e : α) :
    top first (rest ++ [e]) = max (top first rest) e := by
  simp [top]

theorem lt_top_iff {first e : α} {rest : List α} :
    e < top first rest ↔ ∃ x ∈ first :: rest, e < x := by
  induction rest using List.reverseRecOn with
  | nil => simp
  | append_singleton rest y ih =>
      rw [top_concat, lt_max_iff, ih]
      simp only [List.mem_cons, List.mem_append, List.not_mem_nil, or_false]
      grind

theorem le_top {first e : α} {rest : List α} (h : e ∈ first :: rest) : e ≤ top first rest :=
  not_lt.mp fun hlt => lt_irrefl _ (lt_top_iff.mpr ⟨e, h, hlt⟩)

/-! ## members behind a larger one -/

@[simp] theorem late_nil (before : List α) : late before [] = 0 := rfl

theorem late_concat (before l : List α) (e : α) :
    late before (l ++ [e]) = late before l + if ∃ x ∈ before ++ l, e < x then 1 else 0 := by
  induction l generalizing before with
  | nil => simp [late]
  | cons y l ih =>
      rw [List.cons_append, late, late, ih, List.append_assoc, Nat.add_assoc]
      rfl

/-- One more at the end of a row is late when it is below the largest. -/
theorem late_top (first : α) (rest : List α) (e : α) :
    late [] (first :: (rest ++ [e])) =
      late [] (first :: rest) + if e < top first rest then 1 else 0 := by
  rw [← List.cons_append, late_concat]
  simp only [lt_top_iff, List.nil_append]

/-! ## slots left out -/

variable [LocallyFiniteOrder α]

/-- The slots are filled by at most as many members as the row has. -/
theorem card_slots_le (first : α) (rest : List α) :
    (slots first rest).card ≤ rest.length + 1 + (missing first rest).card := by
  have hfill : (first :: rest).toFinset.card ≤ rest.length + 1 :=
    List.toFinset_card_le (first :: rest)
  have hcut := Finset.le_card_sdiff (first :: rest).toFinset (slots first rest)
  unfold missing
  omega

/-- A row without repetition that stays above its first member fills as many
slots as it has members. -/
theorem card_slots_of_nodup {first : α} {rest : List α} (hnodup : (first :: rest).Nodup)
    (habove : ∀ e ∈ rest, first ≤ e) :
    (slots first rest).card = rest.length + 1 + (missing first rest).card := by
  have hsub : (first :: rest).toFinset ⊆ slots first rest := by
    intro e he
    rw [List.mem_toFinset] at he
    rw [slots, Finset.mem_Icc]
    exact ⟨by grind, le_top he⟩
  have hfill : (first :: rest).toFinset.card = rest.length + 1 :=
    List.toFinset_card_of_nodup hnodup
  have hcut := Finset.card_sdiff_add_card_eq_card hsub
  unfold missing
  omega

end RunningMax
