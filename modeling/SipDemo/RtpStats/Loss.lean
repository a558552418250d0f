import SipDemo.RtpStats
import SipDemo.RunningMax
import Mathlib.Algebra.Order.Field.Basic
import Mathlib.Algebra.Order.Field.Rat
import Mathlib.Data.Int.Interval

/-!
# SipDemo.RtpStats.Loss

The loss figures of `RtpStats.cpp` over a whole stream.  `Tally` reads every
counter as a function of the row of extended numbers assigned so far; a packet
appends its number to the row.  Duplicates and numbers below the first one make
`received` larger than the slots they fill, which is why `lost` is a lower
bound of the slots left out and not always their number.
-/

namespace SipDemo

open RunningMax

namespace RtpStats

/-- The counters after the numbers `first :: rest`. -/
structure Tally (first : Int) (rest : List Int) (s : RtpStats) : Prop where
  started : s.started = true
  baseExt : s.baseExt = first
  maxExt : s.maxExt = top first rest
  received : s.received = rest.length + 1
  reordered : s.reordered = late [] (first :: rest)

variable {first : Int} {rest : List Int} {s : RtpStats}

@[simp] theorem length_numbers (s : RtpStats) (xs : List Sample) :
    (s.numbers xs).length = xs.length := by
  induction xs generalizing s with
  | nil => rfl
  | cons x xs ih => simpa [numbers] using ih (s.feed x)

/-- The first packet opens the row at its own sequence number. -/
theorem tally_of_idle (clockRate : Nat) (x : Sample) :
    Tally (number { clockRate } x) [] (feed { clockRate } x) := by
  obtain ⟨hbase, hmax, hreordered⟩ :=
    @update_of_idle { clockRate } x.seq x.rtpTimestamp x.arrivalSec rfl
  exact {
    started := update_started
    baseExt := hbase
    maxExt := hmax
    received := update_received
    reordered := hreordered }

/-- A later packet appends its number. -/
theorem Tally.feed (h : Tally first rest s) (x : Sample) :
    Tally first (rest ++ [s.number x]) (s.feed x) := by
  obtain ⟨hbase, hmax, hreordered⟩ :=
    @update_of_started s x.seq x.rtpTimestamp x.arrivalSec h.started
  have hnumber : s.number x = extend x.seq s.maxExt := by simp [number, h.started]
  constructor
  · exact update_started
  · exact hbase.trans h.baseExt
  · rw [top_concat, ← h.maxExt, hnumber]
    exact hmax
  · rw [List.length_append, List.length_singleton, ← h.received]
    exact update_received
  · rw [late_top, ← h.reordered, ← h.maxExt, hnumber]
    exact hreordered

theorem Tally.final (h : Tally first rest s) (xs : List Sample) :
    Tally first (rest ++ s.numbers xs) (Run.final RtpStats.feed s xs) := by
  induction xs generalizing rest s with
  | nil => simpa [numbers] using h
  | cons x xs ih =>
      have hrest := ih (h.feed x)
      rwa [List.append_assoc] at hrest

/-! ## what the figures say -/

theorem Tally.expected_eq (h : Tally first rest s) :
    (s.expected : Int) = top first rest - first + 1 := by
  have hle : first ≤ top first rest := le_top List.mem_cons_self
  rw [expected, if_pos h.started, h.maxExt, h.baseExt]
  omega

/-- `expected` counts the slots of the row. -/
theorem Tally.expected_eq_card (h : Tally first rest s) :
    s.expected = (slots first rest).card := by
  have hexpected := h.expected_eq
  rw [slots, Int.card_Icc]
  omega

theorem lost_eq_max (s : RtpStats) : s.lost = max (s.expected - s.received : Int) 0 := by
  simp only [lost]
  split <;> omega

theorem Tally.lost_lt (h : Tally first rest s) : 0 ≤ s.lost ∧ s.lost < s.expected := by
  have hle : first ≤ top first rest := le_top List.mem_cons_self
  have hexpected := h.expected_eq
  have hreceived := h.received
  rw [lost_eq_max]
  omega

theorem Tally.lost_le_missing (h : Tally first rest s) : s.lost ≤ (missing first rest).card := by
  have hslots := card_slots_le first rest
  rw [lost_eq_max, h.expected_eq_card, h.received]
  omega

theorem Tally.lost_eq_missing (h : Tally first rest s) (hnodup : (first :: rest).Nodup)
    (habove : ∀ e ∈ rest, first ≤ e) : s.lost = (missing first rest).card := by
  have hslots := card_slots_of_nodup hnodup habove
  rw [lost_eq_max, h.expected_eq_card, h.received]
  omega

theorem Tally.lossFraction_lt (h : Tally first rest s) :
    0 ≤ s.lossFraction ∧ s.lossFraction < 1 := by
  obtain ⟨hnonneg, hlt⟩ := h.lost_lt
  have hpos : 0 < s.expected := by omega
  have hexpected : (0 : ℚ) < s.expected := by exact_mod_cast hpos
  rw [lossFraction, if_neg hpos.ne']
  constructor
  · exact div_nonneg (by exact_mod_cast hnonneg) hexpected.le
  · rw [div_lt_one hexpected]
    exact_mod_cast hlt

/-- **Loss statistics.**  After any stream of at least one packet, with the
extended numbers `first :: rest` assigned along it: the counters are functions
of that row, the loss is below what was expected, and it never exceeds the
slots left out, being their number when no packet is counted twice or from
before the first. -/
theorem loss_statistics (clockRate : Nat) (x : Sample) (xs : List Sample) :
    ∃ first rest, numbers { clockRate } (x :: xs) = first :: rest ∧ first = x.seq.toNat ∧
      let s := Run.final feed { clockRate } (x :: xs)
      s.received = (x :: xs).length ∧
        (s.expected : Int) = top first rest - first + 1 ∧
        s.reordered = late [] (first :: rest) ∧
        (0 ≤ s.lost ∧ s.lost < s.expected) ∧
        (0 ≤ s.lossFraction ∧ s.lossFraction < 1) ∧
        s.lost ≤ (missing first rest).card ∧
        ((first :: rest).Nodup → (∀ e ∈ rest, first ≤ e) →
          s.lost = (missing first rest).card) := by
  have h := (tally_of_idle clockRate x).final xs
  refine ⟨number { clockRate } x, numbers (feed { clockRate } x) xs, rfl, rfl, ?_, h.expected_eq,
    h.reordered, h.lost_lt, h.lossFraction_lt, h.lost_le_missing, h.lost_eq_missing⟩
  have hreceived := h.received
  rwa [List.nil_append, length_numbers] at hreceived

end RtpStats

end SipDemo
