import SipDemo.RtpStats
import Mathlib.Algebra.Order.Group.Abs
import Mathlib.Data.List.Chain
import Mathlib.Tactic.Linarith
import Mathlib.Tactic.Ring

/-!
# SipDemo.RtpStats.Jitter

The jitter estimate of `RtpStats.cpp` and the origin of the timestamps.  The
estimate is driven by the drift between consecutive packets,

```
drift x y = (arrival y - arrival x) * clockRate - (timestamp y - timestamp x)
```

with the timestamps as plain 32-bit numbers: nothing unwraps them, where
`extend` unwraps the sequence numbers.  Another origin leaves the drift alone
as long as both timestamps of a pair wrap or neither does.
-/

namespace SipDemo

namespace RtpStats

/-- The change of transit time from one packet to the next. -/
def drift (clockRate : Nat) (x y : Sample) : ℚ :=
  (y.arrivalSec - x.arrivalSec) * clockRate - (y.rtpTimestamp.toNat - x.rtpTimestamp.toNat)

/-- The packet of a sender whose timestamps started `c` later. -/
def shift (c : UInt32) (x : Sample) : Sample := { x with rtpTimestamp := x.rtpTimestamp + c }

/-- The later origin takes the timestamp over the end of its 32 bits. -/
def wraps (c : UInt32) (x : Sample) : Bool := 2 ^ 32 ≤ x.rtpTimestamp.toNat + c.toNat

/-- The later origin does not show in the size of the drift: both timestamps
wrap or neither, or the drift lies half a timestamp space on the side that a
single wrap turns over. -/
def Steady (clockRate : Nat) (c : UInt32) (x y : Sample) : Prop :=
  wraps c x = wraps c y ∨ drift clockRate x y = if wraps c x then 2 ^ 31 else -2 ^ 31

variable {clockRate : Nat} {c : UInt32} {x y : Sample} {s t : RtpStats}

/-! ## the drift under another origin -/

theorem timestamp_shift (c : UInt32) (x : Sample) :
    ((shift c x).rtpTimestamp.toNat : ℚ) =
      x.rtpTimestamp.toNat + c.toNat - if wraps c x then 2 ^ 32 else 0 := by
  have hx := x.rtpTimestamp.toNat_lt
  have hc := c.toNat_lt
  have hsum : (shift c x).rtpTimestamp.toNat + (if wraps c x then 2 ^ 32 else 0) =
      x.rtpTimestamp.toNat + c.toNat := by
    simp only [shift, wraps, UInt32.toNat_add, decide_eq_true_eq]
    split <;> omega
  rw [eq_sub_iff_add_eq]
  exact_mod_cast hsum

theorem drift_shift (clockRate : Nat) (c : UInt32) (x y : Sample) :
    drift clockRate (shift c x) (shift c y) = drift clockRate x y +
      ((if wraps c y then 2 ^ 32 else 0) - if wraps c x then 2 ^ 32 else 0) := by
  rw [drift, drift, timestamp_shift, timestamp_shift]
  simp only [shift]
  ring

/-- The size of the drift is the same under both origins just for steady pairs. -/
theorem abs_drift_shift_iff :
    |drift clockRate (shift c x) (shift c y)| = |drift clockRate x y| ↔
      Steady clockRate c x y := by
  rw [drift_shift, abs_eq_abs, Steady]
  cases wraps c x <;> cases wraps c y <;> simp <;> constructor <;> intro h <;> linarith

/-! ## one packet -/

/-- `x` was the last packet fed to statistics that run at `clockRate`. -/
structure Last (clockRate : Nat) (x : Sample) (s : RtpStats) : Prop where
  haveTransit : s.haveTransit = true
  clockRate_eq : s.clockRate = clockRate
  lastTransit : s.lastTransit = x.arrivalSec * clockRate - x.rtpTimestamp.toNat

theorem feed_clockRate (s : RtpStats) (x : Sample) : (s.feed x).clockRate = s.clockRate := by
  simp only [feed, update, smooth, observe]
  split <;> rfl

theorem last_feed (s : RtpStats) (x : Sample) : Last s.clockRate x (s.feed x) where
  haveTransit := rfl
  clockRate_eq := feed_clockRate s x
  lastTransit := by
    simp only [feed, update, smooth, observe]
    split <;> rfl

/-- The estimate moves a sixteenth of the way to the size of the drift. -/
theorem Last.jitter_feed (h : Last clockRate x s) (y : Sample) :
    (s.feed y).jitter = s.jitter + (|drift clockRate x y| - s.jitter) / 16 := by
  have hdrift : y.arrivalSec * clockRate - y.rtpTimestamp.toNat - s.lastTransit =
      drift clockRate x y := by
    rw [h.lastTransit, drift]
    ring
  rw [← hdrift, ← h.clockRate_eq]
  simp only [feed, update, smooth, observe]
  split <;> simp [h.haveTransit]

theorem Last.feed (h : Last clockRate x s) (y : Sample) : Last clockRate y (s.feed y) :=
  h.clockRate_eq ▸ last_feed s y

/-! ## streams -/

/-- From equal estimates, both origins give the same estimates just along
steady streams. -/
theorem Last.jitters_eq_iff (hs : Last clockRate x s) (ht : Last clockRate (shift c x) t)
    (hjitter : t.jitter = s.jitter) (ys : List Sample) :
    jitters t (ys.map (shift c)) = jitters s ys ↔ (x :: ys).IsChain (Steady clockRate c) := by
  induction ys generalizing x s t with
  | nil => simp [jitters]
  | cons y ys ih =>
      have hnext : (t.feed (shift c y)).jitter = (s.feed y).jitter ↔ Steady clockRate c x y := by
        rw [hs.jitter_feed, ht.jitter_feed, hjitter, ← abs_drift_shift_iff]
        constructor <;> intro h <;> linarith
      simp only [jitters, List.map_cons, Run.collect_cons, List.singleton_append, List.cons.injEq,
        List.isChain_cons_cons]
      rw [hnext]
      exact and_congr_right fun h => ih (hs.feed y) (ht.feed (shift c y)) (hnext.mpr h)

/-- **Timestamp origin.**  A sender that starts its timestamps `c` later is
given the same jitter after every packet if and only if no pair of consecutive
packets has exactly one timestamp wrap, drifts of half a timestamp space apart. -/
theorem jitters_shift_iff (clockRate : Nat) (c : UInt32) (xs : List Sample) :
    jitters { clockRate } (xs.map (shift c)) = jitters { clockRate } xs ↔
      xs.IsChain (Steady clockRate c) := by
  cases xs with
  | nil => simp [jitters]
  | cons x xs =>
      have hiff := (last_feed { clockRate } x).jitters_eq_iff
        (last_feed { clockRate } (shift c x)) rfl xs
      rw [← hiff]
      simp [jitters, feed, update, smooth, observe]

/-- Two packets of 20 ms whose timestamps pass the end of the 32 bits. -/
def acrossWrap : List Sample := [⟨0, 0xffffff60, 0⟩, ⟨1, 0, 1 / 50⟩]

/-- The wrap counts as a drift of 2^32 units, although the packets came on time;
a sender that started 160 units later sees none. -/
theorem jitters_acrossWrap :
    jitters { clockRate := 8000 } acrossWrap = [0, 268435456] ∧
      jitters { clockRate := 8000 } (acrossWrap.map (shift 160)) = [0, 0] := by
  decide +kernel

end RtpStats

end SipDemo
