import SipDemo.RtpPacket
import SipDemo.Run
import Mathlib.Data.Rat.Defs
import Mathlib.Algebra.Order.Ring.Rat
import Mathlib.Algebra.Order.Group.Abs

/-!
# SipDemo.RtpStats

Receiver-side reception statistics, `RtpStats.cpp`: extended sequence range,
loss, reordering, and the interarrival jitter estimate.

The counters are unbounded; the `double` arithmetic of the jitter estimate is
exact rational arithmetic here, and the arrival time is an input.
-/

namespace SipDemo

structure RtpStats where
  clockRate : Nat := 8000
  started : Bool := false
  baseExt : Int := 0
  maxExt : Int := 0
  received : Nat := 0
  reordered : Nat := 0
  lastTransit : ℚ := 0
  haveTransit : Bool := false
  jitter : ℚ := 0

namespace RtpStats

def extend (seq : UInt16) (reference : Int) : Int := extendSeq seq reference

/-- The sequence range after a packet: the first one opens it, the others are
unwrapped against its upper end. -/
def observe (s : RtpStats) (seq : UInt16) : RtpStats :=
  if s.started then
    let ext := extend seq s.maxExt
    { s with
      reordered := if ext < s.maxExt then s.reordered + 1 else s.reordered
      maxExt := if ext > s.maxExt then ext else s.maxExt }
  else { s with started := true, baseExt := seq.toNat, maxExt := seq.toNat }

/-- The jitter estimate after a packet: transit is arrival minus timestamp, and
its change is low-pass filtered with gain 1/16. -/
def smooth (s : RtpStats) (rtpTimestamp : UInt32) (arrivalSec : ℚ) : RtpStats :=
  let transit := arrivalSec * s.clockRate - rtpTimestamp.toNat
  let d := |transit - s.lastTransit|
  { s with
    jitter := if s.haveTransit then s.jitter + (d - s.jitter) / 16 else s.jitter
    lastTransit := transit
    haveTransit := true }

def update (s : RtpStats) (seq : UInt16) (rtpTimestamp : UInt32) (arrivalSec : ℚ) : RtpStats :=
  let s := s.observe seq
  { s with received := s.received + 1 }.smooth rtpTimestamp arrivalSec

def expected (s : RtpStats) : Nat := if s.started then (s.maxExt - s.baseExt + 1).toNat else 0

def lost (s : RtpStats) : Int :=
  let l : Int := s.expected - s.received
  if l > 0 then l else 0

def lossFraction (s : RtpStats) : ℚ := if s.expected = 0 then 0 else s.lost / s.expected

def jitterMs (s : RtpStats) : ℚ := s.jitter / s.clockRate * 1000

def reset (s : RtpStats) : RtpStats := { clockRate := s.clockRate }

/-- The arguments of one call of `update`. -/
structure Sample where
  seq : UInt16
  rtpTimestamp : UInt32
  arrivalSec : ℚ

def feed (s : RtpStats) (x : Sample) : RtpStats := s.update x.seq x.rtpTimestamp x.arrivalSec

/-- The extended number that `update` works with for a packet. -/
def number (s : RtpStats) (x : Sample) : Int :=
  if s.started then extend x.seq s.maxExt else x.seq.toNat

/-- The extended numbers assigned along a stream. -/
def numbers (s : RtpStats) (xs : List Sample) : List Int :=
  Run.collect feed (fun s x => [s.number x]) s xs

/-- The jitter estimates after every packet of a stream. -/
def jitters (s : RtpStats) (xs : List Sample) : List ℚ :=
  Run.collect feed (fun s x => [(s.feed x).jitter]) s xs

/-! ## what a packet does -/

variable {s : RtpStats} {seq : UInt16} {rtpTimestamp : UInt32} {arrivalSec : ℚ}

@[simp] theorem update_started : (s.update seq rtpTimestamp arrivalSec).started = true := by
  simp only [update, smooth, observe]
  split
  · assumption
  · rfl

@[simp] theorem update_received :
    (s.update seq rtpTimestamp arrivalSec).received = s.received + 1 := by
  simp only [update, smooth, observe]
  split <;> rfl

/-- The first packet opens the range at its own number. -/
theorem update_of_idle (h : s.started = false) :
    (s.update seq rtpTimestamp arrivalSec).baseExt = seq.toNat ∧
      (s.update seq rtpTimestamp arrivalSec).maxExt = seq.toNat ∧
      (s.update seq rtpTimestamp arrivalSec).reordered = s.reordered := by
  simp [update, smooth, observe, h]

/-- A later one extends the range up to its number, or is counted as reordered
when it is below the upper end. -/
theorem update_of_started (h : s.started = true) :
    (s.update seq rtpTimestamp arrivalSec).baseExt = s.baseExt ∧
      (s.update seq rtpTimestamp arrivalSec).maxExt = max s.maxExt (extend seq s.maxExt) ∧
      (s.update seq rtpTimestamp arrivalSec).reordered =
        s.reordered + if extend seq s.maxExt < s.maxExt then 1 else 0 := by
  simp only [update, smooth, observe, h, if_true, true_and]
  constructor
  · split <;> omega
  · split <;> rfl

end RtpStats

end SipDemo
