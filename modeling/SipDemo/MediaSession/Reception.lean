import SipDemo.JitterBuffer.Accounting
import SipDemo.MediaSession.Echo

/-!
# SipDemo.MediaSession.Reception

The two components that number the received voice packets.  `JitterBuffer` and
`RtpStats` unwrap sequence numbers with the same code against their own highest
number, but only the jitter buffer discards late and duplicate packets.  A
discarded packet is never above the highest number, so the two agree on every
stream, and with the true position of each packet (`unwrapping`).
-/

namespace SipDemo

/-- The voice side of the receive loop. -/
structure Reception where
  jitter : JitterBuffer
  stats : RtpStats := {}

namespace Reception

open JitterBuffer (Insertion)

inductive Event where
  | arrive (pkt : RtpPacket) (nowSec : ℚ)
  | pop

def step (r : Reception) : Event → Reception
  | .arrive pkt nowSec =>
    { jitter := r.jitter.insert pkt
      stats := r.stats.update pkt.sequence pkt.timestamp nowSec }
  | .pop => { r with jitter := r.jitter.pop.2 }

@[simp] theorem step_arrive_jitter (r : Reception) (pkt : RtpPacket) (nowSec : ℚ) :
    (r.step (.arrive pkt nowSec)).jitter = r.jitter.insert pkt := rfl

@[simp] theorem step_arrive_stats (r : Reception) (pkt : RtpPacket) (nowSec : ℚ) :
    (r.step (.arrive pkt nowSec)).stats = r.stats.update pkt.sequence pkt.timestamp nowSec := rfl

@[simp] theorem step_pop_jitter (r : Reception) : (r.step .pop).jitter = r.jitter.pop.2 := rfl

@[simp] theorem step_pop_stats (r : Reception) : (r.step .pop).stats = r.stats := rfl

def fresh (cfg : JitterBuffer.Config) (clockRate : Nat) : Reception where
  jitter := .fresh cfg
  stats := { clockRate }

/-- The packets that arrive, in order. -/
def arrivals (events : List Event) : List RtpPacket :=
  events.filterMap fun
    | .arrive pkt _ => some pkt
    | .pop => none

/-- The extended number the jitter buffer assigns to an arriving packet. -/
def assigned (r : Reception) : Event → List Int
  | .arrive pkt _ => [r.jitter.slotOf pkt]
  | .pop => []

/-! ## streams -/

/-- The largest of the first `n` positions; the first one is 0. -/
def largest (i : Nat → Int) (n : Nat) : Int := ((List.range n).map i).foldl max 0

/-- Packets of one stream that starts at sequence number `s₀`: packet `k` is at
position `i k`, the first one at 0, and each of the others within 32767 of the
largest position before it. -/
structure IsStream (s₀ : UInt16) (i : Nat → Int) (pkts : List RtpPacket) : Prop where
  first : i 0 = 0
  near : ∀ k < pkts.length, 0 < k → (i k - largest i k).natAbs ≤ 32767
  sequence : ∀ k, (hk : k < pkts.length) →
    (pkts[k].sequence.toNat : Int) = (s₀.toNat + i k) % 65536

theorem largest_succ (i : Nat → Int) (n : Nat) : largest i (n + 1) = max (largest i n) (i n) := by
  simp [largest, List.range_succ]

theorem IsStream.initial {s₀ : UInt16} {i : Nat → Int} {seen pkts : List RtpPacket}
    (h : IsStream s₀ i pkts) (hpre : seen <+: pkts) : IsStream s₀ i seen where
  first := h.first
  near k hk := h.near k (hk.trans_le hpre.length_le)
  sequence k hk := by
    have hseq := h.sequence k (hk.trans_le hpre.length_le)
    rwa [← hpre.getElem hk] at hseq

/-! ## the two components agree -/

/-- What `highestExt` becomes, and what `reordered` gains at most: a discarded
packet is not above the highest number. -/
theorem highest_of_insertion {jb jb' : JitterBuffer} {pkt : RtpPacket} (h : jb.Inv)
    (hins : Insertion jb pkt jb') :
    jb'.started = true ∧ jb'.highestExt = max (jb.start pkt).highestExt (jb.slotOf pkt) ∧
      jb'.stats_.reordered ≤ jb.stats_.reordered +
        if jb.slotOf pkt < (jb.start pkt).highestExt then 1 else 0 := by
  cases hins with
  | late hstarted hlate =>
      rw [JitterBuffer.start_of_started hstarted]
      refine ⟨hstarted, ?_, Nat.le_add_right _ _⟩
      have hle := h.playout_le hstarted
      have hbelow : jb.slotOf pkt ≤ jb.highestExt :=
        hlate.elim (fun hlt => by omega) fun hmem => h.key_le_highest _ hmem
      exact (max_eq_left hbelow).symm
  | queued =>
      refine ⟨JitterBuffer.start_started jb pkt, ?_, ?_⟩
      · simp only [JitterBuffer.enqueue]
        split <;> omega
      · simp [JitterBuffer.enqueue]
  | overflow =>
      refine ⟨JitterBuffer.start_started jb pkt, ?_, ?_⟩
      · simp only [JitterBuffer.enqueue, JitterBuffer.evict]
        split <;> omega
      · simp [JitterBuffer.enqueue, JitterBuffer.evict]

/-- After `n` packets of the stream that starts at `s₀`, both components have
the largest position as their highest number, and both have counted every
packet. -/
structure Tracks (s₀ : UInt16) (i : Nat → Int) (n : Nat) (r : Reception) : Prop where
  inv : r.jitter.Inv
  started : r.jitter.started = decide (0 < n)
  stats_started : r.stats.started = decide (0 < n)
  agree : r.jitter.highestExt = r.stats.maxExt
  highest : 0 < n → r.stats.maxExt = s₀.toNat + largest i n
  base : 0 < n → r.stats.baseExt = s₀.toNat
  count : r.stats.received = n
  received : r.stats.received = r.jitter.stats_.received + r.jitter.stats_.lateDiscarded
  reordered : r.jitter.stats_.reordered ≤ r.stats.reordered

theorem tracks_fresh (s₀ : UInt16) (i : Nat → Int) (cfg : JitterBuffer.Config) (clockRate : Nat) :
    Tracks s₀ i 0 (fresh cfg clockRate) where
  inv := JitterBuffer.inv_fresh cfg
  started := rfl
  stats_started := rfl
  agree := rfl
  highest h := absurd h (lt_irrefl 0)
  base h := absurd h (lt_irrefl 0)
  count := rfl
  received := rfl
  reordered := le_rfl

section

variable {s₀ : UInt16} {i : Nat → Int} {r : Reception}

theorem Tracks.pop {n : Nat} (h : Tracks s₀ i n r) : Tracks s₀ i n (r.step .pop) := by
  have hpop := JitterBuffer.pop_cases h.inv
  have hinv := JitterBuffer.step_inv .pop h.inv
  rw [JitterBuffer.step_pop] at hinv
  have hframe : r.jitter.pop.2.started = r.jitter.started ∧
      r.jitter.pop.2.highestExt = r.jitter.highestExt ∧
      r.jitter.pop.2.stats_.reordered = r.jitter.stats_.reordered := by
    generalize r.jitter.pop.1 = slot, r.jitter.pop.2 = jb' at hpop ⊢
    cases hpop <;> exact ⟨rfl, rfl, rfl⟩
  obtain ⟨hreceived, hlate⟩ := hpop.counted
  obtain ⟨hstarted, hhighest, hreordered⟩ := hframe
  constructor
  case inv => exact hinv
  case started => exact hstarted.trans h.started
  case stats_started => exact h.stats_started
  case agree => exact hhighest.trans h.agree
  case highest => exact h.highest
  case base => exact h.base
  case count => exact h.count
  case received => rw [step_pop_stats, step_pop_jitter, hreceived, hlate, h.received]
  case reordered => exact hreordered.trans_le h.reordered

variable {seen : List RtpPacket} {pkt : RtpPacket}

/-- The slot of an arriving packet is its true position, by both unwrappings. -/
theorem Tracks.slot_eq (h : Tracks s₀ i seen.length r) (hs : IsStream s₀ i (seen ++ [pkt])) :
    r.jitter.slotOf pkt = s₀.toNat + i seen.length := by
  have hseq := hs.sequence seen.length (by simp)
  rw [List.getElem_concat_length rfl] at hseq
  by_cases hpos : 0 < seen.length
  · have hnear := hs.near seen.length (by simp) hpos
    have hhigh := h.highest hpos
    rw [← h.agree] at hhigh
    rw [JitterBuffer.slotOf, h.started, if_pos (decide_eq_true hpos), JitterBuffer.extend]
    exact extendSeq_eq hseq.symm (by omega) (by omega)
  · have hzero : seen.length = 0 := Nat.eq_zero_of_not_pos hpos
    have hbound := s₀.toNat_lt
    rw [hzero, hs.first] at hseq ⊢
    rw [JitterBuffer.slotOf, h.started, if_neg (by simp [hzero])]
    omega

/-- What the arrival makes of the statistics, in terms of the jitter buffer: the
first packet opens both ranges, the others are unwrapped against one number. -/
theorem Tracks.stats_arrive (h : Tracks s₀ i seen.length r) (hs : IsStream s₀ i (seen ++ [pkt]))
    (nowSec : ℚ) :
    (r.step (.arrive pkt nowSec)).stats.maxExt =
        max (r.jitter.start pkt).highestExt (r.jitter.slotOf pkt) ∧
      (r.step (.arrive pkt nowSec)).stats.maxExt = s₀.toNat + largest i (seen.length + 1) ∧
      (r.step (.arrive pkt nowSec)).stats.baseExt = s₀.toNat ∧
      (r.step (.arrive pkt nowSec)).stats.reordered = r.stats.reordered +
        if r.jitter.slotOf pkt < (r.jitter.start pkt).highestExt then 1 else 0 := by
  have hslot := h.slot_eq hs
  rw [step_arrive_stats, largest_succ]
  by_cases hpos : 0 < seen.length
  · have hstarted : r.jitter.started = true := by simp [h.started, hpos]
    have hhigh := h.highest hpos
    have hself : RtpStats.extend pkt.sequence r.stats.maxExt = r.jitter.slotOf pkt := by
      rw [JitterBuffer.slotOf, hstarted, if_pos rfl, ← h.agree]
      rfl
    obtain ⟨hbase, hmax, hcount⟩ := @RtpStats.update_of_started r.stats pkt.sequence
      pkt.timestamp nowSec (by simp [h.stats_started, hpos])
    rw [hmax, hcount, hbase, hself, JitterBuffer.start_of_started hstarted, h.agree, hslot, hhigh]
    exact ⟨rfl, by omega, h.base hpos, rfl⟩
  · have hzero : seen.length = 0 := Nat.eq_zero_of_not_pos hpos
    have hidle : r.jitter.started = false := by simp [h.started, hzero]
    have hopen := (JitterBuffer.start_of_idle hidle pkt).2
    have hself : r.jitter.slotOf pkt = pkt.sequence.toNat := by
      rw [JitterBuffer.slotOf, hidle, if_neg (by decide)]
    obtain ⟨hbase, hmax, hsame⟩ := @RtpStats.update_of_idle r.stats pkt.sequence pkt.timestamp
      nowSec (by simp [h.stats_started, hzero])
    rw [hbase, hmax, hsame, hopen, if_neg (lt_irrefl _), ← hself, max_self, hslot, hzero, hs.first]
    exact ⟨rfl, rfl, Int.add_zero _, rfl⟩

theorem Tracks.arrive (h : Tracks s₀ i seen.length r) (hs : IsStream s₀ i (seen ++ [pkt]))
    (nowSec : ℚ) : Tracks s₀ i (seen.length + 1) (r.step (.arrive pkt nowSec)) := by
  have hins := JitterBuffer.insert_cases h.inv pkt
  obtain ⟨hmax, hlargest, hbase, hcount⟩ := h.stats_arrive hs nowSec
  obtain ⟨hstarted, hhighest, hreordered⟩ := highest_of_insertion h.inv hins
  have hcounted := hins.counted
  have hreceived := h.received
  have hbefore := h.reordered
  constructor
  case inv => exact JitterBuffer.step_inv (.insert pkt) h.inv
  case started => simpa using hstarted
  case stats_started => simp
  case agree => rw [step_arrive_jitter, hhighest, hmax]
  case highest => exact fun _ => hlargest
  case base => exact fun _ => hbase
  case count => rw [step_arrive_stats, RtpStats.update_received, h.count]
  case received =>
    rw [step_arrive_stats, RtpStats.update_received, step_arrive_jitter]
    omega
  case reordered =>
    rw [hcount, step_arrive_jitter]
    omega

/-- The induction over the run, by its last event. -/
theorem tracks_run {cfg : JitterBuffer.Config} {clockRate : Nat} {events : List Event}
    (hs : IsStream s₀ i (arrivals events)) :
    Tracks s₀ i (arrivals events).length (Run.final step (fresh cfg clockRate) events) ∧
      Run.collect step assigned (fresh cfg clockRate) events =
        (List.range (arrivals events).length).map fun k => s₀.toNat + i k := by
  induction events using List.reverseRecOn with
  | nil => exact ⟨tracks_fresh s₀ i cfg clockRate, rfl⟩
  | append_singleton events e ih =>
      have happ : arrivals (events ++ [e]) = arrivals events ++ arrivals [e] :=
        List.filterMap_append
      rw [happ] at hs ⊢
      obtain ⟨htracks, hassigned⟩ := ih (hs.initial (List.prefix_append _ _))
      rw [Run.final_append, Run.collect_append, hassigned]
      cases e with
      | pop =>
          rw [show arrivals [.pop] = [] from rfl, List.append_nil]
          exact ⟨htracks.pop, by simp [assigned]⟩
      | arrive pkt nowSec =>
          rw [show arrivals [.arrive pkt nowSec] = [pkt] from rfl] at hs ⊢
          rw [List.length_append, List.length_singleton, List.range_succ, List.map_append]
          refine ⟨htracks.arrive hs nowSec, ?_⟩
          simp [assigned, htracks.slot_eq hs]

end

/-- **Unwrapping tracks the true stream position**: whatever the pops in
between and the configuration, the jitter buffer assigns every packet its
position counted from `s₀`; its highest number is that of the statistics, the
largest position so far; every packet the statistics count was received or
discarded by the buffer; and the buffer counts no packet as reordered that the
statistics do not. -/
theorem unwrapping (s₀ : UInt16) (i : Nat → Int) (cfg : JitterBuffer.Config) (clockRate : Nat)
    (events : List Event) (hs : IsStream s₀ i (arrivals events)) :
    let r := Run.final step (fresh cfg clockRate) events
    let n := (arrivals events).length
    Run.collect step assigned (fresh cfg clockRate) events =
        (List.range n).map (fun k => s₀.toNat + i k) ∧
      r.jitter.highestExt = r.stats.maxExt ∧
      (0 < n → r.stats.maxExt = s₀.toNat + largest i n) ∧
      r.stats.received = r.jitter.stats.received + r.jitter.stats.lateDiscarded ∧
      r.jitter.stats.reordered ≤ r.stats.reordered := by
  obtain ⟨htracks, hassigned⟩ := tracks_run hs
  exact ⟨hassigned, htracks.agree, htracks.highest, htracks.received, htracks.reordered⟩

/-- A stream over the wrap: 65535, then 1 and 0 swapped around a pop, then a
packet from before the first one. -/
def sampleEvents : List Event :=
  [.arrive { sequence := 65535 } 0, .arrive { sequence := 1 } 0, .pop,
    .arrive { sequence := 0 } 0, .arrive { sequence := 65534 } 0]

theorem unwrapping_sample :
    Run.collect step assigned (fresh {} 8000) sampleEvents = [65535, 65537, 65536, 65534] ∧
      (Run.final step (fresh {} 8000) sampleEvents).stats.maxExt = 65537 := by
  have h := unwrapping 65535 (fun k => [0, 2, 1, -1].getD k 0) {} 8000 sampleEvents
    ⟨by decide, by decide, by decide⟩
  exact ⟨h.1, h.2.2.1 (by decide)⟩

end Reception

/-! ## the receive loop -/

namespace MediaSession

def reception (s : MediaSession) : Reception where
  jitter := s.jitter
  stats := s.rtpStats

/-- What an action is to the two components. -/
def receptionEvents (s : MediaSession) : Action → List Reception.Event
  | .recv dg nowSec =>
    match RtpPacket.parseBuf dg.data with
    | none => []
    | some pkt => if s.isDtmf pkt then [] else [.arrive pkt nowSec]
  | .playout => [.pop]
  | .output _ | .stop => []

@[simp] theorem latch_rtpStats (s : MediaSession) (sender : Endpoint) :
    (s.latchRemoteIfNeeded sender).rtpStats = s.rtpStats := by
  unfold latchRemoteIfNeeded; split_ifs <;> rfl

theorem reception_step (s : MediaSession) (a : Action) :
    (s.step a).reception = Run.final Reception.step s.reception (s.receptionEvents a) := by
  cases a with
  | recv dg nowSec =>
      rcases s.recv_cases dg nowSec with
        ⟨hnone, hrecv⟩ | ⟨pkt, hsome, ⟨hdtmf, hrecv⟩ | ⟨hdtmf, hrecv⟩⟩
      · simp [step, act, receptionEvents, reception, hnone, hrecv]
      · simp [step, act, receptionEvents, reception, hsome, hdtmf, hrecv, feedDtmf]
      · simp [step, act, receptionEvents, reception, hsome, hdtmf, hrecv, feedVoice,
          Reception.step]
  | playout =>
      simp only [step, act, playout, receptionEvents]
      split <;> rfl
  | output connected =>
      simp only [step, act, output, receptionEvents]
      split <;> rfl
  | stop =>
      simp only [step, act, stop, receptionEvents]
      split <;> rfl

end MediaSession

end SipDemo
