import SipDemo.MediaSession.Numbering
import SipDemo.RtpSender.Chaos
import SipDemo.RtpStats.Loss

/-!
# SipDemo.RtpSender.Reports

The counters of `rtp_sender` against those of the session it sends to.

The sender knows what it dropped and swapped; the session works it out from the
16-bit sequence numbers alone.  On a network that neither loses nor reorders,
`received` and `reordered` of the session are `sent` and `reordered` of the
sender.  `lost` falls short of `dropped` by what the session cannot see: packets
dropped at the two ends of the stream, and a swap of the first two.
-/

namespace SipDemo

open AdjacentSwaps (Swaps)

namespace RtpStats

open RunningMax

/-! ## unwrapping a stream -/

/-- Each position is less than half a sequence space from the largest before it. -/
def Near (largest : Int) : List Int → Prop
  | [] => True
  | e :: es => e - largest < 32768 ∧ largest - e < 32768 ∧ Near (max largest e) es

/-- Positions that stay near are the numbers assigned to them. -/
theorem Tally.numbers_eq {first : Int} {rest : List Int} {s : RtpStats} (h : Tally first rest s)
    {xs : List Sample} {es : List Int} (hnear : Near s.maxExt es)
    (hseq : xs.map (fun x => (x.seq.toNat : Int)) = es.map (· % 65536)) : s.numbers xs = es := by
  induction es generalizing rest s xs with
  | nil =>
      rw [List.map_nil, List.map_eq_nil_iff] at hseq
      rw [hseq]
      rfl
  | cons e es ih =>
      cases xs with
      | nil => simp at hseq
      | cons x xs =>
          simp only [List.map_cons, List.cons.injEq] at hseq
          obtain ⟨hlo, hhi, hrest⟩ := hnear
          have hext : extend x.seq s.maxExt = e := extendSeq_eq hseq.1.symm hlo hhi
          have hnumber : s.number x = e := by simp [number, h.started, hext]
          have hmax := (@update_of_started s x.seq x.rtpTimestamp x.arrivalSec h.started).2.1
          rw [hext] at hmax
          rw [← show (s.feed x).maxExt = max s.maxExt e from hmax] at hrest
          have htail := ih (h.feed x) hrest hseq.2
          rw [numbers, Run.collect_cons, hnumber]
          exact congrArg (e :: ·) htail

theorem top_mem {first : Int} {rest : List Int} : top first rest ∈ first :: rest := by
  obtain ⟨x, hmem, hlt⟩ :=
    lt_top_iff.mp (show top first rest - 1 < top first rest by omega)
  have hle := le_top hmem
  rwa [show top first rest = x by omega]

/-- The range after a row `c + p` of positions below `total`. -/
theorem Tally.expected_le {c : Int} {first : Nat} {rest : List Nat} {s : RtpStats} {total : Nat}
    (h : Tally (c + first) (rest.map fun p : Nat => c + p) s)
    (hlt : ∀ p ∈ first :: rest, p < total) :
    s.expected ≤ total ∧ (s.expected = total ↔ first = 0 ∧ total - 1 ∈ first :: rest) := by
  have hexpected := h.expected_eq
  have hrow : (c + first : Int) :: rest.map (fun p : Nat => c + p) =
      (first :: rest).map fun p : Nat => c + p := rfl
  have hmem := @top_mem (c + first) (rest.map fun p : Nat => c + p)
  rw [hrow, List.mem_map] at hmem
  obtain ⟨p, hp, htop⟩ := hmem
  have hbelow := hlt p hp
  have hfirst : (c + first : Int) ≤ c + p := htop ▸ le_top List.mem_cons_self
  refine ⟨by omega, fun heq => ⟨by omega, ?_⟩, fun ⟨hzero, hlast⟩ => ?_⟩
  · rwa [show total - 1 = p by omega]
  · have hle : (c + (total - 1 : Nat) : Int) ≤ c + p :=
      htop ▸ le_top (hrow ▸ List.mem_map_of_mem hlast)
    omega

end RtpStats

/-! ## the order on the wire -/

namespace RtpSender

open RtpStats (Near Tally)

/-- Survivors that follow each other by less than a quarter of a sequence space. -/
def Close (draw : Nat → Draw) (total : Nat) : Prop :=
  (survivors draw total).IsChain fun p q => q ≤ p + 16383

section Order

variable {xs ys : List Int} {n : Nat}

/-- A row that never goes back and leaves no quarter of a sequence space out. -/
def Dense (xs : List Int) : Prop := xs.IsChain fun a b => a ≤ b ∧ b ≤ a + 16383

theorem near_of_swaps (h : Swaps xs ys n) {largest : Int} (hdense : Dense (largest :: xs)) :
    Near largest ys := by
  induction h generalizing largest with
  | nil => trivial
  | keep x _ ih =>
      obtain ⟨⟨hlo, hhi⟩, hrest⟩ := List.isChain_cons_cons.mp hdense
      refine ⟨by omega, by omega, ?_⟩
      rw [max_eq_right hlo]
      exact ih hrest
  | swap x y _ ih =>
      obtain ⟨⟨hlo, hhi⟩, hpair⟩ := List.isChain_cons_cons.mp hdense
      obtain ⟨⟨hlo', hhi'⟩, hrest⟩ := List.isChain_cons_cons.mp hpair
      have hup : max largest y = y := max_eq_right (hlo.trans hlo')
      rw [Near, Near, hup, max_eq_left hlo']
      exact ⟨by omega, by omega, by omega, by omega, ih hrest⟩

/-- The first on the wire opens the range. -/
theorem near_of_first {first : Int} {rest : List Int} (h : Swaps xs (first :: rest) n)
    (hdense : Dense xs) : Near first rest := by
  cases h with
  | keep _ h => exact near_of_swaps h hdense
  | swap x _ h =>
      obtain ⟨⟨hlo, hhi⟩, hrest⟩ := List.isChain_cons_cons.mp hdense
      refine ⟨by omega, by omega, ?_⟩
      rw [max_eq_left hlo]
      exact near_of_swaps h hrest

end Order

section Stream

variable {draw : Nat → Draw} {total : Nat} {order : List Nat} {n : Nat}

theorem survivors_sorted (draw : Nat → Draw) (total : Nat) :
    (survivors draw total).Pairwise (· < ·) :=
  List.pairwise_lt_range.filter _

theorem survivors_lt {p : Nat} (h : p ∈ survivors draw total) : p < total :=
  List.mem_range.mp (List.mem_of_mem_filter h)

theorem Close.dense (h : Close draw total) (c : Int) :
    Dense ((survivors draw total).map fun p : Nat => c + p) := by
  have hsorted := List.pairwise_iff_getElem.mp (survivors_sorted draw total)
  rw [Close, List.isChain_iff_getElem] at h
  rw [Dense, List.isChain_map, List.isChain_iff_getElem]
  intro i hi
  have hgap := h i hi
  have hlt := hsorted i (i + 1) (by omega) hi (by omega)
  omega

end Stream

/-- Packet `p` as it is read back; of the payload type seven bits are sent. -/
def arrived (src : Source) (seq : UInt16) (timestamp : UInt32) (p : Nat) : RtpPacket :=
  { src.packet p (seq + UInt16.ofNat p) (timestamp + UInt32.ofNat (p * kSamplesPerPacket)) with
    payloadType := UInt8.ofInt src.payloadType &&& 0x7f }

theorem parse_datagram (src : Source) (seq : UInt16) (timestamp : UInt32) (p : Nat) :
    RtpPacket.parseBuf (datagram src seq timestamp p) = some (arrived src seq timestamp p) := by
  have hmask : datagram src seq timestamp p = (arrived src seq timestamp p).serialize := by
    simp [datagram, arrived, RtpPacket.serialize, UInt8.and_assoc, Source.packet]
  have htype : ∀ b : UInt8, b &&& 0x7f < 128 := by
    apply forall_byte
    decide +kernel
  rw [hmask]
  exact RtpPacket.parse_serialize rfl rfl rfl (htype _)

theorem parse_datagrams (src : Source) (seq : UInt16) (timestamp : UInt32) (order : List Nat) :
    (order.map (datagram src seq timestamp)).filterMap RtpPacket.parseBuf =
      order.map (arrived src seq timestamp) := by
  induction order with
  | nil => rfl
  | cons p order ih =>
      rw [List.map_cons, List.filterMap_cons_some (parse_datagram src seq timestamp p), ih,
        List.map_cons]

/-! ## the two reports -/

open RtpStats (Tally)

variable {src : Source} {seq : UInt16} {timestamp : UInt32} {draw : Nat → Draw} {s : Sender}
  {order : List Nat}

/-- The sequence numbers of a stream, counted from a packet at `c + p`. -/
theorem seq_row {c : Int} {p : Nat} (h : c + p = (seq + UInt16.ofNat p).toNat) (q : Nat) :
    ((seq + UInt16.ofNat q).toNat : Int) = (c + q) % 65536 := by
  rw [UInt16.toNat_add, UInt16.toNat_ofNat'] at h ⊢
  omega

/-- The numbers assigned to the stream are the positions of its packets. -/
theorem numbers_of_order {n : Nat} (hswaps : Swaps (survivors draw src.totalPackets) order n)
    (hclose : Close draw src.totalPackets) {xs : List RtpStats.Sample}
    (hseq : xs.map RtpStats.Sample.seq = order.map fun p => seq + UInt16.ofNat p) :
    ∃ c : Int, RtpStats.numbers {} xs = order.map fun p : Nat => c + p := by
  cases order with
  | nil =>
      obtain rfl : xs = [] := by simpa using hseq
      exact ⟨0, rfl⟩
  | cons p ps =>
      cases xs with
      | nil => simp at hseq
      | cons x xs =>
          obtain ⟨hx, hxs⟩ := List.cons.inj hseq
          obtain ⟨c, hfirst⟩ : ∃ c : Int, c + p = x.seq.toNat := ⟨x.seq.toNat - p, by omega⟩
          have hopen : Tally (c + p) [] (RtpStats.feed {} x) :=
            hfirst ▸ RtpStats.tally_of_idle 8000 x
          have hnear : RtpStats.Near (c + p) (ps.map fun q : Nat => c + q) :=
            near_of_first (hswaps.map fun q : Nat => c + q) (hclose.dense c)
          rw [← show (RtpStats.feed {} x).maxExt = c + p from hopen.maxExt] at hnear
          have hrow : xs.map (fun x => (x.seq.toNat : Int)) =
              (ps.map fun q : Nat => c + q).map (· % 65536) := by
            have hnumbers := congrArg (List.map fun q : UInt16 => (q.toNat : Int)) hxs
            simp only [List.map_map, Function.comp_def, seq_row (hx ▸ hfirst)] at hnumbers
            simpa [Function.comp_def] using hnumbers
          refine ⟨c, ?_⟩
          calc RtpStats.numbers {} (x :: xs)
              = (x.seq.toNat : Int) :: RtpStats.numbers (RtpStats.feed {} x) xs := rfl
            _ = (p :: ps).map fun q : Nat => c + q := by
                rw [← hfirst, hopen.numbers_eq hnear hrow, List.map_cons]

/-- The statistics of a stream of packets in this order. -/
theorem Accounts.stats_eq (h : Accounts src seq timestamp draw s order)
    (hclose : Close draw src.totalPackets) {xs : List RtpStats.Sample}
    (hseq : xs.map RtpStats.Sample.seq = order.map fun p => seq + UInt16.ofNat p)
    {stats : RtpStats} (hstats : Run.final RtpStats.feed {} xs = stats) :
    stats.received = s.sent ∧ stats.reordered = s.reordered ∧ stats.lost ≤ s.dropped ∧
      (stats.lost = s.dropped ↔
        s.dropped = 0 ∨ order.head? = some 0 ∧ src.totalPackets - 1 ∈ order) := by
  have hsent : s.sent = order.length := by rw [h.sent_eq, h.datagrams_eq, List.length_map]
  have htotal := h.total_eq
  cases order with
  | nil =>
      obtain rfl : xs = [] := by simpa using hseq
      have hnone := h.swaps.late_eq (survivors_sorted draw src.totalPackets)
        (List.forall_mem_nil _)
      subst hstats
      have hlost : (Run.final RtpStats.feed {} []).lost = 0 := rfl
      refine ⟨hsent.symm, hnone, by omega, ?_⟩
      simp only [hlost, List.head?_nil, reduceCtorEq, false_and, or_false]
      omega
  | cons p ps =>
      cases xs with
      | nil => simp at hseq
      | cons x xs =>
          obtain ⟨c, hnumbers⟩ := numbers_of_order h.swaps hclose hseq
          obtain ⟨hfirst, hrest⟩ := List.cons.inj hnumbers
          have htally := (RtpStats.tally_of_idle 8000 x).final xs
          rw [show RtpStats.number { clockRate := 8000 } x = c + p from hfirst, List.nil_append,
            show RtpStats.numbers (RtpStats.feed { clockRate := 8000 } x) xs = _ from hrest,
            show Run.final RtpStats.feed (RtpStats.feed { clockRate := 8000 } x) xs = stats
              from hstats] at htally
          have hbelow : ∀ q ∈ p :: ps, q < src.totalPackets := fun q hq =>
            survivors_lt (h.perm.mem_iff.mp hq)
          obtain ⟨hle, hfull⟩ := htally.expected_le hbelow
          have hlost : stats.lost = max (stats.expected - stats.received : Int) 0 :=
            RtpStats.lost_eq_max stats
          have hreceived : stats.received = s.sent := by
            simpa [hsent] using htally.received
          have hlate := (h.swaps.map fun q : Nat => c + q).late_eq
            ((survivors_sorted draw src.totalPackets).map _ fun _ _ hlt => by omega)
            (List.forall_mem_nil _)
          refine ⟨hreceived, htally.reordered.trans hlate, by omega, ?_⟩
          rw [List.head?_cons, Option.some.injEq, ← hfull]
          omega

/-- A session that hears the datagrams sees their packets. -/
theorem Accounts.voice_eq (h : Accounts src seq timestamp draw s order) {session : MediaSession}
    {acts : List MediaSession.Action} (hheard : acts.flatMap session.voiceData = s.datagrams) :
    Run.collect MediaSession.step MediaSession.voice session acts =
      order.map (arrived src seq timestamp) := by
  rw [session.voice_run, hheard, h.datagrams_eq, parse_datagrams]

theorem Accounts.seq_eq (h : Accounts src seq timestamp draw s order) {session : MediaSession}
    {acts : List MediaSession.Action} (hheard : acts.flatMap session.voiceData = s.datagrams) :
    (Run.collect MediaSession.step MediaSession.samples session acts).map RtpStats.Sample.seq =
      order.map fun p => seq + UInt16.ofNat p := by
  rw [session.seq_run, h.voice_eq hheard, List.map_map]
  rfl

/-- **The reports agree.**  When no send throws and never a quarter of a
sequence space of packets is dropped in a row, a session that hears the sender's
datagrams in the order they were sent, and no other voice, counts as many
packets and as many swaps as the sender, whatever else happens in between.  It
reports at most the packets dropped, and all of them exactly when none was, or
when the first packet went out first and the last one went out. -/
theorem reports_agree (src : Source) (seq : UInt16) (timestamp : UInt32) (draw : Nat → Draw)
    {throws : Nat → Bool} (hsend : ∀ j, throws j = false)
    (hclose : Close draw src.totalPackets) :
    ∃ s order, send src seq timestamp throws draw = some s ∧
      Accounts src seq timestamp draw s order ∧
      ∀ remote payloadType dtmfPayloadType acts,
        let session := MediaSession.make.start remote payloadType dtmfPayloadType
        acts.flatMap session.voiceData = s.datagrams →
        let stats := (Run.final MediaSession.step session acts).rtpStats
        stats.received = s.sent ∧ stats.reordered = s.reordered ∧ stats.lost ≤ s.dropped ∧
          (stats.lost = s.dropped ↔
            s.dropped = 0 ∨ order.head? = some 0 ∧ src.totalPackets - 1 ∈ order) := by
  obtain ⟨s₀, settled, order₀, held, hloop, hledger⟩ :=
    ledger_loop src seq timestamp draw hsend src.totalPackets
  obtain ⟨s, order, hflush, haccounts⟩ := hledger.settle hsend
  refine ⟨s, order, by rw [send, hloop]; exact hflush, haccounts, ?_⟩
  intro remote payloadType dtmfPayloadType acts session hheard
  exact haccounts.stats_eq hclose (haccounts.seq_eq hheard)
    (Run.final_proj MediaSession.rtpStats MediaSession.rtpStats_step session acts).symm

/-- Where no telephone-event type was agreed on, every datagram of the sender is voice. -/
theorem heard_datagrams (src : Source) (seq : UInt16) (timestamp : UInt32) (order : List Nat)
    {session : MediaSession} (hnone : session.dtmfPayloadType = -1) :
    ((order.map (datagram src seq timestamp)).map fun data =>
      MediaSession.Action.recv { data, sender := {} } 0).flatMap session.voiceData =
        order.map (datagram src seq timestamp) := by
  induction order with
  | nil => rfl
  | cons p order ih =>
      rw [List.map_map] at ih ⊢
      simp [MediaSession.voiceData, MediaSession.isDtmf, parse_datagram, hnone, ih]

/-- Three packets over the wrap: the second dropped, the other two swapped. -/
def sampleDraw (p : Nat) : Draw where
  drop := p = 1
  reorder := p = 0

theorem close_sampleDraw : Close sampleDraw 3 := by
  simp [Close, survivors, List.range_succ, sampleDraw]

theorem totalPackets_replicate {src : Source} {n : Nat} (h : src.pcm = List.replicate (160 * n) 0) :
    src.totalPackets = n := by
  rw [Source.totalPackets, h, List.length_replicate, kSamplesPerPacket,
    Nat.mul_div_cancel_left _ (by omega)]

theorem reports_agree_sampleDraw :
    let src : Source := { pcm := List.replicate 480 0, ssrc := 1 }
    ∃ s order, send src 65535 0 (fun _ => false) sampleDraw = some s ∧
      Accounts src 65535 0 sampleDraw s order ∧
      let session := MediaSession.make.start {} 0 (-1)
      let acts := s.datagrams.map fun data => .recv { data, sender := {} } 0
      (Run.final MediaSession.step session acts).rtpStats.received = s.sent := by
  intro src
  have htotal : src.totalPackets = 3 := totalPackets_replicate rfl
  have hsend : ∀ j : Nat, (fun _ => false) j = false := fun _ => rfl
  obtain ⟨s, order, hrun, haccounts, hreport⟩ :=
    reports_agree src 65535 0 sampleDraw hsend (htotal ▸ close_sampleDraw)
  refine ⟨s, order, hrun, haccounts, (hreport {} 0 (-1) _ ?_).1⟩
  rw [haccounts.datagrams_eq]
  exact heard_datagrams src 65535 0 order rfl

end RtpSender

end SipDemo
