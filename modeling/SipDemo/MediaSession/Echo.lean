import SipDemo.JitterBuffer.Delivery
import SipDemo.MediaSession

/-!
# SipDemo.MediaSession.Echo

The echo pipeline, end to end.  An action of the session is a run of each of
its components, the jitter buffer, the queue and the echo stream; so a run of
the session is a run of each, and what is known of their runs composes: the
jitter buffer hands packets out in order, the queue passes them on first in
first out, and the echo stream renumbers what comes out of the queue.
-/

namespace SipDemo

/-! ## the echo stream -/

namespace EchoStream

/-- One packet is echoed. -/
def step (e : EchoStream) (item : RtpPacket) : EchoStream := e.advance (e.decode item.payload)

def echo (e : EchoStream) (item : RtpPacket) : List RtpPacket :=
  [e.packet (e.decode item.payload)]

/-- `out` carries the audio of `src`. -/
def SameAudio (e : EchoStream) (src out : RtpPacket) : Prop :=
  out.payload.length = src.payload.length ∧ e.decode out.payload = e.decode src.payload

theorem decode_encode (e : EchoStream) (codes : List UInt8) :
    e.decode (e.encode (e.decode codes)) = e.decode codes := by
  unfold decode encode
  split
  · exact G711.decodeALawBulk_encode codes
  · exact G711.decodeMuLawBulk_encode codes

theorem length_decode (e : EchoStream) (codes : List UInt8) :
    (e.decode codes).length = codes.length := by
  unfold decode
  split <;> exact List.length_map _

theorem length_encode (e : EchoStream) (pcm : List Int16) :
    (e.encode pcm).length = pcm.length := by
  unfold encode
  split <;> exact List.length_map _

theorem length_packet (e : EchoStream) (codes : List UInt8) :
    (e.packet (e.decode codes)).payload.length = codes.length :=
  (e.length_encode _).trans (e.length_decode codes)

/-- A stream of packets that echoes `sources`: as many packets, numbered from
`outSeq`, stamped from `outTs` with the samples sent before, each with the
audio of its source. -/
structure Echoes (e : EchoStream) (sources sent : List RtpPacket) : Prop where
  length_eq : sent.length = sources.length
  sequence : ∀ (k : Nat) (h : k < sent.length), sent[k].sequence = e.outSeq + UInt16.ofNat k
  timestamp : ∀ (k : Nat) (h : k < sent.length), sent[k].timestamp =
    e.outTs + UInt32.ofNat ((sent.take k).map fun out => out.payload.length).sum
  audio : List.Forall₂ e.SameAudio sources sent

/-- The stream's output echoes its input, whatever the input. -/
theorem echoes (e : EchoStream) (items : List RtpPacket) :
    e.Echoes items (Run.collect step echo e items) := by
  induction items generalizing e with
  | nil =>
      exact ⟨rfl, fun k h => absurd h (Nat.not_lt_zero k), fun k h => absurd h (Nat.not_lt_zero k),
        .nil⟩
  | cons item items ih =>
      have htail := ih (e.step item)
      have hcons : Run.collect step echo e (item :: items) =
          e.packet (e.decode item.payload) :: Run.collect step echo (e.step item) items := rfl
      rw [hcons]
      constructor
      case length_eq => rw [List.length_cons, List.length_cons, htail.length_eq]
      case sequence =>
        intro k h
        cases k with
        | zero => simp [packet]
        | succ k =>
            rw [List.getElem_cons_succ, htail.sequence k (Nat.lt_of_succ_lt_succ h)]
            have hseq : (e.step item).outSeq = e.outSeq + 1 := rfl
            rw [hseq, UInt16.ofNat_add, UInt16.add_assoc, UInt16.add_comm (UInt16.ofNat k)]
            rfl
      case timestamp =>
        intro k h
        cases k with
        | zero => simp [packet]
        | succ k =>
            rw [List.getElem_cons_succ, htail.timestamp k (Nat.lt_of_succ_lt_succ h),
              List.take_succ_cons, List.map_cons, List.sum_cons, length_packet]
            have hts : (e.step item).outTs = e.outTs + UInt32.ofNat item.payload.length := by
              rw [← e.length_decode item.payload]
              rfl
            rw [hts, UInt32.ofNat_add, UInt32.add_assoc]
      case audio => exact .cons ⟨e.length_packet _, e.decode_encode _⟩ htail.audio

end EchoStream

namespace MediaSession

/-! ## components -/

/-- What an action does to the jitter buffer. -/
def jitterOps (s : MediaSession) : Action → List JitterBuffer.Op
  | .recv dg _ =>
    match RtpPacket.parseBuf dg.data with
    | none => []
    | some pkt => if s.isDtmf pkt then [] else [.insert pkt]
  | .playout => [.pop]
  | .output _ | .stop => []

/-- What an action does to the queue. -/
def queueOps (s : MediaSession) : Action → List (BoundedQueue.Op RtpPacket)
  | .recv _ _ => []
  | .playout => s.jitter.pop.1.packet.toList.map .tryPush
  | .output _ => [.pop]
  | .stop => if s.active then [.close] else []

/-- The voice packets an action gets into the jitter buffer, with their
extended numbers. -/
def accepted (s : MediaSession) (a : Action) : List (Int × RtpPacket) :=
  Run.collect JitterBuffer.step JitterBuffer.accepted s.jitter (s.jitterOps a)

/-- The packets an action gets out of the jitter buffer. -/
def played (s : MediaSession) (a : Action) : List (Int × RtpPacket) :=
  Run.collect JitterBuffer.step JitterBuffer.returned s.jitter (s.jitterOps a)

/-- The packets an action loses to a failed `tryPush`. -/
def refused (s : MediaSession) (a : Action) : List RtpPacket :=
  Run.collect BoundedQueue.step BoundedQueue.refused s.queue (s.queueOps a)

/-- The packets an action takes out of the queue to echo them. -/
def sources (s : MediaSession) (a : Action) : List RtpPacket :=
  Run.collect BoundedQueue.step BoundedQueue.removed s.queue (s.queueOps a)

@[simp] theorem latch_jitter (s : MediaSession) (sender : Endpoint) :
    (s.latchRemoteIfNeeded sender).jitter = s.jitter := by
  unfold latchRemoteIfNeeded; split_ifs <;> rfl

@[simp] theorem latch_queue (s : MediaSession) (sender : Endpoint) :
    (s.latchRemoteIfNeeded sender).queue = s.queue := by
  unfold latchRemoteIfNeeded; split_ifs <;> rfl

@[simp] theorem latch_echo (s : MediaSession) (sender : Endpoint) :
    (s.latchRemoteIfNeeded sender).toEchoStream = s.toEchoStream := by
  unfold latchRemoteIfNeeded; split_ifs <;> rfl

@[simp] theorem latch_dtmfPayloadType (s : MediaSession) (sender : Endpoint) :
    (s.latchRemoteIfNeeded sender).dtmfPayloadType = s.dtmfPayloadType := by
  unfold latchRemoteIfNeeded; split_ifs <;> rfl

@[simp] theorem latch_isDtmf (s : MediaSession) (sender : Endpoint) (pkt : RtpPacket) :
    (s.latchRemoteIfNeeded sender).isDtmf pkt = s.isDtmf pkt := by
  rw [isDtmf, latch_dtmfPayloadType]
  rfl

/-- What a received datagram can do: nothing, feed the digit decoder, or feed
the jitter buffer. -/
theorem recv_cases (s : MediaSession) (dg : Datagram) (nowSec : ℚ) :
    RtpPacket.parseBuf dg.data = none ∧ s.recv dg nowSec = (s, []) ∨
      ∃ pkt, RtpPacket.parseBuf dg.data = some pkt ∧
        (s.isDtmf pkt = true ∧
            s.recv dg nowSec = (s.latchRemoteIfNeeded dg.sender).feedDtmf pkt ∨
          s.isDtmf pkt = false ∧
            s.recv dg nowSec = ((s.latchRemoteIfNeeded dg.sender).feedVoice pkt nowSec, [])) := by
  unfold recv
  cases RtpPacket.parseBuf dg.data with
  | none => exact .inl ⟨rfl, rfl⟩
  | some pkt =>
      refine .inr ⟨pkt, rfl, ?_⟩
      cases hdtmf : s.isDtmf pkt with
      | true => exact .inl ⟨rfl, by simp [hdtmf]⟩
      | false => exact .inr ⟨rfl, by simp [hdtmf]⟩

/-- A received datagram touches neither the queue nor the echo stream, and
nothing is echoed at once. -/
theorem recv_frame (s : MediaSession) (dg : Datagram) (nowSec : ℚ) :
    (s.recv dg nowSec).1.queue = s.queue ∧ (s.recv dg nowSec).1.toEchoStream = s.toEchoStream ∧
      (s.recv dg nowSec).1.dtmfPayloadType = s.dtmfPayloadType ∧
      s.sent (.recv dg nowSec) = [] := by
  rcases s.recv_cases dg nowSec with ⟨_, hrecv⟩ | ⟨pkt, _, ⟨_, hrecv⟩ | ⟨_, hrecv⟩⟩
  · simp [sent, act, hrecv]
  · simp [sent, act, hrecv, feedDtmf]
  · simp [sent, act, hrecv, feedVoice]

theorem jitter_step (s : MediaSession) (a : Action) :
    (s.step a).jitter = Run.final JitterBuffer.step s.jitter (s.jitterOps a) := by
  cases a with
  | recv dg nowSec =>
      rcases s.recv_cases dg nowSec with
        ⟨hnone, hrecv⟩ | ⟨pkt, hsome, ⟨hdtmf, hrecv⟩ | ⟨hdtmf, hrecv⟩⟩
      · simp [step, act, jitterOps, hnone, hrecv]
      · simp [step, act, jitterOps, hsome, hdtmf, hrecv, feedDtmf]
      · simp [step, act, jitterOps, hsome, hdtmf, hrecv, feedVoice]
  | playout =>
      simp only [step, act, playout, jitterOps]
      split <;> rfl
  | output connected =>
      simp only [step, act, output, jitterOps]
      split <;> rfl
  | stop =>
      simp only [step, act, stop, jitterOps]
      split <;> rfl

theorem queue_step (s : MediaSession) (a : Action) :
    (s.step a).queue = Run.final BoundedQueue.step s.queue (s.queueOps a) := by
  cases a with
  | recv dg nowSec => exact (s.recv_frame dg nowSec).1
  | playout =>
      simp only [step, act, playout, queueOps]
      split
      · next pkt hpkt => rw [hpkt]; rfl
      · next hnone => rw [hnone]; rfl
  | output connected =>
      simp only [step, act, output, queueOps, Run.final_cons, Run.final_nil, BoundedQueue.step]
      split
      · next hwait => rw [hwait]; rfl
      · next queue hdone => rw [hdone]; rfl
      · next item queue hitem => rw [hitem]; rfl
  | stop =>
      simp only [step, act, stop, queueOps]
      split <;> rfl

theorem echo_step (s : MediaSession) (a : Action) :
    (s.step a).toEchoStream = Run.final EchoStream.step s.toEchoStream (s.sources a) ∧
      s.sent a = Run.collect EchoStream.step EchoStream.echo s.toEchoStream (s.sources a) := by
  cases a with
  | recv dg nowSec =>
      obtain ⟨_, hecho, _, hsent⟩ := s.recv_frame dg nowSec
      exact ⟨hecho, hsent⟩
  | playout =>
      simp only [step, sent, act, playout, sources, queueOps]
      split
      · next pkt hpkt => rw [hpkt]; exact ⟨rfl, rfl⟩
      · next hnone => rw [hnone]; exact ⟨rfl, rfl⟩
  | output connected =>
      simp only [step, sent, act, output, sources, queueOps, Run.collect_cons, Run.collect_nil,
        BoundedQueue.removed, List.append_nil]
      split
      · next hwait => rw [hwait]; exact ⟨rfl, rfl⟩
      · next queue hdone => rw [hdone]; exact ⟨rfl, rfl⟩
      · next item queue hitem =>
          rw [hitem]
          refine ⟨rfl, ?_⟩
          simp only [emit, List.filterMap_append]
          split <;> rfl
  | stop =>
      simp only [step, sent, act, stop, sources, queueOps]
      split <;> exact ⟨rfl, rfl⟩

/-- The packets an action gets into the queue. -/
def entered (s : MediaSession) (a : Action) : List RtpPacket :=
  Run.collect BoundedQueue.step BoundedQueue.entered s.queue (s.queueOps a)

/-- Playout offers the queue just what the jitter buffer hands out: it enters
or is refused. -/
theorem offered_step (s : MediaSession) (a : Action) :
    (s.entered a).Sublist ((s.played a).map Prod.snd) ∧
      (s.entered a).length + (s.refused a).length = (s.played a).length := by
  cases a with
  | recv dg nowSec =>
      rcases s.recv_cases dg nowSec with ⟨hnone, _⟩ | ⟨pkt, hsome, ⟨hdtmf, _⟩ | ⟨hdtmf, _⟩⟩
      · simp [entered, refused, played, queueOps, jitterOps, hnone]
      · simp [entered, refused, played, queueOps, jitterOps, hsome, hdtmf]
      · simp [entered, refused, played, queueOps, jitterOps, hsome, hdtmf, JitterBuffer.returned]
  | playout =>
      simp only [entered, refused, played, queueOps, jitterOps, Run.collect_cons, Run.collect_nil,
        List.append_nil, JitterBuffer.returned]
      cases s.jitter.pop.1.packet with
      | none => exact ⟨.slnil, rfl⟩
      | some pkt =>
          simp only [Option.toList_some, List.map_cons, List.map_nil, Run.collect_cons,
            Run.collect_nil, List.append_nil, Option.map_some]
          rcases s.queue.tryPush_entered_refused pkt with ⟨hin, hout⟩ | ⟨hin, hout⟩
          · rw [hin, hout]
            exact ⟨.refl _, rfl⟩
          · rw [hin, hout]
            exact ⟨List.nil_sublist _, rfl⟩
  | output connected => exact ⟨.slnil, rfl⟩
  | stop =>
      simp only [entered, refused, played, queueOps, jitterOps]
      split <;> exact ⟨.slnil, rfl⟩

/-! ## runs -/

/-- From an unused jitter buffer: what is played is in order and among what was
accepted, and what was accepted is played, dropped, or still there. -/
theorem played_in_order {s : MediaSession} {cfg : JitterBuffer.Config}
    (hfresh : s.jitter = .fresh cfg) (acts : List Action) :
    ((Run.collect step played s acts).map Prod.fst).Pairwise (· < ·) ∧
      (Run.collect step played s acts).Subperm (Run.collect step accepted s acts) ∧
      (Run.collect step accepted s acts).length = (Run.collect step played s acts).length +
        (Run.final step s acts).jitter.stats.overflowDropped +
        (Run.final step s acts).jitter.size := by
  have hfinal := Run.final_proj jitter jitter_step s acts
  have haccepted : Run.collect step accepted s acts = _ :=
    Run.collect_proj jitter jitter_step s acts
  have hplayed : Run.collect step played s acts = _ := Run.collect_proj jitter jitter_step s acts
  obtain ⟨hsorted, hsubperm, _⟩ :=
    JitterBuffer.returned_in_order cfg (Run.collect step jitterOps s acts)
  rw [haccepted, hplayed, hfinal, hfresh]
  exact ⟨hsorted, hsubperm, JitterBuffer.conservation cfg _⟩

/-- What is played enters the queue or is refused, and what enters comes out as
a source, in the same order, or is still there. -/
theorem sources_in_order (s : MediaSession) (acts : List Action) :
    s.queue.q ++ Run.collect step entered s acts =
        Run.collect step sources s acts ++ (Run.final step s acts).queue.q ∧
      (Run.collect step entered s acts).Sublist ((Run.collect step played s acts).map Prod.snd) ∧
      (Run.collect step entered s acts).length + (Run.collect step refused s acts).length =
        (Run.collect step played s acts).length := by
  have hfinal := Run.final_proj queue queue_step s acts
  have hentered : Run.collect step entered s acts = _ := Run.collect_proj queue queue_step s acts
  have hsources : Run.collect step sources s acts = _ := Run.collect_proj queue queue_step s acts
  refine ⟨?_, ?_, Run.length_collect_add (fun s a => (offered_step s a).2) s acts⟩
  · rw [hentered, hsources, hfinal]
    exact BoundedQueue.run_fifo s.queue _
  · rw [← Run.collect_map]
    exact Run.collect_sublist (fun s a => (offered_step s a).1) s acts

/-- What is sent echoes what comes out of the queue. -/
theorem sent_echoes (s : MediaSession) (acts : List Action) :
    s.toEchoStream.Echoes (Run.collect step sources s acts) (Run.collect step sent s acts) := by
  have hsent : Run.collect step sent s acts = Run.collect EchoStream.step EchoStream.echo
      s.toEchoStream (Run.collect step sources s acts) := by
    rw [← Run.collect_proj toEchoStream (fun s a => (echo_step s a).1)]
    exact congrArg (fun f => Run.collect step f s acts)
      (funext fun s => funext fun a => (echo_step s a).2)
  rw [hsent]
  exact s.toEchoStream.echoes _

/-- The negotiated telephone-event type is fixed for the session. -/
theorem dtmfPayloadType_step (s : MediaSession) (a : Action) :
    (s.step a).dtmfPayloadType = s.dtmfPayloadType := by
  cases a with
  | recv dg nowSec => exact (s.recv_frame dg nowSec).2.2.1
  | playout =>
      simp only [step, act, playout]
      split <;> rfl
  | output connected =>
      simp only [step, act, output]
      split <;> rfl
  | stop =>
      simp only [step, act, stop]
      split <;> rfl

/-- A payload type is not negative, so the guard on a negotiated type adds nothing. -/
theorem isDtmf_iff (s : MediaSession) (pkt : RtpPacket) :
    s.isDtmf pkt = true ↔ (pkt.payloadType.toNat : Int) = s.dtmfPayloadType := by
  rw [isDtmf, Bool.and_eq_true, decide_eq_true_eq, beq_iff_eq]
  omega

/-- No packet of the telephone-event type gets into the jitter buffer. -/
theorem accepted_voice (s : MediaSession) (acts : List Action) :
    ∀ p ∈ Run.collect step accepted s acts, (p.2.payloadType.toNat : Int) ≠ s.dtmfPayloadType := by
  refine Run.forall_mem_collect (fun s' => s'.dtmfPayloadType = s.dtmfPayloadType)
    (fun s' a hs' p hp => ?_) (fun s' a hs' => (dtmfPayloadType_step s' a).trans hs') rfl acts
  rw [← hs', ne_eq, ← isDtmf_iff, Bool.not_eq_true]
  cases a with
  | recv dg nowSec =>
      rcases s'.recv_cases dg nowSec with ⟨hnone, _⟩ | ⟨pkt, hsome, ⟨hdtmf, _⟩ | ⟨hdtmf, _⟩⟩
      · simp [accepted, jitterOps, hnone] at hp
      · simp [accepted, jitterOps, hsome, hdtmf] at hp
      · simp only [accepted, jitterOps, hsome, hdtmf, Bool.false_eq_true, if_false,
          Run.collect_cons, Run.collect_nil, List.append_nil, JitterBuffer.accepted] at hp
        split at hp
        · exact absurd hp List.not_mem_nil
        · rw [List.mem_singleton.mp hp]
          exact hdtmf
  | playout => exact absurd hp List.not_mem_nil
  | output connected => exact absurd hp List.not_mem_nil
  | stop => exact absurd hp List.not_mem_nil

/-- **The echo pipeline**: over any interleaving of received datagrams, playout
ticks, output steps and a stop, the echoed packets come from distinct accepted
voice packets in strictly increasing order; the packets sent are numbered and
stamped consecutively and carry the same audio; and every accepted packet is
echoed, still in the queue or the jitter buffer, or dropped by the one or
refused by the other. -/
theorem echo_pipeline (remote : Endpoint) (payloadType dtmfPayloadType : Int)
    (acts : List Action) :
    let s₀ := make.start remote payloadType dtmfPayloadType
    let s := Run.final step s₀ acts
    let sourcePackets := Run.collect step sources s₀ acts
    let sentPackets := Run.collect step sent s₀ acts
    let acceptedPackets := Run.collect step accepted s₀ acts
    (∃ echoed : List (Int × RtpPacket), echoed.map Prod.snd = sourcePackets ∧
        (echoed.map Prod.fst).Pairwise (· < ·) ∧ echoed.Subperm acceptedPackets ∧
        ∀ p ∈ echoed, (p.2.payloadType.toNat : Int) ≠ dtmfPayloadType) ∧
      sentPackets.length = sourcePackets.length ∧
      (∀ (k : Nat) (h : k < sentPackets.length),
        sentPackets[k].sequence = UInt16.ofNat k ∧
          sentPackets[k].timestamp =
            UInt32.ofNat ((sentPackets.take k).map fun out => out.payload.length).sum) ∧
      List.Forall₂ s₀.SameAudio sourcePackets sentPackets ∧
      acceptedPackets.length = sentPackets.length + s.queue.size + s.jitter.size +
        s.jitter.stats.overflowDropped + (Run.collect step refused s₀ acts).length := by
  intro s₀ s sourcePackets sentPackets acceptedPackets
  have hechoes : s₀.toEchoStream.Echoes sourcePackets sentPackets := sent_echoes s₀ acts
  obtain ⟨hsorted, hsubperm, hkept⟩ := played_in_order (s := s₀) rfl acts
  obtain ⟨hfifo, hentered, hoffered⟩ := sources_in_order s₀ acts
  have hsplit : Run.collect step entered s₀ acts = sourcePackets ++ s.queue.q := hfifo
  have hkept : acceptedPackets.length = (Run.collect step played s₀ acts).length +
      s.jitter.stats.overflowDropped + s.jitter.size := hkept
  refine ⟨?_, hechoes.length_eq, fun k hk => ⟨?_, ?_⟩, hechoes.audio, ?_⟩
  · -- the sources are some of the packets played, so they have their numbers
    rw [hsplit] at hentered
    have hsources := (List.sublist_append_left sourcePackets s.queue.q).trans hentered
    obtain ⟨echoed, hechoed, hmap⟩ := List.sublist_map_iff.mp hsources
    have hamong : echoed.Subperm acceptedPackets := hechoed.subperm.trans hsubperm
    exact ⟨echoed, hmap.symm, hsorted.sublist (hechoed.map Prod.fst), hamong,
      fun p hp => accepted_voice s₀ acts p (hamong.subset hp)⟩
  · rw [hechoes.sequence k hk]
    exact UInt16.zero_add _
  · rw [hechoes.timestamp k hk]
    exact UInt32.zero_add _
  · have hlength := congrArg List.length hsplit
    rw [List.length_append] at hlength
    have hsent := hechoes.length_eq
    show acceptedPackets.length = sentPackets.length + s.queue.q.length + s.jitter.size +
      s.jitter.stats.overflowDropped + (Run.collect step refused s₀ acts).length
    omega

end MediaSession

end SipDemo
