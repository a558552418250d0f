import SipDemo.MediaSession.Contents
import SipDemo.Server.Sessions
import SipDemo.SipUas.Size

/-!
# SipDemo.Server.Load

What a peer can make the process hold and send.  The buffers of a session are
bounded, and so are the packets in them, since a receive hands over 2048 bytes
at most (`Sized`); and the RTP sent is no more than the RTP received, in
packets and in bytes (`echo_within_received`): the echo cannot be used to
multiply traffic towards an address that someone has latched.  A datagram on the
SIP socket brings three responses at most, of a bounded length
(`responses_bounded`).
-/

namespace SipDemo

namespace MediaSession

/-! ## a session -/

/-- A payload that came in one receive. -/
def SmallPacket (p : RtpPacket) : Prop := p.payload.length ≤ 2036

/-- The buffers have their capacities, and hold small packets. -/
structure Sized (m : MediaSession) : Prop where
  inv : m.jitter.Inv
  cfg : m.jitter.cfg = { targetDepth := 3, capacity := 100 }
  capacity : m.queue.capacity = 200
  small : m.Holds SmallPacket

variable {m : MediaSession}

theorem capacity_step (m : MediaSession) (a : Action) :
    (m.step a).queue.capacity = m.queue.capacity := by
  rw [queue_step]
  exact Run.final_of_preserved (fun q : BoundedQueue RtpPacket => q.capacity = m.queue.capacity)
    (fun q op hq => (q.step_fields op).1.trans hq) rfl _

theorem Sized.start (remote : Endpoint) (payloadType dtmfPayloadType : Int) :
    Sized (make.start remote payloadType dtmfPayloadType) where
  inv := JitterBuffer.inv_fresh _
  cfg := rfl
  capacity := rfl
  small := by
    simp [Holds, make, MediaSession.start, JitterBuffer.packets, JitterBuffer.fresh,
      BoundedQueue.make]

theorem Sized.step (h : Sized m) {a : Action} (ha : ∀ p ∈ m.voice a, SmallPacket p) :
    Sized (m.step a) where
  inv := by
    rw [jitter_step]
    exact Run.final_of_preserved _ (fun jb op hjb => JitterBuffer.step_inv op hjb) h.inv _
  cfg := by
    rw [jitter_step]
    refine (Run.final_of_preserved (fun jb : JitterBuffer => jb.Inv ∧ jb.cfg = m.jitter.cfg)
      (fun jb op hjb => ?_) ⟨h.inv, rfl⟩ _).2.trans h.cfg
    exact ⟨JitterBuffer.step_inv op hjb.1, (JitterBuffer.step_cfg op hjb.1).trans hjb.2⟩
  capacity := (capacity_step m a).trans h.capacity
  small := (h.small.step h.inv ha).1

/-- A run that only brings small packets. -/
theorem Sized.run (h : Sized m) {acts : List Action}
    (ha : ∀ p ∈ Run.collect MediaSession.step voice m acts, SmallPacket p) :
    Sized (Run.final MediaSession.step m acts) := by
  induction acts generalizing m with
  | nil => exact h
  | cons a acts ih =>
      rw [Run.collect_cons, List.forall_mem_append] at ha
      exact ih (h.step ha.1) ha.2

/-- What a session sends weighs what its sources weigh, if only the length of a
payload counts. -/
theorem sum_sent (m : MediaSession) (acts : List Action) {w : RtpPacket → Nat}
    (hw : ∀ p q : RtpPacket, p.payload.length = q.payload.length → w p = w q) :
    ((Run.collect step sent m acts).map w).sum = ((Run.collect step sources m acts).map w).sum := by
  have haudio := (sent_echoes m acts).audio
  generalize Run.collect step sent m acts = outs at haudio
  generalize Run.collect step sources m acts = srcs at haudio
  induction haudio with
  | nil => rfl
  | cons hsame _ ih => simp [ih, hw _ _ hsame.1]

/-- **A run of a session** sends and holds no more than it held and gets. -/
theorem sum_sent_le (hinv : m.jitter.Inv) (acts : List Action) {w : RtpPacket → Nat}
    (hw : ∀ p q : RtpPacket, p.payload.length = q.payload.length → w p = w q) :
    ((Run.collect step sent m acts).map w).sum + (Run.final step m acts).weight w ≤
      m.weight w + ((Run.collect step voice m acts).map w).sum := by
  rw [sum_sent m acts hw]
  refine Run.sum_collect_add_le (fun m => m.jitter.Inv) (weight w) w w
    (fun m a h => weight_step w h a) (fun m a h => ?_) hinv acts
  rw [jitter_step]
  exact Run.final_of_preserved _ (fun jb op hjb => JitterBuffer.step_inv op hjb) h _

end MediaSession

namespace RtpPacket

/-- The header is 12 bytes at least. -/
theorem length_payload_le {d : List UInt8} {p : RtpPacket} (h : parseBuf d = some p) :
    12 + p.payload.length ≤ d.length := by
  obtain ⟨_, _, offset, stop, hstart, hend, rfl⟩ := parse_eq_some_iff.mp h
  have hoffset := payloadStart_bounds hstart
  have hstop := payloadEnd_bounds hoffset.2 hend
  simp only [decoded, length_window]
  omega

end RtpPacket

namespace Server

open MediaSession (Sized SmallPacket make)

variable {s : Server} {m : MediaSession}

/-- The datagram that an event brings to the RTP socket. -/
def arrived : Event → List (List UInt8)
  | .recv dg _ => [(recvFrom dg).data]
  | .signal _ | .playout | .output _ | .join _ => []

theorem received_eq (e : Event) : received e = (arrived e).filterMap RtpPacket.parseBuf := by
  cases e with
  | recv dg nowSec =>
      cases h : RtpPacket.parseBuf (recvFrom dg).data <;> simp [received, arrived, h]
  | signal _ | playout | output _ | join _ => rfl

/-- The voice packets of an event come from its datagram. -/
theorem voice_sublist_received (m : MediaSession) (s : Server) (e : Event) :
    (Run.collect MediaSession.step MediaSession.voice m (s.sessionActions e)).Sublist
      (received e) := by
  cases e with
  | signal dg =>
      simp only [sessionActions]
      split <;> simp [MediaSession.voice, received]
  | recv dg nowSec =>
      have hone : (m.voice (.recv (recvFrom dg) nowSec)).Sublist (received (.recv dg nowSec)) := by
        simp only [MediaSession.voice, received]
        cases RtpPacket.parseBuf (recvFrom dg).data with
        | none => simp
        | some pkt => cases hdtmf : m.isDtmf pkt <;> simp [hdtmf, Option.filter]
      simp only [sessionActions]
      split <;> simp [hone]
  | playout | output connected =>
      simp only [sessionActions]
      split <;> simp [MediaSession.voice, received]
  | join wsClosed => simp [sessionActions, received]

/-- What a receive hands over is a small packet. -/
theorem small_of_received {e : Event} {p : RtpPacket} (hp : p ∈ received e) : SmallPacket p := by
  rw [received_eq, List.mem_filterMap] at hp
  obtain ⟨d, hd, hparse⟩ := hp
  have hlen := RtpPacket.length_payload_le hparse
  cases e with
  | recv dg nowSec =>
      rw [arrived, List.mem_singleton] at hd
      have hcut : d.length ≤ 2048 := by simp [hd, recvFrom]
      unfold SmallPacket
      omega
  | signal _ | playout | output _ | join _ => simp [arrived] at hd

/-- **The bounds of a session** hold of every session a process ever has. -/
theorem sized_step (ho : Orderly s) (h : ∀ m ∈ s.media, Sized m) (e : Event) :
    ∀ m ∈ (s.step e).media, Sized m := by
  have hstarted {m : MediaSession} (hm : Started m) : Sized m := by
    obtain ⟨remote, payloadType, dtmfPayloadType, rfl⟩ := hm
    exact Sized.start remote payloadType dtmfPayloadType
  intro m' hm'
  cases hm : s.media with
  | none => exact hstarted (started_of_step hm' hm)
  | some m =>
      obtain ⟨_, hnext | ⟨replacement, rfl, hj, _, _, hstep⟩⟩ := step_session hm e
      · rw [hnext, Option.mem_some_iff] at hm'
        rw [← hm']
        exact (h m hm).run fun p hp =>
          small_of_received ((voice_sublist_received m s e).subset hp)
      · rw [hstep] at hm'
        exact hstarted (ho.replacement m' (hj.trans (congrArg Control.joining hm')))

/-- What the session of the moment holds. -/
def weight (w : RtpPacket → Nat) (s : Server) : Nat := s.media.elim 0 (·.weight w)

/-- A session that has just started holds nothing. -/
theorem weight_of_started (w : RtpPacket → Nat) (h : ∀ m ∈ s.media, Started m) :
    s.weight w = 0 := by
  unfold weight
  cases hm : s.media with
  | none => rfl
  | some m =>
      obtain ⟨remote, payloadType, dtmfPayloadType, rfl⟩ := h m hm
      rfl

theorem echoed_of_none (hm : s.media = none) (e : Event) : s.echoed e = [] := by
  cases e with
  | signal dg => exact echoed_signal dg
  | recv dg nowSec | playout | output connected => simp [echoed, outputs, act, turn_of_none hm]
  | join wsClosed => simp [echoed, outputs, act]

/-- **One event**: what is sent and what is held afterwards was held before or
arrives. -/
theorem weight_step (ho : Orderly s) (h : ∀ m ∈ s.media, Sized m) (e : Event)
    {w : RtpPacket → Nat}
    (hw : ∀ p q : RtpPacket, p.payload.length = q.payload.length → w p = w q) :
    ((s.echoed e).map w).sum + (s.step e).weight w ≤ s.weight w + ((received e).map w).sum := by
  cases hm : s.media with
  | none =>
      rw [echoed_of_none hm, weight_of_started w fun m' hm' => started_of_step hm' hm]
      exact Nat.zero_le _
  | some m =>
      obtain ⟨hechoed, hnext | ⟨replacement, rfl, hj, _, _, hstep⟩⟩ := step_session hm e
      · have hrun := MediaSession.sum_sent_le (h m hm).inv (s.sessionActions e) hw
        have hvoice := ((voice_sublist_received m s e).map w).sum_le_sum fun _ _ => Nat.zero_le _
        rw [hechoed]
        simp only [weight, hnext, hm, Option.elim_some]
        omega
      · have hreplaced : ∀ m' ∈ (s.step (.join true)).media, Started m' := by
          rw [hstep]
          exact fun m' hm' => ho.replacement m' (hj.trans (congrArg Control.joining hm'))
        rw [hechoed, weight_of_started w hreplaced]
        exact Nat.zero_le _

/-- What holds of every state of a process. -/
def Loaded (s : Server) : Prop := Orderly s ∧ ∀ m ∈ s.media, Sized m

theorem loaded_boot (c : Config) (sipLocalPort : UInt16) (rng : Stream' UInt32) :
    Loaded (boot c sipLocalPort rng) :=
  ⟨orderly_boot c sipLocalPort rng, by simp [boot]⟩

theorem Loaded.step (h : Loaded s) (e : Event) : Loaded (s.step e) :=
  ⟨h.1.step e, sized_step h.1 h.2 e⟩

/-- **Whatever packets weigh**, the packets sent weigh no more than those received. -/
theorem sum_echoed_le (h : Loaded s) (hm : s.media = none) (es : List Event)
    {w : RtpPacket → Nat}
    (hw : ∀ p q : RtpPacket, p.payload.length = q.payload.length → w p = w q) :
    ((Run.collect step echoed s es).map w).sum ≤ ((es.flatMap received).map w).sum := by
  have hrun := Run.sum_collect_add_le Loaded (weight w) w w
    (fun s e h => weight_step h.1 h.2 e hw) (fun s e h => h.step e) h es
  have hnothing : s.weight w = 0 := by simp [weight, hm]
  have hreceived : Run.collect step (fun _ => received) s es = es.flatMap received :=
    @Run.collect_eq_flatMap _ _ _ step (fun _ => received) (fun _ _ => rfl) s es
  rw [hreceived, hnothing] at hrun
  omega

theorem sum_filterMap_le {α β : Type*} {f : α → Option β} {w : β → Nat} {v : α → Nat}
    (h : ∀ a b, f a = some b → w b ≤ v a) (l : List α) :
    ((l.filterMap f).map w).sum ≤ (l.map v).sum := by
  induction l with
  | nil => exact Nat.zero_le _
  | cons a l ih =>
      cases hf : f a with
      | none =>
          rw [List.filterMap_cons_none hf, List.map_cons, List.sum_cons]
          omega
      | some b =>
          have hle := h a b hf
          rw [List.filterMap_cons_some hf, List.map_cons, List.map_cons, List.sum_cons,
            List.sum_cons]
          omega

/-- A packet of the echo has no CSRC list. -/
theorem csrc_echoed (s : Server) (e : Event) : ∀ out ∈ s.echoed e, out.csrc = [] := by
  cases hm : s.media with
  | none => simp [echoed_of_none hm]
  | some m =>
      rw [(step_session hm e).1]
      refine Run.forall_mem_collect (fun _ => True) (fun m a _ => ?_) (fun _ _ _ => trivial)
        trivial (s.sessionActions e)
      rw [(MediaSession.echo_step m a).2]
      exact Run.forall_mem_collect (fun _ => True)
        (fun e item _ => by simp [EchoStream.echo, EchoStream.packet]) (fun _ _ _ => trivial)
        trivial (m.sources a)

/-- **The echo within the received**: over any run of the process no more RTP
packets are sent than received, and no more bytes of them, where a packet that is
received counts with its payload and a header of 12 bytes, which is no more than
its datagram; and at any time the session of the moment holds at most 300
packets, each of at most 2036 bytes. -/
theorem echo_within_received (c : Config) (sipLocalPort : UInt16) (rng : Stream' UInt32)
    (es : List Event) :
    let sent := Run.collect step echoed (boot c sipLocalPort rng) es
    sent.length ≤ (es.flatMap received).length ∧
      (sent.map fun out => out.serialize.length).sum ≤
        ((es.flatMap received).map fun p => 12 + p.payload.length).sum ∧
      ((es.flatMap received).map fun p => 12 + p.payload.length).sum ≤
        ((es.flatMap arrived).map List.length).sum ∧
      ∀ m ∈ (Run.final step (boot c sipLocalPort rng) es).media,
        m.jitter.size ≤ 100 ∧ m.queue.size ≤ 200 ∧ m.Holds SmallPacket := by
  intro sent
  have hboot := loaded_boot c sipLocalPort rng
  refine ⟨?_, ?_, ?_, ?_⟩
  · have hcount := sum_echoed_le hboot rfl es (w := fun _ => 1) fun _ _ _ => rfl
    simpa using hcount
  · have hwire : sent.map (fun out => out.serialize.length) =
        sent.map fun out => 12 + out.payload.length := by
      refine List.map_congr_left fun out hout => ?_
      have hcsrc := Run.forall_mem_collect (fun _ => True) (fun s e _ => csrc_echoed s e)
        (fun _ _ _ => trivial) trivial es out hout
      simp [RtpPacket.length_serialize, hcsrc]
    rw [hwire]
    exact sum_echoed_le hboot rfl es fun p q hpq => by rw [hpq]
  · have hreceived : es.flatMap received = (es.flatMap arrived).filterMap RtpPacket.parseBuf := by
      rw [List.filterMap_flatMap]
      exact List.flatMap_congr fun e _ => received_eq e
    rw [hreceived]
    exact sum_filterMap_le (fun d p => RtpPacket.length_payload_le) _
  · intro m hm
    have hsized := (Run.final_of_preserved Loaded (fun _ e h => h.step e) hboot es).2 m hm
    have hjitter := hsized.inv.size_le
    have hqueue := m.queue.bounded
    rw [hsized.cfg] at hjitter
    rw [hsized.capacity] at hqueue
    exact ⟨hjitter, hqueue, hsized.small⟩

/-! ## responses -/

/-- The headers of a request came in one receive. -/
theorem size_request {dg : Datagram} {m : SipMessage} (h : request dg = some m) :
    m.size ≤ 2560 := by
  rw [request, Option.filter_eq_some_iff] at h
  have hsize := size_le_of_parseSip h.1
  have hcut : (recvFrom dg).data.length ≤ 2048 := by simp [recvFrom]
  omega

theorem sized_uas_step {cfg : UasConfig} (h : SipUas.Sized 2560 cfg s.uas) (e : Event) :
    SipUas.Sized 2560 cfg (s.step e).uas := by
  rcases s.handled_cases e with ⟨dg, m, rfl, hs, hm, _⟩ | ⟨_, huas⟩
  · rw [uas_of_request hs hm]
    exact (h.handle (size_request hm)).sized
  · rw [huas]
    exact h

/-- What a datagram on the SIP socket brings. -/
theorem outputs_signal {cfg : UasConfig} (h : SipUas.Sized 2560 cfg s.uas) (dg : Datagram) :
    (s.outputs (.signal dg)).length ≤ 3 ∧
      ∀ out ∈ s.outputs (.signal dg), ∃ wire, out = .respond wire dg.sender ∧
        wire.length ≤ SipUas.room 2560 cfg + 66 := by
  rw [outputs, act]
  rcases s.handled_cases (.signal dg) with ⟨dg', m, heq, hs, hm, _⟩ | ⟨hnil, _⟩
  · obtain rfl := Event.signal.inj heq
    have hmodest := h.handle (size_request hm)
    rw [signal_of_request hs hm, List.length_map, List.forall_mem_map]
    refine ⟨hmodest.few, fun resp hresp => ⟨resp.serialize, rfl, ?_⟩⟩
    exact (hmodest.fits resp hresp).length_serialize
  · simp [signal_of_not_handled hnil]

/-- **Bounded responses**: after any run of the process a datagram on the SIP
socket brings at most three responses, and each has room in 3458 bytes and five
times the length of the address that the process was given. -/
theorem responses_bounded (c : Config) (sipLocalPort : UInt16) (rng : Stream' UInt32)
    (es : List Event) (dg : Datagram) :
    let outs := (Run.final step (boot c sipLocalPort rng) es).outputs (.signal dg)
    outs.length ≤ 3 ∧
      ∀ out ∈ outs, ∃ wire, out = .respond wire dg.sender ∧
        wire.length ≤ 3458 + 5 * c.ip.length := by
  have hboot : SipUas.Sized 2560 c.uas (boot c sipLocalPort rng).uas :=
    SipUas.sized_fresh 2560 c.uas rng
  have hsized := Run.final_of_preserved (fun s : Server => SipUas.Sized 2560 c.uas s.uas)
    (fun s e h => sized_uas_step h e) hboot es
  have hagent : c.uas.userAgent.length = 11 := by
    change (str "sipdemo/0.1").length = 11
    decide
  have hroom : SipUas.room 2560 c.uas + 66 = 3458 + 5 * c.ip.length := by
    have haddress : c.uas.localIp = c.ip := rfl
    rw [SipUas.room, hagent, haddress]
    omega
  rw [← hroom]
  exact outputs_signal hsized dg

end Server

end SipDemo
