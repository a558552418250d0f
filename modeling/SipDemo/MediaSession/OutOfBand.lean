import SipDemo.MediaSession.Latching
import SipDemo.Rfc4733.Presses

/-!
# SipDemo.MediaSession.OutOfBand

Telephone events and voice are two streams on one socket.  A session is two
machines that share a receive loop: the digit decoder, which runs on the
telephone events alone (`events_apart`), and the audio path, which runs on all
the rest.  Within the session they meet only in the remote address, which either
stream can move.  Both hand what they have for the gateway to one connection,
and what the connection is like there is an input, the same with the telephone
events and without.

So what is known of the decoder is known of a session: the digits of the keys
pressed during a call go to the gateway, whatever voice, playout and output do
between the packets (`Forked.keys_reach_gateway`, with the connection).
-/

namespace SipDemo.MediaSession

/-! ## the two streams -/

/-- The payloads of the telephone events that an action brings. -/
def events (s : MediaSession) : Action → List (List UInt8)
  | .recv dg _ => ((RtpPacket.parseBuf dg.data).filter s.isDtmf).toList.map (·.payload)
  | .playout | .output _ | .stop => []

/-- The action brings a telephone event. -/
def isEvent (s : MediaSession) : Action → Bool
  | .recv dg _ => (RtpPacket.parseBuf dg.data).any s.isDtmf
  | .playout | .output _ | .stop => false

/-- The texts an action hands to `sendText`. -/
def dispatched (s : MediaSession) (a : Action) : List Str :=
  (s.act a).2.filterMap fun
    | .sendText json => some json
    | .sendBinary _ | .sendTo _ _ => none

/-- The audio an action sends: the packets for the peer and the samples for the
gateway, in order. -/
def audio (s : MediaSession) (a : Action) : List (RtpPacket ⊕ List Int16) :=
  (s.act a).2.filterMap fun
    | .sendTo out _ => some (.inl out)
    | .sendBinary pcm16 => some (.inr pcm16)
    | .sendText _ => none

/-- `s` with another decoder and another remote address. -/
def swap (s : MediaSession) (dtmf : DtmfDecoder) (remote : Endpoint) (remoteLatched : Bool) :
    MediaSession :=
  { s with dtmf, remote, remoteLatched }

section

variable (s : MediaSession) (d : DtmfDecoder) (r : Endpoint) (l : Bool)

@[simp] theorem swap_isDtmf (pkt : RtpPacket) : (s.swap d r l).isDtmf pkt = s.isDtmf pkt := rfl

@[simp] theorem swap_echo : (s.swap d r l).toEchoStream = s.toEchoStream := rfl

@[simp] theorem swap_isEvent (a : Action) : (s.swap d r l).isEvent a = s.isEvent a := by
  cases a <;> rfl

/-- Latching sets the remote address, whether or not it was latched before. -/
theorem latch_eq (sender : Endpoint) :
    s.latchRemoteIfNeeded sender = s.swap s.dtmf sender true := by
  unfold latchRemoteIfNeeded
  split_ifs with hfirst hmoved
  · rfl
  · have hlatched : s.remoteLatched = true := by simpa using hfirst
    simp [swap, hlatched]
  · have hlatched : s.remoteLatched = true := by simpa using hfirst
    rw [swap, not_not.mp hmoved, ← hlatched]

theorem playout_swap : (s.swap d r l).playout = s.playout.swap d r l := by
  simp only [playout, swap]
  split <;> rfl

theorem stop_swap : (s.swap d r l).stop = s.stop.swap d r l := by
  cases hactive : s.active <;> simp [stop, swap, hactive]

/-- The output loop reads the remote address, and only to send. -/
theorem output_swap (connected : Bool) :
    (s.swap d r l).step (.output connected) = (s.step (.output connected)).swap d r l ∧
      (s.swap d r l).audio (.output connected) = s.audio (.output connected) ∧
      s.dispatched (.output connected) = [] := by
  simp only [step, audio, dispatched, act, output]
  have hqueue : (s.swap d r l).queue = s.queue := rfl
  rw [hqueue]
  cases s.queue.pop with
  | none => exact ⟨rfl, rfl, rfl⟩
  | some popped =>
      obtain ⟨item, queue⟩ := popped
      cases item with
      | none => exact ⟨rfl, rfl, rfl⟩
      | some item =>
          simp only [emit, swap_echo, List.filterMap_append]
          refine ⟨rfl, rfl, ?_⟩
          split <;> rfl

/-- A telephone event moves the remote address and feeds the decoder, and
changes nothing else. -/
theorem recv_event {dg : Datagram} {nowSec : ℚ} (h : s.isEvent (.recv dg nowSec) = true) :
    ∃ pkt : RtpPacket, s.events (.recv dg nowSec) = [pkt.payload] ∧
      s.act (.recv dg nowSec) =
        (s.swap (s.dtmf.next pkt.payload) dg.sender true,
          (s.dtmf.digit pkt.payload).map fun c => .sendText (dtmfJson c)) := by
  obtain ⟨hnone, _⟩ | ⟨pkt, hsome, ⟨hdtmf, hrecv⟩ | ⟨hdtmf, _⟩⟩ := s.recv_cases dg nowSec
  · simp [isEvent, hnone] at h
  · exact ⟨pkt, by simp [events, hsome, hdtmf], by rw [act, hrecv, latch_eq]; rfl⟩
  · simp [isEvent, hsome, hdtmf] at h

/-- Anything else neither reads nor changes the decoder: it goes the same way
with another decoder and another remote address, which it can move. -/
theorem act_other {a : Action} (h : s.isEvent a = false) :
    s.events a = [] ∧ s.dispatched a = [] ∧ (s.swap d r l).audio a = s.audio a ∧
      ∃ r' l', (s.swap d r l).step a = (s.step a).swap d r' l' := by
  cases a with
  | recv dg nowSec =>
      obtain ⟨hnone, hrecv⟩ | ⟨pkt, hsome, ⟨hdtmf, _⟩ | ⟨hdtmf, hrecv⟩⟩ := s.recv_cases dg nowSec
      · have hother : (s.swap d r l).recv dg nowSec = (s.swap d r l, []) := by simp [recv, hnone]
        exact ⟨by simp [events, hnone], by simp [dispatched, act, hrecv],
          by simp [audio, act, hrecv, hother], r, l, by rw [step, step, act, act, hrecv, hother]⟩
      · simp [isEvent, hsome, hdtmf] at h
      · have hother : (s.swap d r l).recv dg nowSec =
            (((s.swap d r l).swap d dg.sender true).feedVoice pkt nowSec, []) := by
          simp [recv, hsome, latch_eq, hdtmf]
          rfl
        refine ⟨by simp [events, hsome, hdtmf], by simp [dispatched, act, hrecv],
          by simp [audio, act, hrecv, hother], dg.sender, true, ?_⟩
        rw [step, step, act, act, hrecv, hother, latch_eq]
        rfl
  | playout => exact ⟨rfl, rfl, rfl, r, l, playout_swap s d r l⟩
  | output connected =>
      obtain ⟨hstep, haudio, hnone⟩ := output_swap s d r l connected
      exact ⟨rfl, hnone, haudio, r, l, hstep⟩
  | stop => exact ⟨rfl, rfl, rfl, r, l, stop_swap s d r l⟩

end

/-! ## the decoder -/

/-- Which packets are telephone events is fixed for the session. -/
theorem isDtmf_congr {s t : MediaSession} (h : s.dtmfPayloadType = t.dtmfPayloadType) :
    s.isDtmf = t.isDtmf := by
  funext pkt
  rw [isDtmf, isDtmf, h]

theorem events_congr {s t : MediaSession} (h : s.dtmfPayloadType = t.dtmfPayloadType) :
    s.events = t.events := by
  funext a
  cases a <;> simp only [events, isDtmf_congr h]

theorem isEvent_congr {s t : MediaSession} (h : s.dtmfPayloadType = t.dtmfPayloadType) :
    s.isEvent = t.isEvent := by
  funext a
  cases a <;> simp only [isEvent, isDtmf_congr h]

theorem collect_events (s : MediaSession) (acts : List Action) :
    Run.collect step events s acts = acts.flatMap s.events :=
  Run.collect_eq_flatMap (fun s a => events_congr (dtmfPayloadType_step s a)) s acts

/-- The decoder takes the telephone event of an action, and its digits are sent. -/
theorem decoder_step (s : MediaSession) (a : Action) :
    (s.step a).dtmf = Run.final DtmfDecoder.next s.dtmf (s.events a) ∧
      s.dispatched a = (s.dtmf.digits (s.events a)).map dtmfJson := by
  cases hevent : s.isEvent a with
  | false =>
      obtain ⟨hevents, hnone, _, r, l, hstep⟩ := act_other s s.dtmf s.remote s.remoteLatched hevent
      have hsame : (s.step a).dtmf = s.dtmf := congrArg (·.dtmf) hstep
      simp [hevents, hnone, hsame]
  | true =>
      cases a with
      | recv dg nowSec =>
          obtain ⟨pkt, hevents, hact⟩ := recv_event s hevent
          rw [hevents, step, dispatched, hact]
          simp [swap, DtmfDecoder.digits, List.filterMap_map]
      | playout | output connected | stop => simp [isEvent] at hevent

/-- The texts of a run are the digits of its telephone events. -/
theorem collect_dispatched (s : MediaSession) (acts : List Action) :
    Run.collect step dispatched s acts =
      (s.dtmf.digits (acts.flatMap s.events)).map dtmfJson := by
  have hdispatched : dispatched = fun s a => (s.dtmf.digits (s.events a)).map dtmfJson :=
    funext fun s => funext fun a => (decoder_step s a).2
  rw [hdispatched, Run.collect_map, ← collect_events]
  exact congrArg (List.map dtmfJson)
    (Run.collect_proj dtmf (fun s a => (decoder_step s a).1) s acts)

/-! ## runs -/

/-- `t` is `u` with another decoder and another remote address, in a session
with the telephone events of `s`. -/
def Beside (s t u : MediaSession) : Prop :=
  t.dtmfPayloadType = s.dtmfPayloadType ∧ ∃ d r l, t = u.swap d r l

/-- An event is not noticed beside the decoder. -/
theorem Beside.event {s t u : MediaSession} (h : Beside s t u) {a : Action}
    (ha : (!s.isEvent a) = false) : t.audio a = [] ∧ Beside s (t.step a) u := by
  obtain ⟨htype, d, r, l, rfl⟩ := h
  rw [Bool.not_eq_false', ← isEvent_congr htype] at ha
  cases a with
  | recv dg nowSec =>
      obtain ⟨pkt, _, hact⟩ := recv_event _ ha
      refine ⟨by simp [audio, hact, List.filterMap_map], ?_, ?_⟩
      · rw [dtmfPayloadType_step, htype]
      · rw [step, hact]
        exact ⟨_, _, _, rfl⟩
  | playout | output connected | stop => simp [isEvent] at ha

/-- Anything else goes the same way on both sides. -/
theorem Beside.other {s t u : MediaSession} (h : Beside s t u) {a : Action}
    (ha : (!s.isEvent a) = true) : t.audio a = u.audio a ∧ Beside s (t.step a) (u.step a) := by
  obtain ⟨htype, d, r, l, rfl⟩ := h
  rw [Bool.not_eq_true', ← isEvent_congr htype] at ha
  obtain ⟨_, _, haudio, r', l', hstep⟩ := act_other u d r l ha
  exact ⟨haudio, (dtmfPayloadType_step _ a).trans htype, d, r', l', hstep⟩

/-- **Telephone events and voice do not disturb each other.**  The texts of a run
are the digits of the decoder on the telephone events alone.  The packets and
samples sent are those of the run without the telephone events, in which the
gateway is connected at the same turns; and so is the state the run ends in, but
for the decoder and the remote address. -/
theorem events_apart (s : MediaSession) (acts : List Action) :
    Run.collect step dispatched s acts =
        (s.dtmf.digits (acts.flatMap s.events)).map dtmfJson ∧
      Run.collect step audio s acts =
        Run.collect step audio s (acts.filter fun a => !s.isEvent a) ∧
      ∃ remote remoteLatched, Run.final step s acts =
        (Run.final step s (acts.filter fun a => !s.isEvent a)).swap
          (Run.final DtmfDecoder.next s.dtmf (acts.flatMap s.events)) remote remoteLatched := by
  have hself : Beside s s s := ⟨rfl, s.dtmf, s.remote, s.remoteLatched, rfl⟩
  have hrun : Run.collect step audio s acts =
        Run.collect step audio s (acts.filter fun a => !s.isEvent a) ∧
      Beside s (Run.final step s acts) (Run.final step s (acts.filter fun a => !s.isEvent a)) :=
    Run.hides (Beside s) (fun _ _ _ h => h.other) (fun _ _ _ h => h.event) hself acts
  obtain ⟨haudio, _, d, r, l, hend⟩ := hrun
  have hdecoder := Run.final_proj dtmf (fun s a => (decoder_step s a).1) s acts
  rw [collect_events] at hdecoder
  refine ⟨collect_dispatched s acts, haudio, r, l, ?_⟩
  rw [← hdecoder, hend]
  rfl

end SipDemo.MediaSession
