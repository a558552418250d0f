import SipDemo.MediaSession.OutOfBand
import SipDemo.RtpSender
import SipDemo.Server.Load
import SipDemo.WsClient.Sending

/-!
# SipDemo.Server.Gateway

What the speech gateway gets of a call.  `Forked` is a session with its `ws_`
member: the receive loop sends texts on it, the output loop samples, and the
reader thread answers pings and may give the connection up.  `ws_.connected()`
and the send after it take the lock one after the other; a connection that is
given up in between sends nothing, as if it had been found closed.

A connection carries the frames of the session in order until it breaks, and
nothing after that.  So the gateway hears a first part of what the session has
for it, and all of it while the connection stands (`gateway_hears`).
-/

namespace SipDemo

/-- A sample as it lies in the memory of a little-endian host. -/
def sampleBytes (x : Int16) : List UInt8 :=
  let bits : UInt16 := x.toUInt16
  [bits.toUInt8, (bits >>> 8).toUInt8]

def pcmBytes (pcm16 : List Int16) : List UInt8 := pcm16.flatMap sampleBytes

/-- What the gateway hears: samples or a text. -/
abbrev Heard := List Int16 ⊕ Str

/-- What an effect has for the gateway. -/
def Effect.heard : Effect → Option Heard
  | .sendBinary pcm16 => some (.inl pcm16)
  | .sendText json => some (.inr json)
  | .sendTo _ _ => none

/-- The call that sends it. -/
def Effect.call : Effect → Option WsClient.Call
  | .sendBinary pcm16 => some (.sendBinary (pcmBytes pcm16))
  | .sendText json => some (.sendText json)
  | .sendTo _ _ => none

/-- What the gateway makes of a frame: linear samples of a binary one, the text of
a text one. -/
def WsClient.Frame.heard (f : WsClient.Frame) : Option Heard :=
  if f.opcode = 0x2 then some (.inl (RtpSender.samples f.payload))
  else if f.opcode = 0x1 then some (.inr f.payload)
  else none

/-- The session and its `ws_` member. -/
structure Forked where
  session : MediaSession
  ws : WsClient

namespace Forked

/-- The mask of a frame, and what `::send` returns for it. -/
structure Link where
  mask : Mask
  send : SendResults

/-- A loop body of the session with the link of the frame it may send, the answer
to a ping, or the end of the reader thread. -/
inductive Event where
  | recv (dg : Datagram) (nowSec : ℚ) (link : Link)
  | playout
  | output (link : Link)
  | stop
  | pong (payload : List UInt8) (link : Link)
  | hangUp

/-- The loop body, when the gateway is found connected or not. -/
def Event.body (connected : Bool) : Event → List MediaSession.Action
  | .recv dg nowSec _ => [.recv (recvFrom dg) nowSec]
  | .playout => [.playout]
  | .output _ => [.output connected]
  | .stop => [.stop]
  | .pong _ _ | .hangUp => []

/-- The calls on the connection. -/
def turns (l : Forked) : Event → List WsClient.Turn
  | .recv dg nowSec link =>
      ((l.session.act (.recv (recvFrom dg) nowSec)).2.filterMap Effect.call).map
        fun call => { call, mask := link.mask, send := link.send }
  | .output link =>
      ((l.session.act (.output l.ws.connected)).2.filterMap Effect.call).map
        fun call => { call, mask := link.mask, send := link.send }
  | .pong payload link => [{ call := .pong payload, mask := link.mask, send := link.send }]
  | .playout | .stop | .hangUp => []

def step (l : Forked) (e : Event) : Forked where
  session := Run.final MediaSession.step l.session (e.body l.ws.connected)
  ws := match e with
    | .hangUp => l.ws.closeFdUnlocked
    | .recv _ _ _ | .playout | .output _ | .stop | .pong _ _ =>
        Run.final WsClient.turn l.ws (l.turns e)

/-- The bytes an event writes to the connection. -/
def written (l : Forked) (e : Event) : List UInt8 := l.ws.written (l.turns e)

end Forked

/-! ## the samples -/

@[simp] theorem length_pcmBytes (pcm16 : List Int16) :
    (pcmBytes pcm16).length = 2 * pcm16.length := by
  induction pcm16 with
  | nil => rfl
  | cons x pcm16 ih =>
      have hone : (sampleBytes x).length = 2 := rfl
      simp only [pcmBytes, List.flatMap_cons, List.length_append, List.length_cons] at ih ⊢
      omega

/-- The gateway reads the samples back. -/
theorem samples_pcmBytes (pcm16 : List Int16) : RtpSender.samples (pcmBytes pcm16) = pcm16 := by
  induction pcm16 with
  | nil => rfl
  | cons x pcm16 ih =>
      have hvalue : UInt16.ofNat (RtpSender.littleEndian (sampleBytes x)) = x.toUInt16 := by
        have hlt := x.toUInt16.toNat_lt
        apply UInt16.toNat_inj.mp
        simp [sampleBytes, RtpSender.littleEndian, BigEndian.value, Nat.shiftRight_eq_div_pow]
        omega
      simp only [pcmBytes, List.flatMap_cons, List.cons_append, List.nil_append,
        RtpSender.samples, sampleBytes] at ih hvalue ⊢
      rw [hvalue, ih]
      rfl

namespace MediaSession

/-- What a loop body has for the gateway. -/
def said (s : MediaSession) (a : Action) : List Heard := (s.act a).2.filterMap Effect.heard

theorem front_of_pop {q q' : BoundedQueue RtpPacket} {item : RtpPacket}
    (h : q.pop = some (some item, q')) : item ∈ q.q := by
  have hfifo := q.tryPop_fifo
  have htry : q.tryPop = (some item, q') := by
    rw [BoundedQueue.pop] at h
    split at h
    · exact Option.some.inj h
    · cases h
  rw [hfifo, htry]
  simp

/-- The calls of a loop body: none, or one that fits a frame and says what the
body has to say. -/
theorem calls_cases {s : MediaSession} (hs : Sized s) (a : Action) :
    (s.act a).2.filterMap Effect.call = [] ∧ s.said a = [] ∨
      ∃ call : WsClient.Call, (s.act a).2.filterMap Effect.call = [call] ∧
        call.payload.length ≤ 65535 ∧
        ({ opcode := call.opcode, payload := call.payload } : WsClient.Frame).heard.toList =
          s.said a := by
  cases a with
  | recv dg nowSec =>
      obtain ⟨_, hrecv⟩ | ⟨pkt, _, ⟨_, hrecv⟩ | ⟨_, hrecv⟩⟩ := s.recv_cases dg nowSec
      · simp [said, act, hrecv]
      · simp only [said, act, hrecv, feedDtmf]
        cases (DtmfDecoder.feed _ pkt.payload).1 with
        | none => simp
        | some c =>
            right
            exact ⟨.sendText (dtmfJson c), rfl, by simp [WsClient.Call.payload, dtmfJson, str], rfl⟩
      · simp [said, act, hrecv]
  | playout | stop => exact .inl ⟨rfl, rfl⟩
  | output connected =>
      simp only [said, act, output]
      cases hpop : s.queue.pop with
      | none => simp
      | some popped =>
          obtain ⟨item, queue⟩ := popped
          cases item with
          | none => simp
          | some item =>
              simp only [emit]
              split
              · right
                have hsmall : item.payload.length ≤ 2036 := hs.small.2 item (front_of_pop hpop)
                have hlength := length_upsample8kTo16k (s.decode item.payload)
                rw [s.length_decode] at hlength
                refine ⟨.sendBinary (pcmBytes (upsample8kTo16k (s.decode item.payload))), rfl,
                  ?_, ?_⟩
                · rw [WsClient.Call.payload, length_pcmBytes]
                  omega
                · simp [WsClient.Frame.heard, WsClient.Call.opcode, WsClient.Call.payload,
                    samples_pcmBytes, Effect.heard]
              · simp [Effect.call, Effect.heard]

end MediaSession

/-! ## the stream on the connection -/

namespace WsClient

/-- A reader decodes the stream to these frames, however it is cut. -/
def Carries (stream : List UInt8) (frames : List Frame) : Prop :=
  ∃ (ws : List WireFrame) (tail : List UInt8), stream = ws.flatMap WireFrame.bytes ++ tail ∧
    Ending tail ∧ ws.map WireFrame.frame = frames ∧ ∀ w ∈ ws, w.payload.length ≤ 2 ^ 20

theorem Carries.nil : Carries [] [] := ⟨[], [], rfl, .eof, rfl, by simp⟩

/-- A complete frame in front. -/
theorem Carries.cons {t : Turn} {bytes stream : List UInt8} {frames : List Frame}
    (ht : t.frame = some bytes) (h : Carries stream frames) :
    Carries (bytes ++ stream) (t.content :: frames) := by
  obtain ⟨hlen, rfl⟩ := exists_clientFrame ht
  obtain ⟨ws, tail, rfl, hend, rfl, hlimit⟩ := h
  refine ⟨clientFrame t.call.opcode t.mask t.call.payload hlen :: ws, tail, ?_, hend, ?_, ?_⟩
  · simp
  · rw [List.map_cons, clientFrame_frame _ _ _ hlen t.call.opcode_le]
    rfl
  · rw [List.forall_mem_cons]
    refine ⟨?_, hlimit⟩
    change t.call.payload.length ≤ _
    omega

/-- A torn frame carries nothing. -/
theorem Carries.torn {t : Turn} {torn : List UInt8} (ht : Torn t torn) : Carries torn [] := by
  obtain ⟨bytes, hframe, hpart, hproper⟩ := ht
  obtain ⟨hlen, rfl⟩ := exists_clientFrame hframe
  exact ⟨[], torn, rfl, .truncated _ hpart hproper, rfl, by simp⟩

/-- What is carried is what a reader decodes, if there is no ping or close among it. -/
theorem Carries.decoded {stream : List UInt8} {frames : List Frame} (h : Carries stream frames)
    (hcalls : ∀ f ∈ frames, f.opcode ≠ 0x8 ∧ f.opcode ≠ 0x9) (pongs : Pongs) {reader : WsClient}
    (hreader : reader.recvFails = false) {segs : Incoming} (hsegs : segs.flatten = stream) :
    (readerLoop pongs 0 reader segs).1.frames = frames := by
  obtain ⟨ws, tail, rfl, hend, rfl, hlimit⟩ := h
  rw [List.forall_mem_map] at hcalls
  have hkeep : ∀ k, ∀ w ∈ ws, (reader.answer pongs k w.frame).2.1 = reader := by
    intro k w hw
    rw [answer, if_neg (hcalls w hw).2]
  rw [(readerLoop_wires hreader pongs 0 hlimit hkeep hend hsegs).1,
    received_eq_map fun w hw => (hcalls w hw).1]

end WsClient

namespace Forked

open MediaSession (Sized SmallPacket said)

/-- What a run of the session has for the gateway. -/
def heard (s : MediaSession) (es : List Event) : List Heard :=
  Run.collect MediaSession.step said s (es.flatMap (Event.body true))

variable {l : Forked}

/-- A session takes the same way whether or not the gateway is connected. -/
theorem step_session (l : Forked) (e : Event) :
    (l.step e).session = Run.final MediaSession.step l.session (e.body true) := by
  cases e with
  | output link =>
      simp only [step, Event.body, Run.final_cons, Run.final_nil, MediaSession.step,
        MediaSession.act, MediaSession.output]
      split <;> rfl
  | recv dg nowSec link | playout | stop | pong payload link | hangUp => rfl

theorem sized_step (hs : Sized l.session) (e : Event) : Sized (l.step e).session := by
  rw [step_session]
  refine hs.run fun p hp => ?_
  cases e with
  | recv dg nowSec link =>
      simp only [Event.body, Run.collect_cons, Run.collect_nil, List.append_nil,
        MediaSession.voice, Option.mem_toList, Option.filter_eq_some_iff] at hp
      have hlen := RtpPacket.length_payload_le hp.1
      have hcut : (recvFrom dg).data.length ≤ 2048 := by simp [recvFrom]
      unfold SmallPacket
      omega
  | playout | output link | stop | pong payload link | hangUp =>
      simp [Event.body, MediaSession.voice] at hp

/-- The connection after an event other than the end of the reader. -/
theorem step_ws {e : Event} (he : e ≠ .hangUp) :
    (l.step e).ws = Run.final WsClient.turn l.ws (l.turns e) := by
  cases e with
  | hangUp => exact absurd rfl he
  | recv dg nowSec link | playout | output link | stop | pong payload link => rfl

/-- Nothing is written to a connection that is not open, and it stays so. -/
theorem step_closed (h : l.ws.isOpen = false) (e : Event) :
    l.written e = [] ∧ (l.step e).ws.isOpen = false := by
  refine ⟨(WsClient.run_closed h _).2.1, ?_⟩
  by_cases he : e = .hangUp
  · rw [he]
    exact WsClient.isOpen_closeFdUnlocked l.ws
  · have hsame : ∀ t ∈ l.turns e, l.ws.turn t = l.ws := fun t _ => by
      rw [WsClient.turn, WsClient.perform_closed h]
    rw [step_ws he, Run.final_eq_of_fixed hsame]
    exact h

theorem run_closed (h : l.ws.isOpen = false) (es : List Event) :
    Run.collect step written l es = [] ∧ (Run.final step l es).ws.isOpen = false := by
  induction es generalizing l with
  | nil => exact ⟨rfl, h⟩
  | cons e es ih =>
      obtain ⟨hnone, hnext⟩ := step_closed h e
      rw [Run.collect_cons, hnone, Run.final_cons]
      exact ih hnext

/-- The calls of an event on an open connection: none, or one that says what the
session has to say. -/
theorem turns_cases (hs : Sized l.session) (h : l.ws.isOpen = true) (e : Event) :
    l.turns e = [] ∧ (e.body true).flatMap (said l.session) = [] ∨
      ∃ t : WsClient.Turn, l.turns e = [t] ∧
        (t.frame = none → (e.body true).flatMap (said l.session) = []) ∧
        t.content.heard.toList = (e.body true).flatMap (said l.session) := by
  have hconnected : l.ws.connected = true := by simp_all [WsClient.isOpen]
  have hbody (a : MediaSession.Action) (link : Link) :
      ((l.session.act a).2.filterMap Effect.call).map
          (fun call => ({ call, mask := link.mask, send := link.send } : WsClient.Turn)) = [] ∧
        said l.session a = [] ∨
      ∃ t : WsClient.Turn, ((l.session.act a).2.filterMap Effect.call).map
          (fun call => ({ call, mask := link.mask, send := link.send } : WsClient.Turn)) = [t] ∧
        (t.frame = none → said l.session a = []) ∧ t.content.heard.toList = said l.session a := by
    obtain ⟨hcalls, hsaid⟩ | ⟨call, hcalls, hlen, hsaid⟩ := MediaSession.calls_cases hs a
    · exact .inl ⟨by rw [hcalls]; rfl, hsaid⟩
    · have hfits : call.payload.length < 256 ^ 2 := by omega
      refine .inr ⟨{ call, mask := link.mask, send := link.send }, by rw [hcalls]; rfl, ?_, hsaid⟩
      rw [WsClient.Turn.frame, WsClient.encodeFrame_eq _ _ _ hfits]
      simp
  cases e with
  | recv dg nowSec link => simpa [turns, Event.body] using hbody (.recv (recvFrom dg) nowSec) link
  | output link => simpa [turns, Event.body, hconnected] using hbody (.output true) link
  | pong payload link => exact .inr ⟨_, rfl, fun _ => rfl, rfl⟩
  | playout | stop | hangUp => exact .inl ⟨rfl, rfl⟩

/-- **One event on an open connection**: nothing is to be sent, or a frame is sent
that says what the session has to say, or the connection breaks. -/
theorem step_open (hs : Sized l.session) (h : l.ws.isOpen = true) (e : Event) :
    (l.written e = [] ∧ (l.step e).ws = l.ws ∧ (e.body true).flatMap (said l.session) = []) ∨
      (∃ t bytes, WsClient.Turn.frame t = some bytes ∧ l.written e = bytes ∧
        (l.step e).ws = l.ws ∧
        t.content.heard.toList = (e.body true).flatMap (said l.session)) ∨
      ((l.step e).ws.isOpen = false ∧ WsClient.Carries (l.written e) []) := by
  by_cases he : e = .hangUp
  · rw [he]
    exact .inr (.inr ⟨WsClient.isOpen_closeFdUnlocked l.ws, .nil⟩)
  · rw [step_ws he, written]
    obtain ⟨hturns, hsaid⟩ | ⟨t, hturns, hframe, hsaid⟩ := turns_cases hs h e
    · rw [hturns]
      exact .inl ⟨rfl, rfl, hsaid⟩
    · have hwritten : l.ws.written [t] = (l.ws.perform t).2.1 := List.append_nil _
      have hnext : Run.final WsClient.turn l.ws [t] = (l.ws.perform t).2.2 := rfl
      rw [hturns, hwritten, hnext]
      obtain ⟨hnone, ht⟩ | ⟨bytes, hsome, ht⟩ | ⟨torn, htorn, ht⟩ := WsClient.perform_open h t
      · exact .inl ⟨by rw [ht], by rw [ht], hframe hnone⟩
      · exact .inr (.inl ⟨t, bytes, hsome, by rw [ht], by rw [ht], hsaid⟩)
      · rw [ht]
        exact .inr (.inr ⟨WsClient.isOpen_closeFdUnlocked l.ws, .torn htorn⟩)

/-- One more event, in front. -/
theorem heard_cons (l : Forked) (e : Event) (es : List Event) :
    heard l.session (e :: es) =
      (e.body true).flatMap (said l.session) ++ heard (l.step e).session es := by
  have hone : Run.collect MediaSession.step said l.session (e.body true) =
      (e.body true).flatMap (said l.session) := by
    cases e <;> simp [Event.body]
  rw [heard, List.flatMap_cons, Run.collect_append, ← step_session, hone]
  rfl

/-- **What a run carries**: the frames that the stream is decoded to say a first
part of what the session has to say, and all of it while the connection stands. -/
theorem carries_run (hs : Sized l.session) (es : List Event) :
    ∃ frames : List WsClient.Frame, WsClient.Carries (Run.collect step written l es) frames ∧
      (∀ f ∈ frames, f.opcode ≠ 0x8 ∧ f.opcode ≠ 0x9) ∧
      frames.filterMap WsClient.Frame.heard <+: heard l.session es ∧
      ((Run.final step l es).ws.isOpen = true →
        frames.filterMap WsClient.Frame.heard = heard l.session es) := by
  induction es generalizing l with
  | nil => exact ⟨[], .nil, by simp, List.nil_prefix, fun _ => rfl⟩
  | cons e es ih =>
      -- nothing comes after a break
      have hbroken (hstep : (l.step e).ws.isOpen = false)
          (hcarries : WsClient.Carries (l.written e) []) :
          WsClient.Carries (Run.collect step written l (e :: es)) [] ∧
            (Run.final step l (e :: es)).ws.isOpen = false := by
        obtain ⟨hnone, hend⟩ := run_closed hstep es
        rw [Run.collect_cons, hnone, List.append_nil]
        exact ⟨hcarries, hend⟩
      cases hopen : l.ws.isOpen with
      | false =>
          obtain ⟨hnone, hnext⟩ := step_closed hopen e
          obtain ⟨hcarries, hend⟩ := hbroken hnext (hnone ▸ .nil)
          exact ⟨[], hcarries, by simp, List.nil_prefix,
            fun hstands => absurd hstands (Bool.eq_false_iff.mp hend)⟩
      | true =>
          obtain ⟨frames, hcarries, hcalls, hfirst, hall⟩ := ih (sized_step hs e)
          rw [Run.collect_cons, heard_cons, Run.final_cons]
          obtain ⟨hnone, _, hsaid⟩ | ⟨t, bytes, ht, hwritten, _, hsaid⟩ | ⟨hnext, htorn⟩ :=
            step_open hs hopen e
          · rw [hnone, hsaid]
            exact ⟨frames, hcarries, hcalls, hfirst, hall⟩
          · have hfilter : (t.content :: frames).filterMap WsClient.Frame.heard =
                (e.body true).flatMap (said l.session) ++
                  frames.filterMap WsClient.Frame.heard := by
              rw [← hsaid]
              cases h : t.content.heard <;> simp [h]
            refine ⟨t.content :: frames, hwritten ▸ hcarries.cons ht, ?_, ?_, ?_⟩
            · rw [List.forall_mem_cons]
              refine ⟨?_, hcalls⟩
              cases hcall : t.call <;> simp [WsClient.Turn.content, hcall, WsClient.Call.opcode]
            · rw [hfilter]
              exact (List.prefix_append_right_inj _).mpr hfirst
            · rw [hfilter]
              exact fun hend => congrArg _ (hall hend)
          · obtain ⟨hbreak, hend⟩ := hbroken hnext htorn
            exact ⟨[], hbreak, by simp, List.nil_prefix,
              fun hstands => absurd hstands (Bool.eq_false_iff.mp hend)⟩

/-- **What the gateway hears.**  Whatever the connection does to the sends of a
session, whenever pings are answered and whenever the reader gives up, a reader
at the gateway decodes the bytes, however they are cut, to frames that say a
first part of what the session has for it, in order; and all of it when the
connection still stands at the end. -/
theorem gateway_hears (remote : Endpoint) (payloadType dtmfPayloadType : Int) (ws : WsClient)
    (es : List Event) :
    let l : Forked := { session := MediaSession.make.start remote payloadType dtmfPayloadType, ws }
    ∃ frames : List WsClient.Frame,
      (∀ (pongs : WsClient.Pongs) (reader : WsClient) (segs : Incoming), reader.recvFails = false →
        segs.flatten = Run.collect step written l es →
        (WsClient.readerLoop pongs 0 reader segs).1.frames = frames) ∧
      frames.filterMap WsClient.Frame.heard <+: heard l.session es ∧
      ((Run.final step l es).ws.isOpen = true →
        frames.filterMap WsClient.Frame.heard = heard l.session es) := by
  intro l
  obtain ⟨frames, hcarries, hcalls, hheard⟩ :=
    carries_run (l := l) (Sized.start remote payloadType dtmfPayloadType) es
  exact ⟨frames, fun pongs reader segs hreader hsegs =>
    hcarries.decoded hcalls pongs hreader hsegs, hheard⟩

/-! ## keys -/

/-- The texts among what is heard. -/
def texts (heard : List Heard) : List Str := heard.filterMap Sum.getRight?

/-- The payloads of the telephone events that a run receives. -/
def eventPayloads (s : MediaSession) (es : List Event) : List (List UInt8) :=
  (es.flatMap (Event.body true)).flatMap s.events

theorem texts_said (s : MediaSession) (a : MediaSession.Action) :
    texts (said s a) = s.dispatched a := by
  rw [texts, said, List.filterMap_filterMap, MediaSession.dispatched]
  exact List.filterMap_congr fun effect _ => by cases effect <;> rfl

theorem texts_heard (s : MediaSession) (es : List Event) :
    texts (heard s es) = (s.dtmf.digits (eventPayloads s es)).map MediaSession.dtmfJson := by
  rw [eventPayloads, ← MediaSession.collect_dispatched, heard]
  generalize es.flatMap (Event.body true) = acts
  induction acts generalizing s with
  | nil => rfl
  | cons a acts ih =>
      have happend : texts (said s a ++ Run.collect MediaSession.step said (s.step a) acts) =
          texts (said s a) ++ texts (Run.collect MediaSession.step said (s.step a) acts) :=
        List.filterMap_append
      rw [Run.collect_cons, happend, texts_said, ih, Run.collect_cons]

/-- **Keys reach the gateway, once each.**  If of every key pressed during a call an
end packet arrives, and an update or a change of the key, then the texts that
the gateway decodes are the digits of the keys, in order, up to where the
connection breaks, whatever else goes on in the session and on the connection. -/
theorem keys_reach_gateway (remote : Endpoint) (payloadType dtmfPayloadType : Int) (ws : WsClient)
    (es : List Event) (presses : List Press) (received : List (List (List UInt8)))
    (harrives : DtmfDecoder.Arrives none presses received)
    (hevents : eventPayloads (MediaSession.make.start remote payloadType dtmfPayloadType) es =
      received.flatten) :
    let l : Forked := { session := MediaSession.make.start remote payloadType dtmfPayloadType, ws }
    let digits := presses.flatMap fun p =>
      (dtmfEventToChar p.event).toList.map MediaSession.dtmfJson
    ∃ frames : List WsClient.Frame,
      (∀ (pongs : WsClient.Pongs) (reader : WsClient) (segs : Incoming),
        reader.recvFails = false → segs.flatten = Run.collect step written l es →
        (WsClient.readerLoop pongs 0 reader segs).1.frames = frames) ∧
      texts (frames.filterMap WsClient.Frame.heard) <+: digits ∧
      ((Run.final step l es).ws.isOpen = true →
        texts (frames.filterMap WsClient.Frame.heard) = digits) := by
  intro l digits
  obtain ⟨frames, hcarries, hcalls, hfirst, hall⟩ :=
    carries_run (l := l) (Sized.start remote payloadType dtmfPayloadType) es
  have hfollows : DtmfDecoder.Follows none l.session.dtmf := rfl
  have hdigits : texts (heard l.session es) = digits := by
    rw [texts_heard, hevents, DtmfDecoder.digits_arrives harrives hfollows, List.map_flatMap]
  refine ⟨frames, fun pongs reader segs hreader hsegs =>
    hcarries.decoded hcalls pongs hreader hsegs, ?_, fun hstands => ?_⟩
  · rw [← hdigits]
    exact hfirst.filterMap _
  · rw [hall hstands, hdigits]

/-- The key 5 with an update and an end packet, and voice in between. -/
def sampleKeys : List Event :=
  let link : Link := { mask := fun _ => 7, send := fun _ => 100 }
  let packet (payloadType : UInt8) (payload : List UInt8) : Datagram :=
    { data := ({ payloadType, payload } : RtpPacket).serialize, sender := {} }
  [.recv (packet 101 [5, 10, 0, 80]) 0 link, .recv (packet 0 [255, 127]) 0 link, .playout,
    .output link, .recv (packet 101 [5, 138, 0, 160]) 0 link]

theorem keys_reach_gateway_sampleKeys :
    let l : Forked :=
      { session := MediaSession.make.start {} 0 101, ws := { fd := 3, connected := true } }
    let digits := [Press.keyFive].flatMap fun p =>
      (dtmfEventToChar p.event).toList.map MediaSession.dtmfJson
    ∃ frames : List WsClient.Frame,
      (∀ (pongs : WsClient.Pongs) (reader : WsClient) (segs : Incoming),
        reader.recvFails = false → segs.flatten = Run.collect step written l sampleKeys →
        (WsClient.readerLoop pongs 0 reader segs).1.frames = frames) ∧
      texts (frames.filterMap WsClient.Frame.heard) <+: digits ∧
      ((Run.final step l sampleKeys).ws.isOpen = true →
        texts (frames.filterMap WsClient.Frame.heard) = digits) :=
  keys_reach_gateway {} 0 101 { fd := 3, connected := true } sampleKeys [Press.keyFive]
    [[[5, 10, 0, 80], [5, 138, 0, 160]]]
    (.cons (by decide) (by decide) (.inl (by decide)) (.nil (some 5))) (by decide +kernel)

end Forked

end SipDemo
