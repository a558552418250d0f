import SipDemo.MediaSession.Draining
import SipDemo.MediaSession.Numbering
import SipDemo.Server

/-!
# SipDemo.Server.Sessions

The sessions of a process.  Whatever session a process has, it is a run of
`MediaSession` from `make.start` (`session_run`), and what the process sends as
RTP is what that run sends.  So what is known of a session's runs is known of
the process, and two things follow about calls one after the other: what a
caller hears was received since the caller's own session started
(`heard_since_start`), and a session that is hung up echoes all it had queued
before the next request is read (`drained_before_next`).
-/

namespace SipDemo.Server

open MediaSession (make)

/-! ## an event, to the session -/

/-- What an event is to the session that is there. -/
def sessionActions (s : Server) : Event → List MediaSession.Action
  | .signal dg =>
      match s.control, (s.signal dg).1.control with
      | .serving, .joining _ => [.stop]
      | _, _ => []
  | .recv dg nowSec => match s.control with
      | .terminated => []
      | .serving | .joining _ => [.recv (recvFrom dg) nowSec]
  | .playout => match s.control with
      | .terminated => []
      | .serving | .joining _ => [.playout]
  | .output connected => match s.control with
      | .terminated => []
      | .serving | .joining _ => [.output connected]
  | .join _ => []

/-- The RTP packets that an event sends. -/
def echoed (s : Server) (e : Event) : List RtpPacket :=
  (s.outputs e).filterMap fun
    | .media (.sendTo out _) => some out
    | .media (.sendBinary _) | .media (.sendText _) | .respond _ _ => none

/-- The RTP packet that an event brings. -/
def received : Event → List RtpPacket
  | .recv dg _ => (RtpPacket.parseBuf (recvFrom dg).data).toList
  | .signal _ | .playout | .output _ | .join _ => []

/-- A session that has just started. -/
def Started (m : MediaSession) : Prop :=
  ∃ remote payloadType dtmfPayloadType, m = make.start remote payloadType dtmfPayloadType

variable {s : Server} {m : MediaSession}

/-- A loop body is an action of the session. -/
theorem turn_of_session (hm : s.media = some m) (ht : s.control ≠ .terminated)
    (a : MediaSession.Action) :
    s.turn a = ({ s with media := some (m.step a) }, (m.act a).2.map .media) := by
  cases hc : s.control with
  | serving => simp [turn, hc, hm, MediaSession.step]
  | joining replacement => simp [turn, hc, hm, MediaSession.step]
  | terminated => exact absurd hc ht

/-- Without a session there is no loop to take a turn. -/
theorem turn_of_none (hm : s.media = none) (a : MediaSession.Action) : s.turn a = (s, []) := by
  cases hc : s.control <;> simp [turn, hc, hm]

theorem turn_of_terminated (ht : s.control = .terminated) (a : MediaSession.Action) :
    s.turn a = (s, []) := by
  simp [turn, ht]

theorem filterMap_media (effects : List Effect) :
    (effects.map Output.media).filterMap (fun
      | .media (.sendTo out _) => some out
      | .media (.sendBinary _) | .media (.sendText _) | .respond _ _ => none) =
    effects.filterMap (fun | .sendTo out _ => some out | _ => none) := by
  rw [List.filterMap_map]
  exact List.filterMap_congr fun effect _ => by cases effect <;> rfl

/-- A loop body, seen from the session: the action, and what it sends. -/
theorem turn_session {a : MediaSession.Action} (actions : List MediaSession.Action)
    (hm : s.media = some m)
    (hactions : actions = match s.control with
      | .terminated => []
      | .serving | .joining _ => [a]) :
    (s.turn a).1.media = some (Run.final MediaSession.step m actions) ∧
      (s.turn a).2.filterMap (fun
        | .media (.sendTo out _) => some out
        | .media (.sendBinary _) | .media (.sendText _) | .respond _ _ => none) =
      Run.collect MediaSession.step MediaSession.sent m actions := by
  by_cases ht : s.control = .terminated
  · rw [ht] at hactions
    rw [hactions, turn_of_terminated ht]
    exact ⟨hm, rfl⟩
  · have hone : actions = [a] := by
      rw [hactions]
      split
      · next hc => exact absurd hc ht
      · rfl
      · rfl
    rw [hone, turn_of_session hm ht, filterMap_media]
    exact ⟨rfl, (List.append_nil _).symm⟩

/-- A request sends no RTP. -/
theorem echoed_signal (dg : Datagram) : s.echoed (.signal dg) = [] := by
  rw [echoed, outputs, act, List.filterMap_eq_nil_iff]
  unfold signal
  split
  · split
    · simp
    · intro out hout
      obtain ⟨resp, _, rfl⟩ := List.mem_map.mp hout
      rfl
  · simp
  · simp

/-- A request leaves the session alone or stops it. -/
theorem signal_session (hm : s.media = some m) (dg : Datagram) :
    (s.step (.signal dg)).media =
      some (Run.final MediaSession.step m (s.sessionActions (.signal dg))) := by
  cases hh : s.handled (.signal dg) with
  | nil =>
      have hsame := signal_of_not_handled hh
      have hnone : s.sessionActions (.signal dg) = [] := by
        simp only [sessionActions, hsame]
        split
        · next hs hj => exact absurd (hs.symm.trans hj) (by simp)
        · rfl
      rw [hnone, step, act, hsame]
      exact hm
  | cons msg rest =>
      rcases s.handled_cases (.signal dg) with ⟨dg', msg', heq, hs, hreq, _⟩ | ⟨hnil, _⟩
      · obtain rfl := Event.signal.inj heq
        have hsignal := signal_of_request hs hreq
        simp only [step, act, sessionActions, hsignal]
        unfold command
        split
        · simp [hs, hm]
        · split
          · simp [hs, hm]
          · simp [hs, hm, replace, MediaSession.step, MediaSession.act]
        · simp [hs, hm, replace, MediaSession.step, MediaSession.act]
      · exact absurd (hh.symm.trans hnil) (List.cons_ne_nil msg rest)

/-- **One event**: the session takes the event's actions, and the RTP sent is
what they send; or the session is over, stopped and drained. -/
theorem step_session (hm : s.media = some m) (e : Event) :
    s.echoed e = Run.collect MediaSession.step MediaSession.sent m (s.sessionActions e) ∧
      ((s.step e).media = some (Run.final MediaSession.step m (s.sessionActions e)) ∨
        ∃ replacement, e = .join true ∧ s.control = .joining replacement ∧
          m.queue.closed = true ∧ m.queue.q = [] ∧
          s.step e = { s with media := replacement, control := .serving }) := by
  cases e with
  | signal dg =>
      refine ⟨?_, .inl (signal_session hm dg)⟩
      rw [echoed_signal]
      simp only [sessionActions]
      split
      · simp only [Run.collect_cons, Run.collect_nil, MediaSession.sent, MediaSession.act]
        rfl
      · rfl
  | recv dg nowSec =>
      obtain ⟨hnext, hsent⟩ := turn_session (s.sessionActions (.recv dg nowSec)) hm rfl
      exact ⟨hsent, .inl hnext⟩
  | playout =>
      obtain ⟨hnext, hsent⟩ := turn_session (s.sessionActions .playout) hm rfl
      exact ⟨hsent, .inl hnext⟩
  | output connected =>
      obtain ⟨hnext, hsent⟩ := turn_session (s.sessionActions (.output connected)) hm rfl
      exact ⟨hsent, .inl hnext⟩
  | join wsClosed =>
      refine ⟨rfl, ?_⟩
      cases hc : s.control with
      | joining replacement =>
          by_cases hdone : m.queue.closed = true ∧ m.queue.q = [] ∧ wsClosed = true
          · obtain ⟨hclosed, hq, rfl⟩ := hdone
            exact .inr ⟨replacement, rfl, rfl, hclosed, hq, by
              simp [step, act, join, hc, hm, hclosed, hq]⟩
          · exact .inl (by simp [step, act, join, hc, hm, hdone, sessionActions])
      | serving => exact .inl (by simp [step, act, join, hc, hm, sessionActions])
      | terminated => exact .inl (by simp [step, act, join, hc, hm, sessionActions])

/-- The packets a session lets in were brought by the events. -/
theorem accepted_sublist_received (m : MediaSession) (s : Server) (e : Event) :
    ((Run.collect MediaSession.step MediaSession.accepted m (s.sessionActions e)).map
      Prod.snd).Sublist (received e) := by
  have hother : ∀ a : MediaSession.Action, (∀ dg nowSec, a ≠ .recv dg nowSec) →
      m.accepted a = [] := by
    intro a ha
    cases a with
    | recv dg nowSec => exact absurd rfl (ha dg nowSec)
    | playout | output connected | stop => rfl
  cases e with
  | signal dg =>
      simp only [sessionActions]
      split
      · simp [hother]
      · exact List.nil_sublist _
  | recv dg nowSec =>
      have hrecv : ((m.accepted (.recv (recvFrom dg) nowSec)).map Prod.snd).Sublist
          (received (.recv dg nowSec)) := by
        simp only [MediaSession.accepted, MediaSession.jitterOps, received]
        cases RtpPacket.parseBuf (recvFrom dg).data with
        | none => exact .slnil
        | some pkt =>
            dsimp only
            split
            · exact List.nil_sublist _
            · simp only [Run.collect_cons, Run.collect_nil, List.append_nil, JitterBuffer.accepted]
              split <;> simp
      simp only [sessionActions]
      split
      · exact List.nil_sublist _
      · simpa using hrecv
      · simpa using hrecv
  | playout | output connected =>
      simp only [sessionActions]
      split
      · exact List.nil_sublist _
      · simp [hother]
      · simp [hother]
  | join wsClosed => exact List.nil_sublist _

/-! ## what holds of every state -/

/-- A session that is to come has just started; a session is active while the
main thread serves, and has a closed queue while the main thread waits. -/
structure Orderly (s : Server) : Prop where
  replacement : ∀ m, s.control = .joining (some m) → Started m
  active : s.control = .serving → ∀ m ∈ s.media, m.active = true
  closed : ∀ replacement, s.control = .joining replacement →
    ∃ m, s.media = some m ∧ m.queue.closed = true

theorem orderly_boot (c : Config) (sipLocalPort : UInt16) (rng : Stream' UInt32) :
    Orderly (boot c sipLocalPort rng) := by
  constructor <;> simp [boot]

theorem orderly_replace (ho : Orderly s) (hs : s.control = .serving)
    {replacement : Option MediaSession} (hr : ∀ m ∈ replacement, Started m) :
    Orderly (s.replace replacement) := by
  unfold replace
  split
  · refine ⟨by simp [hs], fun _ m hm => ?_, by simp [hs]⟩
    obtain ⟨remote, payloadType, dtmfPayloadType, rfl⟩ := hr m hm
    rfl
  · next old hold =>
    refine ⟨?_, by simp, fun _ _ => ⟨old.stop, rfl, ?_⟩⟩
    · intro m hm
      exact hr m (Control.joining.inj hm)
    · exact MediaSession.stop_closed (ho.active hs old hold)

theorem orderly_signal (ho : Orderly s) (dg : Datagram) : Orderly (s.step (.signal dg)) := by
  rcases s.handled_cases (.signal dg) with ⟨dg', msg, heq, hs, hreq, _⟩ | ⟨hnil, _⟩
  · obtain rfl := Event.signal.inj heq
    have hnext : Orderly { s with uas := s.uas.next msg } := ⟨ho.replacement, ho.active, ho.closed⟩
    rw [step, act, signal_of_request hs hreq]
    unfold command
    split
    · exact hnext
    · split
      · constructor <;> simp
      · refine orderly_replace hnext hs fun m hm => ?_
        rw [← Option.mem_some_iff.mp hm]
        exact ⟨_, _, _, rfl⟩
    · exact orderly_replace hnext hs (by simp)
  · rw [step, act, signal_of_not_handled hnil]
    exact ho

theorem orderly_turn (ho : Orderly s) {a : MediaSession.Action} (ha : a ≠ .stop) :
    Orderly (s.turn a).1 := by
  by_cases ht : s.control = .terminated
  · rw [turn_of_terminated ht]
    exact ho
  · cases hm : s.media with
    | none =>
        rw [turn_of_none hm]
        exact ho
    | some m =>
        rw [turn_of_session hm ht]
        refine ⟨ho.replacement, fun hs m' hm' => ?_, fun replacement hj => ?_⟩
        · rw [← Option.mem_some_iff.mp hm']
          exact MediaSession.active_step (ho.active hs m hm) ha
        · obtain ⟨m', hm', hclosed⟩ := ho.closed replacement hj
          obtain rfl : m = m' := Option.some.inj (hm.symm.trans hm')
          exact ⟨m.step a, rfl, MediaSession.closed_step hclosed a⟩

theorem orderly_join (ho : Orderly s) (wsClosed : Bool) : Orderly (s.join wsClosed) := by
  unfold join
  split
  · next replacement session hj hm =>
    split
    · refine ⟨by simp, fun _ m hm' => ?_, by simp⟩
      obtain rfl : replacement = some m := hm'
      obtain ⟨remote, payloadType, dtmfPayloadType, rfl⟩ := ho.replacement m hj
      rfl
    · exact ho
  · exact ho

theorem Orderly.step (ho : Orderly s) (e : Event) : Orderly (s.step e) := by
  cases e with
  | signal dg => exact orderly_signal ho dg
  | recv dg nowSec => exact orderly_turn ho (by simp)
  | playout => exact orderly_turn ho (by simp)
  | output connected => exact orderly_turn ho (by simp)
  | join wsClosed => exact orderly_join ho wsClosed

theorem orderly_run (ho : Orderly s) (es : List Event) : Orderly (Run.final step s es) :=
  Run.final_of_preserved Orderly (fun _ e h => h.step e) ho es

/-! ## sessions -/

/-- A session that appears has just started. -/
theorem started_of_step {e : Event} (hm : (s.step e).media = some m)
    (hnone : s.media = none) : Started m := by
  cases e with
  | signal dg =>
      rcases s.handled_cases (.signal dg) with ⟨dg', msg, heq, hs, hreq, _⟩ | ⟨hnil, _⟩
      · obtain rfl := Event.signal.inj heq
        rw [step, act, signal_of_request hs hreq] at hm
        unfold command at hm
        split at hm
        · simp [hnone] at hm
        · split at hm
          · simp [hnone] at hm
          · simp only [replace, hnone, Option.some.injEq] at hm
            exact ⟨_, _, _, hm.symm⟩
        · simp [replace, hnone] at hm
      · rw [step, act, signal_of_not_handled hnil, hnone] at hm
        cases hm
  | recv dg nowSec | playout | output connected =>
      simp [step, act, turn_of_none hnone, hnone] at hm
  | join wsClosed => simp [step, act, join, hnone] at hm

/-- The events `post` took the session from `m₀` to `m`, sent the RTP that the
session sent, and brought the packets that the session let in. -/
structure Since (s : Server) (m₀ : MediaSession) (post : List Event) (m : MediaSession) : Prop where
  /-- It is this session that was there all the time. -/
  stands : ∀ part, part <+: post → (Run.final step s part).media =
    some (Run.final MediaSession.step m₀ (Run.collect step sessionActions s part))
  session : m = Run.final MediaSession.step m₀ (Run.collect step sessionActions s post)
  echoed : Run.collect step echoed s post =
    Run.collect MediaSession.step MediaSession.sent m₀ (Run.collect step sessionActions s post)
  accepted : ((Run.collect MediaSession.step MediaSession.accepted m₀
    (Run.collect step sessionActions s post)).map Prod.snd).Sublist (post.flatMap received)

theorem Since.refl (hm : s.media = some m) : Since s m [] m where
  stands part hpart := by
    rw [List.prefix_nil.mp hpart]
    exact hm
  session := rfl
  echoed := rfl
  accepted := List.nil_sublist _

/-- One more event, as long as it leaves the session there. -/
theorem Since.snoc {m₀ : MediaSession} {post : List Event} (h : Since s m₀ post m)
    (hm : (Run.final step s post).media = some m) {e : Event} {m' : MediaSession}
    (hm' : (Run.final step s (post ++ [e])).media = some m')
    (hnext : m' = Run.final MediaSession.step m ((Run.final step s post).sessionActions e)) :
    Since s m₀ (post ++ [e]) m' := by
  obtain ⟨hstands, rfl, hechoed, haccepted⟩ := h
  have hacts : Run.collect step sessionActions s (post ++ [e]) =
      Run.collect step sessionActions s post ++ (Run.final step s post).sessionActions e := by
    simp
  have hsession : m' = Run.final MediaSession.step m₀
      (Run.collect step sessionActions s (post ++ [e])) := by
    rw [hacts, Run.final_append, hnext]
  refine ⟨fun part hpart => ?_, hsession, ?_, ?_⟩
  · rcases List.prefix_concat_iff.mp hpart with rfl | hpart
    · rw [hm', hsession]
    · exact hstands part hpart
  · rw [hacts, Run.collect_append, Run.collect_append, hechoed, Run.collect_cons, Run.collect_nil,
      List.append_nil, (step_session hm e).1]
  · rw [hacts, Run.collect_append, List.map_append, List.flatMap_append, List.flatMap_cons,
      List.flatMap_nil, List.append_nil]
    exact haccepted.append (accepted_sublist_received _ _ e)

/-- **Sessions**: a session is the run, from `make.start`, of the actions of the
events since it started, and the RTP sent since then is what that run sends. -/
theorem session_run {s₀ : Server} (ho : Orderly s₀) (hnone : s₀.media = none) (es : List Event)
    (hm : (Run.final step s₀ es).media = some m) :
    ∃ pre post m₀, es = pre ++ post ∧ Started m₀ ∧ (Run.final step s₀ pre).media = some m₀ ∧
      Since (Run.final step s₀ pre) m₀ post m := by
  induction es using List.reverseRecOn generalizing m with
  | nil => simp [hnone] at hm
  | append_singleton es e ih =>
      rw [Run.final_append, Run.final_cons, Run.final_nil] at hm
      have hlast : Started m → ∃ pre post m₀, es ++ [e] = pre ++ post ∧ Started m₀ ∧
          (Run.final step s₀ pre).media = some m₀ ∧ Since (Run.final step s₀ pre) m₀ post m :=
        fun hstarted => ⟨es ++ [e], [], m, by simp, hstarted, by simpa using hm,
          .refl (by simpa using hm)⟩
      cases hbefore : (Run.final step s₀ es).media with
      | none => exact hlast (started_of_step hm hbefore)
      | some m' =>
          obtain ⟨_, hnext | ⟨replacement, rfl, hj, _, _, hstep⟩⟩ := step_session hbefore e
          · obtain ⟨pre, post, m₀, rfl, hstarted, hpre, hsince⟩ := ih hbefore
            refine ⟨pre, post ++ [e], m₀, List.append_assoc pre post [e], hstarted, hpre, ?_⟩
            rw [Run.final_append] at hbefore hnext hm
            refine hsince.snoc hbefore ?_ (Option.some.inj (hm.symm.trans hnext))
            rw [Run.final_append]
            exact hm
          · rw [hstep] at hm
            obtain rfl : replacement = some m := hm
            exact hlast ((orderly_run ho es).replacement m hj)

/-! ## what a caller hears -/

/-- **No audio of another call**: at any time in any run of the process, the RTP
sent since the session of the moment started carries the audio of distinct
voice packets that this session let in since then, in increasing order of the
numbers under which it let them in. -/
theorem heard_since_start (c : Config) (sipLocalPort : UInt16) (rng : Stream' UInt32)
    (es : List Event) {m : MediaSession}
    (hm : (Run.final step (boot c sipLocalPort rng) es).media = some m) :
    ∃ pre post m₀, es = pre ++ post ∧ Started m₀ ∧
      (Run.final step (boot c sipLocalPort rng) pre).media = some m₀ ∧
      Since (Run.final step (boot c sipLocalPort rng) pre) m₀ post m ∧
      ∃ heard : List (Int × RtpPacket), (heard.map Prod.fst).Pairwise (· < ·) ∧
        heard.Subperm (Run.collect MediaSession.step MediaSession.accepted m₀
          (Run.collect step sessionActions (Run.final step (boot c sipLocalPort rng) pre) post)) ∧
        (∀ h ∈ heard, h.1 % 65536 = h.2.sequence.toNat) ∧
        List.Forall₂ m₀.SameAudio (heard.map Prod.snd)
          (Run.collect step echoed (Run.final step (boot c sipLocalPort rng) pre) post) := by
  obtain ⟨pre, post, m₀, hes, hstarted, hpre, hsince⟩ :=
    session_run (orderly_boot c sipLocalPort rng) rfl es hm
  refine ⟨pre, post, m₀, hes, hstarted, hpre, hsince, ?_⟩
  have hempty : m₀.jitter = .fresh { targetDepth := 3, capacity := 100 } ∧ m₀.queue.q = [] := by
    obtain ⟨remote, payloadType, dtmfPayloadType, rfl⟩ := hstarted
    exact ⟨rfl, rfl⟩
  obtain ⟨heard, hmap, hsorted, hamong⟩ := MediaSession.numbered_sources hempty.1 hempty.2
    (Run.collect step sessionActions (Run.final step (boot c sipLocalPort rng) pre) post)
  refine ⟨heard, hsorted, hamong, fun h hh => ?_, ?_⟩
  · exact MediaSession.accepted_emod m₀ _ h (hamong.subset hh)
  · rw [hmap, hsince.echoed]
    exact (MediaSession.sent_echoes m₀ _).audio

/-- A call is set up, three packets are received, and the first is played. -/
def samplePlayed : List Event :=
  let packet (sequence : UInt16) (payload : List UInt8) : Event :=
    .recv { data := ({ sequence, payload } : RtpPacket).serialize, sender := samplePeer } 0
  [sampleSignal "INVITE" "1 INVITE" "z9hG4bK1" (SipUas.sampleOffer "0"),
    packet 65535 [16, 160], packet 0 [32, 128], packet 1 [48, 144], .playout]

/-- It is echoed. -/
def sampleCall : List Event := samplePlayed ++ [.output true]

theorem heard_since_start_sampleCall :
    (Run.collect step echoed (boot {} 5060 fun _ => 7) sampleCall).map RtpPacket.payload =
        [[16, 160]] ∧
      ∃ pre post m₀ m, sampleCall = pre ++ post ∧ Started m₀ ∧
        (Run.final step (boot {} 5060 fun _ => 7) pre).media = some m₀ ∧
        Since (Run.final step (boot {} 5060 fun _ => 7) pre) m₀ post m ∧
        ∃ heard : List (Int × RtpPacket), (heard.map Prod.fst).Pairwise (· < ·) ∧
          heard.Subperm (Run.collect MediaSession.step MediaSession.accepted m₀
            (Run.collect step sessionActions (Run.final step (boot {} 5060 fun _ => 7) pre)
              post)) ∧
          (∀ h ∈ heard, h.1 % 65536 = h.2.sequence.toNat) ∧
          List.Forall₂ m₀.SameAudio (heard.map Prod.snd)
            (Run.collect step echoed (Run.final step (boot {} 5060 fun _ => 7) pre) post) := by
  refine ⟨by decide +kernel, ?_⟩
  have hup : (Run.final step (boot {} 5060 fun _ => 7) sampleCall).media.isSome = true := by
    decide +kernel
  obtain ⟨m, hm⟩ := Option.isSome_iff_exists.mp hup
  obtain ⟨pre, post, m₀, h⟩ := heard_since_start {} 5060 (fun _ => 7) sampleCall hm
  exact ⟨pre, post, m₀, m, h⟩

/-! ## hanging up -/

/-- The events that are a turn of the output loop. -/
def outputEvents (es : List Event) : Nat :=
  es.countP fun
    | .output _ => true
    | .signal _ | .recv _ _ | .playout | .join _ => false

theorem outputEvents_cons (e : Event) (es : List Event) :
    outputEvents (e :: es) = outputEvents [e] + outputEvents es := by
  rw [outputEvents, ← List.singleton_append, List.countP_append]
  rfl

/-- While the main thread waits, only the loops of the session go on. -/
theorem step_joining {replacement : Option MediaSession} (hj : s.control = .joining replacement)
    {e : Event} (he : e ≠ .join true) :
    (s.step e).control = .joining replacement ∧ s.handled e = [] ∧
      MediaSession.outputTurns (s.sessionActions e) = outputEvents [e] := by
  cases e with
  | signal dg =>
      have hnone : s.handled (.signal dg) = [] := by simp [handled, hj]
      refine ⟨?_, hnone, by simp [sessionActions, hj, outputEvents, MediaSession.outputTurns]⟩
      rw [step, act, signal_of_not_handled hnone]
      exact hj
  | recv dg nowSec | playout | output connected =>
      exact ⟨(turn_control s _).trans hj, rfl, by simp [sessionActions, hj, outputEvents,
        MediaSession.outputTurns]⟩
  | join wsClosed =>
      obtain rfl : wsClosed = false := by simpa using he
      refine ⟨?_, rfl, rfl⟩
      simp only [step, act, join, hj]
      split <;> simp_all

/-- The wait of the main thread, as a run of the session that is hung up. -/
theorem run_joining {replacement : Option MediaSession} (hj : s.control = .joining replacement)
    (hm : s.media = some m) {es : List Event} (hes : .join true ∉ es) :
    ∃ acts, MediaSession.outputTurns acts = outputEvents es ∧
      (Run.final step s es).control = .joining replacement ∧
      (Run.final step s es).media = some (Run.final MediaSession.step m acts) ∧
      Run.collect step handled s es = [] ∧
      Run.collect step echoed s es = Run.collect MediaSession.step MediaSession.sent m acts := by
  induction es generalizing s m with
  | nil => exact ⟨[], rfl, hj, hm, rfl, rfl⟩
  | cons e es ih =>
      obtain ⟨hne, hrest⟩ := not_or.mp (List.mem_cons.not.mp hes)
      obtain ⟨hj', hh, hturns⟩ := step_joining hj (Ne.symm hne)
      obtain ⟨hsent, hm' | ⟨_, rfl, _⟩⟩ := step_session hm e
      · obtain ⟨acts, hacts, hcontrol, hmedia, hhandled, hechoed⟩ := ih hj' hm' hrest
        refine ⟨s.sessionActions e ++ acts, ?_, hcontrol, by rw [Run.final_append, ← hmedia]; rfl,
          by rw [Run.collect_cons, hh, hhandled]; rfl, ?_⟩
        · rw [outputEvents_cons, ← hturns, ← hacts]
          exact List.countP_append
        · rw [Run.collect_cons, hsent, hechoed, Run.collect_append]
      · exact absurd rfl hne

/-- **Hanging up**: while the main thread waits for a session, it handles no
request, and however often it looks it waits on, until the output loop has taken
as many turns as there were packets queued and the gateway's connection is
closed.  By then all of these packets have been echoed, in order and with
nothing in between. -/
theorem drained_before_next (c : Config) (sipLocalPort : UInt16) (rng : Stream' UInt32)
    (es wait : List Event) {replacement : Option MediaSession}
    (hj : (Run.final step (boot c sipLocalPort rng) es).control = .joining replacement)
    (hwait : .join true ∉ wait) (wsClosed : Bool) :
    let s := Run.final step (boot c sipLocalPort rng) es
    ∃ m, s.media = some m ∧ Run.collect step handled s wait = [] ∧
      ((Run.final step s (wait ++ [.join wsClosed])).control = .serving ↔
        m.queue.size ≤ outputEvents wait ∧ wsClosed = true) ∧
      (m.queue.size ≤ outputEvents wait →
        m.toEchoStream.Echoes m.queue.q (Run.collect step echoed s wait)) := by
  intro s
  obtain ⟨m, hm, hclosed⟩ := (orderly_run (orderly_boot c sipLocalPort rng) es).closed _ hj
  obtain ⟨acts, hacts, hcontrol, hmedia, hhandled, hechoed⟩ := run_joining hj hm hwait
  obtain ⟨hfifo, hechoes, hsize⟩ := MediaSession.drain hclosed acts
  have hclosed' : (Run.final MediaSession.step m acts).queue.closed = true :=
    Run.final_of_preserved (fun m : MediaSession => m.queue.closed = true)
      (fun _ a h => MediaSession.closed_step h a) hclosed acts
  have hempty : (Run.final MediaSession.step m acts).queue.q = [] ↔
      m.queue.size ≤ outputEvents wait := by
    rw [← List.length_eq_zero_iff]
    show (Run.final MediaSession.step m acts).queue.size = 0 ↔ _
    rw [hsize, hacts, Nat.sub_eq_zero_iff_le]
  refine ⟨m, hm, hhandled, ?_, fun hle => ?_⟩
  · rw [Run.final_append, Run.final_cons, Run.final_nil, ← hempty]
    by_cases hdone : (Run.final MediaSession.step m acts).queue.q = [] ∧ wsClosed = true
    · simp [step, act, join, hcontrol, hmedia, hclosed', hdone, s]
    · simp [step, act, join, hcontrol, hmedia, hclosed', hdone, s]
  · rw [hempty.mpr hle, List.append_nil] at hfifo
    rw [hechoed, hfifo]
    exact hechoes

/-- The sample call is hung up while a packet is queued. -/
def sampleHangup : List Event := samplePlayed ++ [sampleSignal "BYE" "2 BYE" "z9hG4bK2" []]

/-- The main thread looks before the output loop has its turn. -/
def sampleWait : List Event := [.join false, .output true]

theorem drained_before_next_sampleHangup :
    let s := Run.final step (boot {} 5060 fun _ => 7) sampleHangup
    (s.media.map fun m => m.queue.size) = some 1 ∧
      (Run.final step s (sampleWait ++ [.join true])).control = .serving ∧
      ∃ m, s.media = some m ∧ Run.collect step handled s sampleWait = [] ∧
        m.toEchoStream.Echoes m.queue.q (Run.collect step echoed s sampleWait) := by
  intro s
  have hone : (s.media.map fun m => m.queue.size) = some 1 := by decide +kernel
  cases hj : s.control with
  | joining replacement =>
      obtain ⟨m, hm, hhandled, hends, hechoes⟩ :=
        drained_before_next {} 5060 (fun _ => 7) sampleHangup sampleWait hj (by simp [sampleWait])
          true
      have hqueued : m.queue.size ≤ outputEvents sampleWait := by
        rw [hm, Option.map_some, Option.some.injEq] at hone
        exact hone.le
      exact ⟨hone, hends.mpr ⟨hqueued, rfl⟩, m, hm, hhandled, hechoes hqueued⟩
  | serving | terminated =>
      have hwaits : (match s.control with
          | .joining _ => true
          | .serving | .terminated => false) = true := by
        decide +kernel
      rw [hj] at hwaits
      cases hwaits

end SipDemo.Server
