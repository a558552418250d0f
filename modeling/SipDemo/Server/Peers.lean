import SipDemo.MediaSession.Contents
import SipDemo.MediaSession.Latching
import SipDemo.Server.Sessions

/-!
# SipDemo.Server.Peers

Whom the process sends to.  A response goes to the sender of its request.  An RTP
packet goes to the sender of the last RTP packet that the session received
(`sends_where_heard`): a session echoes nothing before it received something,
and from then on its remote address is a latched one.  The address that the
offer names is never sent to unless packets come from it.
-/

namespace SipDemo

namespace MediaSession

/-- The addresses that an action sends RTP to. -/
def peers (s : MediaSession) (a : Action) : List Endpoint :=
  (s.act a).2.filterMap fun
    | .sendTo _ remote => some remote
    | .sendBinary _ | .sendText _ => none

/-- After packets from `heard`: the remote address is the last of these, and a
session that has heard nothing holds nothing. -/
structure Latched (heard : List Endpoint) (s : MediaSession) : Prop where
  inv : s.jitter.Inv
  unheard : s.remoteLatched = false → s.weight (fun _ => 1) = 0
  remote_eq : s.remoteLatched = true → heard.getLast? = some s.remote

variable {s : MediaSession} {heard : List Endpoint}

theorem peers_eq (s : MediaSession) (a : Action) :
    s.peers a = (s.sent a).map fun _ => s.remote := by
  cases a with
  | recv dg nowSec =>
      rcases s.recv_cases dg nowSec with ⟨_, hrecv⟩ | ⟨pkt, _, ⟨_, hrecv⟩ | ⟨_, hrecv⟩⟩
      · simp [peers, sent, act, hrecv]
      · simp [peers, sent, act, hrecv, feedDtmf]
      · simp [peers, sent, act, hrecv]
  | playout | stop => rfl
  | output connected =>
      simp only [peers, sent, act, output]
      split
      · rfl
      · rfl
      · simp only [emit, List.filterMap_append, List.map_append]
        split <;> rfl

/-- Voice comes with an RTP packet, and such an action echoes nothing. -/
theorem voice_or_quiet (s : MediaSession) (a : Action) : s.voice a = [] ∨ s.sent a = [] := by
  cases a with
  | recv dg nowSec => exact .inr (s.recv_frame dg nowSec).2.2.2
  | playout | output connected | stop => exact .inl rfl

theorem voice_of_unheard {a : Action} (h : rtpSender a = []) : s.voice a = [] := by
  cases a with
  | recv dg nowSec =>
      cases hparse : RtpPacket.parseBuf dg.data with
      | none => simp [voice, hparse]
      | some pkt => simp [rtpSender, hparse] at h
  | playout | output connected | stop => rfl

theorem latched_start (remote : Endpoint) (payloadType dtmfPayloadType : Int)
    (heard : List Endpoint) : Latched heard (make.start remote payloadType dtmfPayloadType) where
  inv := JitterBuffer.inv_fresh { targetDepth := 3, capacity := 100 }
  unheard _ := rfl
  remote_eq h := absurd h Bool.false_ne_true

theorem Latched.step (h : Latched heard s) (a : Action) :
    Latched (heard ++ rtpSender a) (s.step a) where
  inv := by
    rw [jitter_step]
    exact Run.final_of_preserved JitterBuffer.Inv (fun _ op hjb => JitterBuffer.step_inv op hjb)
      h.inv _
  unheard hfree := by
    rcases s.remote_step a with ⟨hnone, _, hlatched⟩ | ⟨_, _, _, hlatched⟩
    · have hweight := weight_step (fun _ => 1) h.inv a
      rw [voice_of_unheard hnone, h.unheard (hlatched.symm.trans hfree)] at hweight
      simp only [List.map_nil, List.sum_nil] at hweight
      omega
    · exact absurd (hlatched.symm.trans hfree) (by simp)
  remote_eq hlatched := by
    rcases s.remote_step a with ⟨hnone, hremote, hsame⟩ | ⟨sender, hone, hremote, _⟩
    · rw [hnone, List.append_nil, hremote]
      exact h.remote_eq (hsame.symm.trans hlatched)
    · rw [hone, hremote, List.getLast?_concat]

/-- What is sent goes to the last sender. -/
theorem Latched.peers (h : Latched heard s) (a : Action) :
    ∀ peer ∈ s.peers a, heard.getLast? = some peer := by
  intro peer hpeer
  rw [peers_eq, List.mem_map] at hpeer
  obtain ⟨out, hout, rfl⟩ := hpeer
  cases hlatched : s.remoteLatched with
  | true => exact h.remote_eq hlatched
  | false =>
      -- nothing is held, so nothing is echoed
      have hvoice : s.voice a = [] :=
        (s.voice_or_quiet a).resolve_right (List.ne_nil_of_mem hout)
      have hweight := weight_step (fun _ => 1) h.inv a
      rw [hvoice, h.unheard hlatched] at hweight
      have hboth : s.sources a = [] ∧ weight (fun _ => 1) (s.step a) = 0 := by
        simpa using hweight
      rw [(echo_step s a).2, hboth.1] at hout
      exact absurd hout List.not_mem_nil

end MediaSession

/-! ## the process -/

namespace Server

open MediaSession (Latched)

/-- The sender of an RTP packet that a session receives. -/
def rtpHeard (s : Server) (e : Event) : List Endpoint :=
  if s.media.isSome then (s.sessionActions e).flatMap MediaSession.rtpSender else []

/-- Where an output goes, when the RTP packets so far came from `heard`: a
response back to the sender of this datagram, a packet to the last sender. -/
def Addressed (heard : List Endpoint) (e : Event) : Output → Prop
  | .respond _ peer => ∃ dg, e = .signal dg ∧ peer = dg.sender
  | .media (.sendTo _ remote) => heard.getLast? = some remote
  | .media (.sendBinary _) | .media (.sendText _) => True

variable {s : Server} {heard : List Endpoint}

theorem latched_of_started {m : MediaSession} (h : Started m) : Latched heard m := by
  obtain ⟨remote, payloadType, dtmfPayloadType, rfl⟩ := h
  exact MediaSession.latched_start remote payloadType dtmfPayloadType heard

theorem latched_actions {m : MediaSession} (h : Latched heard m)
    (actions : List MediaSession.Action) :
    Latched (heard ++ actions.flatMap MediaSession.rtpSender)
      (Run.final MediaSession.step m actions) := by
  induction actions generalizing heard m with
  | nil => simpa using h
  | cons a actions ih => simpa using ih (h.step a)

/-- Every session is latched to the last sender, or has heard nothing. -/
theorem latched_step (ho : Orderly s) (h : ∀ m ∈ s.media, Latched heard m) (e : Event) :
    ∀ m ∈ (s.step e).media, Latched (heard ++ s.rtpHeard e) m := by
  intro m' hm'
  cases hm : s.media with
  | none => exact latched_of_started (started_of_step hm' hm)
  | some m =>
      obtain ⟨_, hnext | ⟨replacement, rfl, hj, _, _, hstep⟩⟩ := step_session hm e
      · rw [hnext, Option.mem_some_iff] at hm'
        rw [← hm', rtpHeard, if_pos (by simp [hm])]
        exact latched_actions (h m hm) _
      · rw [hstep] at hm'
        exact latched_of_started (ho.replacement m' (hj.trans (congrArg Control.joining hm')))

theorem addressed_turn (h : ∀ m ∈ s.media, Latched heard m) (a : MediaSession.Action) (e : Event) :
    ∀ out ∈ (s.turn a).2, Addressed heard e out := by
  intro out hout
  cases hm : s.media with
  | none => simp [turn_of_none hm] at hout
  | some m =>
      by_cases ht : s.control = .terminated
      · simp [turn_of_terminated ht] at hout
      · rw [turn_of_session hm ht, List.mem_map] at hout
        obtain ⟨effect, heffect, rfl⟩ := hout
        cases effect with
        | sendTo out remote =>
            exact (h m hm).peers a remote (List.mem_filterMap.mpr ⟨_, heffect, rfl⟩)
        | sendBinary pcm16 | sendText json => trivial

theorem addressed_outputs (h : ∀ m ∈ s.media, Latched heard m) (e : Event) :
    ∀ out ∈ s.outputs e, Addressed heard e out := by
  intro out hout
  cases e with
  | signal dg =>
      rw [outputs, act] at hout
      unfold signal at hout
      split at hout
      · split at hout
        · exact absurd hout List.not_mem_nil
        · obtain ⟨resp, _, rfl⟩ := List.mem_map.mp hout
          exact ⟨dg, rfl, rfl⟩
      · exact absurd hout List.not_mem_nil
      · exact absurd hout List.not_mem_nil
  | recv dg nowSec | playout | output connected => exact addressed_turn h _ _ out hout
  | join wsClosed => exact absurd hout List.not_mem_nil

theorem latched_run (c : Config) (sipLocalPort : UInt16) (rng : Stream' UInt32)
    (es : List Event) :
    Orderly (Run.final step (boot c sipLocalPort rng) es) ∧
      ∀ m ∈ (Run.final step (boot c sipLocalPort rng) es).media,
        Latched (Run.collect step rtpHeard (boot c sipLocalPort rng) es) m := by
  induction es using List.reverseRecOn with
  | nil => exact ⟨orderly_boot c sipLocalPort rng, by simp [boot]⟩
  | append_singleton es e ih =>
      simp only [Run.final_append, Run.final_cons, Run.final_nil, Run.collect_append,
        Run.collect_cons, Run.collect_nil, List.append_nil]
      exact ⟨ih.1.step e, latched_step ih.1 ih.2 e⟩

/-- **Nothing is sent unasked**: after any run of the process, whatever happens
next, each response goes to the sender of the request at hand, and each RTP
packet to the sender of the last RTP packet that a session received. -/
theorem sends_where_heard (c : Config) (sipLocalPort : UInt16) (rng : Stream' UInt32)
    (es : List Event) (e : Event) :
    ∀ out ∈ (Run.final step (boot c sipLocalPort rng) es).outputs e,
      Addressed (Run.collect step rtpHeard (boot c sipLocalPort rng) es) e out :=
  addressed_outputs (latched_run c sipLocalPort rng es).2 e

def isResponse : Output → Bool
  | .respond _ _ => true
  | .media _ => false

/-- The BYE that hangs up the sample call. -/
def sampleBye : Event := sampleSignal "BYE" "2 BYE" "z9hG4bK2" []

/-- The packet echoed in the sample call goes to the peer whose packets came, and
the response to the BYE to the sender of the BYE. -/
theorem sends_where_heard_sampleCall :
    (∃ out remote, .media (.sendTo out remote) ∈
        (Run.final step (boot {} 5060 fun _ => 7) samplePlayed).outputs (.output true) ∧
      (Run.collect step rtpHeard (boot {} 5060 fun _ => 7) samplePlayed).getLast? = some remote) ∧
    ∃ wire peer, .respond wire peer ∈
        (Run.final step (boot {} 5060 fun _ => 7) sampleCall).outputs sampleBye ∧
      peer = samplePeer := by
  constructor
  · have hechoed : ((Run.final step (boot {} 5060 fun _ => 7) samplePlayed).echoed
        (.output true)).isEmpty = false := by
      decide +kernel
    obtain ⟨out, hout⟩ := List.isEmpty_eq_false_iff_exists_mem.mp hechoed
    rw [echoed, List.mem_filterMap] at hout
    obtain ⟨effect, heffect, hsent⟩ := hout
    have haddressed := sends_where_heard {} 5060 (fun _ => 7) samplePlayed (.output true) _ heffect
    cases effect with
    | respond wire peer => simp at hsent
    | media effect =>
        cases effect with
        | sendTo out remote => exact ⟨out, remote, heffect, haddressed⟩
        | sendBinary pcm16 | sendText json => simp at hsent
  · have hanswered : ((Run.final step (boot {} 5060 fun _ => 7) sampleCall).outputs
        sampleBye).any isResponse = true := by
      decide +kernel
    obtain ⟨out, hout, hrespond⟩ := List.any_eq_true.mp hanswered
    have haddressed := sends_where_heard {} 5060 (fun _ => 7) sampleCall sampleBye _ hout
    cases out with
    | media effect => simp [isResponse] at hrespond
    | respond wire peer =>
        obtain ⟨dg, hbye, rfl⟩ := haddressed
        exact ⟨wire, dg.sender, hout, (congrArg Datagram.sender (Event.signal.inj hbye)).symm⟩

end Server

end SipDemo
