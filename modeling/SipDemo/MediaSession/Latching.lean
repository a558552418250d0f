import SipDemo.MediaSession.Echo

/-!
# SipDemo.MediaSession.Latching

Where the echo goes.  The session latches onto the sender of the first RTP
packet, and from then on the comment in `latchRemoteIfNeeded` allows for a
changed source port only.  The code takes over the whole endpoint: the remote
is always the sender of the latest RTP packet (`remote_step`), so its address
stays the first one's exactly when every RTP packet comes from there
(`remote_ip_fixed_iff`).
-/

namespace SipDemo.MediaSession

/-- The sender of a datagram that parses as RTP. -/
def rtpSender : Action → List Endpoint
  | .recv dg _ => if (RtpPacket.parseBuf dg.data).isSome then [dg.sender] else []
  | .playout | .output _ | .stop => []

/-- The senders of the RTP packets among the actions. -/
def rtpSenders (as : List Action) : List Endpoint := as.flatMap rtpSender

@[simp] theorem latch_remote (s : MediaSession) (sender : Endpoint) :
    (s.latchRemoteIfNeeded sender).remote = sender := by
  unfold latchRemoteIfNeeded
  split_ifs with hlatched hmoved
  · rfl
  · rfl
  · exact (not_not.mp hmoved).symm

@[simp] theorem latch_remoteLatched (s : MediaSession) (sender : Endpoint) :
    (s.latchRemoteIfNeeded sender).remoteLatched = true := by
  unfold latchRemoteIfNeeded
  split_ifs with hlatched hmoved
  · rfl
  · simpa using hlatched
  · simpa using hlatched

/-- What an action does to the remote: an RTP packet makes its sender the
remote, everything else leaves it alone. -/
theorem remote_step (s : MediaSession) (a : Action) :
    rtpSender a = [] ∧ (s.step a).remote = s.remote ∧
        (s.step a).remoteLatched = s.remoteLatched ∨
      ∃ sender, rtpSender a = [sender] ∧ (s.step a).remote = sender ∧
        (s.step a).remoteLatched = true := by
  cases a with
  | recv dg nowSec =>
      rcases s.recv_cases dg nowSec with
        ⟨hnone, hrecv⟩ | ⟨pkt, hsome, ⟨_, hrecv⟩ | ⟨_, hrecv⟩⟩
      · refine .inl ?_
        simp [rtpSender, step, act, hnone, hrecv]
      · refine .inr ⟨dg.sender, ?_⟩
        simp [rtpSender, step, act, hsome, hrecv, feedDtmf]
      · refine .inr ⟨dg.sender, ?_⟩
        simp [rtpSender, step, act, hsome, hrecv, feedVoice]
  | playout =>
      refine .inl ⟨rfl, ?_⟩
      simp only [step, act, playout]
      split <;> exact ⟨rfl, rfl⟩
  | output connected =>
      refine .inl ⟨rfl, ?_⟩
      simp only [step, act, output]
      split <;> exact ⟨rfl, rfl⟩
  | stop =>
      refine .inl ⟨rfl, ?_⟩
      simp only [step, act, stop]
      split <;> exact ⟨rfl, rfl⟩

/-- Once latched, an action leaves the address of the remote as it is. -/
def KeepsIp (s : MediaSession) (a : Action) : Prop :=
  s.remoteLatched = true → (s.step a).remote.ip = s.remote.ip

/-- From a latched session on: the address stays exactly when every RTP packet
comes from it. -/
theorem keepsIp_of_latched {s : MediaSession} (hlatched : s.remoteLatched = true)
    (as : List Action) :
    Run.Always step KeepsIp s as ↔ ∀ e ∈ rtpSenders as, e.ip = s.remote.ip := by
  induction as generalizing s with
  | nil => simp [rtpSenders]
  | cons a as ih =>
      rw [Run.always_cons, rtpSenders, List.flatMap_cons, List.forall_mem_append, ← rtpSenders]
      obtain ⟨hnone, hremote, hsame⟩ | ⟨sender, hsome, hremote, hlatched'⟩ := s.remote_step a
      · rw [ih (hsame.trans hlatched), KeepsIp, hnone, hremote]
        simp
      · rw [ih hlatched', KeepsIp, hsome, hremote, List.forall_mem_singleton]
        constructor
        · intro ⟨hip, hrest⟩
          exact ⟨hip hlatched, fun e he => (hrest e he).trans (hip hlatched)⟩
        · intro ⟨hip, hrest⟩
          exact ⟨fun _ => hip, fun e he => (hrest e he).trans hip.symm⟩

/-- **Latching**: in a session that has just started, the address of the remote
never changes once it is latched exactly when all RTP packets come from the
address of the first one. -/
theorem remote_ip_fixed_iff (s : MediaSession) (remote : Endpoint)
    (payloadType dtmfPayloadType : Int) (as : List Action) :
    Run.Always step KeepsIp (s.start remote payloadType dtmfPayloadType) as ↔
      ∀ first ∈ (rtpSenders as).head?, ∀ e ∈ rtpSenders as, e.ip = first.ip := by
  have hunlatched : (s.start remote payloadType dtmfPayloadType).remoteLatched = false := rfl
  generalize s.start remote payloadType dtmfPayloadType = s' at hunlatched ⊢
  induction as generalizing s' with
  | nil => simp [rtpSenders]
  | cons a as ih =>
      have hkeeps : KeepsIp s' a := fun h => absurd (hunlatched.symm.trans h) (by decide)
      rw [Run.always_cons, rtpSenders, List.flatMap_cons, ← rtpSenders]
      obtain ⟨hnone, _, hsame⟩ | ⟨sender, hsome, hremote, hlatched⟩ := s'.remote_step a
      · rw [hnone, List.nil_append]
        exact (and_iff_right hkeeps).trans (ih _ (hsame.trans hunlatched))
      · rw [keepsIp_of_latched hlatched, hsome, hremote, List.singleton_append]
        simp [hkeeps]

/-- A packet from another address. -/
def hijack : List Action :=
  let packet (sender : Endpoint) : Action := .recv { data := ({} : RtpPacket).serialize, sender } 0
  [packet { ip := str "10.0.0.2", port := 5000 }, packet { ip := str "6.6.6.6", port := 7000 }]

/-- The second packet redirects the echo. -/
theorem remote_ip_changed_hijack :
    ¬ ∀ (s : MediaSession) (remote : Endpoint) (payloadType dtmfPayloadType : Int)
      (as : List Action),
      Run.Always step KeepsIp (s.start remote payloadType dtmfPayloadType) as := by
  intro h
  have hkeeps := (h make {} 0 (-1) hijack).2.1 rfl
  exact absurd hkeeps (by decide +kernel)

end SipDemo.MediaSession
