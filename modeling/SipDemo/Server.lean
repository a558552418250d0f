import SipDemo.MediaSession
import SipDemo.SipUas.Transition

/-!
# SipDemo.Server

The process (`main` in `main.cpp`).  The main thread turns the datagrams of the
SIP socket into responses and media commands; the threads of the session run
beside it.  A run of the process interleaves the two, so an `Event` is either a
datagram for the main thread or a loop body of the session.

Three things that the code leaves to the system are spelled out:

* `recvFrom` hands over at most 2048 bytes of a datagram;
* `bind` throws on a port that a socket of the process holds, and nothing in
  `main` catches it;
* the destructor of a session waits for its threads and then for the reader of
  the gateway's connection (`ws_.close()`), and the main thread with it: it
  answers nothing until then.  When the reader ends is up to the connection
  (`WsClient.Threads.close_ends`), so it is an input here.

The other calls that could throw (`select`, `recvfrom`, `sendto`, the creation
of a thread) are taken to succeed.
-/

namespace SipDemo

/-- `Config` of `main.cpp`.  What the gateway's URL is for is an input of the
output loop: whether the gateway is connected. -/
structure Config where
  ip : Str := str "127.0.0.1"
  sipPort : UInt16 := 5060
  rtpPort : UInt16 := 40000

/-- `SipUas::Config{cfg.ip, cfg.sipPort, cfg.rtpPort, "sipdemo/0.1"}`. -/
def Config.uas (c : Config) : UasConfig :=
  { localIp := c.ip, sipPort := c.sipPort, rtpPort := c.rtpPort, userAgent := str "sipdemo/0.1" }

/-- `UdpSocket::recvFrom`: the part of a datagram that fits `buf`. -/
def recvFrom (dg : Datagram) : Datagram := { dg with data := dg.data.take 2048 }

/-- The signaling loop's `parseSip` and its test for a request. -/
def request (dg : Datagram) : Option SipMessage :=
  (parseSip (recvFrom dg).data).filter (·.isRequest)

/-- What the main thread is doing. -/
inductive Control where
  | serving
  /-- in the destructor of the session; `replacement` is what `media` holds next -/
  | joining (replacement : Option MediaSession)
  | terminated

structure Server where
  uas : SipUas
  /-- the port the SIP socket is bound to -/
  sipLocalPort : UInt16
  media : Option MediaSession := none
  control : Control := .serving

/-- What the process sends: a response, or an effect of the session. -/
inductive Output where
  | respond (wire : Str) (peer : Endpoint)
  | media (effect : Effect)

/-- What happens next: a datagram on the SIP socket, a loop body of the session,
or the main thread looks whether what it waits for is over; `wsClosed` says
whether `ws_.close()`, the last step of `stop`, has come to its end by then. -/
inductive Event where
  | signal (dg : Datagram)
  | recv (dg : Datagram) (nowSec : ℚ)
  | playout
  | output (connected : Bool)
  | join (wsClosed : Bool)

namespace Server

/-- The start of `main`, once the SIP socket is bound. -/
def boot (c : Config) (sipLocalPort : UInt16) (rng : Stream' UInt32) : Server :=
  { uas := .fresh c.uas [] rng, sipLocalPort }

/-- The constructor of a new session throws.  Port 0 lets the system choose. -/
def bindFails (s : Server) : Bool :=
  s.uas.cfg.rtpPort != 0 && (s.uas.cfg.rtpPort == s.sipLocalPort || s.media.isSome)

/-- Assigning to `media`: a session that is there is destroyed first, which
calls `stop` and waits. -/
def replace (s : Server) (replacement : Option MediaSession) : Server :=
  match s.media with
  | none => { s with media := replacement }
  | some old => { s with media := some old.stop, control := .joining replacement }

/-- The media command of a result. -/
def command (s : Server) (res : UasResult) : Server :=
  match res.media with
  | .none => s
  | .start =>
      if s.bindFails then { s with control := .terminated }
      else s.replace
        (some (MediaSession.make.start res.remoteRtp res.payloadType res.dtmfPayloadType))
  | .stop => s.replace none

/-- One turn of the signaling loop. -/
def signal (s : Server) (dg : Datagram) : Server × List Output :=
  match s.control with
  | .serving =>
      match request dg with
      | none => (s, [])
      | some msg =>
          let (res, uas) := s.uas.handle msg
          ({ s with uas }.command res,
            res.responses.map fun resp => .respond resp.serialize dg.sender)
  | .joining _ | .terminated => (s, [])

/-- A loop body of the session. -/
def turn (s : Server) (a : MediaSession.Action) : Server × List Output :=
  match s.control, s.media with
  | .terminated, _ | _, none => (s, [])
  | _, some session =>
      let (session, effects) := session.act a
      ({ s with media := some session }, effects.map .media)

/-- `stop` is over once the output loop has drained the closed queue, which ends
the last of the threads, and the gateway's connection is closed. -/
def join (s : Server) (wsClosed : Bool) : Server :=
  match s.control, s.media with
  | .joining replacement, some session =>
      if session.queue.closed ∧ session.queue.q = [] ∧ wsClosed then
        { s with media := replacement, control := .serving }
      else s
  | _, _ => s

def act (s : Server) : Event → Server × List Output
  | .signal dg => s.signal dg
  | .recv dg nowSec => s.turn (.recv (recvFrom dg) nowSec)
  | .playout => s.turn .playout
  | .output connected => s.turn (.output connected)
  | .join wsClosed => (s.join wsClosed, [])

def step (s : Server) (e : Event) : Server := (s.act e).1

def outputs (s : Server) (e : Event) : List Output := (s.act e).2

/-! ## what an event is to the parts -/

/-- The requests handed to the user agent server. -/
def handled (s : Server) : Event → List SipMessage
  | .signal dg =>
      match s.control with
      | .serving => (request dg).toList
      | .joining _ | .terminated => []
  | .recv _ _ | .playout | .output _ | .join _ => []

@[simp] theorem replace_uas (s : Server) (replacement : Option MediaSession) :
    (s.replace replacement).uas = s.uas := by
  unfold replace
  split <;> rfl

@[simp] theorem replace_sipLocalPort (s : Server) (replacement : Option MediaSession) :
    (s.replace replacement).sipLocalPort = s.sipLocalPort := by
  unfold replace
  split <;> rfl

@[simp] theorem command_uas (s : Server) (res : UasResult) : (s.command res).uas = s.uas := by
  unfold command
  split
  · rfl
  · split <;> simp
  · simp

@[simp] theorem command_sipLocalPort (s : Server) (res : UasResult) :
    (s.command res).sipLocalPort = s.sipLocalPort := by
  unfold command
  split
  · rfl
  · split <;> simp
  · simp

@[simp] theorem turn_uas (s : Server) (a : MediaSession.Action) : (s.turn a).1.uas = s.uas := by
  unfold turn
  split <;> rfl

@[simp] theorem turn_sipLocalPort (s : Server) (a : MediaSession.Action) :
    (s.turn a).1.sipLocalPort = s.sipLocalPort := by
  unfold turn
  split <;> rfl

@[simp] theorem turn_control (s : Server) (a : MediaSession.Action) :
    (s.turn a).1.control = s.control := by
  unfold turn
  split <;> rfl

@[simp] theorem turn_media_isSome (s : Server) (a : MediaSession.Action) :
    (s.turn a).1.media.isSome = s.media.isSome := by
  unfold turn
  split <;> simp_all

@[simp] theorem join_uas (s : Server) (wsClosed : Bool) : (s.join wsClosed).uas = s.uas := by
  unfold join
  split
  · split <;> rfl
  · rfl

@[simp] theorem join_sipLocalPort (s : Server) (wsClosed : Bool) :
    (s.join wsClosed).sipLocalPort = s.sipLocalPort := by
  unfold join
  split
  · split <;> rfl
  · rfl

/-- While it serves, the main thread handles a request and obeys its media
command. -/
theorem signal_of_request {s : Server} {dg : Datagram} {m : SipMessage}
    (hs : s.control = .serving) (hm : request dg = some m) :
    s.signal dg = ({ s with uas := s.uas.next m }.command (s.uas.handle m).1,
      (s.uas.handle m).1.responses.map fun resp => .respond resp.serialize dg.sender) := by
  simp [signal, hs, hm, SipUas.next]

/-- Anything else on the SIP socket, and anything at all while it waits, has
no effect. -/
theorem signal_of_not_handled {s : Server} {dg : Datagram} (h : s.handled (.signal dg) = []) :
    s.signal dg = (s, []) := by
  cases hs : s.control with
  | serving =>
      simp only [handled, hs, Option.toList_eq_nil_iff] at h
      simp [signal, hs, h]
  | joining replacement => simp [signal, hs]
  | terminated => simp [signal, hs]

/-- An event is a request for the main thread, or it leaves the user agent
server alone. -/
theorem handled_cases (s : Server) (e : Event) :
    (∃ dg m, e = .signal dg ∧ s.control = .serving ∧ request dg = some m ∧ s.handled e = [m]) ∨
      s.handled e = [] ∧ (s.step e).uas = s.uas := by
  cases e with
  | signal dg =>
      cases hs : s.control with
      | serving =>
          cases hm : request dg with
          | none =>
              have hh : s.handled (.signal dg) = [] := by simp [handled, hs, hm]
              exact .inr ⟨hh, by rw [step, act, signal_of_not_handled hh]⟩
          | some m => exact .inl ⟨dg, m, rfl, rfl, hm, by simp [handled, hs, hm]⟩
      | joining replacement => exact .inr ⟨by simp [handled, hs], by simp [step, act, signal, hs]⟩
      | terminated => exact .inr ⟨by simp [handled, hs], by simp [step, act, signal, hs]⟩
  | recv dg nowSec => exact .inr ⟨rfl, turn_uas s _⟩
  | playout => exact .inr ⟨rfl, turn_uas s _⟩
  | output connected => exact .inr ⟨rfl, turn_uas s _⟩
  | join wsClosed => exact .inr ⟨rfl, join_uas s wsClosed⟩

/-- A request for the main thread is one for the user agent server. -/
theorem uas_of_request {s : Server} {dg : Datagram} {m : SipMessage}
    (hs : s.control = .serving) (hm : request dg = some m) :
    (s.step (.signal dg)).uas = s.uas.next m := by
  rw [step, act, signal_of_request hs hm, command_uas]

/-! ## sample events -/

/-- The sender of the sample requests. -/
def samplePeer : Endpoint := { ip := str "10.0.0.9", port := 5060 }

/-- A datagram that holds a sample request of one call. -/
def sampleSignal (method cseq branch : String) (body : Str) : Event :=
  .signal
    { data := (SipUas.sampleRequest method "a84b4c76" cseq branch body).serialize
      sender := samplePeer }

end Server

end SipDemo
