import SipDemo.BoundedQueue
import SipDemo.Codec
import SipDemo.JitterBuffer
import SipDemo.Rfc4733
import SipDemo.RtpStats
import SipDemo.SipUas

/-!
# SipDemo.MediaSession

The media pipeline of one call (`main.cpp`): the receive, playout and output
loops and the state they share.

A loop body is one step.  What it reads from outside is its input: the
datagram and the clock for `recvLoop`, whether the gateway is connected for
`outputLoop`.  What it does outside is an effect.  The bodies run whether or
not the session is still active, as the last turn of a loop may.

That the bodies do not run into each other is an assumption: `recvLoop` inserts
into the jitter buffer and `playoutLoop` pops from it on another thread, and the
source guards neither with a mutex.
-/

namespace SipDemo

/-- The echo stream: the codec and the counters of the packets sent back. -/
structure EchoStream where
  payloadType : Int := 0
  outSsrc : UInt32 := 0
  outSeq : UInt16 := 0
  outTs : UInt32 := 0

structure MediaSession extends EchoStream where
  remote : Endpoint := {}
  remoteLatched : Bool := false
  dtmfPayloadType : Int := -1
  active : Bool := false
  queue : BoundedQueue RtpPacket
  jitter : JitterBuffer
  rtpStats : RtpStats := {}
  dtmf : DtmfDecoder := {}

/-- `UdpSocket.h`: a received datagram and its sender. -/
structure Datagram where
  data : List UInt8
  sender : Endpoint

/-- What a loop body does outside the session.  A packet is handed to `sendTo`
in its wire form, the samples to `sendBinary` in the host's memory layout. -/
inductive Effect where
  | sendTo (out : RtpPacket) (remote : Endpoint)
  | sendBinary (pcm16 : List Int16)
  | sendText (json : Str)

namespace EchoStream

/-- The session's codec: payload type 8 is A-law, any other is mu-law. -/
def decode (s : EchoStream) (codes : List UInt8) : List Int16 :=
  if s.payloadType = 8 then G711.decodeALawBulk codes else G711.decodeMuLawBulk codes

def encode (s : EchoStream) (pcm : List Int16) : List UInt8 :=
  if s.payloadType = 8 then G711.encodeALawBulk pcm else G711.encodeMuLawBulk pcm

/-- The fresh RTP packet that carries `pcm` back. -/
def packet (s : EchoStream) (pcm : List Int16) : RtpPacket where
  payloadType := UInt8.ofInt s.payloadType
  sequence := s.outSeq
  timestamp := s.outTs
  ssrc := s.outSsrc
  payload := s.encode pcm

def advance (s : EchoStream) (pcm : List Int16) : EchoStream :=
  { s with outSeq := s.outSeq + 1, outTs := s.outTs + UInt32.ofNat pcm.length }

end EchoStream

namespace MediaSession

/-- The constructor. -/
def make : MediaSession where
  queue := .make 200
  jitter := .fresh { targetDepth := 3, capacity := 100 }
  outSsrc := 0x51D0DE70

def start (s : MediaSession) (remote : Endpoint) (payloadType dtmfPayloadType : Int) :
    MediaSession :=
  { s with
    remote, remoteLatched := false, payloadType, dtmfPayloadType, dtmf := s.dtmf.reset
    active := true }

def stop (s : MediaSession) : MediaSession :=
  if s.active then { s with active := false, queue := s.queue.close } else s

/-! ## recvLoop -/

def latchRemoteIfNeeded (s : MediaSession) (sender : Endpoint) : MediaSession :=
  if !s.remoteLatched then { s with remote := sender, remoteLatched := true }
  else if sender ≠ s.remote then { s with remote := sender }
  else s

/-- The text that `onDtmfDigit` sends. -/
def dtmfJson (digit : UInt8) : Str :=
  str "\x7b\"type\":\"dtmf\",\"digit\":\"" ++ [digit] ++ str "\"\x7d"

/-- Handled out of band: the packet has the negotiated telephone-event type. -/
def isDtmf (s : MediaSession) (pkt : RtpPacket) : Bool :=
  s.dtmfPayloadType ≥ 0 && (pkt.payloadType.toNat : Int) == s.dtmfPayloadType

def feedDtmf (s : MediaSession) (pkt : RtpPacket) : MediaSession × List Effect :=
  let (digit, dtmf) := s.dtmf.feed pkt.payload
  ({ s with dtmf }, digit.toList.map fun c => .sendText (dtmfJson c))

def feedVoice (s : MediaSession) (pkt : RtpPacket) (nowSec : ℚ) : MediaSession :=
  { s with
    rtpStats := s.rtpStats.update pkt.sequence pkt.timestamp nowSec
    jitter := s.jitter.insert pkt }

def recv (s : MediaSession) (dg : Datagram) (nowSec : ℚ) : MediaSession × List Effect :=
  match RtpPacket.parseBuf dg.data with
  | none => (s, [])
  | some pkt =>
    let s := s.latchRemoteIfNeeded dg.sender
    if s.isDtmf pkt then s.feedDtmf pkt else (s.feedVoice pkt nowSec, [])

/-! ## playoutLoop -/

/-- On loss or underrun nothing is emitted; on a full queue the packet is dropped. -/
def playout (s : MediaSession) : MediaSession :=
  let (slot, jitter) := s.jitter.pop
  match slot.packet with
  | some pkt => { s with jitter, queue := (s.queue.tryPush pkt).2 }
  | none => { s with jitter }

/-! ## outputLoop -/

/-- Decode, fork to the gateway, and echo to the current peer. -/
def emit (s : MediaSession) (item : RtpPacket) (connected : Bool) : MediaSession × List Effect :=
  let pcm := s.decode item.payload
  let fork : List Effect :=
    if connected && !pcm.isEmpty then [.sendBinary (upsample8kTo16k pcm)] else []
  ({ s with toEchoStream := s.advance pcm }, fork ++ [.sendTo (s.packet pcm) s.remote])

def output (s : MediaSession) (connected : Bool) : MediaSession × List Effect :=
  match s.queue.pop with
  | none => (s, []) -- waiting for an item
  | some (none, queue) => ({ s with queue }, []) -- closed and drained: the loop ends
  | some (some item, queue) => { s with queue }.emit item connected

/-! ## runs -/

inductive Action where
  | recv (dg : Datagram) (nowSec : ℚ)
  | playout
  | output (connected : Bool)
  | stop

def act (s : MediaSession) : Action → MediaSession × List Effect
  | .recv dg nowSec => s.recv dg nowSec
  | .playout => (s.playout, [])
  | .output connected => s.output connected
  | .stop => (s.stop, [])

def step (s : MediaSession) (a : Action) : MediaSession := (s.act a).1

/-- The packets an action hands to `sendTo`. -/
def sent (s : MediaSession) (a : Action) : List RtpPacket :=
  (s.act a).2.filterMap fun | .sendTo out _ => some out | _ => none

end MediaSession

end SipDemo
