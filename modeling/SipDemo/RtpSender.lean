import SipDemo.Bytes.BigEndian
import SipDemo.Codec
import SipDemo.Loop
import SipDemo.RtpPacket

/-!
# SipDemo.RtpSender

The RTP source `rtp_sender.cpp`: the WAV loader, and the loop that sends one
G.711 packet for every 20 ms of audio and loses and reorders some on purpose.

The two loops are kept as the source has them.  The loader's walk need not end,
so it is a `Loop`, run with fuel; every read from the file buffer is checked,
`copy` being `memcpy` and failing where the source would read past the end.  The
send loop makes one turn for every packet; what the random numbers decide is its
input, and a send that throws ends it.
-/

namespace SipDemo

namespace RtpSender

def kSamplesPerPacket : Nat := 160

/-! ## loadWavPcm16 -/

/-- `memcpy` or `memcmp` of `n` bytes at offset `i` of the buffer; the error is
the offset of a read that leaves it. -/
def copy (buf : Str) (i n : Nat) : Except Nat Str :=
  if i + n ≤ buf.length then .ok ((buf.drop i).take n) else .error i

/-- The number that bytes copied into an unsigned integer make, on a
little-endian host. -/
def littleEndian (bs : Str) : Nat := BigEndian.value bs.reverse

/-- The samples that bytes copied into an `int16_t` array make. -/
def samples : Str → List Int16
  | lo :: hi :: rest => (UInt16.ofNat (littleEndian [lo, hi])).toInt16 :: samples rest
  | _ => []

/-- The checks before the walk. -/
def isWave (buf : Str) : Except Nat Bool :=
  if buf.length < 44 then pure false
  else do
    let riff ← copy buf 0 4
    if riff ≠ str "RIFF" then pure false
    else
      let wave ← copy buf 8 4
      pure (wave = str "WAVE")

/-- The loop body at a position with room for a chunk header: on to the next
position, or the samples.  `8 + sz + (sz & 1)` is 32-bit arithmetic, `pos` is
not. -/
def chunkAt (buf : Str) (pos : Nat) : Except Nat (Nat ⊕ List Int16) := do
  let size ← copy buf (pos + 4) 4
  let sz := UInt32.ofNat (littleEndian size)
  let id ← copy buf pos 4
  if id = str "data" then
    let start := pos + 8
    let bytes := min sz.toNat (buf.length - start)
    let pcm ← copy buf start (bytes / 2 * 2)
    pure (.inr (samples pcm))
  else pure (.inl (pos + (8 + sz + (sz &&& 1)).toNat))

/-- A turn of the walk: on to the next position, or out of the function. -/
def chunkTurn (buf : Str) (pos : Nat) : Nat ⊕ Except Nat (List Int16) :=
  if pos + 8 ≤ buf.length then
    match chunkAt buf pos with
    | .ok (.inl next) => .inl next
    | .ok (.inr pcm) => .inr (.ok pcm)
    | .error i => .inr (.error i)
  else .inr (.ok [])

/-- `loadWavPcm16` on the content of the file, `none` when it cannot be opened;
the walk makes at most `fuel` turns, `none` when it has not ended by then. -/
def loadWavPcm16 (file : Option Str) (fuel : Nat) : Option (Except Nat (List Int16)) :=
  match file with
  | none => some (.ok [])
  | some buf =>
    match isWave buf with
    | .ok true => Loop.run (chunkTurn buf) fuel 12
    | .ok false => some (.ok [])
    | .error i => some (.error i)

/-! ## the send loop -/

/-- What `main` has before the loop and does not change in it. -/
structure Source where
  pcm : List Int16
  payloadType : Int := 0
  ssrc : UInt32

namespace Source

def totalPackets (src : Source) : Nat := src.pcm.length / kSamplesPerPacket

/-- One 20 ms frame. -/
def frame (src : Source) (p : Nat) : List Int16 :=
  (src.pcm.drop (p * kSamplesPerPacket)).take kSamplesPerPacket

def codes (src : Source) (p : Nat) : Str :=
  if src.payloadType = 8 then G711.encodeALawBulk (src.frame p)
  else G711.encodeMuLawBulk (src.frame p)

def packet (src : Source) (p : Nat) (seq : UInt16) (timestamp : UInt32) : RtpPacket where
  payloadType := UInt8.ofInt src.payloadType
  marker := p = 0
  sequence := seq
  timestamp := timestamp
  ssrc := src.ssrc
  payload := src.codes p

end Source

/-- The variables of the loop, and what has been handed to the socket. -/
structure Sender where
  seq : UInt16
  timestamp : UInt32
  heldPacket : Str := []
  holding : Bool := false
  sent : Nat := 0
  dropped : Nat := 0
  reordered : Nat := 0
  datagrams : List Str := []

/-- How the draws for a packet come out: below the loss and below the reorder
percentage.  The second draw is not made for every packet. -/
structure Draw where
  drop : Bool
  reorder : Bool
  deriving DecidableEq, Repr

/-- `sock.sendTo`; `throws` tells of every call whether it throws. -/
def Sender.sendTo (s : Sender) (throws : Nat → Bool) (data : Str) : Option Sender :=
  if throws s.datagrams.length then none
  else some { s with datagrams := s.datagrams ++ [data] }

/-- The body of the loop for packet `p`. -/
def packetTurn (src : Source) (throws : Nat → Bool) (draw : Nat → Draw) (s : Sender) (p : Nat) :
    Option Sender :=
  let wire := (src.packet p s.seq s.timestamp).serialize
  let s :=
    { s with seq := s.seq + 1, timestamp := s.timestamp + UInt32.ofNat kSamplesPerPacket }
  if (draw p).drop then some { s with dropped := s.dropped + 1 }
  else if s.holding then do
    -- the packet held back goes out after this one
    let s ← s.sendTo throws wire
    let s ← s.sendTo throws s.heldPacket
    pure { s with holding := false, reordered := s.reordered + 1, sent := s.sent + 2 }
  else if (draw p).reorder ∧ p + 1 < src.totalPackets then
    some { s with heldPacket := wire, holding := true }
  else do
    let s ← s.sendTo throws wire
    pure { s with sent := s.sent + 1 }

/-- What follows the loop. -/
def flush (throws : Nat → Bool) (s : Sender) : Option Sender :=
  if s.holding then do
    let s ← s.sendTo throws s.heldPacket
    pure { s with sent := s.sent + 1 }
  else some s

/-- The loop and the final flush, from the drawn sequence number and timestamp;
`none` when a send threw. -/
def send (src : Source) (seq : UInt16) (timestamp : UInt32) (throws : Nat → Bool)
    (draw : Nat → Draw) : Option Sender := do
  let s ← (List.range src.totalPackets).foldlM (packetTurn src throws draw) { seq, timestamp }
  flush throws s

end RtpSender

end SipDemo
