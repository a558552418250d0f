import SipDemo.Bytes

/-!
# SipDemo.Rfc4733

Telephone-event payloads, `Rfc4733.cpp`: the 4-byte payload, its digit, and
the decoder that turns the packets of one key press into one digit.
-/

namespace SipDemo

structure DtmfEvent where
  event : UInt8 := 0
  isEnd : Bool := false
  volume : UInt8 := 0
  duration : UInt16 := 0
  deriving DecidableEq, Repr

def parseDtmfPayload (data : List UInt8) : Option DtmfEvent :=
  match data with
  | b0 :: b1 :: b2 :: b3 :: _ =>
    some
      { event := b0
        isEnd := b1 &&& 0x80 ≠ 0
        volume := b1 &&& 0x3f
        duration := (b2.toUInt16 <<< 8) ||| b3.toUInt16 }
  | _ => none

def dtmfEventToChar (event : UInt8) : Option UInt8 :=
  if event ≤ 9 then some (ch '0' + event)
  else if event = 10 then some (ch '*')
  else if event = 11 then some (ch '#')
  else if 12 ≤ event ∧ event ≤ 15 then some (ch 'A' + (event - 12))
  else none

structure DtmfDecoder where
  lastEvent : Int := -1
  emittedForCurrent : Bool := false
  lastDuration : UInt16 := 0
  deriving DecidableEq, Repr

namespace DtmfDecoder

def reset (_ : DtmfDecoder) : DtmfDecoder := {}

/-- A new event code starts a new press. -/
def select (s : DtmfDecoder) (ev : DtmfEvent) : DtmfDecoder :=
  if (ev.event.toNat : Int) ≠ s.lastEvent then
    { lastEvent := ev.event.toNat, emittedForCurrent := false, lastDuration := 0 }
  else s

def feed (s : DtmfDecoder) (payload : List UInt8) : Option UInt8 × DtmfDecoder :=
  match parseDtmfPayload payload with
  | none => (none, s)
  | some ev =>
    let s := s.select ev
    if !ev.isEnd then
      -- the key is down: the latch is cleared for its next release
      (none, { s with emittedForCurrent := false, lastDuration := ev.duration })
    else
      -- a duration that restarts is a new press seen only through its ends
      let restarted := 0 < s.lastDuration ∧ ev.duration < s.lastDuration
      let emitted := if restarted then false else s.emittedForCurrent
      let s := { s with emittedForCurrent := emitted, lastDuration := ev.duration }
      if s.emittedForCurrent then (none, s)
      else
        match dtmfEventToChar ev.event with
        | none => (none, s)
        | some c => (some c, { s with emittedForCurrent := true })

end DtmfDecoder

end SipDemo
