import SipDemo.Bytes

/-!
# SipDemo.RtpPacket

RTP packets and their 16-bit sequence numbers: the wire format of
`RtpPacket.cpp` and the serial-number arithmetic that it, the jitter buffer and
the reception statistics share.

`parse` takes its datagram as the code does, a pointer and a length; the
pointer is a function from offsets to bytes, so that what `parse` may read is
part of the model.
-/

namespace SipDemo

structure RtpPacket where
  version : UInt8 := 2
  padding : Bool := false
  extension : Bool := false
  marker : Bool := false
  payloadType : UInt8 := 0
  sequence : UInt16 := 0
  timestamp : UInt32 := 0
  ssrc : UInt32 := 0
  csrc : List UInt32 := []
  payload : List UInt8 := []
  deriving DecidableEq, Repr

namespace RtpPacket

/-! ## wire format -/

def rd16 (p : Nat → UInt8) (i : Nat) : UInt16 :=
  ((p i).toUInt16 <<< 8) ||| (p (i + 1)).toUInt16

def rd32 (p : Nat → UInt8) (i : Nat) : UInt32 :=
  ((p i).toUInt32 <<< 24) ||| ((p (i + 1)).toUInt32 <<< 16) |||
    ((p (i + 2)).toUInt32 <<< 8) ||| (p (i + 3)).toUInt32

def wr16 (x : UInt16) : List UInt8 := [(x >>> 8).toUInt8, (x &&& 0xff).toUInt8]

def wr32 (x : UInt32) : List UInt8 :=
  [(x >>> 24).toUInt8, (x >>> 16).toUInt8, (x >>> 8).toUInt8, (x &&& 0xff).toUInt8]

/-- Where the payload starts: after the fixed header, the CSRC list and, when
the X bit is set, the header extension, which is skipped.  `none` when the
datagram ends before. -/
def payloadStart (data : Nat → UInt8) (len cc : Nat) (extension : Bool) : Option Nat :=
  let offset := 12 + cc * 4
  if len < offset then none
  else if extension then
    if len < offset + 4 then none
    else
      let extBytes := 4 + (rd16 data (offset + 2)).toNat * 4
      if len < offset + extBytes then none else some (offset + extBytes)
  else some offset

/-- Where the payload ends: before the padding, whose length is the last byte. -/
def payloadEnd (data : Nat → UInt8) (len offset : Nat) (padding : Bool) : Option Nat :=
  if padding then
    let padLen := (data (len - 1)).toNat
    if padLen = 0 ∨ len - offset < padLen then none else some (len - padLen)
  else some len

def parse (data : Nat → UInt8) (len : Nat) : Option RtpPacket :=
  if len < 12 then none
  else
    let b0 := data 0
    let version := (b0 >>> 6) &&& 0x03
    if version ≠ 2 then none
    else
      let padding := (b0 >>> 5) &&& 0x01 ≠ 0
      let extension := (b0 >>> 4) &&& 0x01 ≠ 0
      let cc := (b0 &&& 0x0f).toNat
      let b1 := data 1
      (payloadStart data len cc extension).bind fun offset =>
        (payloadEnd data len offset padding).map fun stop =>
          { version, padding, extension,
            marker := (b1 >>> 7) &&& 0x01 ≠ 0
            payloadType := b1 &&& 0x7f
            sequence := rd16 data 2
            timestamp := rd32 data 4
            ssrc := rd32 data 8
            csrc := (List.range cc).map fun i => rd32 data (12 + i * 4)
            payload := (List.range (stop - offset)).map fun i => data (offset + i) }

/-- The overload that takes a buffer; the bytes past its end are never read. -/
def parseBuf (buf : List UInt8) : Option RtpPacket := parse (fun i => buf.getD i 0) buf.length

def serialize (p : RtpPacket) : List UInt8 :=
  let cc := min p.csrc.length 15
  let b0 := ((p.version &&& 0x03) <<< 6) ||| (if p.padding then 0x20 else 0) |||
    (if p.extension then 0x10 else 0) ||| UInt8.ofNat cc
  let b1 := (p.payloadType &&& 0x7f) ||| (if p.marker then 0x80 else 0)
  [b0, b1] ++ wr16 p.sequence ++ wr32 p.timestamp ++ wr32 p.ssrc ++
    (p.csrc.take cc).flatMap wr32 ++ p.payload

end RtpPacket

/-! ## sequence numbers -/

/-- `a` precedes `b` when the forward gap is smaller than half the space. -/
def seqLess (a b : UInt16) : Bool := a ≠ b ∧ b - a < 0x8000

/-- The forward gap as a signed 16-bit number. -/
def seqDiff (a b : UInt16) : Int := (b - a).toInt16.toInt

/-- `while (candidate - reference > 32768) candidate -= 65536;` -/
def stepDown (reference candidate : Int) : Int :=
  if candidate - reference > 32768 then stepDown reference (candidate - 65536) else candidate
termination_by (candidate - reference).toNat

/-- `while (reference - candidate > 32768) candidate += 65536;` -/
def stepUp (reference candidate : Int) : Int :=
  if reference - candidate > 32768 then stepUp reference (candidate + 65536) else candidate
termination_by (reference - candidate).toNat

/-- The body that `JitterBuffer::extend` and `RtpStats::extend` share; `%` is
the truncating remainder of the language. -/
def extendSeq (seq : UInt16) (reference : Int) : Int :=
  let base := reference - reference.tmod 65536
  stepUp reference (stepDown reference (base + seq.toNat))

theorem stepDown_spec (reference candidate : Int) :
    stepDown reference candidate % 65536 = candidate % 65536 ∧
      stepDown reference candidate - reference ≤ 32768 ∧
      (stepDown reference candidate = candidate ∨
        -32768 ≤ stepDown reference candidate - reference) := by
  fun_induction stepDown reference candidate with
  | case1 candidate hfar ih => omega
  | case2 candidate hnear => omega

theorem stepUp_spec (reference candidate : Int) :
    stepUp reference candidate % 65536 = candidate % 65536 ∧
      reference - stepUp reference candidate ≤ 32768 ∧
      (stepUp reference candidate = candidate ∨
        stepUp reference candidate - reference ≤ 32768) := by
  fun_induction stepUp reference candidate with
  | case1 candidate hfar ih => omega
  | case2 candidate hnear => omega

/-- Whatever the reference, `extendSeq` returns a number with the given low 16
bits, at most half a sequence space away. -/
theorem extendSeq_spec (seq : UInt16) (reference : Int) :
    extendSeq seq reference % 65536 = seq.toNat ∧
      extendSeq seq reference - reference ≤ 32768 ∧
      reference - extendSeq seq reference ≤ 32768 := by
  have hseq : seq.toNat < 65536 := seq.toNat_lt
  have hbase : (reference - reference.tmod 65536) % 65536 = 0 := by
    have h := Int.mul_tdiv_add_tmod reference 65536
    omega
  have hdown := stepDown_spec reference (reference - reference.tmod 65536 + seq.toNat)
  have hup := stepUp_spec reference (stepDown reference (reference - reference.tmod 65536 + seq.toNat))
  have hdef : extendSeq seq reference =
      stepUp reference (stepDown reference (reference - reference.tmod 65536 + seq.toNat)) := rfl
  rw [hdef]
  omega

/-- Within half a space of the reference there is one number only with given
low 16 bits, and `extendSeq` finds it. -/
theorem extendSeq_eq {seq : UInt16} {reference e : Int} (hseq : e % 65536 = seq.toNat)
    (hlo : e - reference < 32768) (hhi : reference - e < 32768) :
    extendSeq seq reference = e := by
  have h := extendSeq_spec seq reference
  omega

/-- The wrap: after 65535 comes 0, one further on. -/
example : extendSeq 0 65535 = 65536 := extendSeq_eq rfl (by decide) (by decide)

end SipDemo
