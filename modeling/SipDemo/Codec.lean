import Mathlib.Data.Fintype.Basic
import Mathlib.Data.Fin.Basic
import SipDemo.Bytes

/-!
# SipDemo.Codec

The audio codecs: G.711 companding (`G711.cpp`) and the linear upsampling for
the speech gateway (`Resample.cpp`).

Samples are `Int16` and code words `UInt8`; the `int` intermediates are
`Int32`, with its arithmetic right shift.  The result about G.711 is that a
decoded sample survives another trip through the encoder.
-/

namespace SipDemo

namespace G711

def kMuBias : Int32 := 0x84
def kMuClip : Int32 := 32635

/-- The index of the first table entry that is not below `value`, or the table
size. -/
def seg (value : Int32) (table : List Int32) : Int32 :=
  Int32.ofNat (table.findIdx fun bound => value ≤ bound)

def toByte (x : Int32) : UInt8 := x.toUInt32.toUInt8

def ofByte (x : UInt8) : Int32 := x.toUInt32.toInt32

/-! ## mu-law -/

def muSegEnd : List Int32 := [0xFF, 0x1FF, 0x3FF, 0x7FF, 0xFFF, 0x1FFF, 0x3FFF, 0x7FFF]

def encodeMuLaw (sample : Int16) : UInt8 :=
  let sign := (sample.toInt32 >>> 8) &&& 0x80
  let mag := if sign ≠ 0 then -sample.toInt32 else sample.toInt32
  let mag := if mag > kMuClip then kMuClip else mag
  let mag := mag + kMuBias
  let segment := seg mag muSegEnd
  let code :=
    if segment ≥ 8 then 0x7F
    else toByte ((segment <<< 4) ||| ((mag >>> (segment + 3)) &&& 0x0F))
  toByte (~~~(ofByte code ||| sign))

def decodeMuLaw (code : UInt8) : Int16 :=
  let code := ofByte (~~~code)
  let sign := code &&& 0x80
  let segment := (code >>> 4) &&& 0x07
  let mantissa := code &&& 0x0F
  let mag := ((mantissa <<< 3) + kMuBias) <<< segment
  let mag := mag - kMuBias
  (if sign ≠ 0 then -mag else mag).toInt16

/-! ## A-law -/

def aSegEnd : List Int32 := [0x1F, 0x3F, 0x7F, 0xFF, 0x1FF, 0x3FF, 0x7FF, 0xFFF]

def encodeALaw (sample : Int16) : UInt8 :=
  let pcm := sample.toInt32 >>> 3
  let mask : UInt8 := if pcm ≥ 0 then 0xD5 else 0x55
  let pcm :=
    if pcm ≥ 0 then pcm
    else
      let pcm := -pcm - 1
      if pcm < 0 then 0 else pcm
  let segment := seg pcm aSegEnd
  if segment ≥ 8 then 0x7F ^^^ mask
  else
    let code := toByte (segment <<< 4)
    let code :=
      if segment < 2 then code ||| toByte ((pcm >>> 1) &&& 0x0F)
      else code ||| toByte ((pcm >>> segment) &&& 0x0F)
    code ^^^ mask

def decodeALaw (code : UInt8) : Int16 :=
  let code := ofByte (code ^^^ 0x55)
  let t := (code &&& 0x0F) <<< 4
  let segment := (code &&& 0x70) >>> 4
  let t :=
    if segment = 0 then t + 8
    else if segment = 1 then t + 0x108
    else (t + 0x108) <<< (segment - 1)
  (if code &&& 0x80 ≠ 0 then t else -t).toInt16

/-! ## bulk helpers -/

def encodeMuLawBulk (pcm : List Int16) : List UInt8 := pcm.map encodeMuLaw

def decodeMuLawBulk (codes : List UInt8) : List Int16 := codes.map decodeMuLaw

def encodeALawBulk (pcm : List Int16) : List UInt8 := pcm.map encodeALaw

def decodeALawBulk (codes : List UInt8) : List Int16 := codes.map decodeALaw

/-! ## requantization -/

/-- Mu-law: decoding, encoding and decoding again is decoding. -/
theorem decodeMuLaw_encodeMuLaw (code : UInt8) :
    decodeMuLaw (encodeMuLaw (decodeMuLaw code)) = decodeMuLaw code :=
  forall_byte (p := fun c => decodeMuLaw (encodeMuLaw (decodeMuLaw c)) = decodeMuLaw c)
    (by decide +kernel) code

/-- A-law: decoding, encoding and decoding again is decoding. -/
theorem decodeALaw_encodeALaw (code : UInt8) :
    decodeALaw (encodeALaw (decodeALaw code)) = decodeALaw code :=
  forall_byte (p := fun c => decodeALaw (encodeALaw (decodeALaw c)) = decodeALaw c)
    (by decide +kernel) code

theorem decodeMuLawBulk_encode (codes : List UInt8) :
    decodeMuLawBulk (encodeMuLawBulk (decodeMuLawBulk codes)) = decodeMuLawBulk codes := by
  simp only [decodeMuLawBulk, encodeMuLawBulk, List.map_map]
  refine List.map_congr_left fun code _ => ?_
  rw [Function.comp_apply, Function.comp_apply, decodeMuLaw_encodeMuLaw]

theorem decodeALawBulk_encode (codes : List UInt8) :
    decodeALawBulk (encodeALawBulk (decodeALawBulk codes)) = decodeALawBulk codes := by
  simp only [decodeALawBulk, encodeALawBulk, List.map_map]
  refine List.map_congr_left fun code _ => ?_
  rw [Function.comp_apply, Function.comp_apply, decodeALaw_encodeALaw]

end G711

/-! ## upsampling -/

/-- Each sample, followed by the midpoint to the next one (to itself, at the
end); the `int32` division truncates. -/
def upsample8kTo16k : List Int16 → List Int16
  | [] => []
  | [x] => [x, ((x.toInt32 + x.toInt32) / 2).toInt16]
  | x :: y :: rest => x :: ((x.toInt32 + y.toInt32) / 2).toInt16 :: upsample8kTo16k (y :: rest)

theorem length_upsample8kTo16k (xs : List Int16) : (upsample8kTo16k xs).length = 2 * xs.length := by
  fun_induction upsample8kTo16k xs with
  | case1 => rfl
  | case2 x => rfl
  | case3 x y rest ih =>
      rw [List.length_cons, List.length_cons, ih]
      simp only [List.length_cons]
      omega

end SipDemo
