import Mathlib.Algebra.Order.Ring.Int
import Mathlib.Data.List.GetD
import SipDemo.Codec
import SipDemo.Companding

/-!
# SipDemo.Codec.Accuracy

What G.711 does to a sample.
-/

namespace SipDemo

namespace G711

open Companding (exponent middle)

/-! ## 32-bit intermediates -/

theorem toInt_shiftRight (x : Int32) {k : Nat} (hk : k < 32) :
    (x >>> Int32.ofNat k).toInt = x.toInt / 2 ^ k := by
  have hcount : (Int32.ofNat k).toBitVec.smod 32 = BitVec.ofNat 32 k := by
    have hall : ∀ i : Fin 32, (Int32.ofNat i).toBitVec.smod 32 = BitVec.ofNat 32 i := by
      decide
    exact hall ⟨k, hk⟩
  rw [Int32.toInt, Int32.toBitVec_shiftRight, hcount, BitVec.sshiftRight'_ofNat_eq_sshiftRight,
    BitVec.toInt_sshiftRight, Nat.mod_eq_of_lt (by omega), Int.shiftRight_eq_div_pow]
  rfl

theorem toInt_neg_of_small {x : Int32} (hlo : -100000 ≤ x.toInt) (hhi : x.toInt ≤ 100000) :
    (-x).toInt = -x.toInt := by
  rw [Int32.toInt_neg, Int.bmod_eq_of_le (by omega) (by omega)]

theorem toInt_add_of_small {x y : Int32} (hlo : -100000 ≤ x.toInt + y.toInt)
    (hhi : x.toInt + y.toInt ≤ 100000) : (x + y).toInt = x.toInt + y.toInt := by
  rw [Int32.toInt_add, Int.bmod_eq_of_le (by omega) (by omega)]

/-- Of a table of powers of two, less one, the segment is the one that a
number's leading bit names. -/
theorem seg_eq {table : List Int32} {k : Nat} (hlen : table.length = 8)
    (htable : ∀ i : Fin 8, (table.getD i 0).toInt = 2 ^ (i.val + k) - 1) {value : Int32} {e : Nat}
    (he : e < 8) (hle : e = 0 ∨ 2 ^ (e + k - 1) ≤ value.toInt) (hlt : value.toInt < 2 ^ (e + k)) :
    seg value table = Int32.ofNat e := by
  have hat : ∀ i (hi : i < table.length), (value ≤ table[i] ↔ value.toInt < 2 ^ (i + k)) := by
    intro i hi
    have hentry := htable ⟨i, by omega⟩
    rw [List.getD_eq_getElem _ _ hi] at hentry
    rw [Int32.le_iff_toInt_le, hentry]
    dsimp only
    omega
  have hidx : table.findIdx (fun bound => value ≤ bound) = e := by
    rw [List.findIdx_eq (by omega), decide_eq_true_eq, hat]
    refine ⟨hlt, fun i hi => ?_⟩
    have hpow : (2 : Int) ^ (i + k) ≤ 2 ^ (e + k - 1) :=
      pow_le_pow_right₀ (by omega) (by omega)
    rw [decide_eq_false_iff_not, hat]
    omega
  rw [seg, hidx]

/-! ## mu-law -/

theorem muSegEnd_eq (i : Fin 8) : (muSegEnd.getD i 0).toInt = 2 ^ (i.val + 8) - 1 := by
  revert i
  decide

/-- The level that a sample of value `x` is sent at. -/
def muLevel (x : Int) : Int :=
  let level : Int := middle 3 4 (min x.natAbs 32635 + 132) - 132
  if x < 0 then -level else level

/-- The sign bit of a 16-bit sample. -/
theorem sign_eq (x : Int16) :
    (x.toInt32 >>> 8) &&& 0x80 = if x.toInt < 0 then 0x80 else 0 := by
  have hall : ∀ i : Fin 256,
      Int32.ofInt (i.val - 128) &&& 0x80 = if (i.val : Int) - 128 < 0 then 0x80 else 0 := by
    decide +kernel
  have hshift : (x.toInt32 >>> 8).toInt = x.toInt / 256 := by
    rw [show (8 : Int32) = Int32.ofNat 8 from rfl, toInt_shiftRight _ (by omega),
      Int16.toInt_toInt32]
    rfl
  have hlo := x.le_toInt
  have hhi := x.toInt_lt
  have hbyte := hall ⟨(x.toInt / 256 + 128).toNat, by omega⟩
  rw [show (((x.toInt / 256 + 128).toNat : Nat) : Int) - 128 = x.toInt / 256 by omega, ← hshift,
    Int32.ofInt_toInt, hshift] at hbyte
  rw [hbyte]
  split <;> split <;> first | rfl | omega

/-- The magnitude that `encodeMuLaw` looks up. -/
def muMagnitude (x : Int16) : Int32 :=
  let sign := (x.toInt32 >>> 8) &&& 0x80
  let mag := if sign ≠ 0 then -x.toInt32 else x.toInt32
  let mag := if mag > kMuClip then kMuClip else mag
  mag + kMuBias

theorem toInt_clip (mag : Int32) :
    (if mag > kMuClip then kMuClip else mag).toInt = min mag.toInt 32635 := by
  have hclip : kMuClip.toInt = 32635 := rfl
  split
  · next h =>
      rw [gt_iff_lt, Int32.lt_iff_toInt_lt] at h
      omega
  · next h =>
      rw [gt_iff_lt, Int32.lt_iff_toInt_lt] at h
      omega

theorem toInt_muMagnitude (x : Int16) :
    (muMagnitude x).toInt = (min x.toInt.natAbs 32635 + 132 : Nat) := by
  have hlo := x.le_toInt
  have hhi := x.toInt_lt
  have hwide := x.toInt_toInt32
  have habs : (if (x.toInt32 >>> 8) &&& 0x80 ≠ 0 then -x.toInt32 else x.toInt32).toInt =
      x.toInt.natAbs := by
    rw [sign_eq]
    split
    · next hneg =>
        rw [if_pos (by decide), toInt_neg_of_small (by omega) (by omega)]
        omega
    · next hpos =>
        rw [if_neg (by decide)]
        omega
  have hbias : kMuBias.toInt = 132 := rfl
  have hclip := toInt_clip (if (x.toInt32 >>> 8) &&& 0x80 ≠ 0 then -x.toInt32 else x.toInt32)
  rw [habs] at hclip
  simp only [muMagnitude]
  rw [toInt_add_of_small, hclip, hbias] <;> omega

/-- The code word for a sign, a segment and the leading bits of a magnitude. -/
def muWord (sign segment bits : Int32) : UInt8 :=
  toByte (~~~(ofByte (toByte ((segment <<< 4) ||| (bits &&& 0x0F))) ||| sign))

/-- Mu-law code words: the sign, the segment, and the four bits after the first. -/
theorem encodeMuLaw_eq (x : Int16) {m e : Nat} (hm : m = min x.toInt.natAbs 32635 + 132)
    (he : e < 8) (hlo : 2 ^ (e + 7) ≤ m) (hhi : m < 2 ^ (e + 8)) :
    encodeMuLaw x =
      muWord (if x.toInt < 0 then 0x80 else 0) (Int32.ofNat e) (Int32.ofNat (m / 2 ^ (e + 3))) := by
  have hmag := toInt_muMagnitude x
  rw [← hm] at hmag
  have hsegment : seg (muMagnitude x) muSegEnd = Int32.ofNat e := by
    refine seg_eq rfl muSegEnd_eq he (.inr ?_) ?_
    · rw [hmag]
      exact_mod_cast hlo
    · rw [hmag]
      exact_mod_cast hhi
  have hsmall : ¬Int32.ofNat e ≥ 8 ∧ Int32.ofNat e + 3 = Int32.ofNat (e + 3) := by
    have hall : ∀ i : Fin 8, ¬Int32.ofNat i ≥ 8 ∧ Int32.ofNat i + 3 = Int32.ofNat (i + 3) := by
      decide
    exact hall ⟨e, he⟩
  have hmantissa : muMagnitude x >>> Int32.ofNat (e + 3) = Int32.ofNat (m / 2 ^ (e + 3)) := by
    have hbound : m / 2 ^ (e + 3) ≤ m := Nat.div_le_self m _
    rw [← Int32.toInt_inj, toInt_shiftRight _ (by omega), hmag,
      Int32.toInt_ofNat_of_lt (by omega)]
    exact_mod_cast rfl
  have hcode : encodeMuLaw x = toByte (~~~(ofByte (if seg (muMagnitude x) muSegEnd ≥ 8 then 0x7F
      else toByte ((seg (muMagnitude x) muSegEnd <<< 4) |||
        ((muMagnitude x >>> (seg (muMagnitude x) muSegEnd + 3)) &&& 0x0F))) |||
          ((x.toInt32 >>> 8) &&& 0x80))) := rfl
  rw [hcode, hsegment, if_neg hsmall.1, hsmall.2, hmantissa, sign_eq, muWord]

theorem decodeMuLaw_muWord (negative : Bool) (e : Fin 8) (q : Fin 16) :
    (decodeMuLaw (muWord (if negative then 0x80 else 0) (Int32.ofNat e)
      (Int32.ofNat (16 + q)))).toInt =
      let level : Int := (16 + q) * 2 ^ (e.val + 3) + 2 ^ (e.val + 2) - 132
      if negative then -level else level := by
  revert negative e q
  decide

/-- **Mu-law quantises**: a sample comes back as the middle of its cell. -/
theorem toInt_decodeMuLaw_encodeMuLaw (x : Int16) :
    (decodeMuLaw (encodeMuLaw x)).toInt = muLevel x.toInt := by
  obtain ⟨m, hm⟩ : ∃ m, m = min x.toInt.natAbs 32635 + 132 := ⟨_, rfl⟩
  obtain ⟨e, hae, hek, hlo, hhi⟩ := Companding.exists_exponent (a := 3) (b := 4) (k := 11)
    (show 2 ^ 7 ≤ m by omega) (show m < 2 ^ 15 by omega)
  obtain ⟨e, rfl⟩ : ∃ e', e = e' + 3 := ⟨e - 3, by omega⟩
  obtain ⟨q, hq, hbits⟩ := Companding.leading_bits hlo hhi
  have hlevel : middle 3 4 m = (16 + q) * 2 ^ (e + 3) + 2 ^ (e + 2) :=
    Companding.middle_eq (Companding.exponent_eq hae hlo hhi) hbits
  have hdecode := decodeMuLaw_muWord (decide (x.toInt < 0)) ⟨e, by omega⟩ ⟨q, hq⟩
  change m / 2 ^ (e + 3) = 16 + q at hbits
  rw [encodeMuLaw_eq x hm (by omega) hlo hhi, hbits, muLevel, ← hm, hlevel]
  simp only [decide_eq_true_eq] at hdecode
  rw [hdecode]
  push_cast
  rfl

/-! ## A-law -/

theorem aSegEnd_eq (i : Fin 8) : (aSegEnd.getD i 0).toInt = 2 ^ (i.val + 5) - 1 := by
  revert i
  decide

/-- The level that a sample of value `x` is sent at; -1 is the mirror image of 0. -/
def aLevel (x : Int) : Int :=
  if x < 0 then -(8 * middle 1 4 ((-x - 1).toNat / 8)) else 8 * middle 1 4 (x.toNat / 8)

/-- The magnitude that `encodeALaw` looks up. -/
def aMagnitude (x : Int16) : Int32 :=
  let pcm := x.toInt32 >>> 3
  if pcm ≥ 0 then pcm
  else
    let pcm := -pcm - 1
    if pcm < 0 then 0 else pcm

theorem toInt_shift3 (x : Int16) : (x.toInt32 >>> 3).toInt = x.toInt / 8 := by
  rw [show (3 : Int32) = Int32.ofNat 3 from rfl, toInt_shiftRight _ (by omega),
    Int16.toInt_toInt32]
  rfl

theorem shift3_nonneg_iff (x : Int16) : x.toInt32 >>> 3 ≥ 0 ↔ ¬x.toInt < 0 := by
  rw [ge_iff_le, Int32.le_iff_toInt_le, toInt_shift3, Int32.toInt_zero]
  omega

theorem toInt_aMagnitude (x : Int16) :
    (aMagnitude x).toInt =
      ((if x.toInt < 0 then -x.toInt - 1 else x.toInt).toNat / 8 : Nat) := by
  have hlo := x.le_toInt
  have hhi := x.toInt_lt
  have hshift := toInt_shift3 x
  have hneg : (-(x.toInt32 >>> 3) - 1).toInt = -(x.toInt / 8) - 1 := by
    rw [Int32.toInt_sub, toInt_neg_of_small (by omega) (by omega), hshift, Int32.toInt_one,
      Int.bmod_eq_of_le (by omega) (by omega)]
  simp only [aMagnitude, shift3_nonneg_iff]
  split
  · next hpos =>
      rw [hshift]
      omega
  · next h =>
      rw [not_not] at h
      have hge : ¬-(x.toInt32 >>> 3) - 1 < 0 := by
        rw [Int32.lt_iff_toInt_lt, hneg, Int32.toInt_zero]
        omega
      rw [if_neg hge, hneg]
      omega

/-- The code word for a mask, a segment and the leading bits of a magnitude. -/
def aWord (mask : UInt8) (segment bits : Int32) : UInt8 :=
  (toByte (segment <<< 4) ||| toByte (bits &&& 0x0F)) ^^^ mask

/-- A-law code words: the first two segments share the least width. -/
theorem encodeALaw_eq (x : Int16) {m e : Nat}
    (hm : m = (if x.toInt < 0 then -x.toInt - 1 else x.toInt).toNat / 8)
    (he : e < 8) (hlo : e = 0 ∨ 2 ^ (e + 4) ≤ m) (hhi : m < 2 ^ (e + 5)) :
    encodeALaw x =
      aWord (if x.toInt < 0 then 0x55 else 0xD5) (Int32.ofNat e)
        (Int32.ofNat (m / 2 ^ (max 1 e))) := by
  have hmag := toInt_aMagnitude x
  rw [← hm] at hmag
  have hsegment : seg (aMagnitude x) aSegEnd = Int32.ofNat e := by
    refine seg_eq rfl aSegEnd_eq he (hlo.imp_right fun hlo => ?_) ?_
    · rw [hmag]
      exact_mod_cast hlo
    · rw [hmag]
      exact_mod_cast hhi
  have hsmall : ¬Int32.ofNat e ≥ 8 ∧ (Int32.ofNat e < 2 ↔ e < 2) := by
    have hall : ∀ i : Fin 8, ¬Int32.ofNat i ≥ 8 ∧ (Int32.ofNat i < 2 ↔ i.val < 2) := by
      decide
    exact hall ⟨e, he⟩
  have hfit : m < 4096 := by
    have hmin := x.le_toInt
    have hmax := x.toInt_lt
    rw [hm]
    split <;> omega
  have hshift : ∀ k < 8, aMagnitude x >>> Int32.ofNat k = Int32.ofNat (m / 2 ^ k) := by
    intro k hk
    have hbound : m / 2 ^ k ≤ m := Nat.div_le_self m _
    rw [← Int32.toInt_inj, toInt_shiftRight _ (by omega), hmag,
      Int32.toInt_ofNat_of_lt (by omega)]
    exact_mod_cast rfl
  have hcode : encodeALaw x =
      let mask : UInt8 := if x.toInt32 >>> 3 ≥ 0 then 0xD5 else 0x55
      let segment := seg (aMagnitude x) aSegEnd
      if segment ≥ 8 then 0x7F ^^^ mask
      else
        (if segment < 2 then toByte (segment <<< 4) ||| toByte ((aMagnitude x >>> 1) &&& 0x0F)
        else toByte (segment <<< 4) ||| toByte ((aMagnitude x >>> segment) &&& 0x0F)) ^^^ mask :=
    rfl
  rw [hcode]
  simp only [hsegment, if_neg hsmall.1, hsmall.2, shift3_nonneg_iff, ite_not, aWord]
  congr 1
  split
  · next hleast =>
      rw [max_eq_left (by omega), ← hshift 1 (by omega)]
      rfl
  · next hwide => rw [max_eq_right (by omega), hshift e he]

theorem decodeALaw_aWord (negative : Bool) (e : Fin 8) (q : Fin 16) :
    (decodeALaw (aWord (if negative then 0x55 else 0xD5) (Int32.ofNat e)
      (Int32.ofNat (if e.val = 0 then q else 16 + q)))).toInt =
      let level : Int := 8 * ((if e.val = 0 then q else 16 + q : Nat) * 2 ^ (max 1 e.val) +
        2 ^ (max 1 e.val - 1))
      if negative then -level else level := by
  revert negative e q
  decide

/-- **A-law quantises**: a sample comes back as the middle of its cell. -/
theorem toInt_decodeALaw_encodeALaw (x : Int16) :
    (decodeALaw (encodeALaw x)).toInt = aLevel x.toInt := by
  obtain ⟨m, hm⟩ : ∃ m, m = (if x.toInt < 0 then -x.toInt - 1 else x.toInt).toNat / 8 := ⟨_, rfl⟩
  have hlevel : aLevel x.toInt =
      if x.toInt < 0 then -(8 * (middle 1 4 m : Int)) else 8 * middle 1 4 m := by
    rw [aLevel, hm]
    split <;> rfl
  have hfit : m < 4096 := by
    have hmin := x.le_toInt
    have hmax := x.toInt_lt
    rw [hm]
    split <;> omega
  rw [hlevel]
  by_cases hleast : m < 32
  · have hmiddle : middle 1 4 m = m / 2 * 2 + 1 :=
      Companding.middle_eq (e := 1) (Companding.exponent_eq_of_lt (by omega)) rfl
    have hdecode := decodeALaw_aWord (decide (x.toInt < 0)) 0 ⟨m / 2, by omega⟩
    rw [encodeALaw_eq x hm (e := 0) (by omega) (.inl rfl) (by omega), hmiddle]
    simp only [decide_eq_true_eq] at hdecode
    exact_mod_cast hdecode
  · obtain ⟨e, hae, hek, hlo, hhi⟩ := Companding.exists_exponent (a := 1) (b := 4) (k := 8)
      (show 2 ^ 5 ≤ m by omega) (show m < 2 ^ 12 by omega)
    obtain ⟨q, hq, hbits⟩ := Companding.leading_bits hlo hhi
    have hmiddle : middle 1 4 m = (16 + q) * 2 ^ e + 2 ^ (e - 1) :=
      Companding.middle_eq (Companding.exponent_eq hae hlo hhi) hbits
    have hdecode := decodeALaw_aWord (decide (x.toInt < 0)) ⟨e, by omega⟩ ⟨q, hq⟩
    rw [encodeALaw_eq x hm (e := e) (by omega) (.inr hlo) hhi, max_eq_right hae, hbits, hmiddle]
    simp only [decide_eq_true_eq, if_neg (show e ≠ 0 by omega), max_eq_right hae] at hdecode
    exact_mod_cast hdecode

/-! ## order and error -/

/-- The lowest magnitude is read back as it is. -/
theorem bias_le_middle {m : Nat} (h : 132 ≤ m) : 132 ≤ middle 3 4 m := by
  have hbias : middle 3 4 132 = 132 :=
    Companding.middle_eq (e := 3) (Companding.exponent_eq_of_lt (by omega)) rfl
  exact hbias.ge.trans (Companding.middle_mono h)

theorem muLevel_mono {x y : Int} (h : x ≤ y) : muLevel x ≤ muLevel y := by
  have hx := bias_le_middle (m := min x.natAbs 32635 + 132) (by omega)
  have hy := bias_le_middle (m := min y.natAbs 32635 + 132) (by omega)
  simp only [muLevel]
  split
  · split
    · have hmono := @Companding.middle_mono 3 4 (min y.natAbs 32635 + 132)
        (min x.natAbs 32635 + 132) (by omega)
      omega
    · omega
  · have hmono := @Companding.middle_mono 3 4 (min x.natAbs 32635 + 132)
      (min y.natAbs 32635 + 132) (by omega)
    rw [if_neg (by omega)]
    omega

theorem aLevel_mono {x y : Int} (h : x ≤ y) : aLevel x ≤ aLevel y := by
  simp only [aLevel]
  split
  · split
    · have hmono := @Companding.middle_mono 1 4 ((-y - 1).toNat / 8) ((-x - 1).toNat / 8) (by omega)
      omega
    · omega
  · have hmono := @Companding.middle_mono 1 4 (x.toNat / 8) (y.toNat / 8) (by omega)
    rw [if_neg (by omega)]
    omega

/-- Beyond the clipping level the top cell is within the bound, too. -/
theorem muLevel_error {x : Int} (hlo : -32768 ≤ x) (hhi : x ≤ 32767) :
    32 * |muLevel x - x| ≤ |x| + 132 := by
  rw [Int.abs_eq_natAbs, Int.abs_eq_natAbs, muLevel]
  by_cases hclip : x.natAbs ≤ 32635
  · have hnear := Companding.middle_near (a := 3) (by omega) 4 (x.natAbs + 132)
    have hhalf := Companding.half_le (a := 3) (by omega) 4 (x.natAbs + 132)
    rw [Nat.min_eq_left hclip]
    split <;> omega
  · have hexponent : exponent 3 4 32767 = 10 :=
      Companding.exponent_eq (by decide) (by decide) (by decide)
    have htop : middle 3 4 32767 = 32256 := Companding.middle_eq hexponent rfl
    rw [Nat.min_eq_right (by omega), htop]
    split <;> omega

/-- The cells of A-law are cells of eighths. -/
theorem aLevel_error (x : Int) : 32 * |aLevel x - x| ≤ max 256 |x| := by
  rw [Int.abs_eq_natAbs, Int.abs_eq_natAbs, aLevel]
  split
  · have hnear := Companding.middle_near (a := 1) (by omega) 4 ((-x - 1).toNat / 8)
    have hhalf := Companding.half_le (a := 1) (by omega) 4 ((-x - 1).toNat / 8)
    omega
  · have hnear := Companding.middle_near (a := 1) (by omega) 4 (x.toNat / 8)
    have hhalf := Companding.half_le (a := 1) (by omega) 4 (x.toNat / 8)
    omega

/-- **Companding is faithful**: by either law a sample comes back in order, and
off by at most a thirty-second of its magnitude, or by half the least step. -/
theorem companding_faithful (x y : Int16) :
    (x ≤ y → decodeMuLaw (encodeMuLaw x) ≤ decodeMuLaw (encodeMuLaw y)) ∧
      32 * |(decodeMuLaw (encodeMuLaw x)).toInt - x.toInt| ≤ |x.toInt| + 132 ∧
      (x ≤ y → decodeALaw (encodeALaw x) ≤ decodeALaw (encodeALaw y)) ∧
      32 * |(decodeALaw (encodeALaw x)).toInt - x.toInt| ≤ max 256 |x.toInt| := by
  have hlo := x.le_toInt
  have hhi := x.toInt_lt
  simp only [Int16.le_iff_toInt_le, toInt_decodeMuLaw_encodeMuLaw, toInt_decodeALaw_encodeALaw]
  exact ⟨muLevel_mono, muLevel_error (by omega) (by omega), aLevel_mono, aLevel_error _⟩

end G711

end SipDemo
