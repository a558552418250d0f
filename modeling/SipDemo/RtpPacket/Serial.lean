import SipDemo.RtpStats
import SipDemo.JitterBuffer

/-!
# SipDemo.RtpPacket.Serial

The two sequence-number arithmetics side by side: the 16-bit comparisons
`seqLess` and `seqDiff`, and the unwrapping loops that the jitter buffer and the
reception statistics run against a 64-bit reference.

They agree except half a sequence space away.  There `seqDiff` answers -32768,
below the range that its header gives it, and `extend` goes up or down with the
place of the reference in its block.
-/

namespace SipDemo

/-- The sequence number of an extended one, `static_cast<uint16_t>(r)`. -/
def lowBits (r : Int) : UInt16 := UInt16.ofInt r

theorem toNat_lowBits (r : Int) : ((lowBits r).toNat : Int) = r % 65536 := by
  simp only [lowBits, UInt16.ofInt, UInt16.toNat_ofNat']
  omega

theorem toNat_seq_sub (a b : UInt16) : ((b - a).toNat : Int) = (b.toNat - a.toNat) % 65536 := by
  have ha := a.toNat_lt
  have hb := b.toNat_lt
  rw [UInt16.toNat_sub]
  omega

/-! ## the 16-bit side -/

/-- `seqDiff` is the representative of the difference in `[-32768, 32768)`. -/
theorem seqDiff_spec (a b : UInt16) :
    seqDiff a b % 65536 = (b.toNat - a.toNat) % 65536 ∧
      -32768 ≤ seqDiff a b ∧ seqDiff a b < 32768 := by
  have hgap := toNat_seq_sub a b
  have hcast : seqDiff a b = Int.bmod (b - a).toNat 65536 :=
    BitVec.toInt_eq_toNat_bmod (b - a).toBitVec
  rw [hcast, hgap, Int.bmod_def]
  split <;> omega

/-- The order is the sign of the distance. -/
theorem seqLess_iff (a b : UInt16) : seqLess a b ↔ 0 < seqDiff a b := by
  have hgap := toNat_seq_sub a b
  have hdiff := seqDiff_spec a b
  have hne : a ≠ b ↔ a.toNat ≠ b.toNat := UInt16.toNat_inj.not.symm
  have ha := a.toNat_lt
  have hb := b.toNat_lt
  have hhalf : (0x8000 : UInt16).toNat = 32768 := rfl
  simp only [seqLess, hne, decide_eq_true_eq, UInt16.lt_iff_toNat_lt, hhalf]
  omega

/-! ## the unwrapping side -/

/-- Neither loop turns when the number in the block of the reference is at most
half a space away. -/
theorem extendSeq_of_near {r : Int} {seq : UInt16} (hr : 0 ≤ r)
    (hlo : -32768 ≤ seq.toNat - r % 65536) (hhi : seq.toNat - r % 65536 ≤ 32768) :
    extendSeq seq r = r - r % 65536 + seq.toNat := by
  rw [extendSeq, Int.tmod_eq_emod_of_nonneg hr, stepDown, if_neg (by omega), stepUp,
    if_neg (by omega)]

/-- The distance is that of the 16-bit side, but for the number that lies half a
space up in the block of the reference. -/
theorem extendSeq_distance_iff {r : Int} {seq : UInt16} (hr : 0 ≤ r) :
    extendSeq seq r - r = seqDiff (lowBits r) seq ↔ (seq.toNat : Int) ≠ r % 65536 + 32768 := by
  have hspec := extendSeq_spec seq r
  have hdiff := seqDiff_spec (lowBits r) seq
  have hseq := seq.toNat_lt
  rw [toNat_lowBits] at hdiff
  by_cases hhalf : seq.toNat - r % 65536 = 32768 ∨ seq.toNat - r % 65536 = -32768
  · have hext : extendSeq seq r = r - r % 65536 + seq.toNat :=
      extendSeq_of_near hr (by omega) (by omega)
    omega
  · omega

/-- The forward gap is half the space when the number lies half a space up or
down in the block. -/
theorem gap_eq_half_iff {r : Int} {seq : UInt16} :
    seq - lowBits r = 0x8000 ↔
      (seq.toNat : Int) = r % 65536 + 32768 ∨ (seq.toNat : Int) = r % 65536 - 32768 := by
  have hgap := toNat_seq_sub (lowBits r) seq
  have hseq := seq.toNat_lt
  have hhalf : (0x8000 : UInt16).toNat = 32768 := rfl
  rw [toNat_lowBits] at hgap
  rw [← UInt16.toNat_inj, hhalf]
  omega

/-! ## agreement -/

/-- `extend` finds a number with the given low 16 bits within half a space of
the reference, at the distance and on the side that the 16-bit comparisons give. -/
structure Unwraps (extend : UInt16 → Int → Int) (seq : UInt16) (r : Int) : Prop where
  emod_eq : extend seq r % 65536 = seq.toNat
  near : -32768 ≤ extend seq r - r ∧ extend seq r - r ≤ 32768
  distance : extend seq r - r = seqDiff (lowBits r) seq
  exceeds : r < extend seq r ↔ seqLess (lowBits r) seq

/-- The distance is the same wherever the reference lies in its block: it
depends on the forward gap only. -/
def Uniform (extend : UInt16 → Int → Int) (seq : UInt16) (r : Int) : Prop :=
  ∀ (seq' : UInt16) (r' : Int), 0 ≤ r' → seq' - lowBits r' = seq - lowBits r →
    extend seq' r' - r' = extend seq r - r

theorem unwraps_extendSeq_iff {r : Int} {seq : UInt16} (hr : 0 ≤ r) :
    Unwraps extendSeq seq r ↔ (seq.toNat : Int) ≠ r % 65536 + 32768 := by
  rw [← extendSeq_distance_iff hr]
  constructor
  · exact Unwraps.distance
  · intro hdist
    have hspec := extendSeq_spec seq r
    refine ⟨hspec.1, by omega, hdist, ?_⟩
    rw [seqLess_iff, ← hdist]
    omega

/-- At half a space the two halves of a block answer differently. -/
theorem not_uniform_of_half {r : Int} {seq : UInt16} (hgap : seq - lowBits r = 0x8000) :
    ¬ Uniform extendSeq seq r := by
  intro huniform
  have hup := huniform 0x8000 0 (by decide) (by rw [hgap]; rfl)
  have hdown := huniform 0 32768 (by decide) (by rw [hgap]; rfl)
  rw [extendSeq_of_near (by decide) (by decide) (by decide)] at hup hdown
  have hsame := hup.trans hdown.symm
  exact absurd hsame (by decide)

theorem uniform_of_not_half {r : Int} {seq : UInt16} (hr : 0 ≤ r)
    (hgap : seq - lowBits r ≠ 0x8000) : Uniform extendSeq seq r := by
  intro seq' r' hr' hsame
  have hgap' : seq' - lowBits r' ≠ 0x8000 := by rwa [hsame]
  rw [Ne, gap_eq_half_iff, not_or] at hgap hgap'
  rw [(extendSeq_distance_iff hr).mpr hgap.1, (extendSeq_distance_iff hr').mpr hgap'.1, seqDiff,
    hsame, seqDiff]

/-- The unwrapping of the jitter buffer and of the statistics agrees with
`seqDiff` and `seqLess` unless the number lies half a space up in the block of
the reference, and is moreover independent of the place in the block unless the
forward gap is half the space. -/
theorem extend_agrees_iff (seq : UInt16) {r : Int} (hr : 0 ≤ r) :
    (Unwraps JitterBuffer.extend seq r ∧ Unwraps RtpStats.extend seq r ↔
        (seq.toNat : Int) ≠ r % 65536 + 32768) ∧
      ((Unwraps JitterBuffer.extend seq r ∧ Uniform JitterBuffer.extend seq r) ∧
          Unwraps RtpStats.extend seq r ∧ Uniform RtpStats.extend seq r ↔
        seq - lowBits r ≠ 0x8000) := by
  have hshared : JitterBuffer.extend = extendSeq ∧ RtpStats.extend = extendSeq := ⟨rfl, rfl⟩
  rw [hshared.1, hshared.2, and_self_iff, and_self_iff, unwraps_extendSeq_iff hr]
  refine ⟨Iff.rfl, ?_, ?_⟩
  · rintro ⟨-, huniform⟩ hgap
    exact not_uniform_of_half hgap huniform
  · intro hgap
    refine ⟨?_, uniform_of_not_half hr hgap⟩
    rw [Ne, gap_eq_half_iff, not_or] at hgap
    exact hgap.1

/-- Over the wrap they agree. -/
theorem extend_agrees_iff_wrap :
    (Unwraps JitterBuffer.extend 0 65535 ∧ Uniform JitterBuffer.extend 0 65535) ∧
      Unwraps RtpStats.extend 0 65535 ∧ Uniform RtpStats.extend 0 65535 :=
  (extend_agrees_iff 0 (by decide)).2.mpr (by decide)

/-- From reference 0, number 32768 is unwrapped 32768 up; `seqDiff` is -32768
and `seqLess` says that 0 does not precede it.  From reference 32768, number 0
is as far ahead and is unwrapped 32768 down. -/
theorem extend_half_disagrees :
    (JitterBuffer.extend 0x8000 0 = 32768 ∧ RtpStats.extend 0x8000 0 = 32768 ∧
        seqDiff (lowBits 0) 0x8000 = -32768 ∧ seqLess (lowBits 0) 0x8000 = false) ∧
      (JitterBuffer.extend 0 32768 = 0 ∧ (0 : UInt16) - lowBits 32768 = 0x8000 - lowBits 0) ∧
      ¬ ∀ (r : Int) (seq : UInt16), 0 ≤ r →
        (Unwraps JitterBuffer.extend seq r ∧ Uniform JitterBuffer.extend seq r) ∧
          Unwraps RtpStats.extend seq r ∧ Uniform RtpStats.extend seq r := by
  have hup : extendSeq 0x8000 0 = 32768 :=
    extendSeq_of_near (by decide) (by decide) (by decide)
  have hdown : extendSeq 0 32768 = 0 :=
    extendSeq_of_near (by decide) (by decide) (by decide)
  refine ⟨⟨hup, hup, by decide, by decide⟩, ⟨hdown, by decide⟩, ?_⟩
  intro hall
  have hdist := (hall 0 0x8000 (by decide)).1.1.distance
  rw [show JitterBuffer.extend 0x8000 0 = 32768 from hup] at hdist
  exact absurd hdist (by decide)

end SipDemo
