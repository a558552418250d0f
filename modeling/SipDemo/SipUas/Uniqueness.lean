import Mathlib.Data.List.Nodup
import SipDemo.Bytes.Numerals
import SipDemo.SipUas.Response

/-!
# SipDemo.SipUas.Uniqueness

The tags that successive calls of `newTag` return.

A tag is `sd`, the digits of a random value and the digits of the counter, with
nothing between the two numerals.  So the counter alone does not tell two tags
apart: the front digits of a later counter may be read as the last digits of an
earlier random value.  `Collide` is that relation between two draws, and it is
the only way for two tags to be equal.
-/

namespace SipDemo

namespace SipUas

/-- The tags of `n` calls of `newTag`, in order. -/
def newTags : Nat → SipUas → List Str
  | 0, _ => []
  | n + 1, u => u.newTag.1 :: newTags n u.newTag.2

/-- The tag of a random value and a counter. -/
def tagOf (random counter : Nat) : Str := str "sd" ++ hexStr random ++ hexStr counter

variable {u : SipUas}

theorem newTag_eq (h : u.forcedTag = []) :
    u.newTag.1 = tagOf u.rng.head.toNat (u.tagCounter + 1).toNat ∧
      u.newTag.2.rng = u.rng.tail ∧ u.newTag.2.tagCounter = u.tagCounter + 1 := by
  rw [newTag, if_neg (not_not.mpr h)]
  exact ⟨rfl, rfl, rfl⟩

/-- The `i`-th call has the `i`-th random value and the counter `i + 1` further on. -/
theorem newTags_eq (h : u.forcedTag = []) (n : Nat) :
    u.newTags n = (List.range n).map fun i =>
      tagOf (u.rng.get i).toNat (u.tagCounter + UInt32.ofNat (i + 1)).toNat := by
  induction n generalizing u with
  | zero => rfl
  | succ n ih =>
      obtain ⟨htag, hrng, hcounter⟩ := newTag_eq h
      rw [newTags, ih (u.newTag_forcedTag.trans h), htag, hrng, hcounter, List.range_succ_eq_map,
        List.map_cons, List.map_map]
      congr 1
      refine List.map_congr_left fun i _ => ?_
      rw [Function.comp_apply, UInt32.add_assoc, Nat.succ_eq_add_one, UInt32.ofNat_add (i + 1),
        UInt32.add_comm 1]
      rfl

/-! ## equal tags -/

/-- The draws `x` at counter `a` and `y` at a later counter `b`: the digits of
`b` are those of some `q` and then those of `a`, and the digits of `x` are those
of `y`, not zero, and then those of `q`. -/
def Collide (x a y b : Nat) : Prop :=
  ∃ q, 0 < q ∧ b = q * 16 ^ (hexStr a).length + a ∧
    0 < y ∧ x = y * 16 ^ (hexStr q).length + q

/-- Two tags of different counters are equal only by a collision. -/
theorem tagOf_eq_iff {x a y b : Nat} (hab : a < b) :
    tagOf x a = tagOf y b ↔ Collide x a y b := by
  have hsplit : tagOf x a = tagOf y b ↔ hexStr x ++ hexStr a = hexStr y ++ hexStr b := by
    rw [tagOf, tagOf, List.append_assoc, List.append_assoc, List.append_right_inj]
  rw [hsplit]
  constructor
  · intro htags
    rcases List.append_eq_append_iff.mp htags with ⟨w, -, ha⟩ | ⟨w, hx, hb⟩
    · -- the digits of the smaller counter would end in those of the larger
      rcases hexStr_eq_append ha with ⟨-, heq⟩ | ⟨q, hq, -, heq⟩ <;> omega
    · rcases hexStr_eq_append hb with ⟨-, heq⟩ | ⟨q, hq, rfl, heq⟩
      · omega
      · obtain ⟨y', hy', hdigits, hx⟩ := (hexStr_eq_append_iff (hexStr_ne_nil y)).mp hx
        rw [← hexStr_inj hdigits] at hy' hx
        exact ⟨q, hq, heq, hy', hx⟩
  · rintro ⟨q, hq, rfl, hy, rfl⟩
    rw [hexStr_append hy, hexStr_append hq, List.append_assoc]

/-- While the counter has not wrapped, the calls on a new server count from 1. -/
theorem newTags_fresh (cfg : UasConfig) (rng : Stream' UInt32) {n : Nat} (hn : n < 2 ^ 32) :
    (fresh cfg [] rng).newTags n =
      (List.range n).map fun i => tagOf (rng.get i).toNat (i + 1) := by
  rw [newTags_eq rfl]
  refine List.map_congr_left fun i hi => ?_
  have hlt : i + 1 < 2 ^ 32 := by
    rw [List.mem_range] at hi
    omega
  have hcounter : ((0 : UInt32) + UInt32.ofNat (i + 1)).toNat = i + 1 := by
    rw [UInt32.zero_add, UInt32.toNat_ofNat_of_lt' hlt]
  exact congrArg (tagOf _) hcounter

/-- Fewer than 2^32 calls on one server return different tags if and only if no
two of their draws collide. -/
theorem newTags_nodup_iff (cfg : UasConfig) (rng : Stream' UInt32) {n : Nat} (hn : n < 2 ^ 32) :
    ((fresh cfg [] rng).newTags n).Nodup ↔
      ∀ a b, 0 < a → a < b → b ≤ n →
        ¬ Collide (rng.get (a - 1)).toNat a (rng.get (b - 1)).toNat b := by
  rw [newTags_fresh cfg rng hn, List.nodup_map_iff_inj_on List.nodup_range]
  simp only [List.mem_range]
  constructor
  · intro hinj a b ha hab hb hcollide
    have heq := hinj (a - 1) (by omega) (b - 1) (by omega)
    rw [Nat.sub_add_cancel ha, Nat.sub_add_cancel (ha.trans hab), tagOf_eq_iff hab] at heq
    have hsame := heq hcollide
    omega
  · intro hnone i hi j hj heq
    rcases lt_trichotomy i j with hlt | hsame | hgt
    · rw [tagOf_eq_iff (Nat.succ_lt_succ hlt)] at heq
      exact absurd heq (hnone (i + 1) (j + 1) (by omega) (by omega) (by omega))
    · exact hsame
    · rw [eq_comm, tagOf_eq_iff (Nat.succ_lt_succ hgt)] at heq
      exact absurd heq (hnone (j + 1) (i + 1) (by omega) (by omega) (by omega))

/-- The same draw twice gives two tags: the digits of 2 do not end in those of 1. -/
theorem newTags_nodup_iff_two : ((fresh {} [] (Stream'.const 7)).newTags 2).Nodup := by
  refine (newTags_nodup_iff {} (Stream'.const 7) (by decide)).mpr ?_
  rintro a b ha hab hb ⟨q, hq, hdigits, _, _⟩
  have hone : a = 1 := by omega
  have hpow : 16 ≤ 16 ^ (hexStr a).length := by
    rw [hone]
    decide
  have hwide : 16 ≤ q * 16 ^ (hexStr a).length := hpow.trans (Nat.le_mul_of_pos_left _ hq)
  omega

/-- The engine returns 0x11 first and 1 from then on: the first call and the
seventeenth both return `sd111`. -/
theorem newTags_repeats :
    (((fresh {} [] (Stream'.cons 0x11 (Stream'.const 1))).newTags 17)[0]? = some (str "sd111") ∧
        ((fresh {} [] (Stream'.cons 0x11 (Stream'.const 1))).newTags 17)[16]? =
          some (str "sd111")) ∧
      ¬ ∀ (cfg : UasConfig) (rng : Stream' UInt32) (n : Nat), n < 2 ^ 32 →
        ((fresh cfg [] rng).newTags n).Nodup := by
  refine ⟨by decide +kernel, fun hall => ?_⟩
  have hnodup := hall {} (Stream'.cons 0x11 (Stream'.const 1)) 17 (by decide)
  revert hnodup
  decide +kernel

end SipUas

end SipDemo
