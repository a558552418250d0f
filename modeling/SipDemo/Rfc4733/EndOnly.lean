import SipDemo.Rfc4733.Presses
import Mathlib.Data.List.Chain

/-!
# SipDemo.Rfc4733.EndOnly

Presses of one key of which only end packets arrive.

After a press the latch is fired and only a shorter duration arms it again:
`feed` takes a duration that restarts for a new press and a duration that grew
for a retransmission, so a press that is longer than the one before is
swallowed.
-/

namespace SipDemo

namespace DtmfDecoder

/-- The decoder after the end packets of a press. -/
def release (s : DtmfDecoder) (p : Press) : DtmfDecoder := Run.final next s p.ends

/-- What the end packets of each press emit, press by press. -/
def emissions (s : DtmfDecoder) (presses : List Press) : List (List UInt8) :=
  Run.collect release (fun s p => [s.digits p.ends]) s presses

variable {p q : Press} {s : DtmfDecoder} {x : List UInt8}

theorem emissions_cons (s : DtmfDecoder) (p : Press) (ps : List Press) :
    s.emissions (p :: ps) = s.digits p.ends :: (s.release p).emissions ps := rfl

/-- The digits of the whole stream are the emissions joined. -/
theorem digits_flatMap_ends (s : DtmfDecoder) (presses : List Press) :
    s.digits (presses.flatMap Press.ends) = (s.emissions presses).flatten := by
  induction presses generalizing s with
  | nil => rfl
  | cons p ps ih =>
      rw [List.flatMap_cons, digits_append, ih, emissions_cons, List.flatten_cons]
      rfl

/-! ## one press after another -/

/-- What the first end packet of a press emits is all its end packets emit. -/
theorem digits_ends_of_first {d : List UInt8}
    (h : ∀ x ∈ p.ends, s.digit x = d ∧ Fired p (s.next x)) :
    s.digits p.ends = d ∧ Fired p (s.release p) := by
  cases hends : p.ends with
  | nil => exact absurd hends p.ended
  | cons x es =>
      rw [hends] at h
      obtain ⟨hdigit, hfired⟩ := h x List.mem_cons_self
      obtain ⟨hrest, hdone⟩ := digits_ends_fired
        (fun y hy => hends ▸ List.mem_cons_of_mem x hy) hfired
      rw [release, hends, digits_cons, hdigit, hrest, List.append_nil]
      exact ⟨rfl, hdone⟩

/-- The first end packet of the next press fires again when its duration is
shorter than the one remembered, and is taken for a retransmission otherwise. -/
theorem feed_end_next (hx : x ∈ q.ends) (hfired : Fired p s) (hkey : q.event = p.event) :
    s.digit x = (if q.duration < p.duration then (dtmfEventToChar q.event).toList else []) ∧
      Fired q (s.next x) := by
  obtain ⟨ev, hparse, hevent, hend, hduration⟩ := q.end_spec x hx
  have hselect := select_fired hfired (hevent.trans hkey)
  obtain ⟨hlast, hlatch, hlastDuration⟩ := hfired
  have hpos : q.duration < p.duration → 0 < p.duration := by
    intro h
    rw [UInt16.lt_iff_toNat_lt] at h ⊢
    exact Nat.zero_lt_of_lt h
  unfold Fired next digit feed
  rw [← hkey] at hlast hlatch
  by_cases hshort : q.duration < p.duration <;>
    cases hchar : dtmfEventToChar q.event <;>
      simp_all

/-! ## presses of one key -/

/-- The second press is shorter. -/
def Shorter (p q : Press) : Prop := q.duration < p.duration

instance (p q : Press) : Decidable (Shorter p q) :=
  inferInstanceAs (Decidable (q.duration < p.duration))

/-- After a press, those that follow emit once each exactly when each is
shorter than the one before. -/
theorem emissions_next {event : UInt8} (hdigit : event ≤ 15) (hfired : Fired p s)
    (hp : p.event = event) {presses : List Press} (hkey : ∀ q ∈ presses, q.event = event) :
    s.emissions presses = presses.map (fun q => (dtmfEventToChar q.event).toList) ↔
      (p :: presses).IsChain Shorter := by
  induction presses generalizing p s with
  | nil => simp [emissions]
  | cons q presses ih =>
      have hq := hkey q List.mem_cons_self
      obtain ⟨hemit, hnext⟩ := digits_ends_of_first
        fun x hx => feed_end_next hx hfired (hq.trans hp.symm)
      have hchar := (dtmfEventToChar_isSome_iff event).mpr hdigit
      have hone : s.digits q.ends = (dtmfEventToChar q.event).toList ↔ Shorter p q := by
        rw [hemit, hq]
        obtain ⟨c, hc⟩ := Option.isSome_iff_exists.mp hchar
        by_cases hshort : q.duration < p.duration <;> simp [hshort, hc, Shorter]
      rw [emissions_cons, List.map_cons, List.cons.injEq, hone, List.isChain_cons_cons,
        ih hnext hq fun r hr => hkey r (List.mem_cons_of_mem q hr)]

/-- **End packets only.**  When of every press of one key only end packets
arrive, each press is emitted once if and only if every press is shorter than
the one before it. -/
theorem emissions_iff (event : UInt8) (hdigit : event ≤ 15) (presses : List Press)
    (hkey : ∀ p ∈ presses, p.event = event) :
    emissions {} presses = presses.map (fun p => (dtmfEventToChar p.event).toList) ↔
      presses.IsChain Shorter := by
  cases presses with
  | nil => simp [emissions]
  | cons p presses =>
      have hfresh : Armed p {} := .inl (by
        change (-1 : Int) ≠ p.event.toNat
        omega)
      obtain ⟨hemit, hfired⟩ := digits_ends_of_first
        fun x hx => feed_end_armed hx hfresh
      rw [emissions_cons, List.map_cons, hemit, List.cons.injEq,
        emissions_next hdigit hfired (hkey p List.mem_cons_self)
          fun q hq => hkey q (List.mem_cons_of_mem p hq)]
      exact and_iff_right rfl

/-- The key 5 released after `duration`, one end packet. -/
def releaseFive (high low : UInt8) : Press where
  event := 5
  duration := (high.toUInt16 <<< 8) ||| low.toUInt16
  updates := []
  ends := [[5, 138, high, low]]
  update_spec := fun x hx => absurd hx List.not_mem_nil
  end_spec := by
    rw [List.forall_mem_singleton]
    exact ⟨_, rfl, rfl, rfl, rfl⟩
  ended := List.cons_ne_nil _ _

/-- The second press is the shorter one: both are emitted. -/
theorem emissions_iff_shorter :
    emissions {} [releaseFive 0 160, releaseFive 0 80] = [[ch '5'], [ch '5']] :=
  (emissions_iff 5 (by decide) [releaseFive 0 160, releaseFive 0 80] (by decide)).mpr
    (by simp [Shorter, releaseFive])

/-- The second press is the longer one: it is swallowed. -/
theorem digits_longer :
    digits {} ([releaseFive 0 80, releaseFive 0 160].flatMap Press.ends) = [ch '5'] := by
  decide

end DtmfDecoder

end SipDemo
