import SipDemo.Rfc4733
import SipDemo.Run

/-!
# SipDemo.Rfc4733.Presses

What `DtmfDecoder` makes of whole key presses.

Within one press the decoder is a latch: a packet with the key still down arms
it and an end packet fires it when armed; the remembered duration only has to
show that no end packet of the press looks like a restarted one.  Lost packets leave the
latch right as long as each press is seen to start; packets out of order can
arm it a second time.
-/

namespace SipDemo

/-- The packets of one key press: updates while the key is down, then end
packets that repeat the final duration. -/
structure Press where
  event : UInt8
  duration : UInt16
  updates : List (List UInt8)
  ends : List (List UInt8)
  update_spec : ∀ x ∈ updates, ∃ ev, parseDtmfPayload x = some ev ∧ ev.event = event ∧
    ev.isEnd = false ∧ ev.duration ≤ duration
  end_spec : ∀ x ∈ ends, ∃ ev, parseDtmfPayload x = some ev ∧ ev.event = event ∧
    ev.isEnd = true ∧ ev.duration = duration
  ended : ends ≠ []

namespace Press

/-- The packets as they are sent. -/
def packets (p : Press) : List (List UInt8) := p.updates ++ p.ends

/-- The durations of the updates grow. -/
def Increasing (p : Press) : Prop :=
  (p.updates.filterMap parseDtmfPayload).Pairwise fun a b => a.duration < b.duration

instance (p : Press) : Decidable p.Increasing :=
  inferInstanceAs (Decidable (List.Pairwise _ _))

/-- The key 5: two updates and an end packet sent twice. -/
def keyFive : Press where
  event := 5
  duration := 160
  updates := [[5, 10, 0, 80], [5, 10, 0, 120]]
  ends := [[5, 138, 0, 160], [5, 138, 0, 160]]
  update_spec := by
    rw [List.forall_mem_cons, List.forall_mem_singleton]
    exact ⟨⟨_, rfl, rfl, rfl, by decide⟩, ⟨_, rfl, rfl, rfl, by decide⟩⟩
  end_spec := by
    rw [List.forall_mem_cons, List.forall_mem_singleton]
    exact ⟨⟨_, rfl, rfl, rfl, rfl⟩, ⟨_, rfl, rfl, rfl, rfl⟩⟩
  ended := List.cons_ne_nil _ _

end Press

/-- The E bit. -/
def isEndPacket (payload : List UInt8) : Bool := (parseDtmfPayload payload).any DtmfEvent.isEnd

theorem isEndPacket_update {p : Press} {x : List UInt8} (hx : x ∈ p.updates) :
    isEndPacket x = false := by
  obtain ⟨ev, hparse, _, hend, _⟩ := p.update_spec x hx
  rw [isEndPacket, hparse, Option.any_some, hend]

theorem isEndPacket_end {p : Press} {x : List UInt8} (hx : x ∈ p.ends) : isEndPacket x = true := by
  obtain ⟨ev, hparse, _, hend, _⟩ := p.end_spec x hx
  rw [isEndPacket, hparse, Option.any_some, hend]

theorem dtmfEventToChar_isSome_iff (event : UInt8) :
    (dtmfEventToChar event).isSome = true ↔ event ≤ 15 := by
  apply forall_byte _ event
  decide +kernel

namespace DtmfDecoder

/-- The decoder after a packet. -/
def next (s : DtmfDecoder) (payload : List UInt8) : DtmfDecoder := (s.feed payload).2

/-- The digit a packet completes. -/
def digit (s : DtmfDecoder) (payload : List UInt8) : List UInt8 := (s.feed payload).1.toList

/-- The digits of a sequence of packets. -/
def digits (s : DtmfDecoder) (payloads : List (List UInt8)) : List UInt8 :=
  Run.collect next digit s payloads

/-! ## the latch of one press -/

/-- The next end packet of the press emits. -/
def Armed (p : Press) (s : DtmfDecoder) : Prop :=
  s.lastEvent ≠ p.event.toNat ∨ s.emittedForCurrent = false

/-- The press has been emitted, if its event is a digit at all. -/
def Fired (p : Press) (s : DtmfDecoder) : Prop :=
  s.lastEvent = p.event.toNat ∧ s.emittedForCurrent = (dtmfEventToChar p.event).isSome ∧
    s.lastDuration = p.duration

variable {p : Press} {s : DtmfDecoder} {x : List UInt8} {ev : DtmfEvent}

theorem select_lastEvent (s : DtmfDecoder) (ev : DtmfEvent) :
    (s.select ev).lastEvent = ev.event.toNat := by
  unfold select
  split
  · rfl
  · next hsame => exact (not_not.mp hsame).symm

/-- A new event code finds the latch armed, and its own code finds it as it was. -/
theorem select_armed (harmed : Armed p s) (hevent : ev.event = p.event) :
    (s.select ev).emittedForCurrent = false := by
  unfold select
  split
  · rfl
  · next hsame =>
      rw [hevent] at hsame
      exact harmed.resolve_left fun hne => hsame hne.symm

theorem select_fired (hfired : Fired p s) (hevent : ev.event = p.event) : s.select ev = s := by
  unfold select
  rw [hevent, hfired.1]
  exact if_neg (not_not.mpr rfl)

/-- An update arms the latch, whatever came before. -/
theorem feed_update (s : DtmfDecoder) (hx : x ∈ p.updates) :
    s.digit x = [] ∧ Armed p (s.next x) ∧ (s.next x).lastEvent = p.event.toNat := by
  obtain ⟨ev, hparse, hevent, hend, hduration⟩ := p.update_spec x hx
  unfold Armed next digit feed
  simp [hparse, hend, select_lastEvent, hevent]

/-- An end packet fires an armed latch. -/
theorem feed_end_armed (hx : x ∈ p.ends) (harmed : Armed p s) :
    s.digit x = (dtmfEventToChar p.event).toList ∧ Fired p (s.next x) := by
  obtain ⟨ev, hparse, hevent, hend, hduration⟩ := p.end_spec x hx
  have hlatch := select_armed harmed hevent
  unfold Fired next digit feed
  cases hchar : dtmfEventToChar p.event with
  | none => simp [hparse, hend, hduration, hevent, hlatch, hchar, select_lastEvent]
  | some c => simp [hparse, hend, hduration, hevent, hlatch, hchar, select_lastEvent]

/-- Further end packets of the press are retransmissions. -/
theorem feed_end_fired (hx : x ∈ p.ends) (hfired : Fired p s) :
    s.digit x = [] ∧ Fired p (s.next x) := by
  obtain ⟨ev, hparse, hevent, hend, hduration⟩ := p.end_spec x hx
  have hselect := select_fired hfired hevent
  obtain ⟨hlast, hlatch, hlastDuration⟩ := hfired
  unfold Fired next digit feed
  cases hchar : dtmfEventToChar p.event with
  | none =>
      rw [hchar] at hlatch
      simp [hparse, hend, hduration, hevent, hselect, hlatch, hchar, hlast, hlastDuration]
  | some c =>
      rw [hchar] at hlatch
      simp [hparse, hend, hduration, hselect, hlatch, hlast, hlastDuration]

/-! ## presses with losses -/

@[simp] theorem digits_nil (s : DtmfDecoder) : s.digits [] = [] := rfl

@[simp] theorem digits_cons (s : DtmfDecoder) (x : List UInt8) (xs : List (List UInt8)) :
    s.digits (x :: xs) = s.digit x ++ (s.next x).digits xs := rfl

theorem digits_append (s : DtmfDecoder) (xs ys : List (List UInt8)) :
    s.digits (xs ++ ys) = s.digits xs ++ (Run.final next s xs).digits ys := Run.collect_append s xs ys

/-- Updates of a press are silent and leave the latch armed for it. -/
theorem digits_updates {us : List (List UInt8)} (hus : ∀ x ∈ us, x ∈ p.updates)
    (hs : us = [] → Armed p s) : s.digits us = [] ∧ Armed p (Run.final next s us) := by
  induction us generalizing s with
  | nil => exact ⟨rfl, hs rfl⟩
  | cons x us ih =>
      obtain ⟨hsilent, harmed, _⟩ := feed_update s (hus x List.mem_cons_self)
      obtain ⟨hrest, hfinal⟩ := ih (fun y hy => hus y (List.mem_cons_of_mem x hy)) fun _ => harmed
      rw [digits_cons, hsilent, hrest]
      exact ⟨rfl, hfinal⟩

/-- After the press has fired, its end packets are silent. -/
theorem digits_ends_fired {es : List (List UInt8)} (hes : ∀ x ∈ es, x ∈ p.ends)
    (hfired : Fired p s) : s.digits es = [] ∧ Fired p (Run.final next s es) := by
  induction es generalizing s with
  | nil => exact ⟨rfl, hfired⟩
  | cons x es ih =>
      obtain ⟨hsilent, hnext⟩ := feed_end_fired (hes x List.mem_cons_self) hfired
      obtain ⟨hrest, hfinal⟩ := ih (fun y hy => hes y (List.mem_cons_of_mem x hy)) hnext
      rw [digits_cons, hsilent, hrest]
      exact ⟨rfl, hfinal⟩

/-- One press, with losses, from a state in which it can be told from the one before. -/
theorem digits_press {received : List (List UInt8)} (hloss : received.Sublist p.packets)
    (hend : ∃ x ∈ received, isEndPacket x = true)
    (hstart : (∃ x ∈ received, isEndPacket x = false) ∨ s.lastEvent ≠ p.event.toNat) :
    s.digits received = (dtmfEventToChar p.event).toList ∧
      (Run.final next s received).lastEvent = p.event.toNat := by
  obtain ⟨us, es, rfl, hus, hes⟩ := List.sublist_append_iff.mp hloss
  have hupdates : ∀ x ∈ us, isEndPacket x = false := fun x hx => isEndPacket_update (hus.subset hx)
  have hends : ∀ x ∈ es, isEndPacket x = true := fun x hx => isEndPacket_end (hes.subset hx)
  have harmed : us = [] → Armed p s := by
    rintro rfl
    refine .inl (hstart.resolve_left ?_)
    rintro ⟨x, hx, hnot⟩
    rw [hends x hx] at hnot
    cases hnot
  obtain ⟨hsilent, hready⟩ := digits_updates (fun x hx => hus.subset hx) harmed
  cases es with
  | nil =>
      obtain ⟨x, hx, hxend⟩ := hend
      rw [List.append_nil] at hx
      rw [hupdates x hx] at hxend
      cases hxend
  | cons x es =>
      obtain ⟨hdigit, hfired⟩ := feed_end_armed (hes.subset List.mem_cons_self) hready
      obtain ⟨hrest, hdone⟩ :=
        digits_ends_fired (fun y hy => hes.subset (List.mem_cons_of_mem x hy)) hfired
      rw [digits_append, hsilent, digits_cons, hdigit, hrest, Run.final_append, Run.final_cons,
        List.append_nil, List.nil_append]
      exact ⟨rfl, hdone.1⟩

/-- What arrives of presses sent in order: of each an end packet, and an update
unless its event differs from that of the press before. -/
inductive Arrives : Option UInt8 → List Press → List (List (List UInt8)) → Prop
  | nil (previous : Option UInt8) : Arrives previous [] []
  | cons {previous : Option UInt8} {p : Press} {ps : List Press} {received : List (List UInt8)}
      {rest : List (List (List UInt8))} (hloss : received.Sublist p.packets)
      (hend : ∃ x ∈ received, isEndPacket x = true)
      (hstart : (∃ x ∈ received, isEndPacket x = false) ∨ previous ≠ some p.event)
      (hrest : Arrives (some p.event) ps rest) : Arrives previous (p :: ps) (received :: rest)

/-- What the decoder remembers of the press before. -/
def Follows (previous : Option UInt8) (s : DtmfDecoder) : Prop :=
  s.lastEvent = match previous with
    | some event => (event.toNat : Int)
    | none => -1

theorem lastEvent_ne {previous : Option UInt8} {event : UInt8} (hs : Follows previous s)
    (h : previous ≠ some event) : s.lastEvent ≠ event.toNat := by
  rw [hs]
  cases previous with
  | none =>
      change (-1 : Int) ≠ event.toNat
      omega
  | some e =>
      change (e.toNat : Int) ≠ event.toNat
      rwa [Ne, Int.ofNat_inj, UInt8.toNat_inj, ← Option.some_inj]

theorem digits_arrives {previous : Option UInt8} {presses : List Press}
    {received : List (List (List UInt8))} (h : Arrives previous presses received)
    (hs : Follows previous s) :
    s.digits received.flatten = presses.flatMap fun p => (dtmfEventToChar p.event).toList := by
  induction h generalizing s with
  | nil previous => rfl
  | cons hloss hend hstart _ ih =>
      obtain ⟨hdigit, hlast⟩ := digits_press hloss hend (hstart.imp_right (lastEvent_ne hs))
      rw [List.flatten_cons, digits_append, hdigit, ih hlast, List.flatMap_cons]

/-- The digits of the presses, and of those only. -/
theorem map_some_flatMap (presses : List Press) :
    (presses.flatMap fun p => (dtmfEventToChar p.event).toList).map some =
      (presses.filter fun p => p.event ≤ 15).map fun p => dtmfEventToChar p.event := by
  induction presses with
  | nil => rfl
  | cons p ps ih =>
      rw [List.flatMap_cons, List.map_append, ih, List.filter_cons]
      have hdigit := dtmfEventToChar_isSome_iff p.event
      cases hchar : dtmfEventToChar p.event with
      | none =>
          have hbig : ¬ p.event ≤ 15 := by
            rw [← hdigit, hchar]
            exact Bool.false_ne_true
          simp [hbig]
      | some c =>
          have hkey : p.event ≤ 15 := by
            rw [← hdigit, hchar]
            rfl
          simp [hkey, hchar]

/-- **Exactly once under loss**: if of every press an end packet arrives, and
an update or a change of the event code, the digits of the presses come out in
order, once each. -/
theorem digits_exactly_once (presses : List Press) (received : List (List (List UInt8)))
    (h : Arrives none presses received) :
    (digits {} received.flatten).map some =
      (presses.filter fun p => p.event ≤ 15).map fun p => dtmfEventToChar p.event := by
  have hstart : Follows none {} := rfl
  rw [digits_arrives h hstart]
  exact map_some_flatMap presses

/-- The key pressed twice; of the first press an update is lost, of the second
an update and an end packet. -/
theorem digits_exactly_once_keyFive :
    (digits {} [[5, 10, 0, 80], [5, 138, 0, 160], [5, 138, 0, 160], [5, 10, 0, 120],
        [5, 138, 0, 160]]).map some =
      [dtmfEventToChar 5, dtmfEventToChar 5] := by
  have hsecond : Arrives (some 5) [Press.keyFive] [[[5, 10, 0, 120], [5, 138, 0, 160]]] :=
    .cons (by decide) (by decide) (.inl (by decide)) (.nil (some 5))
  exact digits_exactly_once [Press.keyFive, Press.keyFive]
    [[[5, 10, 0, 80], [5, 138, 0, 160], [5, 138, 0, 160]], [[5, 10, 0, 120], [5, 138, 0, 160]]]
    (.cons (by decide) (by decide) (.inl (by decide)) hsecond)

/-! ## presses out of order -/

/-- How often the latch fires over a sequence of end bits. -/
def firings : (armed : Bool) → List Bool → Nat
  | _, [] => 0
  | _, false :: bits => firings true bits
  | true, true :: bits => firings false bits + 1
  | false, true :: bits => firings false bits

theorem firings_true_eq_zero_iff (bits : List Bool) : firings true bits = 0 ↔ true ∉ bits := by
  induction bits with
  | nil => simp [firings]
  | cons b bits ih => cases b <;> simp [firings, ih]

theorem firings_false_eq_zero_iff (bits : List Bool) :
    firings false bits = 0 ↔ ¬ [false, true].Sublist bits := by
  induction bits with
  | nil => simp [firings]
  | cons b bits ih =>
      cases b with
      | false => simp [firings, firings_true_eq_zero_iff]
      | true => simp [firings, ih, List.cons_sublist_cons']

/-- An armed latch fires once exactly when no update comes between two ends. -/
theorem firings_true_eq_one_iff (bits : List Bool) (h : true ∈ bits) :
    firings true bits = 1 ↔ ¬ [true, false, true].Sublist bits := by
  induction bits with
  | nil => cases h
  | cons b bits ih =>
      cases b with
      | false =>
          have hmem : true ∈ bits := by simpa using h
          simp [firings, ih hmem, List.cons_sublist_cons']
      | true => simp [firings, firings_false_eq_zero_iff]

/-- Over packets of one press, in any order, the decoder is the latch. -/
theorem length_digits_eq_firings (hkey : p.event ≤ 15) {arrived : List (List UInt8)}
    (hpackets : ∀ x ∈ arrived, x ∈ p.packets) (armed : Bool)
    (hs : if armed then Armed p s else Fired p s) :
    (s.digits arrived).length = firings armed (arrived.map isEndPacket) := by
  induction arrived generalizing s armed with
  | nil => rfl
  | cons x arrived ih =>
      have hrest := fun y hy => hpackets y (List.mem_cons_of_mem x hy)
      rw [digits_cons, List.length_append, List.map_cons]
      cases List.mem_append.mp (hpackets x List.mem_cons_self) with
      | inl hupdate =>
          obtain ⟨hsilent, harmed, _⟩ := feed_update s hupdate
          rw [hsilent, isEndPacket_update hupdate, ih hrest true harmed]
          cases armed <;> simp [firings]
      | inr hend =>
          rw [isEndPacket_end hend]
          cases armed with
          | true =>
              obtain ⟨hdigit, hfired⟩ := feed_end_armed hend hs
              obtain ⟨c, hc⟩ := Option.isSome_iff_exists.mp ((dtmfEventToChar_isSome_iff _).mpr hkey)
              rw [hdigit, hc, ih hrest false hfired]
              simp [firings, Nat.add_comm]
          | false =>
              obtain ⟨hsilent, hfired⟩ := feed_end_fired hend hs
              rw [hsilent, ih hrest false hfired]
              simp [firings]

/-- **Once per press, out of order**: packets of one press in any order and
number, an end packet among them, give one digit exactly when no update is fed
between two end packets. -/
theorem digits_once_iff (p : Press) (hkey : p.event ≤ 15) (arrived : List (List UInt8))
    (hpackets : ∀ x ∈ arrived, x ∈ p.packets) (hend : ∃ x ∈ arrived, isEndPacket x = true) :
    (digits {} arrived).length = 1 ↔
      ¬ [true, false, true].Sublist (arrived.map isEndPacket) := by
  have hfresh : Armed p {} := .inl (by
    change (-1 : Int) ≠ p.event.toNat
    omega)
  rw [length_digits_eq_firings hkey hpackets true hfresh]
  apply firings_true_eq_one_iff
  rw [List.mem_map]
  exact hend

/-- The packets of one press, the updates swapped and the end packet last. -/
theorem digits_once_iff_keyFive :
    (digits {} [[5, 10, 0, 120], [5, 10, 0, 80], [5, 10, 0, 80], [5, 138, 0, 160]]).length = 1 :=
  (digits_once_iff Press.keyFive (by decide)
    [[5, 10, 0, 120], [5, 10, 0, 80], [5, 10, 0, 80], [5, 138, 0, 160]] (by decide)
    (by decide)).mpr (by decide)

/-- A second end packet after a late update: the digit comes out twice. -/
theorem digits_twice_keyFive :
    ¬ ∀ (p : Press) (arrived : List (List UInt8)), p.event ≤ 15 → p.Increasing →
      (∀ x ∈ arrived, x ∈ p.packets) → (∃ x ∈ arrived, isEndPacket x = true) →
      (digits {} arrived).length = 1 := by
  intro hclaim
  have h := hclaim Press.keyFive
    [[5, 10, 0, 80], [5, 138, 0, 160], [5, 10, 0, 120], [5, 138, 0, 160]] (by decide) (by decide)
    (by decide) (by decide)
  exact absurd h (by decide)

end DtmfDecoder

end SipDemo
