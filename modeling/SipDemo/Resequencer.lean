import Mathlib.Algebra.Order.Group.Multiset
import Mathlib.Order.WithBot
import Mathlib.Tactic.Abel

/-!
# SipDemo.Resequencer

What a reordering buffer is for, over any slot order and any payload: values
arrive tagged with a slot, in any order, and leave slot by slot, upwards.

The state is the last slot that is over and the multiset of values still
waiting; `Step` says what one event may do to it.  A value is accepted for a
slot that is not over and not taken, and the slot that goes next — delivered,
dropped, or lost — is below everything that waits.

* `Steps.conserve` — every accepted value is delivered, dropped, or waiting;
* `Steps.departed_sorted` — slots go in strictly increasing order, so nothing
  that was delivered, dropped or lost is ever delivered again;
* `Steps.accepted_nodup` — no slot is accepted twice.

The module names nothing of the program; `SipDemo.JitterBuffer` refines it.
-/

namespace Resequencer

variable {κ α : Type*}

/-- What happens to one slot. -/
inductive Event (κ α : Type*) where
  | accepted (k : κ) (v : α)
  | delivered (k : κ) (v : α)
  | dropped (k : κ) (v : α)
  | lost (k : κ)

/-- The last slot that is over (`⊥` before the first) and what waits. -/
structure State (κ α : Type*) where
  last : WithBot κ
  pending : Multiset (κ × α)

/-- Nothing has arrived yet. -/
def State.init : State κ α := ⟨⊥, 0⟩

/-! ## what a history shows -/

/-- The accepted values, in order of arrival. -/
def accepted (es : List (Event κ α)) : List (κ × α) :=
  es.filterMap fun | .accepted k v => some (k, v) | _ => none

/-- The delivered values, in order of delivery. -/
def delivered (es : List (Event κ α)) : List (κ × α) :=
  es.filterMap fun | .delivered k v => some (k, v) | _ => none

/-- The values given up before their turn. -/
def dropped (es : List (Event κ α)) : List (κ × α) :=
  es.filterMap fun | .dropped k v => some (k, v) | _ => none

/-- The slots that are over, in the order they went. -/
def departed (es : List (Event κ α)) : List κ :=
  es.filterMap fun | .accepted _ _ => none | .delivered k _ | .dropped k _ | .lost k => some k

@[simp] theorem accepted_append (es fs : List (Event κ α)) :
    accepted (es ++ fs) = accepted es ++ accepted fs := List.filterMap_append

@[simp] theorem delivered_append (es fs : List (Event κ α)) :
    delivered (es ++ fs) = delivered es ++ delivered fs := List.filterMap_append

@[simp] theorem dropped_append (es fs : List (Event κ α)) :
    dropped (es ++ fs) = dropped es ++ dropped fs := List.filterMap_append

theorem accepted_cons (e : Event κ α) (es : List (Event κ α)) :
    accepted (e :: es) = accepted [e] ++ accepted es := accepted_append [e] es

theorem departed_cons (e : Event κ α) (es : List (Event κ α)) :
    departed (e :: es) = departed [e] ++ departed es := List.filterMap_append (l := [e])

/-- Delivered slots are departed slots, in the same order. -/
theorem delivered_sublist_departed (es : List (Event κ α)) :
    ((delivered es).map Prod.fst).Sublist (departed es) := by
  induction es with
  | nil => exact .slnil
  | cons e es ih =>
      cases e with
      | accepted k v => exact ih
      | delivered k v => exact ih.cons_cons k
      | dropped k v => exact ih.cons k
      | lost k => exact ih.cons k

/-- A slot that is not among the others keeps them pairwise distinct. -/
theorem nodup_slots_cons {k : κ} {v : α} {l : List (κ × α)} {rest : Multiset (κ × α)}
    (hl : ∀ p ∈ l, p.1 ≠ k) (hrest : k ∉ rest.map Prod.fst)
    (h : (((l : Multiset (κ × α)) + rest).map Prod.fst).Nodup) :
    (((l : Multiset (κ × α)) + ((k, v) ::ₘ rest)).map Prod.fst).Nodup := by
  rw [Multiset.add_cons, Multiset.map_cons, Multiset.nodup_cons, Multiset.map_add,
    Multiset.mem_add, ← Multiset.map_add]
  refine ⟨fun hk => hk.elim (fun hk => ?_) hrest, h⟩
  obtain ⟨p, hp, heq⟩ := Multiset.mem_map.mp hk
  exact hl p hp heq

/-! ## steps -/

variable [LinearOrder κ]

/-- Slot `k` is not over yet. -/
def State.Open (s : State κ α) (k : κ) : Prop := s.last < k

inductive Step : State κ α → Event κ α → State κ α → Prop
  | accept {s : State κ α} {k : κ} {v : α} (hk : s.Open k) (hfree : ∀ q ∈ s.pending, q.1 ≠ k) :
      Step s (.accepted k v) ⟨s.last, (k, v) ::ₘ s.pending⟩
  | deliver {s : State κ α} {k : κ} {v : α} {rest : Multiset (κ × α)} (hk : s.Open k)
      (hmem : s.pending = (k, v) ::ₘ rest) (hmin : ∀ q ∈ rest, k < q.1) :
      Step s (.delivered k v) ⟨k, rest⟩
  | drop {s : State κ α} {k : κ} {v : α} {rest : Multiset (κ × α)} (hk : s.Open k)
      (hmem : s.pending = (k, v) ::ₘ rest) (hmin : ∀ q ∈ rest, k < q.1) :
      Step s (.dropped k v) ⟨k, rest⟩
  | lose {s : State κ α} {k : κ} (hk : s.Open k) (hmin : ∀ q ∈ s.pending, k < q.1) :
      Step s (.lost k) ⟨k, s.pending⟩

inductive Steps : State κ α → List (Event κ α) → State κ α → Prop
  | nil (s : State κ α) : Steps s [] s
  | cons {s t u : State κ α} {e : Event κ α} {es : List (Event κ α)} (h : Step s e t)
      (hs : Steps t es u) : Steps s (e :: es) u

theorem Step.steps {s t : State κ α} {e : Event κ α} (h : Step s e t) : Steps s [e] t :=
  .cons h (.nil t)

theorem Steps.append {s t u : State κ α} {es fs : List (Event κ α)} (h : Steps s es t)
    (h' : Steps t fs u) : Steps s (es ++ fs) u := by
  induction h with
  | nil => exact h'
  | cons hstep _ ih => exact .cons hstep (ih h')

/-! ## conservation -/

theorem Step.conserve {s t : State κ α} {e : Event κ α} (h : Step s e t) :
    (accepted [e] : Multiset (κ × α)) + s.pending =
      (delivered [e] : Multiset (κ × α)) + (dropped [e] : Multiset (κ × α)) + t.pending := by
  cases h with
  | accept hk hfree => simp [accepted, delivered, dropped]
  | deliver hk hmem hmin => simp [accepted, delivered, dropped, hmem]
  | drop hk hmem hmin => simp [accepted, delivered, dropped, hmem]
  | lose hk hmin => simp [accepted, delivered, dropped]

/-- **Conservation**: what was accepted, with what waited before, is what was
delivered and dropped, with what waits now. -/
theorem Steps.conserve {s t : State κ α} {es : List (Event κ α)} (h : Steps s es t) :
    (accepted es : Multiset (κ × α)) + s.pending =
      (delivered es : Multiset (κ × α)) + (dropped es : Multiset (κ × α)) + t.pending := by
  induction h with
  | nil s => simp [accepted, delivered, dropped]
  | @cons s m u e es hstep _ ih =>
      have hsplit : e :: es = [e] ++ es := rfl
      rw [hsplit, accepted_append, delivered_append, dropped_append, ← Multiset.coe_add,
        ← Multiset.coe_add, ← Multiset.coe_add, add_right_comm, hstep.conserve,
        add_right_comm _ m.pending, add_assoc _ _ m.pending, ih]
      abel

/-- From the start, the delivered values are among the accepted ones, each as
often at most as it was accepted. -/
theorem Steps.delivered_subperm {t : State κ α} {es : List (Event κ α)}
    (h : Steps State.init es t) : (delivered es).Subperm (accepted es) := by
  have hcons := h.conserve
  rw [State.init, add_zero, add_assoc] at hcons
  rw [← Multiset.coe_le, hcons]
  exact Multiset.le_add_right _ _

/-! ## order -/

theorem Step.last_le {s t : State κ α} {e : Event κ α} (h : Step s e t) : s.last ≤ t.last := by
  cases h with
  | accept => exact le_rfl
  | deliver hk => exact hk.le
  | drop hk => exact hk.le
  | lose hk => exact hk.le

/-- A slot that goes is above the last one that went, and is the last now. -/
theorem Step.departed_last {s t : State κ α} {e : Event κ α} (h : Step s e t) :
    departed [e] = [] ∨ ∃ k, departed [e] = [k] ∧ s.last < k ∧ t.last = k := by
  cases h with
  | accept => exact .inl rfl
  | @deliver k _ _ hk => exact .inr ⟨k, rfl, hk, rfl⟩
  | @drop k _ _ hk => exact .inr ⟨k, rfl, hk, rfl⟩
  | @lose k hk => exact .inr ⟨k, rfl, hk, rfl⟩

/-- Slots go upwards, all of them above the ones that were over before. -/
theorem Steps.departed_sorted {s t : State κ α} {es : List (Event κ α)} (h : Steps s es t) :
    (departed es).Pairwise (· < ·) ∧ ∀ k ∈ departed es, s.last < k := by
  induction h with
  | nil => exact ⟨.nil, fun k hk => absurd hk List.not_mem_nil⟩
  | @cons s m u e es hstep _ ih =>
      obtain ⟨hsorted, habove⟩ := ih
      rw [departed_cons]
      rcases hstep.departed_last with hnone | ⟨k, hone, hk, hlast⟩
      · rw [hnone, List.nil_append]
        exact ⟨hsorted, fun k hk => hstep.last_le.trans_lt (habove k hk)⟩
      · rw [hone, List.singleton_append]
        rw [hlast] at habove
        refine ⟨.cons (fun k' hk' => WithBot.coe_lt_coe.mp (habove k' hk')) hsorted, ?_⟩
        intro k' hk'
        cases List.mem_cons.mp hk' with
        | inl heq => exact heq ▸ hk
        | inr hmem => exact hk.trans (habove k' hmem)

/-- Deliveries are in strictly increasing slot order. -/
theorem Steps.delivered_sorted {s t : State κ α} {es : List (Event κ α)} (h : Steps s es t) :
    ((delivered es).map Prod.fst).Pairwise (· < ·) :=
  h.departed_sorted.1.sublist (delivered_sublist_departed es)

/-- Nothing is delivered for a slot that is over. -/
theorem Steps.last_lt_of_delivered {s t : State κ α} {es : List (Event κ α)} (h : Steps s es t)
    {p : κ × α} (hp : p ∈ delivered es) : s.last < p.1 :=
  h.departed_sorted.2 p.1
    ((delivered_sublist_departed es).subset (List.mem_map_of_mem hp))

/-! ## no slot twice -/

/-- Nothing is accepted for a slot that is over. -/
theorem Steps.last_lt_of_accepted {s t : State κ α} {es : List (Event κ α)} (h : Steps s es t)
    {p : κ × α} (hp : p ∈ accepted es) : s.last < p.1 := by
  induction h with
  | nil => exact absurd hp List.not_mem_nil
  | @cons s m u e es hstep _ ih =>
      rw [accepted_cons, List.mem_append] at hp
      cases hp with
      | inr hp => exact hstep.last_le.trans_lt (ih hp)
      | inl hp =>
          cases hstep with
          | accept hk hfree =>
              have heq : p = _ := List.mem_singleton.mp hp
              rw [heq]
              exact hk
          | deliver => exact absurd hp List.not_mem_nil
          | drop => exact absurd hp List.not_mem_nil
          | lose => exact absurd hp List.not_mem_nil

/-- The slots accepted along the way are pairwise distinct, and distinct from
those that waited before. -/
theorem Steps.nodup_slots {s t : State κ α} {es : List (Event κ α)} (h : Steps s es t)
    (hs : (s.pending.map Prod.fst).Nodup) :
    (((accepted es : Multiset (κ × α)) + s.pending).map Prod.fst).Nodup := by
  induction h with
  | nil s => simpa [accepted] using hs
  | @cons s m u e es hstep hsteps ih =>
      cases hstep with
      | @accept k v hk hfree =>
          have hfresh : k ∉ s.pending.map Prod.fst := by
            intro hmem
            obtain ⟨q, hq, hqk⟩ := Multiset.mem_map.mp hmem
            exact hfree q hq hqk
          have hnodup := ih (by rw [Multiset.map_cons]; exact Multiset.nodup_cons.mpr ⟨hfresh, hs⟩)
          have hmoved : (accepted (.accepted k v :: es) : Multiset (κ × α)) + s.pending =
              (accepted es : Multiset (κ × α)) + ((k, v) ::ₘ s.pending) := by
            rw [Multiset.add_cons, ← Multiset.cons_add, Multiset.cons_coe]
            rfl
          rw [hmoved]
          exact hnodup
      | @deliver k v rest hk hmem hmin | @drop k v rest hk hmem hmin =>
          rw [hmem, Multiset.map_cons, Multiset.nodup_cons] at hs
          rw [hmem]
          have hlate : ∀ p ∈ accepted es, p.1 ≠ k := fun p hp =>
            (WithBot.coe_lt_coe.mp (hsteps.last_lt_of_accepted hp)).ne'
          exact nodup_slots_cons hlate hs.1 (ih hs.2)
      | lose => exact ih hs

/-- From the start, no slot is accepted twice. -/
theorem Steps.accepted_nodup {t : State κ α} {es : List (Event κ α)}
    (h : Steps State.init es t) : ((accepted es).map Prod.fst).Nodup := by
  have hnodup := h.nodup_slots (by simp [State.init])
  simpa [State.init] using hnodup

end Resequencer
