import SipDemo.BoundedQueue.Threads
import SipDemo.Census

/-!
# SipDemo.BoundedQueue.Wakeups

No wake-up is lost: whoever sleeps while there is something for it has a
notification on its way.

The invariant counts.  While the queue is open and somebody sleeps on a
condition variable, what the sleepers wait for (items on `notEmpty_`, free
slots on `notFull_`) is covered by the notifications that are still to be
executed and the woken threads that are still to look.  Every step that adds an
item adds a notification, every notification that is spent adds a woken thread
or finds nobody asleep, and a thread only goes to sleep when there is nothing.
-/

namespace SipDemo

namespace BoundedQueue

variable {ι α : Type*}

/-! ## what is counted -/

namespace Phase

/-- With a `notify_one` on `c` still to be executed. -/
def notifies (c : Cond) : Phase α → Bool
  | .notifying d | .holding d => d = c
  | _ => false

/-- With a `notify_all` on `c` still to be executed. -/
def notifiesAll (c : Cond) : Phase α → Bool
  | .closing => true
  | .closingFull => c = .notFull
  | _ => false

/-- Woken from `c` and still to evaluate the predicate. -/
def wokenFrom (c : Cond) : Phase α → Bool
  | .woken w => w.cond = c
  | _ => false

/-- A notification on `c` takes nobody but its sleepers anywhere. -/
theorem wake_kinds (c e : Cond) (phase : Phase α) :
    (phase.wake c).sleepsOn e = (phase.sleepsOn e && c ≠ e) ∧
      (phase.wake c).notifies e = phase.notifies e ∧
      (phase.wake c).notifiesAll e = phase.notifiesAll e ∧
      (c ≠ e → (phase.wake c).wokenFrom e = phase.wokenFrom e) := by
  cases phase with
  | asleep w =>
      by_cases hw : w.cond = c
      · rw [show (asleep w).wake c = .woken w from if_pos hw]
        refine ⟨?_, rfl, rfl, fun hne => decide_eq_false (hw ▸ hne)⟩
        simp [sleepsOn, hw]
      · rw [show (asleep w).wake c = .asleep w from if_neg hw]
        refine ⟨?_, rfl, rfl, fun _ => rfl⟩
        by_cases he : w.cond = e
        · simp [sleepsOn, he, show c ≠ e from fun h => hw (he.trans h.symm)]
        · simp [sleepsOn, he]
  | _ => exact ⟨rfl, rfl, rfl, fun _ => rfl⟩

theorem sleepsOn_eq_true {c : Cond} {phase : Phase α} (h : phase.sleepsOn c = true) :
    ∃ w, phase = .asleep w ∧ w.cond = c := by
  cases phase with
  | asleep w => exact ⟨w, rfl, of_decide_eq_true h⟩
  | _ => cases h

end Phase

/-- What the sleepers of `c` wait for: items, or free slots. -/
def supply (b : BoundedQueue α) : Cond → Nat
  | .notEmpty => b.q.length
  | .notFull => b.capacity - b.q.length

namespace Threads

/-- What a thread may be doing before a critical section: nothing, or it has
been woken for it. -/
def Enters (s : Threads ι α) (t : ι) (c : Cond) : Prop :=
  s.phase t = .idle ∨ ∃ w, s.phase t = .woken w ∧ w.cond = c

theorem Enters.phase {s : Threads ι α} {t : ι} {d : Cond} (ht : s.Enters t d) (e : Cond) :
    (s.phase t).notifies e = false ∧ (s.phase t).notifiesAll e = false ∧
      (e ≠ d → (s.phase t).wokenFrom e = false) := by
  rcases ht with hidle | ⟨w, hwoken, rfl⟩
  · rw [hidle]
    exact ⟨rfl, rfl, fun _ => rfl⟩
  · rw [hwoken]
    exact ⟨rfl, rfl, fun hne => decide_eq_false fun heq => hne heq.symm⟩

/-- Who runs a critical section was idle, or woken for it. -/
theorem operation_enters {s : Threads ι α} {a : Action ι α} {t : ι} {op : Op α}
    (h : s.operation a = some (t, op)) :
    s.phase t = .idle ∨ ∃ w, s.phase t = .woken w ∧ w.op = op := by
  cases a with
  | call u call =>
      simp only [operation] at h
      split at h
      · next hidle _ =>
          cases h
          exact .inl hidle
      · cases h
  | recheck u =>
      simp only [operation] at h
      split at h
      · next w hwoken _ =>
          cases h
          exact .inr ⟨w, hwoken, rfl⟩
      · cases h
  | notifyOne u w => cases h
  | notifyAll u => cases h
  | spurious u => cases h

variable [Fintype ι] (s : Threads ι α) (c : Cond)

def sleepers : Nat := census (Phase.sleepsOn c) s.phase

def pending : Nat := census (Phase.notifies c) s.phase

def pendingAll : Nat := census (Phase.notifiesAll c) s.phase

def woken : Nat := census (Phase.wokenFrom c) s.phase

/-- **The counting invariant.** -/
structure Covered : Prop where
  live : s.queue.closed = false → ∀ c, 0 < s.sleepers c →
    s.queue.supply c ≤ s.pending c + s.woken c
  closing : s.queue.closed = true → ∀ c, 0 < s.sleepers c → 0 < s.pendingAll c

variable {s}

theorem covered_start (capacity : Nat) : Covered (start capacity : Threads ι α) := by
  have hnobody : ∀ c, (start capacity : Threads ι α).sleepers c = 0 :=
    fun c => (Census.eq_zero_iff _ _).mpr fun _ => rfl
  constructor
  · intro _ c h
    rw [hnobody c] at h
    exact absurd h (Nat.lt_irrefl 0)
  · intro _ c h
    rw [hnobody c] at h
    exact absurd h (Nat.lt_irrefl 0)

/-- Notifications leave the queue alone; on each condition variable they leave
nobody asleep, or no more than before and as much on its way. -/
theorem Covered.of_counts (h : Covered s) {s' : Threads ι α} (hq : s'.queue = s.queue)
    (hcounts : ∀ c, s'.sleepers c = 0 ∨ s'.sleepers c ≤ s.sleepers c ∧
      s.pending c + s.woken c ≤ s'.pending c + s'.woken c ∧ s.pendingAll c ≤ s'.pendingAll c) :
    Covered s' := by
  constructor
  · intro hopen c hsleeps
    rw [hq] at hopen ⊢
    have hbefore := h.live hopen c
    have hc := hcounts c
    omega
  · intro hclosed c hsleeps
    rw [hq] at hclosed
    have hbefore := h.closing hclosed c
    have hc := hcounts c
    omega

/-- `notify_all` leaves nobody asleep on its condition variable, and the counts
of the other as they were. -/
theorem counts_wakeAll (s : Threads ι α) (c e : Cond) :
    (s.wakeAll c).sleepers e = (if c = e then 0 else s.sleepers e) ∧
      (s.wakeAll c).pending e = s.pending e ∧ (s.wakeAll c).pendingAll e = s.pendingAll e ∧
      (c ≠ e → (s.wakeAll c).woken e = s.woken e) := by
  refine ⟨?_, Census.congr fun t => (Phase.wake_kinds c e (s.phase t)).2.1,
    Census.congr fun t => (Phase.wake_kinds c e (s.phase t)).2.2.1,
    fun hne => Census.congr fun t => (Phase.wake_kinds c e (s.phase t)).2.2.2 hne⟩
  split
  · next he =>
      refine (Census.eq_zero_iff _ _).mpr fun t => ?_
      exact (Phase.wake_kinds c e (s.phase t)).1.trans (by simp [he])
  · next he =>
      refine Census.congr fun t => ?_
      exact (Phase.wake_kinds c e (s.phase t)).1.trans (by simp [he])

/-! ## one thread moves -/

variable [DecidableEq ι]

/-- Each count loses the old phase of the thread and gains the new one. -/
theorem counts_moved (s s' : Threads ι α) {t : ι} {phase : Phase α}
    (h : s'.phase = Function.update s.phase t phase) (c : Cond) :
    s'.sleepers c + ((s.phase t).sleepsOn c).toNat = s.sleepers c + (phase.sleepsOn c).toNat ∧
      s'.pending c + ((s.phase t).notifies c).toNat = s.pending c + (phase.notifies c).toNat ∧
      s'.pendingAll c + ((s.phase t).notifiesAll c).toNat =
        s.pendingAll c + (phase.notifiesAll c).toNat ∧
      s'.woken c + ((s.phase t).wokenFrom c).toNat = s.woken c + (phase.wokenFrom c).toNat := by
  unfold sleepers pending pendingAll woken
  rw [h]
  exact ⟨Census.update _ s.phase t phase, Census.update _ s.phase t phase,
    Census.update _ s.phase t phase, Census.update _ s.phase t phase⟩

/-- The balance of a step in which one thread moves: on each condition variable
it falls asleep where there is nothing, or what the queue gains is paid for by
what the thread takes on.  In a closed queue it takes on both `notify_all`, or
neither sleeps nor drops one. -/
theorem Covered.moveTo (h : Covered s) {t : ι} {phase : Phase α} (queue : BoundedQueue α)
    (lock : Option ι) (hopen : queue.closed = false → s.queue.closed = false)
    (hlive : queue.closed = false → ∀ c, phase.sleepsOn c = true ∧ queue.supply c = 0 ∨
      phase.sleepsOn c = false ∧
        queue.supply c + ((s.phase t).notifies c).toNat + ((s.phase t).wokenFrom c).toNat ≤
          s.queue.supply c + (phase.notifies c).toNat + (phase.wokenFrom c).toNat)
    (hclosing : queue.closed = true → ∀ c, phase.notifiesAll c = true ∨
      s.queue.closed = true ∧ phase.sleepsOn c = false ∧ (s.phase t).notifiesAll c = false) :
    Covered ({ s with queue, lock }.moveTo t phase) := by
  constructor
  · intro hq c hsleeps
    obtain ⟨hsleepers, hpending, _, hwoken⟩ :=
      counts_moved s ({ s with queue, lock }.moveTo t phase) rfl c
    have hbefore := h.live (hopen hq) c
    change queue.supply c ≤ _
    rcases hlive hq c with ⟨_, hnone⟩ | ⟨hawake, hbudget⟩
    · rw [hnone]
      exact Nat.zero_le _
    · rw [hawake, Bool.toNat_false] at hsleepers
      omega
  · intro hq c hsleeps
    obtain ⟨hsleepers, _, hpendingAll, _⟩ :=
      counts_moved s ({ s with queue, lock }.moveTo t phase) rfl c
    rcases hclosing hq c with hall | ⟨hwas, hawake, hdrop⟩
    · refine (Census.pos_iff _ _).mpr ⟨t, ?_⟩
      change (Function.update s.phase t phase t).notifiesAll c = true
      rw [Function.update_self, hall]
    · have hbefore := h.closing hwas c
      rw [hawake, Bool.toNat_false] at hsleepers
      rw [hdrop, Bool.toNat_false] at hpendingAll
      omega

/-! ## critical sections -/

/-- One item moves through the queue: the sleepers of `c` gain one unit, those
of the other condition variable lose one. -/
structure Transfer (c : Cond) (b b' : BoundedQueue α) : Prop where
  closed : b'.closed = b.closed
  gain : b'.supply c = b.supply c + 1
  loss : ∀ d, d ≠ c → b'.supply d + 1 = b.supply d

/-- A thread that has moved an item owes a notification for it. -/
theorem Covered.transfer (h : Covered s) {t : ι} {c d : Cond} (ht : s.Enters t d) (hd : d ≠ c)
    {queue : BoundedQueue α} (hq : Transfer c s.queue queue) (lock : Option ι) {phase : Phase α}
    (hphase : phase = .notifying c ∨ phase = .holding c) :
    Covered ({ s with queue, lock }.moveTo t phase) := by
  have hawake : ∀ e, phase.sleepsOn e = false ∧ phase.notifies e = decide (c = e) := by
    intro e
    rcases hphase with rfl | rfl <;> exact ⟨rfl, rfl⟩
  apply h.moveTo queue lock
  · intro hopen
    rw [← hq.closed, hopen]
  · intro _ e
    obtain ⟨hnotifies, _, hwoken⟩ := ht.phase e
    rw [(hawake e).2, hnotifies, Bool.toNat_false]
    refine .inr ⟨(hawake e).1, ?_⟩
    by_cases he : c = e
    · -- the notification pays for the unit gained
      subst he
      rw [hwoken hd.symm, hq.gain, decide_eq_true rfl]
      exact Nat.le_add_right _ _
    · -- the unit lost pays for the woken thread that took it
      have hloss := hq.loss e fun heq => he heq.symm
      have hbit := Bool.toNat_le ((s.phase t).wokenFrom e)
      omega
  · intro hclosed e
    exact .inr ⟨hq.closed.symm.trans hclosed, (hawake e).1, (ht.phase e).2.1⟩

/-- A thread that finds nothing goes to sleep. -/
theorem Covered.sleep (h : Covered s) {t : ι} {w : Wait α} (ht : s.Enters t w.cond)
    (hopen : s.queue.closed = false) (hnone : s.queue.supply w.cond = 0) :
    Covered (s.moveTo t (.asleep w)) := by
  apply h.moveTo s.queue s.lock
  · exact id
  · intro _ e
    obtain ⟨hnotifies, _, hwoken⟩ := ht.phase e
    by_cases he : w.cond = e
    · subst he
      exact .inl ⟨decide_eq_true rfl, hnone⟩
    · rw [hnotifies, hwoken fun heq => he heq.symm]
      exact .inr ⟨decide_eq_false he, Nat.le_refl _⟩
  · intro hclosed
    rw [hopen] at hclosed
    cases hclosed

/-- A call that returns without an item has cost nothing, except in a closed queue. -/
theorem Covered.giveUp (h : Covered s) {t : ι} {d : Cond} (ht : s.Enters t d)
    (hfree : s.phase t = .idle ∨ s.queue.closed = true) : Covered (s.moveTo t .idle) := by
  apply h.moveTo s.queue s.lock
  · exact id
  · intro hopen e
    rcases hfree with hidle | hclosed
    · rw [hidle]
      exact .inr ⟨rfl, Nat.le_refl _⟩
    · rw [hopen] at hclosed
      cases hclosed
  · intro hclosed e
    exact .inr ⟨hclosed, rfl, (ht.phase e).2.1⟩

/-- `close` owes both `notify_all`. -/
theorem Covered.close (h : Covered s) (t : ι) :
    Covered ({ s with queue := s.queue.close }.moveTo t .closing) := by
  apply h.moveTo s.queue.close s.lock
  · intro hopen
    cases hopen
  · intro hopen
    cases hopen
  · intro _ e
    exact .inl rfl

/-! ## every step -/

theorem tryPush_outcome (b : BoundedQueue α) (item : α) :
    (∃ b', b.tryPush item = (true, b') ∧ Transfer .notEmpty b b') ∨
      b.tryPush item = (false, b) ∧ (b.closed = true ∨ b.capacity ≤ b.q.length) := by
  unfold tryPush
  split
  · next h => exact .inr ⟨rfl, h⟩
  · next h =>
      refine .inl ⟨_, rfl, rfl, List.length_append, ?_⟩
      intro d hd
      cases d with
      | notEmpty => exact absurd rfl hd
      | notFull =>
          simp only [supply, List.length_append, List.length_singleton]
          omega

theorem tryPop_outcome (b : BoundedQueue α) :
    (∃ item b', b.tryPop = (some item, b') ∧ Transfer .notFull b b') ∨
      b.tryPop = (none, b) ∧ b.q = [] := by
  unfold tryPop
  split
  · next h => exact .inr ⟨rfl, h⟩
  · next item rest h =>
      have hbounded := b.bounded
      rw [h, List.length_cons] at hbounded
      refine .inl ⟨item, _, rfl, rfl, ?_, ?_⟩
      · simp only [supply, h, List.length_cons]
        omega
      · intro d hd
        cases d with
        | notEmpty => simp [supply, h]
        | notFull => exact absurd rfl hd

/-- `push` sleeps on a full open queue only. -/
theorem canPush_eq_false {b : BoundedQueue α} (h : b.canPush = false) :
    b.closed = false ∧ b.supply .notFull = 0 := by
  rw [canPush, Bool.or_eq_false_iff, decide_eq_false_iff_not] at h
  exact ⟨h.2, Nat.sub_eq_zero_of_le (Nat.le_of_not_lt h.1)⟩

theorem canPop_eq_false {b : BoundedQueue α} (h : b.canPop = false) :
    b.closed = false ∧ b.supply .notEmpty = 0 := by
  rw [canPop, Bool.or_eq_false_iff, Bool.not_eq_false', List.isEmpty_iff] at h
  exact ⟨h.2, List.length_eq_zero_iff.mpr h.1⟩

/-- Every critical section keeps the invariant. -/
theorem Covered.critical (h : Covered s) {t : ι} {op : Op α}
    (ht : s.phase t = .idle ∨ ∃ w, s.phase t = .woken w ∧ w.op = op) : Covered (s.critical t op) := by
  have henters : ∀ c, (∀ w : Wait α, w.op = op → w.cond = c) → s.Enters t c := by
    rintro c hcond
    rcases ht with hidle | ⟨w, hwoken, hop⟩
    · exact .inl hidle
    · exact .inr ⟨w, hwoken, hcond w hop⟩
  cases op with
  | push item =>
      have henter := henters .notFull (by rintro (_ | _) hop <;> cases hop; rfl)
      simp only [Threads.critical, push]
      cases hready : s.queue.canPush with
      | false =>
          obtain ⟨hopen, hnone⟩ := canPush_eq_false hready
          exact h.sleep (w := .push item) henter hopen hnone
      | true =>
          rcases tryPush_outcome s.queue item with ⟨b, hb, htransfer⟩ | ⟨hb, hwhy⟩
          · rw [if_pos rfl, hb]
            exact h.transfer henter (by decide) htransfer s.lock (.inl rfl)
          · have hclosed : s.queue.closed = true := by
              rw [canPush, Bool.or_eq_true, decide_eq_true_iff] at hready
              rcases hready with hroom | hclosed
              · exact hwhy.resolve_right (Nat.not_le_of_lt hroom)
              · exact hclosed
            rw [if_pos rfl, hb]
            exact h.giveUp henter (.inr hclosed)
  | tryPush item =>
      have henter := henters .notFull (by rintro (_ | _) hop <;> cases hop)
      have hidle : s.phase t = .idle := ht.resolve_right (by rintro ⟨_ | _, _, hop⟩ <;> cases hop)
      simp only [Threads.critical]
      rcases tryPush_outcome s.queue item with ⟨b, hb, htransfer⟩ | ⟨hb, _⟩
      · rw [hb]
        exact h.transfer henter (by decide) htransfer (some t) (.inr rfl)
      · rw [hb]
        exact h.giveUp henter (.inl hidle)
  | pop =>
      have henter := henters .notEmpty (by rintro (_ | _) hop <;> cases hop; rfl)
      simp only [Threads.critical, pop]
      cases hready : s.queue.canPop with
      | false =>
          obtain ⟨hopen, hnone⟩ := canPop_eq_false hready
          exact h.sleep (w := .pop) henter hopen hnone
      | true =>
          rcases tryPop_outcome s.queue with ⟨item, b, hb, htransfer⟩ | ⟨hb, hempty⟩
          · rw [if_pos rfl, hb]
            exact h.transfer henter (by decide) htransfer s.lock (.inl rfl)
          · have hclosed : s.queue.closed = true := by
              simpa [canPop, hempty] using hready
            rw [if_pos rfl, hb]
            exact h.giveUp henter (.inr hclosed)
  | tryPop =>
      have henter := henters .notEmpty (by rintro (_ | _) hop <;> cases hop)
      have hidle : s.phase t = .idle := ht.resolve_right (by rintro ⟨_ | _, _, hop⟩ <;> cases hop)
      simp only [Threads.critical]
      rcases tryPop_outcome s.queue with ⟨item, b, hb, htransfer⟩ | ⟨hb, _⟩
      · rw [hb]
        exact h.transfer henter (by decide) htransfer (some t) (.inr rfl)
      · rw [hb]
        exact h.giveUp henter (.inl hidle)
  | close => exact h.close t

/-- A notification that is spent wakes a sleeper, or finds nobody asleep. -/
theorem Covered.notifyOne (h : Covered s) {t : ι} {c : Cond}
    (ht : s.phase t = .notifying c ∨ s.phase t = .holding c) {w : Option ι} (hw : s.Wakes c w) :
    Covered ((s.wakeOne c w).moveTo t .idle) := by
  have hphase : ∀ e, (s.phase t).sleepsOn e = false ∧ (s.phase t).notifies e = decide (c = e) ∧
      (s.phase t).notifiesAll e = false ∧ (s.phase t).wokenFrom e = false := by
    intro e
    rcases ht with ht | ht <;>
    · rw [ht]
      exact ⟨rfl, rfl, rfl, rfl⟩
  cases w with
  | none =>
      refine h.of_counts rfl fun e => ?_
      obtain ⟨hsleeps, hnotifies, hnotifiesAll, hwoken⟩ := hphase e
      have hcounts := counts_moved s (s.moveTo t .idle) rfl e
      rw [hsleeps, hnotifies, hnotifiesAll, hwoken] at hcounts
      simp only [Phase.sleepsOn, Phase.notifies, Phase.notifiesAll, Phase.wokenFrom,
        Bool.toNat_false, Nat.add_zero] at hcounts
      simp only [wakeOne]
      by_cases he : c = e
      · subst he
        have hnobody : s.sleepers c = 0 := (Census.eq_zero_iff _ _).mpr hw
        omega
      · rw [decide_eq_false he, Bool.toNat_false] at hcounts
        omega
  | some u =>
      obtain ⟨w, hu, hcond⟩ := Phase.sleepsOn_eq_true hw
      have hne : t ≠ u := by
        rintro rfl
        exact Bool.false_ne_true ((hphase c).1.symm.trans hw)
      have hstays : (s.moveTo u (.woken w)).phase t = s.phase t := Function.update_of_ne hne _ _
      have hwake : (s.phase u).wake c = .woken w := by
        rw [hu, Phase.wake, if_pos hcond]
      refine h.of_counts rfl fun e => ?_
      obtain ⟨hsleeps, hnotifies, hnotifiesAll, hwoken⟩ := hphase e
      have hfirst := counts_moved s (s.moveTo u (.woken w)) rfl e
      have hsecond := counts_moved (s.moveTo u (.woken w))
        ((s.moveTo u (.woken w)).moveTo t .idle) rfl e
      rw [hstays, hsleeps, hnotifies, hnotifiesAll, hwoken] at hsecond
      rw [hu] at hfirst
      simp only [Phase.sleepsOn, Phase.notifies, Phase.notifiesAll, Phase.wokenFrom, hcond,
        Bool.toNat_false, Nat.add_zero] at hfirst hsecond
      simp only [wakeOne, hwake]
      omega

/-- A `notify_all` that is spent leaves nobody asleep. -/
theorem Covered.notifyAll (h : Covered s) {t : ι} {c : Cond} {phase : Phase α}
    (ht : s.phase t = .closing ∧ c = .notEmpty ∧ phase = .closingFull ∨
      s.phase t = .closingFull ∧ c = .notFull ∧ phase = .idle) :
    Covered ((s.wakeAll c).moveTo t phase) := by
  refine h.of_counts rfl fun e => ?_
  obtain ⟨hsleepers, hpending, hpendingAll, hwoken⟩ := counts_wakeAll s c e
  have hcounts := counts_moved (s.wakeAll c) ((s.wakeAll c).moveTo t phase) rfl e
  have hself : (s.wakeAll c).phase t = s.phase t := by
    change (s.phase t).wake c = s.phase t
    rcases ht with ⟨ht, _⟩ | ⟨ht, _⟩ <;>
    · rw [ht]
      rfl
  rw [hself] at hcounts
  by_cases he : c = e
  · rw [if_pos he] at hsleepers
    rcases ht with ⟨ht, rfl, rfl⟩ | ⟨ht, rfl, rfl⟩ <;>
    · rw [ht] at hcounts
      simp only [Phase.sleepsOn, Bool.toNat_false, Nat.add_zero] at hcounts
      omega
  · have hsame := hwoken he
    rw [if_neg he] at hsleepers
    rcases ht with ⟨ht, rfl, rfl⟩ | ⟨ht, rfl, rfl⟩
    · -- the thread still owes the other `notify_all`
      obtain rfl : e = .notFull := by
        cases e with
        | notEmpty => exact absurd rfl he
        | notFull => rfl
      rw [ht] at hcounts
      simp only [Phase.sleepsOn, Phase.notifies, Phase.notifiesAll, Phase.wokenFrom, decide_true,
        Nat.add_right_cancel_iff] at hcounts
      omega
    · -- it did not owe the other one any more
      obtain rfl : e = .notEmpty := by
        cases e with
        | notEmpty => rfl
        | notFull => exact absurd rfl he
      rw [ht] at hcounts
      simp only [Phase.sleepsOn, Phase.notifies, Phase.notifiesAll, Phase.wokenFrom, reduceCtorEq,
        decide_false, Nat.add_right_cancel_iff] at hcounts
      omega

/-- A thread that wakes for no reason still looks again. -/
theorem Covered.spurious (h : Covered s) {t : ι} {w : Wait α} (ht : s.phase t = .asleep w) :
    Covered (s.moveTo t (.woken w)) := by
  refine h.of_counts rfl fun e => ?_
  have hcounts := counts_moved s (s.moveTo t (.woken w)) rfl e
  rw [ht] at hcounts
  simp only [Phase.sleepsOn, Phase.notifies, Phase.notifiesAll, Phase.wokenFrom,
    Bool.toNat_false, Nat.add_zero] at hcounts
  omega

theorem Covered.signal (h : Covered s) (a : Action ι α) : Covered (s.signal a) := by
  cases a with
  | call t op => exact h
  | recheck t => exact h
  | notifyOne t w =>
      simp only [Threads.signal]
      split
      · next c ht =>
          split
          · next hw => exact h.notifyOne (.inl ht) hw
          · exact h
      · next c ht =>
          split
          · next hw =>
              have hdone := h.notifyOne (.inr ht) hw
              exact ⟨hdone.live, hdone.closing⟩
          · exact h
      · exact h
  | notifyAll t =>
      simp only [Threads.signal]
      split
      · next ht => exact h.notifyAll (.inl ⟨ht, rfl, rfl⟩)
      · next ht => exact h.notifyAll (.inr ⟨ht, rfl, rfl⟩)
      · exact h
  | spurious t =>
      simp only [Threads.signal]
      split
      · next w ht => exact h.spurious ht
      · exact h

theorem Covered.step (h : Covered s) (a : Action ι α) : Covered (s.step a) := by
  unfold Threads.step
  split
  · next t op hop => exact h.critical (operation_enters hop)
  · exact h.signal a

/-- **No lost wake-up**: in every reachable state of any number of threads, what
the sleepers of an open queue wait for is covered by notifications on their way
and woken threads still to look; in a closed queue a `notify_all` is pending
for whoever sleeps. -/
theorem no_lost_wakeup (s : Threads ι α)
    (h : Run.Reachable step (fun s₀ => ∃ capacity, s₀ = start capacity) s) :
    (s.queue.closed = false → (∃ t, s.phase t = .asleep .pop) →
        s.queue.q.length ≤ s.pending .notEmpty + s.woken .notEmpty) ∧
      (s.queue.closed = false → (∃ t item, s.phase t = .asleep (.push item)) →
        s.queue.capacity - s.queue.q.length ≤ s.pending .notFull + s.woken .notFull) ∧
      (s.queue.closed = true → ∀ t w, s.phase t = .asleep w → 0 < s.pendingAll w.cond) := by
  have hcovered : Covered s := h.invariant Covered
    (fun s₀ ⟨capacity, hs₀⟩ => hs₀ ▸ covered_start capacity) fun _ a hs => hs.step a
  have hsleeps : ∀ t w, s.phase t = .asleep w → 0 < s.sleepers w.cond := by
    intro t w ht
    refine (Census.pos_iff _ _).mpr ⟨t, ?_⟩
    rw [ht]
    exact decide_eq_true rfl
  refine ⟨?_, ?_, ?_⟩
  · rintro hopen ⟨t, ht⟩
    exact hcovered.live hopen .notEmpty (hsleeps t .pop ht)
  · rintro hopen ⟨t, item, ht⟩
    exact hcovered.live hopen .notFull (hsleeps t (.push item) ht)
  · intro hclosed t w ht
    exact hcovered.closing hclosed w.cond (hsleeps t w ht)

/-- A consumer is asleep and a producer has just pushed: its notification is
the one that covers the item. -/
theorem no_lost_wakeup_pushed :
    let s : Threads (Fin 2) Nat :=
      Run.final step (start 1) [.call 0 .pop, .call 1 (.push 7)]
    s.queue.q.length ≤ s.pending .notEmpty + s.woken .notEmpty := by
  intro s
  have h := no_lost_wakeup s ⟨start 1, _, ⟨1, rfl⟩, rfl⟩
  exact h.1 rfl ⟨0, rfl⟩

end Threads

end BoundedQueue

end SipDemo
