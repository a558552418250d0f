import SipDemo.BoundedQueue.Threads

/-!
# SipDemo.BoundedQueue.Linearity

Any number of threads on one queue: what they pop is what they pushed, in the
order in which it was accepted.

The critical sections of a run, in the order in which they hold the lock, are a
sequential run of the queue, so its invariants carry over to every interleaving.
-/

namespace SipDemo

namespace BoundedQueue

variable {α : Type*}

/-! ## a closed queue -/

theorem tryPush_of_closed {b : BoundedQueue α} (h : b.closed = true) (item : α) :
    b.tryPush item = (false, b) := dif_pos (.inl h)

theorem entered_of_closed {b : BoundedQueue α} (h : b.closed = true) (op : Op α) :
    b.entered op = [] := by
  cases op with
  | push item =>
      have hpush : (b.push item).map Prod.fst ≠ some true := by
        rw [push, tryPush_of_closed h item]
        split <;> simp
      exact if_neg hpush
  | tryPush item => simp [entered, tryPush_of_closed h item]
  | pop => rfl
  | tryPop => rfl
  | close => rfl

/-- The fields that no push or pop changes. -/
theorem tryPush_fields (b : BoundedQueue α) (item : α) :
    (b.tryPush item).2.closed = b.closed ∧ (b.tryPush item).2.capacity = b.capacity := by
  unfold tryPush
  split <;> exact ⟨rfl, rfl⟩

theorem tryPop_fields (b : BoundedQueue α) :
    (b.tryPop).2.closed = b.closed ∧ (b.tryPop).2.capacity = b.capacity := by
  unfold tryPop
  split <;> exact ⟨rfl, rfl⟩

/-- Only `close` changes more of the queue than its items. -/
theorem step_fields (b : BoundedQueue α) (op : Op α) :
    (b.step op).capacity = b.capacity ∧ (b.closed = true → (b.step op).closed = true) := by
  cases op with
  | push item =>
      obtain ⟨hclosed, hcapacity⟩ := b.tryPush_fields item
      by_cases hready : b.canPush = true
      · simp [step, push, hready, hclosed, hcapacity]
      · simp [step, push, hready]
  | tryPush item =>
      obtain ⟨hclosed, hcapacity⟩ := b.tryPush_fields item
      exact ⟨hcapacity, fun h => hclosed.trans h⟩
  | pop =>
      obtain ⟨hclosed, hcapacity⟩ := b.tryPop_fields
      by_cases hready : b.canPop = true
      · simp [step, pop, hready, hclosed, hcapacity]
      · simp [step, pop, hready]
  | tryPop =>
      obtain ⟨hclosed, hcapacity⟩ := b.tryPop_fields
      exact ⟨hcapacity, fun h => hclosed.trans h⟩
  | close => exact ⟨rfl, fun _ => rfl⟩

theorem run_capacity (b : BoundedQueue α) (ops : List (Op α)) :
    (Run.final step b ops).capacity = b.capacity :=
  Run.final_of_preserved (fun q : BoundedQueue α => q.capacity = b.capacity)
    (fun q op h => (q.step_fields op).1.trans h) rfl ops

theorem run_closed {b : BoundedQueue α} (h : b.closed = true) (ops : List (Op α)) :
    (Run.final step b ops).closed = true :=
  Run.final_of_preserved (fun q : BoundedQueue α => q.closed = true)
    (fun q op hq => (q.step_fields op).2 hq) h ops

/-- Once closed, nothing enters any more. -/
theorem run_entered_of_closed {b : BoundedQueue α} (h : b.closed = true) (ops : List (Op α)) :
    Run.collect step entered b ops = [] := by
  induction ops generalizing b with
  | nil => rfl
  | cons op ops ih =>
      rw [Run.collect_cons, entered_of_closed h, ih ((b.step_fields op).2 h), List.append_nil]

theorem run_closed_of_mem {ops : List (Op α)} (h : .close ∈ ops) (b : BoundedQueue α) :
    (Run.final step b ops).closed = true := by
  obtain ⟨before, after, rfl⟩ := List.append_of_mem h
  rw [Run.final_append, Run.final_cons]
  exact run_closed rfl after

/-- `pop` gives up only on a queue that is closed and drained. -/
theorem pop_none {b : BoundedQueue α} (h : (b.pop).map Prod.fst = some none) :
    b.closed = true ∧ b.q = [] := by
  by_cases hready : b.canPop = true
  · rcases b.tryPop_cases with ⟨item, hitem, _⟩ | ⟨hempty, _⟩
    · rw [pop, if_pos hready, Option.map_some, hitem] at h
      cases h
    · refine ⟨?_, hempty⟩
      rw [canPop, hempty] at hready
      simpa using hready
  · rw [pop, if_neg hready] at h
    cases h

namespace Threads

variable {ι : Type*} [DecidableEq ι] [Fintype ι]

/-! ## the calls of a run -/

/-- The items that an action's `push` or `tryPush` accepts. -/
def accepted (s : Threads ι α) (a : Action ι α) : List α :=
  Run.collect BoundedQueue.step entered s.queue (s.operations a)

/-- The items that an action's `pop` or `tryPop` returns. -/
def popped (s : Threads ι α) (a : Action ι α) : List α :=
  Run.collect BoundedQueue.step removed s.queue (s.operations a)

/-- The action's `pop` returns `nullopt`. -/
def Exhausted (s : Threads ι α) (a : Action ι α) : Prop :=
  .pop ∈ s.operations a ∧ (s.queue.pop).map Prod.fst = some none

/-- **Linearity**: over every interleaving, the popped items followed by the
queued ones are the accepted items in their order; the queue stays within its
bound, takes nothing after `close`, and gives up only when closed and drained. -/
theorem run_linear (capacity : Nat) (actions : List (Action ι α)) :
    let s₀ : Threads ι α := start capacity
    let s := Run.final step s₀ actions
    Run.collect step popped s₀ actions ++ s.queue.q = Run.collect step accepted s₀ actions ∧
      s.queue.q.length ≤ max 1 capacity ∧
      (.close ∈ Run.collect step operations s₀ actions →
        ∀ more, Run.collect step accepted s more = []) ∧
      (∀ a, s.Exhausted a → s.queue.closed = true ∧
        Run.collect step popped s₀ actions = Run.collect step accepted s₀ actions) := by
  intro s₀ s
  have hqueue : s.queue = Run.final BoundedQueue.step s₀.queue (Run.collect step operations s₀ actions) :=
    Run.final_proj Threads.queue queue_step s₀ actions
  have haccepted : ∀ (r : Threads ι α) (more : List (Action ι α)),
      Run.collect step accepted r more =
        Run.collect BoundedQueue.step entered r.queue (Run.collect step operations r more) :=
    fun r more => Run.collect_proj Threads.queue queue_step r more
  have hpopped : Run.collect step popped s₀ actions =
      Run.collect BoundedQueue.step removed s₀.queue (Run.collect step operations s₀ actions) :=
    Run.collect_proj Threads.queue queue_step s₀ actions
  have hfifo : Run.collect step popped s₀ actions ++ s.queue.q =
      Run.collect step accepted s₀ actions := by
    rw [haccepted, hpopped, hqueue, ← run_fifo]
    rfl
  have hcapacity : s.queue.capacity ≤ max 1 capacity := by
    rw [hqueue, run_capacity]
    change (if capacity = 0 then 1 else capacity) ≤ max 1 capacity
    split <;> omega
  refine ⟨hfifo, s.queue.bounded.trans hcapacity, ?_, ?_⟩
  · intro hclose more
    rw [haccepted]
    apply run_entered_of_closed
    rw [hqueue]
    exact run_closed_of_mem hclose s₀.queue
  · rintro a ⟨_, hnone⟩
    obtain ⟨hclosed, hdrained⟩ := pop_none hnone
    rw [hdrained, List.append_nil] at hfifo
    exact ⟨hclosed, hfifo⟩

/-- A consumer that waited is woken by `close` and gives up: all that was
accepted has been popped. -/
theorem run_linear_drained :
    let s₀ : Threads (Fin 2) Nat := start 0
    let actions : List (Action (Fin 2) Nat) :=
      [.call 1 (.tryPush 7), .notifyOne 1 none, .call 0 .pop, .notifyOne 0 none, .call 0 .pop,
        .call 1 .close, .notifyAll 1]
    Run.collect step popped s₀ actions = Run.collect step accepted s₀ actions := by
  intro s₀ actions
  have h := run_linear 0 actions
  exact (h.2.2.2 (.recheck 0) ⟨.head _, rfl⟩).2

end Threads

end BoundedQueue

end SipDemo
