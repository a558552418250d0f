import SipDemo.Run

/-!
# SipDemo.BoundedQueue

`BoundedQueue<T>`, one definition for each critical section.  The lock makes
each of them one step, so a queue shared by threads is a sequence of these
operations.

The capacity is positive and the length never exceeds it by construction: the
bounds are fields of the structure.  A blocking operation returns `none` while
its wait predicate is false, that is while the caller sleeps.
-/

namespace SipDemo

structure BoundedQueue (α : Type*) where
  capacity : Nat
  q : List α
  closed : Bool
  pos : 0 < capacity
  bounded : q.length ≤ capacity

namespace BoundedQueue

variable {α : Type*}

/-- The constructor: a capacity of 0 becomes 1. -/
def make (capacity : Nat) : BoundedQueue α where
  capacity := if capacity = 0 then 1 else capacity
  q := []
  closed := false
  pos := by split <;> omega
  bounded := Nat.zero_le _

def size (b : BoundedQueue α) : Nat := b.q.length

/-- What `notFull_` waits for. -/
def canPush (b : BoundedQueue α) : Bool := b.q.length < b.capacity || b.closed

/-- What `notEmpty_` waits for. -/
def canPop (b : BoundedQueue α) : Bool := !b.q.isEmpty || b.closed

def tryPush (b : BoundedQueue α) (item : α) : Bool × BoundedQueue α :=
  if h : b.closed ∨ b.capacity ≤ b.q.length then (false, b)
  else
    (true,
      { b with
        q := b.q ++ [item]
        bounded := by
          rw [List.length_append, List.length_singleton]
          omega })

def tryPop (b : BoundedQueue α) : Option α × BoundedQueue α :=
  match h : b.q with
  | [] => (none, b)
  | item :: rest =>
    (some item,
      { b with
        q := rest
        bounded := by
          have hbounded := b.bounded
          rw [h, List.length_cons] at hbounded
          omega })

/-- Once woken with room or closed, `push` does what `tryPush` does. -/
def push (b : BoundedQueue α) (item : α) : Option (Bool × BoundedQueue α) :=
  if b.canPush then some (b.tryPush item) else none

/-- Once woken with an item or closed, `pop` does what `tryPop` does. -/
def pop (b : BoundedQueue α) : Option (Option α × BoundedQueue α) :=
  if b.canPop then some b.tryPop else none

def close (b : BoundedQueue α) : BoundedQueue α := { b with closed := true }

/-! ## contents -/

/-- `tryPush` appends the item or, full or closed, changes nothing. -/
theorem tryPush_cases (b : BoundedQueue α) (item : α) :
    (b.tryPush item).1 = true ∧ (b.tryPush item).2.q = b.q ++ [item] ∨
      b.tryPush item = (false, b) := by
  unfold tryPush
  split
  · exact .inr rfl
  · exact .inl ⟨rfl, rfl⟩

/-- `tryPop` takes the front item or, empty, changes nothing. -/
theorem tryPop_cases (b : BoundedQueue α) :
    (∃ item, (b.tryPop).1 = some item ∧ b.q = item :: (b.tryPop).2.q) ∨
      b.q = [] ∧ b.tryPop = (none, b) := by
  unfold tryPop
  split
  · next h => exact .inr ⟨h, rfl⟩
  · next item rest h => exact .inl ⟨item, rfl, h⟩

/-! ## runs -/

/-- The operations of any number of producers and consumers, in the order in
which they hold the lock. -/
inductive Op (α : Type*) where
  | push (item : α)
  | tryPush (item : α)
  | pop
  | tryPop
  | close

/-- A caller that would sleep leaves the queue as it is. -/
def step (b : BoundedQueue α) : Op α → BoundedQueue α
  | .push item => ((b.push item).map Prod.snd).getD b
  | .tryPush item => (b.tryPush item).2
  | .pop => ((b.pop).map Prod.snd).getD b
  | .tryPop => (b.tryPop).2
  | .close => b.close

/-- The items an operation enqueues. -/
def entered (b : BoundedQueue α) : Op α → List α
  | .push item => if (b.push item).map Prod.fst = some true then [item] else []
  | .tryPush item => if (b.tryPush item).1 then [item] else []
  | .pop | .tryPop | .close => []

/-- The items an operation turns away. -/
def refused (b : BoundedQueue α) : Op α → List α
  | .push item => if (b.push item).map Prod.fst = some false then [item] else []
  | .tryPush item => if (b.tryPush item).1 then [] else [item]
  | .pop | .tryPop | .close => []

/-- The items an operation takes out. -/
def removed (b : BoundedQueue α) : Op α → List α
  | .push _ | .tryPush _ | .close => []
  | .pop => ((b.pop).bind Prod.fst).toList
  | .tryPop => (b.tryPop).1.toList

/-- An offered item enters or is turned away. -/
theorem tryPush_entered_refused (b : BoundedQueue α) (item : α) :
    b.entered (.tryPush item) = [item] ∧ b.refused (.tryPush item) = [] ∨
      b.entered (.tryPush item) = [] ∧ b.refused (.tryPush item) = [item] := by
  cases htaken : (b.tryPush item).1 with
  | true => exact .inl ⟨by simp [entered, htaken], by simp [refused, htaken]⟩
  | false => exact .inr ⟨by simp [entered, htaken], by simp [refused, htaken]⟩

theorem tryPush_fifo (b : BoundedQueue α) (item : α) :
    b.q ++ (if (b.tryPush item).1 then [item] else []) = (b.tryPush item).2.q := by
  rcases b.tryPush_cases item with ⟨htrue, hq⟩ | hsame
  · rw [if_pos htrue, hq]
  · rw [hsame, if_neg Bool.false_ne_true, List.append_nil]

theorem tryPop_fifo (b : BoundedQueue α) : b.q = (b.tryPop).1.toList ++ (b.tryPop).2.q := by
  rcases b.tryPop_cases with ⟨item, hitem, hq⟩ | ⟨_, hsame⟩
  · rw [hitem, hq]
    rfl
  · rw [hsame]
    rfl

/-- One operation: what was queued and what enters is what leaves and what stays. -/
theorem step_fifo (b : BoundedQueue α) (op : Op α) :
    b.q ++ b.entered op = b.removed op ++ (b.step op).q := by
  cases op with
  | push item =>
      by_cases hready : b.canPush = true
      · simpa [entered, removed, step, push, hready] using b.tryPush_fifo item
      · simp [entered, removed, step, push, hready]
  | tryPush item => exact b.tryPush_fifo item
  | pop =>
      by_cases hready : b.canPop = true
      · simpa [entered, removed, step, pop, hready] using b.tryPop_fifo
      · simp [entered, removed, step, pop, hready]
  | tryPop => simpa [entered, removed, step] using b.tryPop_fifo
  | close => simp [entered, removed, step, close]

/-- **First in, first out**: over any run, what was queued followed by what
entered is what left followed by what stays. -/
theorem run_fifo (b : BoundedQueue α) (ops : List (Op α)) :
    b.q ++ Run.collect step entered b ops =
      Run.collect step removed b ops ++ (Run.final step b ops).q := by
  induction ops generalizing b with
  | nil => simp
  | cons op ops ih =>
      rw [Run.collect_cons, Run.collect_cons, Run.final_cons, ← List.append_assoc, step_fifo,
        List.append_assoc, ih, List.append_assoc]

end BoundedQueue

end SipDemo
