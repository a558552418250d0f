import Mathlib.Data.Fintype.Basic
import Mathlib.Logic.Function.Basic
import SipDemo.BoundedQueue

/-!
# SipDemo.BoundedQueue.Threads

A queue shared by threads: the lock, the two condition variables and what each
thread is doing.

Every critical section is one step, and so is every notification: `push` and
`pop` notify after they have released the lock, `tryPush` and `tryPop` while
they hold it, `close` after it.  A thread inside `wait` sleeps without the
lock; `notify_one` wakes one sleeper of its condition variable, whichever it
likes, `notify_all` all of them, and a sleeper may also wake for no reason.  A
woken thread takes the lock and evaluates its predicate again.
-/

namespace SipDemo

namespace BoundedQueue

/-- The condition variables `notEmpty_` and `notFull_`. -/
inductive Cond where
  | notEmpty
  | notFull
  deriving DecidableEq

/-- The calls that wait. -/
inductive Wait (α : Type*) where
  | push (item : α)
  | pop

/-- What a call waits for. -/
def Wait.cond {α : Type*} : Wait α → Cond
  | .push _ => .notFull
  | .pop => .notEmpty

/-- The critical section of a call. -/
def Wait.op {α : Type*} : Wait α → Op α
  | .push item => .push item
  | .pop => .pop

/-- What a thread is doing. -/
inductive Phase (α : Type*) where
  /-- Between two calls. -/
  | idle
  /-- In `wait`, not notified. -/
  | asleep (w : Wait α)
  /-- Notified, with the predicate still to be evaluated again. -/
  | woken (w : Wait α)
  /-- After `lk.unlock()`, before `notify_one`. -/
  | notifying (c : Cond)
  /-- Before `notify_one`, with the lock held. -/
  | holding (c : Cond)
  /-- In `close`, before `notEmpty_.notify_all()`. -/
  | closing
  /-- In `close`, before `notFull_.notify_all()`. -/
  | closingFull

/-- The queue and its threads. -/
structure Threads (ι α : Type*) where
  queue : BoundedQueue α
  lock : Option ι
  phase : ι → Phase α

/-- What can happen next. -/
inductive Action (ι α : Type*) where
  /-- Thread `t` makes a call and runs its critical section. -/
  | call (t : ι) (op : Op α)
  /-- The woken thread `t` has the lock and evaluates its predicate. -/
  | recheck (t : ι)
  /-- Thread `t` executes its `notify_one`, which wakes `w`. -/
  | notifyOne (t : ι) (w : Option ι)
  /-- Thread `t` executes its next `notify_all`. -/
  | notifyAll (t : ι)
  /-- The sleeper `t` wakes without a notification. -/
  | spurious (t : ι)

namespace Phase

variable {α : Type*}

/-- Asleep on the condition variable `c`. -/
def sleepsOn (c : Cond) : Phase α → Bool
  | .asleep w => w.cond = c
  | _ => false

/-- What a notification on `c` makes of a thread that it reaches. -/
def wake (c : Cond) : Phase α → Phase α
  | .asleep w => if w.cond = c then .woken w else .asleep w
  | phase => phase

end Phase

namespace Threads

variable {ι α : Type*} [DecidableEq ι]

/-- A fresh queue and threads that have not called it yet. -/
def start (capacity : Nat) : Threads ι α where
  queue := make capacity
  lock := none
  phase := fun _ => .idle

def moveTo (s : Threads ι α) (t : ι) (phase : Phase α) : Threads ι α :=
  { s with phase := Function.update s.phase t phase }

/-- The critical section that an action runs, if the action can happen: nobody
enters one while another thread holds the lock. -/
def operation (s : Threads ι α) : Action ι α → Option (ι × Op α)
  | .call t op =>
      match s.phase t, s.lock with
      | .idle, none => some (t, op)
      | _, _ => none
  | .recheck t =>
      match s.phase t, s.lock with
      | .woken w, none => some (t, w.op)
      | _, _ => none
  | .notifyOne _ _ | .notifyAll _ | .spurious _ => none

/-- A critical section and what the thread does after it. -/
def critical (s : Threads ι α) (t : ι) : Op α → Threads ι α
  | .push item =>
      match s.queue.push item with
      | none => s.moveTo t (.asleep (.push item))
      | some (true, queue) => { s with queue }.moveTo t (.notifying .notEmpty)
      | some (false, queue) => { s with queue }.moveTo t .idle
  | .tryPush item =>
      match s.queue.tryPush item with
      | (true, queue) => { s with queue, lock := some t }.moveTo t (.holding .notEmpty)
      | (false, queue) => { s with queue }.moveTo t .idle
  | .pop =>
      match s.queue.pop with
      | none => s.moveTo t (.asleep .pop)
      | some (some _, queue) => { s with queue }.moveTo t (.notifying .notFull)
      | some (none, queue) => { s with queue }.moveTo t .idle
  | .tryPop =>
      match s.queue.tryPop with
      | (some _, queue) => { s with queue, lock := some t }.moveTo t (.holding .notFull)
      | (none, queue) => { s with queue }.moveTo t .idle
  | .close => { s with queue := s.queue.close }.moveTo t .closing

def wakeOne (s : Threads ι α) (c : Cond) : Option ι → Threads ι α
  | none => s
  | some t => s.moveTo t ((s.phase t).wake c)

def wakeAll (s : Threads ι α) (c : Cond) : Threads ι α :=
  { s with phase := Phase.wake c ∘ s.phase }

/-- A critical section does to the queue what its operation does. -/
theorem queue_critical (s : Threads ι α) (t : ι) (op : Op α) :
    (s.critical t op).queue = s.queue.step op := by
  cases op with
  | push item =>
      simp only [critical, BoundedQueue.step]
      rcases s.queue.push item with _ | ⟨_ | _, queue⟩ <;> rfl
  | tryPush item =>
      simp only [critical, BoundedQueue.step]
      rcases s.queue.tryPush item with ⟨_ | _, queue⟩ <;> rfl
  | pop =>
      simp only [critical, BoundedQueue.step]
      rcases s.queue.pop with _ | ⟨_ | _, queue⟩ <;> rfl
  | tryPop =>
      simp only [critical, BoundedQueue.step]
      rcases s.queue.tryPop with ⟨_ | _, queue⟩ <;> rfl
  | close => rfl

theorem queue_wakeOne (s : Threads ι α) (c : Cond) (w : Option ι) :
    (s.wakeOne c w).queue = s.queue := by
  cases w <;> rfl

variable [Fintype ι]

/-- Whether `notify_one` may reach `w`: a sleeper, or nobody if there is none. -/
def Wakes (s : Threads ι α) (c : Cond) : Option ι → Prop
  | none => ∀ t, (s.phase t).sleepsOn c = false
  | some t => (s.phase t).sleepsOn c = true

instance (s : Threads ι α) (c : Cond) : DecidablePred (s.Wakes c)
  | none => inferInstanceAs (Decidable (∀ t, (s.phase t).sleepsOn c = false))
  | some t => inferInstanceAs (Decidable ((s.phase t).sleepsOn c = true))

/-- The actions outside the critical sections. -/
def signal (s : Threads ι α) : Action ι α → Threads ι α
  | .call _ _ | .recheck _ => s
  | .notifyOne t w =>
      match s.phase t with
      | .notifying c => if s.Wakes c w then (s.wakeOne c w).moveTo t .idle else s
      | .holding c =>
          if s.Wakes c w then { (s.wakeOne c w).moveTo t .idle with lock := none } else s
      | _ => s
  | .notifyAll t =>
      match s.phase t with
      | .closing => (s.wakeAll .notEmpty).moveTo t .closingFull
      | .closingFull => (s.wakeAll .notFull).moveTo t .idle
      | _ => s
  | .spurious t =>
      match s.phase t with
      | .asleep w => s.moveTo t (.woken w)
      | _ => s

/-- One step; an action that cannot happen changes nothing. -/
def step (s : Threads ι α) (a : Action ι α) : Threads ι α :=
  match s.operation a with
  | some (t, op) => s.critical t op
  | none => s.signal a

/-! ## the queue under the threads -/

/-- Notifications and wake-ups leave the queue alone. -/
theorem queue_signal (s : Threads ι α) (a : Action ι α) : (s.signal a).queue = s.queue := by
  cases a with
  | call t op => rfl
  | recheck t => rfl
  | notifyOne t w =>
      simp only [signal]
      split
      · split
        · exact queue_wakeOne s _ w
        · rfl
      · split
        · exact queue_wakeOne s _ w
        · rfl
      · rfl
  | notifyAll t =>
      simp only [signal]
      split <;> rfl
  | spurious t =>
      simp only [signal]
      split <;> rfl

/-- The operations on the queue that an action runs. -/
def operations (s : Threads ι α) (a : Action ι α) : List (Op α) :=
  ((s.operation a).map Prod.snd).toList

theorem queue_step (s : Threads ι α) (a : Action ι α) :
    (s.step a).queue = Run.final BoundedQueue.step s.queue (s.operations a) := by
  unfold step operations
  cases s.operation a with
  | none => exact queue_signal s a
  | some top => exact queue_critical s top.1 top.2

end Threads

end BoundedQueue

end SipDemo
