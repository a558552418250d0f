import SipDemo.BoundedQueue.Linearity
import SipDemo.MediaSession.Echo

/-!
# SipDemo.MediaSession.Draining

A session after `stop`.  The queue is closed, so nothing enters it any more,
and every turn of the output loop takes one packet out until none is left.
-/

namespace SipDemo.MediaSession

variable {s : MediaSession}

/-- The turns of the output loop. -/
def outputTurns (acts : List Action) : Nat :=
  acts.countP fun
    | .output _ => true
    | .recv _ _ | .playout | .stop => false

theorem stop_closed (h : s.active = true) : s.stop.queue.closed = true := by
  simp [stop, h, BoundedQueue.close]

/-- Only `stop` ends the activity of a session. -/
theorem active_step {a : Action} (h : s.active = true) (ha : a ≠ .stop) :
    (s.step a).active = true := by
  cases a with
  | recv dg nowSec =>
      have hlatch : (s.latchRemoteIfNeeded dg.sender).active = true := by
        unfold latchRemoteIfNeeded
        split_ifs <;> exact h
      rcases s.recv_cases dg nowSec with ⟨_, hrecv⟩ | ⟨pkt, _, ⟨_, hrecv⟩ | ⟨_, hrecv⟩⟩
      · simpa [step, act, hrecv] using h
      · simpa [step, act, hrecv, feedDtmf] using hlatch
      · simpa [step, act, hrecv, feedVoice] using hlatch
  | playout =>
      simp only [step, act, playout]
      split <;> exact h
  | output connected =>
      simp only [step, act, output]
      split <;> exact h
  | stop => exact absurd rfl ha

theorem closed_step (h : s.queue.closed = true) (a : Action) :
    (s.step a).queue.closed = true := by
  rw [queue_step]
  exact BoundedQueue.run_closed h _

/-- One turn with a closed queue: the output loop takes the front packet, and
no other loop changes the number of packets. -/
theorem size_step (h : s.queue.closed = true) (a : Action) :
    (s.step a).queue.size = s.queue.size - outputTurns [a] := by
  have hfifo := BoundedQueue.run_fifo s.queue (s.queueOps a)
  rw [BoundedQueue.run_entered_of_closed h, List.append_nil, ← queue_step] at hfifo
  cases a with
  | recv dg nowSec => simp [BoundedQueue.size, (s.recv_frame dg nowSec).1, step, act, outputTurns]
  | playout =>
      have hnone : s.sources .playout = [] := by
        simp only [sources, queueOps]
        cases s.jitter.pop.1.packet <;> rfl
      rw [sources] at hnone
      rw [hnone, List.nil_append] at hfifo
      simp [BoundedQueue.size, hfifo, outputTurns]
  | output connected =>
      have hpop : s.queue.pop = some s.queue.tryPop := if_pos (by simp [BoundedQueue.canPop, h])
      have hnext : (s.step (.output connected)).queue = s.queue.tryPop.2 := by
        rw [queue_step]
        simp [queueOps, BoundedQueue.step, hpop]
      rw [hnext]
      rcases s.queue.tryPop_cases with ⟨item, _, hq⟩ | ⟨hempty, hsame⟩
      · simp [BoundedQueue.size, hq, outputTurns]
      · simp [BoundedQueue.size, hsame, hempty, outputTurns]
  | stop =>
      simp only [step, act, stop]
      split <;> rfl

theorem outputTurns_cons (a : Action) (acts : List Action) :
    outputTurns (a :: acts) = outputTurns [a] + outputTurns acts := by
  rw [outputTurns, ← List.singleton_append, List.countP_append]
  rfl

/-- **Draining**: from a closed queue on, what leaves the queue and what stays
is what was in it, the packets that leave are echoed, and each turn of the
output loop leaves one packet less. -/
theorem drain (h : s.queue.closed = true) (acts : List Action) :
    s.queue.q = Run.collect step sources s acts ++ (Run.final step s acts).queue.q ∧
      s.toEchoStream.Echoes (Run.collect step sources s acts) (Run.collect step sent s acts) ∧
      (Run.final step s acts).queue.size = s.queue.size - outputTurns acts := by
  refine ⟨?_, sent_echoes s acts, ?_⟩
  · have hfifo := (sources_in_order s acts).1
    have hnone : Run.collect step entered s acts = [] := by
      rw [show Run.collect step entered s acts = _ from Run.collect_proj queue queue_step s acts]
      exact BoundedQueue.run_entered_of_closed h _
    rwa [hnone, List.append_nil] at hfifo
  · induction acts generalizing s with
    | nil => rfl
    | cons a acts ih =>
        rw [Run.final_cons, ih (closed_step h a), size_step h, outputTurns_cons a acts, Nat.sub_sub]

end SipDemo.MediaSession
