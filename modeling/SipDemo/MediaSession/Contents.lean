import SipDemo.JitterBuffer.Representation
import SipDemo.MediaSession.Echo
import SipDemo.RtpPacket.RoundTrip

/-!
# SipDemo.MediaSession.Contents

The packets a session holds.  A packet is in the jitter buffer, then in the
queue, then echoed, and at every stage it can be dropped; nothing else is ever
held or echoed.  So whatever packets weigh, a session gives out no more weight
than it took in and lets go of (`weight_step`).

Weighed by their bytes, the packets echoed are no more than the datagrams
received; weighed by a property they lack, they all have the property.
-/

namespace SipDemo

namespace JitterBuffer

/-- The packets in the buffer, oldest first. -/
def packets (jb : JitterBuffer) : List RtpPacket := jb.buf.toList.map Prod.snd

/-- The packets an operation offers. -/
def offered : Op → List RtpPacket
  | .insert pkt => [pkt]
  | .pop => []

variable {jb jb' : JitterBuffer} (w : RtpPacket → Nat)

def weight (jb : JitterBuffer) : Nat := (jb.packets.map w).sum

theorem weight_enqueue {pkt : RtpPacket} (hnew : jb.slotOf pkt ∉ jb.buf) :
    ((jb.start pkt).enqueue (jb.slotOf pkt) pkt).weight w = w pkt + jb.weight w := by
  have hperm := (OrderedMap.toList_insertIfNew (v := pkt) hnew).map Prod.snd
  simpa [weight, packets, enqueue] using (hperm.map w).sum_eq

theorem weight_erase {k : Int} {p : RtpPacket} (h : jb.buf[k]? = some p) :
    jb.weight w = w p + ((jb.buf.erase k).toList.map fun entry => w entry.2).sum := by
  have hperm := (OrderedMap.toList_erase h).map Prod.snd
  simpa [weight, packets, Function.comp_def] using (hperm.map w).sum_eq

theorem Insertion.weight_le {pkt : RtpPacket} (h : Insertion jb pkt jb') :
    jb'.weight w ≤ jb.weight w + w pkt := by
  cases h with
  | late hstarted hlate => exact Nat.le_add_right _ _
  | queued hge hnew hroom =>
      rw [weight_enqueue w hnew]
      omega
  | overflow hge hnew hfull hold hmin =>
      have hqueued := weight_enqueue w hnew
      rw [weight_erase w hold] at hqueued
      simp only [weight, packets, evict, List.map_map, Function.comp_def] at hqueued ⊢
      omega

theorem Popping.weight_eq {slot : Slot} (h : Popping jb slot jb') :
    (slot.packet.toList.map w).sum + jb'.weight w = jb.weight w := by
  cases h with
  | wait hprimed hwait => exact Nat.zero_add _
  | lose hstarted hsize hnone => exact Nat.zero_add _
  | deliver hstarted hp =>
      rw [weight_erase w hp]
      simp [weight, packets, Function.comp_def]

/-- One operation: what it returns and what stays was there or is offered. -/
theorem weight_step (h : jb.Inv) (op : Op) :
    ((jb.returned op).map fun p => w p.2).sum + (jb.step op).weight w ≤
      jb.weight w + ((offered op).map w).sum := by
  cases op with
  | insert pkt => simpa [returned, offered] using (insert_cases h pkt).weight_le w
  | pop =>
      have hpop := (pop_cases h).weight_eq w
      cases hp : jb.pop.1.packet <;> simp_all [returned, offered]

end JitterBuffer

namespace MediaSession

variable {s : MediaSession} (w : RtpPacket → Nat)

/-- The voice packets that an action brings. -/
def voice (s : MediaSession) : Action → List RtpPacket
  | .recv dg _ => ((RtpPacket.parseBuf dg.data).filter fun pkt => !s.isDtmf pkt).toList
  | .playout | .output _ | .stop => []

theorem offered_jitterOps (s : MediaSession) (a : Action) :
    Run.collect JitterBuffer.step (fun _ => JitterBuffer.offered) s.jitter (s.jitterOps a) =
      s.voice a := by
  cases a with
  | recv dg nowSec =>
      simp only [jitterOps, voice]
      cases RtpPacket.parseBuf dg.data with
      | none => rfl
      | some pkt => cases hdtmf : s.isDtmf pkt <;> simp [hdtmf, JitterBuffer.offered, Option.filter]
  | playout | output connected | stop => rfl

def weight (s : MediaSession) : Nat := s.jitter.weight w + (s.queue.q.map w).sum

/-- **One action**: what is echoed and what stays was there or is brought. -/
theorem weight_step (h : s.jitter.Inv) (a : Action) :
    ((s.sources a).map w).sum + (s.step a).weight w ≤ s.weight w + ((s.voice a).map w).sum := by
  have hjitter : ((s.played a).map fun p => w p.2).sum + (s.step a).jitter.weight w ≤
      s.jitter.weight w + ((s.voice a).map w).sum := by
    rw [jitter_step, ← offered_jitterOps]
    exact Run.sum_collect_add_le JitterBuffer.Inv (JitterBuffer.weight w) _ w
      (fun jb op hjb => JitterBuffer.weight_step w hjb op)
      (fun jb op hjb => JitterBuffer.step_inv op hjb) h (s.jitterOps a)
  have hqueue : (s.queue.q.map w).sum + ((s.entered a).map w).sum =
      ((s.sources a).map w).sum + ((s.step a).queue.q.map w).sum := by
    have hfifo := congrArg (fun l => (l.map w).sum) (s.queue.run_fifo (s.queueOps a))
    rw [← queue_step] at hfifo
    simpa [entered, sources] using hfifo
  have hentered : ((s.entered a).map w).sum ≤ ((s.played a).map fun p => w p.2).sum := by
    have hsub := ((s.offered_step a).1.map w).sum_le_sum fun _ _ => Nat.zero_le _
    simpa [Function.comp_def] using hsub
  unfold weight
  omega

/-- Every packet held has the property. -/
def Holds (P : RtpPacket → Prop) (s : MediaSession) : Prop :=
  (∀ p ∈ s.jitter.packets, P p) ∧ ∀ p ∈ s.queue.q, P p

/-- Weighed by the lack of a property. -/
theorem holds_iff (P : RtpPacket → Prop) [DecidablePred P] (s : MediaSession) :
    Holds P s ↔ s.weight (fun p => if P p then 0 else 1) = 0 := by
  simp [Holds, weight, JitterBuffer.weight, List.sum_eq_zero_iff]

/-- **A property of the packets brought** is one of the packets held, and of those
echoed. -/
theorem Holds.step {P : RtpPacket → Prop} (h : Holds P s) (hinv : s.jitter.Inv) {a : Action}
    (ha : ∀ p ∈ s.voice a, P p) : Holds P (s.step a) ∧ ∀ p ∈ s.sources a, P p := by
  classical
  have hstep := weight_step (fun p => if P p then 0 else 1) hinv a
  have hbrought : ((s.voice a).map fun p => if P p then 0 else 1).sum = 0 := by
    simpa [List.sum_eq_zero_iff] using ha
  rw [(holds_iff P s).mp h, hbrought] at hstep
  refine ⟨(holds_iff P _).mpr (by omega), ?_⟩
  have hsources : ((s.sources a).map fun p => if P p then 0 else 1).sum = 0 := by omega
  simpa [List.sum_eq_zero_iff] using hsources

end MediaSession

end SipDemo
