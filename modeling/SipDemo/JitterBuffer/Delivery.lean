import SipDemo.JitterBuffer
import SipDemo.Resequencer

/-!
# SipDemo.JitterBuffer.Delivery

What comes out of a jitter buffer.  The buffer refines the resequencer: an
insert is an acceptance, followed by a drop when the buffer is full, and a pop
is a delivery or a loss.  Order, conservation and the absence of duplicates are
the resequencer's; what is proved here about the buffer itself is how a primed
buffer drains.
-/

namespace SipDemo.JitterBuffer

open Std (TreeMap)
open Resequencer (State Step Steps)

/-! ## refinement -/

/-- The resequencer state `a` stands for `jb`: the queued packets wait, and
every number from the playout cursor on is an open slot. -/
structure Refines (jb : JitterBuffer) (a : State Int RtpPacket) : Prop where
  isOpen : ∀ k : Int, (jb.started = true → jb.playoutExt ≤ k) → a.Open k
  pending : a.pending = (jb.buf.toList : Multiset (Int × RtpPacket))

theorem refines_fresh (cfg : Config) : Refines (fresh cfg) State.init where
  isOpen k _ := WithBot.bot_lt_coe k
  pending := rfl

/-- A buffer that has started can be cut off from its past: every slot below
the playout cursor is over. -/
theorem refines_of_started (jb : JitterBuffer) (hstarted : jb.started = true) :
    Refines jb ⟨((jb.playoutExt - 1 : Int) : WithBot Int), jb.buf.toList⟩ where
  isOpen _ hk := WithBot.coe_lt_coe.mpr (Int.sub_one_lt_of_le (hk hstarted))
  pending := rfl

/-- The entries around the least key. -/
theorem pending_erase {buf : TreeMap Int RtpPacket} {k : Int} {v : RtpPacket}
    (hk : buf[k]? = some v) (hmin : ∀ k' ∈ buf, k ≤ k') :
    (buf.toList : Multiset (Int × RtpPacket)) =
        (k, v) ::ₘ ((buf.erase k).toList : Multiset (Int × RtpPacket)) ∧
      ∀ q ∈ ((buf.erase k).toList : Multiset (Int × RtpPacket)), k < q.1 := by
  have hlist := OrderedMap.toList_eq_cons_erase hk hmin
  have hsorted := OrderedMap.sorted_toList (m := buf)
  rw [hlist] at hsorted
  refine ⟨by rw [hlist, Multiset.cons_coe], fun q hq => ?_⟩
  exact List.rel_of_pairwise_cons hsorted (Multiset.mem_coe.mp hq)

/-- Queueing a packet is an acceptance. -/
theorem refines_enqueue {jb : JitterBuffer} {a : State Int RtpPacket} (href : Refines jb a)
    {pkt : RtpPacket} (hge : (jb.start pkt).playoutExt ≤ jb.slotOf pkt)
    (hnew : jb.slotOf pkt ∉ jb.buf) :
    ∃ a', Step a (.accepted (jb.slotOf pkt) pkt) a' ∧
      Refines ((jb.start pkt).enqueue (jb.slotOf pkt) pkt) a' := by
  have hstart : jb.started = true → (jb.start pkt).playoutExt = jb.playoutExt := by
    intro hs
    rw [start_of_started hs]
  refine ⟨_, .accept (href.isOpen _ fun hs => hstart hs ▸ hge) ?_, ?_, ?_⟩
  · intro q hq heq
    rw [href.pending] at hq
    exact hnew (heq ▸ OrderedMap.mem_of_mem_toList (Multiset.mem_coe.mp hq))
  · exact fun k hk => href.isOpen k fun hs => hstart hs ▸ hk (start_started jb pkt)
  · rw [href.pending, Multiset.cons_coe, Multiset.coe_eq_coe]
    simp only [enqueue, start_buf]
    exact (OrderedMap.toList_insertIfNew hnew).symm

/-- Dropping the oldest packet is a drop. -/
theorem refines_evict {jb : JitterBuffer} {a : State Int RtpPacket} (h : jb.Core)
    (href : Refines jb a) {oldest : Int} {v : RtpPacket} (hold : jb.buf[oldest]? = some v)
    (hmin : ∀ k ∈ jb.buf, oldest ≤ k) :
    ∃ a', Step a (.dropped oldest v) a' ∧ Refines (jb.evict oldest) a' := by
  obtain ⟨hpending, habove⟩ := pending_erase hold hmin
  have hge := h.playout_le_key oldest (mem_of_getElem? hold)
  refine ⟨_, .drop (href.isOpen oldest fun _ => hge) (href.pending.trans hpending) habove, ?_, rfl⟩
  intro k hk
  have hstarted : jb.started = true := by
    by_contra hs
    exact not_mem_of_size_eq_zero (h.idle (by simpa using hs)).1 oldest (mem_of_getElem? hold)
  have hcursor : oldest + 1 ≤ k := by
    have hk := hk hstarted
    simpa [evict, hge] using hk
  exact WithBot.coe_lt_coe.mpr hcursor

/-- One operation is a few events, which show what the operation shows. -/
theorem step_refines {jb : JitterBuffer} {a : State Int RtpPacket} (h : jb.Inv)
    (href : Refines jb a) (op : Op) :
    ∃ es a', Steps a es a' ∧ Refines (jb.step op) a' ∧
      Resequencer.accepted es = jb.accepted op ∧ Resequencer.delivered es = jb.returned op ∧
      (jb.step op).stats_.overflowDropped =
        jb.stats_.overflowDropped + (Resequencer.dropped es).length := by
  cases op with
  | insert pkt =>
      have hins := insert_cases h pkt
      simp only [step, accepted, returned]
      generalize jb.insert pkt = jb' at hins ⊢
      cases hins with
      | late hstarted hlate =>
          exact ⟨[], a, .nil a, ⟨href.isOpen, href.pending⟩,
            by simp [discard, Resequencer.accepted], rfl, rfl⟩
      | queued hge hnew hroom =>
          obtain ⟨a', hstep, href'⟩ := refines_enqueue href hge hnew
          exact ⟨_, a', hstep.steps, href', by simp [enqueue, Resequencer.accepted], rfl,
            by simp [enqueue, Resequencer.dropped]⟩
      | overflow hge hnew hfull hold hmin =>
          obtain ⟨a₁, hstep₁, href₁⟩ := refines_enqueue href hge hnew
          obtain ⟨a₂, hstep₂, href₂⟩ := refines_evict (h.toCore.enqueue hge) href₁ hold hmin
          exact ⟨_, a₂, .cons hstep₁ hstep₂.steps, href₂,
            by simp [enqueue, evict, Resequencer.accepted], rfl,
            by simp [enqueue, evict, Resequencer.dropped]⟩
  | pop =>
      have hpop := pop_cases h
      simp only [step, accepted, returned]
      generalize jb.pop.1 = slot, jb.pop.2 = jb' at hpop ⊢
      cases hpop with
      | wait hprimed hwait => exact ⟨[], a, .nil a, ⟨href.isOpen, href.pending⟩, rfl, rfl, rfl⟩
      | @deliver p hstarted hp =>
          obtain ⟨hpending, habove⟩ := pending_erase hp h.playout_le_key
          refine ⟨_, _, (Step.deliver (href.isOpen _ fun _ => le_rfl)
            (href.pending.trans hpending) habove).steps, ⟨?_, rfl⟩, rfl, rfl, rfl⟩
          exact fun k hk => WithBot.coe_lt_coe.mpr (hk hstarted)
      | lose hstarted hsize hnone =>
          refine ⟨_, _, (Step.lose (href.isOpen _ fun _ => le_rfl) ?_).steps,
            ⟨?_, href.pending⟩, rfl, rfl, rfl⟩
          · intro q hq
            rw [href.pending, Multiset.mem_coe] at hq
            have hmem := OrderedMap.mem_of_mem_toList hq
            refine lt_of_le_of_ne (h.playout_le_key _ hmem) fun heq => ?_
            rw [← heq, TreeMap.mem_iff_isSome_getElem?, hnone] at hmem
            exact absurd hmem (by decide)
          · exact fun k hk => WithBot.coe_lt_coe.mpr (hk hstarted)

/-- A run of the buffer is a history of the resequencer. -/
theorem run_refines {jb : JitterBuffer} {a : State Int RtpPacket} (h : jb.Inv)
    (href : Refines jb a) (ops : List Op) :
    ∃ es a', Steps a es a' ∧ Refines (Run.final step jb ops) a' ∧
      Resequencer.accepted es = Run.collect step accepted jb ops ∧
      Resequencer.delivered es = Run.collect step returned jb ops ∧
      (Run.final step jb ops).stats_.overflowDropped =
        jb.stats_.overflowDropped + (Resequencer.dropped es).length := by
  induction ops generalizing jb a with
  | nil => exact ⟨[], a, .nil a, href, rfl, rfl, rfl⟩
  | cons op ops ih =>
      obtain ⟨es, a₁, hes, href₁, hacc, hdel, hdrop⟩ := step_refines h href op
      obtain ⟨fs, a₂, hfs, href₂, hacc', hdel', hdrop'⟩ := ih (step_inv op h) href₁
      refine ⟨es ++ fs, a₂, hes.append hfs, href₂, ?_, ?_, ?_⟩
      · rw [Resequencer.accepted_append, hacc, hacc', Run.collect_cons]
      · rw [Resequencer.delivered_append, hdel, hdel', Run.collect_cons]
      · rw [Run.final_cons, hdrop', hdrop, Resequencer.dropped_append, List.length_append, add_assoc]

/-- **Conservation**: from a fresh buffer, every accepted packet is handed out,
dropped by overflow, or still queued. -/
theorem conservation (cfg : Config) (ops : List Op) :
    (Run.collect step accepted (fresh cfg) ops).length =
      (Run.collect step returned (fresh cfg) ops).length +
        (Run.final step (fresh cfg) ops).stats_.overflowDropped +
        (Run.final step (fresh cfg) ops).buf.size := by
  obtain ⟨es, a, hes, href, hacc, hdel, hdrop⟩ :=
    run_refines (inv_fresh cfg) (refines_fresh cfg) ops
  have hcard := congrArg Multiset.card hes.conserve
  have hdropped : (Run.final step (fresh cfg) ops).stats_.overflowDropped =
      (Resequencer.dropped es).length := hdrop.trans (Nat.zero_add _)
  rw [Nat.add_assoc]
  simpa [State.init, href.pending, hacc, hdel, ← hdropped] using hcard

/-- What comes out of a fresh buffer is in strictly increasing order and among
what was accepted, slot by slot. -/
theorem returned_in_order (cfg : Config) (ops : List Op) :
    ((Run.collect step returned (fresh cfg) ops).map Prod.fst).Pairwise (· < ·) ∧
      (Run.collect step returned (fresh cfg) ops).Subperm
        (Run.collect step accepted (fresh cfg) ops) ∧
      ((Run.collect step accepted (fresh cfg) ops).map Prod.fst).Nodup := by
  obtain ⟨es, a, hes, _, hacc, hdel, _⟩ := run_refines (inv_fresh cfg) (refines_fresh cfg) ops
  rw [← hacc, ← hdel]
  exact ⟨hes.delivered_sorted, hes.delivered_subperm, hes.accepted_nodup⟩

/-- From now on no packet below the playout cursor is handed out. -/
theorem playout_le_of_returned {jb : JitterBuffer} (h : jb.Inv) (hstarted : jb.started = true)
    {ops : List Op} {p : Int × RtpPacket} (hp : p ∈ Run.collect step returned jb ops) :
    jb.playoutExt ≤ p.1 := by
  obtain ⟨es, a', hes, _, _, hdel, _⟩ := run_refines h (refines_of_started jb hstarted) ops
  have hlt := hes.last_lt_of_delivered (hdel.symm ▸ hp)
  exact Int.le_of_sub_one_lt (WithBot.coe_lt_coe.mp hlt)

/-! ## draining -/

/-- What a pop reports, with the number it reports on. -/
def slots (jb : JitterBuffer) : Op → List (Int × Slot)
  | .insert _ => []
  | .pop => [(jb.playoutExt, jb.pop.1)]

/-- What playout owes a number: its packet, or a loss. -/
def slotAt (buf : TreeMap Int RtpPacket) (k : Int) : Slot where
  packet := buf[k]?
  wasLost := buf[k]?.isNone

/-- One pop of a buffer that plays out: the packet at the cursor goes, or its
slot is lost; the rest is untouched. -/
structure Played (jb : JitterBuffer) (slot : Slot) (jb' : JitterBuffer) : Prop where
  slot_eq : slot = slotAt jb.buf jb.playoutExt
  started : jb'.started = true
  primed : jb'.primed = true
  playout : jb'.playoutExt = jb.playoutExt + 1
  highest : jb'.highestExt = jb.highestExt
  rest : ∀ k, jb.playoutExt < k → jb'.buf[k]? = jb.buf[k]?
  toList : jb.buf.toList = (slot.packet.map fun p => (jb.playoutExt, p)).toList ++ jb'.buf.toList
  lost : jb'.stats_.lost + jb.buf.size = jb.stats_.lost + 1 + jb'.buf.size
  late : jb'.stats_.lateDiscarded = jb.stats_.lateDiscarded

/-- A buffer with packets queued plays out once it is primed or deep enough. -/
theorem Popping.played {jb jb' : JitterBuffer} {slot : Slot} (hpop : Popping jb slot jb')
    (h : jb.Inv) (hsize : jb.buf.size ≠ 0)
    (hready : jb.primed = true ∨ jb.cfg.targetDepth ≤ jb.buf.size) : Played jb slot jb' := by
  cases hpop with
  | wait hprimed hwait =>
      exfalso
      rcases hwait with hzero | ⟨hunprimed, hshallow⟩
      · exact hsize hzero
      · rcases hready with hp | hdeep
        · exact absurd (hunprimed.symm.trans hp) (by decide)
        · omega
  | @deliver p hstarted hp =>
      exact
        { slot_eq := by simp [slotAt, hp]
          started := hstarted
          primed := rfl
          playout := rfl
          highest := rfl
          rest := fun k hk => OrderedMap.getElem?_erase.trans (if_neg hk.ne')
          toList := OrderedMap.toList_eq_cons_erase hp h.playout_le_key
          lost := by
            have hsize := OrderedMap.size_erase (mem_of_getElem? hp)
            show jb.stats_.lost + jb.buf.size =
              jb.stats_.lost + 1 + (jb.buf.erase jb.playoutExt).size
            omega
          late := rfl }
  | lose hstarted _ hnone =>
      exact
        { slot_eq := by simp [slotAt, hnone]
          started := hstarted
          primed := rfl
          playout := rfl
          highest := rfl
          rest := fun _ _ => rfl
          toList := rfl
          lost := rfl
          late := rfl }

/-- An empty buffer has nothing to report. -/
theorem Popping.of_empty {jb jb' : JitterBuffer} {slot : Slot} (hpop : Popping jb slot jb')
    (hsize : jb.buf.size = 0) : slot = {} ∧ jb'.buf = jb.buf ∧ jb'.stats_ = jb.stats_ := by
  cases hpop with
  | wait hprimed hwait => exact ⟨rfl, rfl, rfl⟩
  | deliver hstarted hp => exact absurd (mem_of_getElem? hp) (not_mem_of_size_eq_zero hsize _)
  | lose hstarted hne hnone => exact absurd hsize hne

/-- A lost slot has no packet, and the cursor moves past it. -/
theorem Popping.of_lost {jb jb' : JitterBuffer} {slot : Slot} (hpop : Popping jb slot jb')
    (hlost : slot.wasLost = true) :
    jb.buf[jb.playoutExt]? = none ∧ jb'.started = true ∧ jb'.playoutExt = jb.playoutExt + 1 := by
  cases hpop with
  | wait => exact absurd hlost Bool.false_ne_true
  | deliver => exact absurd hlost Bool.false_ne_true
  | lose hstarted _ hnone => exact ⟨hnone, hstarted, rfl⟩

/-- Past the highest number nothing is queued. -/
theorem Inv.size_eq_zero {jb : JitterBuffer} (h : jb.Inv)
    (hpast : jb.playoutExt = jb.highestExt + 1) : jb.buf.size = 0 := by
  by_contra hsize
  have hle := h.playout_le_highest hsize
  omega

/-- Up to the highest number something is queued. -/
theorem Inv.size_ne_zero {jb : JitterBuffer} (h : jb.Inv) (hstarted : jb.started = true)
    (hle : jb.playoutExt ≤ jb.highestExt) : jb.buf.size ≠ 0 :=
  fun hsize => not_mem_of_size_eq_zero hsize _ (h.highest_mem hstarted hle)

/-- What `n` pops make of a buffer: each slot from the playout cursor is
reported in turn, the queued packets are handed out in order, nothing is left,
and the missing ones are counted as lost. -/
structure Drained (jb : JitterBuffer) (n : Nat) : Prop where
  slots_eq : Run.collect step slots jb (List.replicate n .pop) =
    (List.range n).map fun i : Nat => (jb.playoutExt + i, slotAt jb.buf (jb.playoutExt + i))
  returned_eq : Run.collect step returned jb (List.replicate n .pop) = jb.buf.toList
  empty : (Run.final step jb (List.replicate n .pop)).buf.size = 0
  lost : (Run.final step jb (List.replicate n .pop)).stats_.lost + jb.buf.size =
    jb.stats_.lost + n
  late : (Run.final step jb (List.replicate n .pop)).stats_.lateDiscarded =
    jb.stats_.lateDiscarded

/-- **Draining**: it takes as many pops as there are slots from the playout
cursor to the highest number. -/
theorem drained {jb : JitterBuffer} (h : jb.Inv) (hstarted : jb.started = true)
    (hready : jb.primed = true ∨ jb.cfg.targetDepth ≤ jb.buf.size) {n : Nat}
    (hn : jb.playoutExt + n = jb.highestExt + 1) : Drained jb n := by
  induction n generalizing jb with
  | zero =>
      have hsize := h.size_eq_zero (by omega)
      have hnil : jb.buf.toList = [] :=
        List.eq_nil_of_length_eq_zero (TreeMap.length_toList.trans hsize)
      exact ⟨rfl, hnil.symm, hsize, by simp [hsize], rfl⟩
  | succ n ih =>
      have hplayed := (pop_cases h).played h (h.size_ne_zero hstarted (by omega)) hready
      have hrest : Drained jb.pop.2 n := ih (step_inv .pop h) hplayed.started (.inl hplayed.primed)
        (by rw [hplayed.playout, hplayed.highest]; omega)
      constructor
      case slots_eq =>
        have hhead : jb.slots .pop =
            [(jb.playoutExt + (0 : Nat), slotAt jb.buf (jb.playoutExt + (0 : Nat)))] := by
          simp [slots, hplayed.slot_eq]
        rw [List.replicate_succ, Run.collect_cons, step_pop, hrest.slots_eq,
          List.range_succ_eq_map, List.map_cons, List.map_map, hhead, List.singleton_append]
        refine congrArg _ (List.map_congr_left fun i _ => ?_)
        have hslot : jb.pop.2.playoutExt + i = jb.playoutExt + (i + 1 : Nat) := by
          rw [hplayed.playout]
          omega
        have hlookup := hplayed.rest (jb.playoutExt + (i + 1 : Nat)) (by omega)
        rw [hslot, slotAt, hlookup]
        rfl
      case returned_eq =>
        rw [List.replicate_succ, Run.collect_cons, step_pop, hrest.returned_eq]
        exact hplayed.toList.symm
      case empty => exact hrest.empty
      case lost =>
        have hsum := hrest.lost
        have hstep := hplayed.lost
        rw [List.replicate_succ, Run.final_cons, step_pop]
        omega
      case late => exact hrest.late.trans hplayed.late

/-- Pops beyond that change nothing. -/
theorem drained_beyond {jb : JitterBuffer} (h : jb.Inv) (hsize : jb.buf.size = 0) (n : Nat) :
    Run.collect step returned jb (List.replicate n .pop) = [] ∧
      (Run.final step jb (List.replicate n .pop)).stats_ = jb.stats_ := by
  induction n generalizing jb with
  | zero => exact ⟨rfl, rfl⟩
  | succ n ih =>
      obtain ⟨hslot, hbuf, hstats⟩ := (pop_cases h).of_empty hsize
      obtain ⟨hreturned, hfinal⟩ := ih (step_inv .pop h) (by rw [step_pop, hbuf, hsize])
      rw [List.replicate_succ, Run.collect_cons, Run.final_cons, hreturned, hfinal]
      exact ⟨by simp [returned, hslot], hstats⟩

/-- A primed buffer has started. -/
theorem Inv.started_of_primed {jb : JitterBuffer} (h : jb.Inv) (hprimed : jb.primed = true) :
    jb.started = true := by
  by_contra hidle
  have hunprimed := (h.idle (by simpa using hidle)).2.2.2
  exact absurd (hunprimed.symm.trans hprimed) (by decide)

/-! ## delivery -/

/-- **Delivery**: whatever is inserted and popped, packets come out in strictly
increasing order, each an accepted one and none twice; a slot declared lost has
no packet queued and never gets one; and draining a primed buffer takes one pop
for each slot up to the highest number, reports each packet or loss in turn and
leaves nothing. -/
theorem delivery (cfg : Config) (ops : List Op) :
    let jb := Run.final step (fresh cfg) ops
    let acceptedPackets := Run.collect step accepted (fresh cfg) ops
    let returnedPackets := Run.collect step returned (fresh cfg) ops
    (returnedPackets.map Prod.fst).Pairwise (· < ·) ∧
      returnedPackets.Subperm acceptedPackets ∧ (acceptedPackets.map Prod.fst).Nodup ∧
      (jb.pop.1.wasLost = true → jb.buf[jb.playoutExt]? = none ∧
        ∀ later, ∀ p ∈ Run.collect step returned jb.pop.2 later, p.1 ≠ jb.playoutExt) ∧
      (jb.primed = true → jb.buf.size ≠ 0 → ∃ n : Nat, n = jb.highestExt - jb.playoutExt + 1 ∧
        let pops := List.replicate n Op.pop
        Run.collect step slots jb pops =
            (List.range n).map (fun i : Nat =>
              (jb.playoutExt + i, slotAt jb.buf (jb.playoutExt + i))) ∧
          Run.collect step returned jb pops = jb.buf.toList ∧
          (Run.final step jb pops).buf.size = 0) := by
  intro jb acceptedPackets returnedPackets
  have h : jb.Inv := final_inv (inv_fresh cfg) ops
  obtain ⟨hsorted, hsubperm, hnodup⟩ := returned_in_order cfg ops
  refine ⟨hsorted, hsubperm, hnodup, fun hlost => ?_, fun hprimed hsize => ?_⟩
  · obtain ⟨hnone, hstarted, hcursor⟩ := (pop_cases h).of_lost hlost
    refine ⟨hnone, fun later p hp heq => ?_⟩
    have hge := playout_le_of_returned (step_inv .pop h) hstarted hp
    rw [step_pop, hcursor] at hge
    omega
  · have hstarted := h.started_of_primed hprimed
    have hle := h.playout_le_highest hsize
    have hdrained := drained h hstarted (.inl hprimed)
      (n := (jb.highestExt - jb.playoutExt + 1).toNat) (by omega)
    exact ⟨_, by omega, hdrained.slots_eq, hdrained.returned_eq, hdrained.empty⟩

end SipDemo.JitterBuffer
