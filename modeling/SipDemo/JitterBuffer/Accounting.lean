import SipDemo.JitterBuffer.Delivery

/-!
# SipDemo.JitterBuffer.Accounting

The counters of a jitter buffer against what happened to it.

Every inserted packet is counted once, as received or as discarded, and every
received one is handed out, dropped or queued (`packet_conservation`).  The
slots the playout cursor passes are a different matter: a pop counts the slot
it passes, but the overflow loop moves the cursor past the dropped packet in
one jump, and the empty slots under the jump are counted nowhere.  So the
counters account for every slot exactly in the runs without such a jump
(`slots_accounted_iff`).
-/

namespace SipDemo.JitterBuffer

open Std (TreeMap)

/-- The packets of the insert calls, in order. -/
def inserts (ops : List Op) : List RtpPacket :=
  ops.filterMap fun
    | .insert pkt => some pkt
    | .pop => none

/-! ## packets -/

/-- One insert is one more packet, received or discarded. -/
theorem Insertion.counted {jb jb' : JitterBuffer} {pkt : RtpPacket} (h : Insertion jb pkt jb') :
    jb'.stats_.received + jb'.stats_.lateDiscarded =
      jb.stats_.received + jb.stats_.lateDiscarded + 1 := by
  cases h with
  | late => rfl
  | queued => simp [enqueue]; omega
  | overflow => simp [enqueue, evict]; omega

theorem Popping.counted {jb jb' : JitterBuffer} {slot : Slot} (h : Popping jb slot jb') :
    jb'.stats_.received = jb.stats_.received ∧
      jb'.stats_.lateDiscarded = jb.stats_.lateDiscarded := by
  cases h with
  | wait => exact ⟨rfl, rfl⟩
  | deliver => exact ⟨rfl, rfl⟩
  | lose => exact ⟨rfl, rfl⟩

/-- `received` counts the accepted packets. -/
theorem received_step {jb : JitterBuffer} (h : jb.Inv) (op : Op) :
    (jb.step op).stats_.received = jb.stats_.received + (jb.accepted op).length := by
  cases op with
  | pop => exact (pop_cases h).counted.1
  | insert pkt =>
      have hins := insert_cases h pkt
      simp only [step, accepted]
      generalize jb.insert pkt = jb' at hins ⊢
      cases hins with
      | late => simp [discard]
      | queued => simp [enqueue]
      | overflow => simp [enqueue, evict]

theorem counted_step {jb : JitterBuffer} (h : jb.Inv) (op : Op) :
    (jb.step op).stats_.received + (jb.step op).stats_.lateDiscarded =
      jb.stats_.received + jb.stats_.lateDiscarded + (inserts [op]).length := by
  cases op with
  | pop =>
      obtain ⟨hreceived, hlate⟩ := (pop_cases h).counted
      rw [step_pop, hreceived, hlate]
      rfl
  | insert pkt => exact (insert_cases h pkt).counted

theorem inserts_cons (op : Op) (ops : List Op) :
    inserts (op :: ops) = inserts [op] ++ inserts ops := by
  rw [← List.singleton_append, inserts, List.filterMap_append]
  rfl

/-- Along a run both counters follow. -/
theorem counted_run {jb : JitterBuffer} (h : jb.Inv) (ops : List Op) :
    (Run.final step jb ops).stats_.received + (Run.final step jb ops).stats_.lateDiscarded =
        jb.stats_.received + jb.stats_.lateDiscarded + (inserts ops).length ∧
      (Run.final step jb ops).stats_.received =
        jb.stats_.received + (Run.collect step accepted jb ops).length := by
  induction ops generalizing jb with
  | nil => exact ⟨rfl, rfl⟩
  | cons op ops ih =>
      obtain ⟨hcounted, hreceived⟩ := ih (step_inv op h)
      have hstep := counted_step h op
      have hone := received_step h op
      rw [Run.final_cons, Run.collect_cons, inserts_cons, List.length_append, List.length_append]
      omega

/-- **Packet conservation**: every insert is counted as received or discarded,
and every received packet was returned, dropped by overflow or is still queued. -/
theorem packet_conservation (cfg : Config) (ops : List Op) :
    let jb := Run.final step (fresh cfg) ops
    (inserts ops).length = jb.stats.received + jb.stats.lateDiscarded ∧
      jb.stats.received = (Run.collect step returned (fresh cfg) ops).length +
        jb.stats.overflowDropped + jb.stats.currentDepth := by
  intro jb
  obtain ⟨hcounted, hreceived⟩ := counted_run (inv_fresh cfg) ops
  have hsplit := conservation cfg ops
  rw [hsplit] at hreceived
  change jb.stats_.received + jb.stats_.lateDiscarded = 0 + 0 + (inserts ops).length at hcounted
  change jb.stats_.received =
    0 + (_ + jb.stats.overflowDropped + jb.stats.currentDepth) at hreceived
  constructor
  · show (inserts ops).length = jb.stats_.received + jb.stats_.lateDiscarded
    omega
  · show jb.stats_.received = _ + jb.stats.overflowDropped + jb.stats.currentDepth
    omega

/-! ## slots -/

/-- An accepted packet overfills the buffer while the slot at the playout
cursor is empty: the overflow loop jumps the cursor over that slot. -/
def JumpsGap (jb : JitterBuffer) : Op → Prop
  | .insert pkt =>
    jb.started = true ∧ jb.buf.size = jb.cfg.capacity ∧ jb.playoutExt < jb.slotOf pkt ∧
      jb.slotOf pkt ∉ jb.buf ∧ jb.playoutExt ∉ jb.buf
  | .pop => False

instance instDecidableJumpsGap (jb : JitterBuffer) : (op : Op) → Decidable (jb.JumpsGap op)
  | .insert pkt => inferInstanceAs (Decidable (jb.started = true ∧ jb.buf.size = jb.cfg.capacity ∧
      jb.playoutExt < jb.slotOf pkt ∧ jb.slotOf pkt ∉ jb.buf ∧ jb.playoutExt ∉ jb.buf))
  | .pop => inferInstanceAs (Decidable False)

/-- What one operation does to the playout cursor of a started buffer: it moves
over the slots that the counters gain, and over `gap` more. -/
theorem slots_step {jb : JitterBuffer} (h : jb.Inv) (hstarted : jb.started = true) (op : Op) :
    ∃ gap : Nat, (jb.step op).playoutExt - jb.playoutExt =
        (jb.returned op).length + ((jb.step op).stats_.lost - jb.stats_.lost : Int) +
          ((jb.step op).stats_.overflowDropped - jb.stats_.overflowDropped : Int) + gap ∧
      (gap = 0 ↔ ¬ jb.JumpsGap op) := by
  cases op with
  | pop =>
      have hpop := pop_cases h
      simp only [step_pop, returned, JumpsGap]
      generalize jb.pop.1 = slot, jb.pop.2 = jb' at hpop ⊢
      refine ⟨0, ?_, by simp⟩
      cases hpop with
      | wait => simp
      | deliver => simp
      | lose => simp
  | insert pkt =>
      have hins := insert_cases h pkt
      simp only [step_insert, returned, JumpsGap]
      generalize jb.insert pkt = jb' at hins ⊢
      cases hins with
      | late _ hlate =>
          refine ⟨0, by simp [discard], ?_⟩
          rw [eq_self_iff_true, true_iff]
          rintro ⟨_, _, hlt, hnew, _⟩
          exact hlate.elim (fun h => by omega) hnew
      | queued hge hnew hroom =>
          refine ⟨0, by simp [enqueue, start_of_started hstarted], ?_⟩
          rw [eq_self_iff_true, true_iff]
          rintro ⟨_, hfull, _⟩
          omega
      | @overflow hge hnew hfull oldest v hold hmin =>
          have hcore := h.toCore.enqueue hge
          have hmem := mem_of_getElem? hold
          have hcursor := hcore.playout_le_key oldest hmem
          have hkey : ∀ k, k ∈ ((jb.start pkt).enqueue (jb.slotOf pkt) pkt).buf ↔
              jb.slotOf pkt = k ∨ k ∈ jb.buf := by
            intro k
            simp [enqueue]
          rw [start_of_started hstarted] at hge hcore hmem hcursor hkey hmin ⊢
          have hmoved : ((jb.enqueue (jb.slotOf pkt) pkt).evict oldest).playoutExt = oldest + 1 :=
            if_pos hcursor
          change jb.playoutExt ≤ oldest at hcursor
          refine ⟨(oldest - jb.playoutExt).toNat, ?_, ?_⟩
          · rw [hmoved]
            simp only [enqueue, evict, List.length_nil]
            omega
          · constructor
            · -- no gap: the oldest packet is at the cursor, so the slot is not empty
              rintro hzero ⟨_, _, hlt, _, hempty⟩
              have heq : oldest = jb.playoutExt := by omega
              rw [hkey, heq] at hmem
              exact hmem.elim (fun h => by omega) hempty
            · intro hfilled
              by_contra hgap
              have hempty : jb.playoutExt ∉ (jb.enqueue (jb.slotOf pkt) pkt).buf := by
                intro hk
                have hle := hmin _ hk
                omega
              rw [hkey, not_or] at hempty
              exact hfilled ⟨hstarted, hfull, lt_of_le_of_ne hge (Ne.symm hempty.1), hnew, hempty.2⟩

/-- A started buffer stays started. -/
theorem step_started {jb : JitterBuffer} (h : jb.Inv) (hstarted : jb.started = true) (op : Op) :
    (jb.step op).started = true := by
  cases op with
  | pop =>
      have hpop := pop_cases h
      rw [step_pop]
      generalize jb.pop.1 = slot, jb.pop.2 = jb' at hpop ⊢
      cases hpop with
      | wait => exact hstarted
      | deliver => exact hstarted
      | lose => exact hstarted
  | insert pkt =>
      have hins := insert_cases h pkt
      rw [step_insert]
      generalize jb.insert pkt = jb' at hins ⊢
      cases hins with
      | late => exact hstarted
      | queued => exact start_started jb pkt
      | overflow => exact start_started jb pkt

/-- From a started buffer on: the gaps jumped over add up. -/
theorem slots_run {jb : JitterBuffer} (h : jb.Inv) (hstarted : jb.started = true) (ops : List Op) :
    ∃ gap : Nat, (Run.final step jb ops).playoutExt - jb.playoutExt =
        (Run.collect step returned jb ops).length +
          ((Run.final step jb ops).stats_.lost - jb.stats_.lost : Int) +
          ((Run.final step jb ops).stats_.overflowDropped - jb.stats_.overflowDropped : Int) +
          gap ∧
      (gap = 0 ↔ Run.Always step (fun jb op => ¬ jb.JumpsGap op) jb ops) := by
  induction ops generalizing jb with
  | nil => exact ⟨0, by simp, by simp⟩
  | cons op ops ih =>
      obtain ⟨gap, hgap, hnone⟩ := slots_step h hstarted op
      obtain ⟨gaps, hgaps, hnever⟩ := ih (step_inv op h) (step_started h hstarted op)
      refine ⟨gap + gaps, ?_, ?_⟩
      · rw [Run.final_cons, Run.collect_cons, List.length_append]
        omega
      · rw [Run.always_cons, ← hnone, ← hnever]
        omega

/-- Before the first insert there are only pops. -/
theorem exists_first_insert {ops : List Op} {pkt : RtpPacket}
    (hfirst : (inserts ops).head? = some pkt) :
    ∃ n rest, ops = List.replicate n .pop ++ .insert pkt :: rest := by
  induction ops with
  | nil => cases hfirst
  | cons op ops ih =>
      cases op with
      | insert pkt' =>
          cases hfirst
          exact ⟨0, ops, rfl⟩
      | pop =>
          obtain ⟨n, rest, rfl⟩ := ih hfirst
          exact ⟨n + 1, rest, rfl⟩

/-- A fresh buffer pops nothing. -/
theorem pops_fresh (cfg : Config) (n : Nat) :
    Run.final step (fresh cfg) (List.replicate n .pop) = fresh cfg ∧
      Run.collect step returned (fresh cfg) (List.replicate n .pop) = [] ∧
      Run.Always step (fun jb op => ¬ jb.JumpsGap op) (fresh cfg) (List.replicate n .pop) := by
  induction n with
  | zero => exact ⟨rfl, rfl, trivial⟩
  | succ n ih => exact ⟨ih.1, ih.2.1, not_false, ih.2.2⟩

/-- The first insert opens the sequence at its own number; only a buffer
without capacity drops it at once. -/
theorem first_insert (cfg : Config) (pkt : RtpPacket) :
    let jb := (fresh cfg).insert pkt
    jb.started = true ∧ jb.stats_.lost = 0 ∧
      jb.playoutExt - (fresh cfg).slotOf pkt = jb.stats_.overflowDropped := by
  have hins := insert_cases (inv_fresh cfg) pkt
  have hcursor := (start_of_idle (show (fresh cfg).started = false from rfl) pkt).1
  have hstats := start_stats (fresh cfg) pkt
  intro jb
  have hjb : jb = (fresh cfg).insert pkt := rfl
  rw [← hjb] at hins
  clear_value jb
  cases hins with
  | late hstarted => exact absurd hstarted Bool.false_ne_true
  | queued hge hnew hroom =>
      refine ⟨start_started _ _, ?_, ?_⟩
      · simp [enqueue, fresh]
      · simp only [enqueue, hcursor, hstats]
        simp [fresh]
  | @overflow hge hnew hfull oldest v hold hmin =>
      have hmem := mem_of_getElem? hold
      have holdest : oldest = (fresh cfg).slotOf pkt := by
        simp only [enqueue, start_buf, TreeMap.mem_insertIfNew, Int.compare_eq_eq] at hmem
        exact hmem.elim Eq.symm fun h => absurd h TreeMap.not_mem_emptyc
      subst holdest
      refine ⟨start_started _ _, ?_, ?_⟩
      · simp [enqueue, evict, fresh]
      · simp only [enqueue, evict, hcursor, hstats]
        simp [fresh]

/-- After the first packet, numbered `b`, the playout cursor has passed the
slots the counters account for, and the gaps jumped over. -/
theorem slots_balance (cfg : Config) {ops : List Op} {pkt : RtpPacket}
    (hfirst : (inserts ops).head? = some pkt) :
    ∃ gap : Nat, (Run.final step (fresh cfg) ops).playoutExt - (fresh cfg).slotOf pkt =
        (Run.collect step returned (fresh cfg) ops).length +
          (Run.final step (fresh cfg) ops).stats_.lost +
          (Run.final step (fresh cfg) ops).stats_.overflowDropped + gap ∧
      (gap = 0 ↔ Run.Always step (fun jb op => ¬ jb.JumpsGap op) (fresh cfg) ops) := by
  obtain ⟨n, rest, rfl⟩ := exists_first_insert hfirst
  obtain ⟨hfresh, hnone, hquiet⟩ := pops_fresh cfg n
  obtain ⟨hstarted, hlost, hopen⟩ := first_insert cfg pkt
  obtain ⟨gap, hgap, hnever⟩ := slots_run (step_inv (.insert pkt) (inv_fresh cfg)) hstarted rest
  have hsettled : ¬ (fresh cfg).JumpsGap (.insert pkt) := fun h => absurd h.1 Bool.false_ne_true
  have hreturned : (fresh cfg).returned (.insert pkt) = [] := rfl
  refine ⟨gap, ?_, ?_⟩
  · rw [Run.final_append, Run.collect_append, hfresh, hnone, Run.final_cons, Run.collect_cons,
      hreturned, List.nil_append, List.nil_append]
    rw [step_insert] at hgap ⊢
    omega
  · rw [hnever, Run.always_append, hfresh, Run.always_cons]
    simp only [hquiet, hsettled, not_false_eq_true, true_and]

/-- **Slot accounting**: after the first packet, numbered `b`, the counters
account for every slot the playout cursor has passed exactly in the runs whose
overflows never jump over an empty slot. -/
theorem slots_accounted_iff (cfg : Config) {ops : List Op} {pkt : RtpPacket}
    (hfirst : (inserts ops).head? = some pkt) :
    let jb := Run.final step (fresh cfg) ops
    let b : Int := (fresh cfg).slotOf pkt
    jb.playoutExt - b = (Run.collect step returned (fresh cfg) ops).length + jb.stats.lost +
        jb.stats.overflowDropped ↔
      Run.Always step (fun jb op => ¬ jb.JumpsGap op) (fresh cfg) ops := by
  obtain ⟨gap, hgap, hnever⟩ := slots_balance cfg hfirst
  intro jb b
  rw [← hnever]
  change jb.playoutExt - b = _ + jb.stats.lost + jb.stats.overflowDropped + gap at hgap
  omega

/-- A gap that playout passes is counted as lost. -/
theorem slots_accounted_sample :
    let ops : List Op := [.insert { sequence := 10 }, .insert { sequence := 12 },
      .insert { sequence := 13 }, .pop, .pop, .pop]
    let jb := Run.final step (fresh {}) ops
    jb.playoutExt - 10 = (Run.collect step returned (fresh {}) ops).length + jb.stats.lost +
      jb.stats.overflowDropped :=
  (@slots_accounted_iff {} [.insert { sequence := 10 }, .insert { sequence := 12 },
    .insert { sequence := 13 }, .pop, .pop, .pop] { sequence := 10 } rfl).mpr (by decide +kernel)

/-- The accepted packet that overfills the buffer drops the least number. -/
theorem insert_of_full {jb : JitterBuffer} {pkt : RtpPacket} {oldest : Int} (h : jb.Inv)
    (hfull : jb.buf.size = jb.cfg.capacity) (hge : jb.playoutExt ≤ jb.slotOf pkt)
    (hstarted : jb.started = true) (hnew : jb.slotOf pkt ∉ jb.buf)
    (hold : oldest ∈ (jb.enqueue (jb.slotOf pkt) pkt).buf)
    (hmin : ∀ k ∈ (jb.enqueue (jb.slotOf pkt) pkt).buf, oldest ≤ k) :
    jb.insert pkt = (jb.enqueue (jb.slotOf pkt) pkt).evict oldest := by
  have hins := insert_cases h pkt
  generalize jb.insert pkt = jb' at hins ⊢
  cases hins with
  | late _ hlate => exact absurd hlate (by rw [not_or, not_lt]; exact ⟨hge, hnew⟩)
  | queued _ _ hroom => omega
  | @overflow _ _ _ least v hleast hleastmin =>
      rw [start_of_started hstarted] at hleast hleastmin ⊢
      have heq : least = oldest :=
        le_antisymm (hleastmin oldest hold) (hmin least (mem_of_getElem? hleast))
      rw [heq]

/-- Capacity 1, and packets 10, 12 and 14: the third one drops 12 and moves the
cursor from 11 to 13, over slot 11, which is counted nowhere. -/
def gapRun : List Op :=
  [.insert { sequence := 10 }, .insert { sequence := 12 }, .insert { sequence := 14 }]

theorem slots_unaccounted_gapRun :
    ¬ ∀ (cfg : Config) (ops : List Op) (pkt : RtpPacket), (inserts ops).head? = some pkt →
      let jb := Run.final step (fresh cfg) ops
      jb.playoutExt - (fresh cfg).slotOf pkt =
        (Run.collect step returned (fresh cfg) ops).length + jb.stats.lost +
          jb.stats.overflowDropped := by
  intro h
  have hall := h { capacity := 1 } gapRun { sequence := 10 } rfl
  have hinv : ((fresh { capacity := 1 }).insert { sequence := 10 }).Inv :=
    step_inv (.insert { sequence := 10 }) (inv_fresh _)
  have hslot : ((fresh { capacity := 1 }).insert { sequence := 10 }).slotOf { sequence := 12 } = 12 :=
    by decide +kernel
  have hleast : ∀ p ∈ (((fresh { capacity := 1 }).insert { sequence := 10 }).enqueue 12
      { sequence := 12 }).buf.toList, 10 ≤ p.1 := by decide +kernel
  rw [← hslot] at hleast
  have hsecond := @insert_of_full _ { sequence := 12 } 10 hinv (by decide +kernel)
    (by decide +kernel) (by decide +kernel) (by decide +kernel) (by decide +kernel)
    fun k hk => (OrderedMap.exists_mem_toList hk).elim fun v hv => hleast (k, v) hv
  have hjumps : (((fresh { capacity := 1 }).insert { sequence := 10 }).insert
      { sequence := 12 }).JumpsGap (.insert { sequence := 14 }) := by
    rw [hsecond]
    decide +kernel
  obtain ⟨gap, hgap, hnever⟩ := @slots_balance { capacity := 1 } gapRun { sequence := 10 } rfl
  have hzero : gap = 0 := by
    simp only [stats] at hall
    omega
  exact (hnever.mp hzero).2.2.1 hjumps

end SipDemo.JitterBuffer
