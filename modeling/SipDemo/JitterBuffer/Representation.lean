import SipDemo.JitterBuffer

/-!
# SipDemo.JitterBuffer.Representation

The representation invariant over every public operation, `reset` included,
and what the overflow loop does at each turn.

`Core` and `Inv` are the working form, which every operation keeps; `Represents`
is the form a reader of the header would write down.
-/

namespace SipDemo

open Std (TreeMap)

namespace JitterBuffer

/-! ## calls -/

/-- The operations that change a buffer. -/
inductive Call where
  | insert (pkt : RtpPacket)
  | pop
  | reset
  deriving DecidableEq, Repr

def call (jb : JitterBuffer) : Call → JitterBuffer
  | .insert pkt => jb.insert pkt
  | .pop => jb.pop.2
  | .reset => jb.reset

/-- A buffer is reset to a fresh one. -/
theorem reset_eq_fresh (jb : JitterBuffer) : jb.reset = fresh jb.cfg := rfl

theorem call_inv {jb : JitterBuffer} (c : Call) (h : jb.Inv) : (jb.call c).Inv := by
  cases c with
  | insert pkt => exact step_inv (.insert pkt) h
  | pop => exact step_inv .pop h
  | reset =>
      rw [call, reset_eq_fresh]
      exact inv_fresh jb.cfg

theorem call_cfg {jb : JitterBuffer} (c : Call) (h : jb.Inv) : (jb.call c).cfg = jb.cfg := by
  cases c with
  | insert pkt => exact step_cfg (.insert pkt) h
  | pop => exact step_cfg .pop h
  | reset => rfl

theorem calls_inv (cfg : Config) (calls : List Call) :
    (Run.final call (fresh cfg) calls).Inv ∧ (Run.final call (fresh cfg) calls).cfg = cfg :=
  Run.final_of_preserved (fun jb : JitterBuffer => jb.Inv ∧ jb.cfg = cfg)
    (fun _ c h => ⟨call_inv c h.1, (call_cfg c h.1).trans h.2⟩) ⟨inv_fresh cfg, rfl⟩ calls

/-! ## the overflow loop -/

/-- A turn of the overflow loop: the playout cursor it finds, and the number of
the packet that it drops. -/
structure Turn where
  cursor : Int
  oldest : Int
  deriving DecidableEq, Repr

/-- The turns that `enforceCapacity` takes, in order. -/
def turns (jb : JitterBuffer) : List Turn :=
  if jb.cfg.capacity < jb.buf.size then
    match _hmin : jb.buf.minKey? with
    | some oldest => { cursor := jb.playoutExt, oldest } :: turns (jb.evict oldest)
    | none => []
  else []
termination_by jb.buf.size
decreasing_by
  have hsize := OrderedMap.size_erase (OrderedMap.minKey?_eq_some.mp _hmin).1
  simp only [evict]
  omega

/-- The turns of the overflow loop in an insert: a late or duplicate packet does
not get that far. -/
def insertTurns (jb : JitterBuffer) (pkt : RtpPacket) : List Turn :=
  let ext := jb.slotOf pkt
  let jb := jb.start pkt
  if ext < jb.playoutExt then []
  else if jb.buf.contains ext then []
  else (jb.enqueue ext pkt).turns

/-- The loop is its turns, one `evict` each. -/
theorem enforceCapacity_eq_foldl (jb : JitterBuffer) :
    jb.enforceCapacity = jb.turns.foldl (fun jb turn => jb.evict turn.oldest) jb := by
  fun_induction turns jb with
  | case1 jb hfull oldest hmin ih =>
      rw [enforceCapacity, if_pos hfull, List.foldl_cons, ← ih]
      split <;> simp_all
  | case2 jb hfull hmin =>
      rw [enforceCapacity, if_pos hfull]
      split <;> simp_all
  | case3 jb hroom =>
      rw [enforceCapacity, if_neg hroom, List.foldl_nil]

/-- A turn drops a packet at or after the playout cursor. -/
theorem Core.cursor_le_oldest {jb : JitterBuffer} (h : jb.Core) :
    ∀ turn ∈ jb.turns, turn.cursor ≤ turn.oldest := by
  fun_induction turns jb with
  | case1 jb hfull oldest hmin ih =>
      obtain ⟨hmem, hleast⟩ := OrderedMap.minKey?_eq_some.mp hmin
      rw [List.forall_mem_cons]
      exact ⟨h.playout_le_key oldest hmem, ih (h.evict hmem hleast)⟩
  | case2 jb hfull hmin => simp
  | case3 jb hroom => simp

theorem Core.cursor_le_oldest_insert {jb : JitterBuffer} (h : jb.Core) (pkt : RtpPacket) :
    ∀ turn ∈ jb.insertTurns pkt, turn.cursor ≤ turn.oldest := by
  simp only [insertTurns]
  split
  · simp
  · next hge =>
      split
      · simp
      · exact (h.enqueue (not_lt.mp hge)).cursor_le_oldest

/-! ## the invariant -/

/-- What a buffer with the given configuration looks like between calls. -/
structure Represents (cfg : Config) (jb : JitterBuffer) : Prop where
  idle : jb.started = false → jb.buf.isEmpty = true ∧ jb.highestExt = 0 ∧ jb.playoutExt = 0
  playout_le : jb.started = true → jb.playoutExt ≤ jb.highestExt + 1
  keys : jb.started = true → ∀ (k : Int) (p : RtpPacket), jb.buf[k]? = some p →
    jb.playoutExt ≤ k ∧ k ≤ jb.highestExt ∧ k % 65536 = p.sequence.toNat
  largest : jb.started = true → jb.buf.isEmpty = false → jb.buf.maxKey? = some jb.highestExt
  size_le : jb.buf.size ≤ cfg.capacity

theorem Core.maxKey?_eq {jb : JitterBuffer} (h : jb.Core) (hstarted : jb.started = true)
    (hsize : jb.buf.size ≠ 0) : jb.buf.maxKey? = some jb.highestExt :=
  OrderedMap.maxKey?_eq_some.mpr
    ⟨h.highest_mem hstarted (h.playout_le_highest hsize), h.key_le_highest⟩

theorem Inv.represents {jb : JitterBuffer} (h : jb.Inv) : Represents jb.cfg jb where
  idle hidle := by
    obtain ⟨hsize, hhighest, hplayout, -⟩ := h.idle hidle
    simp [TreeMap.isEmpty_eq_size_eq_zero, hsize, hhighest, hplayout]
  playout_le := h.playout_le
  keys _ k p hp :=
    ⟨h.playout_le_key k (mem_of_getElem? hp), h.key_le_highest k (mem_of_getElem? hp),
      h.key_seq k p hp⟩
  largest hstarted hne := by
    rw [TreeMap.isEmpty_eq_size_eq_zero, beq_eq_false_iff_ne] at hne
    exact h.maxKey?_eq hstarted hne
  size_le := h.size_le

/-- In every state that inserts, pops and resets lead to, the cursors, the map
and the capacity are related as the header means them, and an insert made there
drops packets at or after the playout cursor only. -/
theorem calls_represent (cfg : Config) (calls : List Call) :
    Represents cfg (Run.final call (fresh cfg) calls) ∧
      ∀ (pkt : RtpPacket), ∀ turn ∈ (Run.final call (fresh cfg) calls).insertTurns pkt,
        turn.cursor ≤ turn.oldest := by
  obtain ⟨hinv, hcfg⟩ := calls_inv cfg calls
  refine ⟨?_, hinv.toCore.cursor_le_oldest_insert⟩
  have hrep := hinv.represents
  rwa [hcfg] at hrep

end JitterBuffer

end SipDemo
