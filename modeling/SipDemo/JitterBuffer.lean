import SipDemo.OrderedMap
import SipDemo.RtpPacket
import SipDemo.Run

/-!
# SipDemo.JitterBuffer

The sequence-ordered jitter buffer of `JitterBuffer.cpp`, and what one
operation may do to it.

`std::map` is a `TreeMap` on the extended sequence numbers, which are unbounded
integers; the counters are unbounded too.  `insert` and `pop` follow the source
branch by branch; `insert_cases` and `pop_cases` list their outcomes under the
representation invariant `Inv`, and every later result is derived from these.
-/

namespace SipDemo

open Std (TreeMap)

structure JitterStats where
  received : Nat := 0
  lost : Nat := 0
  reordered : Nat := 0
  lateDiscarded : Nat := 0
  overflowDropped : Nat := 0
  currentDepth : Nat := 0
  deriving DecidableEq, Repr

structure JitterBuffer.Config where
  targetDepth : Nat := 3
  capacity : Nat := 64
  deriving DecidableEq, Repr

structure JitterBuffer where
  cfg : JitterBuffer.Config := {}
  buf : TreeMap Int RtpPacket := ∅
  started : Bool := false
  primed : Bool := false
  highestExt : Int := 0
  playoutExt : Int := 0
  stats_ : JitterStats := {}

namespace JitterBuffer

def extend (seq : UInt16) (reference : Int) : Int := extendSeq seq reference

def size (jb : JitterBuffer) : Nat := jb.buf.size

def stats (jb : JitterBuffer) : JitterStats := { jb.stats_ with currentDepth := jb.buf.size }

/-! ## insert -/

/-- The extended number of an arriving packet: the first one opens the
sequence, later ones are unwrapped against the highest seen. -/
def slotOf (jb : JitterBuffer) (pkt : RtpPacket) : Int :=
  if jb.started then extend pkt.sequence jb.highestExt else pkt.sequence.toNat

/-- The first packet puts both cursors on its number. -/
def start (jb : JitterBuffer) (pkt : RtpPacket) : JitterBuffer :=
  if jb.started then jb
  else
    { jb with
      started := true, highestExt := pkt.sequence.toNat, playoutExt := pkt.sequence.toNat }

def discard (jb : JitterBuffer) : JitterBuffer :=
  { jb with stats_.lateDiscarded := jb.stats_.lateDiscarded + 1 }

def enqueue (jb : JitterBuffer) (ext : Int) (pkt : RtpPacket) : JitterBuffer :=
  { jb with
    buf := jb.buf.insertIfNew ext pkt
    highestExt := if ext > jb.highestExt then ext else jb.highestExt
    stats_.reordered := jb.stats_.reordered + if ext < jb.highestExt then 1 else 0
    stats_.received := jb.stats_.received + 1 }

/-- One turn of the overflow loop, at the oldest queued number. -/
def evict (jb : JitterBuffer) (oldest : Int) : JitterBuffer :=
  { jb with
    buf := jb.buf.erase oldest
    playoutExt := if oldest ≥ jb.playoutExt then oldest + 1 else jb.playoutExt
    stats_.overflowDropped := jb.stats_.overflowDropped + 1 }

/-- `while (buf_.size() > cfg_.capacity)`: drop the oldest. -/
def enforceCapacity (jb : JitterBuffer) : JitterBuffer :=
  if jb.cfg.capacity < jb.buf.size then
    match _hmin : jb.buf.minKey? with
    | some oldest => enforceCapacity (jb.evict oldest)
    | none => jb -- an empty map has no size above the capacity
  else jb
termination_by jb.buf.size
decreasing_by
  have hsize := OrderedMap.size_erase (OrderedMap.minKey?_eq_some.mp _hmin).1
  simp only [evict]
  omega

def insert (jb : JitterBuffer) (pkt : RtpPacket) : JitterBuffer :=
  let ext := jb.slotOf pkt
  let jb := jb.start pkt
  if ext < jb.playoutExt then jb.discard
  else if jb.buf.contains ext then jb.discard
  else (jb.enqueue ext pkt).enforceCapacity

/-! ## pop -/

/-- What `pop` returns: the packet, and the flag behind `wasLost`. -/
structure Slot where
  packet : Option RtpPacket := none
  wasLost : Bool := false
  deriving DecidableEq, Repr

/-- The part after priming. -/
def playout (jb : JitterBuffer) : Slot × JitterBuffer :=
  if jb.buf.isEmpty then ({}, jb) -- underrun
  else
    match jb.buf[jb.playoutExt]? with
    | some p =>
      ({ packet := some p },
        { jb with buf := jb.buf.erase jb.playoutExt, playoutExt := jb.playoutExt + 1 })
    | none =>
      ({ wasLost := true },
        { jb with
          playoutExt := jb.playoutExt + 1
          stats_.lost := jb.stats_.lost + 1 })

def pop (jb : JitterBuffer) : Slot × JitterBuffer :=
  if !jb.started then ({}, jb)
  else if !jb.primed then
    if jb.buf.size < jb.cfg.targetDepth then ({}, jb) else { jb with primed := true }.playout
  else jb.playout

def reset (jb : JitterBuffer) : JitterBuffer := { cfg := jb.cfg }

/-! ## runs -/

/-- A fresh buffer. -/
def fresh (cfg : Config) : JitterBuffer := { cfg }

inductive Op where
  | insert (pkt : RtpPacket)
  | pop
  deriving DecidableEq, Repr

def step (jb : JitterBuffer) : Op → JitterBuffer
  | .insert pkt => jb.insert pkt
  | .pop => jb.pop.2

@[simp] theorem step_insert (jb : JitterBuffer) (pkt : RtpPacket) :
    jb.step (.insert pkt) = jb.insert pkt := rfl

@[simp] theorem step_pop (jb : JitterBuffer) : jb.step .pop = jb.pop.2 := rfl

/-- The packet an insert accepts, with its extended number: `received` counts it. -/
def accepted (jb : JitterBuffer) : Op → List (Int × RtpPacket)
  | .insert pkt =>
    if (jb.insert pkt).stats_.received = jb.stats_.received then [] else [(jb.slotOf pkt, pkt)]
  | .pop => []

/-- The packet a pop returns, with its extended number: the playout cursor is on it. -/
def returned (jb : JitterBuffer) : Op → List (Int × RtpPacket)
  | .insert _ => []
  | .pop => (jb.pop.1.packet.map fun p => (jb.playoutExt, p)).toList

/-! ## the representation invariant -/

/-- The cursors and the keys: nothing is queued before the first packet; the
keys lie between the cursors, agree with their packets, and reach up to the
highest number as long as the playout cursor has not passed it. -/
structure Core (jb : JitterBuffer) : Prop where
  idle : jb.started = false →
    jb.buf.size = 0 ∧ jb.highestExt = 0 ∧ jb.playoutExt = 0 ∧ jb.primed = false
  playout_le : jb.started = true → jb.playoutExt ≤ jb.highestExt + 1
  playout_le_key : ∀ k ∈ jb.buf, jb.playoutExt ≤ k
  key_le_highest : ∀ k ∈ jb.buf, k ≤ jb.highestExt
  key_seq : ∀ (k : Int) (p : RtpPacket), jb.buf[k]? = some p → k % 65536 = p.sequence.toNat
  highest_mem : jb.started = true → jb.playoutExt ≤ jb.highestExt → jb.highestExt ∈ jb.buf

/-- The invariant between operations: the map also respects the capacity. -/
structure Inv (jb : JitterBuffer) : Prop extends Core jb where
  size_le : jb.buf.size ≤ jb.cfg.capacity

theorem inv_fresh (cfg : Config) : (fresh cfg).Inv where
  idle _ := ⟨rfl, rfl, rfl, rfl⟩
  playout_le h := absurd h Bool.false_ne_true
  playout_le_key k hk := absurd hk TreeMap.not_mem_emptyc
  key_le_highest k hk := absurd hk TreeMap.not_mem_emptyc
  key_seq k p hk := by simp [fresh] at hk
  highest_mem h := absurd h Bool.false_ne_true
  size_le := Nat.zero_le _

theorem not_mem_of_size_eq_zero {jb : JitterBuffer} (h : jb.buf.size = 0) (k : Int) :
    k ∉ jb.buf := by
  intro hk
  have hsize := OrderedMap.size_erase hk
  omega

theorem mem_of_getElem? {jb : JitterBuffer} {k : Int} {p : RtpPacket}
    (h : jb.buf[k]? = some p) : k ∈ jb.buf := by
  rw [TreeMap.mem_iff_isSome_getElem?, h]
  rfl

theorem exists_mem_of_size_ne_zero {jb : JitterBuffer} (h : jb.buf.size ≠ 0) : ∃ k, k ∈ jb.buf := by
  cases hmin : jb.buf.minKey? with
  | some k => exact ⟨k, (OrderedMap.minKey?_eq_some.mp hmin).1⟩
  | none =>
      rw [TreeMap.minKey?_eq_none_iff, TreeMap.isEmpty_eq_size_eq_zero, beq_iff_eq] at hmin
      exact absurd hmin h

/-- While anything is queued the playout cursor has not passed the highest number. -/
theorem Core.playout_le_highest {jb : JitterBuffer} (h : jb.Core) (hsize : jb.buf.size ≠ 0) :
    jb.playoutExt ≤ jb.highestExt := by
  obtain ⟨k, hk⟩ := exists_mem_of_size_ne_zero hsize
  exact (h.playout_le_key k hk).trans (h.key_le_highest k hk)

/-! ## outcomes of insert -/

@[simp] theorem start_buf (jb : JitterBuffer) (pkt : RtpPacket) :
    (jb.start pkt).buf = jb.buf := by
  unfold start; split <;> rfl

@[simp] theorem start_cfg (jb : JitterBuffer) (pkt : RtpPacket) :
    (jb.start pkt).cfg = jb.cfg := by
  unfold start; split <;> rfl

@[simp] theorem start_stats (jb : JitterBuffer) (pkt : RtpPacket) :
    (jb.start pkt).stats_ = jb.stats_ := by
  unfold start; split <;> rfl

@[simp] theorem start_started (jb : JitterBuffer) (pkt : RtpPacket) :
    (jb.start pkt).started = true := by
  unfold start; split <;> simp_all

theorem start_of_started {jb : JitterBuffer} (h : jb.started = true) (pkt : RtpPacket) :
    jb.start pkt = jb := if_pos h

/-- On the first packet both cursors are on its number. -/
theorem start_of_idle {jb : JitterBuffer} (h : jb.started = false) (pkt : RtpPacket) :
    (jb.start pkt).playoutExt = jb.slotOf pkt ∧ (jb.start pkt).highestExt = jb.slotOf pkt := by
  simp [start, slotOf, h]

theorem slotOf_emod (jb : JitterBuffer) (pkt : RtpPacket) :
    jb.slotOf pkt % 65536 = pkt.sequence.toNat := by
  unfold slotOf
  split
  · exact (extendSeq_spec _ _).1
  · have hseq := pkt.sequence.toNat_lt
    omega

/-- What an insert can do: discard a late or duplicate packet, queue a new one,
or queue it and drop the oldest. -/
inductive Insertion (jb : JitterBuffer) (pkt : RtpPacket) : JitterBuffer → Prop
  | late (hstarted : jb.started = true)
      (hlate : jb.slotOf pkt < jb.playoutExt ∨ jb.slotOf pkt ∈ jb.buf) :
      Insertion jb pkt jb.discard
  | queued (hge : (jb.start pkt).playoutExt ≤ jb.slotOf pkt) (hnew : jb.slotOf pkt ∉ jb.buf)
      (hroom : jb.buf.size < jb.cfg.capacity) :
      Insertion jb pkt ((jb.start pkt).enqueue (jb.slotOf pkt) pkt)
  | overflow (hge : (jb.start pkt).playoutExt ≤ jb.slotOf pkt) (hnew : jb.slotOf pkt ∉ jb.buf)
      (hfull : jb.buf.size = jb.cfg.capacity) {oldest : Int} {v : RtpPacket}
      (hold : ((jb.start pkt).enqueue (jb.slotOf pkt) pkt).buf[oldest]? = some v)
      (hmin : ∀ k ∈ ((jb.start pkt).enqueue (jb.slotOf pkt) pkt).buf, oldest ≤ k) :
      Insertion jb pkt (((jb.start pkt).enqueue (jb.slotOf pkt) pkt).evict oldest)

theorem enforceCapacity_of_le {jb : JitterBuffer} (h : jb.buf.size ≤ jb.cfg.capacity) :
    jb.enforceCapacity = jb := by
  rw [enforceCapacity, if_neg (by omega)]

/-- One packet too many makes one turn of the overflow loop. -/
theorem enforceCapacity_of_succ {jb : JitterBuffer} (h : jb.buf.size = jb.cfg.capacity + 1) :
    ∃ oldest v, jb.buf[oldest]? = some v ∧ (∀ k ∈ jb.buf, oldest ≤ k) ∧
      jb.enforceCapacity = jb.evict oldest := by
  rw [enforceCapacity, if_pos (by omega)]
  split
  · next oldest hoption =>
      obtain ⟨hmem, hmin⟩ := OrderedMap.minKey?_eq_some.mp hoption
      obtain ⟨v, hv⟩ := Option.isSome_iff_exists.mp (TreeMap.mem_iff_isSome_getElem?.mp hmem)
      refine ⟨oldest, v, hv, hmin, enforceCapacity_of_le ?_⟩
      have hsize := OrderedMap.size_erase hmem
      simp only [evict]
      omega
  · next hoption =>
      rw [TreeMap.minKey?_eq_none_iff, TreeMap.isEmpty_eq_size_eq_zero, beq_iff_eq] at hoption
      omega

/-- `insert` does one of the three. -/
theorem insert_cases {jb : JitterBuffer} (h : jb.Inv) (pkt : RtpPacket) :
    Insertion jb pkt (jb.insert pkt) := by
  have hstarted : jb.slotOf pkt < (jb.start pkt).playoutExt ∨ jb.slotOf pkt ∈ jb.buf →
      jb.started = true := by
    intro hlate
    by_contra hidle
    rw [Bool.not_eq_true] at hidle
    rw [(start_of_idle hidle pkt).1] at hlate
    exact hlate.elim (lt_irrefl _) (not_mem_of_size_eq_zero (h.idle hidle).1 _)
  simp only [insert, start_buf, TreeMap.contains_iff_mem]
  split
  · next hlt =>
      have hs := hstarted (.inl hlt)
      rw [start_of_started hs] at hlt ⊢
      exact .late hs (.inl hlt)
  · next hge =>
      split
      · next hmem =>
          have hs := hstarted (.inr hmem)
          rw [start_of_started hs]
          exact .late hs (.inr hmem)
      · next hnew =>
          have hsize : ((jb.start pkt).enqueue (jb.slotOf pkt) pkt).buf.size = jb.buf.size + 1 := by
            simp only [enqueue, start_buf]
            exact OrderedMap.size_insertIfNew hnew
          have hcap : ((jb.start pkt).enqueue (jb.slotOf pkt) pkt).cfg = jb.cfg := start_cfg jb pkt
          have hbound := h.size_le
          by_cases hroom : jb.buf.size < jb.cfg.capacity
          · rw [enforceCapacity_of_le (by rw [hsize, hcap]; omega)]
            exact .queued (not_lt.mp hge) hnew hroom
          · have hfull : jb.buf.size = jb.cfg.capacity := by omega
            obtain ⟨oldest, v, hold, hmin, heq⟩ :=
              enforceCapacity_of_succ (hsize.trans (by rw [hcap, hfull]))
            rw [heq]
            exact .overflow (not_lt.mp hge) hnew hfull hold hmin

/-! ## outcomes of pop -/

/-- What a pop can do: wait, hand out the packet at the cursor, or declare its
slot lost. -/
inductive Popping (jb : JitterBuffer) : Slot → JitterBuffer → Prop
  | wait {primed : Bool} (hprimed : jb.started = false → primed = false)
      (hwait : jb.buf.size = 0 ∨ jb.primed = false ∧ jb.buf.size < jb.cfg.targetDepth) :
      Popping jb {} { jb with primed }
  | deliver {p : RtpPacket} (hstarted : jb.started = true) (hp : jb.buf[jb.playoutExt]? = some p) :
      Popping jb { packet := some p }
        { jb with
          primed := true, buf := jb.buf.erase jb.playoutExt, playoutExt := jb.playoutExt + 1 }
  | lose (hstarted : jb.started = true) (hsize : jb.buf.size ≠ 0)
      (hnone : jb.buf[jb.playoutExt]? = none) :
      Popping jb { wasLost := true }
        { jb with
          primed := true
          playoutExt := jb.playoutExt + 1
          stats_.lost := jb.stats_.lost + 1 }

theorem popping_playout {jb : JitterBuffer} (hstarted : jb.started = true) :
    Popping jb ({ jb with primed := true }.playout).1 ({ jb with primed := true }.playout).2 := by
  unfold playout
  simp only [TreeMap.isEmpty_eq_size_eq_zero, beq_iff_eq]
  split
  · next hsize => exact .wait (fun h => absurd (hstarted.symm.trans h) (by decide)) (.inl hsize)
  · next hsize =>
      split
      · next p hp => exact .deliver hstarted hp
      · next hnone => exact .lose hstarted hsize hnone

/-- `pop` does one of the three. -/
theorem pop_cases {jb : JitterBuffer} (h : jb.Inv) : Popping jb jb.pop.1 jb.pop.2 := by
  have hwait (hw : jb.buf.size = 0 ∨ jb.primed = false ∧ jb.buf.size < jb.cfg.targetDepth) :
      Popping jb {} jb := @Popping.wait jb jb.primed (fun hidle => (h.idle hidle).2.2.2) hw
  unfold pop
  by_cases hstarted : jb.started = true
  · rw [if_neg (by simp [hstarted])]
    by_cases hprimed : jb.primed = true
    · have heta : { jb with primed := true } = jb := by rw [← hprimed]
      have hplayout := popping_playout hstarted
      rw [heta] at hplayout
      rw [if_neg (by simp [hprimed])]
      exact hplayout
    · rw [if_pos (by simpa using hprimed)]
      split
      · next hshallow => exact hwait (.inr ⟨by simpa using hprimed, hshallow⟩)
      · exact popping_playout hstarted
  · rw [if_pos (by simpa using hstarted)]
    exact hwait (.inl (h.idle (by simpa using hstarted)).1)

/-! ## operations keep the invariant -/

theorem Core.discard {jb : JitterBuffer} (h : jb.Core) : jb.discard.Core where
  idle := h.idle
  playout_le := h.playout_le
  playout_le_key := h.playout_le_key
  key_le_highest := h.key_le_highest
  key_seq := h.key_seq
  highest_mem := h.highest_mem

/-- Queueing a packet at or above the playout cursor. -/
theorem Core.enqueue {jb : JitterBuffer} (h : jb.Core) {pkt : RtpPacket}
    (hge : (jb.start pkt).playoutExt ≤ jb.slotOf pkt) :
    ((jb.start pkt).enqueue (jb.slotOf pkt) pkt).Core := by
  have hplayout : (jb.start pkt).playoutExt ≤ (jb.start pkt).highestExt + 1 := by
    cases hs : jb.started with
    | true =>
        rw [start_of_started hs]
        exact h.playout_le hs
    | false =>
        have hcursors := start_of_idle hs pkt
        omega
  have hold : ∀ k ∈ jb.buf, (jb.start pkt).playoutExt ≤ k ∧ k ≤ (jb.start pkt).highestExt := by
    intro k hk
    cases hs : jb.started with
    | true =>
        rw [start_of_started hs]
        exact ⟨h.playout_le_key k hk, h.key_le_highest k hk⟩
    | false => exact absurd hk (not_mem_of_size_eq_zero (h.idle hs).1 k)
  have hmem : ∀ k, k ∈ ((jb.start pkt).enqueue (jb.slotOf pkt) pkt).buf ↔
      jb.slotOf pkt = k ∨ k ∈ jb.buf := by
    intro k
    simp [JitterBuffer.enqueue]
  constructor
  case idle =>
    intro hidle
    exact absurd ((start_started jb pkt).symm.trans hidle) (by decide)
  case playout_le =>
    intro _
    simp only [JitterBuffer.enqueue]
    split <;> omega
  case playout_le_key =>
    intro k hk
    rcases (hmem k).mp hk with rfl | hk
    · exact hge
    · exact (hold k hk).1
  case key_le_highest =>
    intro k hk
    simp only [JitterBuffer.enqueue]
    rcases (hmem k).mp hk with rfl | hk
    · split <;> omega
    · have hbound := (hold k hk).2
      split <;> omega
  case key_seq =>
    intro k p hp
    simp only [JitterBuffer.enqueue, start_buf, TreeMap.getElem?_insertIfNew] at hp
    split at hp
    · next hk =>
        cases hp
        rw [← compare_eq_iff_eq.mp hk.1]
        exact slotOf_emod jb pkt
    · exact h.key_seq k p hp
  case highest_mem =>
    intro _ hle
    rw [hmem]
    simp only [JitterBuffer.enqueue] at hle ⊢
    split at hle
    · next hgt => exact .inl (if_pos hgt).symm
    · next hgt =>
        rw [if_neg hgt]
        cases hs : jb.started with
        | true =>
            rw [start_of_started hs] at hle ⊢
            exact .inr (h.highest_mem hs hle)
        | false => exact .inl (start_of_idle hs pkt).2.symm

/-- Dropping the oldest packet. -/
theorem Core.evict {jb : JitterBuffer} (h : jb.Core) {oldest : Int} (hold : oldest ∈ jb.buf)
    (hmin : ∀ k ∈ jb.buf, oldest ≤ k) : (jb.evict oldest).Core := by
  have hstarted : jb.started = true := by
    by_contra hs
    exact not_mem_of_size_eq_zero (h.idle (by simpa using hs)).1 oldest hold
  have hge := h.playout_le_key oldest hold
  have hle := h.key_le_highest oldest hold
  have hcursor : (jb.evict oldest).playoutExt = oldest + 1 := if_pos hge
  have hmem : ∀ k, k ∈ (jb.evict oldest).buf ↔ oldest ≠ k ∧ k ∈ jb.buf := by
    intro k
    simp [JitterBuffer.evict]
  constructor
  case idle => exact fun hs => absurd hstarted (by simp [show jb.started = false from hs])
  case playout_le =>
    intro _
    rw [hcursor]
    exact Int.add_le_add_right hle 1
  case playout_le_key =>
    intro k hk
    have hk := (hmem k).mp hk
    have hlt := lt_of_le_of_ne (hmin k hk.2) hk.1
    rw [hcursor]
    exact hlt
  case key_le_highest => exact fun k hk => h.key_le_highest k ((hmem k).mp hk).2
  case key_seq =>
    intro k p hp
    simp only [JitterBuffer.evict, TreeMap.getElem?_erase] at hp
    split at hp
    · cases hp
    · exact h.key_seq k p hp
  case highest_mem =>
    intro _ hk
    rw [hcursor] at hk
    have hlt : oldest < jb.highestExt := hk
    exact (hmem _).mpr ⟨hlt.ne, h.highest_mem hstarted (hge.trans hle)⟩

/-- Moving the playout cursor on, with the packet at it gone. -/
theorem Core.advance {jb : JitterBuffer} (h : jb.Core) (hstarted : jb.started = true)
    (hle : jb.playoutExt ≤ jb.highestExt) {buf : TreeMap Int RtpPacket}
    (hbuf : ∀ k, buf[k]? = if k = jb.playoutExt then none else jb.buf[k]?) (stats_ : JitterStats) :
    { jb with primed := true, buf, playoutExt := jb.playoutExt + 1, stats_ }.Core := by
  have hmem : ∀ k, k ∈ buf ↔ k ≠ jb.playoutExt ∧ k ∈ jb.buf := by
    intro k
    rw [TreeMap.mem_iff_isSome_getElem?, hbuf, TreeMap.mem_iff_isSome_getElem?]
    split <;> simp [*]
  constructor
  case idle => exact fun hs => absurd (hstarted.symm.trans hs) (by decide)
  case playout_le => exact fun _ => Int.add_le_add_right hle 1
  case playout_le_key =>
    intro k hk
    obtain ⟨hne, hk⟩ := (hmem k).mp hk
    have hge := h.playout_le_key k hk
    show jb.playoutExt + 1 ≤ k
    omega
  case key_le_highest => exact fun k hk => h.key_le_highest k ((hmem k).mp hk).2
  case key_seq =>
    intro k p hp
    rw [hbuf] at hp
    split at hp
    · cases hp
    · exact h.key_seq k p hp
  case highest_mem =>
    intro _ hk
    have hlt : jb.playoutExt < jb.highestExt := hk
    exact (hmem _).mpr ⟨hlt.ne', h.highest_mem hstarted hle⟩

theorem size_enqueue {jb : JitterBuffer} {pkt : RtpPacket} (hnew : jb.slotOf pkt ∉ jb.buf) :
    ((jb.start pkt).enqueue (jb.slotOf pkt) pkt).buf.size = jb.buf.size + 1 := by
  simp only [enqueue, start_buf]
  exact OrderedMap.size_insertIfNew hnew

theorem Insertion.inv {jb jb' : JitterBuffer} {pkt : RtpPacket} (h : jb.Inv)
    (hins : Insertion jb pkt jb') : jb'.Inv := by
  cases hins with
  | late hstarted hlate => exact { h.toCore.discard with size_le := h.size_le }
  | queued hge hnew hroom =>
      refine { h.toCore.enqueue hge with size_le := ?_ }
      rw [size_enqueue hnew]
      exact le_of_le_of_eq hroom (congrArg Config.capacity (start_cfg jb pkt)).symm
  | @overflow hge hnew hfull oldest v hold hmin =>
      have hmem := mem_of_getElem? hold
      refine { (h.toCore.enqueue hge).evict hmem hmin with size_le := ?_ }
      have herase := OrderedMap.size_erase hmem
      rw [size_enqueue hnew, hfull] at herase
      have hcap : (((jb.start pkt).enqueue (jb.slotOf pkt) pkt).evict oldest).cfg = jb.cfg :=
        start_cfg jb pkt
      rw [hcap]
      simp only [evict]
      omega

theorem Popping.inv {jb jb' : JitterBuffer} {slot : Slot} (h : jb.Inv)
    (hpop : Popping jb slot jb') : jb'.Inv := by
  cases hpop with
  | wait hprimed hwait =>
      exact
        { h with
          idle := fun hs => ⟨(h.idle hs).1, (h.idle hs).2.1, (h.idle hs).2.2.1, hprimed hs⟩ }
  | @deliver p hstarted hp =>
      have hmem := mem_of_getElem? hp
      have hle := h.key_le_highest _ hmem
      have hbuf : ∀ k, (jb.buf.erase jb.playoutExt)[k]? =
          if k = jb.playoutExt then none else jb.buf[k]? := fun k => OrderedMap.getElem?_erase
      refine { h.toCore.advance hstarted hle hbuf jb.stats_ with size_le := ?_ }
      have hsize := OrderedMap.size_erase hmem
      have hbound := h.size_le
      show (jb.buf.erase jb.playoutExt).size ≤ jb.cfg.capacity
      omega
  | lose hstarted hsize hnone =>
      have hle := h.playout_le_highest hsize
      have hbuf : ∀ k, jb.buf[k]? = if k = jb.playoutExt then none else jb.buf[k]? := by
        intro k
        split
        · next hk => rw [hk, hnone]
        · rfl
      exact { h.toCore.advance hstarted hle hbuf _ with size_le := h.size_le }

/-- Every operation keeps the representation invariant. -/
theorem step_inv {jb : JitterBuffer} (op : Op) (h : jb.Inv) : (jb.step op).Inv := by
  cases op with
  | insert pkt => exact (insert_cases h pkt).inv h
  | pop => exact (pop_cases h).inv h

theorem Insertion.cfg_eq {jb jb' : JitterBuffer} {pkt : RtpPacket} (h : Insertion jb pkt jb') :
    jb'.cfg = jb.cfg := by
  cases h with
  | late => rfl
  | queued => exact start_cfg jb pkt
  | overflow => exact start_cfg jb pkt

theorem Popping.cfg_eq {jb jb' : JitterBuffer} {slot : Slot} (h : Popping jb slot jb') :
    jb'.cfg = jb.cfg := by
  cases h with
  | wait => rfl
  | deliver => rfl
  | lose => rfl

theorem step_cfg {jb : JitterBuffer} (op : Op) (h : jb.Inv) : (jb.step op).cfg = jb.cfg := by
  cases op with
  | insert pkt => exact (insert_cases h pkt).cfg_eq
  | pop => exact (pop_cases h).cfg_eq

theorem final_inv {jb : JitterBuffer} (h : jb.Inv) (ops : List Op) :
    (Run.final step jb ops).Inv :=
  Run.final_of_preserved Inv (fun _ op h => step_inv op h) h ops

theorem final_cfg {jb : JitterBuffer} (h : jb.Inv) (ops : List Op) :
    (Run.final step jb ops).cfg = jb.cfg :=
  (Run.final_of_preserved (fun jb' : JitterBuffer => jb'.Inv ∧ jb'.cfg = jb.cfg)
    (fun _ op h => ⟨step_inv op h.1, (step_cfg op h.1).trans h.2⟩) ⟨h, rfl⟩ ops).2

end JitterBuffer

end SipDemo
