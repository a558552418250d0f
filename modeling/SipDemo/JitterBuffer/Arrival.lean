import SipDemo.JitterBuffer.Delivery

/-!
# SipDemo.JitterBuffer.Arrival

What the arrival order before playout does to a jitter buffer.  A stretch of
numbered packets shorter than half the sequence space is inserted in some
order, and only then played out.

The first arrival fixes the playout cursor.  Packets at or above it are all
queued, whatever their order; packets below it are discarded as late although
nothing has been played.  So the order is irrelevant exactly among the
arrivals after the first one, and the stretch plays out whole exactly when its
lowest packet arrives first.
-/

namespace SipDemo.JitterBuffer

/-- A packet with its number in the stream. -/
abbrev Numbered := Int × RtpPacket

/-- A stretch of the stream from number `lo` to number `hi`, in sequence order,
perhaps with gaps, and shorter than half the sequence space. -/
structure Stretch (lo hi : Int) (l : List Numbered) : Prop where
  sorted : l.Pairwise fun p q => p.1 < q.1
  sequence : ∀ p ∈ l, p.1 % 65536 = p.2.sequence.toNat
  lowest : lo ∈ l.map Prod.fst ∧ ∀ p ∈ l, lo ≤ p.1
  highest : hi ∈ l.map Prod.fst ∧ ∀ p ∈ l, p.1 ≤ hi
  span : hi - lo < 32768

/-- The numbers from `lo` to `hi`. -/
def numbers (lo hi : Int) : List Int := (List.range (hi + 1 - lo).toNat).map fun i : Nat => lo + i

/-- How many of them are without a packet. -/
def missing (lo hi : Int) (l : List Numbered) : Nat :=
  (numbers lo hi).countP (· ∉ l.map Prod.fst)

def arrive (cfg : Config) (arrivals : List Numbered) : JitterBuffer :=
  Run.final step (fresh cfg) (arrivals.map fun p => .insert p.2)

/-- Inserted in the order `arrivals` and only then popped, at least once for
each slot, the stretch comes out whole and in order, nothing was late, and the
lost slots are the missing ones. -/
def PlaysWhole (cfg : Config) (lo hi : Int) (l arrivals : List Numbered) : Prop :=
  ∀ n : Nat, hi - lo < n →
    let pops := List.replicate n Op.pop
    let jb := Run.final step (arrive cfg arrivals) pops
    (Run.collect step returned (arrive cfg arrivals) pops).map Prod.snd = l.map Prod.snd ∧
      jb.stats.lateDiscarded = 0 ∧ jb.stats.lost = missing lo hi l

/-! ## the stretch -/

theorem Stretch.nodup {lo hi : Int} {l : List Numbered} (h : Stretch lo hi l) :
    (l.map Prod.fst).Nodup :=
  List.pairwise_map.mpr (h.sorted.imp fun hlt heq => absurd (heq ▸ hlt) (lt_irrefl _))

theorem Stretch.near {lo hi : Int} {l : List Numbered} (h : Stretch lo hi l) {p q : Numbered}
    (hp : p ∈ l) (hq : q ∈ l) : p.1 - q.1 < 32768 := by
  have hhi := h.highest.2 p hp
  have hlo := h.lowest.2 q hq
  have hspan := h.span
  omega

theorem Stretch.lo_le_hi {lo hi : Int} {l : List Numbered} (h : Stretch lo hi l) : lo ≤ hi := by
  obtain ⟨p, hp, rfl⟩ := List.mem_map.mp h.lowest.1
  exact h.highest.2 p hp

theorem mem_numbers {lo hi k : Int} : k ∈ numbers lo hi ↔ lo ≤ k ∧ k ≤ hi := by
  rw [numbers, List.mem_map]
  constructor
  · intro ⟨i, hi, heq⟩
    have hlt := List.mem_range.mp hi
    omega
  · intro ⟨hlo, hhi⟩
    exact ⟨(k - lo).toNat, List.mem_range.mpr (by omega), by omega⟩

theorem nodup_numbers (lo hi : Int) : (numbers lo hi).Nodup :=
  List.nodup_range.map fun i j heq => by omega

/-- Of the numbers from `lo` to `hi`, those without a packet are missing. -/
theorem Stretch.missing_add_length {lo hi : Int} {l : List Numbered} (h : Stretch lo hi l) :
    missing lo hi l + l.length = (hi + 1 - lo).toNat := by
  have hpresent : ((numbers lo hi).filter (· ∈ l.map Prod.fst)).Perm (l.map Prod.fst) := by
    rw [List.perm_ext_iff_of_nodup ((nodup_numbers lo hi).filter _) h.nodup]
    intro k
    rw [List.mem_filter, mem_numbers, decide_eq_true_eq]
    refine ⟨fun hk => hk.2, fun hk => ⟨?_, hk⟩⟩
    obtain ⟨p, hp, rfl⟩ := List.mem_map.mp hk
    exact ⟨h.lowest.2 p hp, h.highest.2 p hp⟩
  have hlength := hpresent.length_eq
  have hall := List.length_eq_countP_add_countP (fun k => decide (k ∈ l.map Prod.fst))
    (l := numbers lo hi)
  rw [← List.countP_eq_length_filter, List.length_map] at hlength
  rw [hlength, numbers, List.length_map, List.length_range, ← numbers] at hall
  simp only [missing, hall, decide_eq_true_eq]
  omega

/-! ## arrivals -/

/-- The buffer's number for a packet: the stream's, moved by a multiple of
65536 that the first arrival settles. -/
def shift (d : Int) (p : Numbered) : Int × RtpPacket := (p.1 + d, p.2)

/-- A buffer that has not played yet, after the arrivals `seen`, the first of
them numbered `first`. -/
structure Holding (d first : Int) (seen : List Numbered) (jb : JitterBuffer) : Prop where
  started : jb.started = true
  unprimed : jb.primed = false
  playout : jb.playoutExt = first + d
  highest_mem : jb.highestExt - d ∈ seen.map Prod.fst
  le_highest : ∀ p ∈ seen, p.1 + d ≤ jb.highestExt
  queued : jb.buf.toList.Perm ((seen.filter (first ≤ ·.1)).map (shift d))
  late : jb.stats_.lateDiscarded = seen.countP (·.1 < first)
  lost : jb.stats_.lost = 0

/-- The first arrival settles the numbering. -/
theorem holding_first {cfg : Config} (hcap : 0 < cfg.capacity) {p : Numbered} :
    Holding (p.2.sequence.toNat - p.1) p.1 [p] ((fresh cfg).insert p.2) := by
  have hslot : (fresh cfg).slotOf p.2 = p.2.sequence.toNat := rfl
  have hcursors := start_of_idle (show (fresh cfg).started = false from rfl) p.2
  have hnil : (fresh cfg).buf.toList = [] := rfl
  have hins := insert_cases (inv_fresh cfg) p.2
  generalize (fresh cfg).insert p.2 = jb' at hins ⊢
  cases hins with
  | late hstarted => exact absurd hstarted Bool.false_ne_true
  | overflow _ _ hfull => exact absurd hfull hcap.ne
  | queued hge hnew hroom =>
      constructor
      case started => rfl
      case unprimed => rfl
      case playout => exact hcursors.1.trans (by rw [hslot]; omega)
      case highest_mem => simp [enqueue, hcursors.2, hslot]
      case le_highest => simp [enqueue, hcursors.2, hslot]
      case queued =>
        refine (OrderedMap.toList_insertIfNew (by simpa using hnew)).trans ?_
        simp [hnil, shift, hslot]
      case late => simp [enqueue, fresh]
      case lost => rfl

theorem Holding.size_le {d first : Int} {seen : List Numbered} {jb : JitterBuffer}
    (h : Holding d first seen jb) : jb.buf.size ≤ seen.length := by
  rw [← Std.TreeMap.length_toList, h.queued.length_eq, List.length_map]
  exact List.length_filter_le _ _

/-- What is queued under a number of the stream is an arrival with that number. -/
theorem Holding.mem_of_queued {d first : Int} {seen : List Numbered} {jb : JitterBuffer}
    (h : Holding d first seen jb) {k : Int} (hk : k + d ∈ jb.buf) : k ∈ seen.map Prod.fst := by
  obtain ⟨v, hv⟩ := OrderedMap.exists_mem_toList hk
  obtain ⟨q, hq, heq⟩ := List.mem_map.mp (h.queued.mem_iff.mp hv)
  have hkey : q.1 + d = k + d := congrArg Prod.fst heq
  exact List.mem_map.mpr ⟨q, List.mem_of_mem_filter hq, by omega⟩

/-- Another arrival is queued, or late when it is below the first. -/
theorem Holding.insert {d first : Int} {seen : List Numbered} {jb : JitterBuffer} (hinv : jb.Inv)
    (h : Holding d first seen jb) (hd : d % 65536 = 0) {p : Numbered}
    (hseq : p.1 % 65536 = p.2.sequence.toNat) (hnew : p.1 ∉ seen.map Prod.fst)
    (hnear : ∀ q ∈ seen, p.1 - q.1 < 32768 ∧ q.1 - p.1 < 32768)
    (hroom : seen.length < jb.cfg.capacity) :
    Holding d first (p :: seen) (jb.insert p.2) := by
  have hslot : jb.slotOf p.2 = p.1 + d := by
    obtain ⟨q, hq, hhighest⟩ := List.mem_map.mp h.highest_mem
    have hpq := hnear q hq
    rw [slotOf, if_pos h.started]
    exact extendSeq_eq (by omega) (by omega) (by omega)
  have hmem : p.1 + d ∉ jb.buf := fun hk => hnew (h.mem_of_queued hk)
  have hstart : jb.start p.2 = jb := start_of_started h.started p.2
  have hsize := h.size_le
  have hplayout := h.playout
  have hins := insert_cases hinv p.2
  generalize jb.insert p.2 = jb' at hins ⊢
  cases hins with
  | overflow _ _ hfull => omega
  | late hstarted hlate =>
      rw [hslot] at hlate
      have hlow : p.1 < first := by
        have hlt := hlate.resolve_right hmem
        omega
      constructor
      case started => exact h.started
      case unprimed => exact h.unprimed
      case playout => exact h.playout
      case highest_mem => exact List.mem_cons_of_mem _ h.highest_mem
      case le_highest =>
        intro q hq
        cases List.mem_cons.mp hq with
        | inr hq => exact h.le_highest q hq
        | inl heq =>
            have hcursor := hinv.playout_le h.started
            show q.1 + d ≤ jb.highestExt
            rw [heq]
            omega
      case queued =>
        rw [List.filter_cons_of_neg (by simpa using hlow)]
        exact h.queued
      case late =>
        rw [List.countP_cons_of_pos (by simpa using hlow), ← h.late]
        rfl
      case lost => exact h.lost
  | queued hge _ _ =>
      rw [hstart, hslot] at hge ⊢
      have hhigh : first ≤ p.1 := by omega
      constructor
      case started => exact h.started
      case unprimed => exact h.unprimed
      case playout => exact h.playout
      case highest_mem =>
        simp only [enqueue, List.map_cons, List.mem_cons]
        split
        · exact .inl (by omega)
        · exact .inr h.highest_mem
      case le_highest =>
        intro q hq
        simp only [enqueue]
        cases List.mem_cons.mp hq with
        | inl heq =>
            rw [heq]
            split <;> omega
        | inr hq =>
            have hle := h.le_highest q hq
            split <;> omega
      case queued =>
        rw [List.filter_cons_of_pos (by simpa using hhigh), List.map_cons]
        exact (OrderedMap.toList_insertIfNew hmem).trans (h.queued.cons _)
      case late =>
        rw [List.countP_cons_of_neg (by simpa using hhigh)]
        exact h.late
      case lost => exact h.lost

/-- All arrivals: the buffer holds those at or above the first one. -/
theorem Holding.run {d first lo hi : Int} {l rest seen : List Numbered} {jb : JitterBuffer}
    (hinv : jb.Inv) (h : Holding d first seen jb) (hd : d % 65536 = 0) (hl : Stretch lo hi l)
    (hcap : l.length ≤ jb.cfg.capacity) (hperm : (rest ++ seen).Perm l) :
    ∃ all, all.Perm l ∧
      Holding d first all (Run.final step jb (rest.map fun p => .insert p.2)) := by
  induction rest generalizing seen jb with
  | nil => exact ⟨seen, hperm, h⟩
  | cons p rest ih =>
      have hp : p ∈ l := hperm.subset List.mem_cons_self
      have hseen : ∀ q ∈ seen, q ∈ l := fun q hq =>
        hperm.subset (List.mem_cons_of_mem p (List.mem_append_right rest hq))
      have hnodup : ((p :: (rest ++ seen)).map Prod.fst).Nodup :=
        (hperm.map Prod.fst).nodup_iff.mpr hl.nodup
      have hnew : p.1 ∉ seen.map Prod.fst := by
        rw [List.map_cons, List.nodup_cons, List.map_append, List.mem_append] at hnodup
        exact fun hmem => hnodup.1 (.inr hmem)
      have hroom : seen.length < jb.cfg.capacity := by
        have hlength := hperm.length_eq
        rw [List.cons_append, List.length_cons, List.length_append] at hlength
        omega
      have hnext := h.insert hinv hd (hl.sequence p hp) hnew
        (fun q hq => ⟨hl.near hp (hseen q hq), hl.near (hseen q hq) hp⟩) hroom
      rw [List.map_cons, Run.final_cons]
      refine ih (step_inv (.insert p.2) hinv) hnext ?_ (List.perm_middle.trans hperm)
      rw [step_cfg (.insert p.2) hinv]
      exact hcap

/-- Whatever the order, after the arrivals the buffer holds the packets at or
above the first one, and has counted those below it as late. -/
theorem holding_arrive {cfg : Config} {lo hi : Int} {l rest : List Numbered} {p : Numbered}
    (hl : Stretch lo hi l) (hcap : l.length ≤ cfg.capacity) (hperm : (p :: rest).Perm l) :
    ∃ d all, all.Perm l ∧ Holding d p.1 all (arrive cfg (p :: rest)) := by
  have hseq := hl.sequence p (hperm.subset List.mem_cons_self)
  have hpos : 0 < cfg.capacity := by
    have hlength := hperm.length_eq
    rw [List.length_cons] at hlength
    omega
  have hfirst : Holding (p.2.sequence.toNat - p.1) p.1 [p] ((fresh cfg).insert p.2) :=
    holding_first hpos
  have hrest : (rest ++ [p]).Perm l := List.perm_append_comm.trans hperm
  obtain ⟨all, hall, hholding⟩ := hfirst.run (step_inv (.insert p.2) (inv_fresh cfg)) (by omega) hl
    (by rw [step_cfg (.insert p.2) (inv_fresh cfg)]; exact hcap) hrest
  exact ⟨_, all, hall, hholding⟩

/-! ## playing out -/

theorem Popping.late_eq {jb jb' : JitterBuffer} {slot : Slot} (h : Popping jb slot jb') :
    jb'.stats_.lateDiscarded = jb.stats_.lateDiscarded := by
  cases h with
  | wait => rfl
  | deliver => rfl
  | lose => rfl

/-- Pops count nothing as late. -/
theorem late_of_pops {jb : JitterBuffer} (h : jb.Inv) (n : Nat) :
    (Run.final step jb (List.replicate n .pop)).stats_.lateDiscarded =
      jb.stats_.lateDiscarded := by
  induction n generalizing jb with
  | zero => rfl
  | succ n ih =>
      exact (ih (step_inv .pop h)).trans (pop_cases h).late_eq

theorem arrive_inv (cfg : Config) (arrivals : List Numbered) : (arrive cfg arrivals).Inv :=
  final_inv (inv_fresh cfg) _

theorem arrive_cfg (cfg : Config) (arrivals : List Numbered) : (arrive cfg arrivals).cfg = cfg :=
  final_cfg (inv_fresh cfg) _

/-- With the lowest packet first, the buffer holds the whole stretch, in order. -/
theorem Holding.toList_eq {d lo hi : Int} {l all : List Numbered} {jb : JitterBuffer}
    (hl : Stretch lo hi l) (hall : all.Perm l) (h : Holding d lo all jb) :
    jb.buf.toList = l.map (shift d) := by
  have hfilter : all.filter (lo ≤ ·.1) = all := by
    rw [List.filter_eq_self]
    intro p hp
    simpa using hl.lowest.2 p (hall.subset hp)
  have hperm : jb.buf.toList.Perm (l.map (shift d)) := by
    have hqueued := h.queued
    rw [hfilter] at hqueued
    exact hqueued.trans (hall.map _)
  have hsorted : (l.map (shift d)).Pairwise fun p q => p.1 < q.1 :=
    List.pairwise_map.mpr (hl.sorted.imp fun hlt => Int.add_lt_add_right hlt d)
  exact hperm.eq_of_pairwise (fun p q _ _ hpq hqp => absurd (hpq.trans hqp) (lt_irrefl _))
    OrderedMap.sorted_toList hsorted

/-- With the lowest packet first, the highest number seen is the stretch's. -/
theorem Holding.highest_eq {d lo hi : Int} {l all : List Numbered} {jb : JitterBuffer}
    (hl : Stretch lo hi l) (hall : all.Perm l) (h : Holding d lo all jb) :
    jb.highestExt = hi + d := by
  obtain ⟨p, hp, hhighest⟩ := List.mem_map.mp h.highest_mem
  obtain ⟨q, hq, rfl⟩ := List.mem_map.mp hl.highest.1
  have hle := hl.highest.2 p (hall.subset hp)
  have hge := h.le_highest q (hall.symm.subset hq)
  omega

/-- A buffer that holds the whole stretch plays it out whole. -/
theorem Holding.playsWhole {cfg : Config} {d lo hi : Int} {l all arrivals : List Numbered}
    (hl : Stretch lo hi l) (hdepth : max 1 cfg.targetDepth ≤ l.length) (hall : all.Perm l)
    (h : Holding d lo all (arrive cfg arrivals)) : PlaysWhole cfg lo hi l arrivals := by
  intro n hn
  have htoList := h.toList_eq hl hall
  have hsize : (arrive cfg arrivals).buf.size = l.length := by
    rw [← Std.TreeMap.length_toList, htoList, List.length_map]
  have hcount := hl.missing_add_length
  have hle := hl.lo_le_hi
  -- one pop for each slot drains the buffer; the remaining ones find it empty
  obtain ⟨extra, rfl⟩ := Nat.exists_eq_add_of_le (show (hi + 1 - lo).toNat ≤ n by omega)
  have hdrained := drained (arrive_inv cfg arrivals) h.started
    (.inr (by rw [arrive_cfg, hsize]; omega)) (n := (hi + 1 - lo).toNat)
    (by rw [h.playout, h.highest_eq hl hall]; omega)
  obtain ⟨hnone, hsame⟩ :=
    drained_beyond (final_inv (arrive_inv cfg arrivals) _) hdrained.empty extra
  simp only [List.replicate_add, Run.collect_append, Run.final_append, hnone, List.append_nil,
    hdrained.returned_eq, htoList, List.map_map]
  refine ⟨rfl, ?_, ?_⟩
  · show (Run.final step _ _).stats_.lateDiscarded = 0
    rw [hsame, hdrained.late, h.late, List.countP_eq_zero]
    intro p hp
    simpa using hl.lowest.2 p (hall.subset hp)
  · show (Run.final step _ _).stats_.lost = missing lo hi l
    have hlost := hdrained.lost
    rw [hsame]
    rw [hsize, h.lost] at hlost
    omega

/-- **Arrival order**: a stretch that fits the buffer plays out whole exactly
when its lowest packet arrives first. -/
theorem playsWhole_iff {cfg : Config} {lo hi : Int} {l arrivals : List Numbered}
    (hl : Stretch lo hi l) (hdepth : max 1 cfg.targetDepth ≤ l.length)
    (hcap : l.length ≤ cfg.capacity) (hperm : arrivals.Perm l) :
    PlaysWhole cfg lo hi l arrivals ↔ arrivals.head?.map Prod.fst = some lo := by
  cases arrivals with
  | nil =>
      have hlength := hperm.length_eq
      rw [List.length_nil] at hlength
      omega
  | cons p rest =>
      obtain ⟨d, all, hall, hholding⟩ := holding_arrive hl hcap hperm
      have hp : p ∈ l := hperm.subset List.mem_cons_self
      rw [List.head?_cons, Option.map_some, Option.some_inj]
      constructor
      · intro hwhole
        obtain ⟨_, hlate, _⟩ := hwhole (hi + 1 - lo).toNat (by omega)
        have hzero : (arrive cfg (p :: rest)).stats_.lateDiscarded = 0 :=
          (late_of_pops (arrive_inv cfg _) _).symm.trans hlate
        rw [hholding.late, List.countP_eq_zero] at hzero
        obtain ⟨q, hq, rfl⟩ := List.mem_map.mp hl.lowest.1
        have hnotlow := hzero q (hall.symm.subset hq)
        have hge := hl.lowest.2 p hp
        simp only [decide_eq_true_eq] at hnotlow
        omega
      · intro hlowest
        rw [hlowest] at hholding
        exact hholding.playsWhole hl hdepth hall

/-- Packet 65535 of a stream, followed by two after the wrap. -/
def sampleStretch : List Numbered :=
  [(65535, { sequence := 65535 }), (65536, { sequence := 0 }), (65538, { sequence := 2 })]

theorem sampleStretch_ok : Stretch 65535 65538 sampleStretch :=
  ⟨by decide, by decide, by decide, by decide, by decide⟩

/-- The later packets swapped: the stretch plays out whole. -/
theorem playsWhole_sample :
    PlaysWhole {} 65535 65538 sampleStretch
      [(65535, { sequence := 65535 }), (65538, { sequence := 2 }), (65536, { sequence := 0 })] :=
  (playsWhole_iff sampleStretch_ok (by decide) (by decide) (by decide)).mpr rfl

/-- The first two packets swapped: nothing has been played when 65535 arrives,
and it is discarded as late. -/
theorem lowest_second_is_late :
    ¬ ∀ (cfg : Config) (lo hi : Int) (l arrivals : List Numbered), Stretch lo hi l →
      max 1 cfg.targetDepth ≤ l.length → l.length ≤ cfg.capacity → arrivals.Perm l →
      PlaysWhole cfg lo hi l arrivals := by
  intro h
  have hwhole := h {} 65535 65538 sampleStretch
    [(65536, { sequence := 0 }), (65535, { sequence := 65535 }), (65538, { sequence := 2 })]
    sampleStretch_ok (by decide) (by decide) (by decide)
  exact absurd (hwhole 4 (by decide)).2.1 (by decide +kernel)

end SipDemo.JitterBuffer
