import SipDemo.MediaSession.Reception

/-!
# SipDemo.MediaSession.TelephoneEvents

What telephone events do to the loss counters.  They share the sequence numbers
of the voice packets but are handled out of band: neither the statistics nor
the jitter buffer sees them.  As long as no voice packet follows an event, both
see consecutive numbers, and nothing is lost; the first voice packet after an
event makes the events before it look like lost packets (`no_phantom_loss`).
-/

namespace SipDemo

open Std (TreeMap)

namespace JitterBuffer

/-! ## buffers without gaps -/

/-- Every number between the cursors is queued. -/
def GapFree (jb : JitterBuffer) : Prop :=
  jb.started = true → ∀ k, jb.playoutExt ≤ k → k ≤ jb.highestExt → k ∈ jb.buf

/-- The next number in sequence makes no gap, even when it overfills the
buffer. -/
theorem Insertion.gapFree {jb jb' : JitterBuffer} {pkt : RtpPacket} (h : jb.Inv)
    (hfree : jb.GapFree) (hnext : jb.started = true → jb.slotOf pkt = jb.highestExt + 1)
    (hins : Insertion jb pkt jb') : jb'.GapFree := by
  have hqueued : ((jb.start pkt).enqueue (jb.slotOf pkt) pkt).GapFree := by
    intro _ k hlo hhi
    simp only [enqueue, start_buf, TreeMap.mem_insertIfNew, Int.compare_eq_eq] at hlo hhi ⊢
    by_cases hs : jb.started = true
    · have heq := hnext hs
      rw [start_of_started hs] at hlo hhi
      rw [if_pos (by omega)] at hhi
      by_cases hk : k = jb.slotOf pkt
      · exact .inl hk.symm
      · exact .inr (hfree hs k hlo (by omega))
    · obtain ⟨hplayout, hhighest⟩ := start_of_idle (by simpa using hs) pkt
      rw [hhighest, if_neg (by omega)] at hhi
      exact .inl (by omega)
  cases hins with
  | late hs hlate =>
      have heq := hnext hs
      have hle := h.playout_le hs
      refine absurd hlate (not_or.mpr ⟨by omega, fun hmem => ?_⟩)
      have hkey := h.key_le_highest _ hmem
      omega
  | queued => exact hqueued
  | @overflow hge hnew hfull oldest v hold hmin =>
      intro _ k hlo hhi
      have hcursor := (h.toCore.enqueue hge).playout_le_key oldest (mem_of_getElem? hold)
      have hmoved : oldest + 1 ≤ k := le_of_eq_of_le (if_pos hcursor).symm hlo
      have hmem := hqueued (start_started jb pkt) k (by omega) hhi
      simp only [evict, TreeMap.mem_erase, ne_eq, Int.compare_eq_eq]
      exact ⟨by omega, hmem⟩

/-- A pop of a buffer without gaps loses nothing. -/
theorem Popping.gapFree {jb jb' : JitterBuffer} {slot : Slot} (h : jb.Inv) (hfree : jb.GapFree)
    (hpop : Popping jb slot jb') : slot.wasLost = false ∧ jb'.GapFree := by
  cases hpop with
  | wait => exact ⟨rfl, hfree⟩
  | deliver hs hp =>
      refine ⟨rfl, fun _ k hlo hhi => ?_⟩
      have hlt : jb.playoutExt < k := hlo
      simp only [TreeMap.mem_erase, ne_eq, Int.compare_eq_eq]
      exact ⟨hlt.ne, hfree hs k hlt.le hhi⟩
  | lose hs hsize hnone =>
      have hmem := hfree hs _ le_rfl (h.playout_le_highest hsize)
      rw [TreeMap.mem_iff_isSome_getElem?, hnone] at hmem
      exact absurd hmem (by decide)

/-- Nor does any number of them. -/
theorem GapFree.pops {jb : JitterBuffer} (hfree : jb.GapFree) (h : jb.Inv) (n : Nat) :
    ∀ p ∈ Run.collect step slots jb (List.replicate n .pop), p.2.wasLost = false := by
  induction n generalizing jb with
  | zero => exact fun p hp => absurd hp List.not_mem_nil
  | succ n ih =>
      obtain ⟨hkept, hrest⟩ := (pop_cases h).gapFree h hfree
      intro p hp
      rw [List.replicate_succ, Run.collect_cons, slots, List.singleton_append,
        List.mem_cons] at hp
      cases hp with
      | inl hp => rw [hp]; exact hkept
      | inr hp => exact ih hrest (step_inv .pop h) p hp

end JitterBuffer

namespace Reception

/-! ## positions -/

theorem largest_congr {i j : Nat → Int} {n : Nat} (h : ∀ k < n, i k = j k) :
    largest i n = largest j n := by
  rw [largest, largest, List.map_congr_left fun k hk => h k (List.mem_range.mp hk)]

theorem largest_consecutive (n : Nat) : largest (fun k => (k : Int)) (n + 1) = n := by
  induction n with
  | zero => rfl
  | succ n ih =>
      rw [largest_succ, ih]
      omega

/-- What `lost` returns is the excess of the largest position over the count. -/
theorem Tracks.lost_eq {s₀ : UInt16} {i : Nat → Int} {n : Nat} {r : Reception}
    (h : Tracks s₀ i n r) (hpos : 0 < n) (hlarge : 0 ≤ largest i n) :
    r.stats.lost = max (largest i n + 1 - n) 0 := by
  rw [RtpStats.lost, RtpStats.expected, h.stats_started, if_pos (decide_eq_true hpos), h.count,
    h.highest hpos, h.base hpos]
  split <;> omega

/-- Consecutive packets, with pops in between, leave no gap. -/
theorem gapFree_run {s₀ : UInt16} {cfg : JitterBuffer.Config} {clockRate : Nat}
    {events : List Event} (hs : IsStream s₀ (fun k => (k : Int)) (arrivals events)) :
    (Run.final step (fresh cfg clockRate) events).jitter.GapFree := by
  induction events using List.reverseRecOn with
  | nil => exact fun h => absurd h Bool.false_ne_true
  | append_singleton events e ih =>
      have happ : arrivals (events ++ [e]) = arrivals events ++ arrivals [e] :=
        List.filterMap_append
      rw [happ] at hs
      have hpre := hs.initial (List.prefix_append _ _)
      obtain ⟨htracks, _⟩ := @tracks_run s₀ _ cfg clockRate events hpre
      have hfree := ih hpre
      rw [Run.final_append]
      cases e with
      | pop => exact ((JitterBuffer.pop_cases htracks.inv).gapFree htracks.inv hfree).2
      | arrive pkt nowSec =>
          refine (JitterBuffer.insert_cases htracks.inv pkt).gapFree htracks.inv hfree ?_
          intro hstarted
          rw [htracks.started, decide_eq_true_eq] at hstarted
          obtain ⟨n, hn⟩ := Nat.exists_eq_succ_of_ne_zero hstarted.ne'
          rw [htracks.slot_eq hs, htracks.agree, htracks.highest hstarted, hn,
            largest_consecutive]
          omega

end Reception

namespace MediaSession

/-! ## the receive loop on a mixed stream -/

/-- The session after `recvLoop` has processed the datagrams, each with its
arrival time. -/
def receive (s : MediaSession) (dgs : List (Datagram × ℚ)) : MediaSession :=
  Run.final step s (dgs.map fun d => .recv d.1 d.2)

/-- The datagrams are RTP packets with consecutive sequence numbers from `s₀`. -/
structure Consecutive (s₀ : UInt16) (dgs : List (Datagram × ℚ)) (pkts : List RtpPacket) :
    Prop where
  parsed : dgs.map (fun d => RtpPacket.parseBuf d.1.data) = pkts.map some
  sequence : ∀ k, (hk : k < pkts.length) → pkts[k].sequence = s₀ + UInt16.ofNat k

/-- Nothing is reported lost: not by the statistics, and not by any number of
jitter buffer pops from here on. -/
structure NothingLost (s : MediaSession) : Prop where
  stats : s.rtpStats.lost = 0
  pops : ∀ n, ∀ p ∈ Run.collect JitterBuffer.step JitterBuffer.slots s.jitter
    (List.replicate n .pop), p.2.wasLost = false

theorem Consecutive.take {s₀ : UInt16} {dgs : List (Datagram × ℚ)} {pkts : List RtpPacket}
    (h : Consecutive s₀ dgs pkts) (n : Nat) : Consecutive s₀ (dgs.take n) (pkts.take n) where
  parsed := by rw [List.map_take, h.parsed, List.map_take]
  sequence k hk := by
    rw [List.getElem_take]
    exact h.sequence k (hk.trans_le (List.take_prefix n pkts).length_le)

@[simp] theorem isDtmf_step_recv (s : MediaSession) (dg : Datagram) (nowSec : ℚ) (pkt : RtpPacket) :
    (s.step (.recv dg nowSec)).isDtmf pkt = s.isDtmf pkt := by
  have hframe := (s.recv_frame dg nowSec).2.2.1
  rw [isDtmf, isDtmf]
  simp [step, act, hframe]

/-- What the two components see of the datagrams: the voice packets. -/
theorem arrivals_receive {s : MediaSession} {dgs : List (Datagram × ℚ)} {pkts : List RtpPacket}
    (hparsed : dgs.map (fun d => RtpPacket.parseBuf d.1.data) = pkts.map some) :
    Reception.arrivals (Run.collect step receptionEvents s (dgs.map fun d => .recv d.1 d.2)) =
      pkts.filter fun p => !s.isDtmf p := by
  induction dgs generalizing s pkts with
  | nil =>
      cases pkts with
      | nil => rfl
      | cons => cases hparsed
  | cons d dgs ih =>
      cases pkts with
      | nil => cases hparsed
      | cons pkt pkts =>
          rw [List.map_cons, List.map_cons, List.cons.injEq] at hparsed
          obtain ⟨hhead, htail⟩ := hparsed
          have hrest := @ih (s.step (.recv d.1 d.2)) pkts htail
          simp only [isDtmf_step_recv] at hrest
          rw [List.map_cons, Run.collect_cons, Reception.arrivals, List.filterMap_append,
            ← Reception.arrivals, ← Reception.arrivals, hrest, List.filter_cons]
          cases hdtmf : s.isDtmf pkt with
          | true => simp [receptionEvents, hhead, hdtmf, Reception.arrivals]
          | false => simp [receptionEvents, hhead, hdtmf, Reception.arrivals]

theorem reception_receive (s : MediaSession) (dgs : List (Datagram × ℚ)) :
    (s.receive dgs).reception = Run.final Reception.step s.reception
      (Run.collect step receptionEvents s (dgs.map fun d => .recv d.1 d.2)) :=
  Run.final_proj reception reception_step s _

theorem Consecutive.toNat_sequence {s₀ : UInt16} {dgs : List (Datagram × ℚ)}
    {pkts : List RtpPacket} (h : Consecutive s₀ dgs pkts) (k : Nat) (hk : k < pkts.length) :
    (pkts[k].sequence.toNat : Int) = (s₀.toNat + (k : Int)) % 65536 := by
  rw [h.sequence k hk, UInt16.toNat_add, UInt16.toNat_ofNat']
  omega

section

variable {s : MediaSession} {cfg : JitterBuffer.Config} {clockRate : Nat} {s₀ : UInt16}
  {dgs : List (Datagram × ℚ)} {pkts : List RtpPacket}

/-- A session with fresh components keeps track of the voice packets. -/
theorem tracks_receive (hfresh : s.reception = .fresh cfg clockRate) {i : Nat → Int}
    (h : Consecutive s₀ dgs pkts)
    (hstream : Reception.IsStream s₀ i (pkts.filter fun p => !s.isDtmf p)) :
    Reception.Tracks s₀ i (pkts.filter fun p => !s.isDtmf p).length (s.receive dgs).reception := by
  rw [← arrivals_receive h.parsed] at hstream ⊢
  rw [reception_receive, hfresh]
  exact (Reception.tracks_run hstream).1

/-- When the voice packets are the first packets, nothing is lost. -/
theorem nothingLost_of_voice_first (hfresh : s.reception = .fresh cfg clockRate)
    (h : Consecutive s₀ dgs pkts) (hvoices : pkts.filter (fun p => !s.isDtmf p) <+: pkts) :
    NothingLost (s.receive dgs) := by
  have hstream : Reception.IsStream s₀ (fun k => (k : Int)) (pkts.filter fun p => !s.isDtmf p) := by
    constructor
    case first => rfl
    case near =>
      intro k _ hpos
      obtain ⟨n, rfl⟩ := Nat.exists_eq_succ_of_ne_zero hpos.ne'
      rw [Reception.largest_consecutive]
      omega
    case sequence =>
      intro k hk
      rw [hvoices.getElem hk]
      exact h.toNat_sequence k (hk.trans_le hvoices.length_le)
  have htracks := tracks_receive hfresh h hstream
  constructor
  case stats =>
    show (s.receive dgs).reception.stats.lost = 0
    cases hn : (pkts.filter fun p => !s.isDtmf p).length with
    | zero =>
        rw [hn] at htracks
        rw [RtpStats.lost, RtpStats.expected, htracks.stats_started, htracks.count]
        rfl
    | succ n =>
        rw [hn] at htracks
        rw [htracks.lost_eq n.succ_pos (by rw [Reception.largest_consecutive]; omega),
          Reception.largest_consecutive]
        omega
  case pops =>
    intro n
    rw [← arrivals_receive h.parsed] at hstream
    have hfree := @Reception.gapFree_run s₀ cfg clockRate _ hstream
    rw [← hfresh, ← reception_receive] at hfree
    exact hfree.pops htracks.inv n

/-- The first voice packet after fewer than 32767 telephone events makes them
count as lost. -/
theorem lost_of_voice_after_events (hfresh : s.reception = .fresh cfg clockRate)
    {voices events : List RtpPacket} {v : RtpPacket}
    (h : Consecutive s₀ dgs (voices ++ events ++ [v]))
    (hvoices : ∀ p ∈ voices, s.isDtmf p = false) (hne : voices ≠ [])
    (hevents : ∀ p ∈ events, s.isDtmf p = true) (hv : s.isDtmf v = false)
    (hshort : events.length < 32767) : (s.receive dgs).rtpStats.lost = events.length := by
  have hfilter : (voices ++ events ++ [v]).filter (fun p => !s.isDtmf p) = voices ++ [v] := by
    rw [List.filter_append, List.filter_append, List.filter_eq_self.mpr (by simpa using hvoices),
      List.filter_eq_nil_iff.mpr (by simpa using hevents), List.append_nil]
    simp [hv]
  -- voice packet `k` is at position `k`, but for the last one
  let i : Nat → Int := fun k => if k < voices.length then k else voices.length + events.length
  have hpos := List.length_pos_of_ne_nil hne
  have hlast : i voices.length = voices.length + events.length := if_neg (lt_irrefl _)
  have hbefore : ∀ k, 0 < k → k ≤ voices.length → Reception.largest i k = (k : Int) - 1 := by
    intro k hk hle
    obtain ⟨m, rfl⟩ := Nat.exists_eq_succ_of_ne_zero hk.ne'
    have hcongr := @Reception.largest_congr i (fun k => (k : Int)) (m + 1)
      fun k hk => if_pos (by omega)
    rw [hcongr, Reception.largest_consecutive]
    omega
  have hstream : Reception.IsStream s₀ i (voices ++ [v]) := by
    constructor
    case first => exact if_pos hpos
    case near =>
      intro k hk hkpos
      rw [List.length_append, List.length_singleton] at hk
      have hlargest := hbefore k hkpos (by omega)
      rw [hlargest]
      simp only [i]
      split <;> omega
    case sequence =>
      intro k hk
      by_cases hlt : k < voices.length
      · have hseq := h.toNat_sequence k (by simp; omega)
        simp only [List.append_assoc, List.getElem_append_left hlt] at hseq
        rw [List.getElem_append_left hlt, hseq, show i k = k from if_pos hlt]
      · have hk : k = voices.length := by simp at hk; omega
        have hseq := h.toNat_sequence (voices ++ events).length (by simp)
        rw [List.getElem_concat_length rfl, List.length_append] at hseq
        subst hk
        rw [List.getElem_concat_length rfl, hseq, hlast, Nat.cast_add]
  rw [← hfilter] at hstream
  have htracks := tracks_receive hfresh h hstream
  have hlargest : Reception.largest i (voices.length + 1) = voices.length + events.length := by
    rw [Reception.largest_succ, hbefore _ hpos le_rfl, hlast]
    omega
  rw [hfilter, List.length_append, List.length_singleton] at htracks
  have hlost := htracks.lost_eq voices.length.succ_pos (by rw [hlargest]; omega)
  show (s.receive dgs).reception.stats.lost = events.length
  rw [hlost, hlargest]
  omega

end

/-! ## voice packets after telephone events -/

/-- Once the flag is set it stays set, or the list breaks this at some place. -/
theorem pairwise_or_break {α : Type*} (p : α → Bool) (l : List α) :
    l.Pairwise (fun a b => p a = true → p b = true) ∨
      ∃ xs ys z zs, l = xs ++ ys ++ [z] ++ zs ∧ (∀ x ∈ xs, p x = false) ∧
        (∀ y ∈ ys, p y = true) ∧ ys ≠ [] ∧ p z = false := by
  induction l with
  | nil => exact .inl .nil
  | cons a l ih =>
      cases ha : p a with
      | false =>
          obtain hl | ⟨xs, ys, z, zs, rfl, hxs, hrest⟩ := ih
          · exact .inl (.cons (fun b _ hpa => absurd (ha.symm.trans hpa) (by decide)) hl)
          · refine .inr ⟨a :: xs, ys, z, zs, by simp, ?_, hrest⟩
            exact List.forall_mem_cons.mpr ⟨ha, hxs⟩
      | true =>
          have hsplit := List.takeWhile_append_dropWhile (p := p) (l := l)
          have hz := List.head?_dropWhile_not p l
          cases hd : l.dropWhile p with
          | nil =>
              have hall := List.dropWhile_eq_nil_iff.mp hd
              refine .inl (List.pairwise_cons.mpr ⟨fun b hb _ => hall b hb, ?_⟩)
              exact List.pairwise_of_forall_mem_list fun _ _ b hb _ => hall b hb
          | cons z zs =>
              rw [hd] at hsplit hz
              refine .inr ⟨[], a :: l.takeWhile p, z, zs, ?_, ?_, ?_, ?_, hz⟩
              · simp [hsplit]
              · exact fun x hx => absurd hx List.not_mem_nil
              · exact List.forall_mem_cons.mpr ⟨ha, fun y hy => List.mem_takeWhile_imp hy⟩
              · exact List.cons_ne_nil _ _

/-- Flagged elements at the end: the others are a prefix. -/
theorem isInitial_filter_not {α : Type*} {p : α → Bool} {l : List α}
    (h : l.Pairwise fun a b => p a = true → p b = true) : l.filter (fun a => !p a) <+: l := by
  induction l with
  | nil => exact List.prefix_rfl
  | cons a l ih =>
      obtain ⟨hhead, htail⟩ := List.pairwise_cons.mp h
      cases ha : p a with
      | false =>
          rw [List.filter_cons_of_pos (by simp [ha])]
          exact List.cons_prefix_cons.mpr ⟨rfl, ih htail⟩
      | true =>
          have hnone : (a :: l).filter (fun a => !p a) = [] := by
            rw [List.filter_eq_nil_iff, List.forall_mem_cons]
            exact ⟨by simp [ha], fun b hb => by simp [hhead b hb ha]⟩
          rw [hnone]
          exact List.nil_prefix

/-- **Phantom loss**: on a loss-free stream that begins with voice, nothing is
ever reported lost if no voice packet follows a telephone event.  Conversely,
unless 32767 telephone events come in a row, a stream on which nothing is ever
reported lost has no voice packet after a telephone event. -/
theorem no_phantom_loss (remote : Endpoint) (payloadType dtmfPayloadType : Int) (s₀ : UInt16)
    (dgs : List (Datagram × ℚ)) (pkts : List RtpPacket) (h : Consecutive s₀ dgs pkts)
    (hvoice : ∀ p ∈ pkts.head?, (make.start remote payloadType dtmfPayloadType).isDtmf p = false) :
    let s := make.start remote payloadType dtmfPayloadType
    let voiceFirst := pkts.Pairwise fun p q => s.isDtmf p = true → s.isDtmf q = true
    (voiceFirst → ∀ n, NothingLost (s.receive (dgs.take n))) ∧
      ((∀ run, run <:+: pkts → (∀ p ∈ run, s.isDtmf p = true) → run.length < 32767) →
        (∀ n, NothingLost (s.receive (dgs.take n))) → voiceFirst) := by
  intro s voiceFirst
  have hfresh : s.reception = .fresh { targetDepth := 3, capacity := 100 } 8000 := rfl
  constructor
  · intro hfirst n
    exact nothingLost_of_voice_first hfresh (h.take n)
      (isInitial_filter_not (hfirst.sublist (List.take_sublist n pkts)))
  · intro hshort hclean
    obtain hfirst | ⟨voices, events, v, rest, rfl, hvoices, hevents, hne, hv⟩ :=
      pairwise_or_break s.isDtmf pkts
    · exact hfirst
    · exfalso
      have hsome : voices ≠ [] := by
        intro hnil
        subst hnil
        obtain ⟨e, events, rfl⟩ := List.exists_cons_of_ne_nil hne
        have hdtmf := hevents e List.mem_cons_self
        have hnot := hvoice e rfl
        exact absurd (hnot.symm.trans hdtmf) (by decide)
      have hprefix := h.take (voices ++ events ++ [v]).length
      rw [List.take_left] at hprefix
      have hlost := lost_of_voice_after_events hfresh hprefix hvoices hsome hevents hv
        (hshort events ⟨voices, [v] ++ rest, by simp⟩ hevents)
      have hzero := (hclean (voices ++ events ++ [v]).length).stats
      have hpos := List.length_pos_of_ne_nil hne
      rw [hlost] at hzero
      omega

/-- A datagram that carries `pkt`. -/
def datagramOf (pkt : RtpPacket) : Datagram × ℚ := ({ data := pkt.serialize, sender := {} }, 0)

/-- Two voice packets and then a telephone event. -/
def voiceThenEvent : List RtpPacket :=
  [{ payloadType := 0, sequence := 65535 }, { payloadType := 0, sequence := 0 },
    { payloadType := 101, sequence := 1 }]

theorem consecutive_voiceThenEvent :
    Consecutive 65535 (voiceThenEvent.map datagramOf) voiceThenEvent :=
  ⟨by decide +kernel, by decide⟩

theorem no_phantom_loss_sample :
    NothingLost ((make.start {} 0 101).receive (voiceThenEvent.map datagramOf)) :=
  (no_phantom_loss {} 0 101 65535 (voiceThenEvent.map datagramOf) voiceThenEvent
    consecutive_voiceThenEvent (by decide)).1 (by decide) 3

/-- Voice, a telephone event, and voice again: one packet counts as lost. -/
def eventBetween : List RtpPacket :=
  [{ payloadType := 0, sequence := 0 }, { payloadType := 101, sequence := 1 },
    { payloadType := 0, sequence := 2 }]

theorem phantom_loss_eventBetween :
    ¬ ∀ (remote : Endpoint) (payloadType dtmfPayloadType : Int) (s₀ : UInt16)
      (dgs : List (Datagram × ℚ)) (pkts : List RtpPacket), Consecutive s₀ dgs pkts →
      (∀ p ∈ pkts.head?, (make.start remote payloadType dtmfPayloadType).isDtmf p = false) →
      ∀ n, NothingLost ((make.start remote payloadType dtmfPayloadType).receive (dgs.take n)) := by
  intro h
  have hclean := h {} 0 101 0 (eventBetween.map datagramOf) eventBetween
    ⟨by decide +kernel, by decide⟩ (by decide) 3
  exact absurd hclean.stats (by decide +kernel)

end MediaSession

end SipDemo
