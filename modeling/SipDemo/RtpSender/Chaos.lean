import SipDemo.AdjacentSwaps
import SipDemo.RtpSender

/-!
# SipDemo.RtpSender.Chaos

What the send loop and the final flush put on the wire, whatever is drawn.

The packets that are not dropped go out once each, in the order of the packets
but for the swaps that are counted.  `Ledger` is the invariant of the loop: it
splits the survivors so far into those that are out and the one held back.
-/

namespace SipDemo

open AdjacentSwaps (Swaps)

namespace RtpSender

/-- The wire form of packet `p`, numbered from the drawn values. -/
def datagram (src : Source) (seq : UInt16) (timestamp : UInt32) (p : Nat) : Str :=
  (src.packet p (seq + UInt16.ofNat p)
    (timestamp + UInt32.ofNat (p * kSamplesPerPacket))).serialize

/-- The packets among the first `p` that are not dropped. -/
def survivors (draw : Nat → Draw) (p : Nat) : List Nat :=
  (List.range p).filter fun i => !(draw i).drop

theorem survivors_succ (draw : Nat → Draw) (p : Nat) :
    survivors draw (p + 1) = survivors draw p ++ if (draw p).drop then [] else [p] := by
  rw [survivors, List.range_succ, List.filter_append, survivors]
  cases hdrop : (draw p).drop <;> simp [hdrop]

/-- After `p` packets: `settled` are out, in the order `order`, and `held` is
the packet held back. -/
structure Ledger (src : Source) (seq : UInt16) (timestamp : UInt32) (draw : Nat → Draw) (p : Nat)
    (s : Sender) (settled order : List Nat) (held : Option Nat) : Prop where
  seq_eq : s.seq = seq + UInt16.ofNat p
  timestamp_eq : s.timestamp = timestamp + UInt32.ofNat (p * kSamplesPerPacket)
  holding_eq : s.holding = held.isSome
  heldPacket_eq : ∀ h ∈ held, s.heldPacket = datagram src seq timestamp h
  survivors_eq : survivors draw p = settled ++ held.toList
  swaps : Swaps settled order s.reordered
  datagrams_eq : s.datagrams = order.map (datagram src seq timestamp)
  sent_eq : s.sent = s.datagrams.length
  total_eq : s.sent + s.dropped + held.toList.length = p

section Turn

variable {src : Source} {seq : UInt16} {timestamp : UInt32} {throws : Nat → Bool}
  {draw : Nat → Draw} {p : Nat} {s : Sender} {settled order : List Nat} {held : Option Nat}

theorem ledger_zero :
    Ledger src seq timestamp draw 0 { seq, timestamp } [] [] none where
  seq_eq := by simp
  timestamp_eq := by simp
  holding_eq := rfl
  heldPacket_eq h hmem := absurd hmem (by simp)
  survivors_eq := rfl
  swaps := .nil
  datagrams_eq := rfl
  sent_eq := rfl
  total_eq := rfl

theorem sendTo_eq (hsend : ∀ j, throws j = false) (s : Sender) (data : Str) :
    s.sendTo throws data = some { s with datagrams := s.datagrams ++ [data] } := by
  rw [Sender.sendTo, if_neg (by simp [hsend])]

theorem Ledger.next_seq (h : Ledger src seq timestamp draw p s settled order held) :
    s.seq + 1 = seq + UInt16.ofNat (p + 1) := by
  rw [h.seq_eq, UInt16.ofNat_add, UInt16.add_assoc]
  rfl

theorem Ledger.next_timestamp (h : Ledger src seq timestamp draw p s settled order held) :
    s.timestamp + UInt32.ofNat kSamplesPerPacket =
      timestamp + UInt32.ofNat ((p + 1) * kSamplesPerPacket) := by
  rw [h.timestamp_eq, Nat.succ_mul, UInt32.ofNat_add, UInt32.add_assoc]

/-- Packet `p` is dropped. -/
theorem Ledger.drop (h : Ledger src seq timestamp draw p s settled order held)
    (hdrop : (draw p).drop = true) :
    Ledger src seq timestamp draw (p + 1)
      { s with
        seq := s.seq + 1
        timestamp := s.timestamp + UInt32.ofNat kSamplesPerPacket
        dropped := s.dropped + 1 }
      settled order held :=
  { h with
    seq_eq := h.next_seq
    timestamp_eq := h.next_timestamp
    survivors_eq := by rw [survivors_succ, if_pos hdrop, List.append_nil, h.survivors_eq]
    total_eq := by
      have htotal := h.total_eq
      dsimp only
      omega }

/-- Packet `p` goes out, and `q`, held back until now, after it. -/
theorem Ledger.release {q : Nat}
    (h : Ledger src seq timestamp draw p s settled order (some q))
    (hdrop : ¬ (draw p).drop = true) :
    Ledger src seq timestamp draw (p + 1)
      { s with
        seq := s.seq + 1
        timestamp := s.timestamp + UInt32.ofNat kSamplesPerPacket
        datagrams := s.datagrams ++ [datagram src seq timestamp p] ++ [s.heldPacket]
        holding := false
        reordered := s.reordered + 1
        sent := s.sent + 2 }
      (settled ++ [q, p]) (order ++ [p, q]) none where
  seq_eq := h.next_seq
  timestamp_eq := h.next_timestamp
  holding_eq := rfl
  heldPacket_eq _ hmem := absurd hmem (by simp)
  survivors_eq := by simp [survivors_succ, hdrop, h.survivors_eq]
  swaps := h.swaps.concat_swap q p
  datagrams_eq := by simp [h.datagrams_eq, h.heldPacket_eq q rfl]
  sent_eq := by simp [h.sent_eq]
  total_eq := by
    have htotal := h.total_eq
    simp only [Option.toList_some, List.length_singleton] at htotal
    simp only [Option.toList_none, List.length_nil]
    omega

/-- Packet `p` is held back. -/
theorem Ledger.hold (h : Ledger src seq timestamp draw p s settled order none)
    (hdrop : ¬ (draw p).drop = true) :
    Ledger src seq timestamp draw (p + 1)
      { s with
        seq := s.seq + 1
        timestamp := s.timestamp + UInt32.ofNat kSamplesPerPacket
        heldPacket := datagram src seq timestamp p
        holding := true }
      settled order (some p) :=
  { h with
    seq_eq := h.next_seq
    timestamp_eq := h.next_timestamp
    holding_eq := rfl
    heldPacket_eq := by rintro _ ⟨⟩; rfl
    survivors_eq := by simp [survivors_succ, hdrop, h.survivors_eq]
    total_eq := by
      have htotal := h.total_eq
      simp only [Option.toList_none, List.length_nil] at htotal
      simp only [Option.toList_some, List.length_singleton]
      omega }

/-- Packet `p` goes out in its turn. -/
theorem Ledger.pass (h : Ledger src seq timestamp draw p s settled order none)
    (hdrop : ¬ (draw p).drop = true) :
    Ledger src seq timestamp draw (p + 1)
      { s with
        seq := s.seq + 1
        timestamp := s.timestamp + UInt32.ofNat kSamplesPerPacket
        datagrams := s.datagrams ++ [datagram src seq timestamp p]
        sent := s.sent + 1 }
      (settled ++ [p]) (order ++ [p]) none :=
  { h with
    seq_eq := h.next_seq
    timestamp_eq := h.next_timestamp
    survivors_eq := by simp [survivors_succ, hdrop, h.survivors_eq]
    swaps := h.swaps.concat p
    datagrams_eq := by simp [h.datagrams_eq]
    sent_eq := by simp [h.sent_eq]
    total_eq := by
      have htotal := h.total_eq
      dsimp only
      omega }

/-- A turn of the loop does one of the four. -/
theorem Ledger.turn (hsend : ∀ j, throws j = false)
    (h : Ledger src seq timestamp draw p s settled order held) :
    ∃ s' settled' order' held', packetTurn src throws draw s p = some s' ∧
      Ledger src seq timestamp draw (p + 1) s' settled' order' held' := by
  have hwire : (src.packet p s.seq s.timestamp).serialize = datagram src seq timestamp p := by
    rw [h.seq_eq, h.timestamp_eq, datagram]
  simp only [packetTurn, hwire, sendTo_eq hsend]
  by_cases hdrop : (draw p).drop = true
  · rw [if_pos hdrop]
    exact ⟨_, _, _, _, rfl, h.drop hdrop⟩
  · rw [if_neg hdrop]
    cases held with
    | some q =>
        have hholding : s.holding = true := h.holding_eq
        rw [if_pos hholding]
        exact ⟨_, _, _, _, rfl, h.release hdrop⟩
    | none =>
        have hfree : ¬ s.holding = true := by simp [h.holding_eq]
        rw [if_neg hfree]
        by_cases hhold : (draw p).reorder = true ∧ p + 1 < src.totalPackets
        · rw [if_pos hhold]
          exact ⟨_, _, _, _, rfl, h.hold hdrop⟩
        · rw [if_neg hhold]
          exact ⟨_, _, _, _, rfl, h.pass hdrop⟩

variable (src seq timestamp draw) in
/-- The loop keeps the ledger to its end. -/
theorem ledger_loop (hsend : ∀ j, throws j = false) (n : Nat) :
    ∃ s settled order held,
      (List.range n).foldlM (packetTurn src throws draw) { seq, timestamp } = some s ∧
        Ledger src seq timestamp draw n s settled order held := by
  induction n with
  | zero => exact ⟨_, _, _, _, rfl, ledger_zero⟩
  | succ n ih =>
      obtain ⟨s, settled, order, held, hloop, hledger⟩ := ih
      obtain ⟨s', settled', order', held', hturn, hledger'⟩ := hledger.turn hsend
      refine ⟨s', settled', order', held', ?_, hledger'⟩
      rw [List.range_succ, List.foldlM_append, hloop]
      simpa using hturn

end Turn

/-- What the run accounts for: the survivors have gone out once each, in packet
order but for `reordered` swaps of disjoint neighbours, and the counters add up. -/
structure Accounts (src : Source) (seq : UInt16) (timestamp : UInt32) (draw : Nat → Draw)
    (s : Sender) (order : List Nat) : Prop where
  swaps : Swaps (survivors draw src.totalPackets) order s.reordered
  perm : order.Perm (survivors draw src.totalPackets)
  datagrams_eq : s.datagrams = order.map (datagram src seq timestamp)
  sent_eq : s.sent = s.datagrams.length
  total_eq : s.sent + s.dropped = src.totalPackets

/-- The flush sends the packet still held back, if there is one. -/
theorem Ledger.settle {src : Source} {seq : UInt16} {timestamp : UInt32} {throws : Nat → Bool}
    {draw : Nat → Draw} {s : Sender} {settled order : List Nat} {held : Option Nat}
    (hsend : ∀ j, throws j = false)
    (h : Ledger src seq timestamp draw src.totalPackets s settled order held) :
    ∃ s' order', flush throws s = some s' ∧ Accounts src seq timestamp draw s' order' := by
  have hsurvive := h.survivors_eq
  have htotal := h.total_eq
  cases held with
  | some q =>
      have hholding : s.holding = true := h.holding_eq
      simp only [Option.toList_some, List.length_singleton] at hsurvive htotal
      rw [flush, if_pos hholding, sendTo_eq hsend]
      refine ⟨_, order ++ [q], rfl, ?_⟩
      have hswaps : Swaps (survivors draw src.totalPackets) (order ++ [q]) s.reordered :=
        hsurvive ▸ h.swaps.concat q
      exact
        { swaps := hswaps
          perm := hswaps.perm
          datagrams_eq := by simp [h.datagrams_eq, h.heldPacket_eq q rfl]
          sent_eq := by simp [h.sent_eq]
          total_eq := by dsimp only; omega }
  | none =>
      have hfree : ¬ s.holding = true := by simp [h.holding_eq]
      simp only [Option.toList_none, List.length_nil, List.append_nil] at hsurvive htotal
      rw [flush, if_neg hfree]
      have hswaps : Swaps (survivors draw src.totalPackets) order s.reordered :=
        hsurvive ▸ h.swaps
      exact ⟨s, order, rfl, hswaps, hswaps.perm, h.datagrams_eq, h.sent_eq, htotal⟩

/-- **Conservation**: if no send throws, then whatever is drawn the packets that
are not dropped go out once each, in order but for the swaps counted. -/
theorem send_accounts (src : Source) (seq : UInt16) (timestamp : UInt32) (draw : Nat → Draw)
    {throws : Nat → Bool} (hsend : ∀ j, throws j = false) :
    ∃ s order, send src seq timestamp throws draw = some s ∧
      Accounts src seq timestamp draw s order := by
  obtain ⟨s, settled, order, held, hloop, hledger⟩ :=
    ledger_loop src seq timestamp draw hsend src.totalPackets
  obtain ⟨s', order', hflush, haccounts⟩ := hledger.settle hsend
  refine ⟨s', order', ?_, haccounts⟩
  rw [send, hloop]
  exact hflush

theorem send_accounts_three :
    ∃ s order,
      send { pcm := List.replicate 480 0, ssrc := 1 } 65535 0 (fun _ => false)
          (fun p => { drop := p = 1, reorder := p = 0 }) = some s ∧
        Accounts { pcm := List.replicate 480 0, ssrc := 1 } 65535 0
          (fun p => { drop := p = 1, reorder := p = 0 }) s order :=
  send_accounts { pcm := List.replicate 480 0, ssrc := 1 } 65535 0
    (fun p => { drop := p = 1, reorder := p = 0 }) fun _ => rfl

end RtpSender

end SipDemo
