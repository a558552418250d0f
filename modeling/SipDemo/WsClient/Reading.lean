import SipDemo.WsClient

/-!
# SipDemo.WsClient.Reading

What the reader makes of a stream that is cut into segments.

`readExact` returns the next bytes of the stream however it is cut, so a frame
is read from its bytes alone (`stable_readFrame`), and the whole loop depends on
the stream only (`readerLoop_congr`).
-/

namespace SipDemo

namespace WsClient

open Segments

/-! ## reads and segments -/

/-- `readExact` takes the front of the stream, or fails when it is too short. -/
theorem flat_readExact (len : Nat) (segs : Incoming) :
    flat (readExact false len segs) =
      if len ≤ segs.flatten.length then some (segs.flatten.take len, segs.flatten.drop len)
      else none := by
  fun_induction readExact false len segs with
  | case1 segs => simp
  | case2 segs len hstop => cases hstop
  | case3 segs len hstop left hrecv =>
      have hnil := (recv_eq_nil_iff (Nat.succ_pos len) segs).mp (congrArg Prod.fst hrecv)
      rw [hnil, List.length_nil, if_neg (Nat.not_succ_le_zero len), flat_none]
  | case4 segs len hstop b got left hrecv ih =>
      have hfront := recv_append (len + 1) segs
      have hgot := length_recv_le (len + 1) segs
      simp only [hrecv] at hfront hgot
      rw [← hfront, flat_map, ih]
      have hlen : len + 1 ≤ (b :: got ++ left.flatten).length ↔
          len - got.length ≤ left.flatten.length := by
        rw [List.length_append, List.length_cons] at *
        omega
      by_cases henough : len - got.length ≤ left.flatten.length
      · rw [if_pos henough, if_pos (hlen.mpr henough)]
        have hrest : len + 1 = (b :: got).length + (len - got.length) := by
          rw [List.length_cons] at *
          omega
        rw [Nat.succ_eq_add_one, hrest, List.take_length_add_append, List.drop_length_add_append]
        rfl
      · rw [if_neg henough, if_neg fun h => henough (hlen.mp h)]
        rfl

theorem stable_readExact (len : Nat) : Stable (readExact false len) := by
  intro segs segs' more hsegs x left h
  rw [flat_readExact] at h ⊢
  split at h
  · next hlen =>
      cases h
      have hmore : len ≤ (segs.flatten ++ more).length := by
        rw [List.length_append]
        omega
      rw [hsegs, if_pos hmore, List.take_append_of_le_length hlen,
        List.drop_append_of_le_length hlen]
  · cases h

theorem stable_readLength (short : UInt8) : Stable (readLength false short) := by
  unfold readLength
  by_cases hmedium : short = 126
  · simp only [if_pos hmedium]
    exact (stable_readExact 2).map fun _ _ => rfl
  · by_cases hlong : short = 127
    · simp only [if_neg hmedium, if_pos hlong]
      exact (stable_readExact 8).map fun _ _ => rfl
    · simp only [if_neg hmedium, if_neg hlong]
      exact Stable.ret _

theorem stable_readMask (masked : Bool) : Stable (readMask false masked) := by
  cases masked with
  | false => exact Stable.ret _
  | true => exact (stable_readExact 4).map fun _ _ => rfl

theorem stable_readHeader : Stable (readHeader false) := by
  apply (stable_readExact 2).bind
  intro hdr
  apply (stable_readLength (hdr.getD 1 0 &&& 0x7f)).bind
  intro payloadLen
  exact (stable_readMask (hdr.getD 1 0 &&& 0x80 ≠ 0)).map fun _ _ => rfl

theorem stable_readPayload (hdr : FrameHeader) : Stable (readPayload false hdr) :=
  (stable_readExact _).map fun _ _ => rfl

/-- `readFrame` as a sequence of reads. -/
theorem readFrame_snd (stop : Bool) (segs : Incoming) :
    (readFrame stop segs).2 = (readHeader stop segs).bind fun r =>
      if r.1.payloadLen > 1 <<< (20 : UInt64) then none else readPayload stop r.1 r.2 := by
  unfold readFrame
  cases readHeader stop segs with
  | none => rfl
  | some r =>
      simp only [Option.bind_some]
      split <;> rfl

theorem stable_readFrame : Stable fun segs => (readFrame false segs).2 := by
  simp only [readFrame_snd]
  refine stable_readHeader.bind fun hdr => ?_
  by_cases hlong : hdr.payloadLen > 1 <<< (20 : UInt64)
  · simp only [if_pos hlong]
    intro segs segs' more hsegs x left h
    cases h
  · simp only [if_neg hlong]
    exact stable_readPayload hdr

/-- No payload vector above the limit is allocated. -/
theorem readFrame_allocated {stop : Bool} {segs : Incoming} {n : Nat}
    (h : (readFrame stop segs).1 = some n) : n ≤ 2 ^ 20 := by
  unfold readFrame at h
  split at h
  · cases h
  · next hdr segs' hhdr =>
      split at h
      · cases h
      · next hlong =>
          obtain rfl := Option.some.inj h
          exact Nat.le_of_not_lt fun hlt => hlong (UInt64.lt_iff_toNat_lt.mpr hlt)

/-- What is allocated depends on the bytes only. -/
theorem readFrame_fst_congr {segs segs' : Incoming} (h : segs.flatten = segs'.flatten) :
    (readFrame false segs).1 = (readFrame false segs').1 := by
  have hhdr := stable_readHeader.congr h
  unfold readFrame
  cases hr : readHeader false segs with
  | none =>
      rw [hr] at hhdr
      cases hr' : readHeader false segs' with
      | none => rfl
      | some r => rw [hr'] at hhdr; cases hhdr
  | some r =>
      rw [hr] at hhdr
      obtain ⟨left, hleft, -⟩ := exists_of_flat hhdr.symm
      rw [hleft]
      simp only
      split <;> rfl

/-- Nothing is read once `::recv` fails. -/
theorem readFrame_stopped (segs : Incoming) : readFrame true segs = (none, none) := by
  simp [readFrame, readHeader, readExact]

theorem readFrame_congr (stop : Bool) {segs segs' : Incoming} (h : segs.flatten = segs'.flatten) :
    (readFrame stop segs).1 = (readFrame stop segs').1 ∧
      flat (readFrame stop segs).2 = flat (readFrame stop segs').2 := by
  cases stop with
  | false => exact ⟨readFrame_fst_congr h, stable_readFrame.congr h⟩
  | true => rw [readFrame_stopped, readFrame_stopped]; exact ⟨rfl, rfl⟩

/-! ## one round of the loop -/

variable {pongs : Pongs} {k : Nat} {s : WsClient} {segs : Incoming}

theorem readerLoop_stopped (hstop : s.readerStop = true) :
    readerLoop pongs k s segs = ({}, s.closeFdUnlocked) := by
  rw [readerLoop, if_pos hstop]

/-- The loop breaks where no frame is read. -/
theorem readerLoop_break (hstop : s.readerStop = false)
    (hframe : (readFrame s.recvFails segs).2 = none) :
    readerLoop pongs k s segs =
      ({ allocated := (readFrame s.recvFails segs).1.toList }, s.closeFdUnlocked) := by
  rw [readerLoop, if_neg (Bool.not_eq_true _ ▸ hstop)]
  split
  · rfl
  · next hsome => rw [hframe] at hsome; cases hsome

/-- It breaks at a close frame. -/
theorem readerLoop_close {frame : Frame} {rest : Incoming} (hstop : s.readerStop = false)
    (hframe : (readFrame s.recvFails segs).2 = some (frame, rest)) (hclose : frame.opcode = 0x8) :
    readerLoop pongs k s segs =
      ({ frames := [frame], allocated := (readFrame s.recvFails segs).1.toList },
        s.closeFdUnlocked) := by
  rw [readerLoop, if_neg (Bool.not_eq_true _ ▸ hstop)]
  split
  · next hnone => rw [hframe] at hnone; cases hnone
  · next hsome =>
      rw [hframe] at hsome
      cases hsome
      exact if_pos hclose

/-- After any other frame it goes on. -/
theorem readerLoop_frame {frame : Frame} {rest : Incoming} {bytes : List UInt8} {s' : WsClient}
    {k' : Nat} (hstop : s.readerStop = false)
    (hframe : (readFrame s.recvFails segs).2 = some (frame, rest)) (hclose : frame.opcode ≠ 0x8)
    (hanswer : s.answer pongs k frame = (bytes, s', k')) :
    readerLoop pongs k s segs =
      ({ frames := frame :: (readerLoop pongs k' s' rest).1.frames
         allocated := (readFrame s.recvFails segs).1.toList ++
           (readerLoop pongs k' s' rest).1.allocated
         written := bytes ++ (readerLoop pongs k' s' rest).1.written },
        (readerLoop pongs k' s' rest).2) := by
  rw [readerLoop, if_neg (Bool.not_eq_true _ ▸ hstop)]
  split
  · next hnone => rw [hframe] at hnone; cases hnone
  · next hsome =>
      rw [hframe] at hsome
      cases hsome
      rw [hanswer]
      exact if_neg hclose

/-- **Induction over the rounds of the loop**: it is stopped, breaks, breaks at a
close frame, or takes a frame and goes on. -/
theorem readerLoop_rounds {P : Nat → WsClient → Incoming → ReaderLog × WsClient → Prop}
    (stopped : ∀ k s segs, s.readerStop = true → P k s segs ({}, s.closeFdUnlocked))
    (broken : ∀ k s segs, s.readerStop = false → (readFrame s.recvFails segs).2 = none →
      P k s segs ({ allocated := (readFrame s.recvFails segs).1.toList }, s.closeFdUnlocked))
    (close : ∀ k s segs frame rest, s.readerStop = false →
      (readFrame s.recvFails segs).2 = some (frame, rest) → frame.opcode = 0x8 →
      P k s segs ({ frames := [frame], allocated := (readFrame s.recvFails segs).1.toList },
        s.closeFdUnlocked))
    (next : ∀ k s segs frame rest bytes s' k', s.readerStop = false →
      (readFrame s.recvFails segs).2 = some (frame, rest) → frame.opcode ≠ 0x8 →
      s.answer pongs k frame = (bytes, s', k') →
      P k' s' rest (readerLoop pongs k' s' rest) →
      P k s segs
        ({ frames := frame :: (readerLoop pongs k' s' rest).1.frames
           allocated := (readFrame s.recvFails segs).1.toList ++
             (readerLoop pongs k' s' rest).1.allocated
           written := bytes ++ (readerLoop pongs k' s' rest).1.written },
          (readerLoop pongs k' s' rest).2))
    (k : Nat) (s : WsClient) (segs : Incoming) : P k s segs (readerLoop pongs k s segs) := by
  induction hlen : segs.flatten.length using Nat.strong_induction_on generalizing k s segs with
  | _ len ih =>
      cases hstop : s.readerStop with
      | true =>
          rw [readerLoop_stopped hstop]
          exact stopped k s segs hstop
      | false =>
          cases hframe : (readFrame s.recvFails segs).2 with
          | none =>
              rw [readerLoop_break hstop hframe]
              exact broken k s segs hstop hframe
          | some r =>
              obtain ⟨frame, rest⟩ := r
              by_cases hclose : frame.opcode = 0x8
              · rw [readerLoop_close hstop hframe hclose]
                exact close k s segs frame rest hstop hframe hclose
              · obtain ⟨⟨bytes, s', k'⟩, hanswer⟩ : ∃ a, s.answer pongs k frame = a := ⟨_, rfl⟩
                have hshrinks := readFrame_shrinks hframe
                rw [readerLoop_frame hstop hframe hclose hanswer]
                exact next k s segs frame rest bytes s' k' hstop hframe hclose hanswer
                  (ih _ (hlen ▸ hshrinks) k' s' rest rfl)

/-- **The loop depends on the bytes it receives only**, not on how they are cut. -/
theorem readerLoop_congr (pongs : Pongs) (k : Nat) (s : WsClient) {segs segs' : Incoming}
    (h : segs.flatten = segs'.flatten) :
    readerLoop pongs k s segs = readerLoop pongs k s segs' := by
  refine readerLoop_rounds (P := fun k s segs r => ∀ {segs' : Incoming},
    segs.flatten = segs'.flatten → r = readerLoop pongs k s segs') ?_ ?_ ?_ ?_ k s segs h
  · intro k s segs hstop segs' _
    rw [readerLoop_stopped hstop]
  · intro k s segs hstop hframe segs' h
    obtain ⟨halloc, hflat⟩ := readFrame_congr s.recvFails h
    rw [hframe, flat_none] at hflat
    rw [readerLoop_break hstop (Option.map_eq_none_iff.mp hflat.symm), halloc]
  · intro k s segs frame rest hstop hframe hclose segs' h
    obtain ⟨halloc, hflat⟩ := readFrame_congr s.recvFails h
    rw [hframe, flat_some] at hflat
    obtain ⟨rest', hframe', -⟩ := exists_of_flat hflat.symm
    rw [readerLoop_close hstop hframe' hclose, halloc]
  · intro k s segs frame rest bytes s' k' hstop hframe hclose hanswer ih segs' h
    obtain ⟨halloc, hflat⟩ := readFrame_congr s.recvFails h
    rw [hframe, flat_some] at hflat
    obtain ⟨rest', hframe', hrest⟩ := exists_of_flat hflat.symm
    rw [readerLoop_frame hstop hframe' hclose hanswer, halloc, ih hrest.symm]

/-- No payload vector the loop allocates is above the limit. -/
theorem readerLoop_allocated (pongs : Pongs) (k : Nat) (s : WsClient) (segs : Incoming) :
    ∀ n ∈ (readerLoop pongs k s segs).1.allocated, n ≤ 2 ^ 20 := by
  have hround (s : WsClient) (segs : Incoming) :
      ∀ n ∈ (readFrame s.recvFails segs).1.toList, n ≤ 2 ^ 20 :=
    fun n hn => readFrame_allocated (Option.mem_toList.mp hn)
  refine readerLoop_rounds (P := fun _ _ _ r => ∀ n ∈ r.1.allocated, n ≤ 2 ^ 20)
    ?_ ?_ ?_ ?_ k s segs
  · simp
  · intro k s segs _ _
    exact hround s segs
  · intro k s segs frame rest _ _ _
    exact hround s segs
  · intro k s segs frame rest bytes s' k' _ _ _ _ ih n hn
    cases List.mem_append.mp hn with
    | inl hn => exact hround s segs n hn
    | inr hn => exact ih n hn

end WsClient

end SipDemo
