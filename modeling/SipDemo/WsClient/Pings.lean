import SipDemo.WsClient.Sending

/-!
# SipDemo.WsClient.Pings

The reader answers pings.

On a stream of frames the reader of an open connection writes one pong for each
ping before the first close, with the ping's payload, and nothing else
(`pings_answered`).  The stream may end in any way, the frames may be masked or
not and state their lengths in any form, and the segments play no part.
-/

namespace SipDemo

namespace WsClient

/-- The payload a frame of the protocol may have: 125 bytes when it is a control
frame, and what the reader accepts otherwise. -/
def WireFrame.limit (w : WireFrame) : Nat := if 0x8 ≤ w.frame.opcode then 125 else 2 ^ 20

theorem WireFrame.limit_le (w : WireFrame) : w.limit ≤ 2 ^ 20 := by
  unfold limit
  split <;> omega

/-- The payloads of the pings among frames. -/
def pings (frames : List Frame) : List (List UInt8) :=
  (frames.filter fun f => f.opcode = 0x9).map Frame.payload

/-- A masked pong. -/
def pongFrame (mask : Mask) (payload : List UInt8) : List UInt8 :=
  announce 0x8A (some mask) .short payload.length ++ applyMask mask payload

/-- The answer to a ping is a pong with its payload. -/
theorem answer_ping {s : WsClient} (hopen : s.isOpen = true) {pongs : Pongs}
    (hsends : ∀ k j, 0 < (pongs k).2 j) (k : Nat) {frame : Frame} (hping : frame.opcode = 0x9)
    (hlen : frame.payload.length ≤ 125) :
    s.answer pongs k frame = (pongFrame (pongs k).1 frame.payload, s, k + 1) := by
  let t : Turn := ⟨.pong frame.payload, (pongs k).1, (pongs k).2⟩
  have hframe : t.frame = some _ := encodeFrame_eq 0xA (pongs k).1 frame.payload (by omega)
  have hform : clientForm frame.payload.length = .short := if_pos (by omega)
  have hbytes : (clientFrame 0xA (pongs k).1 frame.payload (by omega)).bytes =
      pongFrame (pongs k).1 frame.payload := by
    rw [bytes_clientFrame, hform]
    rfl
  have hpong : s.pong (pongs k).1 (pongs k).2 frame.payload =
      (true, pongFrame (pongs k).1 frame.payload, s) := by
    rw [← hbytes]
    exact perform_sent hopen hframe (hsends k)
  rw [answer, if_pos hping, hpong]

/-- No other frame is answered. -/
theorem answer_other (s : WsClient) (pongs : Pongs) (k : Nat) {frame : Frame}
    (hother : frame.opcode ≠ 0x9) : s.answer pongs k frame = ([], s, k) := by
  rw [answer, if_neg hother]

/-- The replies to frames are pongs, in the order of the pings. -/
theorem replies_eq {s : WsClient} (hopen : s.isOpen = true) {pongs : Pongs}
    (hsends : ∀ k j, 0 < (pongs k).2 j) (k : Nat) {frames : List Frame}
    (hlen : ∀ p ∈ pings frames, p.length ≤ 125) :
    s.replies pongs k frames =
      ((pings frames).mapIdx fun i p => pongFrame (pongs (k + i)).1 p).flatten := by
  induction frames generalizing k with
  | nil => rfl
  | cons frame frames ih =>
      by_cases hping : frame.opcode = 0x9
      · have hpings : pings (frame :: frames) = frame.payload :: pings frames := by
          simp [pings, hping]
        rw [hpings] at hlen ⊢
        rw [replies, answer_ping hopen hsends k hping (hlen _ List.mem_cons_self),
          ih (k + 1) fun p hp => hlen p (List.mem_cons_of_mem _ hp), List.mapIdx_cons,
          List.flatten_cons]
        simp only [Nat.add_assoc, Nat.add_comm 1, Nat.add_zero]
      · have hpings : pings (frame :: frames) = pings frames := by simp [pings, hping]
        rw [hpings] at hlen ⊢
        rw [replies, answer_other s pongs k hping, ih k hlen, List.nil_append]

/-- The frames that are received are among those of the stream. -/
theorem exists_of_mem_received {ws : List WireFrame} {frame : Frame} (h : frame ∈ received ws) :
    ∃ w ∈ ws, w.frame = frame := by
  induction ws with
  | nil => cases h
  | cons w ws ih =>
      rw [received] at h
      cases List.mem_cons.mp h with
      | inl heq => exact ⟨w, List.mem_cons_self, heq.symm⟩
      | inr hmem =>
          split at hmem
          · cases hmem
          · obtain ⟨w', hw', heq⟩ := ih hmem
            exact ⟨w', List.mem_cons_of_mem w hw', heq⟩

/-- **Ping and pong.**  The reader receives the frames up to the first close,
writes a masked pong with the same payload for each ping among them, in order,
and nothing else, and leaves the client disconnected; it allocates no payload
above the limit. -/
theorem pings_answered (s : WsClient) (hopen : s.isOpen = true) (hrun : s.readerStop = false)
    (pongs : Pongs) (hsends : ∀ k j, 0 < (pongs k).2 j) (ws : List WireFrame)
    (hlimit : ∀ w ∈ ws, w.payload.length ≤ w.limit) (tail : List UInt8) (hend : Ending tail)
    (segs : Incoming) (hsegs : segs.flatten = ws.flatMap WireFrame.bytes ++ tail) :
    (readerLoop pongs 0 s segs).1.frames = received ws ∧
      (readerLoop pongs 0 s segs).1.written =
        ((pings (received ws)).mapIdx fun k p => pongFrame (pongs k).1 p).flatten ∧
      (readerLoop pongs 0 s segs).2.connected = false ∧
      ∀ n ∈ (readerLoop pongs 0 s segs).1.allocated, n ≤ 2 ^ 20 := by
  have hrecv : s.recvFails = false := by
    have hfd : s.fd ≠ kInvalidFd := by simpa [isOpen] using (Bool.and_eq_true_iff.mp hopen).2
    simp [recvFails, hrun, hfd]
  have hping : ∀ w ∈ ws, w.frame.opcode = 0x9 → w.frame.payload.length ≤ 125 := by
    intro w hw hop
    have hle := hlimit w hw
    rw [WireFrame.limit, if_pos (by rw [hop]; decide)] at hle
    exact hle
  have hpings : ∀ p ∈ pings (received ws), p.length ≤ 125 := by
    intro p hp
    obtain ⟨frame, hframe, rfl⟩ := List.mem_map.mp hp
    obtain ⟨hmem, hop⟩ := List.mem_filter.mp hframe
    obtain ⟨w, hw, rfl⟩ := exists_of_mem_received hmem
    exact hping w hw (of_decide_eq_true hop)
  have hkeep : ∀ k, ∀ w ∈ ws, (s.answer pongs k w.frame).2.1 = s := by
    intro k w hw
    by_cases hop : w.frame.opcode = 0x9
    · rw [answer_ping hopen hsends k hop (hping w hw hop)]
    · rw [answer_other s pongs k hop]
  obtain ⟨hframes, hwritten, hlast⟩ := readerLoop_wires hrecv pongs 0
    (fun w hw => (hlimit w hw).trans w.limit_le) hkeep hend hsegs
  refine ⟨hframes, ?_, ?_, readerLoop_allocated pongs 0 s segs⟩
  · rw [hwritten, replies_eq hopen hsends 0 hpings]
    simp only [Nat.zero_add]
  · rw [hlast]
    rfl

/-- A ping with a payload of two bytes, cut in the middle, and the end of the stream. -/
theorem pings_answered_cut :
    (readerLoop (fun _ => (fun _ => 7, fun _ => 1)) 0 { fd := 3, connected := true }
      [[0x89], [2, 1], [2]]).1.written = [0x8A, 0x82, 7, 7, 7, 7, 6, 5] :=
  (pings_answered { fd := 3, connected := true } rfl rfl (fun _ => (fun _ => 7, fun _ => 1))
    (fun _ _ => Int.one_pos) [⟨0x89, none, .short, [1, 2], by decide⟩] (by decide) [] .eof
    [[0x89], [2, 1], [2]] (by decide)).2.1.trans (by decide)

end WsClient

end SipDemo
