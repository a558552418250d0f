import SipDemo.Run
import SipDemo.WsClient.Wire

/-!
# SipDemo.WsClient.Sending

The bytes that a connection carries to the server.

Three threads send on one connection, `sendBinary`, `sendText` and the answers
to pings, and the mutex puts their calls in an order; each call is a `Turn` with
its mask and with what `::send` returns to it.  A turn on an open connection
writes its frame, or a part of it and then closes the connection, or nothing
because the payload is too long (`perform_open`); on a closed one it does
nothing (`perform_closed`).  A run is therefore a row of complete frames and at
most one torn frame after them (`run_split`), and the reader's own rules decode
the row.
-/

namespace SipDemo

namespace WsClient

open Run

/-! ## turns -/

/-- A call that sends a frame. -/
inductive Call where
  | sendBinary (data : List UInt8)
  | sendText (text : Str)
  | pong (payload : List UInt8)

namespace Call

def opcode : Call → UInt8
  | sendBinary _ => 0x2
  | sendText _ => 0x1
  | pong _ => 0xA

theorem opcode_le (c : Call) : c.opcode ≤ 0x0f := by
  cases c <;> simp [opcode]

def payload : Call → List UInt8
  | sendBinary data => data
  | sendText text => text
  | pong payload => payload

end Call

/-- A call, its mask, and what the `::send` calls it makes return. -/
structure Turn where
  call : Call
  mask : Mask
  send : SendResults

namespace Turn

/-- The frame of the call; none when the payload is longer than 65535 bytes. -/
def frame (t : Turn) : Option (List UInt8) := encodeFrame t.call.opcode t.mask t.call.payload

/-- What the call is to send. -/
def content (t : Turn) : Frame := { opcode := t.call.opcode, payload := t.call.payload }

end Turn

/-- One turn: what the call returns, the bytes it writes, and the client after it. -/
def perform (s : WsClient) (t : Turn) : Bool × List UInt8 × WsClient :=
  match t.call with
  | .sendBinary data => s.sendBinary t.mask t.send data
  | .sendText text => s.sendText t.mask t.send text
  | .pong payload => s.pong t.mask t.send payload

/-- The client after a turn. -/
def turn (s : WsClient) (t : Turn) : WsClient := (s.perform t).2.2

/-- What the calls return. -/
def results (s : WsClient) (ts : List Turn) : List Bool :=
  collect turn (fun s t => [(s.perform t).1]) s ts

/-- The calls that return true. -/
def succeeded (s : WsClient) (ts : List Turn) : List Turn :=
  collect turn (fun s t => if (s.perform t).1 then [t] else []) s ts

/-- The bytes that are written. -/
def written (s : WsClient) (ts : List Turn) : List UInt8 :=
  collect turn (fun s t => (s.perform t).2.1) s ts

/-- A connection that can be written to. -/
def isOpen (s : WsClient) : Bool := s.connected && s.fd ≠ kInvalidFd

/-- `torn` is a part of the frame of `t`, and not all of it. -/
def Torn (t : Turn) (torn : List UInt8) : Prop :=
  ∃ frame, t.frame = some frame ∧ torn <+: frame ∧ torn ≠ frame

/-! ## one turn -/

/-- `sendAll` sends everything, or a part and reports it. -/
theorem sendFrom_cases (send : SendResults) (j : Nat) (data : List UInt8) :
    sendFrom send j data = (true, data) ∨
      ∃ part, sendFrom send j data = (false, part) ∧ part <+: data ∧ part ≠ data := by
  fun_induction sendFrom send j data with
  | case1 j => exact .inl rfl
  | case2 j b rest hfail => exact .inr ⟨[], rfl, List.nil_prefix, (List.cons_ne_nil b rest).symm⟩
  | case3 j b rest hok n ok sent hsent ih =>
      rw [hsent] at ih
      cases ih with
      | inl hall =>
          obtain ⟨rfl, rfl⟩ := Prod.mk.injEq _ _ _ _ ▸ hall
          left
          rw [List.take_append_drop]
      | inr hpart =>
          obtain ⟨part, heq, ⟨more, hmore⟩, hproper⟩ := hpart
          obtain ⟨rfl, rfl⟩ := Prod.mk.injEq _ _ _ _ ▸ heq
          refine .inr ⟨_, rfl, ⟨more, ?_⟩, ?_⟩
          · rw [List.append_assoc, hmore, List.take_append_drop]
          · intro hall
            apply hproper
            apply List.append_cancel_left (hall.trans (List.take_append_drop n (b :: rest)).symm)

/-- It sends everything when no `::send` fails. -/
theorem sendFrom_eq {send : SendResults} (h : ∀ j, 0 < send j) (j : Nat) (data : List UInt8) :
    sendFrom send j data = (true, data) := by
  fun_induction sendFrom send j data with
  | case1 j => rfl
  | case2 j b rest hfail => exact absurd (h j) (Int.not_lt.mpr hfail)
  | case3 j b rest hok n ok sent hsent ih =>
      obtain ⟨rfl, rfl⟩ := Prod.mk.injEq _ _ _ _ ▸ hsent.symm.trans ih
      rw [List.take_append_drop]

/-- The three calls differ in the opcode only. -/
theorem perform_eq (s : WsClient) (t : Turn) :
    s.perform t = s.sendFrameUnlocked t.mask t.send t.call.opcode t.call.payload := by
  obtain ⟨call, mask, send⟩ := t
  cases call with
  | sendBinary data => rfl
  | sendText text => rfl
  | pong payload =>
      cases hconnected : s.connected with
      | true => exact if_pos hconnected
      | false => simp [perform, pong, sendFrameUnlocked, hconnected]

theorem guard_eq (s : WsClient) : (!s.connected || decide (s.fd = kInvalidFd)) = !s.isOpen := by
  simp [isOpen]

/-- **A call on a connection that is not open** returns false and writes nothing. -/
theorem perform_closed {s : WsClient} (h : s.isOpen = false) (t : Turn) :
    s.perform t = (false, [], s) := by
  rw [perform_eq, sendFrameUnlocked, guard_eq, h]
  rfl

/-- **A call on an open connection** has no frame to send, sends all of it, or
tears it and closes the connection. -/
theorem perform_open {s : WsClient} (h : s.isOpen = true) (t : Turn) :
    (t.frame = none ∧ s.perform t = (false, [], s)) ∨
    (∃ frame, t.frame = some frame ∧ s.perform t = (true, frame, s)) ∨
    ∃ torn, Torn t torn ∧ s.perform t = (false, torn, s.closeFdUnlocked) := by
  have hframe : encodeFrame t.call.opcode t.mask t.call.payload = t.frame := rfl
  rw [perform_eq, sendFrameUnlocked, guard_eq, h, if_neg (by decide), hframe]
  cases hsome : t.frame with
  | none => exact .inl ⟨rfl, rfl⟩
  | some frame =>
      right
      simp only [sendAll]
      cases sendFrom_cases t.send 0 frame with
      | inl hall =>
          rw [hall]
          exact .inl ⟨frame, rfl, rfl⟩
      | inr hpart =>
          obtain ⟨part, hpart, hfront, hproper⟩ := hpart
          rw [hpart]
          exact .inr ⟨part, ⟨frame, hsome, hfront, hproper⟩, rfl⟩

/-- A call whose sends succeed. -/
theorem perform_sent {s : WsClient} (h : s.isOpen = true) {t : Turn} {frame : List UInt8}
    (hframe : t.frame = some frame) (hsend : ∀ j, 0 < t.send j) :
    s.perform t = (true, frame, s) := by
  have hencode : encodeFrame t.call.opcode t.mask t.call.payload = some frame := hframe
  rw [perform_eq, sendFrameUnlocked, guard_eq, h, if_neg (by decide), hencode]
  simp only [sendAll, sendFrom_eq hsend]

theorem isOpen_closeFdUnlocked (s : WsClient) : s.closeFdUnlocked.isOpen = false := rfl

/-- **A call that has a frame and returns false** leaves the connection closed. -/
theorem isOpen_turn_of_failed {s : WsClient} {t : Turn} (hlen : t.call.payload.length ≤ 65535)
    (hfalse : (s.perform t).1 = false) : (s.turn t).isOpen = false := by
  cases hnow : s.isOpen with
  | false =>
      rw [turn, perform_closed hnow]
      exact hnow
  | true =>
      obtain ⟨hnone, -⟩ | ⟨frame, -, ht⟩ | ⟨torn, -, ht⟩ := perform_open hnow t
      · rw [Turn.frame, encodeFrame_eq _ _ _ (by omega)] at hnone
        cases hnone
      · rw [ht] at hfalse
        cases hfalse
      · rw [turn, ht]
        exact isOpen_closeFdUnlocked s

/-! ## runs -/

/-- **A connection that is not open stays so**: every call returns false and
nothing is written. -/
theorem run_closed {s : WsClient} (h : s.isOpen = false) (ts : List Turn) :
    (∀ r ∈ s.results ts, r = false) ∧ s.written ts = [] ∧ s.succeeded ts = [] := by
  induction ts with
  | nil => exact ⟨fun r hr => absurd hr List.not_mem_nil, rfl, rfl⟩
  | cons t ts ih =>
      have hstep : s.turn t = s := by rw [turn, perform_closed h]
      obtain ⟨hresults, hwritten, hsucceeded⟩ := ih
      unfold results written succeeded at *
      rw [collect_cons, collect_cons, collect_cons, hstep, perform_closed h, hwritten, hsucceeded]
      refine ⟨?_, rfl, rfl⟩
      intro r hr
      cases List.mem_cons.mp hr with
      | inl hr => exact hr
      | inr hr => exact hresults r hr

/-- What was written is the frames of the calls that returned true. -/
def Complete (s : WsClient) (ts : List Turn) : Prop :=
  ∃ frames : List (List UInt8),
    (s.succeeded ts).map Turn.frame = frames.map some ∧ s.written ts = frames.flatten

/-- A call without a frame adds nothing. -/
theorem Complete.idle {s : WsClient} {t : Turn} {ts : List Turn} (h : s.Complete ts)
    (ht : s.perform t = (false, [], s)) : s.Complete (t :: ts) := by
  obtain ⟨frames, hframes, hwritten⟩ := h
  have hstep : s.turn t = s := congrArg (fun r => r.2.2) ht
  unfold Complete succeeded written at *
  rw [collect_cons, collect_cons, hstep, ht]
  exact ⟨frames, hframes, hwritten⟩

/-- A call that sends its frame adds it. -/
theorem Complete.cons {s : WsClient} {t : Turn} {ts : List Turn} {frame : List UInt8}
    (h : s.Complete ts) (hframe : t.frame = some frame) (ht : s.perform t = (true, frame, s)) :
    s.Complete (t :: ts) := by
  obtain ⟨frames, hframes, hwritten⟩ := h
  have hstep : s.turn t = s := congrArg (fun r => r.2.2) ht
  unfold Complete succeeded written at *
  rw [collect_cons, collect_cons, hstep, ht, if_pos rfl, List.map_append, hframes, hwritten]
  refine ⟨frame :: frames, ?_, List.flatten_cons.symm⟩
  rw [List.map_cons, List.map_nil, hframe, List.map_cons, List.singleton_append]

/-- **Runs on an open connection**: only complete frames, or complete frames up
to a call that tears its own. -/
theorem run_split {s : WsClient} (h : s.isOpen = true) (ts : List Turn) :
    s.Complete ts ∨
    ∃ before t after torn, ts = before ++ t :: after ∧ final turn s before = s ∧
      s.Complete before ∧ Torn t torn ∧ s.perform t = (false, torn, s.closeFdUnlocked) := by
  induction ts with
  | nil => exact .inl ⟨[], rfl, rfl⟩
  | cons t ts ih =>
      -- a call that keeps the connection open extends either case of the rest
      have hkeep (ht : s.turn t = s) (hcomplete : ∀ ts, s.Complete ts → s.Complete (t :: ts)) :
          s.Complete (t :: ts) ∨ ∃ before u after torn, t :: ts = before ++ u :: after ∧
            final turn s before = s ∧ s.Complete before ∧ Torn u torn ∧
            s.perform u = (false, torn, s.closeFdUnlocked) := by
        cases ih with
        | inl hall => exact .inl (hcomplete ts hall)
        | inr hsplit =>
            obtain ⟨before, u, after, torn, rfl, hbefore, hall, htorn⟩ := hsplit
            refine .inr ⟨t :: before, u, after, torn, rfl, ?_, hcomplete before hall, htorn⟩
            rw [final_cons, ht, hbefore]
      obtain ⟨-, ht⟩ | ⟨frame, hframe, ht⟩ | ⟨torn, htorn, ht⟩ := perform_open h t
      · exact hkeep (congrArg (fun r => r.2.2) ht) fun _ hall => hall.idle ht
      · exact hkeep (congrArg (fun r => r.2.2) ht) fun _ hall => hall.cons hframe ht
      · exact .inr ⟨[], t, ts, torn, rfl, rfl, ⟨[], rfl, rfl⟩, htorn, ht⟩

/-! ## what the server reads -/

/-- A call that has a frame has a frame of the protocol. -/
theorem exists_clientFrame {t : Turn} {bytes : List UInt8} (h : t.frame = some bytes) :
    ∃ hlen : t.call.payload.length < 256 ^ 2,
      (clientFrame t.call.opcode t.mask t.call.payload hlen).bytes = bytes := by
  by_cases hlen : t.call.payload.length < 256 ^ 2
  · rw [Turn.frame, encodeFrame_eq _ _ _ hlen] at h
    exact ⟨hlen, Option.some.inj h⟩
  · rw [Turn.frame, encodeFrame_eq_none (Nat.le_of_not_lt hlen)] at h
    cases h

/-- The frames of a row of calls, as frames of the protocol. -/
theorem exists_wires {ts : List Turn} {frames : List (List UInt8)}
    (h : ts.map Turn.frame = frames.map some) :
    ∃ ws : List WireFrame, frames = ws.map WireFrame.bytes ∧
      ws.map WireFrame.frame = ts.map Turn.content ∧ ∀ w ∈ ws, w.payload.length ≤ 2 ^ 20 := by
  induction ts generalizing frames with
  | nil =>
      cases frames with
      | nil => exact ⟨[], rfl, rfl, fun w hw => absurd hw List.not_mem_nil⟩
      | cons frame frames => cases h
  | cons t ts ih =>
      cases frames with
      | nil => cases h
      | cons bytes frames =>
          rw [List.map_cons, List.map_cons, List.cons.injEq] at h
          obtain ⟨hlen, rfl⟩ := exists_clientFrame h.1
          obtain ⟨ws, rfl, hcontents, hlimits⟩ := ih h.2
          refine ⟨clientFrame t.call.opcode t.mask t.call.payload hlen :: ws, rfl, ?_, ?_⟩
          · rw [List.map_cons, clientFrame_frame _ _ _ hlen t.call.opcode_le, hcontents]
            rfl
          · intro w hw
            cases List.mem_cons.mp hw with
            | inl hw =>
                subst hw
                change t.call.payload.length ≤ _
                omega
            | inr hw => exact hlimits w hw

/-- **The frames of the calls are decoded** to what the calls were to send, by
any reader and however the stream is cut. -/
theorem frames_decoded {ts : List Turn} {frames : List (List UInt8)}
    (hframes : ts.map Turn.frame = frames.map some) (pongs : Pongs) {reader : WsClient}
    (hreader : reader.recvFails = false) {segs : Incoming} (hsegs : segs.flatten = frames.flatten) :
    (readerLoop pongs 0 reader segs).1.frames = ts.map Turn.content := by
  obtain ⟨ws, rfl, hcontents, hlimits⟩ := exists_wires hframes
  -- the client sends neither close frames nor pings
  have hopcode : ∀ w ∈ ws, w.frame.opcode ≠ 0x8 ∧ w.frame.opcode ≠ 0x9 := by
    intro w hw
    have hmem : w.frame ∈ ts.map Turn.content := hcontents ▸ List.mem_map_of_mem hw
    obtain ⟨t, -, heq⟩ := List.mem_map.mp hmem
    rw [← heq]
    cases hcall : t.call <;> simp [Turn.content, hcall, Call.opcode]
  have hkeep : ∀ k, ∀ w ∈ ws, (reader.answer pongs k w.frame).2.1 = reader := by
    intro k w hw
    rw [answer, if_neg (hopcode w hw).2]
  have hstream : segs.flatten = ws.flatMap WireFrame.bytes ++ [] := by
    rw [hsegs, List.append_nil, List.flatMap_def]
  have hloop := readerLoop_wires hreader pongs 0 hlimits hkeep Ending.eof hstream
  rw [hloop.1, received_eq_map fun w hw => (hopcode w hw).1, hcontents]

/-! ## the stream of a connection -/

/-- **Frame stream of a connection.**  The bytes written are one complete frame
for each call that returned true, in order, and then at most a part of the frame
of one call that returned false; a reader decodes the complete frames to the
opcodes and payloads of those calls.  Once a call that has a frame returns
false, every later call does and nothing more is written. -/
theorem written_frames (s : WsClient) (hopen : s.isOpen = true) (ts : List Turn) :
    (∃ (frames : List (List UInt8)) (torn : List UInt8),
      (s.succeeded ts).map Turn.frame = frames.map some ∧
      s.written ts = frames.flatten ++ torn ∧
      (torn = [] ∨ ∃ before t after, ts = before ++ t :: after ∧
        s.succeeded ts = s.succeeded before ∧
        ((final turn s before).perform t).1 = false ∧ Torn t torn) ∧
      ∀ (pongs : Pongs) (reader : WsClient) (segs : Incoming), reader.recvFails = false →
        segs.flatten = frames.flatten →
        (readerLoop pongs 0 reader segs).1.frames = (s.succeeded ts).map Turn.content) ∧
    ∀ before t after, ts = before ++ t :: after → t.call.payload.length ≤ 65535 →
      ((final turn s before).perform t).1 = false →
      (∀ r ∈ (final turn s (before ++ [t])).results after, r = false) ∧
        (final turn s (before ++ [t])).written after = [] := by
  constructor
  · cases run_split hopen ts with
    | inl hall =>
        obtain ⟨frames, hframes, hwritten⟩ := hall
        refine ⟨frames, [], hframes, ?_, .inl rfl, ?_⟩
        · rw [hwritten, List.append_nil]
        · intro pongs reader segs hreader hsegs
          exact frames_decoded hframes pongs hreader hsegs
    | inr hsplit =>
        obtain ⟨before, t, after, torn, rfl, hbefore, ⟨frames, hframes, hwritten⟩, htorn, ht⟩ :=
          hsplit
        obtain ⟨-, hnothing, hnone⟩ := run_closed (isOpen_closeFdUnlocked s) after
        have hstep : s.turn t = s.closeFdUnlocked := congrArg (fun r => r.2.2) ht
        have hsucceeded : s.succeeded (before ++ t :: after) = s.succeeded before := by
          unfold succeeded at hnone ⊢
          rw [collect_append, hbefore, collect_cons, hstep, hnone, ht]
          simp
        have hall : s.written (before ++ t :: after) = frames.flatten ++ torn := by
          unfold written at hwritten hnothing ⊢
          rw [collect_append, hbefore, collect_cons, hstep, hnothing, ht, hwritten,
            List.append_nil]
        rw [hsucceeded]
        refine ⟨frames, torn, hframes, hall, .inr ⟨before, t, after, rfl, rfl, ?_, htorn⟩, ?_⟩
        · rw [hbefore, ht]
        · intro pongs reader segs hreader hsegs
          exact frames_decoded hframes pongs hreader hsegs
  · intro before t after _ hlen hfalse
    have hclosed : (final turn s (before ++ [t])).isOpen = false := by
      rw [final_append, final_cons, final_nil]
      exact isOpen_turn_of_failed hlen hfalse
    obtain ⟨hresults, hnothing, -⟩ := run_closed hclosed after
    exact ⟨hresults, hnothing⟩

/-- A text whose frame is torn after three bytes. -/
def tornTurn : Turn where
  call := .sendText (str "hi")
  mask := fun _ => 7
  send := fun j => if j = 0 then 3 else -1

/-- A pong after the torn text writes nothing. -/
theorem written_frames_torn :
    (final turn { fd := 3, connected := true } [tornTurn]).written
      [⟨.pong [], fun _ => 0, fun _ => 100⟩] = [] :=
  ((written_frames { fd := 3, connected := true } rfl
    [tornTurn, ⟨.pong [], fun _ => 0, fun _ => 100⟩]).2 [] tornTurn _ rfl (by decide) (by
      simp [perform, tornTurn, sendText, sendFrameUnlocked, kInvalidFd, encodeFrame, lengthBytes,
        str, sendAll, sendFrom, applyMask])).2

end WsClient

end SipDemo
