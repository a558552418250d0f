import SipDemo.Bytes
import SipDemo.Framing
import SipDemo.Segments

/-!
# SipDemo.WsClient

The WebSocket client of the speech gateway (`WsClient.cpp`): the upgrade
handshake, the frames it sends and the reader thread that answers pings.

The operating system is a parameter.  `::send` is a function from the number of
the call to what it returns; whatever that is, no more bytes are accepted than
were offered.  What the server sends is a byte stream cut into segments, which
`::recv` reads.  The random mask of a frame is a parameter too.  The mutex makes
`sendBinary`, `sendText` and the answer to a ping one step each.

A `::send` that fails returns here.  The source passes no flags to it, so where
the peer has reset the connection the system raises SIGPIPE first, and a process
that does not ignore it ends there: such a run is one that is cut short.
-/

namespace SipDemo

/-- `kInvalidFd`. -/
def kInvalidFd : Int := -1

structure WsClient where
  fd : Int := kInvalidFd
  connected : Bool := false
  url : Str := []
  readerStop : Bool := false
  deriving DecidableEq, Repr

/-- What the successive `::send` calls of one `sendAll` return. -/
abbrev SendResults := Nat → Int

/-- The four mask bytes. -/
abbrev Mask := Fin 4 → UInt8

/-- What has still to be received. -/
abbrev Incoming := List (List UInt8)

namespace WsClient

/-! ## URL and key -/

structure UrlParts where
  host : Str
  port : UInt16 := 80
  path : Str := str "/"
  deriving DecidableEq, Repr

def parseWsUrl (url : Str) : Option UrlParts :=
  if !(str "ws://").isPrefixOf url then none
  else
    let rest := url.drop (str "ws://").length
    let hostPort := rest.takeWhile fun c => c ≠ ch '/'
    let path := rest.dropWhile fun c => c ≠ ch '/'
    let path := if path = [] then str "/" else path
    let p : UrlParts :=
      if hostPort.contains (ch ':') && !hostPort.contains (ch ']') then
        { host := (hostPort.rdropWhile fun c => c ≠ ch ':').dropLast
          port := UInt16.ofInt (atoi (hostPort.rtakeWhile fun c => c ≠ ch ':'))
          path }
      else { host := hostPort, path }
    if p.host = [] ∨ p.port = 0 then none else some p

/-- The base64 alphabet. -/
def b64 : Str := str "ABCDEFGHIJKLMNOPQRSTUVWXYZabcdefghijklmnopqrstuvwxyz0123456789+/"

/-- `b64[(n >> shift) & 63]`. -/
def b64Digit (n : UInt32) (shift : UInt32) : UInt8 := b64.getD ((n >>> shift) &&& 63).toNat 0

/-- `randomWsKey`, of the 16 bytes drawn: five groups of three and one byte left. -/
def randomWsKey (raw : Fin 16 → UInt8) : Str :=
  let byte (i : Nat) : UInt32 := (raw (Fin.ofNat 16 i)).toUInt32
  let groups := (List.range 5).flatMap fun g =>
    let n := (byte (3 * g) <<< 16) ||| (byte (3 * g + 1) <<< 8) ||| byte (3 * g + 2)
    [b64Digit n 18, b64Digit n 12, b64Digit n 6, b64Digit n 0]
  let n := byte 15 <<< 16
  groups ++ [b64Digit n 18, b64Digit n 12, ch '=', ch '=']

/-! ## sending -/

/-- The loop of `sendAll` from the `j`-th call on: whether everything was sent,
and the bytes that were.  A call that fails returns; SIGPIPE is not raised. -/
def sendFrom (send : SendResults) (j : Nat) (data : List UInt8) : Bool × List UInt8 :=
  match data with
  | [] => (true, [])
  | b :: rest =>
      if send j ≤ 0 then (false, [])
      else
        let n := min (send j).toNat (rest.length + 1)
        let (ok, sent) := sendFrom send (j + 1) ((b :: rest).drop n)
        (ok, (b :: rest).take n ++ sent)
termination_by data.length
decreasing_by
  simp only [List.length_drop, List.length_cons]
  omega

def sendAll (send : SendResults) (data : List UInt8) : Bool × List UInt8 := sendFrom send 0 data

def closeFdUnlocked (s : WsClient) : WsClient := { s with fd := kInvalidFd, connected := false }

/-- `data[i] ^ mask[i % 4]` at every index. -/
def applyMask (mask : Mask) (data : List UInt8) : List UInt8 :=
  data.mapIdx fun i b => b ^^^ mask (Fin.ofNat 4 i)

/-- The length bytes of a client frame, with the mask bit; none above 65535. -/
def lengthBytes (len : Nat) : Option (List UInt8) :=
  if len < 126 then some [UInt8.ofNat (0x80 ||| len)]
  else if len ≤ 0xffff then
    some [0x80 ||| 126, UInt8.ofNat ((len >>> 8) &&& 0xff), UInt8.ofNat (len &&& 0xff)]
  else none

/-- The frame that `sendFrameUnlocked` builds. -/
def encodeFrame (opcode : UInt8) (mask : Mask) (data : List UInt8) : Option (List UInt8) :=
  (lengthBytes data.length).map fun len =>
    (0x80 ||| (opcode &&& 0x0f)) :: len ++ List.ofFn mask ++ applyMask mask data

/-- What it returns, the bytes it writes to the socket, and the client after it. -/
def sendFrameUnlocked (s : WsClient) (mask : Mask) (send : SendResults) (opcode : UInt8)
    (data : List UInt8) : Bool × List UInt8 × WsClient :=
  if !s.connected || s.fd = kInvalidFd then (false, [], s)
  else
    match encodeFrame opcode mask data with
    | none => (false, [], s)
    | some bytes =>
        match sendAll send bytes with
        | (true, sent) => (true, sent, s)
        | (false, sent) => (false, sent, s.closeFdUnlocked)

def sendBinary (s : WsClient) (mask : Mask) (send : SendResults) (data : List UInt8) :
    Bool × List UInt8 × WsClient := s.sendFrameUnlocked mask send 0x2 data

def sendText (s : WsClient) (mask : Mask) (send : SendResults) (text : Str) :
    Bool × List UInt8 × WsClient := s.sendFrameUnlocked mask send 0x1 text

/-- The reader's answer to a ping. -/
def pong (s : WsClient) (mask : Mask) (send : SendResults) (payload : List UInt8) :
    Bool × List UInt8 × WsClient :=
  if s.connected then s.sendFrameUnlocked mask send 0xA payload else (false, [], s)

/-! ## receiving -/

/-- Whether `::recv` is called no more, or fails: the reader has been stopped, or
its descriptor closed by a send that failed. -/
def recvFails (s : WsClient) : Bool := s.readerStop || s.fd = kInvalidFd

/-- `readExact`: `len` bytes, or none when the stream ends before or the reader
can receive nothing; the caller then gives up. -/
def readExact (stop : Bool) (len : Nat) (segs : Incoming) : Option (List UInt8 × Incoming) :=
  match len with
  | 0 => some ([], segs)
  | len + 1 =>
      if stop then none
      else
        match Segments.recv (len + 1) segs with
        | ([], _) => none
        | (b :: got, segs) =>
            (readExact stop (len - got.length) segs).map fun r => (b :: got ++ r.1, r.2)
termination_by len

/-- The first two bytes of a frame, the length and the mask. -/
structure FrameHeader where
  opcode : UInt8
  payloadLen : UInt64
  mask : Option Mask

/-- `payloadLen`: seven bits, or the 16 or 64 bits after them. -/
def readLength (stop : Bool) (short : UInt8) (segs : Incoming) : Option (UInt64 × Incoming) :=
  if short = 126 then
    (readExact stop 2 segs).map fun (ext, segs) =>
      (((ext.getD 0 0).toUInt64 <<< (8 : UInt64)) ||| (ext.getD 1 0).toUInt64, segs)
  else if short = 127 then
    (readExact stop 8 segs).map fun (ext, segs) =>
      (ext.foldl (fun n b => (n <<< 8) ||| b.toUInt64) 0, segs)
  else some (short.toUInt64, segs)

def readMask (stop : Bool) (masked : Bool) (segs : Incoming) : Option (Option Mask × Incoming) :=
  if masked then (readExact stop 4 segs).map fun (mask, segs) => (some fun i => mask.getD i 0, segs)
  else some (none, segs)

def readHeader (stop : Bool) (segs : Incoming) : Option (FrameHeader × Incoming) :=
  (readExact stop 2 segs).bind fun (hdr, segs) =>
    (readLength stop (hdr.getD 1 0 &&& 0x7f) segs).bind fun (payloadLen, segs) =>
      (readMask stop (hdr.getD 1 0 &&& 0x80 ≠ 0) segs).map fun (mask, segs) =>
        ({ opcode := hdr.getD 0 0 &&& 0x0f, payloadLen, mask }, segs)

/-- A received frame, unmasked. -/
structure Frame where
  opcode : UInt8
  payload : List UInt8
  deriving DecidableEq, Repr

/-- The payload, its mask taken off when the frame is masked. -/
def unmask (mask : Option Mask) (payload : List UInt8) : List UInt8 :=
  match mask with
  | some mask => applyMask mask payload
  | none => payload

/-- The payload of a frame that is not too long. -/
def readPayload (stop : Bool) (hdr : FrameHeader) (segs : Incoming) : Option (Frame × Incoming) :=
  (readExact stop hdr.payloadLen.toNat segs).map fun (payload, segs) =>
    ({ opcode := hdr.opcode, payload := unmask hdr.mask payload }, segs)

/-- One round of the loop, up to the frame: the size of the payload vector, if
one is allocated, and the frame with what is left, unless the loop breaks. -/
def readFrame (stop : Bool) (segs : Incoming) : Option Nat × Option (Frame × Incoming) :=
  match readHeader stop segs with
  | none => (none, none)
  | some (hdr, segs) =>
      if hdr.payloadLen > 1 <<< (20 : UInt64) then (none, none)
      else (some hdr.payloadLen.toNat, readPayload stop hdr segs)

/-- What was read is the front of the stream, of the length asked for. -/
theorem readExact_eq_some {stop : Bool} {len : Nat} {segs rest : Incoming} {bytes : List UInt8}
    (h : readExact stop len segs = some (bytes, rest)) :
    segs.flatten = bytes ++ rest.flatten ∧ bytes.length = len := by
  fun_induction readExact stop len segs generalizing bytes rest with
  | case1 segs =>
      cases h
      exact ⟨rfl, rfl⟩
  | case2 segs len hstop => cases h
  | case3 segs len hstop segs' hrecv => cases h
  | case4 segs len hstop b got segs' hrecv ih =>
      obtain ⟨⟨more, left⟩, hmore, heq⟩ := Option.map_eq_some_iff.mp h
      obtain ⟨rfl, rfl⟩ := Prod.mk.injEq _ _ _ _ ▸ heq
      obtain ⟨hstream, hlen⟩ := ih hmore
      have hfront := Segments.recv_append (len + 1) segs
      have hbound := Segments.length_recv_le (len + 1) segs
      rw [hrecv] at hfront hbound
      constructor
      · rw [← hfront, hstream, List.append_assoc]
      · rw [List.length_append, hlen]
        rw [List.length_cons] at hbound ⊢
        omega

/-- A part of a frame that is `n` bytes takes `n` bytes off the stream. -/
theorem map_readExact_shrinks {γ : Type*} {f : List UInt8 × Incoming → γ × Incoming}
    {stop : Bool} {n : Nat} {segs rest : Incoming} {x : γ}
    (h : (readExact stop n segs).map f = some (x, rest)) (hf : ∀ r, (f r).2 = r.2) :
    rest.flatten.length + n = segs.flatten.length := by
  obtain ⟨⟨bytes, left⟩, hread, heq⟩ := Option.map_eq_some_iff.mp h
  obtain ⟨hstream, rfl⟩ := readExact_eq_some hread
  obtain rfl : left = rest := (hf (bytes, left)).symm.trans (congrArg Prod.snd heq)
  rw [hstream, List.length_append, Nat.add_comm]

theorem readLength_shrinks {stop : Bool} {short : UInt8} {segs rest : Incoming} {len : UInt64}
    (h : readLength stop short segs = some (len, rest)) :
    rest.flatten.length ≤ segs.flatten.length := by
  unfold readLength at h
  split at h
  · have hread := map_readExact_shrinks h fun _ => rfl
    omega
  · split at h
    · have hread := map_readExact_shrinks h fun _ => rfl
      omega
    · cases h
      exact Nat.le_refl _

theorem readMask_shrinks {stop masked : Bool} {segs rest : Incoming} {mask : Option Mask}
    (h : readMask stop masked segs = some (mask, rest)) :
    rest.flatten.length ≤ segs.flatten.length := by
  unfold readMask at h
  split at h
  · have hread := map_readExact_shrinks h fun _ => rfl
    omega
  · cases h
    exact Nat.le_refl _

theorem readHeader_shrinks {stop : Bool} {segs rest : Incoming} {hdr : FrameHeader}
    (h : readHeader stop segs = some (hdr, rest)) :
    rest.flatten.length + 2 ≤ segs.flatten.length := by
  obtain ⟨⟨two, segs₁⟩, htwo, h⟩ := Option.bind_eq_some_iff.mp h
  obtain ⟨⟨len, segs₂⟩, hlen, h⟩ := Option.bind_eq_some_iff.mp h
  obtain ⟨⟨mask, segs₃⟩, hmask, heq⟩ := Option.map_eq_some_iff.mp h
  obtain ⟨hstream, htwolen⟩ := readExact_eq_some htwo
  have hafter : segs₂.flatten.length ≤ segs₁.flatten.length := readLength_shrinks hlen
  have hlast : segs₃.flatten.length ≤ segs₂.flatten.length := readMask_shrinks hmask
  obtain rfl : segs₃ = rest := congrArg Prod.snd heq
  rw [hstream, List.length_append, htwolen]
  change segs₃.flatten.length + 2 ≤ 2 + segs₁.flatten.length
  omega

/-- Every frame takes bytes off the stream. -/
theorem readFrame_shrinks {stop : Bool} {segs rest : Incoming} {frame : Frame}
    (h : (readFrame stop segs).2 = some (frame, rest)) :
    rest.flatten.length < segs.flatten.length := by
  unfold readFrame at h
  split at h
  · cases h
  · next hdr segs₁ hhdr =>
      have hheader := readHeader_shrinks hhdr
      split at h
      · cases h
      · change readPayload stop hdr segs₁ = some (frame, rest) at h
        have hpayload := map_readExact_shrinks h fun _ => rfl
        omega

/-- What the reader thread does with a connection: the frames it decodes, the
sizes of the payload vectors it allocates, and the bytes it writes. -/
structure ReaderLog where
  frames : List Frame := []
  allocated : List Nat := []
  written : List UInt8 := []
  deriving DecidableEq, Repr

/-- The mask and the `::send` results of the `k`-th answer to a ping. -/
abbrev Pongs := Nat → Mask × SendResults

/-- What the reader does with a frame other than close: the bytes it writes, the
client after it, and the number of the next answer. -/
def answer (s : WsClient) (pongs : Pongs) (k : Nat) (frame : Frame) :
    List UInt8 × WsClient × Nat :=
  if frame.opcode = 0x9 then
    let r := s.pong (pongs k).1 (pongs k).2 frame.payload
    (r.2.1, r.2.2, k + 1)
  else ([], s, k)

/-- `readerLoop`, from the `k`-th answer on. -/
def readerLoop (pongs : Pongs) (k : Nat) (s : WsClient) (segs : Incoming) :
    ReaderLog × WsClient :=
  if s.readerStop then ({}, s.closeFdUnlocked)
  else
    match _h : (readFrame s.recvFails segs).2 with
    | none => ({ allocated := (readFrame s.recvFails segs).1.toList }, s.closeFdUnlocked)
    | some (frame, rest) =>
        if frame.opcode = 0x8 then
          ({ frames := [frame], allocated := (readFrame s.recvFails segs).1.toList },
            s.closeFdUnlocked)
        else
          let a := s.answer pongs k frame
          let r := readerLoop pongs a.2.2 a.2.1 rest
          ({ frames := frame :: r.1.frames
             allocated := (readFrame s.recvFails segs).1.toList ++ r.1.allocated
             written := a.1 ++ r.1.written }, r.2)
termination_by segs.flatten.length
decreasing_by exact readFrame_shrinks _h

/-! ## the connection -/

/-- What the operating system does during `connect`, and the random bytes of
the key. -/
structure Network where
  resolves : Str → UInt16 → Bool
  socket : Int
  connects : Bool
  key : Fin 16 → UInt8
  send : SendResults
  incoming : Incoming

/-- The upgrade request. -/
def upgradeRequest (parts : UrlParts) (key : Str) : Str :=
  str "GET " ++ parts.path ++ str " HTTP/1.1" ++ crlf ++
  str "Host: " ++ parts.host ++ str ":" ++ natStr parts.port.toNat ++ crlf ++
  str "Upgrade: websocket" ++ crlf ++
  str "Connection: Upgrade" ++ crlf ++
  str "Sec-WebSocket-Key: " ++ key ++ crlf ++
  str "Sec-WebSocket-Version: 13" ++ crlf ++
  crlf

/-- The loop that receives the upgrade response, up to its empty line. -/
def readResponse (resp : Str) (segs : Incoming) : Option (Str × Incoming) :=
  if (find (crlf ++ crlf) resp).isSome then some (resp, segs)
  else
    match Segments.recv 1024 segs with
    | ([], _) => none
    | (b :: got, segs) =>
        if _hlong : 8192 < (resp ++ b :: got).length then none
        else readResponse (resp ++ b :: got) segs
termination_by 8193 - resp.length
decreasing_by
  rw [List.length_append, List.length_cons] at *
  omega

/-- What `connect` returns, the bytes it writes, the client after it, and what is
left for the reader to receive. -/
def connect (s : WsClient) (net : Network) (url : Str) :
    Bool × List UInt8 × WsClient × Incoming :=
  let s := { s.closeFdUnlocked with readerStop := false }
  match parseWsUrl url with
  | none => (false, [], s, net.incoming)
  | some parts =>
      if !net.resolves parts.host parts.port || net.socket = kInvalidFd || !net.connects then
        (false, [], s, net.incoming)
      else
        match sendAll net.send (upgradeRequest parts (randomWsKey net.key)) with
        | (false, sent) => (false, sent, s, net.incoming)
        | (true, sent) =>
            match readResponse [] net.incoming with
            | none => (false, sent, s, net.incoming)
            | some (resp, incoming) =>
                if (find (str "101") resp).isNone then (false, sent, s, incoming)
                else (true, sent, { s with fd := net.socket, url, connected := true }, incoming)

end WsClient

end SipDemo
