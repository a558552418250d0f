import SipDemo.Bytes.BigEndian
import SipDemo.WsClient.Reading

/-!
# SipDemo.WsClient.Wire

The frames of the protocol on the wire, and what the reader makes of them.

A `WireFrame` is masked or not and states its length in one of three forms; the
client's own frames are of two of them (`encodeFrame_eq`).  The reader decodes
each of them (`readFrame_wire`), nothing from a part of one (`readFrame_part`),
and nothing from one that announces more than the limit (`readFrame_oversize`).
-/

namespace SipDemo

namespace WsClient

open Segments

/-! ## the mask -/

@[simp] theorem length_applyMask (mask : Mask) (data : List UInt8) :
    (applyMask mask data).length = data.length := by
  simp [applyMask]

/-- Masking twice is not masking. -/
@[simp] theorem applyMask_applyMask (mask : Mask) (data : List UInt8) :
    applyMask mask (applyMask mask data) = data := by
  unfold applyMask
  apply List.ext_getElem
  · simp
  · intro i _ _
    rw [List.getElem_mapIdx, List.getElem_mapIdx, UInt8.xor_assoc, UInt8.xor_self, UInt8.xor_zero]

/-! ## the length bytes -/

/-- Shifting a byte in does not overflow below 2^56. -/
theorem toNat_shift_or (n : UInt64) (b : UInt8) (h : n.toNat < 256 ^ 7) :
    ((n <<< 8) ||| b.toUInt64).toNat = n.toNat * 256 + b.toNat := by
  have hsmall : n.toNat <<< 8 < 2 ^ 64 := by
    rw [Nat.shiftLeft_eq]
    omega
  rw [UInt64.toNat_or, UInt64.toNat_shiftLeft, ← BigEndian.shiftLeft_or, UInt8.toNat_toUInt64]
  exact congrArg (· ||| b.toNat) (Nat.mod_eq_of_lt hsmall)

/-- The loop over the eight length bytes. -/
theorem toNat_foldl_shift_or (ext : List UInt8) (h : ext.length ≤ 8) :
    (ext.foldl (fun (n : UInt64) b => (n <<< 8) ||| b.toUInt64) 0).toNat =
      BigEndian.value ext := by
  induction ext using List.reverseRecOn with
  | nil => rfl
  | append_singleton l b ih =>
      rw [List.length_append, List.length_singleton] at h
      have hl := ih (by omega)
      have hsmall : BigEndian.value l < 256 ^ 7 :=
        (BigEndian.value_lt l).trans_le (Nat.pow_le_pow_right (by omega) (by omega))
      rw [List.foldl_append, List.foldl_cons, List.foldl_nil,
        toNat_shift_or _ _ (by rw [hl]; exact hsmall), hl, BigEndian.value_concat]

/-- The three ways a frame states its length: in seven bits, in 16 or in 64. -/
inductive LengthForm where
  | short | medium | long
  deriving DecidableEq, Repr

namespace LengthForm

/-- The lengths a form can state are those below its bound. -/
def bound : LengthForm → Nat
  | short => 126
  | medium => 256 ^ 2
  | long => 256 ^ 8

/-- The seven bits of the second byte. -/
def code : LengthForm → Nat → UInt8
  | short, n => UInt8.ofNat n
  | medium, _ => 126
  | long, _ => 127

/-- The length bytes after it. -/
def ext : LengthForm → Nat → List UInt8
  | short, _ => []
  | medium, n => BigEndian.bytes 2 n
  | long, n => BigEndian.bytes 8 n

end LengthForm

theorem flat_readExact_append {segs : Incoming} {len : Nat} {l tail : List UInt8}
    (h : segs.flatten = l ++ tail) (hlen : l.length = len) :
    flat (readExact false len segs) = some (l, tail) := by
  rw [flat_readExact, h, ← hlen, if_pos (by simp), List.take_left, List.drop_left]

/-- A part of a frame is read from the bytes `l` at the front of the stream. -/
theorem flat_readExact_map {γ : Type*} (f : List UInt8 → γ) {segs : Incoming} {len : Nat}
    {l tail : List UInt8} (h : segs.flatten = l ++ tail) (hlen : l.length = len) :
    flat ((readExact false len segs).map fun r => (f r.1, r.2)) = some (f l, tail) := by
  rw [flat_map, flat_readExact_append h hlen]
  rfl

theorem toUInt64_eq_ofNat {n : Nat} {x : UInt64} (h : x.toNat = n) : x = UInt64.ofNat n := by
  rw [← h, UInt64.ofNat_toNat]

/-- The length is read back from any of the three forms. -/
theorem readLength_wire (form : LengthForm) {n : Nat} (hn : n < form.bound) {segs : Incoming}
    {tail : List UInt8} (h : segs.flatten = form.ext n ++ tail) :
    flat (readLength false (form.code n) segs) = some (UInt64.ofNat n, tail) := by
  cases form with
  | short =>
      have hcode : (UInt8.ofNat n).toNat = n := by
        rw [UInt8.toNat_ofNat']
        exact Nat.mod_eq_of_lt (hn.trans (by decide))
      have hne (m : UInt8) (hm : 126 ≤ m.toNat) : LengthForm.short.code n ≠ m := by
        rintro rfl
        exact absurd hn (Nat.not_lt.mpr (hcode ▸ hm))
      have hlen : (LengthForm.short.code n).toUInt64 = UInt64.ofNat n :=
        toUInt64_eq_ofNat ((UInt8.toNat_toUInt64 _).trans hcode)
      rw [readLength, if_neg (hne 126 (by decide)), if_neg (hne 127 (by decide)), flat_some, h,
        hlen]
      rfl
  | medium =>
      have hlen := toNat_foldl_shift_or (BigEndian.bytes 2 n) (by simp)
      rw [BigEndian.value_bytes 2 n hn] at hlen
      have hext : (((BigEndian.bytes 2 n).getD 0 0).toUInt64 <<< (8 : UInt64)) |||
          ((BigEndian.bytes 2 n).getD 1 0).toUInt64 = UInt64.ofNat n := by
        apply toUInt64_eq_ofNat
        simpa [BigEndian.bytes] using hlen
      have hread := flat_readExact_map (fun ext => ((ext.getD 0 0).toUInt64 <<< (8 : UInt64)) |||
        (ext.getD 1 0).toUInt64) h (BigEndian.length_bytes 2 n)
      exact hread.trans (congrArg (fun len => some (len, tail)) hext)
  | long =>
      have hlen := toNat_foldl_shift_or (BigEndian.bytes 8 n) (by simp)
      rw [BigEndian.value_bytes 8 n hn] at hlen
      have hread := flat_readExact_map (fun ext => ext.foldl (fun (m : UInt64) b =>
        (m <<< 8) ||| b.toUInt64) 0) h (BigEndian.length_bytes 8 n)
      exact hread.trans (congrArg (fun len => some (len, tail)) (toUInt64_eq_ofNat hlen))

/-! ## headers -/

def maskBytes (mask : Option Mask) : List UInt8 :=
  match mask with
  | none => []
  | some mask => List.ofFn mask

/-- The mask bit and the seven length bits. -/
def second (mask : Option Mask) (form : LengthForm) (n : Nat) : UInt8 :=
  (if mask.isSome then 0x80 else 0) ||| form.code n

/-- The header of a frame that announces `n` bytes of payload. -/
def announce (first : UInt8) (mask : Option Mask) (form : LengthForm) (n : Nat) : List UInt8 :=
  first :: second mask form n :: form.ext n ++ maskBytes mask

theorem code_lt {form : LengthForm} {n : Nat} (hn : n < form.bound) : form.code n < 0x80 := by
  cases form with
  | short =>
      apply UInt8.lt_iff_toNat_lt.mpr
      rw [LengthForm.code, UInt8.toNat_ofNat', Nat.mod_eq_of_lt (hn.trans (by decide))]
      exact hn.trans (by decide)
  | medium => exact (by decide : (126 : UInt8) < 0x80)
  | long => exact (by decide : (127 : UInt8) < 0x80)

theorem second_fields (mask : Option Mask) {form : LengthForm} {n : Nat} (hn : n < form.bound) :
    second mask form n &&& 0x7f = form.code n ∧
      decide (second mask form n &&& 0x80 ≠ 0) = mask.isSome := by
  have hbits (masked : Bool) (b : UInt8) : b < 0x80 →
      ((if masked then 0x80 else 0) ||| b) &&& 0x7f = b ∧
        decide (((if masked then 0x80 else 0) ||| b) &&& 0x80 ≠ 0) = masked := by
    revert masked
    apply forall_byte _ b
    decide +kernel
  exact hbits mask.isSome (form.code n) (code_lt hn)

theorem readMask_wire (mask : Option Mask) {segs : Incoming} {tail : List UInt8}
    (h : segs.flatten = maskBytes mask ++ tail) :
    flat (readMask false mask.isSome segs) = some (mask, tail) := by
  cases mask with
  | none =>
      rw [readMask]
      exact congrArg (fun l => some (none, l)) h
  | some mask =>
      have hread := flat_readExact_map (fun l => (some fun i => l.getD i 0 : Option Mask)) h
        (List.length_ofFn)
      have hmask : (fun i : Fin 4 => (List.ofFn mask).getD i 0) = mask := by
        funext i
        rw [List.getD_eq_getElem _ _ (by simp), List.getElem_ofFn]
      exact hread.trans (congrArg (fun m => some (some m, tail)) hmask)

theorem readHeader_wire (first : UInt8) (mask : Option Mask) {form : LengthForm} {n : Nat}
    (hn : n < form.bound) {segs : Incoming} {tail : List UInt8}
    (h : segs.flatten = announce first mask form n ++ tail) :
    flat (readHeader false segs) =
      some ({ opcode := first &&& 0x0f, payloadLen := UInt64.ofNat n, mask }, tail) := by
  obtain ⟨hlen, hmasked⟩ := second_fields mask hn
  have hparts : segs.flatten =
      [first, second mask form n] ++ (form.ext n ++ (maskBytes mask ++ tail)) := by
    rw [h, announce, List.append_assoc]
    simp
  have htwo : flat (readExact false 2 segs) = some _ :=
    flat_readExact_append hparts rfl
  apply flat_bind htwo
  intro segs₁ h₁
  change flat ((readLength false (second mask form n &&& 0x7f) segs₁).bind _) = _
  rw [hlen]
  apply flat_bind (readLength_wire form hn h₁)
  intro segs₂ h₂
  change flat ((readMask false (decide (second mask form n &&& 0x80 ≠ 0)) segs₂).map _) = _
  rw [hmasked]
  obtain ⟨segs₃, hmask, rfl⟩ := exists_of_flat (readMask_wire mask h₂)
  rw [hmask]
  rfl

theorem toNat_payloadLen {form : LengthForm} {n : Nat} (hn : n < form.bound) :
    (UInt64.ofNat n).toNat = n := by
  have hbound : form.bound ≤ 2 ^ 64 := by cases form <;> decide
  rw [UInt64.toNat_ofNat']
  exact Nat.mod_eq_of_lt (hn.trans_le hbound)

/-- A round of the loop on a stream that starts with a header. -/
theorem readFrame_announce (first : UInt8) (mask : Option Mask) {form : LengthForm} {n : Nat}
    (hn : n < form.bound) {segs : Incoming} {tail : List UInt8}
    (h : segs.flatten = announce first mask form n ++ tail) :
    ∃ segs', segs'.flatten = tail ∧
      readFrame false segs =
        if 2 ^ 20 < n then (none, none)
        else (some n, readPayload false
          { opcode := first &&& 0x0f, payloadLen := UInt64.ofNat n, mask } segs') := by
  obtain ⟨segs', hhdr, hrest⟩ := exists_of_flat (readHeader_wire first mask hn h)
  have hlen := toNat_payloadLen hn
  have hlong : UInt64.ofNat n > 1 <<< (20 : UInt64) ↔ 2 ^ 20 < n := by
    rw [gt_iff_lt, UInt64.lt_iff_toNat_lt, hlen]
    rfl
  refine ⟨segs', hrest, ?_⟩
  rw [readFrame, hhdr]
  simp only [hlong, hlen]

/-! ## frames -/

/-- A frame of the protocol, its payload not masked. -/
structure WireFrame where
  first : UInt8
  mask : Option Mask
  form : LengthForm
  payload : List UInt8
  fits : payload.length < form.bound

namespace WireFrame

/-- The payload as it is sent. -/
def sent (w : WireFrame) : List UInt8 :=
  match w.mask with
  | none => w.payload
  | some mask => applyMask mask w.payload

def bytes (w : WireFrame) : List UInt8 :=
  announce w.first w.mask w.form w.payload.length ++ w.sent

theorem bytes_ne_nil (w : WireFrame) : w.bytes ≠ [] := List.cons_ne_nil _ _

/-- What the reader makes of it. -/
def frame (w : WireFrame) : Frame := { opcode := w.first &&& 0x0f, payload := w.payload }

theorem unmask_sent (w : WireFrame) : unmask w.mask w.sent = w.payload := by
  unfold sent
  cases w.mask with
  | none => rfl
  | some mask => exact applyMask_applyMask mask w.payload

@[simp] theorem length_sent (w : WireFrame) : w.sent.length = w.payload.length := by
  unfold sent
  split <;> simp

end WireFrame

theorem readPayload_wire (w : WireFrame) {segs : Incoming} {tail : List UInt8}
    (h : segs.flatten = w.sent ++ tail) :
    flat (readPayload false
      { opcode := w.first &&& 0x0f, payloadLen := UInt64.ofNat w.payload.length, mask := w.mask }
      segs) = some (w.frame, tail) := by
  have hlen : w.sent.length = (UInt64.ofNat w.payload.length).toNat := by
    rw [toNat_payloadLen w.fits, w.length_sent]
  have hread := flat_readExact_map (fun payload =>
    ({ opcode := w.first &&& 0x0f, payload := unmask w.mask payload } : Frame)) h hlen
  rw [w.unmask_sent] at hread
  exact hread

/-- **A frame that is not too long is decoded**, and no byte after it is read. -/
theorem readFrame_wire (w : WireFrame) (hlimit : w.payload.length ≤ 2 ^ 20) {segs : Incoming}
    {tail : List UInt8} (h : segs.flatten = w.bytes ++ tail) :
    ∃ rest, rest.flatten = tail ∧
      readFrame false segs = (some w.payload.length, some (w.frame, rest)) := by
  rw [WireFrame.bytes, List.append_assoc] at h
  obtain ⟨segs', hsegs', hframe⟩ := readFrame_announce w.first w.mask w.fits h
  obtain ⟨rest, hpayload, hrest⟩ := exists_of_flat (readPayload_wire w hsegs')
  rw [if_neg (Nat.not_lt.mpr hlimit), hpayload] at hframe
  exact ⟨rest, hrest, hframe⟩

/-- **Nothing is decoded, nor allocated, where too much is announced.** -/
theorem readFrame_oversize (first : UInt8) (mask : Option Mask) {form : LengthForm} {n : Nat}
    (hn : n < form.bound) (hlong : 2 ^ 20 < n) {segs : Incoming} {tail : List UInt8}
    (h : segs.flatten = announce first mask form n ++ tail) :
    readFrame false segs = (none, none) := by
  obtain ⟨segs', _, hframe⟩ := readFrame_announce first mask hn h
  rw [hframe, if_pos hlong]

/-- **Nothing is decoded from a part of a frame.** -/
theorem readFrame_part (w : WireFrame) {segs : Incoming} (hpart : segs.flatten <+: w.bytes)
    (hproper : segs.flatten ≠ w.bytes) : (readFrame false segs).2 = none := by
  by_contra hsome
  obtain ⟨⟨frame, rest⟩, hframe⟩ := Option.ne_none_iff_exists'.mp hsome
  obtain ⟨more, hmore⟩ := hpart
  -- what is read from a part is read from the whole frame too, and leaves bytes behind
  have hwhole : flat (readFrame false [w.bytes]).2 = some (frame, rest.flatten ++ more) := by
    apply stable_readFrame segs [w.bytes] more (by simp [hmore])
    exact congrArg flat hframe
  by_cases hlimit : w.payload.length ≤ 2 ^ 20
  · have hstream : [w.bytes].flatten = w.bytes ++ [] := by simp
    obtain ⟨left, hleft, hread⟩ := readFrame_wire w hlimit hstream
    rw [hread, flat_some, hleft] at hwhole
    have hnil := congrArg Prod.snd (Option.some.inj hwhole)
    obtain ⟨-, rfl⟩ := List.append_eq_nil_iff.mp hnil.symm
    exact hproper (by rw [← hmore, List.append_nil])
  · have hstream : [w.bytes].flatten =
        announce w.first w.mask w.form w.payload.length ++ w.sent := by simp [WireFrame.bytes]
    have hread := readFrame_oversize w.first w.mask w.fits (Nat.lt_of_not_le hlimit) hstream
    rw [hread] at hwhole
    cases hwhole

/-! ## streams of frames -/

/-- How a stream ends where no further frame is complete: at once, in the middle
of a frame, or in a frame that announces more than the limit. -/
inductive Ending : List UInt8 → Prop
  | eof : Ending []
  | truncated (w : WireFrame) {part : List UInt8} :
      part <+: w.bytes → part ≠ w.bytes → Ending part
  | oversize (first : UInt8) (mask : Option Mask) (form : LengthForm) (n : Nat)
      (rest : List UInt8) :
      n < form.bound → 2 ^ 20 < n → Ending (announce first mask form n ++ rest)

theorem Ending.readFrame {segs : Incoming} (h : Ending segs.flatten) :
    (readFrame false segs).2 = none := by
  generalize hstream : segs.flatten = stream at h
  cases h with
  | eof =>
      have w : WireFrame := ⟨0, none, .short, [], Nat.succ_pos _⟩
      apply readFrame_part w
      · rw [hstream]
        exact List.nil_prefix
      · rw [hstream]
        exact w.bytes_ne_nil.symm
  | truncated w hpart hproper =>
      subst hstream
      exact readFrame_part w hpart hproper
  | oversize first mask form n rest hn hlong =>
      rw [readFrame_oversize first mask hn hlong hstream]

/-- The frames of a stream up to the first close. -/
def received : List WireFrame → List Frame
  | [] => []
  | w :: ws => w.frame :: if w.frame.opcode = 0x8 then [] else received ws

theorem received_eq_map {ws : List WireFrame} (h : ∀ w ∈ ws, w.frame.opcode ≠ 0x8) :
    received ws = ws.map WireFrame.frame := by
  induction ws with
  | nil => rfl
  | cons w ws ih =>
      rw [received, if_neg (h w List.mem_cons_self), List.map_cons,
        ih fun w' hw' => h w' (List.mem_cons_of_mem w hw')]

/-- What the reader writes for them, the client staying as it is. -/
def replies (s : WsClient) (pongs : Pongs) : Nat → List Frame → List UInt8
  | _, [] => []
  | k, frame :: frames =>
      (s.answer pongs k frame).1 ++ s.replies pongs (s.answer pongs k frame).2.2 frames

/-- **The loop on a stream of frames**, when no answer closes the connection. -/
theorem readerLoop_wires {s : WsClient} (hs : s.recvFails = false) (pongs : Pongs) (k : Nat)
    {ws : List WireFrame} (hlimit : ∀ w ∈ ws, w.payload.length ≤ 2 ^ 20)
    (hkeep : ∀ k, ∀ w ∈ ws, (s.answer pongs k w.frame).2.1 = s) {tail : List UInt8}
    (hend : Ending tail) {segs : Incoming}
    (hsegs : segs.flatten = ws.flatMap WireFrame.bytes ++ tail) :
    (readerLoop pongs k s segs).1.frames = received ws ∧
      (readerLoop pongs k s segs).1.written = s.replies pongs k (received ws) ∧
      (readerLoop pongs k s segs).2 = s.closeFdUnlocked := by
  have hstop : s.readerStop = false := (Bool.or_eq_false_iff.mp hs).1
  induction ws generalizing k segs with
  | nil =>
      have hframe : (readFrame s.recvFails segs).2 = none := by
        rw [hs]
        exact Ending.readFrame (hsegs ▸ hend)
      rw [readerLoop_break hstop hframe]
      exact ⟨rfl, rfl, rfl⟩
  | cons w ws ih =>
      rw [List.flatMap_cons, List.append_assoc] at hsegs
      obtain ⟨rest, hrest, hread⟩ := readFrame_wire w (hlimit w List.mem_cons_self) hsegs
      have hframe : (readFrame s.recvFails segs).2 = some (w.frame, rest) := by rw [hs, hread]
      by_cases hclose : w.frame.opcode = 0x8
      · rw [readerLoop_close hstop hframe hclose, received, if_pos hclose]
        have hnone : s.replies pongs k [w.frame] = [] := by simp [replies, answer, hclose]
        exact ⟨rfl, hnone.symm, rfl⟩
      · have hanswer : s.answer pongs k w.frame =
            ((s.answer pongs k w.frame).1, s, (s.answer pongs k w.frame).2.2) :=
          Prod.ext rfl (Prod.ext (hkeep k w List.mem_cons_self) rfl)
        obtain ⟨hframes, hwritten, hlast⟩ := ih (s.answer pongs k w.frame).2.2
          (fun w' hw' => hlimit w' (List.mem_cons_of_mem w hw'))
          (fun k w' hw' => hkeep k w' (List.mem_cons_of_mem w hw')) hrest
        rw [readerLoop_frame hstop hframe hclose hanswer, received, if_neg hclose, replies]
        exact ⟨by rw [hframes], by rw [hwritten], hlast⟩

/-! ## the frames of the client -/

/-- The form the client states a length in. -/
def clientForm (n : Nat) : LengthForm := if n < 126 then .short else .medium

/-- A byte keeps the low eight bits only. -/
theorem ofNat_and_0xff (n : Nat) : UInt8.ofNat (n &&& 0xff) = UInt8.ofNat n := by
  apply UInt8.toNat_inj.mp
  rw [UInt8.toNat_ofNat', UInt8.toNat_ofNat', Nat.and_two_pow_sub_one_eq_mod n 8, Nat.mod_mod]

theorem lengthBytes_eq {n : Nat} (h : n < 256 ^ 2) (mask : Mask) :
    lengthBytes n = some (second (some mask) (clientForm n) n :: (clientForm n).ext n) := by
  by_cases hshort : n < 126
  · have hor : UInt8.ofNat (0x80 ||| n) = 0x80 ||| UInt8.ofNat n := by
      rw [UInt8.ofNat_or]
      rfl
    rw [lengthBytes, if_pos hshort, clientForm, if_pos hshort, hor]
    rfl
  · have hle : n ≤ 0xffff := by omega
    rw [lengthBytes, if_neg hshort, if_pos hle, clientForm, if_neg hshort, ofNat_and_0xff,
      ofNat_and_0xff, Nat.shiftRight_eq_div_pow]
    simp [second, LengthForm.code, LengthForm.ext, BigEndian.bytes]

/-- The client's frame, as a frame of the protocol. -/
def clientFrame (opcode : UInt8) (mask : Mask) (data : List UInt8) (h : data.length < 256 ^ 2) :
    WireFrame where
  first := 0x80 ||| (opcode &&& 0x0f)
  mask := some mask
  form := clientForm data.length
  payload := data
  fits := by
    unfold clientForm
    split
    · assumption
    · exact h

theorem bytes_clientFrame (opcode : UInt8) (mask : Mask) (data : List UInt8)
    (h : data.length < 256 ^ 2) :
    (clientFrame opcode mask data h).bytes =
      announce (0x80 ||| (opcode &&& 0x0f)) (some mask) (clientForm data.length) data.length ++
        applyMask mask data := rfl

/-- **What the client builds is a frame of the protocol.** -/
theorem encodeFrame_eq (opcode : UInt8) (mask : Mask) (data : List UInt8)
    (h : data.length < 256 ^ 2) :
    encodeFrame opcode mask data = some (clientFrame opcode mask data h).bytes := by
  rw [encodeFrame, lengthBytes_eq h mask, Option.map_some, bytes_clientFrame]
  simp [announce, maskBytes]

/-- It builds none for a payload that does not fit. -/
theorem encodeFrame_eq_none {opcode : UInt8} {mask : Mask} {data : List UInt8}
    (h : 256 ^ 2 ≤ data.length) : encodeFrame opcode mask data = none := by
  rw [encodeFrame, lengthBytes, if_neg (by omega), if_neg (by omega), Option.map_none]

theorem clientFrame_frame (opcode : UInt8) (mask : Mask) (data : List UInt8)
    (h : data.length < 256 ^ 2) (hop : opcode ≤ 0x0f) :
    (clientFrame opcode mask data h).frame = { opcode, payload := data } := by
  have hbits (b : UInt8) : b ≤ 0x0f → (0x80 ||| (b &&& 0x0f)) &&& 0x0f = b := by
    apply forall_byte _ b
    decide +kernel
  rw [WireFrame.frame]
  exact congrArg (fun op => ({ opcode := op, payload := data } : Frame)) (hbits opcode hop)

end WsClient

end SipDemo
