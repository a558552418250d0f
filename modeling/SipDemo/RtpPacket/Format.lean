import SipDemo.RtpPacket.RoundTrip
import Mathlib.Logic.Function.Basic

/-!
# SipDemo.RtpPacket.Format

The format of an RTP datagram, and that `parse` accepts exactly it.

A datagram is `fixed ++ csrc ++ extension ++ payload ++ padding`: the 12 bytes
of the fixed header, the CSRC list, the header extension, what the packet
carries and the padding.  `Layout` is such a cut together with the lengths its
own bytes announce, so that a datagram has one layout at most and
`Layout.packet` is what it means.

The second half is about memory: `parseAt` is `parse` with every read of the
datagram checked against its length.
-/

namespace SipDemo

namespace RtpPacket

/-! ## the format -/

def versionBits (b : UInt8) : UInt8 := (b >>> 6) &&& 0x03

def paddingBit (b : UInt8) : Bool := (b >>> 5) &&& 0x01 ≠ 0

def extensionBit (b : UInt8) : Bool := (b >>> 4) &&& 0x01 ≠ 0

def countBits (b : UInt8) : Nat := (b &&& 0x0f).toNat

def markerBit (b : UInt8) : Bool := (b >>> 7) &&& 0x01 ≠ 0

/-- A datagram in its five parts. -/
structure Layout where
  fixed : List UInt8
  csrc : List UInt8
  extension : List UInt8
  payload : List UInt8
  padding : List UInt8
  length_fixed : fixed.length = 12
  version_eq : versionBits (fixed.headD 0) = 2
  length_csrc : csrc.length = 4 * countBits (fixed.headD 0)
  /-- The extension counts its words in its bytes 2 and 3. -/
  length_extension : extension.length = if extensionBit (fixed.headD 0)
    then 4 + 4 * BigEndian.value ((extension.drop 2).take 2) else 0
  /-- The padding counts its bytes in the last byte of the datagram. -/
  length_padding : padding.length = if paddingBit (fixed.headD 0)
    then ((fixed ++ csrc ++ extension ++ payload ++ padding).getLastD 0).toNat else 0
  padding_ne_nil : paddingBit (fixed.headD 0) = true → padding ≠ []

namespace Layout

def bytes (s : Layout) : List UInt8 :=
  s.fixed ++ s.csrc ++ s.extension ++ s.payload ++ s.padding

/-- The big-endian number in the `n` bytes of a part from offset `i`. -/
def field (part : List UInt8) (i n : Nat) : Nat := BigEndian.value ((part.drop i).take n)

/-- What a datagram means. -/
def packet (s : Layout) : RtpPacket where
  version := 2
  padding := paddingBit (s.fixed.headD 0)
  extension := extensionBit (s.fixed.headD 0)
  marker := markerBit (s.fixed.getD 1 0)
  payloadType := s.fixed.getD 1 0 &&& 0x7f
  sequence := UInt16.ofNat (field s.fixed 2 2)
  timestamp := UInt32.ofNat (field s.fixed 4 4)
  ssrc := UInt32.ofNat (field s.fixed 8 4)
  csrc := (List.range (countBits (s.fixed.headD 0))).map fun i =>
    UInt32.ofNat (field s.csrc (4 * i) 4)
  payload := s.payload

end Layout

/-! ## where the parts lie -/

theorem payloadStart_iff {data : Nat → UInt8} {len cc offset : Nat} {extension : Bool} :
    payloadStart data len cc extension = some offset ↔ offset ≤ len ∧
      offset = 12 + cc * 4 +
        if extension then 4 + (rd16 data (12 + cc * 4 + 2)).toNat * 4 else 0 := by
  unfold payloadStart
  grind

theorem payloadEnd_iff {data : Nat → UInt8} {len offset stop : Nat} {padding : Bool} :
    payloadEnd data len offset padding = some stop ↔
      if padding then (data (len - 1)).toNat ≠ 0 ∧ (data (len - 1)).toNat ≤ len - offset ∧
        stop = len - (data (len - 1)).toNat else stop = len := by
  unfold payloadEnd
  grind

/-! ## windows of a window -/

theorem window_window {data : Nat → UInt8} {start i n m : Nat} (h : i + n ≤ m) :
    ((window data start m).drop i).take n = window data (start + i) n := by
  obtain ⟨k, rfl⟩ := Nat.exists_eq_add_of_le h
  rw [window_add, window_add, List.append_assoc,
    List.drop_left' (length_window data start i), List.take_left' (length_window ..)]

theorem rd16_eq_field {data : Nat → UInt8} {start i m : Nat} (h : i + 2 ≤ m) :
    rd16 data (start + i) = UInt16.ofNat (Layout.field (window data start m) i 2) := by
  rw [Layout.field, window_window h, ← rd16_toNat, UInt16.ofNat_toNat]

theorem rd32_eq_field {data : Nat → UInt8} {start i m : Nat} (h : i + 4 ≤ m) :
    rd32 data (start + i) = UInt32.ofNat (Layout.field (window data start m) i 4) := by
  rw [Layout.field, window_window h, ← rd32_toNat, UInt32.ofNat_toNat]

namespace Layout

variable (s : Layout)

/-! ## every layout is read -/

theorem length_bytes : s.bytes.length =
    12 + s.csrc.length + s.extension.length + s.payload.length + s.padding.length := by
  simp [bytes, s.length_fixed, Nat.add_assoc]

theorem window_fixed : window (bytesOf s.bytes) 0 12 = s.fixed := by
  have h := window_middle [] s.fixed (s.csrc ++ s.extension ++ s.payload ++ s.padding)
  simpa [bytes, s.length_fixed] using h

theorem window_csrc : window (bytesOf s.bytes) 12 s.csrc.length = s.csrc := by
  have h := window_middle s.fixed s.csrc (s.extension ++ s.payload ++ s.padding)
  simpa [bytes, s.length_fixed] using h

theorem window_extension :
    window (bytesOf s.bytes) (12 + s.csrc.length) s.extension.length = s.extension := by
  have h := window_middle (s.fixed ++ s.csrc) s.extension (s.payload ++ s.padding)
  simpa [bytes, s.length_fixed] using h

theorem window_payload :
    window (bytesOf s.bytes) (12 + s.csrc.length + s.extension.length) s.payload.length =
      s.payload := by
  have h := window_middle (s.fixed ++ s.csrc ++ s.extension) s.payload s.padding
  simpa [bytes, s.length_fixed, Nat.add_assoc] using h

theorem bytes_zero : bytesOf s.bytes 0 = s.fixed.headD 0 := by
  rw [← s.window_fixed]
  rfl

theorem bytes_one : bytesOf s.bytes 1 = s.fixed.getD 1 0 := by
  rw [← s.window_fixed]
  rfl

theorem bytes_last : bytesOf s.bytes (s.bytes.length - 1) = s.bytes.getLastD 0 := by
  rw [bytesOf, List.getD_eq_getElem?_getD, List.getLastD_eq_getLast?, List.getLast?_eq_getElem?]

theorem csrcCount_bytes : csrcCount (bytesOf s.bytes) * 4 = s.csrc.length := by
  rw [csrcCount, s.bytes_zero, s.length_csrc, countBits, Nat.mul_comm]

theorem payloadStart_bytes :
    payloadStart (bytesOf s.bytes) s.bytes.length (csrcCount (bytesOf s.bytes))
      (extensionBit (s.fixed.headD 0)) = some (12 + s.csrc.length + s.extension.length) := by
  have hlen := s.length_bytes
  have hext := s.length_extension
  rw [payloadStart_iff, s.csrcCount_bytes]
  refine ⟨by omega, ?_⟩
  cases hbit : extensionBit (s.fixed.headD 0) with
  | false =>
      rw [hbit, if_neg Bool.false_ne_true] at hext
      rw [if_neg Bool.false_ne_true, hext]
  | true =>
      rw [hbit, if_pos rfl] at hext
      have hwords : (rd16 (bytesOf s.bytes) (12 + s.csrc.length + 2)).toNat =
          BigEndian.value ((s.extension.drop 2).take 2) := by
        conv_rhs => rw [← s.window_extension, window_window (by omega)]
        exact rd16_toNat _ _
      rw [if_pos rfl, hwords, Nat.mul_comm, ← hext]

theorem payloadEnd_bytes :
    payloadEnd (bytesOf s.bytes) s.bytes.length (12 + s.csrc.length + s.extension.length)
      (paddingBit (s.fixed.headD 0)) =
        some (12 + s.csrc.length + s.extension.length + s.payload.length) := by
  have hlen := s.length_bytes
  have hpad := s.length_padding
  have hne := s.padding_ne_nil
  rw [payloadEnd_iff, s.bytes_last]
  cases hbit : paddingBit (s.fixed.headD 0) with
  | false =>
      rw [hbit, if_neg Bool.false_ne_true] at hpad
      rw [if_neg Bool.false_ne_true]
      omega
  | true =>
      rw [hbit, if_pos rfl] at hpad
      have hpos : 0 < s.padding.length := List.length_pos_iff.mpr (hne hbit)
      have hlast : (s.bytes.getLastD 0).toNat = s.padding.length := hpad.symm
      rw [if_pos rfl, hlast]
      omega

theorem decoded_bytes :
    decoded (bytesOf s.bytes) (12 + s.csrc.length + s.extension.length)
      (12 + s.csrc.length + s.extension.length + s.payload.length) = s.packet := by
  have hsequence := @rd16_eq_field (bytesOf s.bytes) 0 2 12 (by omega)
  have htimestamp := @rd32_eq_field (bytesOf s.bytes) 0 4 12 (by omega)
  have hssrc := @rd32_eq_field (bytesOf s.bytes) 0 8 12 (by omega)
  rw [s.window_fixed] at hsequence htimestamp hssrc
  have hcsrc : ((List.range (csrcCount (bytesOf s.bytes))).map fun i =>
      rd32 (bytesOf s.bytes) (12 + i * 4)) = s.packet.csrc := by
    have hcount := s.csrcCount_bytes
    unfold packet
    rw [← s.bytes_zero]
    apply List.map_congr_left
    intro i hi
    rw [List.mem_range] at hi
    rw [rd32_eq_field (m := s.csrc.length) (by omega), s.window_csrc, Nat.mul_comm i]
  unfold decoded
  rw [hcsrc, Nat.add_sub_cancel_left, s.window_payload, s.bytes_one, s.bytes_zero]
  unfold packet
  congr 1
  exact s.version_eq

theorem parse_bytes : parseBuf s.bytes = some s.packet := by
  have hlen := s.length_bytes
  have hversion := s.version_eq
  have hstart := s.payloadStart_bytes
  have hstop := s.payloadEnd_bytes
  rw [← s.bytes_zero] at hversion hstart hstop
  exact parse_eq_some_iff.mpr ⟨by omega, hversion, _, _, hstart, hstop, s.decoded_bytes⟩

/-! ## a datagram has one layout -/

/-- The bytes say where the parts end. -/
theorem bytes_injective : Function.Injective Layout.bytes := by
  intro s t h
  have hstart := s.payloadStart_bytes
  have hstop := s.payloadEnd_bytes
  have hcsrc := s.csrcCount_bytes
  rw [← s.bytes_zero, h] at hstart hstop
  rw [h] at hcsrc
  rw [t.bytes_zero, t.payloadStart_bytes, Option.some.injEq] at hstart
  have hcsrc : t.csrc.length = s.csrc.length := by rw [← t.csrcCount_bytes, hcsrc]
  have hextension : t.extension.length = s.extension.length := by omega
  rw [t.bytes_zero, ← hcsrc, ← hextension, t.payloadEnd_bytes, Option.some.injEq] at hstop
  have hpayload : t.payload.length = s.payload.length := by omega
  simp only [bytes, List.append_assoc] at h
  obtain ⟨hfixed, h⟩ := List.append_inj h (by rw [s.length_fixed, t.length_fixed])
  obtain ⟨hcsrc, h⟩ := List.append_inj h hcsrc.symm
  obtain ⟨hextension, h⟩ := List.append_inj h hextension.symm
  obtain ⟨hpayload, hpadding⟩ := List.append_inj h hpayload.symm
  cases s
  cases t
  simp_all

end Layout

/-! ## what `parse` accepts has a layout -/

/-- The windows at the offsets that `parse` computes are a whole datagram. -/
theorem windows_eq {d : List UInt8} {a offset stop : Nat} (ha : 12 + a ≤ offset)
    (hoffset : offset ≤ stop) (hstop : stop ≤ d.length) :
    window (bytesOf d) 0 12 ++ window (bytesOf d) 12 a ++
      window (bytesOf d) (12 + a) (offset - (12 + a)) ++
      window (bytesOf d) offset (stop - offset) ++
      window (bytesOf d) stop (d.length - stop) = d := by
  conv_rhs => rw [← window_whole d,
    show d.length = 12 + a + (offset - (12 + a)) + (stop - offset) + (d.length - stop) by omega]
  rw [window_add, window_add, window_add, window_add, Nat.zero_add, Nat.zero_add, Nat.zero_add,
    Nat.zero_add, Nat.add_sub_cancel' ha, Nat.add_sub_cancel' hoffset]

/-- The window of the extension has the length that it announces. -/
theorem length_extensionWindow {data : Nat → UInt8} {len cc offset : Nat} {extension : Bool}
    (h : payloadStart data len cc extension = some offset) :
    (window data (12 + cc * 4) (offset - (12 + cc * 4))).length =
      if extension then 4 + 4 * BigEndian.value
        (((window data (12 + cc * 4) (offset - (12 + cc * 4))).drop 2).take 2) else 0 := by
  rw [payloadStart_iff] at h
  rw [length_window]
  cases extension with
  | false =>
      rw [if_neg Bool.false_ne_true] at h ⊢
      omega
  | true =>
      rw [if_pos rfl] at h
      rw [if_pos rfl, window_window (by omega), ← rd16_toNat]
      omega

/-- The window of the padding has the length in its last byte, which is not 0. -/
theorem length_paddingWindow {data : Nat → UInt8} {len offset stop : Nat} {padding : Bool}
    (h : payloadEnd data len offset padding = some stop) :
    (window data stop (len - stop)).length = (if padding then (data (len - 1)).toNat else 0) ∧
      (padding = true → window data stop (len - stop) ≠ []) := by
  rw [payloadEnd_iff] at h
  rw [length_window]
  cases padding with
  | false =>
      rw [if_neg Bool.false_ne_true] at h ⊢
      exact ⟨by omega, fun h => absurd h Bool.false_ne_true⟩
  | true =>
      rw [if_pos rfl] at h
      rw [if_pos rfl]
      refine ⟨by omega, fun _ => List.ne_nil_of_length_pos ?_⟩
      rw [length_window]
      omega

theorem exists_layout {d : List UInt8} {p : RtpPacket} (h : parseBuf d = some p) :
    ∃ s : Layout, s.bytes = d := by
  change parse (bytesOf d) d.length = some p at h
  obtain ⟨hlen, hversion, offset, stop, hstart, hstop, -⟩ := parse_eq_some_iff.mp h
  have hoffset := payloadStart_bounds hstart
  have hend := payloadEnd_bounds hoffset.2 hstop
  have hcut := windows_eq (d := d) (a := csrcCount (bytesOf d) * 4) (by omega) hend.1
    (by omega)
  have hhead : (window (bytesOf d) 0 12).headD 0 = bytesOf d 0 := rfl
  have hlast : d.getLastD 0 = bytesOf d (d.length - 1) := by
    rw [bytesOf, List.getD_eq_getElem?_getD, List.getLastD_eq_getLast?,
      List.getLast?_eq_getElem?]
  obtain ⟨hpadding, hne⟩ := length_paddingWindow hstop
  exact ⟨{
    fixed := window (bytesOf d) 0 12
    csrc := window (bytesOf d) 12 (csrcCount (bytesOf d) * 4)
    extension := window (bytesOf d) (12 + csrcCount (bytesOf d) * 4)
      (offset - (12 + csrcCount (bytesOf d) * 4))
    payload := window (bytesOf d) offset (stop - offset)
    padding := window (bytesOf d) stop (d.length - stop)
    length_fixed := length_window ..
    version_eq := hversion
    length_csrc := by rw [length_window, hhead, csrcCount, countBits, Nat.mul_comm]
    length_extension := length_extensionWindow hstart
    length_padding := by rw [hcut, hlast]; exact hpadding
    padding_ne_nil := hne }, hcut⟩

/-! ## reads stay inside the datagram -/

/-- A read of one byte, with the offset it fails at. -/
def byteAt (buf : List UInt8) (i : Nat) : Except Nat UInt8 :=
  match buf[i]? with
  | some b => .ok b
  | none => .error i

def rd16At (buf : List UInt8) (i : Nat) : Except Nat UInt16 := do
  let b0 ← byteAt buf i
  let b1 ← byteAt buf (i + 1)
  pure ((b0.toUInt16 <<< 8) ||| b1.toUInt16)

def rd32At (buf : List UInt8) (i : Nat) : Except Nat UInt32 := do
  let b0 ← byteAt buf i
  let b1 ← byteAt buf (i + 1)
  let b2 ← byteAt buf (i + 2)
  let b3 ← byteAt buf (i + 3)
  pure ((b0.toUInt32 <<< 24) ||| (b1.toUInt32 <<< 16) ||| (b2.toUInt32 <<< 8) ||| b3.toUInt32)

/-- The block that skips the header extension. -/
def skipExtensionAt (buf : List UInt8) (offset : Nat) (extension : Bool) :
    Except Nat (Option Nat) :=
  if extension then
    if buf.length < offset + 4 then pure none
    else do
      let extWords ← rd16At buf (offset + 2)
      let extBytes := 4 + extWords.toNat * 4
      pure (if buf.length < offset + extBytes then none else some (offset + extBytes))
  else pure (some offset)

def payloadEndAt (buf : List UInt8) (offset : Nat) (padding : Bool) : Except Nat (Option Nat) :=
  if padding then do
    let padLen ← byteAt buf (buf.length - 1)
    pure (if padLen.toNat = 0 ∨ buf.length - offset < padLen.toNat then none
      else some (buf.length - padLen.toNat))
  else pure (some buf.length)

/-- The loop over the CSRC list. -/
def csrcAt (buf : List UInt8) (cc : Nat) : Except Nat (List UInt32) :=
  (List.range cc).mapM fun i => rd32At buf (12 + i * 4)

/-- The bytes that the payload is assigned from. -/
def payloadAt (buf : List UInt8) (offset stop : Nat) : Except Nat (List UInt8) :=
  (List.range (stop - offset)).mapM fun i => byteAt buf (offset + i)

/-- `parse` with every read checked: an offset at or past the end of the
datagram is an error, whatever becomes of the packet. -/
def parseAt (buf : List UInt8) : Except Nat (Option RtpPacket) :=
  if buf.length < 12 then pure none
  else do
    let b0 ← byteAt buf 0
    if versionBits b0 ≠ 2 then pure none
    else do
      let b1 ← byteAt buf 1
      let sequence ← rd16At buf 2
      let timestamp ← rd32At buf 4
      let ssrc ← rd32At buf 8
      if buf.length < 12 + countBits b0 * 4 then pure none
      else do
        let csrc ← csrcAt buf (countBits b0)
        match ← skipExtensionAt buf (12 + countBits b0 * 4) (extensionBit b0) with
        | none => pure none
        | some offset =>
            match ← payloadEndAt buf offset (paddingBit b0) with
            | none => pure none
            | some stop => do
                let payload ← payloadAt buf offset stop
                pure (some {
                  version := versionBits b0
                  padding := paddingBit b0
                  extension := extensionBit b0
                  marker := markerBit b1
                  payloadType := b1 &&& 0x7f
                  sequence, timestamp, ssrc, csrc, payload })

theorem byteAt_eq {buf : List UInt8} {i : Nat} (h : i < buf.length) :
    byteAt buf i = .ok (bytesOf buf i) := by
  simp [byteAt, bytesOf, h]

theorem rd16At_eq {buf : List UInt8} {i : Nat} (h : i + 2 ≤ buf.length) :
    rd16At buf i = .ok (rd16 (bytesOf buf) i) := by
  rw [rd16At, byteAt_eq (by omega), byteAt_eq (by omega)]
  rfl

theorem rd32At_eq {buf : List UInt8} {i : Nat} (h : i + 4 ≤ buf.length) :
    rd32At buf i = .ok (rd32 (bytesOf buf) i) := by
  rw [rd32At, byteAt_eq (by omega), byteAt_eq (by omega), byteAt_eq (by omega),
    byteAt_eq (by omega)]
  rfl

/-- A loop whose reads all succeed. -/
theorem mapM_ok {ι α : Type} {f : ι → Except Nat α} {g : ι → α} {l : List ι}
    (h : ∀ i ∈ l, f i = .ok (g i)) : l.mapM f = .ok (l.map g) := by
  induction l with
  | nil => rfl
  | cons i l ih =>
      rw [List.mapM_cons, h i List.mem_cons_self, ih fun j hj => h j (List.mem_cons_of_mem i hj)]
      rfl

theorem csrcAt_eq {buf : List UInt8} {cc : Nat} (h : 12 + cc * 4 ≤ buf.length) :
    csrcAt buf cc = .ok ((List.range cc).map fun i => rd32 (bytesOf buf) (12 + i * 4)) := by
  apply mapM_ok
  intro i hi
  rw [List.mem_range] at hi
  exact rd32At_eq (by omega)

theorem skipExtensionAt_eq {buf : List UInt8} {cc : Nat} (h : 12 + cc * 4 ≤ buf.length)
    (extension : Bool) :
    skipExtensionAt buf (12 + cc * 4) extension =
      .ok (payloadStart (bytesOf buf) buf.length cc extension) := by
  unfold skipExtensionAt payloadStart
  rw [if_neg (Nat.not_lt.mpr h)]
  cases extension with
  | false => rfl
  | true =>
      by_cases hext : buf.length < 12 + cc * 4 + 4
      · simp [hext, pure, Except.pure]
      · rw [if_pos rfl, if_pos rfl, if_neg hext, if_neg hext, rd16At_eq (by omega)]
        rfl

theorem payloadEndAt_eq {buf : List UInt8} (h : 0 < buf.length) (offset : Nat) (padding : Bool) :
    payloadEndAt buf offset padding = .ok (payloadEnd (bytesOf buf) buf.length offset padding) := by
  unfold payloadEndAt payloadEnd
  rw [byteAt_eq (by omega)]
  cases padding <;> rfl

theorem payloadAt_eq {buf : List UInt8} {offset stop : Nat} (h : stop ≤ buf.length) :
    payloadAt buf offset stop = .ok (window (bytesOf buf) offset (stop - offset)) := by
  apply mapM_ok
  intro i hi
  rw [List.mem_range] at hi
  exact byteAt_eq (by omega)

/-- Past the first two checks only the parts of variable length can fail. -/
theorem parse_eq_bind {data : Nat → UInt8} {len : Nat} (hlen : 12 ≤ len)
    (hversion : versionBits (data 0) = 2) :
    parse data len =
      (payloadStart data len (countBits (data 0)) (extensionBit (data 0))).bind fun offset =>
        (payloadEnd data len offset (paddingBit (data 0))).map fun stop =>
          decoded data offset stop := by
  have hbits : (data 0 >>> 6) &&& 0x03 = 2 := hversion
  simp only [parse, if_neg (Nat.not_lt.mpr hlen), if_neg (not_not.mpr hbits)]
  rfl

@[simp] theorem ok_bind {α β : Type} (x : α) (f : α → Except Nat β) :
    ((.ok x : Except Nat α) >>= f) = f x := rfl

/-- No read of `parse` fails. -/
theorem parseAt_eq (d : List UInt8) : parseAt d = .ok (parseBuf d) := by
  change parseAt d = .ok (parse (bytesOf d) d.length)
  unfold parseAt
  by_cases hlen : d.length < 12
  · simp [parse, hlen, pure, Except.pure]
  rw [if_neg hlen, byteAt_eq (by omega), byteAt_eq (by omega), rd16At_eq (by omega),
    rd32At_eq (by omega), rd32At_eq (by omega)]
  simp only [ok_bind]
  by_cases hversion : versionBits (bytesOf d 0) = 2
  swap
  · have hversion' : (bytesOf d 0 >>> 6) &&& 0x03 ≠ 2 := hversion
    simp [parse, hlen, hversion, hversion', pure, Except.pure]
  rw [if_neg (not_not.mpr hversion)]
  rw [parse_eq_bind (Nat.le_of_not_lt hlen) hversion]
  by_cases hcsrc : d.length < 12 + countBits (bytesOf d 0) * 4
  · simp [payloadStart, hcsrc, pure, Except.pure]
  rw [if_neg hcsrc, csrcAt_eq (by omega), skipExtensionAt_eq (by omega)]
  simp only [ok_bind]
  cases hstart : payloadStart (bytesOf d) d.length (countBits (bytesOf d 0))
      (extensionBit (bytesOf d 0)) with
  | none => rfl
  | some offset =>
      have hoffset := payloadStart_bounds hstart
      simp only [payloadEndAt_eq (show 0 < d.length by omega), ok_bind, Option.bind_some]
      cases hstop : payloadEnd (bytesOf d) d.length offset (paddingBit (bytesOf d 0)) with
      | none => rfl
      | some stop =>
          have hend := payloadEnd_bounds hoffset.2 hstop
          simp only [payloadAt_eq (show stop ≤ d.length by omega), ok_bind]
          rfl

/-- **The format.**  `parse` accepts a datagram if and only if it has a layout,
and gives the packet of that layout; a datagram has one layout at most; and no
read of `parse` is at or past the end of the datagram. -/
theorem parse_iff_layout :
    (∀ (d : List UInt8) (p : RtpPacket),
      parseBuf d = some p ↔ ∃ s : Layout, s.bytes = d ∧ s.packet = p) ∧
    Function.Injective Layout.bytes ∧
    (∀ d, parseAt d = .ok (parseBuf d)) := by
  refine ⟨fun d p => ⟨fun h => ?_, ?_⟩, Layout.bytes_injective, parseAt_eq⟩
  · obtain ⟨s, rfl⟩ := exists_layout h
    rw [s.parse_bytes, Option.some.injEq] at h
    exact ⟨s, rfl, h⟩
  · rintro ⟨s, rfl, rfl⟩
    exact s.parse_bytes

end RtpPacket

end SipDemo
