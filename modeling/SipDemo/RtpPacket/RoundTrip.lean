import SipDemo.Bytes.BigEndian
import SipDemo.RtpPacket

/-!
# SipDemo.RtpPacket.RoundTrip

Serialising and parsing RTP packets against each other.

A datagram is cut into windows, runs of consecutive bytes: the two flag bytes,
the three big-endian fields, the CSRC list and what follows.  `serialize`
writes these windows one after another and `parse` reads each of them at its
own offset, so both directions are one lemma for each window.
-/

namespace SipDemo

namespace RtpPacket

/-- The `n` bytes of a datagram from offset `start`. -/
def window (data : Nat → UInt8) (start n : Nat) : List UInt8 :=
  (List.range n).map fun i => data (start + i)

/-- The bytes of a buffer by offset, as `parseBuf` hands them to `parse`. -/
def bytesOf (buf : List UInt8) : Nat → UInt8 := fun i => buf.getD i 0

/-! ## windows -/

@[simp] theorem length_window (data : Nat → UInt8) (start n : Nat) :
    (window data start n).length = n := by
  rw [window, List.length_map, List.length_range]

theorem window_add (data : Nat → UInt8) (start m n : Nat) :
    window data start (m + n) = window data start m ++ window data (start + m) n := by
  unfold window
  rw [List.range_add, List.map_append, List.map_map]
  congr 1
  apply List.map_congr_left
  intro i _
  rw [Function.comp_apply, Nat.add_assoc]

/-- A part of a buffer is the window at its offset. -/
theorem window_middle (front part rest : List UInt8) :
    window (bytesOf (front ++ (part ++ rest))) front.length part.length = part := by
  apply List.ext_getElem
  · rw [length_window]
  · intro i _ hi
    have hat : (front ++ (part ++ rest))[front.length + i]? = some part[i] := by
      rw [List.getElem?_append_right (Nat.le_add_right _ _), Nat.add_sub_cancel_left,
        List.getElem?_append_left hi, List.getElem?_eq_getElem hi]
    simp [window, bytesOf, List.getD_eq_getElem?_getD, hat]

theorem window_whole (buf : List UInt8) : window (bytesOf buf) 0 buf.length = buf := by
  simpa using window_middle [] buf []

/-! ## big-endian fields -/

theorem rd16_toNat (data : Nat → UInt8) (i : Nat) :
    (rd16 data i).toNat = BigEndian.value (window data i 2) := by
  have h0 := (data i).toNat_lt
  have hfit : (data i).toNat <<< 8 < 2 ^ 16 := by
    rw [Nat.shiftLeft_eq]
    omega
  simp only [rd16, UInt16.toNat_or, UInt16.toNat_shiftLeft, UInt8.toNat_toUInt16]
  rw [show (8 : UInt16).toNat % 16 = 8 from rfl, Nat.mod_eq_of_lt hfit, BigEndian.shiftLeft_or]
  simp [window, List.range_succ, BigEndian.value]

theorem rd32_toNat (data : Nat → UInt8) (i : Nat) :
    (rd32 data i).toNat = BigEndian.value (window data i 4) := by
  have h0 := (data i).toNat_lt
  have h1 := (data (i + 1)).toNat_lt
  have h2 := (data (i + 2)).toNat_lt
  have hfit0 : (data i).toNat <<< 24 < 2 ^ 32 := by
    rw [Nat.shiftLeft_eq]
    omega
  have hfit1 : (data (i + 1)).toNat <<< 16 < 2 ^ 32 := by
    rw [Nat.shiftLeft_eq]
    omega
  have hfit2 : (data (i + 2)).toNat <<< 8 < 2 ^ 32 := by
    rw [Nat.shiftLeft_eq]
    omega
  simp only [rd32, UInt32.toNat_or, UInt32.toNat_shiftLeft, UInt8.toNat_toUInt32]
  rw [show (24 : UInt32).toNat % 32 = 24 from rfl, show (16 : UInt32).toNat % 32 = 16 from rfl,
    show (8 : UInt32).toNat % 32 = 8 from rfl, Nat.mod_eq_of_lt hfit0, Nat.mod_eq_of_lt hfit1,
    Nat.mod_eq_of_lt hfit2]
  -- the shifts regrouped byte by byte: `((b0 << 8 | b1) << 8 | b2) << 8 | b3`
  rw [show (data i).toNat <<< 24 = ((data i).toNat <<< 8) <<< 16 from Nat.shiftLeft_add _ 8 16,
    ← Nat.shiftLeft_or_distrib, BigEndian.shiftLeft_or,
    show (16 : Nat) = 8 + 8 from rfl, Nat.shiftLeft_add, ← Nat.shiftLeft_or_distrib,
    BigEndian.shiftLeft_or, BigEndian.shiftLeft_or]
  simp [window, List.range_succ, BigEndian.value]

theorem wr16_eq (x : UInt16) : wr16 x = BigEndian.bytes 2 x.toNat := by
  have hhigh : (x >>> 8).toUInt8 = UInt8.ofNat (x.toNat / 256) := by
    apply UInt8.toNat_inj.mp
    simp [Nat.shiftRight_eq_div_pow]
  have hlow : (x &&& 0xff).toUInt8 = UInt8.ofNat x.toNat := by
    apply UInt8.toNat_inj.mp
    rw [UInt16.toNat_toUInt8, UInt16.toNat_and, show (0xff : UInt16).toNat = 2 ^ 8 - 1 from rfl,
      Nat.and_two_pow_sub_one_eq_mod, Nat.mod_mod, UInt8.toNat_ofNat']
  simp [wr16, BigEndian.bytes, hhigh, hlow]

theorem wr32_eq (x : UInt32) : wr32 x = BigEndian.bytes 4 x.toNat := by
  have hdigit3 : (x >>> 24).toUInt8 = UInt8.ofNat (x.toNat / 16777216) := by
    apply UInt8.toNat_inj.mp
    simp [Nat.shiftRight_eq_div_pow]
  have hdigit2 : (x >>> 16).toUInt8 = UInt8.ofNat (x.toNat / 65536) := by
    apply UInt8.toNat_inj.mp
    simp [Nat.shiftRight_eq_div_pow]
  have hdigit1 : (x >>> 8).toUInt8 = UInt8.ofNat (x.toNat / 256) := by
    apply UInt8.toNat_inj.mp
    simp [Nat.shiftRight_eq_div_pow]
  have hlow : (x &&& 0xff).toUInt8 = UInt8.ofNat x.toNat := by
    apply UInt8.toNat_inj.mp
    rw [UInt32.toNat_toUInt8, UInt32.toNat_and, show (0xff : UInt32).toNat = 2 ^ 8 - 1 from rfl,
      Nat.and_two_pow_sub_one_eq_mod, Nat.mod_mod, UInt8.toNat_ofNat']
  simp [wr32, BigEndian.bytes, hdigit3, hdigit2, hdigit1, hlow]

@[simp] theorem length_wr16 (x : UInt16) : (wr16 x).length = 2 := rfl

@[simp] theorem length_wr32 (x : UInt32) : (wr32 x).length = 4 := rfl

/-- Writing what was read gives the bytes back. -/
theorem wr16_rd16 (data : Nat → UInt8) (i : Nat) : wr16 (rd16 data i) = window data i 2 := by
  rw [wr16_eq, rd16_toNat]
  exact BigEndian.bytes_value (window data i 2)

theorem wr32_rd32 (data : Nat → UInt8) (i : Nat) : wr32 (rd32 data i) = window data i 4 := by
  rw [wr32_eq, rd32_toNat]
  exact BigEndian.bytes_value (window data i 4)

/-- Where a number was written, it is read. -/
theorem rd16_of_window {data : Nat → UInt8} {i : Nat} {x : UInt16}
    (h : window data i 2 = wr16 x) : rd16 data i = x := by
  apply UInt16.toNat_inj.mp
  rw [rd16_toNat, h, wr16_eq, BigEndian.value_bytes 2 _ x.toNat_lt]

theorem rd32_of_window {data : Nat → UInt8} {i : Nat} {x : UInt32}
    (h : window data i 4 = wr32 x) : rd32 data i = x := by
  apply UInt32.toNat_inj.mp
  rw [rd32_toNat, h, wr32_eq, BigEndian.value_bytes 4 _ x.toNat_lt]

/-- The CSRC loop of `parse` reads consecutive words. -/
theorem flatMap_wr32_rd32 (data : Nat → UInt8) (start cc : Nat) :
    ((List.range cc).map fun i => rd32 data (start + i * 4)).flatMap wr32 =
      window data start (cc * 4) := by
  induction cc with
  | zero => rfl
  | succ cc ih =>
      rw [List.range_succ, List.map_append, List.flatMap_append, ih, Nat.succ_mul, window_add]
      congr 1
      simp [wr32_rd32]

theorem rd32_of_flatMap_wr32 {data : Nat → UInt8} {start : Nat} {csrc : List UInt32}
    (h : window data start (csrc.length * 4) = csrc.flatMap wr32) :
    ((List.range csrc.length).map fun i => rd32 data (start + i * 4)) = csrc := by
  induction csrc generalizing start with
  | nil => rfl
  | cons x csrc ih =>
      rw [List.length_cons, Nat.succ_mul, Nat.add_comm, window_add, List.flatMap_cons] at h
      obtain ⟨hx, hrest⟩ := List.append_inj h (by simp)
      rw [List.length_cons, List.range_succ_eq_map, List.map_cons, List.map_map,
        Nat.zero_mul, Nat.add_zero, rd32_of_window hx]
      congr 1
      conv_rhs => rw [← ih hrest]
      apply List.map_congr_left
      intro i _
      rw [Function.comp_apply, Nat.succ_mul, Nat.add_comm (i * 4), Nat.add_assoc]

/-! ## the flag bytes -/

/-- The first byte of `serialize`. -/
def flagByte (version : UInt8) (padding extension : Bool) (cc : Nat) : UInt8 :=
  ((version &&& 0x03) <<< 6) ||| (if padding then 0x20 else 0) |||
    (if extension then 0x10 else 0) ||| UInt8.ofNat cc

/-- The second byte of `serialize`. -/
def markerByte (marker : Bool) (payloadType : UInt8) : UInt8 :=
  (payloadType &&& 0x7f) ||| (if marker then 0x80 else 0)

theorem fields_flagByte (padding extension : Bool) (cc : Fin 16) :
    (flagByte 2 padding extension cc >>> 6) &&& 0x03 = 2 ∧
      decide ((flagByte 2 padding extension cc >>> 5) &&& 0x01 ≠ 0) = padding ∧
      decide ((flagByte 2 padding extension cc >>> 4) &&& 0x01 ≠ 0) = extension ∧
      (flagByte 2 padding extension cc &&& 0x0f).toNat = cc := by
  decide +revert

theorem fields_markerByte (marker : Bool) (payloadType : UInt8) (h : payloadType < 128) :
    decide ((markerByte marker payloadType >>> 7) &&& 0x01 ≠ 0) = marker ∧
      markerByte marker payloadType &&& 0x7f = payloadType := by
  revert marker h
  apply forall_byte _ payloadType
  decide +kernel

theorem flagByte_fields (b : UInt8) (h : (b >>> 6) &&& 0x03 = 2) :
    flagByte 2 ((b >>> 5) &&& 0x01 ≠ 0) ((b >>> 4) &&& 0x01 ≠ 0) (b &&& 0x0f).toNat = b := by
  revert h
  apply forall_byte _ b
  decide +kernel

theorem markerByte_fields (b : UInt8) : markerByte ((b >>> 7) &&& 0x01 ≠ 0) (b &&& 0x7f) = b := by
  apply forall_byte _ b
  decide +kernel

/-! ## what `parse` accepts -/

/-- The CC field of the first byte. -/
def csrcCount (data : Nat → UInt8) : Nat := (data 0 &&& 0x0f).toNat

/-- The packet `parse` reads, once it knows where the payload is. -/
def decoded (data : Nat → UInt8) (offset stop : Nat) : RtpPacket where
  version := (data 0 >>> 6) &&& 0x03
  padding := (data 0 >>> 5) &&& 0x01 ≠ 0
  extension := (data 0 >>> 4) &&& 0x01 ≠ 0
  marker := (data 1 >>> 7) &&& 0x01 ≠ 0
  payloadType := data 1 &&& 0x7f
  sequence := rd16 data 2
  timestamp := rd32 data 4
  ssrc := rd32 data 8
  csrc := (List.range (csrcCount data)).map fun i => rd32 data (12 + i * 4)
  payload := window data offset (stop - offset)

theorem parse_eq_some_iff {data : Nat → UInt8} {len : Nat} {p : RtpPacket} :
    parse data len = some p ↔
      12 ≤ len ∧ (data 0 >>> 6) &&& 0x03 = 2 ∧ ∃ offset stop,
        payloadStart data len (csrcCount data) ((data 0 >>> 4) &&& 0x01 ≠ 0) = some offset ∧
        payloadEnd data len offset ((data 0 >>> 5) &&& 0x01 ≠ 0) = some stop ∧
        decoded data offset stop = p := by
  unfold parse
  by_cases hlen : len < 12
  · simp [hlen]
  · by_cases hversion : (data 0 >>> 6) &&& 0x03 = 2
    · simp only [if_neg hlen, if_neg (not_not.mpr hversion), Option.bind_eq_some_iff,
        Option.map_eq_some_iff]
      refine ⟨?_, ?_⟩
      · rintro ⟨offset, hstart, stop, hend, hp⟩
        exact ⟨Nat.le_of_not_lt hlen, hversion, offset, stop, hstart, hend, hp⟩
      · rintro ⟨_, _, offset, stop, hstart, hend, hp⟩
        exact ⟨offset, hstart, stop, hend, hp⟩
    · simp [hlen, hversion]

/-- The payload starts after the header, the CSRC list and an announced extension. -/
theorem payloadStart_bounds {data : Nat → UInt8} {len cc offset : Nat} {extension : Bool}
    (h : payloadStart data len cc extension = some offset) :
    12 + cc * 4 + (if extension then 4 else 0) ≤ offset ∧ offset ≤ len := by
  unfold payloadStart at h
  grind

theorem payloadStart_eq_some_iff {data : Nat → UInt8} {len cc offset : Nat} :
    payloadStart data len cc false = some offset ↔ 12 + cc * 4 = offset ∧ offset ≤ len := by
  unfold payloadStart
  grind

/-- Announced padding is one byte at least. -/
theorem payloadEnd_bounds {data : Nat → UInt8} {len offset stop : Nat} {padding : Bool}
    (hoffset : offset ≤ len) (h : payloadEnd data len offset padding = some stop) :
    offset ≤ stop ∧ stop + (if padding then 1 else 0) ≤ len := by
  unfold payloadEnd at h
  grind

/-! ## what `serialize` writes -/

/-- The CSRC list as `serialize` writes it. -/
def csrcBytes (p : RtpPacket) : List UInt8 := (p.csrc.take 15).flatMap wr32

theorem length_csrcBytes (p : RtpPacket) : p.csrcBytes.length = (p.csrc.take 15).length * 4 := by
  simp [csrcBytes, List.length_flatMap]

theorem serialize_eq (p : RtpPacket) :
    p.serialize =
      [flagByte p.version p.padding p.extension (p.csrc.take 15).length,
        markerByte p.marker p.payloadType] ++
      (wr16 p.sequence ++ (wr32 p.timestamp ++ (wr32 p.ssrc ++ (p.csrcBytes ++ p.payload)))) := by
  have hcut : p.csrc.take (min p.csrc.length 15) = p.csrc.take 15 := by
    rw [Nat.min_comm]
    exact List.take_eq_take_min.symm
  simp only [serialize, hcut, List.append_assoc, csrcBytes, List.length_take, Nat.min_comm 15]
  rfl

theorem length_serialize (p : RtpPacket) :
    p.serialize.length = 12 + (p.csrc.take 15).length * 4 + p.payload.length := by
  rw [serialize_eq]
  simp only [List.length_append, length_wr16, length_wr32, length_csrcBytes, List.length_cons,
    List.length_nil]
  omega

/-- `serialize` as three windows: the fixed header, the CSRC list, the payload. -/
theorem serialize_windows (p : RtpPacket) :
    window (bytesOf p.serialize) 2 2 = wr16 p.sequence ∧
      window (bytesOf p.serialize) 4 4 = wr32 p.timestamp ∧
      window (bytesOf p.serialize) 8 4 = wr32 p.ssrc ∧
      window (bytesOf p.serialize) 12 ((p.csrc.take 15).length * 4) = p.csrcBytes ∧
      window (bytesOf p.serialize) (12 + (p.csrc.take 15).length * 4) p.payload.length =
        p.payload := by
  rw [serialize_eq]
  generalize flagByte _ _ _ _ = b0, markerByte _ _ = b1
  refine ⟨window_middle [b0, b1] _ _, window_middle ([b0, b1] ++ wr16 _) _ _,
    window_middle ([b0, b1] ++ wr16 _ ++ wr32 _) _ _, ?_, ?_⟩
  · rw [← length_csrcBytes]
    exact window_middle ([b0, b1] ++ wr16 _ ++ wr32 _ ++ wr32 _) _ _
  · have hfront : ([b0, b1] ++ wr16 p.sequence ++ wr32 p.timestamp ++ wr32 p.ssrc ++
        p.csrcBytes).length = 12 + (p.csrc.take 15).length * 4 := by
      rw [List.length_append, length_csrcBytes]
      rfl
    have h := window_middle ([b0, b1] ++ wr16 p.sequence ++ wr32 p.timestamp ++ wr32 p.ssrc ++
      p.csrcBytes) p.payload []
    rw [hfront, List.append_nil] at h
    simpa only [List.append_assoc] using h

theorem flags_serialize (p : RtpPacket) :
    bytesOf p.serialize 0 =
        flagByte p.version p.padding p.extension (p.csrc.take 15).length ∧
      bytesOf p.serialize 1 = markerByte p.marker p.payloadType := by
  rw [serialize_eq]
  exact ⟨rfl, rfl⟩

theorem length_take_lt (p : RtpPacket) : (p.csrc.take 15).length < 16 := by
  rw [List.length_take]
  omega

theorem csrcCount_serialize {p : RtpPacket} (hversion : p.version = 2) :
    csrcCount (bytesOf p.serialize) = (p.csrc.take 15).length := by
  rw [csrcCount, (flags_serialize p).1, hversion]
  exact (fields_flagByte p.padding p.extension ⟨_, length_take_lt p⟩).2.2.2

/-- `parse` finds the packet that was written, apart from where it looks for
the payload. -/
theorem decoded_serialize {p : RtpPacket} (hversion : p.version = 2) (hpt : p.payloadType < 128)
    (offset stop : Nat) :
    decoded (bytesOf p.serialize) offset stop =
      { p with
        csrc := p.csrc.take 15
        payload := window (bytesOf p.serialize) offset (stop - offset) } := by
  obtain ⟨hv, hpadding, hextension, _⟩ :=
    fields_flagByte p.padding p.extension ⟨_, length_take_lt p⟩
  obtain ⟨hmarker, htype⟩ := fields_markerByte p.marker p.payloadType hpt
  obtain ⟨hsequence, htimestamp, hssrc, hcsrc, _⟩ := serialize_windows p
  obtain ⟨h0, h1⟩ := flags_serialize p
  rw [hversion] at h0
  unfold decoded
  rw [csrcCount_serialize hversion, h0, h1, hv, hpadding, hextension, hmarker, htype,
    rd16_of_window hsequence, rd32_of_window htimestamp, rd32_of_window hssrc,
    rd32_of_flatMap_wr32 hcsrc, ← hversion]

/-- What `parse` makes of a written packet depends only on where it looks for
the payload. -/
theorem parse_serialize_iff {p q : RtpPacket} (hversion : p.version = 2)
    (hpt : p.payloadType < 128) :
    parseBuf p.serialize = some q ↔ ∃ offset stop,
      payloadStart (bytesOf p.serialize) p.serialize.length (p.csrc.take 15).length p.extension =
        some offset ∧
      payloadEnd (bytesOf p.serialize) p.serialize.length offset p.padding = some stop ∧
      { p with
        csrc := p.csrc.take 15
        payload := window (bytesOf p.serialize) offset (stop - offset) } = q := by
  obtain ⟨hv, hpadding, hextension, _⟩ :=
    fields_flagByte p.padding p.extension ⟨_, length_take_lt p⟩
  have h0 := (flags_serialize p).1
  have hlen : 12 ≤ p.serialize.length := by
    rw [length_serialize]
    omega
  rw [hversion] at h0
  rw [show parseBuf p.serialize = parse (bytesOf p.serialize) p.serialize.length from rfl,
    parse_eq_some_iff, csrcCount_serialize hversion, h0, hv, hpadding, hextension]
  simp only [decoded_serialize hversion hpt, hlen, true_and]

/-- Without padding and extension the payload is found where it was written. -/
theorem parse_serialize {p : RtpPacket} (hversion : p.version = 2) (hpadding : p.padding = false)
    (hextension : p.extension = false) (hpt : p.payloadType < 128) :
    parseBuf p.serialize = some { p with csrc := p.csrc.take 15 } := by
  have hlen := length_serialize p
  obtain ⟨_, _, _, _, hpayload⟩ := serialize_windows p
  rw [parse_serialize_iff hversion hpt, hpadding, hextension]
  refine ⟨12 + (p.csrc.take 15).length * 4, p.serialize.length, ?_, rfl, ?_⟩
  · rw [payloadStart_eq_some_iff]
    omega
  · rw [hlen, Nat.add_sub_cancel_left, hpayload]

theorem csrcCount_lt (data : Nat → UInt8) : csrcCount data < 16 := by
  unfold csrcCount
  rw [UInt8.toNat_and]
  exact Nat.lt_succ_of_le Nat.and_le_right

/-- The CSRC list of a packet that was read is never cut. -/
theorem take_csrc_decoded (data : Nat → UInt8) (offset stop : Nat) :
    (decoded data offset stop).csrc.take 15 = (decoded data offset stop).csrc := by
  have hcc := csrcCount_lt data
  apply List.take_of_length_le
  rw [decoded, List.length_map, List.length_range]
  omega

/-- Re-serialising what was read from right after the CSRC list writes the same
bytes again: every window is written where it was read. -/
theorem serialize_decoded {data : Nat → UInt8} {len : Nat} (hversion : (data 0 >>> 6) &&& 0x03 = 2)
    (hlen : 12 + csrcCount data * 4 ≤ len) :
    (decoded data (12 + csrcCount data * 4) len).serialize = window data 0 len := by
  obtain ⟨rest, rfl⟩ := Nat.exists_eq_add_of_le hlen
  have hcount : (decoded data (12 + csrcCount data * 4)
      (12 + csrcCount data * 4 + rest)).csrc.length = csrcCount data := by
    rw [decoded, List.length_map, List.length_range]
  rw [serialize_eq, csrcBytes, take_csrc_decoded, hcount]
  simp only [decoded, hversion, flagByte_fields _ hversion, csrcCount, markerByte_fields,
    wr16_rd16, wr32_rd32, flatMap_wr32_rd32, Nat.add_sub_cancel_left]
  rw [show 12 + (data 0 &&& 15).toNat * 4 + rest =
    2 + (2 + (4 + (4 + ((data 0 &&& 15).toNat * 4 + rest)))) by omega]
  simp only [window_add, Nat.zero_add]
  rfl

/-! ## the round trips -/

/-- The P and X bits of a first byte. -/
theorem flags_clear_iff (b : UInt8) :
    b &&& 0x30 = 0 ↔
      decide ((b >>> 5) &&& 0x01 ≠ 0) = false ∧ decide ((b >>> 4) &&& 0x01 ≠ 0) = false := by
  apply forall_byte _ b
  decide +kernel

/-- What is always so of a packet that was parsed. -/
theorem parse_fields {d : List UInt8} {p : RtpPacket} (h : parseBuf d = some p) :
    p.version = 2 ∧ p.payloadType < 128 ∧ p.csrc.take 15 = p.csrc ∧
      (d.headD 0 &&& 0x30 = 0 ↔ p.padding = false ∧ p.extension = false) := by
  have hhead : bytesOf d 0 = d.headD 0 := by
    cases d <;> rfl
  have htype : ∀ b : UInt8, b &&& 0x7f < 128 := by
    apply forall_byte
    decide +kernel
  rw [show parseBuf d = parse (bytesOf d) d.length from rfl, parse_eq_some_iff] at h
  obtain ⟨_, hversion, offset, stop, _, _, rfl⟩ := h
  rw [flags_clear_iff, ← hhead]
  exact ⟨hversion, htype _, take_csrc_decoded _ offset stop, Iff.rfl⟩

/-- **Round trip both ways**: a plain packet is read back with the 15 CSRC
entries the format has room for, and a datagram without padding and extension
is written back byte for byte. -/
theorem parse_serialize_roundTrip :
    (∀ p : RtpPacket, p.version = 2 → p.padding = false → p.extension = false →
      p.payloadType < 128 → parseBuf p.serialize = some { p with csrc := p.csrc.take 15 }) ∧
    (∀ (d : List UInt8) (p : RtpPacket), parseBuf d = some p → d.headD 0 &&& 0x30 = 0 →
      p.serialize = d) := by
  refine ⟨fun p => parse_serialize, ?_⟩
  intro d p hparse hclear
  have hhead : bytesOf d 0 = d.headD 0 := by
    cases d <;> rfl
  rw [← hhead] at hclear
  obtain ⟨hpadding, hextension⟩ := (flags_clear_iff _).mp hclear
  rw [show parseBuf d = parse (bytesOf d) d.length from rfl, parse_eq_some_iff, hpadding,
    hextension] at hparse
  obtain ⟨_, hversion, offset, stop, hstart, hend, hp⟩ := hparse
  rw [payloadStart_eq_some_iff] at hstart
  obtain ⟨rfl, hlen⟩ := hstart
  obtain rfl : d.length = stop := Option.some.inj hend
  rw [← hp]
  exact (serialize_decoded hversion hlen).trans (window_whole d)

/-- A marked packet with two contributing sources, and its bytes. -/
theorem parse_serialize_roundTrip_csrc :
    parseBuf (serialize { marker := true, csrc := [0x11111111, 0x22222222], payload := [9] }) =
        some { marker := true, csrc := [0x11111111, 0x22222222], payload := [9] } ∧
      serialize { marker := true, csrc := [0x11111111], payload := [9] } =
        [0x81, 0x80, 0, 0, 0, 0, 0, 0, 0, 0, 0, 0, 0x11, 0x11, 0x11, 0x11, 9] :=
  ⟨parse_serialize_roundTrip.1 _ rfl rfl rfl (by decide),
    parse_serialize_roundTrip.2 _ _ (by decide) (by decide)⟩

/-- What a reader of the stream gets out of a packet. -/
structure SameMedia (q p : RtpPacket) : Prop where
  sequence : q.sequence = p.sequence
  timestamp : q.timestamp = p.timestamp
  ssrc : q.ssrc = p.ssrc
  marker : q.marker = p.marker
  payloadType : q.payloadType = p.payloadType
  csrc : q.csrc = p.csrc
  payload : q.payload = p.payload

/-- A packet that keeps its P or X bit loses payload bytes to the padding or
the extension that `serialize` announces and does not write. -/
theorem length_payload_parse_serialize {p q : RtpPacket} (hversion : p.version = 2)
    (hpt : p.payloadType < 128) (h : parseBuf p.serialize = some q) :
    q.payload.length + (if p.extension then 4 else 0) + (if p.padding then 1 else 0) ≤
      p.payload.length := by
  obtain ⟨offset, stop, hstart, hend, hq⟩ := (parse_serialize_iff hversion hpt).mp h
  have hlen := length_serialize p
  have hoffset := payloadStart_bounds hstart
  have hstop := payloadEnd_bounds hoffset.2 hend
  rw [← hq, length_window]
  omega

/-- **Re-serialising a parsed packet** keeps its content exactly when the
datagram had neither padding nor a header extension: the flags are kept, the
data they announce is not. -/
theorem parse_reserialize_iff (d : List UInt8) (p : RtpPacket) (hparse : parseBuf d = some p) :
    (∃ q, parseBuf p.serialize = some q ∧ SameMedia q p) ↔ d.headD 0 &&& 0x30 = 0 := by
  obtain ⟨hversion, hpt, hcsrc, hflags⟩ := parse_fields hparse
  rw [hflags]
  constructor
  · rintro ⟨q, hq, hsame⟩
    have hlost := length_payload_parse_serialize hversion hpt hq
    rw [hsame.payload] at hlost
    constructor <;>
    · by_contra hset
      rw [Bool.not_eq_false] at hset
      rw [if_pos hset] at hlost
      omega
  · rintro ⟨hpadding, hextension⟩
    have hq := parse_serialize hversion hpadding hextension hpt
    rw [hcsrc] at hq
    exact ⟨p, hq, rfl, rfl, rfl, rfl, rfl, rfl, rfl⟩

/-- A packet of two bytes of audio, without padding. -/
theorem parse_reserialize_iff_plain :
    ∃ q, parseBuf (serialize { payload := [7, 7] }) = some q ∧ SameMedia q { payload := [7, 7] } :=
  (parse_reserialize_iff [0x80, 0, 0, 0, 0, 0, 0, 0, 0, 0, 0, 0, 7, 7] { payload := [7, 7] }
    (by decide)).mpr (by decide)

/-- Two bytes of audio and two of padding: the bytes written for the parsed
packet are rejected, since its last byte now counts 7 bytes of padding. -/
theorem parse_reserialize_padded :
    ¬ ∀ (d : List UInt8) (p : RtpPacket), parseBuf d = some p →
      ∃ q, parseBuf p.serialize = some q ∧ SameMedia q p := by
  intro hclaim
  obtain ⟨q, hq, _⟩ := hclaim [0xa0, 0, 0, 0, 0, 0, 0, 0, 0, 0, 0, 0, 7, 7, 0, 2]
    { padding := true, payload := [7, 7] } (by decide)
  have hrejected : parseBuf (serialize { padding := true, payload := [7, 7] }) = none := by
    decide
  rw [hrejected] at hq
  exact absurd hq (by simp)

end RtpPacket

end SipDemo
