import SipDemo.Run
import SipDemo.Sdp.Answer
import SipDemo.Sdp.RoundTrip

/-!
# SipDemo.Sdp.Exchange

What the offerer reads of our answer.  The payload types, the packet time and
the telephone-event type of a parsed description are 32-bit numbers
(`parseSdp_inRange`), so they are written and read again as they are; only a
telephone-event type that has the number of a voice codec is lost on the way,
since `generate` writes the codec's `rtpmap` for it (`parseSdp_generated`).
-/

namespace SipDemo

/-- An `int` of the source. -/
def IsInt (i : Int) : Prop := -2 ^ 31 ≤ i ∧ i < 2 ^ 31

theorem isInt_atoi (s : Str) : IsInt (atoi s) := by
  have hlo := Int.le_bmod (x := (strtol s).getD 0) (m := 2 ^ 32) (by decide)
  have hhi := Int.bmod_lt (x := (strtol s).getD 0) (m := 2 ^ 32) (by decide)
  rw [IsInt, atoi]
  omega

namespace SdpSession

/-- The numbers of a description are 32-bit numbers. -/
structure InRange (s : SdpSession) : Prop where
  payloadTypes : ∀ pt ∈ s.payloadTypes, IsInt pt
  ptimeMs : IsInt s.ptimeMs
  dtmfPayloadType : IsInt s.dtmfPayloadType

/-- The telephone-event type that a reader of the description finds. -/
def writtenDtmf (s : SdpSession) : Int :=
  if s.dtmfPayloadType ∈ s.payloadTypes ∧ 0 ≤ s.dtmfPayloadType ∧ s.dtmfPayloadType ≠ 0 ∧
      s.dtmfPayloadType ≠ 8 then s.dtmfPayloadType
  else -1

end SdpSession

/-! ## what is read -/

/-- A line keeps the numbers in range. -/
theorem SdpScan.line_inRange {a : SdpScan} (h : a.session.InRange) (raw : Str) :
    (a.line raw).session.InRange := by
  unfold SdpScan.line
  split
  · split_ifs
    · unfold originLine
      split
      · exact ⟨h.payloadTypes, h.ptimeMs, h.dtmfPayloadType⟩
      · exact h
    · unfold connectionLine
      split
      · exact ⟨h.payloadTypes, h.ptimeMs, h.dtmfPayloadType⟩
      · exact h
    · unfold mediaLine
      split
      · split_ifs
        · refine ⟨?_, h.ptimeMs, h.dtmfPayloadType⟩
          rw [List.forall_mem_append, List.forall_mem_map]
          exact ⟨h.payloadTypes, fun tok _ => isInt_atoi tok⟩
        · exact h
      · exact h
    · unfold attributeLine
      split
      · exact ⟨h.payloadTypes, isInt_atoi _, h.dtmfPayloadType⟩
      · split
        · next pt name hrtpmap =>
          split_ifs
          · refine ⟨h.payloadTypes, h.ptimeMs, ?_⟩
            unfold parseRtpmap at hrtpmap
            split at hrtpmap
            · cases hrtpmap
            · split at hrtpmap
              · cases hrtpmap
              · obtain ⟨rfl, _⟩ := Prod.mk.inj (Option.some.inj hrtpmap)
                exact isInt_atoi _
          · exact h
        · exact h
    · exact h
    · exact h
  · exact h

/-- The numbers of a parsed description are in range. -/
theorem parseSdp_inRange {body : Str} {s : SdpSession} (h : parseSdp body = some s) :
    s.InRange := by
  have hscan : ∀ (lines : List Str) (a : SdpScan), a.session.InRange →
      (lines.foldl SdpScan.line a).session.InRange := by
    intro lines a ha
    exact Run.final_of_preserved (fun a : SdpScan => a.session.InRange)
      (fun _ raw ha => SdpScan.line_inRange ha raw) ha lines
  have hfresh : ({} : SdpScan).session.InRange := by
    constructor <;> simp [IsInt]
  unfold parseSdp at h
  dsimp only at h
  split_ifs at h
  rw [← Option.some.inj h]
  exact hscan _ _ hfresh

/-! ## what is written, read again -/

/-- Any description in range is read again, up to its telephone-event type. -/
theorem parseSdp_generated {s : SdpSession} (husername : IsToken s.username)
    (haddress : IsToken s.connectionAddress) (hpts : s.payloadTypes ≠ []) (hrange : s.InRange) :
    parseSdp s.generate = some { s with dtmfPayloadType := s.writtenDtmf } := by
  have hscan : (getlines s.generate).foldl SdpScan.line {} =
      { session := { s with dtmfPayloadType := s.writtenDtmf }
        haveAudio := true
        haveConnection := true } := by
    rw [generate_eq, getlines_crlf (lines_no_newline husername haddress), SdpSession.lines]
    simp only [List.map_append, List.map_cons, List.map_nil, List.foldl_append, List.foldl_cons,
      List.foldl_nil]
    have hplain (a : SdpScan) : a.line (str "v=0" ++ [13]) = a ∧ a.line (str "s=sipdemo" ++ [13]) = a ∧
        a.line (str "t=0 0" ++ [13]) = a ∧ a.line (str "a=sendrecv" ++ [13]) = a :=
      ⟨rfl, rfl, rfl, rfl⟩
    simp only [(hplain _).1, (hplain _).2.1, (hplain _).2.2.1, (hplain _).2.2.2,
      SdpScan.line_origin _ husername haddress, SdpScan.line_connection _ haddress,
      SdpScan.line_media _ hpts hrange.payloadTypes, SdpScan.foldl_rtpmaps _ hrange.payloadTypes,
      SdpScan.line_ptime _ hrange.ptimeMs.1 hrange.ptimeMs.2, SdpSession.writtenDtmf]
    split_ifs <;> rfl
  have hnonempty : s.payloadTypes.isEmpty = false := by simpa using hpts
  simp only [parseSdp, hscan, hnonempty, Bool.not_true, Bool.or_self, Bool.false_and,
    Bool.false_eq_true, ↓reduceIte]

/-! ## how long it is -/

theorem length_natStr_le {n k : Nat} (hk : 0 < k) (h : n < 10 ^ k) : (natStr n).length ≤ k := by
  rw [natStr, List.length_map]
  exact (Nat.length_toDigits_le_iff (by decide) hk).mpr h

theorem length_intStr_le {i : Int} (h : IsInt i) : (intStr i).length ≤ 11 := by
  unfold IsInt at h
  have hdigits : (natStr i.natAbs).length ≤ 10 := length_natStr_le (by decide) (by omega)
  unfold intStr
  split <;> simp <;> omega

theorem length_rtpmapLines_le {pt : Int} (h : IsInt pt) (dtmfPayloadType : Int) :
    (rtpmapLines dtmfPayloadType pt).length ≤ 68 := by
  have hpt := length_intStr_le h
  have htexts : (str "a=rtpmap:").length = 9 ∧ (str " telephone-event/8000").length = 21 ∧
      (str "a=fmtp:").length = 7 ∧ (str " 0-15").length = 5 ∧
      (str "a=rtpmap:0 PCMU/8000").length = 20 ∧ (str "a=rtpmap:8 PCMA/8000").length = 20 ∧
      crlf.length = 2 := by
    decide +kernel
  unfold rtpmapLines
  split_ifs <;> simp only [List.length_append, List.length_nil, htexts] <;> omega

/-- A list of pieces of at most `k` bytes each. -/
theorem length_flatMap_le {α β : Type*} {f : α → List β} {k : Nat} {l : List α}
    (h : ∀ x ∈ l, (f x).length ≤ k) : (l.flatMap f).length ≤ k * l.length := by
  induction l with
  | nil => simp
  | cons x l ih =>
      rw [List.forall_mem_cons] at h
      rw [List.flatMap_cons, List.length_append, List.length_cons, Nat.mul_succ]
      have hhead := h.1
      have htail := ih h.2
      omega

/-- A description is as long as its texts and 80 bytes for each payload type. -/
theorem length_generate_le {s : SdpSession} (hrange : s.InRange) :
    s.generate.length ≤
      200 + s.username.length + 2 * s.connectionAddress.length + 80 * s.payloadTypes.length := by
  have hid : (natStr s.sessionId.toNat).length ≤ 20 :=
    length_natStr_le (by decide) (by have := s.sessionId.toNat_lt; omega)
  have hversion : (natStr s.sessionVersion.toNat).length ≤ 20 :=
    length_natStr_le (by decide) (by have := s.sessionVersion.toNat_lt; omega)
  have hport : (natStr s.audioPort.toNat).length ≤ 5 :=
    length_natStr_le (by decide) (by have := s.audioPort.toNat_lt; omega)
  have hptime := length_intStr_le hrange.ptimeMs
  have htypes : (s.payloadTypes.flatMap fun pt => str " " ++ intStr pt).length ≤
      12 * s.payloadTypes.length := by
    refine length_flatMap_le fun pt hpt => ?_
    have hlen := length_intStr_le (hrange.payloadTypes pt hpt)
    have hspace : (str " ").length = 1 := rfl
    rw [List.length_append]
    omega
  have hmaps : (s.payloadTypes.flatMap (rtpmapLines s.dtmfPayloadType)).length ≤
      68 * s.payloadTypes.length :=
    length_flatMap_le fun pt hpt => length_rtpmapLines_le (hrange.payloadTypes pt hpt) _
  have htexts : (str "v=0").length = 3 ∧ (str "o=").length = 2 ∧ (str " ").length = 1 ∧
      (str " IN IP4 ").length = 8 ∧ (str "s=sipdemo").length = 9 ∧ (str "c=IN IP4 ").length = 9 ∧
      (str "t=0 0").length = 5 ∧ (str "m=audio ").length = 8 ∧ (str " RTP/AVP").length = 8 ∧
      (str "a=ptime:").length = 8 ∧ (str "a=sendrecv").length = 10 ∧ crlf.length = 2 := by
    decide +kernel
  unfold SdpSession.generate
  simp only [List.length_append, htexts]
  omega

/-! ## our answer -/

variable {offer ans : SdpSession} {localAddr : Str} {localPort : UInt16}

/-- The fields of an answer that do not depend on the codecs. -/
theorem makeAnswer_fields (h : makeAnswer offer localAddr localPort = some ans) :
    ans.username = str "sipdemo" ∧ ans.connectionAddress = localAddr ∧
      ans.audioPort = localPort ∧ ans.ptimeMs = if offer.ptimeMs > 0 then offer.ptimeMs else 20 := by
  simp only [makeAnswer] at h
  generalize (if offer.offersPcmu then 0 else if offer.offersPcma then 8 else -1 : Int) = chosen at h
  by_cases hnone : chosen < 0
  · rw [if_pos hnone] at h
    cases h
  · rw [if_neg hnone] at h
    by_cases hevents : 0 ≤ offer.dtmfPayloadType
    · rw [if_pos hevents] at h
      rw [← Option.some.inj h]
      exact ⟨rfl, rfl, rfl, rfl⟩
    · rw [if_neg hevents] at h
      rw [← Option.some.inj h]
      exact ⟨rfl, rfl, rfl, rfl⟩

/-- There is an answer to every offer of PCMU or PCMA. -/
theorem makeAnswer_of_offered (h : 0 ∈ offer.payloadTypes ∨ 8 ∈ offer.payloadTypes) :
    ∃ ans, makeAnswer offer localAddr localPort = some ans := by
  have hchosen : ¬(if offer.offersPcmu then 0 else if offer.offersPcma then 8 else -1 : Int) < 0 := by
    simp only [SdpSession.offersPcmu, SdpSession.offersPcma, List.contains_iff_mem]
    split_ifs with hpcmu hpcma
    · omega
    · omega
    · exact absurd h (not_or.mpr ⟨hpcmu, hpcma⟩)
  simp only [makeAnswer, if_neg hchosen]
  split_ifs <;> exact ⟨_, rfl⟩

/-- The answer to an offer in range is in range. -/
theorem makeAnswer_inRange (hrange : offer.InRange)
    (h : makeAnswer offer localAddr localPort = some ans) : ans.InRange := by
  obtain ⟨_, _, _, hptime⟩ := makeAnswer_fields h
  obtain ⟨_, htypes⟩ := makeAnswer_payloadTypes h
  have hvoice : IsInt offer.voiceType := by
    unfold SdpSession.voiceType
    split_ifs <;> simp [IsInt]
  have hp : IsInt ans.ptimeMs := by
    rw [hptime]
    split_ifs
    · exact hrange.ptimeMs
    · simp [IsInt]
  split_ifs at htypes with hevents
  · refine ⟨?_, hp, htypes.2 ▸ hrange.dtmfPayloadType⟩
    rw [htypes.1, List.forall_mem_cons, List.forall_mem_singleton]
    exact ⟨hvoice, hrange.dtmfPayloadType⟩
  · refine ⟨?_, hp, by rw [htypes.2]; simp [IsInt]⟩
    rw [htypes.1, List.forall_mem_singleton]
    exact hvoice

/-- **Our answer, as the offerer reads it**: the address and the port we were
configured with, the codec first, and the telephone events the offer named
unless these have the number of a voice codec. -/
theorem parseSdp_answer (haddr : IsToken localAddr) (hrange : offer.InRange)
    (h : makeAnswer offer localAddr localPort = some ans) :
    ∃ seen, parseSdp ans.generate = some seen ∧ seen.connectionAddress = localAddr ∧
      seen.audioPort = localPort ∧ seen.payloadTypes = ans.payloadTypes ∧
      seen.payloadTypes.head? = some offer.voiceType ∧
      seen.dtmfPayloadType = if offer.dtmfPayloadType ∈ ([0, 8] : List Int) then -1
        else ans.dtmfPayloadType := by
  obtain ⟨husername, haddress, hport, _⟩ := makeAnswer_fields h
  obtain ⟨_, htypes⟩ := makeAnswer_payloadTypes h
  have hhead : ans.payloadTypes.head? = some offer.voiceType := by
    split_ifs at htypes <;> rw [htypes.1] <;> rfl
  have hne : ans.payloadTypes ≠ [] := by
    rintro hnil
    simp [hnil] at hhead
  have hparse := parseSdp_generated (s := ans) (husername ▸ by decide) (haddress ▸ haddr) hne
    (makeAnswer_inRange hrange h)
  refine ⟨_, hparse, haddress, hport, rfl, hhead, ?_⟩
  simp only [SdpSession.writtenDtmf, List.mem_cons, List.not_mem_nil, or_false]
  split_ifs at htypes with hevents
  · rw [htypes.1, htypes.2]
    by_cases hcodec : offer.dtmfPayloadType = 0 ∨ offer.dtmfPayloadType = 8
    · rw [if_pos hcodec, if_neg (by omega)]
    · rw [if_neg hcodec, if_pos ⟨by simp, hevents, by omega⟩]
  · rw [htypes.2, if_neg (by omega), if_neg (by omega)]

end SipDemo
