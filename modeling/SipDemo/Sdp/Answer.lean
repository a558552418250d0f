import SipDemo.Sdp

/-!
# SipDemo.Sdp.Answer

The offer/answer step as RFC 3264 has it.  `makeAnswer` takes the voice codec
from the m-line and the telephone-event type from the attributes, and nothing
ties one to the other; `makeAnswer_valid_iff` says which offers it answers well.
-/

namespace SipDemo

namespace SdpSession

/-- The codec of an answer: PCMU when the offer has it. -/
def voiceType (offer : SdpSession) : Int := if 0 ∈ offer.payloadTypes then 0 else 8

/-- An answer to `offer`: a subset of the offered types without repetition, the
preferred codec first, and telephone events told apart from voice. -/
structure AnswerTo (offer ans : SdpSession) : Prop where
  distinct : ans.payloadTypes.Nodup
  offered : ∀ pt ∈ ans.payloadTypes, pt ∈ offer.payloadTypes
  preferred : ans.payloadTypes.head? = some offer.voiceType
  events : ans.dtmfPayloadType = -1 ∨ ans.dtmfPayloadType ≠ offer.voiceType

/-- The telephone-event type is one of the m-line and not that of the voice. -/
def EventsOffered (offer : SdpSession) : Prop :=
  offer.dtmfPayloadType ∈ offer.payloadTypes ∧ offer.dtmfPayloadType ≠ offer.voiceType

end SdpSession

/-- The fields of an answer that negotiate payload types. -/
theorem makeAnswer_payloadTypes {offer ans : SdpSession} {localAddr : Str} {localPort : UInt16}
    (h : makeAnswer offer localAddr localPort = some ans) :
    offer.voiceType ∈ offer.payloadTypes ∧
    if 0 ≤ offer.dtmfPayloadType then
      ans.payloadTypes = [offer.voiceType, offer.dtmfPayloadType] ∧
        ans.dtmfPayloadType = offer.dtmfPayloadType
    else ans.payloadTypes = [offer.voiceType] ∧ ans.dtmfPayloadType = -1 := by
  have hchosen : ∃ chosen : Int, chosen ∈ offer.payloadTypes ∧ chosen = offer.voiceType ∧
      (if offer.offersPcmu then 0 else if offer.offersPcma then 8 else -1) = chosen := by
    simp only [SdpSession.offersPcmu, SdpSession.offersPcma, List.contains_iff_mem]
    by_cases hpcmu : (0 : Int) ∈ offer.payloadTypes
    · exact ⟨0, hpcmu, (if_pos hpcmu).symm, if_pos hpcmu⟩
    · by_cases hpcma : (8 : Int) ∈ offer.payloadTypes
      · exact ⟨8, hpcma, (if_neg hpcmu).symm, by rw [if_neg hpcmu, if_pos hpcma]⟩
      · simp [makeAnswer, SdpSession.offersPcmu, SdpSession.offersPcma, hpcmu, hpcma] at h
  obtain ⟨chosen, hmem, hvoice, heq⟩ := hchosen
  have hnonneg : ¬chosen < 0 := by
    rw [hvoice, SdpSession.voiceType]
    split_ifs <;> omega
  simp only [makeAnswer, heq, if_neg hnonneg] at h
  refine ⟨hvoice ▸ hmem, ?_⟩
  by_cases hevents : 0 ≤ offer.dtmfPayloadType
  · rw [if_pos hevents] at h ⊢
    rw [← Option.some_inj.mp h, hvoice]
    exact ⟨rfl, rfl⟩
  · rw [if_neg hevents] at h ⊢
    rw [← Option.some_inj.mp h, hvoice]
    exact ⟨rfl, rfl⟩

/-- An answer is valid when the offer names no telephone-event type, or names
one of its m-line's that is not the voice codec's; every other offer gets an
answer that is not. -/
theorem makeAnswer_valid_iff {offer ans : SdpSession} {localAddr : Str} {localPort : UInt16}
    (h : makeAnswer offer localAddr localPort = some ans) :
    offer.AnswerTo ans ↔ offer.dtmfPayloadType < 0 ∨ offer.EventsOffered := by
  obtain ⟨hvoice, htypes⟩ := makeAnswer_payloadTypes h
  by_cases hevents : 0 ≤ offer.dtmfPayloadType
  · rw [if_pos hevents] at htypes
    constructor
    · intro hvalid
      have hoffered : ∀ pt ∈ ans.payloadTypes, pt ∈ offer.payloadTypes := hvalid.offered
      have hdistinct : ans.payloadTypes.Nodup := hvalid.distinct
      rw [htypes.1] at hoffered hdistinct
      rw [List.nodup_cons, List.mem_singleton] at hdistinct
      exact .inr ⟨hoffered _ (by simp), Ne.symm hdistinct.1⟩
    · intro hcond
      have hoffered : offer.EventsOffered := hcond.resolve_left (by omega)
      constructor
      · rw [htypes.1, List.nodup_cons, List.mem_singleton]
        exact ⟨Ne.symm hoffered.2, by simp⟩
      · rw [htypes.1, List.forall_mem_cons, List.forall_mem_singleton]
        exact ⟨hvoice, hoffered.1⟩
      · rw [htypes.1]
        rfl
      · rw [htypes.2]
        exact .inr hoffered.2
  · rw [if_neg hevents] at htypes
    refine iff_of_true ?_ (.inl (by omega))
    constructor
    · simp [htypes.1]
    · rw [htypes.1, List.forall_mem_singleton]
      exact hvoice
    · rw [htypes.1]
      rfl
    · exact .inl htypes.2

/-- An ordinary offer: PCMU, PCMA and telephone events. -/
def ordinaryOffer : Str :=
  str "v=0\r\no=a 1 1 IN IP4 10.0.0.2\r\ns=-\r\nc=IN IP4 10.0.0.2\r\nt=0 0\r\n" ++
  str "m=audio 5000 RTP/AVP 0 8 101\r\na=rtpmap:101 telephone-event/8000\r\n"

/-- Its answer is valid. -/
theorem makeAnswer_valid_ordinaryOffer :
    ∃ offer ans, parseSdp ordinaryOffer = some offer ∧
      makeAnswer offer (str "10.0.0.1") 40000 = some ans ∧ offer.AnswerTo ans := by
  let offer : SdpSession :=
    { username := str "a", sessionId := 1, sessionVersion := 1,
      connectionAddress := str "10.0.0.2", audioPort := 5000, payloadTypes := [0, 8, 101],
      dtmfPayloadType := 101 }
  have hanswer : makeAnswer offer (str "10.0.0.1") 40000 = some
      { username := str "sipdemo", sessionId := 1, sessionVersion := 1,
        connectionAddress := str "10.0.0.1", audioPort := 40000, payloadTypes := [0, 101],
        dtmfPayloadType := 101 } := by decide +kernel
  refine ⟨offer, _, by decide +kernel, hanswer, (makeAnswer_valid_iff hanswer).mpr (.inr ?_)⟩
  exact ⟨by decide, by decide⟩

/-- An offer whose attribute claims the number of PCMU for telephone events. -/
def collidingOffer : Str :=
  str "v=0\r\no=a 1 1 IN IP4 10.0.0.2\r\ns=-\r\nc=IN IP4 10.0.0.2\r\nt=0 0\r\n" ++
  str "m=audio 5000 RTP/AVP 0 8\r\na=rtpmap:0 telephone-event/8000\r\n"

/-- Its answer lists type 0 twice, as the voice and as the telephone events. -/
theorem makeAnswer_collidingOffer :
    ∃ offer ans, parseSdp collidingOffer = some offer ∧
      makeAnswer offer (str "10.0.0.1") 40000 = some ans ∧
      ans.payloadTypes = [0, 0] ∧ ans.dtmfPayloadType = 0 ∧ ¬offer.AnswerTo ans := by
  let offer : SdpSession :=
    { username := str "a", sessionId := 1, sessionVersion := 1,
      connectionAddress := str "10.0.0.2", audioPort := 5000, payloadTypes := [0, 8],
      dtmfPayloadType := 0 }
  let ans : SdpSession :=
    { username := str "sipdemo", sessionId := 1, sessionVersion := 1,
      connectionAddress := str "10.0.0.1", audioPort := 40000, payloadTypes := [0, 0],
      dtmfPayloadType := 0 }
  refine ⟨offer, ans, by decide +kernel, by decide +kernel, rfl, rfl, fun hvalid => ?_⟩
  exact absurd hvalid.distinct (by decide)

end SipDemo
