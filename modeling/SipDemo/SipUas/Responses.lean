import SipDemo.SipUas.Calls

/-!
# SipDemo.SipUas.Responses

What the server answers, in any reachable state: how many responses a request
gets, and whose transaction they carry.

Responses come from three origins: the request in hand, the stored INVITE (the
487 of a CANCEL) and the cached 200.  The second never occurs, and the third is
where a response can carry another transaction than the one it answers: the
retransmission test compares the Call-ID and the CSeq number only.
-/

namespace SipDemo

namespace SipUas

variable {u u' : SipUas} {m r : SipMessage} {res : UasResult}

/-! ## one final response -/

/-- Exactly one final response, the last one; all before it are provisional. -/
def OneFinal (rs : List SipMessage) : Prop :=
  ∃ pre r, rs = pre ++ [r] ∧ 200 ≤ r.statusCode ∧ ∀ p ∈ pre, p.statusCode < 200

/-- A request of another method is no ACK. -/
theorem method_ne_ack {name : String} (h : m.method = str name) (hname : str name ≠ str "ACK") :
    m.method ≠ str "ACK" :=
  h ▸ hname

/-- A plain reply is final, is no 487, and is not given to an ACK. -/
theorem PlainReply.spec {code : Int} (h : PlainReply u m code) :
    200 ≤ code ∧ code ≠ 487 ∧ m.method ≠ str "ACK" := by
  cases h with
  | options h | malformed h _ | cancel h | strayBye h _ =>
      exact ⟨by decide, by decide, method_ne_ack h (by decide)⟩
  | busy hid _ _ =>
      have h := (SipMessage.inviteId_eq_some.mp hid).2.1
      exact ⟨by decide, by decide, method_ne_ack h (by decide)⟩
  | other h => exact ⟨by decide, by decide, fun h' => by simp [h'] at h⟩

/-- The status codes of the responses: none, one final code, or the two
provisional codes of an INVITE before a final one. -/
inductive Codes (m : SipMessage) : List Int → Prop
  | none : m.isRequest = false ∨ m.method = str "ACK" → Codes m []
  | final {code : Int} : m.method ≠ str "ACK" → 200 ≤ code → code ≠ 487 → Codes m [code]
  | invite {code : Int} : m.method = str "INVITE" → 200 ≤ code → Codes m [100, 180, code]

theorem Transition.codes (hi : Inv u) (ht : Transition u m res u') :
    Codes m (res.responses.map (·.statusCode)) := by
  cases ht with
  | ignored hr => exact .none (.inl hr)
  | ack _ hm => exact .none (.inr hm)
  | reply reason hdrs _ hplain _ =>
      obtain ⟨hge, h487, hack⟩ := hplain.spec
      rw [replyWith_statusCodes]
      exact .final hack hge h487
  | retransmission hd hid =>
      have h := (SipMessage.inviteId_eq_some.mp hid).2.1
      simp only [List.map_cons, List.map_nil, (hi.status hd).2]
      exact .final (method_ne_ack h (by decide)) (by decide) (by decide)
  | refused hid _ hwhy =>
      have h := (SipMessage.inviteId_eq_some.mp hid).2.1
      have hge := hwhy.code_ge
      simp only [List.map_cons, List.map_nil, makeResponse_statusCode]
      exact .invite h (by omega)
  | accepted hid _ _ _ =>
      have h := (SipMessage.inviteId_eq_some.mp hid).2.1
      simp only [List.map_cons, List.map_nil, makeResponse_statusCode, (okInvite_spec _ _ _).1.2]
      exact .invite h (by decide)
  | hangup _ h _ _ =>
      simp only [List.map_cons, List.map_nil, makeResponse_statusCode]
      exact .final (method_ne_ack h (by decide)) (by decide) (by decide)

/-- Every message other than an ACK gets exactly one final response. -/
theorem Codes.oneFinal {rs : List SipMessage} (h : Codes m (rs.map (·.statusCode)))
    (hr : m.isRequest = true) (hack : m.method ≠ str "ACK") : OneFinal rs := by
  generalize hcodes : rs.map (·.statusCode) = codes at h
  cases h with
  | none h =>
      rcases h with h | h
      · simp [hr] at h
      · exact absurd h hack
  | final _ hge _ =>
      obtain ⟨r, rfl, rfl⟩ := List.map_eq_singleton_iff.mp hcodes
      exact ⟨[], r, rfl, hge, by simp⟩
  | invite _ hge =>
      obtain ⟨p₁, _, rfl, h₁, htail⟩ := List.map_eq_cons_iff.mp hcodes
      obtain ⟨p₂, _, rfl, h₂, htail⟩ := List.map_eq_cons_iff.mp htail
      obtain ⟨r, rfl, rfl⟩ := List.map_eq_singleton_iff.mp htail
      exact ⟨[p₁, p₂], r, rfl, hge, by simp [h₁, h₂]⟩

theorem Codes.invite_of_provisional {codes : List Int} (h : Codes m codes) {code : Int}
    (hc : code ∈ codes) (hlt : code < 200) : m.method = str "INVITE" := by
  cases h with
  | none _ => simp at hc
  | final _ hge _ =>
      obtain rfl := List.mem_singleton.mp hc
      omega
  | invite hm _ => exact hm

theorem Codes.nil_of_ack {codes : List Int} (h : Codes m codes) (hm : m.method = str "ACK") :
    codes = [] := by
  cases h with
  | none _ => rfl
  | final hack _ _ => exact absurd hm hack
  | invite hinv _ => exact absurd (hm.symm.trans hinv) (by decide)

theorem Codes.no_487_of_cancel {codes : List Int} (h : Codes m codes)
    (hm : m.method = str "CANCEL") : 487 ∉ codes := by
  cases h with
  | none _ => exact List.not_mem_nil
  | final _ _ h487 => simpa using h487.symm
  | invite hinv _ => exact absurd (hm.symm.trans hinv) (by decide)

/-- A CANCEL never stops media: no INVITE is pending between calls. -/
theorem Transition.media_of_cancel (ht : Transition u m res u') (hm : m.method = str "CANCEL") :
    res.media ≠ .stop := by
  cases ht with
  | ignored _ | ack _ _ | retransmission _ _ | refused _ _ _ | reply _ _ _ _ _ => exact nofun
  | accepted _ _ _ _ => exact nofun
  | hangup _ hbye _ _ => exact absurd (hm.symm.trans hbye) (by decide)

/-- **Response discipline.**  In every reachable state a dialog is an answered
call whose cached 200 carries its Call-ID and CSeq number; every request other
than ACK gets exactly one final response, the last one, and provisional
responses go to INVITEs only; ACK gets no response; and CANCEL gets no 487 and
stops nothing. -/
theorem response_discipline (hu : Reachable u) :
    u.haveDialog = u.answered ∧
    (u.haveDialog = true →
      u.last2xxInvite.isRequest = false ∧ u.last2xxInvite.statusCode = 200 ∧
      u.last2xxInvite.get (str "Call-ID") = some u.callId ∧
      ∃ hdr, u.last2xxInvite.get (str "CSeq") = some hdr ∧
        match parseCSeq hdr with
        | some c => c.number = u.inviteCSeq
        | none => u.inviteCSeq = -1) ∧
    (∀ m, m.isRequest = true → m.method ≠ str "ACK" → OneFinal (u.handle m).1.responses) ∧
    (∀ m, ∀ r ∈ (u.handle m).1.responses, r.statusCode < 200 → m.method = str "INVITE") ∧
    (∀ m, m.method = str "ACK" → (u.handle m).1.responses = []) ∧
    (∀ m, m.method = str "CANCEL" →
      (∀ r ∈ (u.handle m).1.responses, r.statusCode ≠ 487) ∧ (u.handle m).1.media ≠ .stop) := by
  have hi := hu.inv
  refine ⟨hi.answered.symm, ?_, ?_, ?_, ?_, ?_⟩
  · intro hd
    obtain ⟨_, _, hcid, hdr, hs, hn⟩ := SipMessage.inviteId_eq_some.mp (hi.invite hd)
    have hecho := hi.echoes hd
    refine ⟨(hi.status hd).1, (hi.status hd).2, hecho.callId.trans hcid, hdr,
      hecho.cseq.trans hs, ?_⟩
    rw [← hn, cseqNumber]
    cases parseCSeq hdr <;> rfl
  · exact fun m hr hack => ((handle_transition hi m).codes hi).oneFinal hr hack
  · exact fun m r hr hlt =>
      ((handle_transition hi m).codes hi).invite_of_provisional (List.mem_map_of_mem hr) hlt
  · exact fun m hm => List.map_eq_nil_iff.mp (((handle_transition hi m).codes hi).nil_of_ack hm)
  · refine fun m hm => ⟨fun r hr h487 => ?_, (handle_transition hi m).media_of_cancel hm⟩
    exact ((handle_transition hi m).codes hi).no_487_of_cancel hm (h487 ▸ List.mem_map_of_mem hr)

/-- The discipline in the sample call: its BYE gets one final response, and the
cached 200 is a 200. -/
theorem response_discipline_sample :
    sampleCall.last2xxInvite.statusCode = 200 ∧ OneFinal (sampleCall.handle sampleBye).1.responses :=
  have h := response_discipline sampleCall_reachable
  ⟨(h.2.1 (by decide +kernel)).2.1, h.2.2.1 sampleBye (by decide) (by decide)⟩

/-! ## whose transaction a response carries -/

/-- The request a response answers: for the 487 of a CANCEL it is the INVITE. -/
def answers (u : SipUas) (m r : SipMessage) : SipMessage :=
  if m.method = str "CANCEL" ∧ r.statusCode = 487 then u.lastInvite else m

/-- An INVITE that is taken for a retransmission of the active call's INVITE. -/
def Retransmits (u : SipUas) (m : SipMessage) : Prop :=
  u.haveDialog = true ∧ m.inviteId = some (u.callId, u.inviteCSeq)

/-- Except for the cached 200, every response is built from the request in hand. -/
theorem Transition.echoes (ht : Transition u m res u') (hre : ¬Retransmits u m)
    (hr : r ∈ res.responses) : r.Echoes m := by
  cases ht with
  | ignored _ | ack _ _ => exact absurd hr List.not_mem_nil
  | @reply code reason hdrs _ _ hnames =>
      obtain rfl := List.mem_singleton.mp hr
      refine (makeResponse_echoes u m code reason).foldl_set fun x hx => ?_
      rcases hnames x hx with h | h <;> rw [h] <;> decide
  | retransmission hd hid => exact absurd ⟨hd, hid⟩ hre
  | refused _ _ _ =>
      simp only [List.mem_cons, List.not_mem_nil, or_false] at hr
      rcases hr with rfl | rfl | rfl <;> exact makeResponse_echoes _ _ _ _
  | accepted _ _ _ _ =>
      simp only [List.mem_cons, List.not_mem_nil, or_false] at hr
      rcases hr with rfl | rfl | rfl
      · exact makeResponse_echoes _ _ _ _
      · exact makeResponse_echoes _ _ _ _
      · exact (okInvite_spec _ _ _).2
  | hangup _ _ _ _ =>
      obtain rfl := List.mem_singleton.mp hr
      exact makeResponse_echoes _ _ _ _

/-- **Transaction echo.**  In a reachable state, every response carries the
transaction of the request it answers exactly when the request is not taken
for a retransmission, or carries the transaction of the INVITE that opened the
call. -/
theorem responses_echo_iff (hu : Reachable u) (m : SipMessage) :
    (∀ r ∈ (u.handle m).1.responses, r.Echoes (answers u m r)) ↔
      (Retransmits u m → u.lastInvite.Echoes m) := by
  have hi := hu.inv
  by_cases hre : Retransmits u m
  · obtain ⟨hd, hid⟩ := hre
    have hm := (SipMessage.inviteId_eq_some.mp hid).2.1
    have hcan : m.method ≠ str "CANCEL" := fun h => absurd (hm.symm.trans h) (by decide)
    have hans : ∀ r, answers u m r = m := fun r => if_neg fun h => hcan h.1
    rw [handle_retransmission hi hd hid]
    simp only [List.mem_singleton, forall_eq, hans]
    exact ⟨fun h _ => (hi.echoes hd).symm.trans h, fun h => (hi.echoes hd).trans (h ⟨hd, hid⟩)⟩
  · refine iff_of_true (fun r hr => ?_) fun h => absurd h hre
    have h487 : ¬(m.method = str "CANCEL" ∧ r.statusCode = 487) := fun h =>
      ((handle_transition hi m).codes hi).no_487_of_cancel h.1 (h.2 ▸ List.mem_map_of_mem hr)
    rw [answers, if_neg h487]
    exact (handle_transition hi m).echoes hre hr

/-- The sample INVITE itself is answered with its own transaction. -/
theorem responses_echo_sample : (sampleCall.handle sampleInvite).1.responses.length = 1 ∧
    ∀ r ∈ (sampleCall.handle sampleInvite).1.responses,
      r.Echoes (answers sampleCall sampleInvite r) :=
  ⟨by decide +kernel, (responses_echo_iff sampleCall_reachable sampleInvite).mpr fun _ =>
    ⟨by decide +kernel, by decide +kernel, by decide +kernel, by decide +kernel⟩⟩

/-- The same Call-ID and CSeq number on another branch: the 200 carries the
Via of the first INVITE. -/
theorem retransmission_on_other_branch :
    ¬∀ r ∈ (sampleCall.handle
          (sampleRequest "INVITE" "a84b4c76" "1 INVITE" "z9hG4bK9" (sampleOffer "0"))).1.responses,
        r.Echoes (answers sampleCall
          (sampleRequest "INVITE" "a84b4c76" "1 INVITE" "z9hG4bK9" (sampleOffer "0")) r) := by
  intro h
  have hmem : sampleCall.last2xxInvite ∈ (sampleCall.handle
      (sampleRequest "INVITE" "a84b4c76" "1 INVITE" "z9hG4bK9" (sampleOffer "0"))).1.responses := by
    decide +kernel
  exact absurd (h _ hmem).via (by decide +kernel)

end SipUas

end SipDemo
