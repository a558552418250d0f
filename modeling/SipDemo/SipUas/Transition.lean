import SipDemo.SipUas.Response

/-!
# SipDemo.SipUas.Transition

What one message can do to the server.

`Inv` is the invariant of the dialog state, and `Transition` lists the
outcomes of `handle` under it, each with the guard it needs and the exact
result and state it leaves.  `handle_transition` reads the list off the code
once; every property of the server is then a case analysis over it.

Two branches of the source do not appear: the silent retransmission of an
INVITE that was not answered, and the 487 of a pending INVITE.  `handle`
answers an INVITE before it returns, so between calls no INVITE is pending.
-/

namespace SipDemo

/-- The Call-ID and CSeq number of an INVITE request that has both headers. -/
def SipMessage.inviteId (m : SipMessage) : Option (Str × Int) :=
  if m.isRequest ∧ m.method = str "INVITE" then
    match m.get (str "Call-ID"), m.get (str "CSeq") with
    | some cid, some hdr => some (cid, cseqNumber hdr)
    | _, _ => none
  else none

theorem SipMessage.inviteId_eq_some {m : SipMessage} {cid : Str} {n : Int} :
    m.inviteId = some (cid, n) ↔ m.isRequest = true ∧ m.method = str "INVITE" ∧
      m.get (str "Call-ID") = some cid ∧ ∃ hdr, m.get (str "CSeq") = some hdr ∧ cseqNumber hdr = n := by
  unfold inviteId
  by_cases h : m.isRequest = true ∧ m.method = str "INVITE"
  · cases hc : m.get (str "Call-ID") <;> cases hs : m.get (str "CSeq") <;> simp [h]
  · rw [if_neg h]
    exact ⟨nofun, fun ⟨hr, hm, _⟩ => absurd ⟨hr, hm⟩ h⟩

/-- A request that is not an INVITE has no INVITE identity. -/
theorem SipMessage.inviteId_of_not_invite {m : SipMessage}
    (h : ¬(m.isRequest = true ∧ m.method = str "INVITE")) : m.inviteId = none :=
  if_neg h

namespace SipUas

variable {u u' : SipUas} {m : SipMessage} {cid : Str} {n code : Int} {reason : Str}
  {res : UasResult}

/-! ## the invariant -/

/-- The dialog state between two calls of `handle`: a dialog is an answered
call, with a local tag, the INVITE that opened it and the 200 it got. -/
structure Inv (u : SipUas) : Prop where
  answered : u.answered = u.haveDialog
  tag : u.haveDialog = true → u.localTag ≠ []
  invite : u.haveDialog = true → u.lastInvite.inviteId = some (u.callId, u.inviteCSeq)
  status : u.haveDialog = true → u.last2xxInvite.isRequest = false ∧
    u.last2xxInvite.statusCode = 200
  echoes : u.haveDialog = true → u.last2xxInvite.Echoes u.lastInvite

theorem inv_fresh (cfg : UasConfig) (forcedTag : Str) (rng : Stream' UInt32) :
    Inv (fresh cfg forcedTag rng) := by
  constructor <;> simp [fresh]

/-- Without a dialog only the two flags matter. -/
theorem inv_of_idle (hd : u.haveDialog = false) (ha : u.answered = false) : Inv u := by
  constructor <;> simp [hd, ha]

/-- `Inv` reads the dialog only. -/
theorem Inv.congr (h : u'.toDialog = u.toDialog) (hi : Inv u) : Inv u' := by
  constructor <;> rw [h]
  exacts [hi.answered, hi.tag, hi.invite, hi.status, hi.echoes]

/-! ## opening a dialog -/

@[simp] theorem openDialog_haveDialog : (u.openDialog m cid n).haveDialog = true := by
  simp [openDialog]

@[simp] theorem openDialog_answered : (u.openDialog m cid n).answered = false := by
  simp [openDialog]

@[simp] theorem openDialog_callId : (u.openDialog m cid n).callId = cid := by
  simp [openDialog]

@[simp] theorem openDialog_inviteCSeq : (u.openDialog m cid n).inviteCSeq = n := by
  simp [openDialog]

@[simp] theorem openDialog_lastInvite : (u.openDialog m cid n).lastInvite = m := by
  simp [openDialog]

@[simp] theorem openDialog_cfg : (u.openDialog m cid n).cfg = u.cfg := by
  simp [openDialog]

theorem openDialog_localTag_ne_nil : (u.openDialog m cid n).localTag ≠ [] := by
  simp [openDialog, newTag_ne_nil]

/-! ## the outcomes of handle -/

/-- An INVITE of a new call: there is no dialog, or it is an INVITE of the
active call with another CSeq number, which the source does not tell apart. -/
def Opens (u : SipUas) (cid : Str) (n : Int) : Prop :=
  u.haveDialog = true → cid = u.callId ∧ n ≠ u.inviteCSeq

/-- The exits with one response and no effect on the dialog. -/
inductive PlainReply (u : SipUas) (m : SipMessage) : Int → Prop
  | options : m.method = str "OPTIONS" → PlainReply u m 200
  | malformed : m.method = str "INVITE" → m.inviteId = none → PlainReply u m 400
  | busy {cid : Str} {n : Int} : m.inviteId = some (cid, n) → u.haveDialog = true →
      cid ≠ u.callId → PlainReply u m 486
  | cancel : m.method = str "CANCEL" → PlainReply u m 200
  | strayBye : m.method = str "BYE" →
      (u.haveDialog = true → m.get (str "Call-ID") ≠ some u.callId) → PlainReply u m 481
  | other : m.method ∉ [str "OPTIONS", str "INVITE", str "ACK", str "CANCEL", str "BYE"] →
      PlainReply u m 405

/-- The two ways a new call is refused. -/
inductive Refused (cfg : UasConfig) (body : Str) : Int → Str → Prop
  | badSdp : parseSdp body = none → Refused cfg body 400 (str "Bad Request (SDP)")
  | noCodec {offer : SdpSession} : parseSdp body = some offer →
      makeAnswer offer cfg.localIp cfg.rtpPort = none → Refused cfg body 488 []

theorem Refused.code_ge {cfg : UasConfig} {body : Str} (h : Refused cfg body code reason) :
    400 ≤ code := by
  cases h <;> decide

/-- The outcomes of `u.handle m`. -/
inductive Transition (u : SipUas) (m : SipMessage) : UasResult → SipUas → Prop
  | ignored : m.isRequest = false → Transition u m {} u
  | ack : m.isRequest = true → m.method = str "ACK" → Transition u m {} u
  | reply {code : Int} (reason : Str) (hdrs : List (Str × Str)) : m.isRequest = true →
      PlainReply u m code →
      (∀ h ∈ hdrs, h.1 = str "Allow" ∨ h.1 = str "Accept") →
      Transition u m (u.replyWith m code reason hdrs).1 (u.replyWith m code reason hdrs).2
  | retransmission : u.haveDialog = true → m.inviteId = some (u.callId, u.inviteCSeq) →
      Transition u m { responses := [u.last2xxInvite] } u
  | refused {cid : Str} {n code : Int} {reason : Str} : m.inviteId = some (cid, n) →
      Opens u cid n → Refused u.cfg m.body code reason →
      Transition u m
        { responses := [((u.openDialog m cid n).makeResponse m 100 []).1,
            ((u.openDialog m cid n).makeResponse m 180 []).1,
            ((u.openDialog m cid n).makeResponse m code reason).1] }
        { u.openDialog m cid n with haveDialog := false }
  | accepted {cid : Str} {n : Int} {offer answer : SdpSession} : m.inviteId = some (cid, n) →
      Opens u cid n → parseSdp m.body = some offer →
      makeAnswer offer u.cfg.localIp u.cfg.rtpPort = some answer →
      Transition u m
        { responses := [((u.openDialog m cid n).makeResponse m 100 []).1,
            ((u.openDialog m cid n).makeResponse m 180 []).1,
            ((u.openDialog m cid n).okInvite m answer).1]
          media := .start
          remoteRtp := { ip := offer.connectionAddress, port := offer.audioPort }
          payloadType := answer.payloadTypes.headD (-1)
          dtmfPayloadType := answer.dtmfPayloadType }
        { u.openDialog m cid n with
          last2xxInvite := ((u.openDialog m cid n).okInvite m answer).1, answered := true }
  | hangup : m.isRequest = true → m.method = str "BYE" → u.haveDialog = true →
      m.get (str "Call-ID") = some u.callId →
      Transition u m { responses := [(u.makeResponse m 200 (str "OK")).1], media := .stop }
        { u with haveDialog := false, answered := false }

/-- In a state with a local tag, `okInvite` has no side effect either. -/
theorem okInvite_of_tag (h : u.localTag ≠ []) (answer : SdpSession) :
    (u.okInvite m answer).2 = u := by
  simp only [okInvite, makeResponse_of_tag h]

/-- The new-call path ends in a refusal or in an accepted call. -/
theorem newCall_transition (hid : m.inviteId = some (cid, n)) (hopen : Opens u cid n) :
    Transition u m (u.newCall m cid n).1 (u.newCall m cid n).2 := by
  have htag : (u.openDialog m cid n).localTag ≠ [] := openDialog_localTag_ne_nil
  cases hp : parseSdp m.body with
  | none =>
      have ht := Transition.refused hid hopen (.badSdp hp)
      simpa only [newCall, makeResponse_of_tag htag, hp] using ht
  | some offer =>
      cases ha : makeAnswer offer u.cfg.localIp u.cfg.rtpPort with
      | none =>
          have ht := Transition.refused hid hopen (.noCodec hp ha)
          simpa only [newCall, makeResponse_of_tag htag, hp, openDialog_cfg, ha] using ht
      | some answer =>
          have ht := Transition.accepted hid hopen hp ha
          simpa only [newCall, makeResponse_of_tag htag, okInvite_of_tag htag, hp, openDialog_cfg,
            ha] using ht

/-- The INVITE branch: a retransmission, a plain reply or a new call. -/
theorem handleInvite_transition (hi : Inv u) (hr : m.isRequest = true)
    (hm : m.method = str "INVITE") : Transition u m (u.handleInvite m).1 (u.handleInvite m).2 := by
  have hbad : m.inviteId = none →
      Transition u m (u.replyWith m 400 [] []).1 (u.replyWith m 400 [] []).2 :=
    fun h => .reply [] [] hr (.malformed hm h) (by simp)
  unfold handleInvite
  cases hc : m.get (str "Call-ID") with
  | none => exact hbad (by simp [SipMessage.inviteId, hc])
  | some cid =>
      cases hs : m.get (str "CSeq") with
      | none => exact hbad (by simp [SipMessage.inviteId, hc, hs])
      | some hdr =>
          have hid : m.inviteId = some (cid, cseqNumber hdr) :=
            SipMessage.inviteId_eq_some.mpr ⟨hr, hm, hc, hdr, hs, rfl⟩
          dsimp only
          split_ifs with hdup hans hbusy
          · obtain ⟨hd, rfl, hn⟩ := hdup
            exact .retransmission hd (hid.trans (by rw [hn]))
          · -- a dialog that is not answered does not occur between calls
            rw [hi.answered] at hans
            exact absurd hdup.1 hans
          · exact .reply [] [] hr (.busy hid hbusy.1 hbusy.2) (by simp)
          · refine newCall_transition hid fun hd => ?_
            have hcid : cid = u.callId := by
              by_contra hne
              exact hbusy ⟨hd, hne⟩
            exact ⟨hcid, fun hn => hdup ⟨hd, hcid, hn⟩⟩

/-- The CANCEL branch: the dialog is answered, so there is nothing to cancel. -/
theorem handleCancel_transition (hi : Inv u) (hr : m.isRequest = true)
    (hm : m.method = str "CANCEL") : Transition u m (u.handleCancel m).1 (u.handleCancel m).2 := by
  have hpend : ¬(u.haveDialog ∧ m.get (str "Call-ID") = some u.callId ∧ !u.answered) := by
    rintro ⟨hd, _, ha⟩
    simp [hi.answered, hd] at ha
  have ht : Transition u m _ _ := .reply (str "OK") [] hr (.cancel hm) (by simp)
  simpa only [handleCancel, makeResponse_toDialog, if_neg hpend, replyWith, List.foldl_nil] using ht

/-- The BYE branch: the active call ends, or there is no such call. -/
theorem handleBye_transition (hi : Inv u) (hr : m.isRequest = true)
    (hm : m.method = str "BYE") : Transition u m (u.handleBye m).1 (u.handleBye m).2 := by
  unfold handleBye
  split_ifs with h
  · have ht := Transition.hangup hr hm h.1 h.2
    simpa only [makeResponse_of_tag (hi.tag h.1)] using ht
  · exact .reply [] [] hr (.strayBye hm fun hd hc => h ⟨hd, hc⟩) (by simp)

/-- **Every outcome of `handle` is in the list.** -/
theorem handle_transition (hi : Inv u) (m : SipMessage) :
    Transition u m (u.handle m).1 (u.handle m).2 := by
  unfold handle
  split_ifs with hreq hopt hinv hack hcan hbye
  · exact .ignored (by simpa using hreq)
  · exact .reply _ _ (by simpa using hreq) (.options hopt) (by simp)
  · exact handleInvite_transition hi (by simpa using hreq) hinv
  · exact .ack (by simpa using hreq) hack
  · exact handleCancel_transition hi (by simpa using hreq) hcan
  · exact handleBye_transition hi (by simpa using hreq) hbye
  · exact .reply _ _ (by simpa using hreq) (.other (by simp [hopt, hinv, hack, hcan, hbye]))
      (by simp)

/-! ## the invariant is kept -/

/-- A plain reply leaves the dialog alone. -/
@[simp] theorem replyWith_toDialog (hdrs : List (Str × Str)) :
    (u.replyWith m code reason hdrs).2.toDialog = u.toDialog := by
  simp only [replyWith, makeResponse_toDialog]

/-- A plain reply is one response, with the given status. -/
@[simp] theorem replyWith_statusCodes (hdrs : List (Str × Str)) :
    (u.replyWith m code reason hdrs).1.responses.map (·.statusCode) = [code] := by
  simp [replyWith, SipMessage.foldl_set_statusCode]

/-- During a call a plain reply changes nothing at all. -/
theorem replyWith_of_tag (h : u.localTag ≠ []) (hdrs : List (Str × Str)) :
    (u.replyWith m code reason hdrs).2 = u := by
  simp only [replyWith, makeResponse_of_tag h]

/-- The 200 of an INVITE is a 200 response and echoes the INVITE. -/
theorem okInvite_spec (u : SipUas) (m : SipMessage) (answer : SdpSession) :
    ((u.okInvite m answer).1.isRequest = false ∧ (u.okInvite m answer).1.statusCode = 200) ∧
      (u.okInvite m answer).1.Echoes m := by
  constructor
  · simp [okInvite]
  · simp only [okInvite]
    exact (((makeResponse_echoes u m 200 (str "OK")).set (by decide) _).set (by decide) _).withBody _

theorem Transition.inv (hi : Inv u) (h : Transition u m res u') : Inv u' := by
  cases h with
  | ignored _ | ack _ _ | retransmission _ _ => exact hi
  | reply reason hdrs _ _ _ => exact hi.congr (replyWith_toDialog hdrs)
  | refused _ _ _ => exact inv_of_idle rfl (by simp)
  | @accepted cid n _ answer hid _ _ _ =>
      have hok := okInvite_spec (u.openDialog m cid n) m answer
      constructor
      · simp
      · exact fun _ => openDialog_localTag_ne_nil (m := m)
      · exact fun _ => by simpa using hid
      · exact fun _ => hok.1
      · exact fun _ => by simpa using hok.2
  | hangup _ _ _ _ => exact inv_of_idle rfl rfl

theorem inv_next (hi : Inv u) (m : SipMessage) : Inv (u.next m) :=
  (handle_transition hi m).inv hi

/-- The invariant holds in every reachable state. -/
theorem Reachable.inv (h : Reachable u) : Inv u :=
  Run.Reachable.invariant Inv (by rintro _ ⟨cfg, forcedTag, rng, rfl⟩; exact inv_fresh cfg forcedTag rng)
    (fun _ m hi => inv_next hi m) h

/-- Handling one more message keeps a state reachable. -/
theorem Reachable.next (h : Reachable u) (m : SipMessage) : Reachable (u.next m) :=
  Run.Reachable.final h [m]

/-! ## sample requests -/

/-- A request with the four headers a response echoes. -/
def sampleRequest (method callId cseq branch : String) (body : Str) : SipMessage :=
  { method := str method
    requestUri := str "sip:bob@10.0.0.5"
    headers :=
      [(str "Via", str ("SIP/2.0/UDP 10.0.0.9:5060;branch=" ++ branch)),
        (str "From", str "Alice <sip:alice@10.0.0.9>;tag=1928301774"),
        (str "To", str "Bob <sip:bob@10.0.0.5>"),
        (str "Call-ID", str callId),
        (str "CSeq", str cseq)]
    body }

/-- An offer of the payload types `formats`. -/
def sampleOffer (formats : String) : Str :=
  str "v=0" ++ crlf ++ str "c=IN IP4 10.0.0.9" ++ crlf ++
    str ("m=audio 49170 RTP/AVP " ++ formats) ++ crlf

/-- The server the samples are sent to. -/
def sampleUas : SipUas := fresh {} [] fun _ => 7

theorem sampleUas_reachable : Reachable sampleUas := .of_init ⟨{}, [], _, rfl⟩

end SipUas

end SipDemo
