import SipDemo.Sdp.Exchange
import SipDemo.Server
import SipDemo.SipUas.Abstraction
import SipDemo.SipUas.Injection

/-!
# SipDemo.Server.Setup

A call is set up across the wire.  An INVITE that arrives as a datagram and
offers PCMU or PCMA is answered by three datagrams; what the caller parses of
the last one is a 200 with an answer to the offer, and the session that starts
is the one the answer describes (`setup_agrees`): the same codec, towards the
address of the offer.  The answer names the port that the process was told to
bind.

The one thing the two ends can disagree on are the telephone events, when the
offer gives them the number of a voice codec.
-/

namespace SipDemo

/-- The address of the process is one that `inet_pton` takes, so it is a text
without blanks of at most 15 bytes.  (`bind` also takes the empty text, for any
address; a process that was given none announces none, and is left out.) -/
structure Config.Addressed (c : Config) : Prop where
  token : IsToken c.ip
  short : c.ip.length ≤ 15

theorem Config.Addressed.clean {c : Config} (h : c.Addressed) : c.uas.Clean where
  userAgent := by
    show str "sipdemo/0.1" ≠ [] ∧ 13 ∉ str "sipdemo/0.1" ∧ 10 ∉ str "sipdemo/0.1"
    decide
  localIp := ⟨h.token.1, fun hcr => absurd (h.token.2 13 hcr) (by decide),
    fun hlf => absurd (h.token.2 10 hlf) (by decide)⟩

namespace Server

open SipUas (Guarded)

/-! ## the process in its run -/

/-- A request that came as a datagram has single-line values. -/
theorem oneLineValues_of_request {dg : Datagram} {m : SipMessage} (h : request dg = some m) :
    m.OneLineValues := by
  rw [request, Option.filter_eq_some_iff] at h
  exact SipUas.oneLineValues_of_parseSip h.1

/-- What a run keeps of the user agent server and of the ports. -/
structure Wired (c : Config) (sipLocalPort : UInt16) (s : Server) : Prop where
  guarded : Guarded s.uas
  inv : s.uas.Inv
  cfg_eq : s.uas.cfg = c.uas
  port_eq : s.sipLocalPort = sipLocalPort

variable {c : Config} {sipLocalPort : UInt16} {s : Server}

theorem wired_boot (hc : c.Addressed) (sipLocalPort : UInt16) (rng : Stream' UInt32) :
    Wired c sipLocalPort (boot c sipLocalPort rng) where
  guarded := SipUas.ReachableByDatagrams.guarded hc.clean (.of_init ⟨rng, rfl⟩)
  inv := SipUas.inv_fresh c.uas [] rng
  cfg_eq := rfl
  port_eq := rfl

theorem Wired.step (h : Wired c sipLocalPort s) (e : Event) :
    Wired c sipLocalPort (s.step e) := by
  have hport : (s.step e).sipLocalPort = s.sipLocalPort := by
    cases e with
    | signal dg =>
        rcases s.handled_cases (.signal dg) with ⟨dg', m, heq, hs, hm, _⟩ | ⟨hnone, _⟩
        · obtain rfl := Event.signal.inj heq
          rw [Server.step, act, signal_of_request hs hm, command_sipLocalPort]
        · rw [Server.step, act, signal_of_not_handled hnone]
    | recv dg nowSec | playout | output connected => exact turn_sipLocalPort s _
    | join wsClosed => exact join_sipLocalPort s wsClosed
  rcases s.handled_cases e with ⟨dg, m, rfl, hs, hm, _⟩ | ⟨_, huas⟩
  · have huas := uas_of_request hs hm
    refine ⟨huas ▸ (h.guarded.handle (oneLineValues_of_request hm)).2,
      huas ▸ SipUas.inv_next h.inv m, ?_, hport.trans h.port_eq⟩
    rw [huas, SipUas.next_cfg h.inv m, h.cfg_eq]
  · exact ⟨huas ▸ h.guarded, huas ▸ h.inv, huas ▸ h.cfg_eq, hport.trans h.port_eq⟩

theorem wired_run (hc : c.Addressed) (sipLocalPort : UInt16) (rng : Stream' UInt32)
    (es : List Event) : Wired c sipLocalPort (Run.final Server.step (boot c sipLocalPort rng) es) :=
  Run.final_of_preserved (Wired c sipLocalPort) (fun _ e h => h.step e)
    (wired_boot hc sipLocalPort rng) es

/-! ## an INVITE to a free line -/

/-- The 200 of an accepted INVITE carries the answer. -/
theorem okInvite_body (u : SipUas) (m : SipMessage) (answer : SdpSession) :
    (u.okInvite m answer).1.body = answer.generate := by
  simp [SipUas.okInvite]

/-- A free line accepts every INVITE whose offer can be answered. -/
theorem handle_accepts {u : SipUas} (hi : u.Inv) (hidle : u.haveDialog = false) {m : SipMessage}
    {cid : Str} {n : Int} (hid : m.inviteId = some (cid, n)) {offer ans : SdpSession}
    (hp : parseSdp m.body = some offer)
    (ha : makeAnswer offer u.cfg.localIp u.cfg.rtpPort = some ans) :
    (u.handle m).1 =
      { responses := [((u.openDialog m cid n).makeResponse m 100 []).1,
          ((u.openDialog m cid n).makeResponse m 180 []).1,
          ((u.openDialog m cid n).okInvite m ans).1]
        media := .start
        remoteRtp := { ip := offer.connectionAddress, port := offer.audioPort }
        payloadType := ans.payloadTypes.headD (-1)
        dtmfPayloadType := ans.dtmfPayloadType } := by
  obtain ⟨hr, hm, _⟩ := SipMessage.inviteId_eq_some.mp hid
  have ht := SipUas.handle_transition hi m
  generalize u.handle m = out at ht ⊢
  obtain ⟨res, u'⟩ := out
  dsimp only at ht ⊢
  cases ht with
  | ignored hno => exact absurd (hr.symm.trans hno) (by decide)
  | ack _ hack => exact absurd (hm.symm.trans hack) (by decide)
  | reply _ _ _ hplain _ =>
      exact absurd (hidle.symm.trans (hplain.busy_of_inviteId hid).2.1) (by decide)
  | retransmission hd _ => exact absurd (hidle.symm.trans hd) (by decide)
  | refused _ _ href =>
      cases href with
      | badSdp hbad => simp [hp] at hbad
      | noCodec hp' hnone =>
          obtain rfl := Option.some.inj (hp.symm.trans hp')
          simp [ha] at hnone
  | accepted hid' _ hp' ha' =>
      obtain ⟨rfl, rfl⟩ := Prod.mk.inj (Option.some.inj (hid.symm.trans hid'))
      obtain rfl := Option.some.inj (hp.symm.trans hp')
      obtain rfl := Option.some.inj (ha.symm.trans ha')
      rfl
  | hangup _ hbye _ _ => exact absurd (hm.symm.trans hbye) (by decide)

/-- **Call setup**, for a process that was given an IPv4 address and an RTP port
that is not its SIP port: at any time the line is free, an INVITE that offers
PCMU or PCMA is answered to its sender by a 100, a 180 and a 200; the answer that
the 200 carries names the address and the RTP port the process was given (for
port 0, which lets the system choose, it names port 0) and the codec, and the
session that starts has that codec and goes to the address of the offer.  The two
ends agree on the telephone events exactly when these do not have the number of
a voice codec. -/
theorem setup_agrees (hc : c.Addressed) (hport : c.rtpPort ≠ sipLocalPort) (rng : Stream' UInt32)
    (es : List Event) {dg : Datagram} {m : SipMessage} {offer : SdpSession} :
    let s := Run.final Server.step (boot c sipLocalPort rng) es
    s.control = .serving → s.media = none → s.uas.haveDialog = false →
    request dg = some m → m.inviteId.isSome = true → parseSdp m.body = some offer →
    0 ∈ offer.payloadTypes ∨ 8 ∈ offer.payloadTypes →
    ∃ trying ringing ok m200 ans session,
      s.outputs (.signal dg) = [.respond trying dg.sender, .respond ringing dg.sender,
        .respond ok dg.sender] ∧
      (parseSip trying).map (·.statusCode) = some 100 ∧
      (parseSip ringing).map (·.statusCode) = some 180 ∧
      parseSip ok = some m200 ∧ m200.statusCode = 200 ∧ parseSdp m200.body = some ans ∧
      ans.connectionAddress = c.ip ∧ ans.audioPort = c.rtpPort ∧
      ans.payloadTypes.head? = some offer.voiceType ∧
      (s.step (.signal dg)).media = some session ∧
      session.remote = { ip := offer.connectionAddress, port := offer.audioPort } ∧
      session.payloadType = offer.voiceType ∧
      (session.dtmfPayloadType = ans.dtmfPayloadType ↔
        offer.dtmfPayloadType ∉ ([0, 8] : List Int)) := by
  intro s hserve hmedia hidle hreq hid hp hcodec
  have hw : Wired c sipLocalPort s := wired_run hc sipLocalPort rng es
  obtain ⟨⟨cid, n⟩, hid⟩ := Option.isSome_iff_exists.mp hid
  have hrange := parseSdp_inRange hp
  obtain ⟨ans, ha⟩ := @makeAnswer_of_offered offer c.ip c.rtpPort hcodec
  obtain ⟨seen, hseen, haddress, hrtp, htypes, hhead, hdtmf⟩ := parseSdp_answer hc.token hrange ha
  have ha' : makeAnswer offer s.uas.cfg.localIp s.uas.cfg.rtpPort = some ans := by
    rw [hw.cfg_eq]
    exact ha
  have hhandle := handle_accepts hw.inv hidle hid hp ha'
  -- each response is parsed as it was built
  have hreply := (hw.guarded.handle (oneLineValues_of_request hreq)).1
  rw [hhandle, List.forall_mem_cons, List.forall_mem_cons, List.forall_mem_singleton] at hreply
  obtain ⟨htrying, hringing, hok⟩ := hreply
  have hbody : ((s.uas.openDialog m cid n).okInvite m ans).1.body.length ≤ maxSize := by
    have hlen := length_generate_le (makeAnswer_inRange hrange ha)
    obtain ⟨hname, haddr, _⟩ := makeAnswer_fields ha
    have htwo : ans.payloadTypes.length ≤ 2 := by
      obtain ⟨_, hlist⟩ := makeAnswer_payloadTypes ha
      split_ifs at hlist <;> simp [hlist.1]
    have hname' : ans.username.length = 7 := by
      rw [hname]
      rfl
    have hshort := hc.short
    rw [okInvite_body]
    rw [haddr] at hlen
    unfold maxSize
    omega
  obtain ⟨m100, hm100, hintact100⟩ := SipUas.Reply.intact htrying (by simp)
  obtain ⟨m180, hm180, hintact180⟩ := SipUas.Reply.intact hringing (by simp)
  obtain ⟨m200, hm200, hintact200⟩ := SipUas.Reply.intact hok hbody
  have hbind : ({ s with uas := s.uas.next m } : Server).bindFails = false := by
    have hcfg : (s.uas.next m).cfg.rtpPort = c.rtpPort := by
      rw [SipUas.next_cfg hw.inv m, hw.cfg_eq]
      rfl
    rw [bindFails, hcfg, hw.port_eq, hmedia, beq_eq_false_iff_ne.mpr hport]
    simp
  have hstarted : (s.step (.signal dg)).media = some (MediaSession.make.start
      { ip := offer.connectionAddress, port := offer.audioPort } (ans.payloadTypes.headD (-1))
      ans.dtmfPayloadType) := by
    rw [Server.step, act, signal_of_request hserve hreq, hhandle]
    simp only [command, hbind, Bool.false_eq_true, if_false]
    simp [replace, hmedia]
  have htrying' := congrArg (Option.map (·.statusCode)) hm100
  have hringing' := congrArg (Option.map (·.statusCode)) hm180
  rw [Option.map_some, hintact100.statusCode, SipUas.makeResponse_statusCode] at htrying'
  rw [Option.map_some, hintact180.statusCode, SipUas.makeResponse_statusCode] at hringing'
  refine ⟨_, _, _, m200, seen, _, ?_, htrying', hringing', hm200, ?_, ?_, haddress, hrtp, hhead,
    hstarted, rfl, ?_, ?_⟩
  · rw [outputs, act, signal_of_request hserve hreq, hhandle]
    rfl
  · rw [hintact200.statusCode]
    exact (SipUas.okInvite_spec _ m ans).1.2
  · rw [hintact200.body, okInvite_body]
    exact hseen
  · show ans.payloadTypes.headD (-1) = offer.voiceType
    rw [htypes] at hhead
    rw [List.headD_eq_head?_getD, hhead, Option.getD_some]
  · show ans.dtmfPayloadType = seen.dtmfPayloadType ↔ _
    obtain ⟨_, hanswer⟩ := makeAnswer_payloadTypes ha
    rw [hdtmf]
    by_cases hcodecs : offer.dtmfPayloadType ∈ ([0, 8] : List Int)
    · have hpos : 0 ≤ offer.dtmfPayloadType := by
        simp only [List.mem_cons, List.not_mem_nil, or_false] at hcodecs
        omega
      rw [if_pos hpos] at hanswer
      rw [if_pos hcodecs, hanswer.2]
      exact iff_of_false (by omega) (not_not.mpr hcodecs)
    · rw [if_neg hcodecs]
      exact iff_of_true rfl hcodecs

/-- The first datagram of the sample call. -/
def sampleInvite : Datagram :=
  { data := (SipUas.sampleRequest "INVITE" "a84b4c76" "1 INVITE" "z9hG4bK1"
      (SipUas.sampleOffer "0")).serialize
    sender := samplePeer }

theorem setup_agrees_sampleInvite :
    ∃ trying ringing ok m200 ans session offer,
      (boot {} 5060 fun _ => 7).outputs (.signal sampleInvite) =
        [.respond trying samplePeer, .respond ringing samplePeer, .respond ok samplePeer] ∧
      (parseSip trying).map (·.statusCode) = some 100 ∧
      (parseSip ringing).map (·.statusCode) = some 180 ∧
      parseSip ok = some m200 ∧ m200.statusCode = 200 ∧ parseSdp m200.body = some ans ∧
      ans.connectionAddress = str "127.0.0.1" ∧ ans.audioPort = 40000 ∧
      ans.payloadTypes.head? = some (SdpSession.voiceType offer) ∧
      ((boot {} 5060 fun _ => 7).step (.signal sampleInvite)).media = some session ∧
      session.remote = { ip := offer.connectionAddress, port := offer.audioPort } ∧
      session.payloadType = offer.voiceType ∧
      (session.dtmfPayloadType = ans.dtmfPayloadType ↔
        offer.dtmfPayloadType ∉ ([0, 8] : List Int)) := by
  have hsample : (request sampleInvite).any (fun m => m.inviteId.isSome &&
      (parseSdp m.body).any fun offer => offer.payloadTypes.contains 0) = true := by
    decide +kernel
  obtain ⟨m, hreq, hm⟩ := (Option.any_eq_true _ _).mp hsample
  rw [Bool.and_eq_true] at hm
  obtain ⟨offer, hp, hoffer⟩ := (Option.any_eq_true _ _).mp hm.2
  obtain ⟨trying, ringing, ok, m200, ans, session, h⟩ := setup_agrees (c := {})
    ⟨by decide, by decide⟩ (by decide : ({} : Config).rtpPort ≠ 5060) (fun _ => 7) [] rfl rfl rfl
    hreq hm.1 hp (.inl (List.contains_iff_mem.mp hoffer))
  exact ⟨trying, ringing, ok, m200, ans, session, offer, h⟩

end Server

end SipDemo
