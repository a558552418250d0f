import SipDemo.Line
import SipDemo.SipUas.Calls

/-!
# SipDemo.SipUas.Abstraction

The server as a line that hosts one call at a time.

Of a message only four things matter to the line: whether it is an INVITE or a
BYE, its Call-ID, its CSeq number, and whether its offer can be answered
(`asks`).  From these alone the line says which status codes are sent and what
becomes of the media (`shows`); the tags, the random engine, the cached
responses and every other header have no part in it.  `run_shown` is the
refinement: a run of the server shows what the run of the line shows.
-/

namespace SipDemo

/-! ## what a message asks, and what a result shows -/

/-- Whether the offer in a body can be answered. -/
def UasConfig.accepts (cfg : UasConfig) (body : Str) : Bool :=
  ((parseSdp body).bind fun offer => makeAnswer offer cfg.localIp cfg.rtpPort).isSome

/-- What a message asks of the line. -/
def UasConfig.asks (cfg : UasConfig) (m : SipMessage) : Line.Request Str Int :=
  match m.inviteId with
  | some (cid, n) => .invite cid n (cfg.accepts m.body)
  | none =>
      if m.isRequest ∧ m.method = str "BYE" then
        match m.get (str "Call-ID") with
        | some cid => .bye cid
        | none => .other
      else .other

/-- A result without the texts of its responses: their status codes, and the
media command. -/
def UasResult.shown (res : UasResult) : List Int × UasResult :=
  (res.responses.map (·.statusCode), { res with responses := [] })

/-- The reply to a message that concerns no call. -/
def SipMessage.otherStatus (m : SipMessage) : List Int :=
  if !m.isRequest ∨ m.method = str "ACK" then []
  else if m.method = str "OPTIONS" ∨ m.method = str "CANCEL" then [200]
  else if m.method = str "INVITE" then [400]
  else if m.method = str "BYE" then [481]
  else [405]

/-- The media command of an accepted INVITE: towards the address of the offer,
with the first codec of our answer. -/
def UasConfig.mediaStart (cfg : UasConfig) (body : Str) : UasResult :=
  match parseSdp body with
  | none => {}
  | some offer =>
      match makeAnswer offer cfg.localIp cfg.rtpPort with
      | none => {}
      | some answer =>
          { media := .start
            remoteRtp := { ip := offer.connectionAddress, port := offer.audioPort }
            payloadType := answer.payloadTypes.headD (-1)
            dtmfPayloadType := answer.dtmfPayloadType }

/-- What the line shows of an outcome. -/
def UasConfig.shows (cfg : UasConfig) (m : SipMessage) : Line.Outcome → List Int × UasResult
  | .repeated => ([200], {})
  | .busy => ([486], {})
  | .refused => ([100, 180, if (parseSdp m.body).isNone then 400 else 488], {})
  | .accepted => ([100, 180, 200], cfg.mediaStart m.body)
  | .ended => ([200], { media := .stop })
  | .noCall => ([481], {})
  | .other => (m.otherStatus, {})

namespace SipUas

variable {u u' : SipUas} {m : SipMessage} {cid : Str} {n code : Int} {res : UasResult}

/-- The call that is up. -/
def line (u : SipUas) : Line Str Int :=
  if u.haveDialog then some (u.callId, u.inviteCSeq) else none

theorem line_of_call (h : u.haveDialog = true) : u.line = some (u.callId, u.inviteCSeq) :=
  if_pos h

theorem line_of_idle (h : u.haveDialog = false) : u.line = none := by
  simp [line, h]

theorem line_congr (h : u'.toDialog = u.toDialog) : u'.line = u.line := by
  rw [line, line, h]

/-! ## what is asked -/

theorem asks_invite {cfg : UasConfig} (h : m.inviteId = some (cid, n)) :
    cfg.asks m = .invite cid n (cfg.accepts m.body) := by
  simp [UasConfig.asks, h]

/-- An INVITE asks for a call only with both headers, and a BYE only with a
Call-ID. -/
theorem asks_other {cfg : UasConfig} (hid : m.inviteId = none)
    (hbye : m.isRequest = true → m.method = str "BYE" → m.get (str "Call-ID") = none) :
    cfg.asks m = .other := by
  simp only [UasConfig.asks, hid]
  split_ifs with h
  · rw [hbye h.1 h.2]
  · rfl

/-- A message that is neither INVITE nor BYE asks for nothing. -/
theorem asks_of_method {cfg : UasConfig} (hinv : m.method ≠ str "INVITE")
    (hbye : m.method ≠ str "BYE") : cfg.asks m = .other :=
  asks_other (SipMessage.inviteId_of_not_invite fun h => hinv h.2) fun _ h => absurd h hbye

theorem asks_bye {cfg : UasConfig} (hr : m.isRequest = true) (hm : m.method = str "BYE")
    (hc : m.get (str "Call-ID") = some cid) : cfg.asks m = .bye cid := by
  have hid : m.inviteId = none :=
    SipMessage.inviteId_of_not_invite fun h => absurd (hm.symm.trans h.2) (by decide)
  simp [UasConfig.asks, hid, hr, hm, hc]

/-- An INVITE opens a call wherever it takes the new-call path when it has both
headers and its offer can be answered. -/
theorem asks_acceptable_iff {cfg : UasConfig} :
    (cfg.asks m).Acceptable ↔ m.inviteId.isSome = true ∧ cfg.accepts m.body = true := by
  unfold UasConfig.asks
  cases m.inviteId with
  | some id => simp
  | none =>
      dsimp only
      split_ifs
      · split <;> simp
      · simp

/-- The new-call path is where the line opens a call. -/
theorem turn_of_opens {acceptable : Bool} (hopen : Opens u cid n) :
    Line.turn u.line (.invite cid n acceptable) = Line.opened cid n acceptable := by
  cases hd : u.haveDialog with
  | false => rw [line_of_idle hd]; rfl
  | true =>
      obtain ⟨rfl, hn⟩ := hopen hd
      simp [line_of_call hd, Line.turn, hn]

/-! ## one message -/

/-- A plain reply is what the line says to a busy caller, to a BYE without a
call, and to anything that concerns no call. -/
theorem PlainReply.refines (hr : m.isRequest = true) (h : PlainReply u m code) :
    (u.cfg.shows m (Line.turn u.line (u.cfg.asks m)).1) = ([code], {}) ∧
      (Line.turn u.line (u.cfg.asks m)).2 = u.line := by
  have hother : u.cfg.asks m = .other → m.otherStatus = [code] →
      (u.cfg.shows m (Line.turn u.line (u.cfg.asks m)).1) = ([code], {}) ∧
        (Line.turn u.line (u.cfg.asks m)).2 = u.line := by
    intro hasks hcode
    rw [hasks]
    exact ⟨by rw [← hcode]; rfl, rfl⟩
  cases h with
  | options hm | cancel hm =>
      exact hother (asks_of_method (by simp +decide [hm]) (by simp +decide [hm]))
        (by simp +decide [SipMessage.otherStatus, hr, hm])
  | malformed hm hnone =>
      exact hother (asks_other hnone fun _ h => absurd (hm.symm.trans h) (by decide))
        (by simp +decide [SipMessage.otherStatus, hr, hm])
  | busy hid hd hne =>
      rw [asks_invite hid, line_of_call hd]
      simp [Line.turn, hne, UasConfig.shows]
  | strayBye hm hcall =>
      cases hc : m.get (str "Call-ID") with
      | none =>
          exact hother (asks_other (SipMessage.inviteId_of_not_invite fun h =>
              absurd (hm.symm.trans h.2) (by decide)) fun _ _ => hc)
            (by simp +decide [SipMessage.otherStatus, hr, hm])
      | some cid =>
          have hup : u.line.map Prod.fst ≠ some cid := by
            cases hd : u.haveDialog with
            | false => simp [line_of_idle hd]
            | true => simpa [line_of_call hd, hc, eq_comm] using hcall hd
          rw [asks_bye hr hm hc]
          simp [Line.turn, hup, UasConfig.shows]
  | other hm =>
      simp only [List.mem_cons, List.not_mem_nil, or_false, not_or] at hm
      obtain ⟨hopt, hinv, hack, hcan, hbye⟩ := hm
      exact hother (asks_of_method hinv hbye)
        (by simp [SipMessage.otherStatus, hr, hopt, hinv, hack, hcan, hbye])

/-- A message shows what the line shows, and leaves the line as the line says. -/
theorem Transition.refines (hi : Inv u) (ht : Transition u m res u') :
    res.shown = u.cfg.shows m (Line.turn u.line (u.cfg.asks m)).1 ∧
      u'.line = (Line.turn u.line (u.cfg.asks m)).2 := by
  cases ht with
  | ignored hr =>
      have hasks : u.cfg.asks m = .other :=
        asks_other (SipMessage.inviteId_of_not_invite (by simp [hr])) fun h => by simp [hr] at h
      rw [hasks]
      simp [UasResult.shown, UasConfig.shows, Line.turn, SipMessage.otherStatus, hr]
  | ack hr hm =>
      have hasks : u.cfg.asks m = .other :=
        asks_of_method (by simp +decide [hm]) (by simp +decide [hm])
      rw [hasks]
      simp [UasResult.shown, UasConfig.shows, Line.turn, SipMessage.otherStatus, hm]
  | reply reason hdrs hr hplain _ =>
      obtain ⟨hshows, hline⟩ := hplain.refines hr
      rw [hshows, hline]
      exact ⟨Prod.ext (by rw [UasResult.shown, replyWith_statusCodes]) rfl,
        line_congr (replyWith_toDialog hdrs)⟩
  | retransmission hd hid =>
      rw [asks_invite hid, line_of_call hd]
      simp [UasResult.shown, UasConfig.shows, Line.turn, (hi.status hd).2]
  | @refused cid n code reason hid hopen href =>
      have hacc : u.cfg.accepts m.body = false := by
        cases href with
        | badSdp hp => simp [UasConfig.accepts, hp]
        | noCodec hp ha => simp [UasConfig.accepts, hp, ha]
      have hshows : u.cfg.shows m .refused = ([100, 180, code], {}) := by
        cases href with
        | badSdp hp => simp [UasConfig.shows, hp]
        | noCodec hp ha => simp [UasConfig.shows, hp]
      rw [asks_invite hid, turn_of_opens hopen, hacc]
      exact ⟨by simp [UasResult.shown, Line.opened, hshows], line_of_idle rfl⟩
  | @accepted cid n offer answer hid hopen hp ha =>
      have hacc : u.cfg.accepts m.body = true := by simp [UasConfig.accepts, hp, ha]
      rw [asks_invite hid, turn_of_opens hopen, hacc]
      exact ⟨by simp [UasResult.shown, Line.opened, UasConfig.shows, UasConfig.mediaStart, hp, ha,
          okInvite],
        by simp [line, Line.opened]⟩
  | hangup hr hm hd hc =>
      rw [asks_bye hr hm hc, line_of_call hd]
      simp [UasResult.shown, UasConfig.shows, Line.turn, line]

theorem mediaStart_media {cfg : UasConfig} {body : Str} (h : cfg.accepts body = true) :
    (cfg.mediaStart body).media = .start := by
  unfold UasConfig.accepts at h
  unfold UasConfig.mediaStart
  cases hp : parseSdp body with
  | none => simp [hp] at h
  | some offer =>
      cases ha : makeAnswer offer cfg.localIp cfg.rtpPort with
      | none => simp [hp, ha] at h
      | some answer => simp [ha]

/-- The configuration is never changed. -/
theorem Transition.cfg_eq (ht : Transition u m res u') : u'.cfg = u.cfg := by
  cases ht with
  | ignored _ | ack _ _ | retransmission _ _ | hangup _ _ _ _ => rfl
  | reply reason hdrs _ _ _ => simp [replyWith]
  | refused _ _ _ | accepted _ _ _ _ => simp

theorem next_cfg (hi : Inv u) (m : SipMessage) : (u.next m).cfg = u.cfg :=
  (handle_transition hi m).cfg_eq

theorem next_line (hi : Inv u) (m : SipMessage) :
    (u.next m).line = Line.step u.line (u.cfg.asks m) :=
  ((handle_transition hi m).refines hi).2

/-- The media follow the line. -/
theorem handle_media (hi : Inv u) (m : SipMessage) :
    (u.handle m).1.media = match (Line.turn u.line (u.cfg.asks m)).1 with
      | .accepted => .start
      | .ended => .stop
      | _ => .none := by
  have hmedia : (u.handle m).1.media =
      (u.cfg.shows m (Line.turn u.line (u.cfg.asks m)).1).2.media :=
    congrArg (·.2.media) ((handle_transition hi m).refines hi).1
  rw [hmedia]
  split
  · next hout =>
    have hacc := (asks_acceptable_iff.mp (Line.acceptable_of_turn hout)).2
    rw [hout]
    exact mediaStart_media hacc
  · next hout => rw [hout]; rfl
  · next hacc hend =>
    cases hout : (Line.turn u.line (u.cfg.asks m)).1 with
    | accepted => exact absurd hout hacc
    | ended => exact absurd hout hend
    | repeated | busy | refused | noCall | other => rfl

/-! ## runs -/

/-- **Refinement**: whatever the tags and the random engine, a run of the
server shows the status codes and the media commands that the line shows, and
the call that is up is the line's. -/
theorem run_shown (cfg : UasConfig) (forcedTag : Str) (rng : Stream' UInt32)
    (ms : List SipMessage) :
    Run.collect next (fun u m => [(u.handle m).1.shown]) (fresh cfg forcedTag rng) ms =
        Run.collect (fun l m => Line.step l (cfg.asks m))
          (fun l m => [cfg.shows m (Line.turn l (cfg.asks m)).1]) none ms ∧
      (Run.final next (fresh cfg forcedTag rng) ms).line =
        Run.final (fun l m => Line.step l (cfg.asks m)) none ms := by
  refine (Run.simulates (fun u l => Inv u ∧ u.cfg = cfg ∧ u.line = l) ?_ ?_
    ⟨inv_fresh cfg forcedTag rng, rfl, rfl⟩ ms).imp_right fun h => h.2.2
  · rintro u l m ⟨hi, rfl, rfl⟩
    rw [((handle_transition hi m).refines hi).1]
  · rintro u l m ⟨hi, rfl, rfl⟩
    exact ⟨inv_next hi m, next_cfg hi m, next_line hi m⟩

end SipUas

end SipDemo
