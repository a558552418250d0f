import SipDemo.SipUas.Transition

/-!
# SipDemo.SipUas.Calls

The life of a call: what keeps it, what ends it, and what the media events of
a run add up to.

Everything rests on one frame lemma, `inCall_frame`: during a call only two
kinds of message have any effect, an INVITE of the call with another CSeq
number (`Reinvites`) and a BYE of the call (`HangsUp`).  The first is where the
server goes wrong: it enters the new-call path, which overwrites the dialog of
the running call and starts media a second time.
-/

namespace SipDemo

/-- What `main` does with a media event: `start` sets up a session, `stop`
drops it. -/
def MediaAction.apply (running : Bool) : MediaAction → Bool
  | .none => running
  | .start => true
  | .stop => false

namespace SipUas

variable {u u' : SipUas} {m : SipMessage} {cid : Str} {n code : Int} {res : UasResult}

/-! ## what touches a call -/

/-- An INVITE of the active call with another CSeq number. -/
def Reinvites (u : SipUas) (m : SipMessage) : Prop :=
  u.haveDialog = true ∧ m.inviteId.map Prod.fst = some u.callId ∧
    m.inviteId ≠ some (u.callId, u.inviteCSeq)

/-- A BYE of the active call. -/
def HangsUp (u : SipUas) (m : SipMessage) : Prop :=
  u.haveDialog = true ∧ m.isRequest = true ∧ m.method = str "BYE" ∧
    m.get (str "Call-ID") = some u.callId

instance : Decidable (Reinvites u m) := inferInstanceAs (Decidable (_ ∧ _ ∧ _))

/-- An INVITE takes the new-call path during a call exactly when it is an
INVITE of that call with another number. -/
theorem reinvites_iff_of_opens (hid : m.inviteId = some (cid, n)) (hopen : Opens u cid n) :
    Reinvites u m ↔ u.haveDialog = true := by
  constructor
  · exact fun h => h.1
  · intro hd
    obtain ⟨rfl, hn⟩ := hopen hd
    exact ⟨hd, by simp [hid], by simp [hid, hn]⟩

theorem not_reinvites_of_not_invite (h : m.inviteId = none) : ¬Reinvites u m := by
  rintro ⟨_, hcid, _⟩
  simp [h] at hcid

/-- A plain reply to an INVITE that has both headers is the 486 of a busy line. -/
theorem PlainReply.busy_of_inviteId (h : PlainReply u m code) (hid : m.inviteId = some (cid, n)) :
    code = 486 ∧ u.haveDialog = true ∧ cid ≠ u.callId := by
  have hm := (SipMessage.inviteId_eq_some.mp hid).2.1
  cases h with
  | options h | cancel h | strayBye h _ => exact absurd (h.symm.trans hm) (by decide)
  | malformed _ hnone => simp [hid] at hnone
  | busy hid' hd hne =>
      obtain ⟨rfl, rfl⟩ := Prod.mk.inj (Option.some.inj (hid.symm.trans hid'))
      exact ⟨rfl, hd, hne⟩
  | other h => simp [hm] at h

theorem PlainReply.not_reinvites (h : PlainReply u m code) : ¬Reinvites u m := by
  rintro ⟨_, hcid, _⟩
  obtain ⟨⟨cid, n⟩, hid, rfl⟩ := Option.map_eq_some_iff.mp hcid
  exact (h.busy_of_inviteId hid).2.2 rfl

/-- **Frame**: during a call, a message that neither re-invites nor hangs up
changes nothing and has no media event. -/
theorem Transition.frame (hi : Inv u) (hd : u.haveDialog = true) (hre : ¬Reinvites u m)
    (hbye : ¬HangsUp u m) (ht : Transition u m res u') : u' = u ∧ res.media = .none := by
  cases ht with
  | ignored _ | ack _ _ | retransmission _ _ => exact ⟨rfl, rfl⟩
  | reply reason hdrs _ _ _ => exact ⟨replyWith_of_tag (hi.tag hd) hdrs, rfl⟩
  | refused hid hopen _ | accepted hid hopen _ _ =>
      exact absurd ((reinvites_iff_of_opens hid hopen).mpr hd) hre
  | hangup hr hm _ hc => exact absurd ⟨hd, hr, hm, hc⟩ hbye

theorem inCall_frame (hi : Inv u) (hd : u.haveDialog = true) (hre : ¬Reinvites u m)
    (hbye : ¬HangsUp u m) : u.next m = u ∧ (u.handle m).1.media = .none :=
  (handle_transition hi m).frame hi hd hre hbye

/-! ## media events -/

/-- One step of the server next to `main`'s media session. -/
def withMedia (s : SipUas × Bool) (m : SipMessage) : SipUas × Bool :=
  (s.1.next m, (s.1.handle m).1.media.apply s.2)

/-- The media session runs after the step exactly during a call, and the step
does not start a session while one is running. -/
def MediaPaired (s : SipUas × Bool) (m : SipMessage) : Prop :=
  ((withMedia s m).2 = true ↔ (withMedia s m).1.inCall = true) ∧
    ¬((s.1.handle m).1.media = .start ∧ s.2 = true)

instance (s : SipUas × Bool) (m : SipMessage) : Decidable (MediaPaired s m) :=
  inferInstanceAs (Decidable (_ ∧ _))

/-- With media running exactly during calls so far, one step keeps the two
paired exactly when it is not an INVITE of the active call with a new CSeq
number: such a step either starts media twice or leaves media running without
a call. -/
theorem Transition.paired_iff (ht : Transition u m res u') :
    ((res.media.apply u.haveDialog = true ↔ u'.haveDialog = true) ∧
      ¬(res.media = .start ∧ u.haveDialog = true)) ↔ ¬Reinvites u m := by
  have hplain : ¬Reinvites u m → u'.haveDialog = u.haveDialog → res.media = .none →
      (((res.media.apply u.haveDialog = true ↔ u'.haveDialog = true) ∧
        ¬(res.media = .start ∧ u.haveDialog = true)) ↔ ¬Reinvites u m) := by
    intro hre hd hmed
    simp [hd, hmed, hre, MediaAction.apply]
  cases ht with
  | ignored hr =>
      exact hplain (not_reinvites_of_not_invite (SipMessage.inviteId_of_not_invite (by simp [hr])))
        rfl rfl
  | ack _ hm =>
      refine hplain (not_reinvites_of_not_invite (SipMessage.inviteId_of_not_invite fun h => ?_))
        rfl rfl
      exact absurd (hm.symm.trans h.2) (by decide)
  | reply reason hdrs _ hplainReply _ =>
      exact hplain hplainReply.not_reinvites (by simp) rfl
  | retransmission _ hid => exact hplain (fun h => h.2.2 hid) rfl rfl
  | refused hid hopen _ =>
      rw [reinvites_iff_of_opens hid hopen]
      simp [MediaAction.apply]
  | accepted hid hopen _ _ =>
      rw [reinvites_iff_of_opens hid hopen]
      simp [MediaAction.apply]
  | hangup hr hm hd hc =>
      have hre : ¬Reinvites u m :=
        not_reinvites_of_not_invite (SipMessage.inviteId_of_not_invite fun h =>
          absurd (hm.symm.trans h.2) (by decide))
      simp [hre, MediaAction.apply]

/-- **Media follows the call**, in a run from a new server, exactly as long as
no INVITE of the active call arrives with another CSeq number. -/
theorem media_paired_iff (cfg : UasConfig) (forcedTag : Str) (rng : Stream' UInt32)
    (ms : List SipMessage) :
    Run.Always withMedia MediaPaired (fresh cfg forcedTag rng, false) ms ↔
      Run.Always next (fun u m => ¬Reinvites u m) (fresh cfg forcedTag rng) ms := by
  have hstep : ∀ (s : SipUas × Bool) (m : SipMessage), Inv s.1 ∧ s.2 = s.1.haveDialog →
      (MediaPaired s m ↔ ¬Reinvites s.1 m) := by
    rintro ⟨u, running⟩ m ⟨hi, hrun⟩
    obtain rfl : running = u.haveDialog := hrun
    exact (handle_transition hi m).paired_iff
  have hkeep : ∀ (s : SipUas × Bool) (m : SipMessage), Inv s.1 ∧ s.2 = s.1.haveDialog →
      ¬Reinvites s.1 m → Inv (withMedia s m).1 ∧ (withMedia s m).2 = (withMedia s m).1.haveDialog := by
    intro s m hs hre
    exact ⟨inv_next hs.1 m, Bool.eq_iff_iff.mpr ((hstep s m hs).mpr hre).1⟩
  rw [Run.always_congr _ hstep hkeep ⟨inv_fresh cfg forcedTag rng, rfl⟩]
  exact Run.always_proj Prod.fst (fun u m => ¬Reinvites u m) (fun _ _ => rfl) _ _

/-- A re-INVITE that offers PCMU like the first INVITE: media is started a
second time while it is running. -/
theorem media_unpaired_by_reinvite :
    ¬Run.Always withMedia MediaPaired (sampleUas, false)
      [sampleRequest "INVITE" "a84b4c76" "1 INVITE" "z9hG4bK1" (sampleOffer "0"),
        sampleRequest "INVITE" "a84b4c76" "2 INVITE" "z9hG4bK2" (sampleOffer "0")] := by
  decide +kernel

/-! ## refused INVITEs of the active call -/

/-- `u'` still holds the call of `u`: the dialog fields are the same, a BYE of
the call gets a 200 and stops media, and a retransmission of the INVITE gets
the cached 200. -/
structure KeepsCall (u u' : SipUas) : Prop where
  haveDialog : u'.haveDialog = u.haveDialog
  answered : u'.answered = u.answered
  callId : u'.callId = u.callId
  inviteCSeq : u'.inviteCSeq = u.inviteCSeq
  localTag : u'.localTag = u.localTag
  last2xxInvite : u'.last2xxInvite = u.last2xxInvite
  bye : ∀ m, m.isRequest = true → m.method = str "BYE" → m.get (str "Call-ID") = some u.callId →
    (u'.handle m).1.media = .stop ∧ (u'.handle m).1.responses.map (·.statusCode) = [200]
  retransmission : ∀ m, m.inviteId = some (u.callId, u.inviteCSeq) →
    (u'.handle m).1 = { responses := [u.last2xxInvite] }

/-- A BYE of the call ends it with a 200. -/
theorem handle_bye (hd : u.haveDialog = true) (hr : m.isRequest = true)
    (hm : m.method = str "BYE") (hc : m.get (str "Call-ID") = some u.callId) :
    (u.handle m).1.media = .stop ∧ (u.handle m).1.responses.map (·.statusCode) = [200] := by
  have hbye : u.handle m = u.handleBye m := by
    simp +decide [handle, hr, hm]
  simp [hbye, handleBye, hd, hc]

/-- A retransmission of the INVITE of the call gets the cached 200 and changes
nothing. -/
theorem handle_retransmission (hi : Inv u) (hd : u.haveDialog = true)
    (hid : m.inviteId = some (u.callId, u.inviteCSeq)) :
    u.handle m = ({ responses := [u.last2xxInvite] }, u) := by
  obtain ⟨hr, hm, hc, hdr, hs, hn⟩ := SipMessage.inviteId_eq_some.mp hid
  have hinv : u.handle m = u.handleInvite m := by
    simp +decide [handle, hr, hm]
  simp [hinv, handleInvite, hc, hs, hn, hd, hi.answered]

/-- A state holds its own call. -/
theorem KeepsCall.refl (hi : Inv u) (hd : u.haveDialog = true) : KeepsCall u u where
  haveDialog := rfl
  answered := rfl
  callId := rfl
  inviteCSeq := rfl
  localTag := rfl
  last2xxInvite := rfl
  bye _ hr hm hc := handle_bye hd hr hm hc
  retransmission _ hid := congrArg Prod.fst (handle_retransmission hi hd hid)

/-- An INVITE with both headers and the active call's Call-ID that gets a
response of 400 or above leaves the dialog closed. -/
theorem Transition.closed_of_refused (hi : Inv u) (ht : Transition u m res u')
    (hid : m.inviteId = some (u.callId, n))
    (hfinal : ∃ r ∈ res.responses, 400 ≤ r.statusCode) : u'.haveDialog = false := by
  obtain ⟨r, hr, hcode⟩ := hfinal
  cases ht with
  | ignored _ | ack _ _ => simp at hr
  | reply _ _ _ hplain _ => exact absurd rfl (hplain.busy_of_inviteId hid).2.2
  | retransmission hd _ =>
      obtain rfl : r = u.last2xxInvite := by simpa using hr
      rw [(hi.status hd).2] at hcode
      exact absurd hcode (by decide)
  | refused _ _ _ => rfl
  | accepted _ _ _ _ =>
      simp only [List.mem_cons, List.not_mem_nil, or_false] at hr
      rcases hr with rfl | rfl | rfl
      · simp at hcode
      · simp at hcode
      · simp [(okInvite_spec _ _ _).1.2] at hcode
  | hangup _ _ _ _ => rfl

/-- **A refused INVITE of the active call keeps the call** exactly when it is
refused for want of a CSeq header: the later exits come after the dialog has
been overwritten, and leave it closed. -/
theorem refused_invite_keepsCall_iff (hu : Reachable u) (hd : u.haveDialog = true)
    (hr : m.isRequest = true) (hm : m.method = str "INVITE")
    (hc : m.get (str "Call-ID") = some u.callId)
    (hfinal : ∃ r ∈ (u.handle m).1.responses, 400 ≤ r.statusCode) :
    KeepsCall u (u.next m) ↔ m.get (str "CSeq") = none := by
  have hi := hu.inv
  constructor
  · intro hkeep
    cases hs : m.get (str "CSeq") with
    | none => rfl
    | some hdr =>
        have hid : m.inviteId = some (u.callId, cseqNumber hdr) :=
          SipMessage.inviteId_eq_some.mpr ⟨hr, hm, hc, hdr, hs, rfl⟩
        have hclosed := (handle_transition hi m).closed_of_refused hi hid hfinal
        exact absurd (hkeep.haveDialog.trans hd) (by simp [next, hclosed])
  · intro hs
    have hid : m.inviteId = none := by simp [SipMessage.inviteId, hs]
    have hbye : ¬HangsUp u m := fun h => absurd (hm.symm.trans h.2.2.1) (by decide)
    rw [(inCall_frame hi hd (not_reinvites_of_not_invite hid) hbye).1]
    exact .refl hi hd

/-- The INVITE that opens the sample call. -/
def sampleInvite : SipMessage :=
  sampleRequest "INVITE" "a84b4c76" "1 INVITE" "z9hG4bK1" (sampleOffer "0")

/-- The sample call is up. -/
def sampleCall : SipUas := sampleUas.next sampleInvite

/-- An INVITE of the sample call without a CSeq header is refused and the call
is kept. -/
theorem refused_invite_keepsCall_sample :
    KeepsCall sampleCall (sampleCall.next { sampleInvite with
      headers := sampleInvite.headers.filter fun h => h.1 ≠ str "CSeq" }) :=
  (refused_invite_keepsCall_iff (sampleUas_reachable.next sampleInvite) (by decide +kernel)
    (by decide +kernel) (by decide +kernel) (by decide +kernel) (by decide +kernel)).mpr
    (by decide +kernel)

theorem sampleCall_reachable : Reachable sampleCall := sampleUas_reachable.next sampleInvite

/-- A re-INVITE of the sample call with no usable codec. -/
def sampleReinvite : SipMessage :=
  sampleRequest "INVITE" "a84b4c76" "2 INVITE" "z9hG4bK2" (sampleOffer "96")

/-- The re-INVITE is answered 488 and the call is gone. -/
theorem refused_reinvite_drops_call :
    Reachable sampleCall ∧ sampleCall.haveDialog = true ∧
      sampleReinvite.get (str "Call-ID") = some sampleCall.callId ∧
      (∃ r ∈ (sampleCall.handle sampleReinvite).1.responses, 400 ≤ r.statusCode) ∧
      ¬KeepsCall sampleCall (sampleCall.next sampleReinvite) :=
  ⟨sampleCall_reachable, by decide +kernel, by decide +kernel, by decide +kernel,
    fun h => absurd h.haveDialog (by decide +kernel)⟩

/-! ## isolation -/

/-- A message of the call `cid`. -/
def owns (cid : Str) (m : SipMessage) : Bool := m.get (str "Call-ID") = some cid

/-- What the server does for the messages of the call `cid`. -/
def ownResults (cid : Str) (u : SipUas) (m : SipMessage) : List UasResult :=
  if owns cid m then [(u.handle m).1] else []

/-- The call `cid` is active before every step. -/
def StaysActive (cid : Str) : SipUas → List SipMessage → Prop :=
  Run.Always next fun u _ => u.haveDialog = true ∧ u.callId = cid

/-- A foreign message has no effect during a call. -/
theorem foreign_frame (hi : Inv u) (hd : u.haveDialog = true)
    (hforeign : m.get (str "Call-ID") ≠ some u.callId) :
    u.next m = u ∧ (u.handle m).1.media = .none := by
  refine inCall_frame hi hd ?_ fun h => hforeign h.2.2.2
  rintro ⟨_, hcid, _⟩
  obtain ⟨⟨cid, n⟩, hid, rfl⟩ := Option.map_eq_some_iff.mp hcid
  exact hforeign (SipMessage.inviteId_eq_some.mp hid).2.2.1

/-- **Isolation of the active call**: a foreign message leaves the dialog alone
and has no media event, and erasing all foreign messages from a stretch of the
run in which the call stays active changes nothing the server does for the
call. -/
theorem active_call_isolated (hu : Reachable u) (hd : u.haveDialog = true) :
    (∀ m, m.get (str "Call-ID") ≠ some u.callId →
      (u.next m).toDialog = u.toDialog ∧ (u.handle m).1.media = .none) ∧
    ∀ ms, StaysActive u.callId u ms →
      Run.collect next (ownResults u.callId) u (ms.filter (owns u.callId)) =
        Run.collect next (ownResults u.callId) u ms := by
  constructor
  · intro m hforeign
    obtain ⟨hnext, hmedia⟩ := foreign_frame hu.inv hd hforeign
    exact ⟨by rw [hnext], hmedia⟩
  · intro ms hact
    refine (Run.erase_unobserved (hact.imp Inv ?_ (fun _ m hi _ => inv_next hi m) hu.inv)).2
    intro v m hi ⟨hv, hcid⟩ hforeign
    have hne : m.get (str "Call-ID") ≠ some v.callId := by simpa [owns, hcid] using hforeign
    exact ⟨(foreign_frame hi hv hne).1, by simp [ownResults, hforeign]⟩

/-- A BYE of the sample call. -/
def sampleBye : SipMessage := sampleRequest "BYE" "a84b4c76" "2 BYE" "z9hG4bK3" []

/-- A second caller's BYE does not touch the sample call, and its INVITE and
BYE between the messages of the call are not noticed. -/
theorem sampleCall_isolated :
    (sampleCall.next (sampleRequest "BYE" "f81d4fae" "2 BYE" "z9hG4bK8" [])).toDialog =
        sampleCall.toDialog ∧
      Run.collect next (ownResults sampleCall.callId) sampleCall
          ([sampleRequest "INVITE" "f81d4fae" "1 INVITE" "z9hG4bK7" (sampleOffer "0"), sampleInvite,
            sampleRequest "BYE" "f81d4fae" "2 BYE" "z9hG4bK8" [], sampleBye].filter
              (owns sampleCall.callId)) =
        Run.collect next (ownResults sampleCall.callId) sampleCall
          [sampleRequest "INVITE" "f81d4fae" "1 INVITE" "z9hG4bK7" (sampleOffer "0"), sampleInvite,
            sampleRequest "BYE" "f81d4fae" "2 BYE" "z9hG4bK8" [], sampleBye] :=
  have h := active_call_isolated sampleCall_reachable (by decide +kernel)
  ⟨(h.1 _ (by decide +kernel)).1, h.2 _ (by unfold StaysActive; decide +kernel)⟩

/-! ## retransmissions -/

/-- A message that neither hangs up the call `cid` nor is an INVITE of it with
another number than `n`. -/
def LeavesUp (cid : Str) (n : Int) (m : SipMessage) : Prop :=
  ¬(m.isRequest = true ∧ m.method = str "BYE" ∧ m.get (str "Call-ID") = some cid) ∧
    (m.inviteId.map Prod.fst = some cid → m.inviteId = some (cid, n))

instance : Decidable (LeavesUp cid n m) := inferInstanceAs (Decidable (_ ∧ _))

/-- The call `(cid, n)` is up. -/
def IsUp (cid : Str) (n : Int) (u : SipUas) : Prop :=
  u.haveDialog = true ∧ u.callId = cid ∧ u.inviteCSeq = n

/-- A call that is up is left exactly as it is by every message that leaves it
up. -/
theorem IsUp.frame (hi : Inv u) (hup : IsUp cid n u) (hm : LeavesUp cid n m) :
    u.next m = u ∧ (u.handle m).1.media = .none := by
  obtain ⟨hd, rfl, rfl⟩ := hup
  exact inCall_frame hi hd (fun h => h.2.2 (hm.2 h.2.1)) fun h => hm.1 h.2

/-- An INVITE with a 200 among its responses has put its call up, and that 200
is the cached one. -/
theorem Transition.up_of_ok (ht : Transition u m res u') (hid : m.inviteId = some (cid, n))
    {ok : SipMessage} (hok : ok ∈ res.responses) (h200 : ok.statusCode = 200) :
    IsUp cid n u' ∧ u'.last2xxInvite = ok := by
  have hsame : ∀ {cid' n'}, m.inviteId = some (cid', n') → cid' = cid ∧ n' = n := fun h =>
    Prod.mk.inj (Option.some.inj (h.symm.trans hid))
  cases ht with
  | ignored _ | ack _ _ => exact absurd hok List.not_mem_nil
  | @reply code reason hdrs _ hplain _ =>
      have hcode := List.mem_map_of_mem (f := (·.statusCode)) hok
      rw [replyWith_statusCodes, h200, (hplain.busy_of_inviteId hid).1] at hcode
      exact absurd hcode (by decide)
  | retransmission hd hid' =>
      obtain ⟨rfl, rfl⟩ := hsame hid'
      exact ⟨⟨hd, rfl, rfl⟩, (List.mem_singleton.mp hok).symm⟩
  | refused _ _ hwhy =>
      simp only [List.mem_cons, List.not_mem_nil, or_false] at hok
      rcases hok with rfl | rfl | rfl
      · simp at h200
      · simp at h200
      · have hge := hwhy.code_ge
        rw [makeResponse_statusCode] at h200
        omega
  | accepted hid' _ _ _ =>
      obtain ⟨rfl, rfl⟩ := hsame hid'
      simp only [List.mem_cons, List.not_mem_nil, or_false] at hok
      rcases hok with rfl | rfl | rfl
      · simp at h200
      · simp at h200
      · exact ⟨⟨by simp, by simp, by simp⟩, rfl⟩
  | hangup _ hm _ _ =>
      exact absurd (hm.symm.trans (SipMessage.inviteId_eq_some.mp hid).2.1) (by decide)

/-- **Retransmission absorption**: once an INVITE got a 200, and as long as its
call is neither hung up nor re-invited, every INVITE with its Call-ID and CSeq
number gets exactly that 200, without a media event, and leaves the server
as it is. -/
theorem retransmission_absorbed (hu : Reachable u) (hid : m.inviteId = some (cid, n))
    {ok : SipMessage} (hok : ok ∈ (u.handle m).1.responses) (h200 : ok.statusCode = 200)
    {ms : List SipMessage} (hms : ∀ x ∈ ms, LeavesUp cid n x) {m' : SipMessage}
    (hid' : m'.inviteId = some (cid, n)) :
    (Run.final next (u.next m) ms).handle m' =
      ({ responses := [ok] }, Run.final next (u.next m) ms) := by
  have hi := (hu.next m).inv
  obtain ⟨hup, rfl⟩ := (handle_transition hu.inv m).up_of_ok hid hok h200
  have hfix : Run.final next (u.next m) ms = u.next m :=
    Run.final_eq_of_fixed fun x hx => (IsUp.frame hi hup (hms x hx)).1
  rw [hfix]
  obtain ⟨hd, hcid, hn⟩ := hup
  exact handle_retransmission hi hd (hid'.trans (by rw [← hcid, ← hn]; rfl))

/-- An OPTIONS of the sample call. -/
def sampleOptions : SipMessage := sampleRequest "OPTIONS" "a84b4c76" "2 OPTIONS" "z9hG4bK4" []

/-- The sample INVITE again, after an OPTIONS of the call. -/
theorem retransmission_absorbed_sample :
    (Run.final next (sampleUas.next sampleInvite) [sampleOptions]).handle sampleInvite =
      ({ responses := [(sampleUas.next sampleInvite).last2xxInvite] },
        Run.final next (sampleUas.next sampleInvite) [sampleOptions]) :=
  retransmission_absorbed sampleUas_reachable
    (show sampleInvite.inviteId = some (str "a84b4c76", 1) by decide +kernel)
    (by decide +kernel) (by decide +kernel) (by decide +kernel) (by decide +kernel)

/-! ## media starts -/

/-- The INVITEs with this Call-ID and CSeq number that start media. -/
def startsOf (cid : Str) (n : Int) (u : SipUas) (m : SipMessage) : List SipMessage :=
  if m.inviteId = some (cid, n) ∧ (u.handle m).1.media = .start then [m] else []

/-- While a call is up, nothing that leaves it up starts media. -/
theorem collect_startsOf_of_isUp (hi : Inv u) (hup : IsUp cid n u) {ms : List SipMessage}
    (hms : ∀ m ∈ ms, LeavesUp cid n m) : Run.collect next (startsOf cid n) u ms = [] := by
  induction ms with
  | nil => rfl
  | cons m ms ih =>
      obtain ⟨hnext, hmedia⟩ := IsUp.frame hi hup (hms m List.mem_cons_self)
      rw [Run.collect_cons, hnext, ih fun x hx => hms x (List.mem_cons_of_mem m hx)]
      simp [startsOf, hmedia]

/-- An INVITE that starts media puts its call up. -/
theorem Transition.up_of_start (ht : Transition u m res u') (hid : m.inviteId = some (cid, n))
    (hstart : res.media = .start) : IsUp cid n u' := by
  cases ht with
  | ignored _ | ack _ _ | retransmission _ _ | refused _ _ _ | reply _ _ _ _ _ => cases hstart
  | accepted hid' _ _ _ =>
      obtain ⟨rfl, rfl⟩ := Prod.mk.inj (Option.some.inj (hid'.symm.trans hid))
      exact ⟨by simp, by simp, by simp⟩
  | hangup _ _ _ _ => cases hstart

/-- **At most one start**: in any stretch of a run without a BYE of the call
and without an INVITE of it with another CSeq number, the INVITEs with one
Call-ID and CSeq number start media at most once, however often and in
whatever order they are delivered. -/
theorem starts_at_most_once (hu : Reachable u) {ms : List SipMessage}
    (hms : ∀ m ∈ ms, LeavesUp cid n m) :
    (Run.collect next (startsOf cid n) u ms).length ≤ 1 := by
  induction ms generalizing u with
  | nil => simp
  | cons m ms ih =>
      have hrest : ∀ x ∈ ms, LeavesUp cid n x := fun x hx => hms x (List.mem_cons_of_mem m hx)
      rw [Run.collect_cons]
      by_cases hstart : m.inviteId = some (cid, n) ∧ (u.handle m).1.media = .start
      · have hup : IsUp cid n (u.next m) :=
          (handle_transition hu.inv m).up_of_start hstart.1 hstart.2
        rw [collect_startsOf_of_isUp (hu.next m).inv hup hrest]
        simp [startsOf, hstart]
      · simpa [startsOf, hstart] using ih (hu.next m) hrest

/-- Two copies of the sample INVITE around an OPTIONS. -/
theorem starts_at_most_once_sample :
    (Run.collect next (startsOf (str "a84b4c76") 1) sampleUas
      [sampleInvite, sampleOptions, sampleInvite]).length ≤ 1 :=
  starts_at_most_once sampleUas_reachable (by decide +kernel)

/-- After a BYE the same INVITE starts media again, and so it does after a
re-INVITE. -/
theorem invite_starts_again :
    ¬(Run.collect next (startsOf (str "a84b4c76") 1) sampleUas
        [sampleInvite, sampleBye, sampleInvite]).length ≤ 1 ∧
      ¬(Run.collect next (startsOf (str "a84b4c76") 1) sampleUas
        [sampleInvite, sampleReinvite, sampleInvite]).length ≤ 1 := by
  decide +kernel

end SipUas

end SipDemo
