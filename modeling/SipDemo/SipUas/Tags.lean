import Mathlib.Data.List.Nodup
import SipDemo.SipParser.Params
import SipDemo.SipUas.Responses

/-!
# SipDemo.SipUas.Tags

The tag a response adds to the To value.

`makeResponse` takes a To value for tagged when `headerParam` finds a `tag`
anywhere in it, and the tag it adds is the local one as long as that is set.
Both go wrong: a `;tag=` in the URI keeps the tag out of the response
(`tagged_iff`), and the local tag outlives its call and is handed to other
calls (`Borrows`).  Apart from that every tag stays with the Call-ID it was
drawn for (`tags_separate`).
-/

namespace SipDemo

/-- The request has a To value without a tag, as `makeResponse` sees it. -/
def SipMessage.untagged (m : SipMessage) : Bool :=
  (m.get (str "To")).any fun toHdr => (headerParam toHdr (str "tag")).isNone

namespace SipUas

variable {u u' : SipUas} {m req resp : SipMessage} {cid t : Str} {n code : Int} {reason : Str}
  {res : UasResult}

/-! ## name-addr values -/

/-- Above 100 the tag is added exactly when `headerParam` finds none. -/
theorem get_to_eq_iff {toHdr : Str} (hto : req.get (str "To") = some toHdr) (hcode : 100 < code) :
    (u.makeResponse req code reason).1.get (str "To") = some (toHdr ++ str ";tag=" ++ u.ownTag) ↔
      headerParam toHdr (str "tag") = none := by
  rw [get_to, hto, Option.map_some, toValue_fst, Option.some_inj]
  by_cases htag : headerParam toHdr (str "tag") = none
  · simp [htag, hcode]
  · have hkept : ¬((headerParam toHdr (str "tag")).isNone = true ∧ 100 < code) :=
      fun h => htag (Option.isNone_iff_eq_none.mp h.1)
    rw [if_neg hkept]
    refine iff_of_false (fun h => ?_) htag
    have hlen := congrArg List.length h
    simp [str] at hlen

/-- **Parameters of a name-addr value.**  `headerParam` reads the parameters
behind the URI if and only if nothing of that name stands behind a `;` of the
display name or the URI, or the same value does; and a response above 100 to a
To value without a tag gets the server's own tag if and only if no tag stands
there. -/
theorem tagged_iff (a : NameAddr) :
    (∀ name, headerParam a.text name = a.param name ↔
      ∀ v ∈ a.stray name, a.param name = some v) ∧
    (∀ (u : SipUas) (req : SipMessage) (code : Int) (reason : Str),
      req.get (str "To") = some a.text → a.param (str "tag") = none → 100 < code →
      ((u.makeResponse req code reason).1.get (str "To") =
          some (a.text ++ str ";tag=" ++ u.ownTag) ↔ a.stray (str "tag") = none)) := by
  refine ⟨a.headerParam_text_iff, fun u req code reason hto hnone hcode => ?_⟩
  rw [get_to_eq_iff hto hcode, a.headerParam_text, hnone, Option.or_none]

/-- A quoted name and a URI with parameters of other names in front of one. -/
def plainAddr : NameAddr :=
  { display := str "\"Bob; Jr\""
    uri := str "sip:bob@10.0.0.5;transport=tcp"
    params := [⟨str " Expires", some (str " 60 "), by decide +kernel, by decide +kernel⟩] }

theorem tagged_plainAddr :
    headerParam plainAddr.text (str "expires") = some (str "60") ∧
      (sampleUas.makeResponse { headers := [(str "To", plainAddr.text)] } 200 []).1.get (str "To") =
        some (plainAddr.text ++ str ";tag=" ++ str "sd71") := by
  have h := tagged_iff plainAddr
  have hparam : plainAddr.param (str "expires") = some (str "60") := by decide +kernel
  have hstray : ∀ v ∈ plainAddr.stray (str "expires"),
      plainAddr.param (str "expires") = some v := by decide +kernel
  have hown : sampleUas.ownTag = str "sd71" := by decide +kernel
  constructor
  · rw [(h.1 _).mpr hstray, hparam]
  · rw [← hown]
    exact (h.2 sampleUas _ 200 [] (by decide +kernel) (by decide +kernel) (by decide)).mpr
      (by decide +kernel)

/-- A To value without parameters, whose URI has two. -/
def strayAddr : NameAddr :=
  { display := [], uri := str "sip:bob@h;transport=tcp;tag=1", params := [] }

/-- Its URI parameters are taken for header parameters, and the response gets
no tag. -/
theorem headerParam_strayAddr :
    (ch '<' ∉ strayAddr.uri ∧ ch '>' ∉ strayAddr.uri) ∧
      (strayAddr.param (str "transport") = none ∧ strayAddr.param (str "tag") = none) ∧
      headerParam strayAddr.text (str "transport") = some (str "tcp") ∧
      (sampleUas.makeResponse { headers := [(str "To", strayAddr.text)] } 200 []).1.get (str "To") ≠
        some (strayAddr.text ++ str ";tag=" ++ sampleUas.ownTag) := by
  decide +kernel

/-! ## whose tag a response carries -/

/-- The tag that a response adds to the To value of a request without one. -/
def appendedTag (req resp : SipMessage) : Option Str :=
  if req.untagged then
    (req.get (str "To")).bind fun toHdr =>
      (resp.get (str "To")).bind fun toVal => toVal.dropPrefix? (toHdr ++ str ";tag=")
  else none

instance : Decidable (Retransmits u m) := inferInstanceAs (Decidable (_ ∧ _))

/-- The request whose To value the responses to `m` go back to: a repeated
INVITE gets the 200 of the first one. -/
def source (u : SipUas) (m : SipMessage) : SipMessage := if Retransmits u m then u.lastInvite else m

/-- The tags that the responses to `m` add, each with the Call-ID of `m`. -/
def tagsOf (u : SipUas) (m : SipMessage) : List (Str × Str) :=
  (m.get (str "Call-ID")).toList.flatMap fun cid =>
    ((u.handle m).1.responses.filterMap (appendedTag (u.source m))).map fun tag => (cid, tag)

/-- The results of `newTag` in a step: `handle` calls it at most once. -/
def drawn (u : SipUas) (m : SipMessage) : List Str :=
  if (u.next m).tagCounter = u.tagCounter then [] else [u.newTag.1]

/-- The results of `newTag`, with the Call-ID they were drawn for. -/
def issued (u : SipUas) (m : SipMessage) : List (Str × Str) :=
  (m.get (str "Call-ID")).toList.flatMap fun cid => (drawn u m).map fun tag => (cid, tag)

/-- The tag of the call that the server opened last, with its Call-ID. -/
def Holds (u : SipUas) (p : Str × Str) : Prop := u.localTag ≠ [] ∧ p = (u.callId, u.localTag)

/-- A request without a To tag is answered, outside a new call, while the tag
of a call with another Call-ID is set. -/
def Borrows (u : SipUas) (m : SipMessage) : Prop :=
  (u.localTag ≠ [] ∧ m.get (str "Call-ID") ≠ none ∧ m.get (str "Call-ID") ≠ some u.callId) ∧
    (m.isRequest = true ∧ m.method ≠ str "ACK" ∧ m.untagged = true) ∧
    (u.haveDialog = true ∨ m.inviteId = none)

instance : Decidable (Borrows u m) :=
  inferInstanceAs (Decidable ((_ ∧ _ ∧ _) ∧ (_ ∧ _ ∧ _) ∧ (_ ∨ _)))

/-- The server draws its tags, and the cached 200 carries the local one. -/
structure Tagged (u : SipUas) : Prop extends Inv u where
  forcedTag : u.forcedTag = []
  cached : u.haveDialog = true → ∀ t ∈ appendedTag u.lastInvite u.last2xxInvite, t = u.localTag

/-! ### one response -/

/-- A response other than a 100 adds the server's own tag to a To value
without one, and to no other. -/
theorem appendedTag_of_get (hto : resp.get (str "To") =
      (req.get (str "To")).map fun toHdr => (u.toValue toHdr code).1)
    (ht : t ∈ appendedTag req resp) :
    t = u.ownTag ∧ ∃ toHdr, req.get (str "To") = some toHdr ∧
      (headerParam toHdr (str "tag")).isNone ∧ 100 < code := by
  unfold appendedTag SipMessage.untagged at ht
  rw [hto] at ht
  cases hreq : req.get (str "To") with
  | none => simp [hreq] at ht
  | some toHdr =>
      simp only [hreq, Option.any_some, Option.bind_some, Option.map_some, toValue_fst] at ht
      split_ifs at ht with hnone hcode
      · rw [Option.mem_def, List.dropPrefix?_eq_some_iff] at ht
        obtain ⟨p, hp, hpre⟩ := ht
        rw [eq_of_beq hpre, List.append_cancel_left_eq] at hp
        exact ⟨hp.symm, toHdr, rfl, hcode⟩
      · rw [Option.mem_def, List.dropPrefix?_eq_some_iff] at ht
        obtain ⟨p, hp, hpre⟩ := ht
        rw [eq_of_beq hpre] at hp
        have hlen := congrArg List.length hp
        simp [str] at hlen
      · exact absurd ht (Option.not_mem_none t)

/-- Where a response adds a tag, it is the local one or a new one. -/
theorem makeResponse_tag (hforced : u.forcedTag = [])
    (ht : t ∈ appendedTag req (u.makeResponse req code reason).1) :
    (u.localTag ≠ [] ∧ t = u.localTag) ∨
      (t = u.newTag.1 ∧ (u.makeResponse req code reason).2.tagCounter = u.tagCounter + 1) := by
  obtain ⟨rfl, toHdr, hreq, hneeds⟩ := appendedTag_of_get (get_to u req code reason) ht
  unfold ownTag
  split_ifs with hlocal
  · right
    rw [makeResponse_snd, hreq, Option.map_some, Option.getD_some, toValue_snd,
      if_pos ⟨hneeds, hlocal⟩, newTag_tagCounter hforced]
    exact ⟨rfl, rfl⟩
  · exact .inl ⟨hlocal, rfl⟩

/-- Only the To value counts. -/
theorem appendedTag_congr {resp' : SipMessage} (h : resp.get (str "To") = resp'.get (str "To")) :
    appendedTag req resp = appendedTag req resp' := by
  rw [appendedTag, appendedTag, h]

/-- The headers set behind `makeResponse` are others. -/
theorem get_to_foldl_set {hdrs : List (Str × Str)}
    (hnames : ∀ h ∈ hdrs, h.1 = str "Allow" ∨ h.1 = str "Accept") :
    (hdrs.foldl (fun r h => r.set h.1 h.2) resp).get (str "To") = resp.get (str "To") := by
  induction hdrs generalizing resp with
  | nil => rfl
  | cons h hdrs ih =>
      rw [List.forall_mem_cons] at hnames
      have hne : iequals h.1 (str "To") = false := by
        rcases hnames.1 with h | h <;> rw [h] <;> decide
      rw [List.foldl_cons, ih hnames.2, SipMessage.get_set, if_neg (by simp [hne])]

theorem okInvite_get_to (answer : SdpSession) :
    (u.okInvite m answer).1.get (str "To") =
      (u.makeResponse m 200 (str "OK")).1.get (str "To") := by
  have hcontact : iequals (str "Contact") (str "To") = false := by decide
  have htype : iequals (str "Content-Type") (str "To") = false := by decide
  have hbody (r : SipMessage) (body : Str) (name : Str) :
      SipMessage.get { r with body } name = r.get name := rfl
  simp only [okInvite, hbody, SipMessage.get_set, hcontact, htype, Bool.false_eq_true, if_false]

/-! ### the tags of a new call -/

/-- `newTag` reads the tags only. -/
theorem newTag_congr {v : SipUas} (h : v.toTags = u.toTags) :
    v.newTag.1 = u.newTag.1 ∧ v.newTag.2.toTags = u.newTag.2.toTags := by
  unfold newTag
  rw [h]
  split
  · exact ⟨rfl, h⟩
  · exact ⟨rfl, rfl⟩

/-- The new call's local tag is the next tag. -/
theorem openDialog_newTag (u : SipUas) (m : SipMessage) (cid : Str) (n : Int) :
    (u.openDialog m cid n).localTag = u.newTag.1 ∧
      (u.openDialog m cid n).toTags = u.newTag.2.toTags := by
  let opened : SipUas :=
    { u with haveDialog := true, answered := false, callId := cid, inviteCSeq := n }
  exact @newTag_congr u opened rfl

/-- The responses of a new call add the tag drawn for it. -/
theorem openDialog_tag
    (ht : t ∈ appendedTag m ((u.openDialog m cid n).makeResponse m code reason).1) :
    t = u.newTag.1 := by
  obtain ⟨rfl, _⟩ := appendedTag_of_get (get_to _ m code reason) ht
  rw [ownTag, if_neg openDialog_localTag_ne_nil, (openDialog_newTag u m cid n).1]

/-- A step draws at most one tag. -/
theorem Transition.toTags (h : Transition u m res u') :
    u'.toTags = u.toTags ∨ u'.toTags = u.newTag.2.toTags := by
  cases h with
  | ignored _ | ack _ _ | retransmission _ _ | hangup _ _ _ _ => exact .inl rfl
  | @reply code reason hdrs _ _ _ =>
      simp only [replyWith, makeResponse_snd]
      cases m.get (str "To") with
      | none => exact .inl rfl
      | some toHdr =>
          rw [Option.map_some, Option.getD_some, toValue_snd]
          split
          · exact .inr rfl
          · exact .inl rfl
  | refused _ _ _ | accepted _ _ _ _ => exact .inr (openDialog_newTag u m _ _).2

/-! ### one step -/

/-- Outside a retransmission the To value is that of the message itself. -/
theorem source_of_not_retransmits (h : ¬Retransmits u m) : u.source m = m := if_neg h

theorem not_retransmits_of_opens (hid : m.inviteId = some (cid, n)) (hopen : Opens u cid n) :
    ¬Retransmits u m := by
  rintro ⟨hd, hsame⟩
  rw [hid, Option.some_inj, Prod.mk.injEq] at hsame
  exact (hopen hd).2 hsame.2

/-- A plain reply is no retransmission, and opens no call. -/
theorem PlainReply.outside (h : PlainReply u m code) :
    ¬Retransmits u m ∧ (u.haveDialog = true ∨ m.inviteId = none) := by
  constructor
  · rintro ⟨_, hid⟩
    exact (h.busy_of_inviteId hid).2.2 rfl
  · cases hid : m.inviteId with
    | none => exact .inr rfl
    | some id => exact .inl (h.busy_of_inviteId hid).2.1

/-- A request that gets a tag has none. -/
theorem untagged_of_appendedTag (ht : t ∈ appendedTag req resp) : req.untagged = true := by
  by_contra huntagged
  rw [appendedTag, if_neg huntagged] at ht
  exact absurd ht (Option.not_mem_none t)

/-- A plain reply adds the tag held for its Call-ID, or a new one. -/
theorem PlainReply.used (h : PlainReply u m code) (hu : Tagged u) (hno : ¬Borrows u m)
    (hreq : m.isRequest = true) (hcid : m.get (str "Call-ID") = some cid)
    (ht : t ∈ appendedTag m (u.makeResponse m code reason).1) :
    Holds u (cid, t) ∨
      (t = u.newTag.1 ∧ (u.makeResponse m code reason).2.tagCounter = u.tagCounter + 1) := by
  refine (makeResponse_tag hu.forcedTag ht).imp_left fun ⟨hlocal, htag⟩ => ⟨hlocal, ?_⟩
  have hsame : cid = u.callId := by
    by_contra hne
    have hcall : m.get (str "Call-ID") ≠ none ∧ m.get (str "Call-ID") ≠ some u.callId := by
      simp [hcid, hne]
    exact hno ⟨⟨hlocal, hcall⟩, ⟨hreq, h.spec.2.2, untagged_of_appendedTag ht⟩, h.outside.2⟩
  rw [hsame, htag]

/-- A new call counts one tag. -/
theorem openDialog_tagCounter (m : SipMessage) (hforced : u.forcedTag = [])
    (hv : u'.toTags = (u.openDialog m cid n).toTags) : u'.tagCounter = u.tagCounter + 1 := by
  rw [hv, (openDialog_newTag u m cid n).2]
  exact newTag_tagCounter hforced

/-- **One response**: it adds the tag held for its Call-ID, or a new one. -/
theorem Transition.used (hu : Tagged u) (hno : ¬Borrows u m) (h : Transition u m res u')
    (hcid : m.get (str "Call-ID") = some cid) (hr : resp ∈ res.responses)
    (ht : t ∈ appendedTag (u.source m) resp) :
    Holds u (cid, t) ∨ (t = u.newTag.1 ∧ u'.tagCounter = u.tagCounter + 1) := by
  cases h with
  | ignored _ | ack _ _ => exact absurd hr List.not_mem_nil
  | @reply code reason hdrs hreq hplain hnames =>
      obtain rfl := List.mem_singleton.mp hr
      rw [source_of_not_retransmits hplain.outside.1,
        appendedTag_congr (get_to_foldl_set hnames)] at ht
      exact hplain.used hu hno hreq hcid ht
  | retransmission hd hid =>
      obtain rfl := List.mem_singleton.mp hr
      obtain ⟨_, _, hcall, _⟩ := SipMessage.inviteId_eq_some.mp hid
      rw [source, if_pos ⟨hd, hid⟩] at ht
      have hsame : cid = u.callId := Option.some_inj.mp (hcid.symm.trans hcall)
      exact .inl ⟨hu.tag hd, by rw [hsame, hu.cached hd t ht]⟩
  | refused hid hopen _ =>
      rw [source_of_not_retransmits (not_retransmits_of_opens hid hopen)] at ht
      refine .inr ⟨?_, openDialog_tagCounter m hu.forcedTag rfl⟩
      simp only [List.mem_cons, List.not_mem_nil, or_false] at hr
      rcases hr with rfl | rfl | rfl <;> exact openDialog_tag ht
  | accepted hid hopen _ _ =>
      rw [source_of_not_retransmits (not_retransmits_of_opens hid hopen)] at ht
      refine .inr ⟨?_, openDialog_tagCounter m hu.forcedTag rfl⟩
      simp only [List.mem_cons, List.not_mem_nil, or_false] at hr
      rcases hr with rfl | rfl | rfl
      · exact openDialog_tag ht
      · exact openDialog_tag ht
      · rw [appendedTag_congr (okInvite_get_to _)] at ht
        exact openDialog_tag ht
  | hangup _ hbye hd hcall =>
      obtain rfl := List.mem_singleton.mp hr
      have hre : ¬Retransmits u m := fun h =>
        absurd (hbye.symm.trans (SipMessage.inviteId_eq_some.mp h.2).2.1) (by decide)
      rw [source_of_not_retransmits hre] at ht
      obtain ⟨rfl, _⟩ := appendedTag_of_get (get_to u m 200 (str "OK")) ht
      have hsame : cid = u.callId := Option.some_inj.mp (hcid.symm.trans hcall)
      refine .inl ⟨hu.tag hd, ?_⟩
      rw [hsame, ownTag, if_neg (hu.tag hd)]

/-- **The local tag**: it is kept with its Call-ID, or it is new and the
message's Call-ID is that of the call. -/
theorem Transition.held (hu : Tagged u) (h : Transition u m res u') {p : Str × Str}
    (hp : Holds u' p) :
    Holds u p ∨ (m.get (str "Call-ID") = some p.1 ∧ p.2 = u.newTag.1 ∧
      u'.tagCounter = u.tagCounter + 1) := by
  obtain ⟨hne, rfl⟩ := hp
  cases h with
  | ignored _ | ack _ _ | retransmission _ _ | hangup _ _ _ _ => exact .inl ⟨hne, rfl⟩
  | reply reason hdrs _ _ _ =>
      rw [replyWith_toDialog] at hne ⊢
      exact .inl ⟨hne, rfl⟩
  | refused hid _ _ | accepted hid _ _ _ =>
      obtain ⟨_, _, hcall, _⟩ := SipMessage.inviteId_eq_some.mp hid
      rw [openDialog_callId]
      exact .inr ⟨hcall, (openDialog_newTag u m _ _).1, openDialog_tagCounter m hu.forcedTag rfl⟩

theorem Transition.tagged (hu : Tagged u) (h : Transition u m res u') : Tagged u' := by
  have hforced : u'.forcedTag = [] := by
    rcases h.toTags with htags | htags
    · rw [htags]
      exact hu.forcedTag
    · rw [htags]
      exact (newTag_forcedTag u).trans hu.forcedTag
  refine { h.inv hu.toInv with forcedTag := hforced, cached := ?_ }
  cases h with
  | ignored _ | ack _ _ | retransmission _ _ => exact hu.cached
  | reply reason hdrs _ _ _ =>
      rw [replyWith_toDialog]
      exact hu.cached
  | refused _ _ _ | hangup _ _ _ _ => exact nofun
  | accepted _ _ _ _ =>
      intro _ t ht
      dsimp only at ht ⊢
      rw [openDialog_lastInvite, appendedTag_congr (okInvite_get_to _)] at ht
      rw [openDialog_tag ht, (openDialog_newTag u m _ _).1]

/-! ### runs -/

theorem Tagged.next (hu : Tagged u) (m : SipMessage) : Tagged (u.next m) :=
  (handle_transition hu.toInv m).tagged hu

/-- A tag drawn in a step that has a Call-ID is issued for it. -/
theorem mem_issued (hcid : m.get (str "Call-ID") = some cid)
    (hcount : (u.next m).tagCounter = u.tagCounter + 1) : (cid, u.newTag.1) ∈ issued u m := by
  have hne : u.tagCounter + 1 ≠ u.tagCounter := by simp
  simp [issued, drawn, hcid, hcount, hne]

theorem mem_tagsOf {p : Str × Str} : p ∈ tagsOf u m ↔ m.get (str "Call-ID") = some p.1 ∧
    ∃ r ∈ (u.handle m).1.responses, p.2 ∈ appendedTag (u.source m) r := by
  simp only [tagsOf, List.mem_flatMap, Option.mem_toList, Option.mem_def, List.mem_map,
    List.mem_filterMap]
  constructor
  · rintro ⟨cid, hcid, tag, htag, rfl⟩
    exact ⟨hcid, htag⟩
  · exact fun ⟨hcid, htag⟩ => ⟨p.1, hcid, p.2, htag, rfl⟩

theorem used_step (hu : Tagged u) (hno : ¬Borrows u m) :
    ∀ p ∈ tagsOf u m, Holds u p ∨ p ∈ issued u m := by
  rintro ⟨cid, t⟩ hp
  obtain ⟨hcid, r, hr, ht⟩ := mem_tagsOf.mp hp
  refine ((handle_transition hu.toInv m).used hu hno hcid hr ht).imp_right ?_
  rintro ⟨rfl, hcount⟩
  exact mem_issued hcid hcount

theorem held_step (hu : Tagged u) : ∀ p, Holds (u.next m) p → Holds u p ∨ p ∈ issued u m := by
  rintro ⟨cid, t⟩ hp
  refine ((handle_transition hu.toInv m).held hu hp).imp_right ?_
  rintro ⟨hcid, rfl, hcount⟩
  exact mem_issued hcid hcount

/-- The tags issued are among the tags drawn. -/
theorem issued_sublist (u : SipUas) (m : SipMessage) :
    ((issued u m).map Prod.snd).Sublist (drawn u m) := by
  unfold issued
  cases m.get (str "Call-ID") with
  | none => exact List.nil_sublist _
  | some cid => simp [Function.comp_def]

/-- **Tag separation.**  In a run from a new server whose drawn tags do not
repeat, and in which no request is answered with the tag of another call, two
responses that add the same tag answer requests with the same Call-ID. -/
theorem tags_separate (cfg : UasConfig) (rng : Stream' UInt32) (ms : List SipMessage)
    (hnew : (Run.collect next drawn (fresh cfg [] rng) ms).Nodup)
    (hown : Run.Always next (fun u m => ¬Borrows u m) (fresh cfg [] rng) ms) :
    ∀ p ∈ Run.collect next tagsOf (fresh cfg [] rng) ms,
      ∀ q ∈ Run.collect next tagsOf (fresh cfg [] rng) ms, p.2 = q.2 → p.1 = q.1 := by
  have hfresh : Tagged (fresh cfg [] rng) :=
    { inv_fresh cfg [] rng with forcedTag := rfl, cached := nofun }
  have hissued : ∀ p ∈ Run.collect next tagsOf (fresh cfg [] rng) ms,
      p ∈ Run.collect next issued (fresh cfg [] rng) ms := by
    intro p hp
    have horigin := Run.used_of_held_or_issued Tagged (fun _ _ => used_step)
      (fun _ _ hu _ => held_step hu) (fun _ m hu => hu.next m) hfresh hown p hp
    -- a new server holds no tag
    exact horigin.resolve_left fun h => h.1 rfl
  have hnodup : ((Run.collect next issued (fresh cfg [] rng) ms).map Prod.snd).Nodup := by
    rw [← Run.collect_map]
    exact hnew.sublist (Run.collect_sublist issued_sublist _ ms)
  intro p hp q hq htag
  rw [List.inj_on_of_nodup_map hnodup (hissued p hp) (hissued q hq) htag]

/-- Two calls one after the other, with a request of the first call and one
that carries a tag. -/
def twoCalls : List SipMessage :=
  [sampleRequest "INVITE" "a84b4c76" "1 INVITE" "z9hG4bK1" (sampleOffer "0"),
    sampleRequest "OPTIONS" "a84b4c76" "2 OPTIONS" "z9hG4bK2" [],
    (sampleRequest "OPTIONS" "c7" "1 OPTIONS" "z9hG4bK3" []).set (str "To") (str "<sip:b>;tag=1"),
    sampleRequest "BYE" "a84b4c76" "3 BYE" "z9hG4bK4" [],
    sampleRequest "INVITE" "b91" "1 INVITE" "z9hG4bK5" (sampleOffer "0")]

theorem tags_separate_twoCalls :
    (∃ p ∈ Run.collect next tagsOf sampleUas twoCalls,
        ∃ q ∈ Run.collect next tagsOf sampleUas twoCalls, p.1 ≠ q.1) ∧
      ∀ p ∈ Run.collect next tagsOf sampleUas twoCalls,
        ∀ q ∈ Run.collect next tagsOf sampleUas twoCalls, p.2 = q.2 → p.1 = q.1 :=
  ⟨by decide +kernel, tags_separate {} _ twoCalls (by decide +kernel) (by decide +kernel)⟩

/-- An OPTIONS during a call, with a Call-ID of its own, gets the tag of the
call. -/
theorem tags_shared :
    (Run.collect next drawn sampleUas
        [sampleRequest "INVITE" "a84b4c76" "1 INVITE" "z9hG4bK1" (sampleOffer "0"),
          sampleRequest "OPTIONS" "c7" "1 OPTIONS" "z9hG4bK3" []]).Nodup ∧
      Run.collect next tagsOf sampleUas
          [sampleRequest "INVITE" "a84b4c76" "1 INVITE" "z9hG4bK1" (sampleOffer "0"),
            sampleRequest "OPTIONS" "c7" "1 OPTIONS" "z9hG4bK3" []] =
        [(str "a84b4c76", str "sd71"), (str "a84b4c76", str "sd71"), (str "c7", str "sd71")] := by
  decide +kernel

end SipUas

end SipDemo
