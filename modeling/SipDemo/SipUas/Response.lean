import SipDemo.SipUas

/-!
# SipDemo.SipUas.Response

What a response carries and what building it does to the server.

`makeResponse` is the one place where a response is assembled, and the only
side effect it has is a draw of a fresh To tag.  Two facts are used by
everything below: it never touches the dialog (`makeResponse_toDialog`), and
while a local tag is set it changes nothing at all (`makeResponse_of_tag`).
-/

namespace SipDemo

/-- A response echoes the transaction of a request: all Via values in order,
and the From, Call-ID and CSeq values. -/
structure SipMessage.Echoes (resp req : SipMessage) : Prop where
  via : resp.getAll (str "Via") = req.getAll (str "Via")
  sender : resp.get (str "From") = req.get (str "From")
  callId : resp.get (str "Call-ID") = req.get (str "Call-ID")
  cseq : resp.get (str "CSeq") = req.get (str "CSeq")

theorem SipMessage.Echoes.trans {a b c : SipMessage} (h : a.Echoes b) (h' : b.Echoes c) :
    a.Echoes c :=
  ⟨h.via.trans h'.via, h.sender.trans h'.sender, h.callId.trans h'.callId, h.cseq.trans h'.cseq⟩

theorem SipMessage.Echoes.symm {a b : SipMessage} (h : a.Echoes b) : b.Echoes a :=
  ⟨h.via.symm, h.sender.symm, h.callId.symm, h.cseq.symm⟩

/-- The header names `Echoes` speaks about. -/
def transactionHeaders : List Str := [str "Via", str "From", str "Call-ID", str "CSeq"]

/-- Setting any other header keeps the transaction. -/
theorem SipMessage.Echoes.set {resp req : SipMessage} (h : resp.Echoes req) {name : Str}
    (hname : ∀ n ∈ transactionHeaders, iequals name n = false) (value : Str) :
    (resp.set name value).Echoes req := by
  simp only [transactionHeaders, List.forall_mem_cons, List.not_mem_nil, false_imp_iff,
    implies_true, and_true] at hname
  obtain ⟨hvia, hfrom, hcid, hcseq⟩ := hname
  constructor
  · simpa [getAll_set, hvia] using h.via
  · simpa [get_set, hfrom] using h.sender
  · simpa [get_set, hcid] using h.callId
  · simpa [get_set, hcseq] using h.cseq

theorem SipMessage.Echoes.foldl_set {resp req : SipMessage} (h : resp.Echoes req)
    {hdrs : List (Str × Str)}
    (hnames : ∀ x ∈ hdrs, ∀ n ∈ transactionHeaders, iequals x.1 n = false) :
    (hdrs.foldl (fun r x => r.set x.1 x.2) resp).Echoes req := by
  induction hdrs generalizing resp with
  | nil => exact h
  | cons x hdrs ih =>
      exact ih (h.set (hnames x List.mem_cons_self) x.2)
        fun y hy => hnames y (List.mem_cons_of_mem x hy)

/-- The body is no part of the transaction. -/
theorem SipMessage.Echoes.withBody {resp req : SipMessage} (h : resp.Echoes req) (body : Str) :
    SipMessage.Echoes { resp with body } req :=
  ⟨h.via, h.sender, h.callId, h.cseq⟩

namespace SipUas

variable {u : SipUas} {req resp : SipMessage} {code : Int} {reason : Str}

/-! ## tags -/

@[simp] theorem newTag_toDialog (u : SipUas) : u.newTag.2.toDialog = u.toDialog := by
  unfold newTag; split <;> rfl

@[simp] theorem newTag_cfg (u : SipUas) : u.newTag.2.cfg = u.cfg := by
  unfold newTag; split <;> rfl

@[simp] theorem newTag_forcedTag (u : SipUas) : u.newTag.2.forcedTag = u.forcedTag := by
  unfold newTag; split <;> rfl

/-- Without a forced tag every tag is counted. -/
theorem newTag_tagCounter (h : u.forcedTag = []) : u.newTag.2.tagCounter = u.tagCounter + 1 := by
  rw [newTag, if_neg (not_not.mpr h)]

/-- A tag is never empty: a forced tag is not, and a drawn one starts with `sd`. -/
theorem newTag_ne_nil (u : SipUas) : u.newTag.1 ≠ [] := by
  unfold newTag
  split
  · assumption
  · exact fun h => by simp [str, ch] at h

/-- The tag that the server puts into its responses. -/
def ownTag (u : SipUas) : Str := if u.localTag = [] then u.newTag.1 else u.localTag

/-! ## echoed headers -/

/-- The header copied is the request's. -/
theorem get_echo_self {name : Str} (h : resp.get name = none) :
    (echo req name resp).get name = req.get name := by
  have hself : iequals name name = true := iequals_iff.mpr rfl
  unfold echo
  cases hreq : req.get name with
  | none => exact h
  | some v => simp [SipMessage.get_set, hself]

theorem getAll_echo_of_ne {name n : Str} (h : iequals name n = false) :
    (echo req name resp).getAll n = resp.getAll n := by
  unfold echo
  cases req.get name with
  | none => rfl
  | some v => simp [SipMessage.getAll_set, h]

theorem get_echo_of_ne {name n : Str} (h : iequals name n = false) :
    (echo req name resp).get n = resp.get n := by
  rw [SipMessage.get_eq_head?_getAll, getAll_echo_of_ne h, SipMessage.get_eq_head?_getAll]

@[simp] theorem echo_statusCode (name : Str) :
    (echo req name resp).statusCode = resp.statusCode := by
  unfold echo; split <;> rfl

@[simp] theorem echo_isRequest (name : Str) :
    (echo req name resp).isRequest = resp.isRequest := by
  unfold echo; split <;> rfl

@[simp] theorem echo_body (name : Str) : (echo req name resp).body = resp.body := by
  unfold echo; split <;> rfl

/-! ## makeResponse -/

theorem getAll_viaStack (n : Str) :
    (viaStack req code reason).getAll n =
      if iequals (str "Via") n then req.getAll (str "Via") else [] := by
  rw [viaStack, SipMessage.getAll_foldl_add]
  simp [SipMessage.getAll]

@[simp] theorem viaStack_statusCode : (viaStack req code reason).statusCode = code := by
  rw [viaStack, SipMessage.foldl_add_statusCode]

@[simp] theorem viaStack_isRequest : (viaStack req code reason).isRequest = false := by
  rw [viaStack, SipMessage.foldl_add_isRequest]

@[simp] theorem viaStack_body : (viaStack req code reason).body = [] := by
  rw [viaStack, SipMessage.foldl_add_body]

/-- With a local tag set, or on a 100, the To value needs no fresh tag. -/
theorem toValue_of_tag (h : u.localTag ≠ []) (toHdr : Str) : (u.toValue toHdr code).2 = u := by
  unfold toValue
  split <;> rfl

theorem toValue_fst (toHdr : Str) :
    (u.toValue toHdr code).1 =
      if (headerParam toHdr (str "tag")).isNone ∧ 100 < code then toHdr ++ str ";tag=" ++ u.ownTag
      else toHdr := by
  unfold toValue ownTag
  split
  · by_cases htag : u.localTag = [] <;> simp [htag]
  · rfl

/-- A tag that the To value needs is drawn if there is no local one. -/
theorem toValue_snd (toHdr : Str) :
    (u.toValue toHdr code).2 =
      if ((headerParam toHdr (str "tag")).isNone ∧ 100 < code) ∧ u.localTag = [] then u.newTag.2
      else u := by
  unfold toValue
  split
  · next hneeds => by_cases htag : u.localTag = [] <;> simp [htag, hneeds]
  · next hneeds => rw [if_neg fun h => hneeds h.1]

@[simp] theorem toValue_toDialog (toHdr : Str) :
    (u.toValue toHdr code).2.toDialog = u.toDialog := by
  unfold toValue
  split
  · by_cases htag : u.localTag = [] <;> simp [htag]
  · rfl

@[simp] theorem toValue_cfg (toHdr : Str) : (u.toValue toHdr code).2.cfg = u.cfg := by
  unfold toValue
  split
  · by_cases htag : u.localTag = [] <;> simp [htag]
  · rfl

/-- The To step either leaves the response alone or sets its To header. -/
theorem setTo_fst (u : SipUas) (req resp : SipMessage) (code : Int) :
    (u.setTo req code resp).1 = resp ∨
      ∃ toVal, (u.setTo req code resp).1 = resp.set (str "To") toVal := by
  unfold setTo
  cases req.get (str "To") with
  | none => exact .inl rfl
  | some toHdr => exact .inr ⟨_, rfl⟩

@[simp] theorem makeResponse_statusCode :
    (u.makeResponse req code reason).1.statusCode = code := by
  obtain h | ⟨toVal, h⟩ :=
    setTo_fst u req (echo req (str "From") (viaStack req code reason)) code <;>
  simp [makeResponse, h]

@[simp] theorem makeResponse_isRequest :
    (u.makeResponse req code reason).1.isRequest = false := by
  obtain h | ⟨toVal, h⟩ :=
    setTo_fst u req (echo req (str "From") (viaStack req code reason)) code <;>
  simp [makeResponse, h]

/-- A response is built without a body. -/
@[simp] theorem makeResponse_body : (u.makeResponse req code reason).1.body = [] := by
  obtain h | ⟨toVal, h⟩ :=
    setTo_fst u req (echo req (str "From") (viaStack req code reason)) code <;>
  simp [makeResponse, h]

/-- What building a response does to the server is what its To value does. -/
theorem makeResponse_snd (u : SipUas) (req : SipMessage) (code : Int) (reason : Str) :
    (u.makeResponse req code reason).2 =
      ((req.get (str "To")).map fun toHdr => (u.toValue toHdr code).2).getD u := by
  simp only [makeResponse, setTo]
  cases req.get (str "To") <;> rfl

/-- **Response construction never touches the dialog.** -/
@[simp] theorem makeResponse_toDialog :
    (u.makeResponse req code reason).2.toDialog = u.toDialog := by
  rw [makeResponse_snd]
  cases req.get (str "To") <;> simp

@[simp] theorem makeResponse_cfg : (u.makeResponse req code reason).2.cfg = u.cfg := by
  rw [makeResponse_snd]
  cases req.get (str "To") <;> simp

/-- **With a local tag set, building a response has no side effect.** -/
theorem makeResponse_of_tag (h : u.localTag ≠ []) : (u.makeResponse req code reason).2 = u := by
  rw [makeResponse_snd]
  cases req.get (str "To") <;> simp [toValue_of_tag h]

theorem get_setTo {n : Str} (hTo : iequals (str "To") n = false) :
    (u.setTo req code resp).1.get n = resp.get n := by
  obtain h | ⟨toVal, h⟩ := setTo_fst u req resp code <;> simp [h, SipMessage.get_set, hTo]

theorem getAll_setTo {n : Str} (hTo : iequals (str "To") n = false) :
    (u.setTo req code resp).1.getAll n = resp.getAll n := by
  obtain h | ⟨toVal, h⟩ := setTo_fst u req resp code <;> simp [h, SipMessage.getAll_set, hTo]

/-- A name other than Via is not in the Via stack. -/
theorem get_viaStack {n : Str} (hvia : iequals (str "Via") n = false) :
    (viaStack req code reason).get n = none := by
  rw [SipMessage.get_eq_head?_getAll, getAll_viaStack, hvia]
  rfl

/-- Up to the To step a response carries neither Call-ID nor CSeq. -/
theorem get_setTo_echo_viaStack {n : Str} (hvia : iequals (str "Via") n = false)
    (hfrom : iequals (str "From") n = false) (hTo : iequals (str "To") n = false) :
    (u.setTo req code (echo req (str "From") (viaStack req code reason))).1.get n = none := by
  rw [get_setTo hTo, get_echo_of_ne hfrom, get_viaStack hvia]

/-- The To header of a response is that of the request, with the tag it needs. -/
theorem get_to (u : SipUas) (req : SipMessage) (code : Int) (reason : Str) :
    (u.makeResponse req code reason).1.get (str "To") =
      (req.get (str "To")).map fun toHdr => (u.toValue toHdr code).1 := by
  have hself : iequals (str "To") (str "To") = true := iequals_iff.mpr rfl
  have hserver : iequals (str "Server") (str "To") = false := by decide
  simp only [makeResponse, SipMessage.get_set, hserver]
  rw [if_neg Bool.false_ne_true, get_echo_of_ne (by decide), get_echo_of_ne (by decide), setTo]
  cases req.get (str "To") with
  | none => exact (get_echo_of_ne (by decide)).trans (get_viaStack (by decide))
  | some toHdr => simp [SipMessage.get_set, hself]

/-- **Every response echoes the transaction of the request it is built from.** -/
theorem makeResponse_echoes (u : SipUas) (req : SipMessage) (code : Int) (reason : Str) :
    (u.makeResponse req code reason).1.Echoes req := by
  simp only [makeResponse]
  refine SipMessage.Echoes.set ⟨?_, ?_, ?_, ?_⟩ (by decide) _
  · rw [getAll_echo_of_ne (by decide), getAll_echo_of_ne (by decide), getAll_setTo (by decide),
      getAll_echo_of_ne (by decide), getAll_viaStack, if_pos (by decide)]
  · rw [get_echo_of_ne (by decide), get_echo_of_ne (by decide), get_setTo (by decide)]
    exact get_echo_self (get_viaStack (by decide))
  · rw [get_echo_of_ne (by decide)]
    exact get_echo_self (get_setTo_echo_viaStack (by decide) (by decide) (by decide))
  · refine get_echo_self ?_
    rw [get_echo_of_ne (by decide)]
    exact get_setTo_echo_viaStack (by decide) (by decide) (by decide)

end SipUas

end SipDemo
