import SipDemo.SipParser.Accepted
import SipDemo.SipUas.Transition

/-!
# SipDemo.SipUas.Injection

Nothing in a request can break out of the response it is echoed in.

A response is made of constants, of the configuration, of drawn tags and of
header values of requests.  None of these holds a line end: the parser took the
values from single lines.  `Reply` states that of a response and `Guarded` of
the server, `handle` keeps both, and so every response is read back with the
headers it was built with.
-/

namespace SipDemo

/-- The values of a message stand on one line each. -/
def SipMessage.OneLineValues (m : SipMessage) : Prop := ∀ h ∈ m.headers, OneLine h.2

namespace SipMessage.OneLineValues

variable {m : SipMessage} {name v : Str}

theorem getAll (h : m.OneLineValues) : ∀ v ∈ m.getAll name, OneLine v := by
  rw [SipMessage.getAll, List.forall_mem_map]
  exact fun x hx => h x (List.mem_of_mem_filter hx)

theorem get (h : m.OneLineValues) (hget : m.get name = some v) : OneLine v := by
  rw [SipMessage.get_eq_head?_getAll] at hget
  exact h.getAll v (List.mem_of_mem_head? hget)

end SipMessage.OneLineValues

/-! ## responses -/

/-- The headers the server writes. -/
def responseNames : List Str :=
  [str "Via", str "From", str "To", str "Call-ID", str "CSeq", str "Server", str "Contact",
    str "Content-Type", str "Allow", str "Accept"]

/-- A response with the server's header names, whatever the values say. -/
structure Reply (r : SipMessage) : Prop where
  isRequest : r.isRequest = false
  version : r.version = str "SIP/2.0"
  status : 100 ≤ r.statusCode ∧ r.statusCode ≤ 999
  reason : OneLine r.reasonPhrase
  headers : ∀ h ∈ r.headers, h.1 ∈ responseNames ∧ OneLine h.2

namespace Reply

variable {r : SipMessage} {name value : Str}

theorem add (hr : Reply r) (hname : name ∈ responseNames) (hvalue : OneLine value) :
    Reply (r.add name value) :=
  { hr with
    headers := by
      rw [SipMessage.add, List.forall_mem_append, List.forall_mem_singleton]
      exact ⟨hr.headers, hname, hvalue⟩ }

theorem set (hr : Reply r) (hname : name ∈ responseNames) (hvalue : OneLine value) :
    Reply (r.set name value) := by
  have hremove : Reply (r.remove name) :=
    { hr with headers := fun h hh => hr.headers h (List.mem_of_mem_filter hh) }
  exact hremove.add hname hvalue

theorem foldl_add (hr : Reply r) (hname : name ∈ responseNames) {vs : List Str}
    (hvs : ∀ v ∈ vs, OneLine v) : Reply (vs.foldl (fun r v => r.add name v) r) := by
  induction vs generalizing r with
  | nil => exact hr
  | cons v vs ih =>
      rw [List.forall_mem_cons] at hvs
      exact ih (hr.add hname hvs.1) hvs.2

theorem foldl_set (hr : Reply r) {hdrs : List (Str × Str)}
    (hhdrs : ∀ h ∈ hdrs, h.1 ∈ responseNames ∧ OneLine h.2) :
    Reply (hdrs.foldl (fun r h => r.set h.1 h.2) r) := by
  induction hdrs generalizing r with
  | nil => exact hr
  | cons h hdrs ih =>
      rw [List.forall_mem_cons] at hhdrs
      exact ih (hr.set hhdrs.1.1 hhdrs.1.2) hhdrs.2

theorem withBody (hr : Reply r) (body : Str) : Reply { r with body } := { hr with }

/-- A reply can be sent. -/
theorem sendable (hr : Reply r) : r.Sendable := by
  have hnames : ∀ n ∈ responseNames, n ≠ [] ∧ Trimmed n ∧ ch ':' ∉ n ∧ OneLine n := by
    decide +kernel
  have hresp : r.isRequest ≠ true := by simp [hr.isRequest]
  refine ⟨?_, fun h hh => ?_⟩
  · constructor
    case version_sip => rw [hr.version]; decide
    case version_no_space => rw [hr.version]; decide
    case version_oneLine => rw [hr.version]; decide
    case reason_oneLine => exact fun _ => hr.reason
    all_goals exact fun hreq => absurd hreq hresp
  · obtain ⟨hname, hvalue⟩ := hr.headers h hh
    obtain ⟨hne, htrimmed, hcolon, hone⟩ := hnames _ hname
    exact ⟨hne, htrimmed, hcolon, hone, hvalue⟩

/-- No header of a reply is a Content-Length. -/
theorem canonical_headers (hr : Reply r) :
    r.canonical.headers = r.headers ++ [(str "Content-Length", natStr r.body.length)] := by
  have hnames : ∀ n ∈ responseNames, iequals n (str "Content-Length") = false := by decide +kernel
  rw [SipMessage.canonical_headers, List.filter_eq_self.mpr]
  intro h hh
  rw [hnames _ (hr.headers h hh).1]
  rfl

end Reply

namespace SipUas

/-! ## the server -/

/-- What the server holds on to can be written on a line. -/
structure Guarded (u : SipUas) : Prop where
  userAgent : OneLine u.cfg.userAgent
  localIp : 13 ∉ u.cfg.localIp
  forcedTag : u.forcedTag = []
  localTag : OneLine u.localTag
  lastInvite : u.lastInvite.OneLineValues
  last2xxInvite : u.answered = true → Reply u.last2xxInvite

variable {u u' : SipUas} {req resp : SipMessage} {code : Int} {reason cid : Str} {n : Int}

theorem Guarded.congr (hg : Guarded u) (hdialog : u'.toDialog = u.toDialog) (hcfg : u'.cfg = u.cfg)
    (htag : u'.forcedTag = []) : Guarded u' := by
  constructor
  · rw [hcfg]; exact hg.userAgent
  · rw [hcfg]; exact hg.localIp
  · exact htag
  · rw [hdialog]; exact hg.localTag
  · rw [hdialog]; exact hg.lastInvite
  · rw [hdialog]; exact hg.last2xxInvite

/-- A drawn tag is letters and digits. -/
theorem newTag_oneLine (h : u.forcedTag = []) : OneLine u.newTag.1 := by
  have hhex (k : Nat) : 13 ∉ hexStr k := fun hmem => absurd (ge_of_mem_hexStr hmem) (by decide)
  refine oneLine_of_no_cr ?_
  rw [newTag, if_neg (not_not.mpr h)]
  simp only [List.mem_append, not_or]
  exact ⟨⟨by decide, hhex _⟩, hhex _⟩

theorem Guarded.newTag (hg : Guarded u) : Guarded u.newTag.2 :=
  hg.congr (newTag_toDialog u) (newTag_cfg u) ((newTag_forcedTag u).trans hg.forcedTag)

theorem Guarded.toValue (hg : Guarded u) {toHdr : Str} (hto : OneLine toHdr) :
    OneLine (u.toValue toHdr code).1 ∧ Guarded (u.toValue toHdr code).2 := by
  have htagged {tag : Str} (htag : OneLine tag) : OneLine (toHdr ++ str ";tag=" ++ tag) := by
    have hlabel : OneLine (str "tag" ++ ch '=' :: tag) :=
      (by decide : OneLine (str "tag")).append_cons htag
    rw [List.append_assoc]
    exact hto.append_cons hlabel
  unfold SipUas.toValue
  split_ifs with htag hlocal
  · exact ⟨htagged (newTag_oneLine hg.forcedTag), hg.newTag⟩
  · exact ⟨htagged hg.localTag, hg⟩
  · exact ⟨hto, hg⟩

theorem Reply.echo (hr : Reply resp) (hreq : req.OneLineValues) {name : Str}
    (hname : name ∈ responseNames) : Reply (echo req name resp) := by
  unfold SipUas.echo
  cases hget : req.get name with
  | none => exact hr
  | some v => exact hr.set hname (hreq.get hget)

theorem reasonFor_oneLine (code : Int) : OneLine (reasonFor code) := by
  have hite {p : Prop} [Decidable p] {a b : Str} (ha : OneLine a) (hb : OneLine b) :
      OneLine (if p then a else b) := by
    split
    · exact ha
    · exact hb
  unfold reasonFor
  repeat' apply hite
  all_goals decide

/-- The status line and the Via stack are a reply. -/
theorem reply_viaStack (hreq : req.OneLineValues) (hcode : 100 ≤ code ∧ code ≤ 999)
    (hreason : OneLine reason) : Reply (viaStack req code reason) := by
  refine Reply.foldl_add ?_ (by decide) hreq.getAll
  constructor
  · rfl
  · rfl
  · exact hcode
  · dsimp only
    split_ifs
    · exact reasonFor_oneLine code
    · exact hreason
  · exact nofun

/-- **A response is a reply, and building it keeps the server guarded.** -/
theorem Guarded.makeResponse (hg : Guarded u) (hreq : req.OneLineValues)
    (hcode : 100 ≤ code ∧ code ≤ 999) (hreason : OneLine reason) :
    Reply (u.makeResponse req code reason).1 ∧ Guarded (u.makeResponse req code reason).2 := by
  have hvia := reply_viaStack hreq hcode hreason
  have hfrom := Reply.echo hvia hreq (by decide : str "From" ∈ responseNames)
  have hto : Reply (u.setTo req code (echo req (str "From") (viaStack req code reason))).1 ∧
      Guarded (u.setTo req code (echo req (str "From") (viaStack req code reason))).2 := by
    unfold setTo
    cases hget : req.get (str "To") with
    | none => exact ⟨hfrom, hg⟩
    | some toHdr =>
        obtain ⟨hvalue, hg'⟩ := @Guarded.toValue u code hg toHdr (hreq.get hget)
        exact ⟨hfrom.set (by decide) hvalue, hg'⟩
  obtain ⟨hset, hg'⟩ := hto
  have hecho := Reply.echo (Reply.echo hset hreq (by decide : str "Call-ID" ∈ responseNames)) hreq
    (by decide : str "CSeq" ∈ responseNames)
  exact ⟨hecho.set (by decide) hg'.userAgent, hg'⟩

/-! ## handle -/

/-- An outcome of `handle`: replies, and a server that is still guarded. -/
def Proper (out : UasResult × SipUas) : Prop :=
  (∀ r ∈ out.1.responses, Reply r) ∧ Guarded out.2

theorem Guarded.replyWith (hg : Guarded u) (hreq : req.OneLineValues)
    (hcode : 100 ≤ code ∧ code ≤ 999) (hreason : OneLine reason) {hdrs : List (Str × Str)}
    (hhdrs : ∀ h ∈ hdrs, h.1 ∈ responseNames ∧ OneLine h.2) :
    Proper (u.replyWith req code reason hdrs) := by
  obtain ⟨hreply, hg'⟩ := hg.makeResponse hreq hcode hreason
  refine ⟨?_, hg'⟩
  rw [SipUas.replyWith, List.forall_mem_singleton]
  exact hreply.foldl_set hhdrs

theorem Guarded.openDialog (hg : Guarded u) (hreq : req.OneLineValues) :
    Guarded (u.openDialog req cid n) where
  userAgent := by simpa using hg.userAgent
  localIp := by simpa using hg.localIp
  forcedTag := by simpa [SipUas.openDialog] using hg.forcedTag
  localTag := newTag_oneLine hg.forcedTag
  lastInvite := by simpa using hreq
  last2xxInvite hanswered := by simp [SipUas.openDialog] at hanswered

theorem Guarded.okInvite (hg : Guarded u) (hreq : req.OneLineValues) (answer : SdpSession) :
    Reply (u.okInvite req answer).1 ∧ Guarded (u.okInvite req answer).2 := by
  obtain ⟨hreply, hg'⟩ := @Guarded.makeResponse u req 200 (str "OK") hg hreq (by decide) (by decide)
  have hcontact : OneLine (str "<sip:" ++ (u.makeResponse req 200 (str "OK")).2.cfg.localIp ++
      str ":" ++ natStr (u.makeResponse req 200 (str "OK")).2.cfg.sipPort.toNat ++ str ">") := by
    refine oneLine_of_no_cr ?_
    simp only [List.mem_append, not_or]
    exact ⟨⟨⟨⟨by decide, hg'.localIp⟩, by decide⟩, cr_not_mem_natStr _⟩, by decide⟩
  have hset := (hreply.set (by decide : str "Contact" ∈ responseNames) hcontact).set
    (by decide : str "Content-Type" ∈ responseNames) (by decide : OneLine (str "application/sdp"))
  exact ⟨hset.withBody answer.generate, hg'⟩

/-- The end of a call keeps the server guarded. -/
theorem Guarded.hangUp (hg : Guarded u) : Guarded { u with haveDialog := false } := { hg with }

/-- A new call ends in a refusal or in an answer. -/
theorem Guarded.newCall (hg : Guarded u) (hreq : req.OneLineValues) :
    Proper (u.newCall req cid n) := by
  have hopen := @Guarded.openDialog u req cid n hg hreq
  obtain ⟨htrying, hg₁⟩ :=
    @Guarded.makeResponse _ req 100 [] hopen hreq (by decide) (by decide)
  obtain ⟨hringing, hg₂⟩ :=
    @Guarded.makeResponse _ req 180 [] hg₁ hreq (by decide) (by decide)
  unfold SipUas.newCall
  dsimp only
  split
  · obtain ⟨hbad, hg₃⟩ :=
      @Guarded.makeResponse _ req 400 (str "Bad Request (SDP)") hg₂ hreq (by decide) (by decide)
    exact ⟨by simp [htrying, hringing, hbad], hg₃.hangUp⟩
  · split
    · obtain ⟨hrefused, hg₃⟩ :=
        @Guarded.makeResponse _ req 488 [] hg₂ hreq (by decide) (by decide)
      exact ⟨by simp [htrying, hringing, hrefused], hg₃.hangUp⟩
    · next answer _ =>
        obtain ⟨hok, hg₃⟩ := hg₂.okInvite hreq answer
        exact ⟨by simp [htrying, hringing, hok], { hg₃ with last2xxInvite := fun _ => hok }⟩

theorem Guarded.handleInvite (hg : Guarded u) (hreq : req.OneLineValues) :
    Proper (u.handleInvite req) := by
  unfold SipUas.handleInvite
  split
  · dsimp only
    split_ifs with hdup hanswered hbusy
    · exact ⟨by simpa using hg.last2xxInvite hanswered, hg⟩
    · exact ⟨nofun, hg⟩
    · exact hg.replyWith hreq (by decide) (by decide) nofun
    · exact hg.newCall hreq
  · exact hg.replyWith hreq (by decide) (by decide) nofun

theorem Guarded.handleCancel (hg : Guarded u) (hreq : req.OneLineValues) :
    Proper (u.handleCancel req) := by
  obtain ⟨hok, hg'⟩ := @Guarded.makeResponse u req 200 (str "OK") hg hreq (by decide) (by decide)
  obtain ⟨hterm, hg''⟩ :=
    @Guarded.makeResponse _ _ 487 [] hg' hg'.lastInvite (by decide) (by decide)
  unfold SipUas.handleCancel
  dsimp only
  split_ifs with hpending
  · refine ⟨?_, hg''.hangUp⟩
    rw [List.forall_mem_cons, List.forall_mem_singleton]
    exact ⟨hok, hterm⟩
  · exact ⟨by simp [hok], hg'⟩

theorem Guarded.handleBye (hg : Guarded u) (hreq : req.OneLineValues) :
    Proper (u.handleBye req) := by
  obtain ⟨hok, hg'⟩ := @Guarded.makeResponse u req 200 (str "OK") hg hreq (by decide) (by decide)
  unfold SipUas.handleBye
  split_ifs with hactive
  · exact ⟨by simp [hok], { hg' with last2xxInvite := nofun }⟩
  · exact hg.replyWith hreq (by decide) (by decide) nofun

/-- **`handle` answers with replies and stays guarded.** -/
theorem Guarded.handle (hg : Guarded u) (hreq : req.OneLineValues) : Proper (u.handle req) := by
  have hallow : str "Allow" ∈ responseNames ∧ OneLine allowedMethods := by decide
  have haccept : str "Accept" ∈ responseNames ∧ OneLine (str "application/sdp") := by decide
  unfold SipUas.handle
  split_ifs
  · exact ⟨nofun, hg⟩
  · refine hg.replyWith hreq (by decide) (by decide) ?_
    rw [List.forall_mem_cons, List.forall_mem_singleton]
    exact ⟨hallow, haccept⟩
  · exact hg.handleInvite hreq
  · exact ⟨nofun, hg⟩
  · exact hg.handleCancel hreq
  · exact hg.handleBye hreq
  · refine hg.replyWith hreq (by decide) (by decide) ?_
    rw [List.forall_mem_singleton]
    exact hallow

/-! ## datagrams -/

/-- One datagram in the main loop: what is not a request is dropped. -/
def receive (u : SipUas) (raw : Str) : SipUas :=
  match parseSip raw with
  | some m => if m.isRequest then u.next m else u
  | none => u

/-- The states a server with generated tags reaches by any datagrams. -/
def ReachableByDatagrams (cfg : UasConfig) : SipUas → Prop :=
  Run.Reachable receive fun u => ∃ rng, u = fresh cfg [] rng

end SipUas

/-- A configuration whose texts are not empty and stay on one line. -/
structure UasConfig.Clean (cfg : UasConfig) : Prop where
  userAgent : cfg.userAgent ≠ [] ∧ 13 ∉ cfg.userAgent ∧ 10 ∉ cfg.userAgent
  localIp : cfg.localIp ≠ [] ∧ 13 ∉ cfg.localIp ∧ 10 ∉ cfg.localIp

/-- `m'` says what `r` says: the same status, every header in its place with its
value up to the blanks at the ends, Content-Length behind them, and the same
body. -/
structure SipMessage.Intact (r m' : SipMessage) : Prop where
  isRequest : m'.isRequest = false
  statusCode : m'.statusCode = r.statusCode
  names : m'.headers.map Prod.fst = r.headers.map Prod.fst ++ [str "Content-Length"]
  values : m'.headers.map Prod.snd =
    (r.headers.map fun h => trim h.2) ++ [natStr r.body.length]
  body : m'.body = r.body

namespace SipUas

variable {cfg : UasConfig} {u : SipUas} {raw : Str} {req r : SipMessage}

/-- The parser took every value from single lines. -/
theorem oneLineValues_of_parseSip (h : parseSip raw = some req) : req.OneLineValues := fun x hx =>
  ((SipMessage.parseSip_sendable h).headers x hx).value_oneLine

theorem guarded_receive (hg : Guarded u) (raw : Str) : Guarded (u.receive raw) := by
  unfold receive
  cases hparse : parseSip raw with
  | none => exact hg
  | some m =>
      dsimp only
      split
      · exact (hg.handle (oneLineValues_of_parseSip hparse)).2
      · exact hg

theorem ReachableByDatagrams.guarded (hcfg : cfg.Clean) (h : ReachableByDatagrams cfg u) :
    Guarded u := by
  refine Run.Reachable.invariant Guarded ?_ (fun _ raw hg => guarded_receive hg raw) h
  rintro _ ⟨rng, rfl⟩
  exact
    { userAgent := oneLine_of_no_cr hcfg.userAgent.2.1
      localIp := hcfg.localIp.2.1
      forcedTag := rfl
      localTag := (by decide : OneLine [])
      lastInvite := nofun
      last2xxInvite := nofun }

/-- A reply is read back intact. -/
theorem Reply.intact (hr : Reply r) (hsize : r.body.length ≤ maxSize) :
    ∃ m', parseSip r.serialize = some m' ∧ r.Intact m' := by
  have hstatus : r.PrintableStatus := fun _ => hr.status
  refine ⟨r.received, SipMessage.parseSip_serialize hr.sendable hstatus hsize, ?_⟩
  have hheaders : r.received.headers = (r.headers.map fun h => (h.1, trim h.2)) ++
      [(str "Content-Length", natStr r.body.length)] := by
    rw [SipMessage.received, hr.canonical_headers, List.map_append, List.map_singleton,
      (trimmed_natStr _).trim_eq]
  have hfields : r.startFields.isRequest = false ∧ r.startFields.statusCode = r.statusCode := by
    simp [SipMessage.startFields, hr.isRequest]
  exact
    { isRequest := hfields.1
      statusCode := hfields.2
      names := by simp [hheaders]
      values := by simp [hheaders]
      body := rfl }

/-- **Nothing in a datagram adds, drops or splits a header of a response, or
changes its body.** -/
theorem responses_intact (hcfg : cfg.Clean) (hu : ReachableByDatagrams cfg u)
    (hreq : parseSip raw = some req) (hr : r ∈ (u.handle req).1.responses)
    (hsize : r.body.length ≤ maxSize) :
    ∃ m', parseSip r.serialize = some m' ∧ r.Intact m' :=
  Reply.intact (((hu.guarded hcfg).handle (oneLineValues_of_parseSip hreq)).1 r hr) hsize

/-- A request that tries: bare CR and LF, and a header that looks folded in. -/
def hostileText : Str :=
  str "OPTIONS sip:x SIP/2.0\r\nVia: a\rServer: b\nContent-Length: 9\r\n" ++
  str "From:\r\n \r\n Allow: none\r\nCall-ID: 1\r\n\r\n"

/-- The response to it. -/
def hostileReply : SipMessage :=
  { isRequest := false
    statusCode := 200
    reasonPhrase := str "OK"
    headers :=
      [(str "Via", str "a\rServer: b\nContent-Length: 9"), (str "From", str "  Allow: none"),
        (str "Call-ID", str "1"), (str "Server", str "sipdemo/0.1"), (str "Allow", allowedMethods),
        (str "Accept", str "application/sdp")] }

theorem responses_intact_hostileReply :
    ∃ m', parseSip hostileReply.serialize = some m' ∧ hostileReply.Intact m' := by
  have hreq : parseSip hostileText = some
      { method := str "OPTIONS"
        requestUri := str "sip:x"
        headers := [(str "Via", str "a\rServer: b\nContent-Length: 9"),
          (str "From", str "  Allow: none"), (str "Call-ID", str "1")] } := by decide +kernel
  have hu : ReachableByDatagrams {} sampleUas := .of_init ⟨_, rfl⟩
  refine responses_intact ⟨by decide, by decide⟩ hu hreq ?_ (by decide)
  decide +kernel

end SipUas

end SipDemo
