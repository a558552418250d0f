import Mathlib.Algebra.BigOperators.Ring.List
import Mathlib.Algebra.Order.BigOperators.Group.List
import Mathlib.Algebra.Order.Ring.Nat
import SipDemo.SipParser.Accepted
import SipDemo.SipUas.Response
import SipDemo.Sdp.Exchange

/-!
# SipDemo.SipUas.Size

How long a response can be.

A header that is echoed was paid for by the request: the headers of a message
are no longer than its text, but for a blank after each colon
(`size_le_of_parseSip`), and a response takes each of them once
(`echoed_le_size`).  What the server adds is bounded by its configuration
(`Fits`, `Sized`), and so are the responses that it keeps.
-/

namespace SipDemo

/-! ## what headers take -/

/-- The length of `headerText h` and a line end. -/
def headerSize (h : Str × Str) : Nat := h.1.length + h.2.length + 4

namespace SipMessage

/-- What the headers take on the wire. -/
def size (m : SipMessage) : Nat := (m.headers.map headerSize).sum

/-- What those of one name take. -/
def sizeOf (m : SipMessage) (name : Str) : Nat :=
  ((m.headers.filter fun h => iequals h.1 name).map headerSize).sum

end SipMessage

/-- The lines of a text take no more than the text. -/
theorem sum_splitLines_le (rest : Str) (left : Nat) :
    ((splitLines rest left).map fun l => l.length + 2).sum ≤ left + 2 := by
  fun_induction splitLines rest left with
  | case1 rest => simp
  | case2 rest left hleft nl ih =>
      have hnl : nl ≤ left := by
        simp only [nl]
        split
        · split <;> omega
        · exact Nat.le_refl _
      have htake : (rest.take nl).length ≤ nl := List.length_take_le _ _
      rw [List.map_cons, List.sum_cons]
      by_cases hlast : left - (nl + 2) = 0
      · rw [hlast, splitLines_zero]
        simp only [List.map_nil, List.sum_nil]
        omega
      · omega

theorem length_trim_le (s : Str) : (trim s).length ≤ s.length := by
  have hright := (List.rdropWhile_prefix ws (l := s.dropWhile ws)).length_le
  have hleft := (List.dropWhile_suffix ws (l := s)).length_le
  exact hright.trans hleft

/-- A name, a colon and a value are a line. -/
theorem length_name_value {line : Str} (h : ch ':' ∈ line) :
    (headerName line).length + (headerValue line).length + 1 ≤ line.length := by
  have hsplit := congrArg List.length (List.takeWhile_append_dropWhile (p := fun c => c ≠ ch ':')
    (l := line))
  have hcolon : 0 < (line.dropWhile fun c => c ≠ ch ':').length := by
    rw [List.length_pos_iff]
    intro hnil
    rw [List.dropWhile_eq_nil_iff] at hnil
    simpa using hnil _ h
  have hname := length_trim_le (line.takeWhile fun c => c ≠ ch ':')
  have hvalue := length_trim_le ((line.dropWhile fun c => c ≠ ch ':').drop 1)
  rw [List.length_append] at hsplit
  rw [List.length_drop] at hvalue
  unfold headerName headerValue
  omega

/-- The header loop makes no more of the lines than there is. -/
theorem sum_headers_le {lines : List Str} {init out : List (Str × Str)}
    (h : lines.foldlM headerLine init = some out) :
    (out.map fun h => h.1.length + h.2.length + 3).sum ≤
      (init.map fun h => h.1.length + h.2.length + 3).sum +
        (lines.map fun l => l.length + 2).sum := by
  induction lines generalizing init with
  | nil =>
      obtain rfl : init = out := by simpa using h
      simp
  | cons line lines ih =>
      rw [List.foldlM_cons, Option.bind_eq_bind, Option.bind_eq_some_iff] at h
      obtain ⟨next, hnext, h⟩ := h
      have hrest := ih h
      rw [List.map_cons, List.sum_cons]
      rcases headerLine_cases hnext with
        ⟨_, front, name, value, rfl, rfl⟩ | ⟨_, hcolon, _, rfl⟩
      · have htrim := length_trim_le line
        simp only [List.map_append, List.sum_append, List.map_cons, List.map_nil, List.sum_cons,
          List.sum_nil, List.length_append, List.length_cons] at hrest ⊢
        omega
      · have hline := length_name_value hcolon
        simp only [List.map_append, List.sum_append, List.map_cons, List.map_nil, List.sum_cons,
          List.sum_nil] at hrest ⊢
        omega

/-- **The headers of a message** take no more than its text, and a quarter of that
for the blanks. -/
theorem size_le_of_parseSip {raw : Str} {m : SipMessage} (h : parseSip raw = some m) :
    4 * m.size ≤ 5 * raw.length := by
  obtain ⟨start, lines, _, hsection, _, _, hheaders, _, _⟩ := parseSip_cases h
  have htext : (lines.map fun l => l.length + 2).sum ≤ raw.length := by
    unfold headerSection at hsection
    split at hsection
    · next headerEnd hend =>
        have hlines := sum_splitLines_le raw headerEnd
        have hlen := find_add_le hend
        have hblank : (crlf ++ crlf).length = 4 := rfl
        rw [hsection, List.map_cons, List.sum_cons] at hlines
        omega
    · cases hsection
  have hparsed := sum_headers_le hheaders
  obtain ⟨hmap, hnames⟩ := foldlM_headerLine_nil hheaders
  have hnamed : ∀ h ∈ m.headers, 4 * headerSize h ≤ 5 * (h.1.length + h.2.length + 3) := by
    intro h hh
    rw [hmap] at hh
    obtain ⟨g, hg, rfl⟩ := List.mem_map.mp hh
    have hname : 0 < (headerName g.1).length := List.length_pos_iff.mpr (hnames g hg).2
    simp only [headerSize, unfoldedHeader]
    omega
  have hsum := List.sum_le_sum hnamed
  rw [List.sum_map_mul_left, List.sum_map_mul_left] at hsum
  simp only [List.map_nil, List.sum_nil, Nat.zero_add] at hparsed
  unfold SipMessage.size
  omega

/-! ## what is echoed -/

/-- Parts of a list that share nothing are no more than the list. -/
theorem sum_parts_le {α κ : Type*} (p : κ → α → Bool) (cost : α → Nat) {ks : List κ}
    (hks : ks.Pairwise fun k l => ∀ x, p k x = true → p l x = false) (xs : List α) :
    (ks.map fun k => ((xs.filter (p k)).map cost).sum).sum ≤ (xs.map cost).sum := by
  induction xs with
  | nil => simp
  | cons x xs ih =>
      have hone : (ks.map fun k => if p k x then cost x else 0).sum ≤ cost x := by
        clear ih
        induction hks with
        | nil => simp
        | cons hk hks ih =>
            rename_i k ks
            cases hx : p k x with
            | false => simpa [hx] using ih
            | true =>
                have hrest : (ks.map fun k => if p k x then cost x else 0).sum = 0 := by
                  rw [List.sum_eq_zero_iff_forall_eq_nat, List.forall_mem_map]
                  intro l hl
                  simp [hk l hl x hx]
                simp [hx, hrest]
      have hsplit : (ks.map fun k => (((x :: xs).filter (p k)).map cost).sum) =
          ks.map fun k => (if p k x then cost x else 0) + ((xs.filter (p k)).map cost).sum := by
        apply List.map_congr_left
        intro k _
        cases hx : p k x <;> simp [hx]
      rw [hsplit, List.sum_map_add, List.map_cons, List.sum_cons]
      omega

/-- The headers that a response takes from its request. -/
def echoedNames : List Str := [str "Via", str "From", str "To", str "Call-ID", str "CSeq"]

theorem echoed_le_size (m : SipMessage) : (echoedNames.map m.sizeOf).sum ≤ m.size := by
  have hapart : echoedNames.Pairwise fun a b => iequals a b = false := by decide +kernel
  refine sum_parts_le (fun n h => iequals h.1 n) headerSize (hapart.imp ?_) m.headers
  intro a b hab h ha
  rw [iequals_congr ha]
  exact hab

namespace SipMessage

variable {m : SipMessage} {name v : Str}

theorem sum_getAll (m : SipMessage) (name : Str) :
    ((m.getAll name).map fun v => name.length + v.length + 4).sum = m.sizeOf name := by
  have hlen : ∀ h ∈ m.headers.filter fun h => iequals h.1 name,
      name.length + h.2.length + 4 = headerSize h := by
    intro h hh
    have heq := iequals_iff.mp (List.mem_filter.mp hh).2
    have hnames := congrArg List.length heq
    simp only [toLower, List.length_map] at hnames
    rw [headerSize, hnames]
  rw [getAll, List.map_map, sizeOf]
  exact congrArg List.sum (List.map_congr_left hlen)

theorem size_of_get (h : m.get name = some v) : name.length + v.length + 4 ≤ m.sizeOf name := by
  rw [← sum_getAll]
  rw [get_eq_head?_getAll] at h
  have hmem := List.mem_map_of_mem (f := fun v : Str => name.length + v.length + 4)
    (List.mem_of_mem_head? h)
  exact List.single_le_sum (fun _ _ => Nat.zero_le _) _ hmem

theorem size_add (m : SipMessage) (name v : Str) :
    (m.add name v).size = m.size + (name.length + v.length + 4) := by
  simp [size, add, headerSize]

theorem size_remove_le (m : SipMessage) (name : Str) : (m.remove name).size ≤ m.size :=
  (List.filter_sublist.map headerSize).sum_le_sum fun _ _ => Nat.zero_le _

end SipMessage

/-! ## responses -/

theorem length_natStr_le_succ (n : Nat) : (natStr n).length ≤ n + 1 :=
  length_natStr_le n.succ_pos
    ((Nat.lt_pow_self (by decide)).trans (Nat.pow_lt_pow_succ (by decide)))

theorem length_hexStr_le (x : UInt32) : (hexStr x.toNat).length ≤ 8 := by
  rw [hexStr, List.length_map]
  exact (Nat.length_toDigits_le_iff (by decide) (by decide)).mpr x.toNat_lt

/-- A response whose headers and body take `n` bytes; a byte of the body counts
twice, for the numeral of its length. -/
structure Fits (r : SipMessage) (n : Nat) : Prop where
  isRequest : r.isRequest = false
  version : r.version = str "SIP/2.0"
  status : 100 ≤ r.statusCode ∧ r.statusCode ≤ 999
  reason : r.reasonPhrase.length ≤ 31
  size : r.size + 2 * r.body.length ≤ n

namespace Fits

variable {r req : SipMessage} {n k : Nat} {name v : Str}

theorem mono (h : Fits r n) (hle : n ≤ k) : Fits r k := { h with size := h.size.trans hle }

theorem add (h : Fits r n) (name v : Str) :
    Fits (r.add name v) (n + (name.length + v.length + 4)) :=
  { h with
    size := by
      have hsize := h.size
      rw [SipMessage.size_add]
      change r.size + _ + 2 * r.body.length ≤ _
      omega }

theorem remove (h : Fits r n) (name : Str) : Fits (r.remove name) n :=
  { h with size := (Nat.add_le_add_right (r.size_remove_le name) _).trans h.size }

theorem set (h : Fits r n) (name v : Str) :
    Fits (r.set name v) (n + (name.length + v.length + 4)) :=
  (h.remove name).add name v

theorem foldl_add (h : Fits r n) (name : Str) (vs : List Str) :
    Fits (vs.foldl (fun r v => r.add name v) r)
      (n + (vs.map fun v => name.length + v.length + 4).sum) := by
  induction vs generalizing r n with
  | nil => exact h
  | cons v vs ih => exact (ih (h.add name v)).mono (Nat.add_assoc _ _ _).le

theorem foldl_set (h : Fits r n) (hdrs : List (Str × Str)) :
    Fits (hdrs.foldl (fun r h => r.set h.1 h.2) r) (n + (hdrs.map headerSize).sum) := by
  induction hdrs generalizing r n with
  | nil => exact h
  | cons x hdrs ih => exact (ih (h.set x.1 x.2)).mono (Nat.add_assoc _ _ _).le

theorem withBody (h : Fits r n) (hbody : r.body = []) (body : Str) :
    Fits { r with body } (n + 2 * body.length) :=
  { h with
    size := by
      have hsize := h.size
      rw [hbody] at hsize
      exact Nat.add_le_add_right hsize _ }

/-- A header that is echoed takes what it took in the request. -/
theorem echo (h : Fits r n) (req : SipMessage) (name : Str) :
    Fits (SipUas.echo req name r) (n + req.sizeOf name) := by
  unfold SipUas.echo
  cases hget : req.get name with
  | none => exact h.mono (Nat.le_add_right _ _)
  | some v => exact (h.set name v).mono (Nat.add_le_add_left (SipMessage.size_of_get hget) _)

/-- What a response takes on the wire. -/
theorem length_serialize (h : Fits r n) : r.serialize.length ≤ n + 66 := by
  have hsize := h.size
  have hreason := h.reason
  have hcode : (intStr r.statusCode).length = 3 := (intStr_three_digits_iff.mpr h.status).1
  have hlength := length_natStr_le_succ r.body.length
  have hheaders : ((r.headers.filter fun h => !iequals h.1 (str "Content-Length")).flatMap
      fun h => h.1 ++ str ": " ++ h.2 ++ crlf).length ≤ r.size := by
    have hone : ∀ h : Str × Str, (h.1 ++ str ": " ++ h.2 ++ crlf).length = headerSize h := by
      intro h
      have htexts : (str ": ").length = 2 ∧ crlf.length = 2 := by decide
      simp only [headerSize, List.length_append, htexts]
      omega
    rw [List.length_flatMap, List.map_congr_left fun h _ => hone h]
    exact (List.filter_sublist.map headerSize).sum_le_sum fun _ _ => Nat.zero_le _
  have htexts : (str "SIP/2.0").length = 7 ∧ (str " ").length = 1 ∧
      (str "Content-Length: ").length = 16 ∧ crlf.length = 2 := by decide
  rw [SipMessage.serialize, h.isRequest, if_neg (by decide), h.version]
  simp only [List.length_append, htexts]
  omega

end Fits

namespace SipUas

/-- The room that responses take when no request has headers of more than `k`
bytes. -/
def room (k : Nat) (cfg : UasConfig) : Nat :=
  k + cfg.userAgent.length + 5 * cfg.localIp.length + 821

/-- What the server holds on to has its bounds. -/
structure Sized (k : Nat) (cfg : UasConfig) (u : SipUas) : Prop where
  cfg_eq : u.cfg = cfg
  forcedTag : u.forcedTag = []
  localTag : u.localTag.length ≤ 18
  lastInvite : u.lastInvite.size ≤ k
  last2xxInvite : u.answered = true → Fits u.last2xxInvite (room k cfg)

variable {u u' : SipUas} {req resp : SipMessage} {code : Int} {reason cid : Str} {n : Int} {k : Nat}
  {cfg : UasConfig}

theorem Sized.congr (h : Sized k cfg u) (hdialog : u'.toDialog = u.toDialog) (hcfg : u'.cfg = u.cfg)
    (htag : u'.forcedTag = []) : Sized k cfg u' := by
  constructor
  · exact hcfg.trans h.cfg_eq
  · exact htag
  · rw [hdialog]; exact h.localTag
  · rw [hdialog]; exact h.lastInvite
  · rw [hdialog]; exact h.last2xxInvite

theorem length_newTag_le (h : u.forcedTag = []) : u.newTag.1.length ≤ 18 := by
  have hrandom := length_hexStr_le u.rng.head
  have hcounter := length_hexStr_le (u.tagCounter + 1)
  have hsd : (str "sd").length = 2 := rfl
  rw [newTag, if_neg (not_not.mpr h)]
  simp only [List.length_append]
  omega

theorem length_ownTag_le (h : Sized k cfg u) : u.ownTag.length ≤ 18 := by
  unfold ownTag
  split
  · exact length_newTag_le h.forcedTag
  · exact h.localTag

/-- The To header takes a tag more than that of the request. -/
theorem Sized.setTo (h : Sized k cfg u) {n : Nat} (hresp : Fits resp n) (req : SipMessage)
    (code : Int) :
    Fits (u.setTo req code resp).1 (n + (req.sizeOf (str "To") + 23)) := by
  unfold SipUas.setTo
  cases hget : req.get (str "To") with
  | none => exact hresp.mono (by omega)
  | some toHdr =>
      have hto := SipMessage.size_of_get hget
      have htag := length_ownTag_le h
      have htext : (str ";tag=").length = 5 := rfl
      have hvalue : (u.toValue toHdr code).1.length ≤ toHdr.length + 23 := by
        rw [toValue_fst]
        split
        · simp only [List.length_append]
          omega
        · omega
      exact (hresp.set (str "To") _).mono (by omega)

theorem length_reasonFor_le (code : Int) : (reasonFor code).length ≤ 31 := by
  unfold reasonFor
  repeat' split
  all_goals decide

theorem makeResponse_forcedTag (u : SipUas) (req : SipMessage) (code : Int) (reason : Str) :
    (u.makeResponse req code reason).2.forcedTag = u.forcedTag := by
  rw [makeResponse_snd]
  cases req.get (str "To") with
  | none => rfl
  | some toHdr =>
      simp only [Option.map_some, Option.getD_some, toValue_snd]
      split
      · exact newTag_forcedTag u
      · rfl

/-- **A response** takes what its request took, and the texts of the server. -/
theorem Sized.makeResponse (h : Sized k cfg u) (hreq : req.size ≤ k)
    (hcode : 100 ≤ code ∧ code ≤ 999) (hreason : reason.length ≤ 31) :
    Fits (u.makeResponse req code reason).1 (k + cfg.userAgent.length + 33) ∧
      Sized k cfg (u.makeResponse req code reason).2 := by
  have hvia : Fits (viaStack req code reason) (0 + req.sizeOf (str "Via")) := by
    rw [← SipMessage.sum_getAll]
    refine Fits.foldl_add ⟨rfl, rfl, hcode, ?_, Nat.le_refl 0⟩ _ _
    dsimp only
    split
    · exact length_reasonFor_le code
    · exact hreason
  have hto := h.setTo (hvia.echo req (str "From")) req code
  have hall := ((hto.echo req (str "Call-ID")).echo req (str "CSeq")).set (str "Server")
    (u.makeResponse req code reason).2.cfg.userAgent
  have hechoed := echoed_le_size req
  have hserver : (str "Server").length = 6 := by decide
  simp only [echoedNames, List.map_cons, List.map_nil, List.sum_cons, List.sum_nil] at hechoed
  refine ⟨hall.mono ?_, h.congr makeResponse_toDialog makeResponse_cfg ?_⟩
  · rw [makeResponse_cfg, h.cfg_eq]
    omega
  · exact (makeResponse_forcedTag u req code reason).trans h.forcedTag

/-! ## handle -/

/-- An outcome of `handle`: a few responses that fit, and a server with its
bounds. -/
structure Modest (k : Nat) (cfg : UasConfig) (out : UasResult × SipUas) : Prop where
  few : out.1.responses.length ≤ 3
  fits : ∀ r ∈ out.1.responses, Fits r (room k cfg)
  sized : Sized k cfg out.2

/-- A response with nothing added leaves room. -/
theorem Sized.response (h : Sized k cfg u) (hreq : req.size ≤ k)
    (hcode : 100 ≤ code ∧ code ≤ 999) (hreason : reason.length ≤ 31) :
    Fits (u.makeResponse req code reason).1 (room k cfg) ∧
      Sized k cfg (u.makeResponse req code reason).2 := by
  obtain ⟨hfits, h'⟩ := h.makeResponse hreq hcode hreason
  exact ⟨hfits.mono (by unfold room; omega), h'⟩

theorem Sized.replyWith (h : Sized k cfg u) (hreq : req.size ≤ k)
    (hcode : 100 ≤ code ∧ code ≤ 999) (hreason : reason.length ≤ 31) {hdrs : List (Str × Str)}
    (hhdrs : (hdrs.map headerSize).sum ≤ 100) :
    Modest k cfg (u.replyWith req code reason hdrs) := by
  obtain ⟨hfits, h'⟩ := h.makeResponse hreq hcode hreason
  refine ⟨by simp [SipUas.replyWith], ?_, h'⟩
  rw [SipUas.replyWith, List.forall_mem_singleton]
  exact (hfits.foldl_set hdrs).mono (by unfold room; omega)

theorem Sized.openDialog (h : Sized k cfg u) (hreq : req.size ≤ k) :
    Sized k cfg (u.openDialog req cid n) where
  cfg_eq := by simpa [SipUas.openDialog] using h.cfg_eq
  forcedTag := by simpa [SipUas.openDialog] using h.forcedTag
  localTag := length_newTag_le h.forcedTag
  lastInvite := by simpa [SipUas.openDialog] using hreq
  last2xxInvite hanswered := by simp [SipUas.openDialog] at hanswered

/-- The 200 of an INVITE has the Contact and the answer besides. -/
theorem Sized.okInvite (h : Sized k cfg u) (hreq : req.size ≤ k) {offer answer : SdpSession}
    (hrange : offer.InRange) (ha : makeAnswer offer u.cfg.localIp u.cfg.rtpPort = some answer) :
    Fits (u.okInvite req answer).1 (room k cfg) ∧ Sized k cfg (u.okInvite req answer).2 := by
  obtain ⟨hfits, h'⟩ :=
    @Sized.makeResponse u req 200 (str "OK") k cfg h hreq (by decide) (by decide)
  refine ⟨?_, h'⟩
  rw [h.cfg_eq] at ha
  have hbody : answer.generate.length ≤ 367 + 2 * cfg.localIp.length := by
    obtain ⟨husername, haddress, _, _⟩ := makeAnswer_fields ha
    obtain ⟨_, htypes⟩ := makeAnswer_payloadTypes ha
    have hlen := length_generate_le (makeAnswer_inRange hrange ha)
    have hname : (str "sipdemo").length = 7 := by decide
    have hcount : answer.payloadTypes.length ≤ 2 := by
      split_ifs at htypes <;> rw [htypes.1] <;> simp
    rw [husername, haddress] at hlen
    omega
  have hport : (natStr cfg.sipPort.toNat).length ≤ 5 :=
    length_natStr_le (by decide) (by have := cfg.sipPort.toNat_lt; omega)
  have htexts : (str "Contact").length = 7 ∧ (str "<sip:").length = 5 ∧ (str ":").length = 1 ∧
      (str ">").length = 1 ∧ (str "Content-Type").length = 12 ∧
      (str "application/sdp").length = 15 := by decide
  have hset := (hfits.set (str "Contact") (str "<sip:" ++ cfg.localIp ++ str ":" ++
    natStr cfg.sipPort.toNat ++ str ">")).set (str "Content-Type") (str "application/sdp")
  have hall := hset.withBody (by simp) answer.generate
  rw [SipUas.okInvite]
  simp only [makeResponse_cfg, h.cfg_eq]
  refine hall.mono ?_
  simp only [List.length_append, htexts, room]
  omega

theorem Sized.hangUp (h : Sized k cfg u) : Sized k cfg { u with haveDialog := false } := { h with }

theorem Sized.newCall (h : Sized k cfg u) (hreq : req.size ≤ k) :
    Modest k cfg (u.newCall req cid n) := by
  have hopen := @Sized.openDialog u req cid n k cfg h hreq
  obtain ⟨htrying, h₁⟩ := @Sized.response _ req 100 [] k cfg hopen hreq (by decide) (by decide)
  obtain ⟨hringing, h₂⟩ := @Sized.response _ req 180 [] k cfg h₁ hreq (by decide) (by decide)
  unfold SipUas.newCall
  dsimp only
  split
  · obtain ⟨hbad, h₃⟩ :=
      @Sized.response _ req 400 (str "Bad Request (SDP)") k cfg h₂ hreq (by decide) (by decide)
    exact ⟨by simp, by simp [htrying, hringing, hbad], h₃.hangUp⟩
  · next offer hoffer =>
      split
      · obtain ⟨hrefused, h₃⟩ :=
          @Sized.response _ req 488 [] k cfg h₂ hreq (by decide) (by decide)
        exact ⟨by simp, by simp [htrying, hringing, hrefused], h₃.hangUp⟩
      · next answer hanswer =>
          obtain ⟨hok, h₃⟩ := h₂.okInvite hreq (parseSdp_inRange hoffer) hanswer
          exact ⟨by simp, by simp [htrying, hringing, hok],
            { h₃ with last2xxInvite := fun _ => hok }⟩

theorem Sized.handleInvite (h : Sized k cfg u) (hreq : req.size ≤ k) :
    Modest k cfg (u.handleInvite req) := by
  unfold SipUas.handleInvite
  split
  · dsimp only
    split_ifs with hdup hanswered hbusy
    · exact ⟨by simp, by simpa using h.last2xxInvite hanswered, h⟩
    · exact ⟨by simp, nofun, h⟩
    · exact h.replyWith hreq (by decide) (by decide) (by decide)
    · exact h.newCall hreq
  · exact h.replyWith hreq (by decide) (by decide) (by decide)

theorem Sized.handleCancel (h : Sized k cfg u) (hreq : req.size ≤ k) :
    Modest k cfg (u.handleCancel req) := by
  obtain ⟨hok, h'⟩ := @Sized.response u req 200 (str "OK") k cfg h hreq (by decide) (by decide)
  obtain ⟨hterm, h''⟩ :=
    @Sized.response _ _ 487 [] k cfg h' h'.lastInvite (by decide) (by decide)
  unfold SipUas.handleCancel
  dsimp only
  split_ifs with hpending
  · refine ⟨by simp, ?_, h''.hangUp⟩
    rw [List.forall_mem_cons, List.forall_mem_singleton]
    exact ⟨hok, hterm⟩
  · exact ⟨by simp, by simp [hok], h'⟩

theorem Sized.handleBye (h : Sized k cfg u) (hreq : req.size ≤ k) :
    Modest k cfg (u.handleBye req) := by
  obtain ⟨hok, h'⟩ := @Sized.response u req 200 (str "OK") k cfg h hreq (by decide) (by decide)
  unfold SipUas.handleBye
  split_ifs with hactive
  · exact ⟨by simp, by simp [hok], { h' with last2xxInvite := nofun }⟩
  · exact h.replyWith hreq (by decide) (by decide) (by decide)

/-- **`handle`** answers with at most three responses that fit, and the server
keeps its bounds. -/
theorem Sized.handle (h : Sized k cfg u) (hreq : req.size ≤ k) : Modest k cfg (u.handle req) := by
  unfold SipUas.handle
  split_ifs
  · exact ⟨by simp, nofun, h⟩
  · exact h.replyWith hreq (by decide) (by decide) (by decide)
  · exact h.handleInvite hreq
  · exact ⟨by simp, nofun, h⟩
  · exact h.handleCancel hreq
  · exact h.handleBye hreq
  · exact h.replyWith hreq (by decide) (by decide) (by decide)

theorem sized_fresh (k : Nat) (cfg : UasConfig) (rng : Stream' UInt32) :
    Sized k cfg (fresh cfg [] rng) where
  cfg_eq := rfl
  forcedTag := rfl
  localTag := Nat.zero_le 18
  lastInvite := Nat.zero_le k
  last2xxInvite := nofun

end SipUas

end SipDemo
