import SipDemo.Bytes.Numerals
import SipDemo.Bytes.Trim
import SipDemo.SipParser

/-!
# SipDemo.SipParser.RoundTrip

What `serialize` writes, `parseSip` reads.  The written text is a list of lines
(`serialize_eq`), the parser finds these lines again (`parseSip_frame`), and
each line is read by one lemma: the start line, a header, the Content-Length.

`Sendable` collects what these lemmas need of a message; the message that
arrives is `received`, with the values trimmed.  `parseSip_serialize` says so
for every sendable message, and the messages called well formed here arrive
unchanged.
-/

namespace SipDemo

/-! ## one line -/

/-- A text that no line end cuts. -/
def OneLine (s : Str) : Prop := ¬crlf <:+: s

instance (s : Str) : Decidable (OneLine s) := inferInstanceAs (Decidable ¬_)

theorem OneLine.of_isInfix {s t : Str} (h : OneLine s) (ht : t <:+: s) : OneLine t :=
  fun hcrlf => h (hcrlf.trans ht)

theorem oneLine_of_no_cr {s : Str} (h : 13 ∉ s) : OneLine s :=
  fun hcrlf => h (hcrlf.subset List.mem_cons_self)

theorem oneLine_intStr (i : Int) : OneLine (intStr i) :=
  oneLine_of_no_cr fun hmem =>
    (isdigit_of_mem_intStr hmem).elim (by decide) fun hdigit => absurd hdigit (by decide)

/-- Texts stay on one line when they are joined by another byte. -/
theorem OneLine.append_cons {c : UInt8} {s t : Str} (hs : OneLine s) (ht : OneLine t)
    (hc : c ≠ 13 ∧ c ≠ 10 := by decide) : OneLine (s ++ c :: t) :=
  fun hcrlf => (pair_infix_append_cons hc.1 hc.2 hcrlf).elim hs ht

/-! ## the lines of a message -/

namespace SipMessage

/-- The start line, without its line end. -/
def startLine (m : SipMessage) : Str :=
  if m.isRequest then m.method ++ ch ' ' :: (m.requestUri ++ ch ' ' :: m.version)
  else m.version ++ ch ' ' :: (intStr m.statusCode ++ ch ' ' :: m.reasonPhrase)

/-- A header line, without its line end. -/
def headerText (h : Str × Str) : Str := h.1 ++ ch ':' :: ch ' ' :: h.2

/-- The message with the one Content-Length that `serialize` writes. -/
def canonical (m : SipMessage) : SipMessage :=
  m.set (str "Content-Length") (natStr m.body.length)

theorem canonical_headers (m : SipMessage) :
    m.canonical.headers = (m.headers.filter fun h => !iequals h.1 (str "Content-Length")) ++
      [(str "Content-Length", natStr m.body.length)] := rfl

theorem serialize_eq (m : SipMessage) :
    m.serialize = frame 13 10 (m.startLine :: m.canonical.headers.map headerText) ++
      13 :: 10 :: m.body := by
  have hspace : str " " = [ch ' '] := rfl
  have hcolon : str ": " = [ch ':', ch ' '] := rfl
  have hlength : str "Content-Length: " = str "Content-Length" ++ [ch ':', ch ' '] := rfl
  unfold serialize startLine
  cases m.isRequest <;>
    simp only [hspace, hcolon, hlength, canonical_headers, frame, headerText, crlf,
      List.map_append, List.flatMap_append, List.flatMap_cons, List.flatMap_nil, List.flatMap_map,
      List.map_cons, List.map_nil, List.append_assoc, List.cons_append, List.nil_append,
      List.append_nil, Bool.false_eq_true, if_false, if_true]

end SipMessage

/-! ## finding the lines again -/

theorem splitLines_zero (rest : Str) : splitLines rest 0 = [] := by
  rw [splitLines, if_pos rfl]

theorem splitLines_line {l : Str} {left : Nat} (hne : l ≠ []) (hl : OneLine l)
    (hleft : l.length ≤ left) (rest : Str) :
    splitLines (l ++ 13 :: 10 :: rest) left = l :: splitLines rest (left - (l.length + 2)) := by
  have hpos : 0 < l.length := List.length_pos_iff.mpr hne
  have hfind : find crlf (l ++ 13 :: 10 :: rest) = some l.length := find_line (by decide) hl rest
  have hdrop : (l ++ 13 :: 10 :: rest).drop (l.length + 2) = rest := by
    rw [List.drop_length_add_append, List.drop_succ_cons, List.drop_succ_cons, List.drop_zero]
  rw [splitLines, if_neg (by omega), hfind]
  simp only [if_neg (not_lt.mpr hleft), List.take_left, hdrop]

theorem splitLines_frame {lines : List Str} (hne : lines ≠ [])
    (hlines : ∀ l ∈ lines, l ≠ [] ∧ OneLine l) (rest : Str) :
    splitLines (frame 13 10 lines ++ rest) ((frame 13 10 lines).length - 2) = lines := by
  induction lines with
  | nil => exact absurd rfl hne
  | cons l lines ih =>
      rw [List.forall_mem_cons] at hlines
      have hlength : (frame 13 10 (l :: lines)).length =
          l.length + 2 + (frame 13 10 lines).length := by
        rw [frame_cons, List.length_append, List.length_cons, List.length_cons]
        omega
      rw [hlength, frame_cons, List.append_assoc, List.cons_append, List.cons_append,
        splitLines_line hlines.1.1 hlines.1.2 (by omega)]
      cases lines with
      | nil =>
          have hnil : (frame 13 10 ([] : List Str)).length = 0 := rfl
          have hleft : l.length + 2 + (frame 13 10 ([] : List Str)).length - 2 -
              (l.length + 2) = 0 := by omega
          rw [hleft, splitLines_zero]
      | cons l' lines =>
          have hleft : l.length + 2 + (frame 13 10 (l' :: lines)).length - 2 - (l.length + 2) =
              (frame 13 10 (l' :: lines)).length - 2 := by omega
          rw [hleft, ih (List.cons_ne_nil _ _) hlines.2]

/-- The lines of a framed text are found again, and so is what follows the empty
line. -/
theorem lines_found {lines : List Str} (hne : lines ≠ [])
    (hlines : ∀ l ∈ lines, l ≠ [] ∧ OneLine l) (body : Str) :
    ∃ k, find (crlf ++ crlf) (frame 13 10 lines ++ 13 :: 10 :: body) = some k ∧
      splitLines (frame 13 10 lines ++ 13 :: 10 :: body) k = lines ∧
      (frame 13 10 lines ++ 13 :: 10 :: body).drop (k + 4) = body := by
  have hlong : 2 ≤ (frame 13 10 lines).length := by
    obtain ⟨l, lines, rfl⟩ := List.exists_cons_of_ne_nil hne
    simp
    omega
  refine ⟨(frame 13 10 lines).length - 2, find_blank (by decide) hne hlines body,
    splitLines_frame hne hlines _, ?_⟩
  have hskip : (frame 13 10 lines).length - 2 + 4 = (frame 13 10 lines).length + 2 := by omega
  rw [hskip, List.drop_length_add_append, List.drop_succ_cons, List.drop_succ_cons, List.drop_zero]

/-- The parser sees the lines of a framed text, and the rest is the body. -/
theorem parseSip_frame {start : Str} {lines : List Str}
    (hlines : ∀ l ∈ start :: lines, l ≠ [] ∧ OneLine l) (body : Str) :
    parseSip (frame 13 10 (start :: lines) ++ 13 :: 10 :: body) =
      (parseStartLine start).bind fun msg =>
        (lines.foldlM headerLine []).bind fun headers => takeBody { msg with headers } body := by
  obtain ⟨k, hfind, hsplit, hbody⟩ := lines_found (List.cons_ne_nil start lines) hlines body
  rw [parseSip, hfind]
  simp only [Option.bind_eq_bind, Option.bind_some, hsplit, hbody]

/-! ## reading a line -/

/-- A header that can be written on a line of its own. -/
structure SendableHeader (h : Str × Str) : Prop where
  name_ne_nil : h.1 ≠ []
  name_trimmed : Trimmed h.1
  name_no_colon : ch ':' ∉ h.1
  name_oneLine : OneLine h.1
  value_oneLine : OneLine h.2

namespace SipMessage

theorem headerLine_headerText {h : Str × Str} (hh : SendableHeader h) (headers : List (Str × Str)) :
    headerLine headers (headerText h) = some (headers ++ [(h.1, trim h.2)]) := by
  obtain ⟨name, value⟩ := h
  obtain ⟨htake, hdrop⟩ := span_separator hh.name_no_colon (ch ' ' :: value)
  have hname : headerName (headerText (name, value)) = name := by
    rw [headerName, headerText, htake, hh.name_trimmed.trim_eq]
  have hvalue : headerValue (headerText (name, value)) = trim value := by
    rw [headerValue, headerText, hdrop, List.drop_one, List.tail_cons, trim_cons_of_ws rfl]
  have hfolded : isFolded (headerText (name, value)) = false := by
    obtain ⟨c, rest, rfl⟩ := List.exists_cons_of_ne_nil hh.name_ne_nil
    have hws : ws c = false := hh.name_trimmed.1 c rfl
    rw [← Bool.not_eq_true, ws_iff] at hws
    have hspace : c ≠ ch ' ' := by rintro rfl; exact hws (by decide)
    have htab : c ≠ 9 := by rintro rfl; exact hws (by decide)
    simp [isFolded, headerText, hspace, htab]
  have hne : headerText (name, value) ≠ [] := by simp [headerText]
  have hcolon : ¬ch ':' ∉ headerText (name, value) := by simp [headerText]
  rw [headerLine, if_neg hne, hfolded, if_neg Bool.false_ne_true, if_neg hcolon, hname, hvalue,
    if_neg hh.name_ne_nil]

theorem foldlM_headerText {hs : List (Str × Str)} (hhs : ∀ h ∈ hs, SendableHeader h)
    (headers : List (Str × Str)) :
    (hs.map headerText).foldlM headerLine headers =
      some (headers ++ hs.map fun h => (h.1, trim h.2)) := by
  induction hs generalizing headers with
  | nil => simp
  | cons h hs ih =>
      rw [List.forall_mem_cons] at hhs
      rw [List.map_cons, List.foldlM_cons, headerLine_headerText hhs.1, Option.bind_eq_bind,
        Option.bind_some, ih hhs.2, List.map_cons, List.append_assoc, List.singleton_append]

end SipMessage

theorem parseStatusLine_spaced {version code reason : Str} (hversion : ch ' ' ∉ version)
    (hcode : ch ' ' ∉ code) :
    parseStatusLine (version ++ ch ' ' :: (code ++ ch ' ' :: reason)) =
      if code.length ≠ 3 ∨ !code.all isdigit then none
      else some
        { isRequest := false, version, statusCode := atoi code, reasonPhrase := trim reason } := by
  obtain ⟨htake, hdrop⟩ := span_separator hversion (code ++ ch ' ' :: reason)
  obtain ⟨htake', hdrop'⟩ := span_separator hcode reason
  simp only [parseStatusLine, htake, hdrop, htake', hdrop', List.drop_one, List.tail_cons]

theorem parseRequestLine_spaced {method uri version : Str} (hmethod : ch ' ' ∉ method)
    (hversion : ch ' ' ∉ version) :
    parseRequestLine (method ++ ch ' ' :: (uri ++ ch ' ' :: version)) =
      if method = [] ∨ trim uri = [] then none
      else if (str "SIP/").isPrefixOf (trim version) then
        some { method, requestUri := trim uri, version := trim version }
      else none := by
  obtain ⟨htake, hdrop⟩ := span_separator hmethod (uri ++ ch ' ' :: version)
  obtain ⟨htake', hdrop'⟩ := rspan_separator hversion uri
  have hmem : ¬ch ' ' ∉ uri ++ ch ' ' :: version := by simp
  simp only [parseRequestLine, htake, hdrop, htake', hdrop', if_neg hmem, List.dropLast_concat]

/-! ## the round trip -/

/-- A start line whose parts are told apart by its spaces. -/
structure SipMessage.SendableStart (m : SipMessage) : Prop where
  version_sip : str "SIP/" <+: m.version
  version_no_space : ch ' ' ∉ m.version
  version_oneLine : OneLine m.version
  version_trimmed : m.isRequest = true → Trimmed m.version
  method_ne_nil : m.isRequest = true → m.method ≠ []
  method_no_space : m.isRequest = true → ch ' ' ∉ m.method
  method_not_sip : m.isRequest = true → ¬str "SIP/" <+: m.method
  method_oneLine : m.isRequest = true → OneLine m.method
  uri_ne_nil : m.isRequest = true → m.requestUri ≠ []
  uri_trimmed : m.isRequest = true → Trimmed m.requestUri
  uri_oneLine : m.isRequest = true → OneLine m.requestUri
  reason_oneLine : m.isRequest = false → OneLine m.reasonPhrase

/-- A message whose lines are found again. -/
structure SipMessage.Sendable (m : SipMessage) : Prop extends SipMessage.SendableStart m where
  headers : ∀ h ∈ m.headers, SendableHeader h

/-- A status code that prints as three digits. -/
def SipMessage.PrintableStatus (m : SipMessage) : Prop :=
  m.isRequest = false → 100 ≤ m.statusCode ∧ m.statusCode ≤ 999

namespace SipMessage

/-- The fields that the start line carries. -/
def startFields (m : SipMessage) : SipMessage :=
  if m.isRequest then { method := m.method, requestUri := m.requestUri, version := m.version }
  else
    { isRequest := false
      statusCode := m.statusCode
      reasonPhrase := trim m.reasonPhrase
      version := m.version }

/-- What arrives of a message. -/
def received (m : SipMessage) : SipMessage :=
  { m.startFields with
    headers := m.canonical.headers.map fun h => (h.1, trim h.2)
    body := m.body }

variable {m : SipMessage}

/-- A request line is read back. -/
theorem parseStartLine_request (hm : m.SendableStart) (hreq : m.isRequest = true) :
    parseStartLine m.startLine = some m.startFields := by
  have hstart : m.startLine = m.method ++ ch ' ' :: (m.requestUri ++ ch ' ' :: m.version) := by
    rw [startLine, if_pos hreq]
  have hne : m.startLine ≠ [] := by simp [hstart]
  have hsip : ¬(str "SIP/").isPrefixOf m.startLine := by
    rw [List.isPrefixOf_iff_prefix, hstart]
    exact fun hpre => hm.method_not_sip hreq
      (prefix_of_prefix_append_cons (by decide : ch ' ' ∉ str "SIP/") hpre)
  rw [parseStartLine, if_neg hne, if_neg hsip, hstart,
    parseRequestLine_spaced (hm.method_no_space hreq) hm.version_no_space,
    (hm.uri_trimmed hreq).trim_eq, (hm.version_trimmed hreq).trim_eq,
    if_neg (by simp [hm.method_ne_nil hreq, hm.uri_ne_nil hreq]),
    if_pos (List.isPrefixOf_iff_prefix.mpr hm.version_sip), startFields, if_pos hreq]

/-- A status line is read back if its code prints as three digits, and is
refused if not. -/
theorem parseStartLine_response (hm : m.SendableStart) (hresp : m.isRequest = false) :
    parseStartLine m.startLine =
      if 100 ≤ m.statusCode ∧ m.statusCode ≤ 999 then some m.startFields else none := by
  have hstart : m.startLine =
      m.version ++ ch ' ' :: (intStr m.statusCode ++ ch ' ' :: m.reasonPhrase) := by
    rw [startLine, hresp]
    rfl
  have hne : m.startLine ≠ [] := by simp [hstart]
  have hsip : (str "SIP/").isPrefixOf m.startLine := by
    rw [List.isPrefixOf_iff_prefix, hstart]
    exact hm.version_sip.trans (List.prefix_append _ _)
  have hspace : ch ' ' ∉ intStr m.statusCode := fun hmem =>
    (isdigit_of_mem_intStr hmem).elim (by decide) fun hdigit => absurd hdigit (by decide)
  have hcode : ((intStr m.statusCode).length ≠ 3 ∨ !(intStr m.statusCode).all isdigit) ↔
      ¬(100 ≤ m.statusCode ∧ m.statusCode ≤ 999) := by
    rw [← intStr_three_digits_iff, not_and_or, Bool.not_eq_true', Bool.not_eq_true]
  rw [parseStartLine, if_neg hne, if_pos hsip, hstart,
    parseStatusLine_spaced hm.version_no_space hspace]
  by_cases hrange : 100 ≤ m.statusCode ∧ m.statusCode ≤ 999
  · rw [if_neg (hcode.not.mpr (not_not.mpr hrange)), if_pos hrange,
      atoi_intStr (by omega) (by omega), startFields, hresp]
    rfl
  · rw [if_pos (hcode.mpr hrange), if_neg hrange]

theorem parseStartLine_startLine (hm : m.SendableStart) (hstatus : m.PrintableStatus) :
    parseStartLine m.startLine = some m.startFields := by
  cases hreq : m.isRequest with
  | true => exact parseStartLine_request hm hreq
  | false => rw [parseStartLine_response hm hreq, if_pos (hstatus hreq)]

theorem startLine_ne_nil (m : SipMessage) : m.startLine ≠ [] := by
  unfold startLine
  split <;> simp

theorem startLine_oneLine (hm : m.SendableStart) : OneLine m.startLine := by
  unfold startLine
  cases hreq : m.isRequest with
  | true =>
      have huri : OneLine (m.requestUri ++ ch ' ' :: m.version) :=
        (hm.uri_oneLine hreq).append_cons hm.version_oneLine
      exact (hm.method_oneLine hreq).append_cons huri
  | false =>
      have hreason : OneLine (intStr m.statusCode ++ ch ' ' :: m.reasonPhrase) :=
        (oneLine_intStr m.statusCode).append_cons (hm.reason_oneLine hreq)
      exact hm.version_oneLine.append_cons hreason

/-- The written Content-Length is a header like any other. -/
theorem sendableHeader_contentLength (n : Nat) :
    SendableHeader (str "Content-Length", natStr n) where
  name_ne_nil := by dsimp only; decide
  name_trimmed := by dsimp only; decide
  name_no_colon := by dsimp only; decide
  name_oneLine := oneLine_of_no_cr (by dsimp only; decide)
  value_oneLine := oneLine_of_no_cr (cr_not_mem_natStr n)

theorem sendableHeader_canonical (hm : m.Sendable) :
    ∀ h ∈ m.canonical.headers, SendableHeader h := by
  rw [canonical_headers, List.forall_mem_append, List.forall_mem_singleton]
  exact ⟨fun h hh => hm.headers h (List.mem_of_mem_filter hh), sendableHeader_contentLength _⟩

theorem headerText_oneLine {h : Str × Str} (hh : SendableHeader h) : OneLine (headerText h) := by
  have hvalue : OneLine (ch ' ' :: h.2) :=
    (oneLine_of_no_cr List.not_mem_nil).append_cons hh.value_oneLine
  exact hh.name_oneLine.append_cons hvalue

/-- Content-Length is read off the one header that was written. -/
theorem get_contentLength_received (m : SipMessage) :
    m.received.get (str "Content-Length") = some (natStr m.body.length) := by
  have hother : ((m.headers.filter fun h => !iequals h.1 (str "Content-Length")).map
      fun h => (h.1, trim h.2)).find? (fun h => iequals h.1 (str "Content-Length")) = none := by
    rw [List.find?_eq_none, List.forall_mem_map]
    intro h hh
    simpa using (List.mem_filter.mp hh).2
  have hself : iequals (str "Content-Length") (str "Content-Length") = true := iequals_iff.mpr rfl
  simp only [get, received, canonical_headers, List.map_append, List.find?_append, hother,
    Option.none_or, List.map_cons, List.map_nil, List.find?_cons, hself, Option.map_some,
    (trimmed_natStr _).trim_eq]

/-- The parser gets to see each line that `serialize` wrote. -/
theorem parseSip_serialize_bind (hm : m.Sendable) :
    parseSip m.serialize = (parseStartLine m.startLine).bind fun msg =>
      takeBody { msg with headers := m.received.headers } m.body := by
  have hheaders := sendableHeader_canonical hm
  have hlines : ∀ l ∈ m.startLine :: m.canonical.headers.map headerText, l ≠ [] ∧ OneLine l := by
    rw [List.forall_mem_cons, List.forall_mem_map]
    refine ⟨⟨m.startLine_ne_nil, startLine_oneLine hm.toSendableStart⟩, fun h hh => ?_⟩
    exact ⟨by simp [headerText], headerText_oneLine (hheaders h hh)⟩
  rw [serialize_eq, parseSip_frame hlines]
  simp only [foldlM_headerText hheaders, Option.bind_some, List.nil_append, received]

/-- What `serialize` writes of a sendable message, `parseSip` reads. -/
theorem parseSip_serialize (hm : m.Sendable) (hstatus : m.PrintableStatus)
    (hsize : m.body.length ≤ maxSize) : parseSip m.serialize = some m.received := by
  have hget : get { m.startFields with headers := m.received.headers } (str "Content-Length") =
      some (natStr m.body.length) := get_contentLength_received m
  have hnonneg : ¬(m.body.length : Int) < 0 := by omega
  rw [parseSip_serialize_bind hm, parseStartLine_startLine hm.toSendableStart hstatus,
    Option.bind_some, takeBody, hget]
  simp only [strtol_natStr hsize, if_neg hnonneg, Int.toNat_natCast, lt_irrefl, if_false,
    List.take_length, received]

/-! ## what arrives unchanged -/

/-- Header values without white space at the ends arrive as they are. -/
theorem received_headers (hvalues : ∀ h ∈ m.headers, Trimmed h.2) :
    m.received.headers = m.canonical.headers := by
  have hcanonical : ∀ h ∈ m.canonical.headers, Trimmed h.2 := by
    rw [canonical_headers, List.forall_mem_append, List.forall_mem_singleton]
    exact ⟨fun h hh => hvalues h (List.mem_of_mem_filter hh), trimmed_natStr _⟩
  rw [received, List.map_congr_left fun h hh => by rw [(hcanonical h hh).trim_eq], List.map_id']

/-- Writing the canonical headers adds nothing to them. -/
theorem canonical_headers_of_eq {m' : SipMessage} (hheaders : m'.headers = m.canonical.headers)
    (hbody : m'.body = m.body) : m'.canonical.headers = m.canonical.headers := by
  have hself : iequals (str "Content-Length") (str "Content-Length") = true := iequals_iff.mpr rfl
  rw [canonical_headers, hheaders, hbody, canonical_headers, List.filter_append,
    List.filter_filter]
  simp [hself]

theorem startLine_received (hreason : m.isRequest = false → Trimmed m.reasonPhrase) :
    m.received.startLine = m.startLine := by
  unfold startLine received startFields
  cases hreq : m.isRequest with
  | true => simp
  | false => simp [(hreason hreq).trim_eq]

/-- The same bytes are written again. -/
theorem serialize_received (hreason : m.isRequest = false → Trimmed m.reasonPhrase)
    (hvalues : ∀ h ∈ m.headers, Trimmed h.2) : m.received.serialize = m.serialize := by
  rw [serialize_eq, serialize_eq, startLine_received hreason,
    canonical_headers_of_eq (received_headers hvalues) rfl]
  rfl

end SipMessage

/-! ## well-formed messages -/

/-- Neither CR nor LF, and neither space nor tab at the ends. -/
def Plain (s : Str) : Prop :=
  13 ∉ s ∧ 10 ∉ s ∧ (∀ c ∈ s.head?, c ≠ ch ' ' ∧ c ≠ 9) ∧ ∀ c ∈ s.getLast?, c ≠ ch ' ' ∧ c ≠ 9

instance (s : Str) : Decidable (Plain s) :=
  decidable_of_iff (13 ∉ s ∧ 10 ∉ s ∧ s.head?.all (fun c => c ≠ ch ' ' ∧ c ≠ 9) = true ∧
    s.getLast?.all (fun c => c ≠ ch ' ' ∧ c ≠ 9) = true) (by simp [Plain, Option.all_eq_true])

theorem Plain.oneLine {s : Str} (h : Plain s) : OneLine s := oneLine_of_no_cr h.1

theorem Plain.trimmed {s : Str} (h : Plain s) : Trimmed s := by
  obtain ⟨hcr, hlf, hhead, hlast⟩ := h
  have hws : ∀ c ∈ s, c ≠ ch ' ' ∧ c ≠ 9 → ws c = false := by
    intro c hc hne
    have hcr' : c ≠ 13 := by rintro rfl; exact hcr hc
    have hlf' : c ≠ 10 := by rintro rfl; exact hlf hc
    simp [ws, hne, hcr', hlf']
  exact ⟨fun c hc => hws c (List.mem_of_mem_head? hc) (hhead c hc),
    fun c hc => hws c (List.mem_of_getLast? hc) (hlast c hc)⟩

namespace SipMessage

/-- A message as RFC 3261 writes one: no field runs over a line or has blanks
at its ends, and the separators of the start line and of the headers are no
part of what they separate. -/
structure WellFormed (m : SipMessage) : Prop where
  method : m.isRequest = true → Plain m.method ∧ m.method ≠ [] ∧ ch ' ' ∉ m.method ∧
    ¬str "SIP/" <+: m.method
  requestUri : m.isRequest = true → Plain m.requestUri ∧ m.requestUri ≠ []
  version : Plain m.version ∧ str "SIP/" <+: m.version ∧ ch ' ' ∉ m.version
  statusCode : m.isRequest = false → 100 ≤ m.statusCode ∧ m.statusCode ≤ 999
  reasonPhrase : m.isRequest = false → Plain m.reasonPhrase
  headers : ∀ h ∈ m.headers, Plain h.1 ∧ Plain h.2 ∧ h.1 ≠ [] ∧ ch ':' ∉ h.1

/-- The two messages have the same start line, field by field. -/
structure SameStartLine (m m' : SipMessage) : Prop where
  isRequest : m'.isRequest = m.isRequest
  version : m'.version = m.version
  method : m.isRequest = true → m'.method = m.method
  requestUri : m.isRequest = true → m'.requestUri = m.requestUri
  statusCode : m.isRequest = false → m'.statusCode = m.statusCode
  reasonPhrase : m.isRequest = false → m'.reasonPhrase = m.reasonPhrase

variable {m : SipMessage}

theorem WellFormed.sendable (h : m.WellFormed) : m.Sendable where
  headers x hx :=
    have hheader := h.headers x hx
    ⟨hheader.2.2.1, hheader.1.trimmed, hheader.2.2.2, hheader.1.oneLine, hheader.2.1.oneLine⟩
  version_sip := h.version.2.1
  version_no_space := h.version.2.2
  version_oneLine := h.version.1.oneLine
  version_trimmed _ := h.version.1.trimmed
  method_ne_nil hreq := (h.method hreq).2.1
  method_no_space hreq := (h.method hreq).2.2.1
  method_not_sip hreq := (h.method hreq).2.2.2
  method_oneLine hreq := (h.method hreq).1.oneLine
  uri_ne_nil hreq := (h.requestUri hreq).2
  uri_trimmed hreq := (h.requestUri hreq).1.trimmed
  uri_oneLine hreq := (h.requestUri hreq).1.oneLine
  reason_oneLine hreq := (h.reasonPhrase hreq).oneLine

/-- A start line arrives as it was sent, if its reason phrase has no blanks at
the ends. -/
theorem sameStartLine_received (hreason : m.isRequest = false → Trimmed m.reasonPhrase) :
    m.SameStartLine m.received := by
  cases hreq : m.isRequest with
  | true => constructor <;> simp [received, startFields, hreq]
  | false => constructor <;> simp [received, startFields, hreq, (hreason hreq).trim_eq]

/-- A well-formed message arrives with its start line, its headers and its body,
and is written again as the same bytes. -/
theorem parseSip_serialize_wellFormed (hm : m.WellFormed) (hsize : m.body.length ≤ maxSize) :
    ∃ m', parseSip m.serialize = some m' ∧ m.SameStartLine m' ∧
      m'.headers = (m.headers.filter fun h => !iequals h.1 (str "Content-Length")) ++
        [(str "Content-Length", natStr m.body.length)] ∧
      m'.body = m.body ∧ m'.serialize = m.serialize := by
  have hreason : m.isRequest = false → Trimmed m.reasonPhrase := fun hreq =>
    (hm.reasonPhrase hreq).trimmed
  have hvalues : ∀ h ∈ m.headers, Trimmed h.2 := fun h hh => (hm.headers h hh).2.1.trimmed
  exact ⟨m.received, parseSip_serialize hm.sendable hm.statusCode hsize,
    sameStartLine_received hreason, received_headers hvalues, rfl,
    serialize_received hreason hvalues⟩

/-- A status line with spaces in its reason, an empty header, a Content-Length
that is wrong and a body that looks like another message. -/
def sampleReply : SipMessage :=
  { isRequest := false
    statusCode := 486
    reasonPhrase := str "Busy Here"
    headers := [(str "Subject", []), (str "content-length", str "7"), (str "CSeq", str "1 INVITE")]
    body := str "\r\nVia: x\r\n\r\n" }

theorem parseSip_serialize_sampleReply :
    ∃ m', parseSip sampleReply.serialize = some m' ∧ sampleReply.SameStartLine m' ∧
      m'.headers = (sampleReply.headers.filter fun h => !iequals h.1 (str "Content-Length")) ++
        [(str "Content-Length", natStr sampleReply.body.length)] ∧
      m'.body = sampleReply.body ∧ m'.serialize = sampleReply.serialize :=
  parseSip_serialize_wellFormed
    ⟨nofun, nofun, by decide, by decide, by decide, by decide⟩ (by decide)

end SipMessage

end SipDemo
