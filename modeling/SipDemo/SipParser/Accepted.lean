import SipDemo.SipParser.RoundTrip

/-!
# SipDemo.SipParser.Accepted

What `parseSip` accepts, and whether `serialize` can say it again.

A message that was parsed is sendable (`parseSip_sendable`), but it may still
hold what the wire cannot carry back: a status code below 100, which is printed
without its leading zeros, and a folded header that starts or ends in an empty
piece, which keeps the blank that joined it.  `parseSip_canonical_iff` says
that these two are all.
-/

namespace SipDemo

/-! ## lines -/

theorem splitLines_oneLine (rest : Str) (left : Nat) : ∀ l ∈ splitLines rest left, OneLine l := by
  fun_induction splitLines rest left with
  | case1 => simp
  | case2 rest left _ nl ih =>
      rw [List.forall_mem_cons]
      refine ⟨?_, ih⟩
      have hne : crlf ≠ [] := by decide
      cases hfind : find crlf rest with
      | none => exact fun hin => find_eq_none hfind (hin.trans (List.take_prefix _ _).isInfix)
      | some k =>
          have hk : nl ≤ k := by
            simp only [nl, hfind]
            split <;> omega
          have htake : rest.take nl <+: rest.take k := List.take_prefix_take_left hk
          exact fun hin => not_infix_take_of_find hne hfind (hin.trans htake.isInfix)

/-! ## header lines and their continuations -/

/-- Each line that starts a header, with the lines that continue it; the first
component is what stands before any header. -/
def unfoldHeaders : List Str → List Str × List (Str × List Str)
  | [] => ([], [])
  | line :: lines =>
      let (folds, headers) := unfoldHeaders lines
      if isFolded line then (line :: folds, headers) else ([], (line, folds) :: headers)

theorem unfoldHeaders_folded {line : Str} (h : isFolded line = true) (lines : List Str) :
    unfoldHeaders (line :: lines) =
      (line :: (unfoldHeaders lines).1, (unfoldHeaders lines).2) := by
  simp only [unfoldHeaders, h, if_true]

theorem unfoldHeaders_start {line : Str} (h : isFolded line = false) (lines : List Str) :
    unfoldHeaders (line :: lines) =
      ([], (line, (unfoldHeaders lines).1) :: (unfoldHeaders lines).2) := by
  simp only [unfoldHeaders, h, Bool.false_eq_true, if_false]

/-- What continuation lines add to a value. -/
def foldedText (folds : List Str) : Str := folds.flatMap fun line => ch ' ' :: trim line

/-- The header of a line and its continuations. -/
def unfoldedHeader (g : Str × List Str) : Str × Str :=
  (headerName g.1, headerValue g.1 ++ foldedText g.2)

/-- A line of the header loop continues the last header or starts one. -/
theorem headerLine_cases {headers out : List (Str × Str)} {line : Str}
    (h : headerLine headers line = some out) :
    (isFolded line = true ∧ ∃ init name value, headers = init ++ [(name, value)] ∧
      out = init ++ [(name, value ++ ch ' ' :: trim line)]) ∨
    (isFolded line = false ∧ ch ':' ∈ line ∧ headerName line ≠ [] ∧
      out = headers ++ [(headerName line, headerValue line)]) := by
  unfold headerLine at h
  by_cases hempty : line = []
  · rw [if_pos hempty] at h
    cases h
  · rw [if_neg hempty] at h
    by_cases hfold : isFolded line = true
    · rw [if_pos hfold] at h
      cases hlast : headers.getLast? with
      | none =>
          rw [hlast] at h
          cases h
      | some last =>
          obtain ⟨name, value⟩ := last
          rw [hlast] at h
          have hne : headers ≠ [] := by
            rintro rfl
            cases hlast
          rw [List.getLast?_eq_some_getLast hne, Option.some_inj] at hlast
          refine .inl ⟨hfold, headers.dropLast, name, value, ?_, ?_⟩
          · rw [← hlast, List.dropLast_append_getLast]
          · have hspace : str " " = [ch ' '] := rfl
            simpa [hspace] using (Option.some_inj.mp h).symm
    · rw [if_neg hfold] at h
      by_cases hcolon : ch ':' ∈ line
      · rw [if_neg (not_not.mpr hcolon)] at h
        by_cases hname : headerName line = []
        · rw [if_pos hname] at h
          cases h
        · rw [if_neg hname] at h
          exact .inr ⟨by simpa using hfold, hcolon, hname, (Option.some_inj.mp h).symm⟩
      · rw [if_pos hcolon] at h
        cases h

/-- The loop from a header on: continuations extend it until the next starts. -/
theorem foldlM_headerLine_append {lines : List Str} {init out : List (Str × Str)} {name value : Str}
    (h : lines.foldlM headerLine (init ++ [(name, value)]) = some out) :
    out = init ++ (name, value ++ foldedText (unfoldHeaders lines).1) ::
        (unfoldHeaders lines).2.map unfoldedHeader ∧
      ∀ g ∈ (unfoldHeaders lines).2, ch ':' ∈ g.1 ∧ headerName g.1 ≠ [] := by
  induction lines generalizing init name value with
  | nil =>
      have hout : init ++ [(name, value)] = out := by simpa using h
      simp [unfoldHeaders, foldedText, hout]
  | cons line lines ih =>
      rw [List.foldlM_cons, Option.bind_eq_bind, Option.bind_eq_some_iff] at h
      obtain ⟨next, hnext, h⟩ := h
      cases headerLine_cases hnext with
      | inl hfolded =>
          obtain ⟨hfold, init', name', value', heq, rfl⟩ := hfolded
          obtain ⟨rfl, hpair⟩ := List.append_inj' heq rfl
          obtain ⟨rfl, rfl⟩ : name = name' ∧ value = value' := by simpa using hpair
          obtain ⟨hout, hcolons⟩ := ih h
          rw [unfoldHeaders_folded hfold]
          refine ⟨?_, hcolons⟩
          rw [hout, foldedText, foldedText, List.flatMap_cons, List.append_assoc]
      | inr hstart =>
          obtain ⟨hfold, hcolon, hname, rfl⟩ := hstart
          obtain ⟨hout, hcolons⟩ := ih h
          rw [unfoldHeaders_start hfold]
          refine ⟨?_, List.forall_mem_cons.mpr ⟨⟨hcolon, hname⟩, hcolons⟩⟩
          rw [hout, List.map_cons, List.append_assoc]
          simp [foldedText, unfoldedHeader]

/-- The headers that are parsed are those of the lines put together. -/
theorem foldlM_headerLine_nil {lines : List Str} {headers : List (Str × Str)}
    (h : lines.foldlM headerLine [] = some headers) :
    headers = (unfoldHeaders lines).2.map unfoldedHeader ∧
      ∀ g ∈ (unfoldHeaders lines).2, ch ':' ∈ g.1 ∧ headerName g.1 ≠ [] := by
  cases lines with
  | nil =>
      have hout : [] = headers := by simpa using h
      simp [unfoldHeaders, ← hout]
  | cons line lines =>
      rw [List.foldlM_cons, Option.bind_eq_bind, Option.bind_eq_some_iff] at h
      obtain ⟨next, hnext, h⟩ := h
      cases headerLine_cases hnext with
      | inl hfolded =>
          obtain ⟨-, init, name, value, heq, -⟩ := hfolded
          simp at heq
      | inr hstart =>
          obtain ⟨hfold, hcolon, hname, rfl⟩ := hstart
          obtain ⟨hout, hcolons⟩ := foldlM_headerLine_append h
          rw [unfoldHeaders_start hfold]
          exact ⟨hout, List.forall_mem_cons.mpr ⟨⟨hcolon, hname⟩, hcolons⟩⟩

/-- The lines put together are lines of the section. -/
theorem unfoldHeaders_subset {lines : List Str} :
    (∀ f ∈ (unfoldHeaders lines).1, f ∈ lines) ∧
      ∀ g ∈ (unfoldHeaders lines).2, g.1 ∈ lines ∧ ∀ f ∈ g.2, f ∈ lines := by
  induction lines with
  | nil => simp [unfoldHeaders]
  | cons line lines ih =>
      obtain ⟨hfolds, hheaders⟩ := ih
      have hfolds' : ∀ f ∈ (unfoldHeaders lines).1, f ∈ line :: lines := fun f hf =>
        List.mem_cons_of_mem _ (hfolds f hf)
      have hheaders' : ∀ g ∈ (unfoldHeaders lines).2,
          g.1 ∈ line :: lines ∧ ∀ f ∈ g.2, f ∈ line :: lines := fun g hg =>
        ⟨List.mem_cons_of_mem _ (hheaders g hg).1,
          fun f hf => List.mem_cons_of_mem _ ((hheaders g hg).2 f hf)⟩
      cases hfold : isFolded line with
      | true =>
          rw [unfoldHeaders_folded hfold]
          exact ⟨List.forall_mem_cons.mpr ⟨List.mem_cons_self, hfolds'⟩, hheaders'⟩
      | false =>
          rw [unfoldHeaders_start hfold]
          exact ⟨nofun, List.forall_mem_cons.mpr ⟨⟨List.mem_cons_self, hfolds'⟩, hheaders'⟩⟩

theorem foldedText_oneLine {v : Str} {folds : List Str} (hv : OneLine v)
    (hfolds : ∀ f ∈ folds, OneLine f) : OneLine (v ++ foldedText folds) := by
  induction folds generalizing v with
  | nil => simpa [foldedText] using hv
  | cons f folds ih =>
      rw [List.forall_mem_cons] at hfolds
      have hnext : OneLine (v ++ ch ' ' :: trim f) :=
        hv.append_cons (hfolds.1.of_isInfix (trim_isInfix f))
      have hread := ih hnext hfolds.2
      rwa [List.append_assoc] at hread

/-- A parsed header can be written on one line. -/
theorem sendableHeader_unfoldedHeader {g : Str × List Str}
    (hcolon : ch ':' ∈ g.1 ∧ headerName g.1 ≠ []) (hline : OneLine g.1)
    (hfolds : ∀ f ∈ g.2, OneLine f) : SendableHeader (unfoldedHeader g) where
  name_ne_nil := hcolon.2
  name_trimmed := trimmed_trim _
  name_no_colon := by
    intro hmem
    have hmem' := (trim_isInfix _).subset hmem
    simpa using List.mem_takeWhile_imp hmem'
  name_oneLine := hline.of_isInfix ((trim_isInfix _).trans (List.takeWhile_prefix _).isInfix)
  value_oneLine := by
    have hrest : headerValue g.1 <:+: g.1 :=
      (trim_isInfix _).trans ((List.drop_suffix _ _).trans (List.dropWhile_suffix _)).isInfix
    exact foldedText_oneLine (hline.of_isInfix hrest) hfolds

/-- A folded value is trimmed when its first and last pieces are not empty. -/
theorem trimmed_foldedText {v : Str} {folds : List Str} (hv : Trimmed v) :
    Trimmed (v ++ foldedText folds) ↔
      (folds ≠ [] → v ≠ [] ∧ ∀ f ∈ folds.getLast?, trim f ≠ []) := by
  have hspace : ws (ch ' ') = true := rfl
  cases folds using List.reverseRecOn with
  | nil => simpa [foldedText] using hv
  | append_singleton folds f =>
      have htext : v ++ foldedText (folds ++ [f]) = v ++ foldedText folds ++ ch ' ' :: trim f := by
        simp [foldedText]
      have hhead : (∀ c ∈ (v ++ foldedText (folds ++ [f])).head?, ws c = false) ↔ v ≠ [] := by
        cases v with
        | nil => cases folds <;> simp [foldedText, hspace]
        | cons c v => simpa using hv.1 c rfl
      have hlast : (∀ c ∈ (v ++ foldedText (folds ++ [f])).getLast?, ws c = false) ↔
          trim f ≠ [] := by
        by_cases hf : trim f = []
        · simp [htext, hf, hspace]
        · rw [htext, List.append_cons, List.getLast?_append_of_ne_nil _ hf]
          exact iff_of_true (trimmed_trim f).2 hf
      rw [Trimmed, hhead, hlast]
      simp

/-! ## the start line -/

/-- A status line whose code starts with a zero. -/
def LeadingZero (start : Str) : Prop :=
  str "SIP/" <+: start ∧
    ((start.dropWhile fun c => c ≠ ch ' ').drop 1).head? = some (ch '0')

/-- A text with a separator, cut at the first one. -/
theorem cut_separator {c d : UInt8} {s rest : Str}
    (h : s.dropWhile (fun b => b ≠ c) = d :: rest) :
    s = s.takeWhile (fun b => b ≠ c) ++ c :: rest ∧ c ∉ s.takeWhile (fun b => b ≠ c) ∧
      rest <:+ s := by
  have hd : d = c := by
    have hnot := List.head?_dropWhile_not (fun b => decide (b ≠ c)) s
    rw [h] at hnot
    simpa using hnot
  subst hd
  refine ⟨?_, fun hmem => by simpa using List.mem_takeWhile_imp hmem, ?_⟩
  · rw [← h, List.takeWhile_append_dropWhile]
  · exact (List.suffix_cons d rest).trans (h ▸ List.dropWhile_suffix _)

namespace SipMessage

variable {start : Str} {msg : SipMessage}

theorem parseStatusLine_sound (hstart : OneLine start) (hsip : str "SIP/" <+: start)
    (h : parseStatusLine start = some msg) :
    msg.isRequest = false ∧ msg.SendableStart ∧ msg.startFields = msg ∧
      (msg.PrintableStatus ↔ ¬LeadingZero start) := by
  unfold parseStatusLine at h
  cases hdrop : start.dropWhile fun c => c ≠ ch ' ' with
  | nil =>
      rw [hdrop] at h
      cases h
  | cons c rest =>
      obtain ⟨hcut, hspace, hrest⟩ := cut_separator hdrop
      simp only [hdrop] at h
      split_ifs at h with hcode
      simp only [not_or, not_not, Bool.not_eq_true', Bool.not_eq_false, List.all_eq_true] at hcode
      obtain ⟨hlength, hdigits⟩ := hcode
      obtain ⟨hhi, hzero⟩ := atoi_three_digits hlength hdigits
      have hversion : start.takeWhile (fun c => c ≠ ch ' ') <:+: start :=
        (List.takeWhile_prefix _).isInfix
      have hreason : trim ((rest.dropWhile fun c => c ≠ ch ' ').drop 1) <:+: start :=
        (trim_isInfix _).trans
          (((List.drop_suffix _ _).trans (List.dropWhile_suffix _)).trans hrest).isInfix
      have hfirst : (rest.takeWhile fun c => c ≠ ch ' ').head? = rest.head? := by
        obtain ⟨d, code, hcons⟩ := List.exists_cons_of_length_eq_add_one hlength
        have happ := List.takeWhile_append_dropWhile (p := fun c => decide (c ≠ ch ' ')) (l := rest)
        rw [hcons] at happ ⊢
        rw [← happ]
        rfl
      have hzero' : LeadingZero start ↔ rest.head? = some (ch '0') := by
        rw [LeadingZero, hdrop, List.drop_one, List.tail_cons, and_iff_right hsip]
      obtain rfl := Option.some_inj.mp h
      refine ⟨rfl, ?_, by simp [startFields], ?_⟩
      · constructor
        case version_sip =>
          exact prefix_of_prefix_append_cons (by decide : ch ' ' ∉ str "SIP/") (hcut ▸ hsip)
        case version_no_space => exact hspace
        case version_oneLine => exact hstart.of_isInfix hversion
        case reason_oneLine => exact fun _ => hstart.of_isInfix hreason
        all_goals exact fun hreq => absurd hreq Bool.false_ne_true
      · rw [hzero', ← hfirst, ← ne_eq, ← hzero]
        exact ⟨fun hstatus => (hstatus rfl).1, fun hge _ => ⟨hge, hhi⟩⟩

theorem parseRequestLine_sound (hstart : OneLine start) (hsip : ¬str "SIP/" <+: start)
    (h : parseRequestLine start = some msg) :
    msg.isRequest = true ∧ msg.SendableStart ∧ msg.startFields = msg := by
  unfold parseRequestLine at h
  cases hdrop : start.dropWhile fun c => c ≠ ch ' ' with
  | nil =>
      rw [hdrop] at h
      cases h
  | cons c rest =>
      obtain ⟨hcut, hspace, hrest⟩ := cut_separator hdrop
      simp only [hdrop] at h
      split_ifs at h with hlast hempty hversion
      obtain ⟨hmethod, huri⟩ := not_or.mp hempty
      have hmethod' : start.takeWhile (fun c => c ≠ ch ' ') <+: start := List.takeWhile_prefix _
      have huri' : trim (rest.rdropWhile fun c => c ≠ ch ' ').dropLast <:+: start :=
        (trim_isInfix _).trans (((List.dropLast_prefix _).trans
          (List.rdropWhile_prefix _ _)).isInfix.trans hrest.isInfix)
      have hversion' : trim (rest.rtakeWhile fun c => c ≠ ch ' ') <:+: start :=
        (trim_isInfix _).trans ((List.rtakeWhile_suffix _ _).trans hrest).isInfix
      obtain rfl := Option.some_inj.mp h
      refine ⟨rfl, ?_, by simp [startFields]⟩
      constructor
      case version_sip => exact List.isPrefixOf_iff_prefix.mp hversion
      case version_no_space =>
        intro hmem
        simpa using List.mem_rtakeWhile_imp ((trim_isInfix _).subset hmem)
      case version_oneLine => exact hstart.of_isInfix hversion'
      case version_trimmed => exact fun _ => trimmed_trim _
      case method_ne_nil => exact fun _ => hmethod
      case method_no_space => exact fun _ => hspace
      case method_not_sip => exact fun _ hpre => hsip (hpre.trans hmethod')
      case method_oneLine => exact fun _ => hstart.of_isInfix hmethod'.isInfix
      case uri_ne_nil => exact fun _ => huri
      case uri_trimmed => exact fun _ => trimmed_trim _
      case uri_oneLine => exact fun _ => hstart.of_isInfix huri'
      case reason_oneLine => exact fun hresp => absurd hresp.symm Bool.false_ne_true

/-- A start line that is accepted can be written again, but for a status code
with a leading zero. -/
theorem parseStartLine_sound (hstart : OneLine start) (h : parseStartLine start = some msg) :
    msg.SendableStart ∧ msg.startFields = msg ∧ (msg.PrintableStatus ↔ ¬LeadingZero start) := by
  unfold parseStartLine at h
  split_ifs at h with hne hsip
  · rw [List.isPrefixOf_iff_prefix] at hsip
    exact (parseStatusLine_sound hstart hsip h).2
  · rw [List.isPrefixOf_iff_prefix] at hsip
    obtain ⟨hreq, hsend, hfields⟩ := parseRequestLine_sound hstart hsip h
    refine ⟨hsend, hfields, iff_of_true (fun hresp => ?_) fun hzero => hsip hzero.1⟩
    rw [hreq] at hresp
    cases hresp

end SipMessage

/-! ## the message -/

/-- The lines before the empty line. -/
def headerSection (raw : Str) : List Str :=
  match find (crlf ++ crlf) raw with
  | some headerEnd => splitLines raw headerEnd
  | none => []

/-- The body is cut, and nothing else is changed. -/
theorem takeBody_cases {msg m : SipMessage} {body : Str} (h : takeBody msg body = some m) :
    m = { msg with body := m.body } ∧ m.body <+: body := by
  unfold takeBody at h
  cases hget : msg.get (str "Content-Length") with
  | none =>
      rw [hget] at h
      obtain rfl := Option.some_inj.mp h
      exact ⟨rfl, List.prefix_rfl⟩
  | some cl =>
      cases hlong : strtol cl with
      | none =>
          simp only [hget, hlong] at h
          cases h
      | some declared =>
          simp only [hget, hlong] at h
          split_ifs at h
          obtain rfl := Option.some_inj.mp h
          exact ⟨rfl, List.take_prefix _ _⟩

/-- What an accepted text consists of. -/
theorem parseSip_cases {raw : Str} {m : SipMessage} (h : parseSip raw = some m) :
    ∃ start lines msg, headerSection raw = start :: lines ∧
      (OneLine start ∧ ∀ l ∈ lines, OneLine l) ∧ parseStartLine start = some msg ∧
      lines.foldlM headerLine [] = some m.headers ∧
      m = { msg with headers := m.headers, body := m.body } ∧ m.body.length ≤ raw.length := by
  simp only [parseSip, Option.bind_eq_bind, Option.bind_eq_some_iff] at h
  obtain ⟨headerEnd, hend, h⟩ := h
  have hsection : headerSection raw = splitLines raw headerEnd := by rw [headerSection, hend]
  cases hlines : splitLines raw headerEnd with
  | nil =>
      rw [hlines] at h
      cases h
  | cons start lines =>
      rw [hlines] at h
      simp only [Option.bind_eq_some_iff] at h
      obtain ⟨msg, hmsg, headers, hheaders, h⟩ := h
      obtain ⟨heq, hbody⟩ := takeBody_cases h
      have hlen : m.body.length ≤ raw.length := by
        have hle := hbody.length_le
        rw [List.length_drop] at hle
        omega
      have hheaders' : m.headers = headers := by rw [heq]
      have hone := splitLines_oneLine raw headerEnd
      rw [hlines, List.forall_mem_cons] at hone
      rw [← hheaders'] at hheaders heq
      exact ⟨start, lines, msg, hsection.trans hlines, hone, hmsg, hheaders, heq, hlen⟩

/-- A header whose value was folded with nothing before the first fold or
nothing on the last line. -/
def LooseFold (g : Str × List Str) : Prop :=
  g.2 ≠ [] ∧ (headerValue g.1 = [] ∨ ∃ f ∈ g.2.getLast?, trim f = [])

/-- The text says nothing that `serialize` cannot say: the status code has three
significant digits, and no header but Content-Length has a loose fold. -/
def Restatable (raw : Str) : Prop :=
  (∀ start ∈ (headerSection raw).head?, ¬LeadingZero start) ∧
    ∀ g ∈ (unfoldHeaders (headerSection raw).tail).2,
      iequals (headerName g.1) (str "Content-Length") = false → ¬LooseFold g

instance (start : Str) : Decidable (LeadingZero start) := inferInstanceAs (Decidable (_ ∧ _))

instance (g : Str × List Str) : Decidable (LooseFold g) := inferInstanceAs (Decidable (_ ∧ _))

instance (raw : Str) : Decidable (Restatable raw) := inferInstanceAs (Decidable (_ ∧ _))

theorem trimmed_unfoldedHeader {g : Str × List Str} :
    Trimmed (unfoldedHeader g).2 ↔ ¬LooseFold g := by
  have hvalue : Trimmed (headerValue g.1) := trimmed_trim _
  rw [unfoldedHeader, trimmed_foldedText hvalue, LooseFold]
  simp only [not_and, not_or, not_exists]

namespace SipMessage

variable {raw : Str} {m msg : SipMessage}

/-- The start line is not concerned by headers and body. -/
theorem SendableStart.withHeaders (h : msg.SendableStart) (headers : List (Str × Str))
    (body : Str) : SendableStart { msg with headers, body } :=
  { h with }

/-- Whatever is accepted has lines that are found again. -/
theorem parseSip_sendable (h : parseSip raw = some m) : m.Sendable := by
  obtain ⟨start, lines, msg, -, hone, hmsg, hheaders, heq, -⟩ := parseSip_cases h
  have hstart := (parseStartLine_sound hone.1 hmsg).1.withHeaders m.headers m.body
  rw [← heq] at hstart
  refine ⟨hstart, ?_⟩
  obtain ⟨hunfold, hcolons⟩ := foldlM_headerLine_nil hheaders
  rw [hunfold, List.forall_mem_map]
  intro g hg
  obtain ⟨hline, hfolds⟩ := unfoldHeaders_subset.2 g hg
  exact sendableHeader_unfoldedHeader (hcolons g hg) (hone.2 _ hline) fun f hf =>
    hone.2 f (hfolds f hf)

/-- What was parsed has no fields but those of its start line. -/
theorem parseSip_startFields (h : parseSip raw = some m) :
    { m.startFields with headers := m.headers, body := m.body } = m := by
  obtain ⟨start, lines, msg, -, hone, hmsg, -, heq, -⟩ := parseSip_cases h
  have hfields := (parseStartLine_sound hone.1 hmsg).2.1
  have hsame : m.startFields = msg.startFields := by
    rw [heq]
    rfl
  rw [hsame, hfields]
  exact heq.symm

/-- The message arrives as it is when its values are trimmed, and only then. -/
theorem received_eq_canonical_iff
    (hfields : { m.startFields with headers := m.headers, body := m.body } = m) :
    m.received = m.canonical ↔
      ∀ h ∈ m.headers, iequals h.1 (str "Content-Length") = false → Trimmed h.2 := by
  have hheaders : m.received = m.canonical ↔
      m.canonical.headers.map (fun h => (h.1, trim h.2)) = m.canonical.headers.map id := by
    rw [List.map_id]
    refine ⟨congrArg SipMessage.headers, fun heq => ?_⟩
    have hwith := congrArg (fun x : SipMessage => { x with headers := m.canonical.headers }) hfields
    rw [received, heq]
    exact hwith
  rw [hheaders, List.map_inj_left, canonical_headers, List.forall_mem_append]
  have hlength : (fun h : Str × Str => (h.1, trim h.2))
      (str "Content-Length", natStr m.body.length) =
      id (str "Content-Length", natStr m.body.length) := by
    simp only [(trimmed_natStr _).trim_eq, id]
  rw [List.forall_mem_singleton, and_iff_left hlength]
  simp only [List.mem_filter, Bool.not_eq_true', and_imp, Prod.ext_iff, id, true_and,
    trim_eq_self_iff]

/-- An accepted text is restated by `serialize` up to Content-Length, unless it
has a status code below 100 or a loose fold. -/
theorem parseSip_canonical_iff (hsize : raw.length ≤ maxSize) (h : parseSip raw = some m) :
    parseSip m.serialize = some m.canonical ↔ Restatable raw := by
  obtain ⟨start, lines, msg, hsection, hone, hmsg, hheaders, heq, hbody⟩ := parseSip_cases h
  have hstatus : m.PrintableStatus ↔ ¬LeadingZero start := by
    rw [← (parseStartLine_sound hone.1 hmsg).2.2, heq]
    rfl
  have hvalues : (∀ h ∈ m.headers, iequals h.1 (str "Content-Length") = false → Trimmed h.2) ↔
      ∀ g ∈ (unfoldHeaders lines).2,
        iequals (headerName g.1) (str "Content-Length") = false → ¬LooseFold g := by
    rw [(foldlM_headerLine_nil hheaders).1, List.forall_mem_map]
    refine forall₂_congr fun g _ => ?_
    rw [trimmed_unfoldedHeader]
    rfl
  have hrestatable : Restatable raw ↔ m.PrintableStatus ∧
      ∀ h ∈ m.headers, iequals h.1 (str "Content-Length") = false → Trimmed h.2 := by
    rw [Restatable, hsection, hvalues, hstatus]
    simp
  rw [hrestatable]
  by_cases hprint : m.PrintableStatus
  · rw [parseSip_serialize (parseSip_sendable h) hprint (hbody.trans hsize), Option.some_inj,
      received_eq_canonical_iff (parseSip_startFields h), and_iff_right hprint]
  · have hresp : m.isRequest = false ∧ ¬(100 ≤ m.statusCode ∧ m.statusCode ≤ 999) := by
      rwa [PrintableStatus, Classical.not_imp] at hprint
    have hsend := parseSip_sendable h
    rw [parseSip_serialize_bind hsend, parseStartLine_response hsend.toSendableStart hresp.1,
      if_neg hresp.2]
    exact iff_of_false nofun fun hcond => hprint hcond.1

/-- A request with a folded header and two Content-Lengths. -/
def sampleText : Str :=
  str "OPTIONS sip:x SIP/2.0\r\nSubject: hello\r\n\t\r\n world\r\nContent-Length: 2\r\n" ++
  str "content-length: 7\r\n\r\nhi!"

/-- It is restated. -/
theorem parseSip_canonical_sampleText :
    ∃ m, parseSip sampleText = some m ∧ parseSip m.serialize = some m.canonical := by
  have hparse : parseSip sampleText = some
      { method := str "OPTIONS", requestUri := str "sip:x",
        headers := [(str "Subject", str "hello  world"), (str "Content-Length", str "2"),
          (str "content-length", str "7")],
        body := str "hi" } := by decide +kernel
  exact ⟨_, hparse, (parseSip_canonical_iff (by decide) hparse).mpr (by decide +kernel)⟩

/-- A header that starts on its continuation line. -/
def looseText : Str := str "OPTIONS sip:x SIP/2.0\r\nSubject:\r\n hello\r\n\r\n"

/-- A status code with a leading zero. -/
def leadingZeroText : Str := str "SIP/2.0 099 Odd\r\n\r\n"

/-- The first loses the blank it was parsed with, the second is not accepted. -/
theorem parseSip_not_canonical :
    (∃ m, parseSip looseText = some m ∧ m.get (str "Subject") = some (str " hello") ∧
      ∃ m', parseSip m.serialize = some m' ∧ m'.get (str "Subject") = some (str "hello") ∧
        m' ≠ m.canonical) ∧
    ∃ m, parseSip leadingZeroText = some m ∧ parseSip m.serialize = none := by
  constructor
  · let m : SipMessage :=
      { method := str "OPTIONS", requestUri := str "sip:x",
        headers := [(str "Subject", str " hello")] }
    let m' : SipMessage :=
      { method := str "OPTIONS", requestUri := str "sip:x",
        headers := [(str "Subject", str "hello"), (str "Content-Length", str "0")] }
    refine ⟨m, by decide +kernel, by decide +kernel, m', ?_⟩
    exact ⟨by decide +kernel, by decide +kernel, by decide +kernel⟩
  · let m : SipMessage := { isRequest := false, statusCode := 99, reasonPhrase := str "Odd" }
    exact ⟨m, by decide +kernel, by decide +kernel⟩

end SipMessage

end SipDemo
