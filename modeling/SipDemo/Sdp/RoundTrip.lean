import SipDemo.Bytes.Numerals
import SipDemo.Bytes.Trim
import SipDemo.Framing
import SipDemo.Sdp

/-!
# SipDemo.Sdp.RoundTrip

What `generate` prints, `parseSdp` reads back.  The generated text is a list of
lines (`generate_eq`); each line is a type, `=` and a value, and each value is
either a row of tokens (`tokenize_spaced`) or an attribute.  The scan of each
line is one lemma, and `parseSdp_generate` runs them one after the other.
-/

namespace SipDemo

/-! ## tokens -/

/-- What `iss >> tok` can return: not empty, and without white space. -/
def IsToken (w : Str) : Prop := w ≠ [] ∧ ∀ c ∈ w, isspace c = false

instance (w : Str) : Decidable (IsToken w) :=
  decidable_of_iff (w ≠ [] ∧ w.all (!isspace ·) = true) (by simp [IsToken])

/-- Tokens separated by single spaces. -/
def spaced (w : Str) (ws : List Str) : Str := w ++ ws.flatMap (ch ' ' :: ·)

theorem spaced_cons (w x : Str) (xs : List Str) :
    spaced w (x :: xs) = w ++ ch ' ' :: spaced x xs := by
  simp [spaced]

theorem tokenizeFrom_append {w : Str} (hw : ∀ c ∈ w, isspace c = false) (tok rest : Str) :
    tokenizeFrom tok (w ++ rest) = tokenizeFrom (tok ++ w) rest := by
  induction w generalizing tok with
  | nil => simp
  | cons c w ih =>
      rw [List.forall_mem_cons] at hw
      rw [List.cons_append, tokenizeFrom, if_neg (by simp [hw.1]), ih hw.2, List.append_assoc]
      rfl

/-- A row of tokens is read back. -/
theorem tokenize_spaced {w : Str} {ws : List Str} (hw : IsToken w) (hws : ∀ x ∈ ws, IsToken x) :
    tokenize (spaced w ws) = w :: ws := by
  induction ws generalizing w with
  | nil =>
      have hread := tokenizeFrom_append hw.2 [] []
      simp only [List.append_nil, List.nil_append, tokenizeFrom, if_neg hw.1] at hread
      simpa [tokenize, spaced] using hread
  | cons x xs ih =>
      rw [List.forall_mem_cons] at hws
      have hspace : isspace (ch ' ') = true := rfl
      rw [spaced_cons, tokenize, tokenizeFrom_append hw.2, tokenizeFrom, if_pos hspace,
        List.nil_append, if_neg hw.1, ← tokenize, ih hws.1 hws.2]

theorem IsToken.last {w : Str} (hw : IsToken w) : ∀ c ∈ w.getLast?, ws c = false := fun c hc =>
  ws_of_not_isspace (hw.2 c (List.mem_of_getLast? hc))

/-- What a string ends in is what its tail ends in. -/
theorem last_append {tail : Str} (hne : tail ≠ []) (htail : ∀ c ∈ tail.getLast?, ws c = false)
    (s : Str) : ∀ c ∈ (s ++ tail).getLast?, ws c = false := by
  rwa [List.getLast?_append_of_ne_nil s hne]

/-- A row of tokens does not end in white space. -/
theorem spaced_last {w : Str} {xs : List Str} (hw : IsToken w) (hxs : ∀ x ∈ xs, IsToken x) :
    ∀ c ∈ (spaced w xs).getLast?, ws c = false := by
  induction xs generalizing w with
  | nil => simpa [spaced] using hw.last
  | cons x xs ih =>
      rw [List.forall_mem_cons] at hxs
      have hne : spaced x xs ≠ [] := by simp [spaced, hxs.1.1]
      rw [spaced_cons, List.append_cons]
      exact last_append hne (ih hxs.1 hxs.2) _

theorem isToken_natStr (n : Nat) : IsToken (natStr n) := by
  exact ⟨natStr_ne_nil n, fun c hc => isspace_of_isdigit (isdigit_of_mem_natStr hc)⟩

theorem isToken_intStr (i : Int) : IsToken (intStr i) := by
  have hnat := isToken_natStr i.natAbs
  unfold intStr
  split
  · exact ⟨List.cons_ne_nil _ _, List.forall_mem_cons.mpr ⟨rfl, hnat.2⟩⟩
  · exact hnat

/-! ## lines -/

/-- Lines that end in CRLF come out of `getline` with the CR. -/
theorem getlines_crlf {lines : List Str} (h : ∀ l ∈ lines, ch '\n' ∉ l) :
    getlines (lines.flatMap (· ++ crlf)) = lines.map (· ++ [13]) := by
  have hline : ∀ (l rest : Str), ch '\n' ∉ l → getlines (l ++ crlf ++ rest) =
      (l ++ [13]) :: getlines rest := by
    intro l rest hl
    induction l with
    | nil => rfl
    | cons c l ih =>
        rw [List.mem_cons, not_or] at hl
        rw [List.cons_append, List.cons_append, getlines, if_neg (Ne.symm hl.1), ih hl.2]
        rfl
  induction lines with
  | nil => rfl
  | cons l lines ih =>
      rw [List.forall_mem_cons] at h
      rw [List.flatMap_cons, hline l _ h.1, ih h.2, List.map_cons]

/-- The `a=rtpmap` and `a=fmtp` lines of one payload type. -/
def rtpmapTexts (dtmfPayloadType pt : Int) : List Str :=
  if pt = 0 then [str "a=rtpmap:0 PCMU/8000"]
  else if pt = 8 then [str "a=rtpmap:8 PCMA/8000"]
  else if pt = dtmfPayloadType ∧ 0 ≤ dtmfPayloadType then
    [str "a=rtpmap:" ++ intStr pt ++ str " telephone-event/8000",
      str "a=fmtp:" ++ intStr pt ++ str " 0-15"]
  else []

/-- The `o=` value. -/
def SdpSession.origin (s : SdpSession) : Str :=
  spaced s.username [natStr s.sessionId.toNat, natStr s.sessionVersion.toNat, str "IN", str "IP4",
    s.connectionAddress]

/-- The `m=` value. -/
def SdpSession.media (s : SdpSession) : Str :=
  spaced (str "audio") (natStr s.audioPort.toNat :: str "RTP/AVP" :: s.payloadTypes.map intStr)

/-- The lines of `generate`. -/
def SdpSession.lines (s : SdpSession) : List Str :=
  [str "v=0", str "o=" ++ s.origin, str "s=sipdemo",
    str "c=" ++ spaced (str "IN") [str "IP4", s.connectionAddress], str "t=0 0",
    str "m=" ++ s.media] ++
  s.payloadTypes.flatMap (rtpmapTexts s.dtmfPayloadType) ++
  [str "a=ptime:" ++ intStr s.ptimeMs, str "a=sendrecv"]

theorem rtpmapLines_eq (dtmfPayloadType pt : Int) :
    rtpmapLines dtmfPayloadType pt = (rtpmapTexts dtmfPayloadType pt).flatMap (· ++ crlf) := by
  unfold rtpmapLines rtpmapTexts
  split_ifs <;> simp

theorem generate_eq (s : SdpSession) : s.generate = s.lines.flatMap (· ++ crlf) := by
  have hrtpmap : s.payloadTypes.flatMap (rtpmapLines s.dtmfPayloadType) =
      (s.payloadTypes.flatMap (rtpmapTexts s.dtmfPayloadType)).flatMap (· ++ crlf) := by
    rw [List.flatMap_assoc]
    exact congrArg (s.payloadTypes.flatMap ·) (funext fun pt => rtpmapLines_eq _ pt)
  have hspace : str " " = [ch ' '] := rfl
  have hnet : str " IN IP4 " = ch ' ' :: (str "IN" ++ ch ' ' :: (str "IP4" ++ [ch ' '])) := rfl
  have hconn : str "c=IN IP4 " = str "c=" ++ (str "IN" ++ ch ' ' :: (str "IP4" ++ [ch ' '])) := rfl
  have haudio : str "m=audio " = str "m=" ++ (str "audio" ++ [ch ' ']) := rfl
  have havp : str " RTP/AVP" = ch ' ' :: str "RTP/AVP" := rfl
  unfold SdpSession.generate
  simp only [hrtpmap, hspace, hnet, hconn, haudio, havp, SdpSession.lines,
    SdpSession.origin, SdpSession.media, spaced, List.flatMap_append, List.flatMap_cons,
    List.flatMap_nil, List.flatMap_map, List.append_nil, List.append_assoc, List.cons_append,
    List.nil_append]

theorem IsToken.no_space {w : Str} (hw : IsToken w) : ch ' ' ∉ w := fun hmem =>
  absurd (hw.2 _ hmem) (by decide)

theorem IsToken.no_newline {w : Str} (hw : IsToken w) : ch '\n' ∉ w := fun hmem =>
  absurd (hw.2 _ hmem) (by decide)

theorem spaced_no_newline {w : Str} {xs : List Str} (hw : IsToken w) (hxs : ∀ x ∈ xs, IsToken x) :
    ch '\n' ∉ spaced w xs := by
  rw [spaced, List.mem_append, List.mem_flatMap, not_or]
  refine ⟨hw.no_newline, ?_⟩
  rintro ⟨x, hx, hmem⟩
  rw [List.mem_cons] at hmem
  exact hmem.elim (by decide) (hxs x hx).no_newline

theorem rtpmapTexts_no_newline {dtmfPayloadType pt : Int} :
    ∀ l ∈ rtpmapTexts dtmfPayloadType pt, ch '\n' ∉ l := by
  have hpt := (isToken_intStr pt).no_newline
  unfold rtpmapTexts
  split_ifs
  · decide
  · decide
  · simp only [List.forall_mem_cons, List.mem_append, not_or, hpt, not_false_eq_true,
      List.not_mem_nil, false_imp_iff, implies_true, and_true]
    decide
  · simp

/-- The values whose text is read back token by token. -/
theorem origin_tokens {s : SdpSession} (ha : IsToken s.connectionAddress) :
    ∀ x ∈ [natStr s.sessionId.toNat, natStr s.sessionVersion.toNat, str "IN", str "IP4",
      s.connectionAddress], IsToken x := by
  simp only [List.forall_mem_cons, isToken_natStr, ha, List.not_mem_nil, false_imp_iff,
    implies_true, and_true, true_and]
  exact ⟨by decide, by decide⟩

theorem media_tokens (s : SdpSession) :
    ∀ x ∈ natStr s.audioPort.toNat :: str "RTP/AVP" :: s.payloadTypes.map intStr, IsToken x := by
  rw [List.forall_mem_cons, List.forall_mem_cons, List.forall_mem_map]
  exact ⟨isToken_natStr _, by decide, fun pt _ => isToken_intStr pt⟩

theorem connection_tokens {addr : Str} (haddr : IsToken addr) :
    ∀ x ∈ [str "IP4", addr], IsToken x :=
  List.forall_mem_cons.mpr ⟨by decide, List.forall_mem_singleton.mpr haddr⟩

/-- No field can break a generated line in two. -/
theorem lines_no_newline {s : SdpSession} (hu : IsToken s.username)
    (ha : IsToken s.connectionAddress) : ∀ l ∈ s.lines, ch '\n' ∉ l := by
  have horigin := spaced_no_newline hu (origin_tokens ha)
  have hconnection : ch '\n' ∉ spaced (str "IN") [str "IP4", s.connectionAddress] :=
    spaced_no_newline (by decide) (connection_tokens ha)
  have hmedia : ch '\n' ∉ s.media := spaced_no_newline (by decide) (media_tokens s)
  have hptime := (isToken_intStr s.ptimeMs).no_newline
  have hrtpmap : ∀ l ∈ s.payloadTypes.flatMap (rtpmapTexts s.dtmfPayloadType), ch '\n' ∉ l := by
    simp only [List.mem_flatMap]
    rintro l ⟨pt, -, hl⟩
    exact rtpmapTexts_no_newline l hl
  rw [SdpSession.lines, List.forall_mem_append, List.forall_mem_append]
  refine ⟨⟨?_, hrtpmap⟩, ?_⟩
  · simp only [List.forall_mem_cons, List.mem_append, not_or, SdpSession.origin, horigin,
      hconnection, hmedia, not_false_eq_true, and_true]
    decide
  · simp only [List.forall_mem_cons, List.mem_append, not_or, hptime, not_false_eq_true, and_true]
    decide

/-! ## the scan of a line -/

namespace SdpScan

variable (a : SdpScan)

/-- A typed line that does not end in white space, with the CR that `getline`
leaves, is dispatched on its type. -/
theorem line_typed {type : UInt8} {val : Str} (htype : ws type = false)
    (hval : ∀ c ∈ val.getLast?, ws c = false) :
    a.line (type :: ch '=' :: val ++ [13]) =
      if type = ch 'o' then a.originLine val
      else if type = ch 'c' then a.connectionLine val
      else if type = ch 'm' then a.mediaLine val
      else if type = ch 'a' then a.attributeLine val
      else a := by
  have htrimmed : Trimmed (type :: ch '=' :: val) := by
    refine ⟨by simpa using htype, fun c hc => ?_⟩
    rw [List.getLast?_cons, List.getLast?_cons, Option.mem_some_iff] at hc
    cases hlast : val.getLast? with
    | none => rw [← hc, hlast]; rfl
    | some d => rw [← hc, hlast]; exact hval d hlast
  have hcr : ws 13 = true := rfl
  simp only [line, trim_concat_of_ws hcr, htrimmed.trim_eq, ↓reduceIte]

theorem line_origin {s : SdpSession} (hu : IsToken s.username) (ha : IsToken s.connectionAddress) :
    a.line (str "o=" ++ s.origin ++ [13]) =
      { a with session := { a.session with
          username := s.username
          sessionId := s.sessionId
          sessionVersion := s.sessionVersion
          connectionAddress := s.connectionAddress } } := by
  have htokens := origin_tokens ha
  have hline := @line_typed a (ch 'o') s.origin rfl (spaced_last hu htokens)
  rw [if_pos rfl, originLine, SdpSession.origin, tokenize_spaced hu htokens] at hline
  simp only [strtoull_natStr] at hline
  exact hline

theorem line_connection {addr : Str} (haddr : IsToken addr) :
    a.line (str "c=" ++ spaced (str "IN") [str "IP4", addr] ++ [13]) =
      { a with
        session := { a.session with connectionAddress := addr }
        haveConnection := true } := by
  have hin : IsToken (str "IN") := by decide
  have htokens := connection_tokens haddr
  have hline := @line_typed a (ch 'c') _ rfl (spaced_last hin htokens)
  rw [if_neg (by decide), if_pos rfl, connectionLine, tokenize_spaced hin htokens] at hline
  exact hline

theorem line_media {s : SdpSession} (hpts : s.payloadTypes ≠ [])
    (hint : ∀ pt ∈ s.payloadTypes, -2 ^ 31 ≤ pt ∧ pt < 2 ^ 31) :
    a.line (str "m=" ++ s.media ++ [13]) =
      { a with
        session := { a.session with
          audioPort := s.audioPort
          payloadTypes := a.session.payloadTypes ++ s.payloadTypes }
        haveAudio := true } := by
  have haudio : IsToken (str "audio") := by decide
  have htokens := media_tokens s
  have hport : UInt16.ofInt (atoi (natStr s.audioPort.toNat)) = s.audioPort := by
    have hlt := s.audioPort.toNat_lt
    rw [atoi_natStr (by omega), UInt16.ofInt, Int.emod_eq_of_lt (by omega) (by omega),
      Int.toNat_natCast, UInt16.ofNat_toNat]
  have hread : (s.payloadTypes.map intStr).map atoi = s.payloadTypes := by
    rw [List.map_map]
    refine (List.map_congr_left fun pt hpt => ?_).trans (List.map_id _)
    exact atoi_intStr (hint pt hpt).1 (hint pt hpt).2
  have hmedia : a.mediaLine s.media = { a with
      session := { a.session with
        audioPort := s.audioPort
        payloadTypes := a.session.payloadTypes ++ s.payloadTypes }
      haveAudio := true } := by
    obtain ⟨pt, pts, heq⟩ := List.exists_cons_of_ne_nil hpts
    rw [mediaLine, SdpSession.media, tokenize_spaced haudio htokens]
    rw [heq, List.map_cons] at hread ⊢
    simp only [↓reduceIte, hport, hread]
  have hline := @line_typed a (ch 'm') s.media rfl (spaced_last haudio htokens)
  rw [if_neg (by decide), if_neg (by decide), if_pos rfl, hmedia] at hline
  exact hline

theorem line_attribute {val : Str} (hval : ∀ c ∈ val.getLast?, ws c = false) :
    a.line (str "a=" ++ val ++ [13]) = a.attributeLine val := by
  have hline := @line_typed a (ch 'a') val rfl hval
  rwa [if_neg (by decide), if_neg (by decide), if_neg (by decide), if_pos rfl] at hline

theorem line_ptime {ptimeMs : Int} (hlo : -2 ^ 31 ≤ ptimeMs) (hhi : ptimeMs < 2 ^ 31) :
    a.line (str "a=ptime:" ++ intStr ptimeMs ++ [13]) =
      { a with session := { a.session with ptimeMs } } := by
  have htoken := isToken_intStr ptimeMs
  have hline := a.line_attribute (last_append htoken.1 htoken.last (str "ptime:"))
  have hprefix : afterPrefix? (str "ptime:") (str "ptime:" ++ intStr ptimeMs) =
      some (intStr ptimeMs) := by
    rw [afterPrefix?, if_pos (List.isPrefixOf_iff_prefix.mpr (List.prefix_append _ _)),
      List.drop_left]
  rw [attributeLine, hprefix] at hline
  simp only [atoi_intStr hlo hhi] at hline
  exact hline

theorem attributeLine_event {pt : Int} (hlo : -2 ^ 31 ≤ pt) (hhi : pt < 2 ^ 31) :
    a.attributeLine (str "rtpmap:" ++ intStr pt ++ str " telephone-event/8000") =
      { a with session := { a.session with dtmfPayloadType := pt } } := by
  obtain ⟨htake, hdrop⟩ := span_separator (isToken_intStr pt).no_space (str "telephone-event/8000")
  have hptime : afterPrefix? (str "ptime:")
      (str "rtpmap:" ++ intStr pt ++ str " telephone-event/8000") = none := rfl
  have hrtpmap : afterPrefix? (str "rtpmap:")
      (str "rtpmap:" ++ intStr pt ++ str " telephone-event/8000") =
      some (intStr pt ++ ch ' ' :: str "telephone-event/8000") := by
    rw [List.append_assoc, afterPrefix?,
      if_pos (List.isPrefixOf_iff_prefix.mpr (List.prefix_append _ _)), List.drop_left]
    rfl
  have hname : toLower ((str "telephone-event/8000").takeWhile fun c => c ≠ ch '/') =
      str "telephone-event" := by decide
  have hparse : parseRtpmap (str "rtpmap:" ++ intStr pt ++ str " telephone-event/8000") =
      some (pt, str "telephone-event") := by
    simp only [parseRtpmap, hrtpmap, hdrop, htake, hname, atoi_intStr hlo hhi]
  simp only [attributeLine, hptime, hparse, ↓reduceIte]

/-- The `a=fmtp` line of a telephone event says nothing that is kept. -/
theorem line_fmtp (pt : Int) : a.line (str "a=fmtp:" ++ intStr pt ++ str " 0-15" ++ [13]) = a := by
  have hlast : ∀ c ∈ (str " 0-15").getLast?, ws c = false := by
    rintro c ⟨⟩
    rfl
  exact a.line_attribute (last_append (by decide) hlast (str "fmtp:" ++ intStr pt))

theorem line_event {pt : Int} (hlo : -2 ^ 31 ≤ pt) (hhi : pt < 2 ^ 31) :
    a.line (str "a=rtpmap:" ++ intStr pt ++ str " telephone-event/8000" ++ [13]) =
      { a with session := { a.session with dtmfPayloadType := pt } } := by
  have hlast : ∀ c ∈ (str " telephone-event/8000").getLast?, ws c = false := by
    rintro c ⟨⟩
    rfl
  have hline := a.line_attribute (last_append (by decide) hlast (str "rtpmap:" ++ intStr pt))
  rw [attributeLine_event a hlo hhi] at hline
  exact hline

/-- The lines of one payload type set the telephone-event type or nothing. -/
theorem foldl_rtpmapTexts {dtmfPayloadType pt : Int} (hlo : -2 ^ 31 ≤ pt) (hhi : pt < 2 ^ 31) :
    ((rtpmapTexts dtmfPayloadType pt).map (· ++ [13])).foldl line a =
      if pt = dtmfPayloadType ∧ 0 ≤ pt ∧ pt ≠ 0 ∧ pt ≠ 8 then
        { a with session := { a.session with dtmfPayloadType := pt } }
      else a := by
  unfold rtpmapTexts
  by_cases hzero : pt = 0
  · rw [if_pos hzero, if_neg (by omega)]
    rfl
  · by_cases height : pt = 8
    · rw [if_neg hzero, if_pos height, if_neg (by omega)]
      rfl
    · by_cases hevent : pt = dtmfPayloadType ∧ 0 ≤ dtmfPayloadType
      · rw [if_neg hzero, if_neg height, if_pos hevent, if_pos (by omega), List.map_cons,
          List.map_cons, List.map_nil, List.foldl_cons, line_event a hlo hhi, List.foldl_cons,
          line_fmtp, List.foldl_nil]
      · rw [if_neg hzero, if_neg height, if_neg hevent, if_neg (by omega)]
        rfl

/-- Of all the `rtpmap` lines only those of the telephone event count. -/
theorem foldl_rtpmaps {dtmfPayloadType : Int} {pts : List Int}
    (hint : ∀ pt ∈ pts, -2 ^ 31 ≤ pt ∧ pt < 2 ^ 31) :
    ((pts.flatMap (rtpmapTexts dtmfPayloadType)).map (· ++ [13])).foldl line a =
      if dtmfPayloadType ∈ pts ∧ 0 ≤ dtmfPayloadType ∧ dtmfPayloadType ≠ 0 ∧
          dtmfPayloadType ≠ 8 then
        { a with session := { a.session with dtmfPayloadType } }
      else a := by
  induction pts generalizing a with
  | nil => simp
  | cons pt pts ih =>
      rw [List.forall_mem_cons] at hint
      rw [List.flatMap_cons, List.map_append, List.foldl_append,
        foldl_rtpmapTexts a hint.1.1 hint.1.2, ih _ hint.2]
      by_cases hpt : pt = dtmfPayloadType
      · subst hpt
        by_cases hevent : 0 ≤ pt ∧ pt ≠ 0 ∧ pt ≠ 8
        · have hhead : pt = pt ∧ 0 ≤ pt ∧ pt ≠ 0 ∧ pt ≠ 8 := ⟨rfl, hevent⟩
          have hmem : pt ∈ pt :: pts ∧ 0 ≤ pt ∧ pt ≠ 0 ∧ pt ≠ 8 := ⟨List.mem_cons_self, hevent⟩
          rw [if_pos hhead, if_pos hmem]
          exact ite_self _
        · simp only [hevent, and_false, ↓reduceIte]
      · simp only [hpt, Ne.symm hpt, List.mem_cons, false_and, ↓reduceIte, false_or]

end SdpScan

/-! ## the round trip -/

/-- `parseSdp` inverts `generate`: the fields that the text spells out are read
back, the telephone-event type from its `rtpmap` line. -/
theorem parseSdp_generate {s : SdpSession} (husername : IsToken s.username)
    (haddress : IsToken s.connectionAddress) (hpts : s.payloadTypes ≠ [])
    (hdtmf : s.dtmfPayloadType = -1 ∨ 0 ≤ s.dtmfPayloadType ∧
      s.dtmfPayloadType ∈ s.payloadTypes ∧ s.dtmfPayloadType ≠ 0 ∧ s.dtmfPayloadType ≠ 8)
    (hint : ∀ pt ∈ s.payloadTypes, -2 ^ 31 ≤ pt ∧ pt < 2 ^ 31)
    (hptime : -2 ^ 31 ≤ s.ptimeMs ∧ s.ptimeMs < 2 ^ 31) :
    parseSdp s.generate = some s := by
  have hscan : (getlines s.generate).foldl SdpScan.line {} =
      { session := s, haveAudio := true, haveConnection := true } := by
    have hversion (a : SdpScan) : a.line (str "v=0" ++ [13]) = a := rfl
    have hname (a : SdpScan) : a.line (str "s=sipdemo" ++ [13]) = a := rfl
    have htime (a : SdpScan) : a.line (str "t=0 0" ++ [13]) = a := rfl
    have hsendrecv (a : SdpScan) : a.line (str "a=sendrecv" ++ [13]) = a := rfl
    rw [generate_eq, getlines_crlf (lines_no_newline husername haddress), SdpSession.lines]
    simp only [List.map_append, List.map_cons, List.map_nil, List.foldl_append, List.foldl_cons,
      List.foldl_nil]
    rw [hversion, SdpScan.line_origin _ husername haddress, hname,
      SdpScan.line_connection _ haddress, htime, SdpScan.line_media _ hpts hint,
      SdpScan.foldl_rtpmaps _ hint, SdpScan.line_ptime _ hptime.1 hptime.2, hsendrecv]
    cases hdtmf with
    | inl hnone =>
        rw [if_neg (by omega)]
        obtain ⟨_, _, _, _, _, _, _, _⟩ := s
        simp only at hnone
        rw [hnone]
        rfl
    | inr hsome =>
        rw [if_pos ⟨hsome.2.1, hsome.1, hsome.2.2⟩]
        rfl
  have hnonempty : s.payloadTypes.isEmpty = false := by simpa using hpts
  simp only [parseSdp, hscan, hnonempty, Bool.not_true, Bool.or_self, Bool.false_and,
    Bool.false_eq_true, ↓reduceIte]

/-- An answer with telephone events. -/
theorem parseSdp_generate_sample :
    let s : SdpSession :=
      { username := str "sipdemo", sessionId := 1, sessionVersion := 1,
        connectionAddress := str "10.0.0.1", audioPort := 40000, payloadTypes := [0, 101],
        dtmfPayloadType := 101 }
    parseSdp s.generate = some s :=
  parseSdp_generate (by decide) (by decide) (by decide) (by decide) (by decide) (by decide)

end SipDemo
