import SipDemo.Sdp

/-!
# SipDemo.Sdp.Sections

What a further media section does to the audio session.

`parseSdp` keeps one flat state, so a line counts for the audio session wherever
it stands.  `setting` says what a line sets; the parsed session holds the last
value of each kind that any line sets (`foldl_line`).  A block behind the audio
section, of a medium that the parser skips, therefore leaves the session as it
is exactly when the last values it sets are those set before it
(`parseSdp_section_iff`).
-/

namespace SipDemo

/-! ## what a line sets -/

/-- What one line sets, when it sets anything. -/
structure Setting where
  /-- `username`, `sessionId` and `sessionVersion` -/
  origin : Option (Str × UInt64 × UInt64) := none
  address : Option Str := none
  ptime : Option Int := none
  event : Option Int := none
  /-- the port and the payload types of an audio line -/
  audio : Option (UInt16 × List Int) := none
  connection : Bool := false

def originSetting (val : Str) : Setting :=
  match tokenize val with
  | user :: id :: version :: _ :: _ :: addr :: _ =>
      { origin := some (user, strtoull id, strtoull version), address := some addr }
  | _ => {}

def connectionSetting (val : Str) : Setting :=
  match tokenize val with
  | _ :: _ :: addr :: _ => { address := some addr, connection := true }
  | _ => {}

def mediaSetting (val : Str) : Setting :=
  match tokenize val with
  | kind :: port :: _ :: pt :: pts =>
      if kind = str "audio" then
        { audio := some (UInt16.ofInt (atoi port), (pt :: pts).map atoi) }
      else {}
  | _ => {}

def attributeSetting (val : Str) : Setting :=
  match afterPrefix? (str "ptime:") val with
  | some ms => { ptime := some (atoi ms) }
  | none =>
      match parseRtpmap val with
      | some (pt, name) => if name = str "telephone-event" then { event := some pt } else {}
      | none => {}

def setting (raw : Str) : Setting :=
  match trim raw with
  | type :: eq :: val =>
      if eq = ch '=' then
        if type = ch 'o' then originSetting val
        else if type = ch 'c' then connectionSetting val
        else if type = ch 'm' then mediaSetting val
        else if type = ch 'a' then attributeSetting val
        else {}
      else {}
  | _ => {}

/-! Only an `m=` line sets the audio fields, and no `m=` or `a=` line sets an
address. -/

theorem originSetting_audio (val : Str) : (originSetting val).audio = none := by
  unfold originSetting
  grind

theorem connectionSetting_audio (val : Str) : (connectionSetting val).audio = none := by
  unfold connectionSetting
  grind

theorem attributeSetting_audio (val : Str) : (attributeSetting val).audio = none := by
  unfold attributeSetting
  grind

theorem mediaSetting_address (val : Str) : (mediaSetting val).address = none := by
  unfold mediaSetting
  grind

theorem attributeSetting_address (val : Str) : (attributeSetting val).address = none := by
  unfold attributeSetting
  grind

/-- The medium of an `m=` line. -/
def medium? (raw : Str) : Option Str :=
  match trim raw with
  | type :: eq :: val => if type = ch 'm' ∧ eq = ch '=' then (tokenize val).head? else none
  | _ => none

namespace SdpScan

/-- The scan after a line with this setting. -/
def set (a : SdpScan) (x : Setting) : SdpScan where
  session :=
    { username := (x.origin.map fun o => o.1).getD a.session.username
      sessionId := (x.origin.map fun o => o.2.1).getD a.session.sessionId
      sessionVersion := (x.origin.map fun o => o.2.2).getD a.session.sessionVersion
      connectionAddress := x.address.getD a.session.connectionAddress
      audioPort := (x.audio.map fun m => m.1).getD a.session.audioPort
      payloadTypes := a.session.payloadTypes ++ (x.audio.map fun m => m.2).getD []
      ptimeMs := x.ptime.getD a.session.ptimeMs
      dtmfPayloadType := x.event.getD a.session.dtmfPayloadType }
  haveAudio := a.haveAudio || x.audio.isSome
  haveConnection := a.haveConnection || x.connection

theorem set_none (a : SdpScan) : a.set {} = a := by
  simp [set]

theorem originLine_eq_set (a : SdpScan) (val : Str) :
    a.originLine val = a.set (originSetting val) := by
  unfold originLine originSetting
  generalize tokenize val = tokens
  split
  · simp [set]
  · grind [set_none]

theorem connectionLine_eq_set (a : SdpScan) (val : Str) :
    a.connectionLine val = a.set (connectionSetting val) := by
  unfold connectionLine connectionSetting
  generalize tokenize val = tokens
  split
  · simp [set]
  · grind [set_none]

theorem mediaLine_eq_set (a : SdpScan) (val : Str) :
    a.mediaLine val = a.set (mediaSetting val) := by
  unfold mediaLine mediaSetting
  generalize tokenize val = tokens
  split
  · next kind _ _ _ _ =>
      by_cases haudio : kind = str "audio"
      · simp [set, haudio]
      · simp [set, haudio]
  · grind [set_none]

theorem attributeLine_eq_set (a : SdpScan) (val : Str) :
    a.attributeLine val = a.set (attributeSetting val) := by
  unfold attributeLine attributeSetting
  generalize afterPrefix? (str "ptime:") val = ms
  generalize parseRtpmap val = rtpmap
  cases ms with
  | some ms => simp [set]
  | none =>
      cases rtpmap with
      | none => rw [set_none]
      | some r =>
          by_cases hevent : r.2 = str "telephone-event"
          · simp [set, hevent]
          · simp [set, hevent]

/-- **A line acts through its setting.** -/
theorem line_eq_set (a : SdpScan) (raw : Str) : a.line raw = a.set (setting raw) := by
  unfold line setting
  generalize trim raw = text
  rcases text with _ | ⟨type, _ | ⟨eq, val⟩⟩
  · exact (set_none a).symm
  · exact (set_none a).symm
  · dsimp only
    by_cases heq : eq = ch '='
    · rw [if_pos heq, if_pos heq]
      by_cases ho : type = ch 'o'
      · rw [if_pos ho, if_pos ho, originLine_eq_set]
      by_cases hc : type = ch 'c'
      · rw [if_neg ho, if_neg ho, if_pos hc, if_pos hc, connectionLine_eq_set]
      by_cases hm : type = ch 'm'
      · rw [if_neg ho, if_neg ho, if_neg hc, if_neg hc, if_pos hm, if_pos hm, mediaLine_eq_set]
      by_cases ha : type = ch 'a'
      · rw [if_neg ho, if_neg ho, if_neg hc, if_neg hc, if_neg hm, if_neg hm, if_pos ha,
          if_pos ha, attributeLine_eq_set]
      · rw [if_neg ho, if_neg ho, if_neg hc, if_neg hc, if_neg hm, if_neg hm, if_neg ha,
          if_neg ha, set_none]
    · rw [if_neg heq, if_neg heq, set_none]

end SdpScan

/-! ## the last value of a kind -/

/-- The last value of one kind that lines set. -/
def lastSet {γ : Type} (f : Setting → Option γ) (lines : List Str) : Option γ :=
  (lines.filterMap (f ∘ setting)).getLast?

/-- Values that are read off lines of one form. -/
theorem lastSet_eq {β γ : Type} {f : Setting → Option γ} {line? : Str → Option β} {g : β → γ}
    (h : ∀ raw, f (setting raw) = (line? raw).map g) (lines : List Str) :
    lastSet f lines = (lines.filterMap line?).getLast?.map g := by
  have hlines : f ∘ setting = fun raw => (line? raw).map g := funext h
  rw [lastSet, hlines, ← List.map_filterMap, List.getLast?_map]

/-- **The last value of its kind is kept**, of all that the lines set. -/
theorem foldl_line {γ : Type} {f : Setting → Option γ} (proj : SdpScan → γ)
    (h : ∀ a x, proj (a.set x) = (f x).getD (proj a)) (lines : List Str) (a : SdpScan) :
    proj (lines.foldl SdpScan.line a) = (lastSet f lines).getD (proj a) := by
  unfold lastSet
  induction lines generalizing a with
  | nil => rfl
  | cons raw lines ih =>
      rw [List.foldl_cons, ih, SdpScan.line_eq_set, h, List.filterMap_cons, Function.comp_apply]
      cases f (setting raw) with
      | none => rfl
      | some v => rw [List.getLast?_cons]; rfl

/-- Lines after `lines` that leave the value of a kind as it is. -/
def Keeps {γ : Type} (f : Setting → Option γ) (default : γ) (lines block : List Str) : Prop :=
  ∀ v, lastSet f block = some v → v = (lastSet f lines).getD default

theorem keeps_of_none {γ : Type} {f : Setting → Option γ} {default : γ} {lines block : List Str}
    (h : lastSet f block = none) : Keeps f default lines block := by
  intro v hv
  rw [h] at hv
  cases hv

theorem foldl_line_eq_iff {γ : Type} {f : Setting → Option γ} (proj : SdpScan → γ)
    (h : ∀ a x, proj (a.set x) = (f x).getD (proj a)) (lines block : List Str) :
    proj (block.foldl SdpScan.line (lines.foldl SdpScan.line {})) =
        proj (lines.foldl SdpScan.line {}) ↔ Keeps f (proj {}) lines block := by
  unfold Keeps
  rw [foldl_line proj h block, ← foldl_line proj h lines]
  cases lastSet f block with
  | none => simp
  | some v => simp

/-! ## lines of two texts -/

theorem getlines_ne_nil {text : Str} (h : text ≠ []) : getlines text ≠ [] := by
  cases text with
  | nil => exact absurd rfl h
  | cons c rest =>
      rw [getlines]
      split
      · exact List.cons_ne_nil _ _
      · split <;> exact List.cons_ne_nil _ _

/-- Text behind a newline starts a line of its own. -/
theorem getlines_append {body : Str} (h : body.getLast? = some (ch '\n')) (block : Str) :
    getlines (body ++ block) = getlines body ++ getlines block := by
  induction body with
  | nil => cases h
  | cons c rest ih =>
      rw [List.cons_append, getlines, getlines]
      by_cases hrest : rest = []
      · subst hrest
        obtain rfl : c = ch '\n' := Option.some.inj h
        rfl
      · have hlast : rest.getLast? = some (ch '\n') := by
          rw [← h, List.getLast?_cons, List.getLast?_eq_some_getLast hrest]
          rfl
        rw [ih hlast]
        split
        · rfl
        · cases hlines : getlines rest with
          | nil => exact absurd hlines (getlines_ne_nil hrest)
          | cons line lines => rfl

/-! ## the address is never empty -/

theorem ne_nil_of_mem_tokenizeFrom {tok s t : Str} (h : t ∈ tokenizeFrom tok s) : t ≠ [] := by
  induction s generalizing tok with
  | nil =>
      rw [tokenizeFrom] at h
      split at h
      · cases h
      · next htok => rwa [List.mem_singleton.mp h]
  | cons c rest ih =>
      rw [tokenizeFrom] at h
      split at h
      · split at h
        · exact ih h
        · next htok =>
            cases List.mem_cons.mp h with
            | inl heq => rwa [heq]
            | inr hmem => exact ih hmem
      · exact ih h

theorem address_ne_nil {raw addr : Str} (h : (setting raw).address = some addr) : addr ≠ [] := by
  have horigin (val : Str) (h : (originSetting val).address = some addr) :
      addr ∈ tokenize val := by
    unfold originSetting at h
    split at h
    · next htokens =>
        obtain rfl := Option.some.inj h
        simp [htokens]
    · cases h
  have hconnection (val : Str) (h : (connectionSetting val).address = some addr) :
      addr ∈ tokenize val := by
    unfold connectionSetting at h
    split at h
    · next htokens =>
        obtain rfl := Option.some.inj h
        simp [htokens]
    · cases h
  unfold setting at h
  grind [ne_nil_of_mem_tokenizeFrom, tokenize, mediaSetting_address, attributeSetting_address]

/-- What `parseSdp` makes of the lines. -/
def scanSdp (body : Str) : SdpScan := (getlines body).foldl SdpScan.line {}

/-- The address of a session is the last one set, or the default. -/
theorem scanSdp_lastAddress (body : Str) : (scanSdp body).session.connectionAddress =
    (lastSet Setting.address (getlines body)).getD (str "127.0.0.1") := by
  have haddress (a : SdpScan) (x : Setting) : (a.set x).session.connectionAddress =
      x.address.getD a.session.connectionAddress := rfl
  rw [scanSdp, foldl_line (fun a => a.session.connectionAddress) haddress]

theorem scanSdp_address (body : Str) : (scanSdp body).session.connectionAddress ≠ [] := by
  rw [scanSdp_lastAddress]
  cases hlast : lastSet Setting.address (getlines body) with
  | none => decide
  | some addr =>
      obtain ⟨raw, -, hraw⟩ := List.mem_filterMap.mp (List.mem_of_getLast? hlast)
      exact address_ne_nil hraw

/-- **Accepted bodies** are those with an audio line. -/
theorem parseSdp_eq (body : Str) :
    parseSdp body = if (scanSdp body).haveAudio && !(scanSdp body).session.payloadTypes.isEmpty
      then some (scanSdp body).session else none := by
  have haddress : (scanSdp body).session.connectionAddress.isEmpty = false :=
    List.isEmpty_eq_false_iff.mpr (scanSdp_address body)
  rw [parseSdp]
  change (if !(scanSdp body).haveAudio || (scanSdp body).session.payloadTypes.isEmpty then none
    else if !(scanSdp body).haveConnection && (scanSdp body).session.connectionAddress.isEmpty
      then none else some (scanSdp body).session) = _
  rw [haddress, Bool.and_false, if_neg Bool.false_ne_true]
  cases (scanSdp body).haveAudio <;> cases (scanSdp body).session.payloadTypes.isEmpty <;> rfl

/-! ## a further media section -/

/-- A line that is no audio line sets none of the audio fields. -/
theorem audio_eq_none {raw : Str} (h : medium? raw ≠ some (str "audio")) :
    (setting raw).audio = none := by
  have hmedia (val : Str) (h : (tokenize val).head? ≠ some (str "audio")) :
      (mediaSetting val).audio = none := by
    unfold mediaSetting
    grind
  unfold medium? at h
  unfold setting
  grind [originSetting_audio, connectionSetting_audio, attributeSetting_audio]

/-- A block without an audio line leaves the port and the payload types. -/
theorem foldl_line_audio {block : List Str} (h : ∀ raw ∈ block, medium? raw ≠ some (str "audio"))
    (a : SdpScan) :
    (block.foldl SdpScan.line a).haveAudio = a.haveAudio ∧
      (block.foldl SdpScan.line a).session.audioPort = a.session.audioPort ∧
      (block.foldl SdpScan.line a).session.payloadTypes = a.session.payloadTypes := by
  induction block generalizing a with
  | nil => exact ⟨rfl, rfl, rfl⟩
  | cons raw block ih =>
      have hnone := audio_eq_none (h raw List.mem_cons_self)
      have hrest := ih (fun raw' hraw' => h raw' (List.mem_cons_of_mem raw hraw')) (a.line raw)
      rw [List.foldl_cons]
      rw [SdpScan.line_eq_set] at hrest ⊢
      simpa [SdpScan.set, hnone] using hrest

/-- Sessions with the same audio line differ in one of the other values. -/
theorem session_eq_iff {s t : SdpSession} (hport : s.audioPort = t.audioPort)
    (htypes : s.payloadTypes = t.payloadTypes) :
    s = t ↔ (s.username, s.sessionId, s.sessionVersion) =
        (t.username, t.sessionId, t.sessionVersion) ∧
      s.connectionAddress = t.connectionAddress ∧ s.ptimeMs = t.ptimeMs ∧
      s.dtmfPayloadType = t.dtmfPayloadType := by
  cases s
  cases t
  simp only at hport htypes
  simp only [SdpSession.mk.injEq, Prod.mk.injEq, hport, htypes]
  tauto

/-- **Exactly when a further section leaves the audio session as it is**: the
last origin, address, ptime and telephone-event payload type it sets, where it
sets any, are those in force before it. -/
theorem parseSdp_section_iff (body block : Str) (hend : body.getLast? = some (ch '\n'))
    (hbody : (parseSdp body).isSome = true)
    (hblock : ∀ raw ∈ getlines block, medium? raw ≠ some (str "audio")) :
    parseSdp (body ++ block) = parseSdp body ↔
      Keeps Setting.origin (str "-", 0, 0) (getlines body) (getlines block) ∧
      Keeps Setting.address (str "127.0.0.1") (getlines body) (getlines block) ∧
      Keeps Setting.ptime 20 (getlines body) (getlines block) ∧
      Keeps Setting.event (-1) (getlines body) (getlines block) := by
  have hscan : scanSdp (body ++ block) = (getlines block).foldl SdpScan.line (scanSdp body) := by
    rw [scanSdp, getlines_append hend, List.foldl_append]
    rfl
  obtain ⟨haudio, hport, htypes⟩ := foldl_line_audio hblock (scanSdp body)
  have haccepted : ((scanSdp body).haveAudio &&
      !(scanSdp body).session.payloadTypes.isEmpty) = true := by
    rw [parseSdp_eq] at hbody
    by_contra hrejected
    rw [if_neg hrejected] at hbody
    cases hbody
  rw [← hscan] at haudio hport htypes
  rw [parseSdp_eq, parseSdp_eq, haudio, htypes, if_pos haccepted, if_pos haccepted,
    Option.some.injEq, session_eq_iff hport htypes, hscan]
  refine and_congr ?_ (and_congr ?_ (and_congr ?_ ?_))
  · apply foldl_line_eq_iff fun a =>
      (a.session.username, a.session.sessionId, a.session.sessionVersion)
    intro a x
    cases hx : x.origin <;> simp [SdpScan.set, hx]
  · exact foldl_line_eq_iff (fun a => a.session.connectionAddress) (fun _ _ => rfl) _ _
  · exact foldl_line_eq_iff (fun a => a.session.ptimeMs) (fun _ _ => rfl) _ _
  · exact foldl_line_eq_iff (fun a => a.session.dtmfPayloadType) (fun _ _ => rfl) _ _

/-- A body with one audio line. -/
def audioBody : Str := str "c=IN IP4 a\nm=audio 1 RTP/AVP 0\n"

/-- A video section that sets nothing changes nothing. -/
theorem parseSdp_section_iff_plain :
    parseSdp (audioBody ++ str "m=video 2 RTP/AVP 9\na=sendrecv\n") = parseSdp audioBody :=
  (parseSdp_section_iff audioBody (str "m=video 2 RTP/AVP 9\na=sendrecv\n") rfl rfl
    (by decide)).mpr ⟨keeps_of_none rfl, keeps_of_none rfl, keeps_of_none rfl, keeps_of_none rfl⟩

/-- The address of a video section becomes the audio address. -/
theorem parseSdp_video_address :
    audioBody.getLast? = some (ch '\n') ∧
    (getlines (str "m=video 2 RTP/AVP 9\nc=IN IP4 b\n")).map medium? =
      [some (str "video"), none] ∧
    (parseSdp audioBody).map SdpSession.connectionAddress = some (str "a") ∧
    (parseSdp (audioBody ++ str "m=video 2 RTP/AVP 9\nc=IN IP4 b\n")).map
      SdpSession.connectionAddress = some (str "b") :=
  ⟨rfl, rfl, rfl, rfl⟩

end SipDemo
