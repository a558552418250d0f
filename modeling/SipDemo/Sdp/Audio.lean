import SipDemo.Bytes.Numerals
import SipDemo.Sdp.Sections

/-!
# SipDemo.Sdp.Audio

The audio lines of an SDP body and the numerals in them.

`parseSdp` takes its port from the last audio line and its payload types from
all of them (`parseSdp_eq_audio`), each through `atoi`, which has a value for
every token.  `AudioLine.WellFormed` is what the tokens of such a line should
be; `parseSdp` never looks, so the values stand for the tokens exactly when the
sender saw to it (`numerals_iff`).
-/

namespace SipDemo

/-- The port token and the format tokens of an audio line. -/
structure AudioLine where
  port : Str
  formats : List Str
  formats_ne_nil : formats ≠ []

/-- An `m=audio` line with four tokens or more. -/
def audioLine? (raw : Str) : Option AudioLine :=
  match trim raw with
  | type :: eq :: val =>
      if type = ch 'm' ∧ eq = ch '=' then
        match tokenize val with
        | kind :: port :: _ :: pt :: pts =>
            if kind = str "audio" then
              some { port, formats := pt :: pts, formats_ne_nil := List.cons_ne_nil pt pts }
            else none
        | _ => none
      else none
  | _ => none

/-- The audio lines of a body, in order. -/
def audioLines (body : Str) : List AudioLine := (getlines body).filterMap audioLine?

/-- A decimal numeral up to `bound`. -/
def Numeral (bound : Nat) (s : Str) : Prop := isDecimal s = true ∧ digitsValue s ≤ bound

/-- A port numeral, and after it nothing or a slash and digits. -/
def PortNumeral (s : Str) : Prop :=
  Numeral 65535 (s.takeWhile isdigit) ∧
    (s.dropWhile isdigit = [] ∨ ∃ count, s.dropWhile isdigit = ch '/' :: count ∧
      isDecimal count = true)

namespace AudioLine

structure WellFormed (l : AudioLine) : Prop where
  port : PortNumeral l.port
  formats : ∀ f ∈ l.formats, Numeral 127 f

/-- The port that the line names. -/
def portValue (l : AudioLine) : Nat := digitsValue (l.port.takeWhile isdigit)

/-- The payload types that the line names. -/
def formatValues (l : AudioLine) : List Int := l.formats.map fun f => (digitsValue f : Int)

/-- What `parseSdp` makes of the port token. -/
def parsedPort (l : AudioLine) : UInt16 := UInt16.ofInt (atoi l.port)

variable {l : AudioLine}

theorem WellFormed.parsedPort_eq (h : l.WellFormed) : l.parsedPort.toNat = l.portValue := by
  obtain ⟨⟨hdecimal, hbound⟩, hrest⟩ := h.port
  obtain ⟨hne, hdigits⟩ := isDecimal_iff.mp hdecimal
  have hatoi : atoi l.port = l.portValue := by
    conv_lhs => rw [← List.takeWhile_append_dropWhile (p := isdigit) (l := l.port)]
    exact atoi_front hdigits hne (head?_dropWhile_eq_false isdigit l.port) (by omega)
  have hport : l.portValue ≤ 65535 := hbound
  rw [parsedPort, hatoi, UInt16.ofInt, UInt16.toNat_ofNat']
  omega

theorem WellFormed.formats_eq (h : l.WellFormed) : l.formats.map atoi = l.formatValues := by
  apply List.map_congr_left
  intro f hf
  obtain ⟨hdecimal, hbound⟩ := h.formats f hf
  obtain ⟨hne, hdigits⟩ := isDecimal_iff.mp hdecimal
  exact atoi_digits hdigits hne (by omega)

end AudioLine

/-! ## the audio fields of a session -/

/-- An audio line, and no other, sets the audio fields. -/
theorem setting_audio (raw : Str) :
    (setting raw).audio = (audioLine? raw).map fun l => (l.parsedPort, l.formats.map atoi) := by
  unfold setting audioLine? mediaSetting
  generalize trim raw = text
  rcases text with _ | ⟨type, _ | ⟨eq, val⟩⟩
  · rfl
  · rfl
  · dsimp only
    by_cases heq : eq = ch '='
    · by_cases hm : type = ch 'm'
      · subst hm
        rw [if_pos heq, if_neg (by decide), if_neg (by decide), if_pos rfl, if_pos ⟨rfl, heq⟩]
        rcases tokenize val with _ | ⟨kind, _ | ⟨port, _ | ⟨proto, _ | ⟨pt, pts⟩⟩⟩⟩
        · rfl
        · rfl
        · rfl
        · rfl
        · dsimp only
          by_cases haudio : kind = str "audio" <;> simp [haudio, AudioLine.parsedPort]
      · rw [if_pos heq, if_neg (c := type = ch 'm' ∧ eq = ch '=') fun h => hm h.1]
        grind [originSetting_audio, connectionSetting_audio, attributeSetting_audio]
    · rw [if_neg heq, if_neg fun h => heq h.2]
      rfl

/-- The payload types of all audio lines are kept, in order. -/
theorem foldl_line_types (lines : List Str) (a : SdpScan) :
    (lines.foldl SdpScan.line a).session.payloadTypes = a.session.payloadTypes ++
        (lines.filterMap audioLine?).flatMap (fun l => l.formats.map atoi) ∧
      (lines.foldl SdpScan.line a).haveAudio =
        (a.haveAudio || !(lines.filterMap audioLine?).isEmpty) := by
  induction lines generalizing a with
  | nil => simp
  | cons raw lines ih =>
      obtain ⟨htypes, haudio⟩ := ih (a.line raw)
      have hset := setting_audio raw
      rw [List.foldl_cons, htypes, haudio, SdpScan.line_eq_set, List.filterMap_cons]
      cases hline : audioLine? raw <;> simp [SdpScan.set, hset, hline]

/-- The port is that of the last audio line. -/
theorem scanSdp_port (body : Str) :
    (scanSdp body).session.audioPort =
      ((audioLines body).getLast?.map AudioLine.parsedPort).getD 0 := by
  have hset (a : SdpScan) (x : Setting) : (a.set x).session.audioPort =
      (x.audio.map fun m => m.1).getD a.session.audioPort := rfl
  have hport (raw : Str) : (setting raw).audio.map (fun m => m.1) =
      (audioLine? raw).map AudioLine.parsedPort := by
    rw [setting_audio, Option.map_map]
    rfl
  rw [scanSdp, foldl_line (fun a => a.session.audioPort) hset, lastSet_eq hport, audioLines]

/-- **Accepted bodies** are those with an audio line; its session has the port
of the last and the payload types of all of them. -/
theorem parseSdp_eq_audio (body : Str) :
    parseSdp body = if audioLines body = [] then none else some (scanSdp body).session := by
  obtain ⟨htypes, haudio⟩ := foldl_line_types (getlines body) {}
  change (scanSdp body).session.payloadTypes = [] ++
    (audioLines body).flatMap (fun l => l.formats.map atoi) at htypes
  change (scanSdp body).haveAudio = (false || !(audioLines body).isEmpty) at haudio
  rw [parseSdp_eq, haudio, htypes]
  cases audioLines body with
  | nil => rfl
  | cons l ls =>
      have hne := l.formats_ne_nil
      simp [hne]

/-! ## numerals -/

/-- What is negotiated is what the audio lines name: if the body is accepted,
the tokens are numerals and the session has their values. -/
def NumeralsKept (body : Str) : Prop :=
  ∀ s, parseSdp body = some s →
    (∀ l ∈ audioLines body, l.WellFormed) ∧
      (∀ l ∈ (audioLines body).getLast?, s.audioPort.toNat = l.portValue) ∧
      s.payloadTypes = (audioLines body).flatMap AudioLine.formatValues

/-- **Numerals are not checked**: the session has the values that the audio
lines name if and only if the sender wrote every port and every format of them
as a numeral in its range. -/
theorem numerals_iff (body : Str) :
    NumeralsKept body ↔ ∀ l ∈ audioLines body, l.WellFormed := by
  have htypes := (foldl_line_types (getlines body) {}).1
  change (scanSdp body).session.payloadTypes = [] ++
    (audioLines body).flatMap (fun l => l.formats.map atoi) at htypes
  have hport := scanSdp_port body
  unfold NumeralsKept
  rw [parseSdp_eq_audio]
  by_cases hnone : audioLines body = []
  · simp [hnone]
  rw [if_neg hnone]
  constructor
  · intro h
    exact (h _ rfl).1
  · rintro hwf s hs
    obtain rfl := Option.some.inj hs
    refine ⟨hwf, ?_, ?_⟩
    · intro l hl
      rw [hport, hl]
      exact (hwf l (List.mem_of_getLast? hl)).parsedPort_eq
    · rw [htypes, List.nil_append]
      apply List.flatMap_congr
      intro l hl
      exact (hwf l hl).formats_eq

/-- No port and no format, and PCMU is offered on port 0. -/
theorem numerals_garbled :
    (parseSdp (str "m=audio abc RTP/AVP x\n")).map (fun s =>
        (s.audioPort, s.payloadTypes, s.offersPcmu)) = some (0, [0], true) ∧
      ¬ NumeralsKept (str "m=audio abc RTP/AVP x\n") := by
  refine ⟨rfl, fun h => ?_⟩
  have hport := ((h _ rfl).1 _ List.mem_cons_self).port.1.1
  exact absurd hport (by decide)

end SipDemo
