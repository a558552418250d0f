import SipDemo.Bytes

/-!
# SipDemo.Sdp

The audio-only SDP session description (`Sdp.h`, `Sdp.cpp`): the line-by-line
parser, the offer/answer step and the generator.
-/

namespace SipDemo

/-- An audio-only session description. -/
structure SdpSession where
  username : Str := str "-"
  sessionId : UInt64 := 0
  sessionVersion : UInt64 := 0
  connectionAddress : Str := str "127.0.0.1"
  audioPort : UInt16 := 0
  payloadTypes : List Int := []
  ptimeMs : Int := 20
  dtmfPayloadType : Int := -1
  deriving DecidableEq, Repr

/-! ## splitting text -/

/-- The `std::getline` loop: pieces between newlines, without an empty piece
after a final newline. -/
def getlines (text : Str) : List Str :=
  match text with
  | [] => []
  | c :: rest =>
      if c = ch '\n' then [] :: getlines rest
      else match getlines rest with
        | [] => [[c]]
        | line :: lines => (c :: line) :: lines

/-- `tokenize`: the maximal runs of non-space bytes (`iss >> tok`).  `tok` is
the token being read. -/
def tokenizeFrom (tok : Str) : Str → List Str
  | [] => if tok = [] then [] else [tok]
  | c :: rest =>
      if isspace c then
        if tok = [] then tokenizeFrom [] rest else tok :: tokenizeFrom [] rest
      else tokenizeFrom (tok ++ [c]) rest

/-- `tokenize`. -/
def tokenize (s : Str) : List Str := tokenizeFrom [] s

/-- `s.compare(0, p.size(), p) == 0`, and what follows the prefix. -/
def afterPrefix? (p s : Str) : Option Str := if p.isPrefixOf s then some (s.drop p.length) else none

/-- `parseRtpmap`: `rtpmap:<pt> <name>/<rate>` gives the payload type and the
lower-cased encoding name. -/
def parseRtpmap (val : Str) : Option (Int × Str) :=
  match afterPrefix? (str "rtpmap:") val with
  | none => none
  | some rest =>
      match rest.dropWhile fun c => c ≠ ch ' ' with
      | [] => none
      | _ :: nameRate =>
          some (atoi (rest.takeWhile fun c => c ≠ ch ' '),
            toLower (nameRate.takeWhile fun c => c ≠ ch '/'))

/-! ## parsing -/

/-- The locals of `parseSdp`. -/
structure SdpScan where
  session : SdpSession := {}
  haveAudio : Bool := false
  haveConnection : Bool := false
  deriving DecidableEq, Repr

namespace SdpScan

/-- `case 'o'`: the address is a fallback, a `c=` line wins if it comes later. -/
def originLine (a : SdpScan) (val : Str) : SdpScan :=
  match tokenize val with
  | user :: id :: version :: _ :: _ :: addr :: _ =>
      { a with session := { a.session with
          username := user
          sessionId := strtoull id
          sessionVersion := strtoull version
          connectionAddress := addr } }
  | _ => a

/-- `case 'c'`: `IN IP4 <addr>`. -/
def connectionLine (a : SdpScan) (val : Str) : SdpScan :=
  match tokenize val with
  | _ :: _ :: addr :: _ =>
      { a with session := { a.session with connectionAddress := addr }, haveConnection := true }
  | _ => a

/-- `case 'm'`: `audio <port> RTP/AVP <pt>...`; the payload types of a second
audio line are appended. -/
def mediaLine (a : SdpScan) (val : Str) : SdpScan :=
  match tokenize val with
  | kind :: port :: _ :: pt :: pts =>
      if kind = str "audio" then
        { a with
          session := { a.session with
            audioPort := UInt16.ofInt (atoi port)
            payloadTypes := a.session.payloadTypes ++ (pt :: pts).map atoi }
          haveAudio := true }
      else a
  | _ => a

/-- `case 'a'`: `ptime:` and the telephone-event `rtpmap:`. -/
def attributeLine (a : SdpScan) (val : Str) : SdpScan :=
  match afterPrefix? (str "ptime:") val with
  | some ms => { a with session := { a.session with ptimeMs := atoi ms } }
  | none =>
      match parseRtpmap val with
      | some (pt, name) =>
          if name = str "telephone-event" then
            { a with session := { a.session with dtmfPayloadType := pt } }
          else a
      | none => a

/-- One iteration of the `getline` loop: a line is `<type>=<value>` once
trimmed, or skipped. -/
def line (a : SdpScan) (raw : Str) : SdpScan :=
  match trim raw with
  | type :: eq :: val =>
      if eq = ch '=' then
        if type = ch 'o' then a.originLine val
        else if type = ch 'c' then a.connectionLine val
        else if type = ch 'm' then a.mediaLine val
        else if type = ch 'a' then a.attributeLine val
        else a
      else a
  | _ => a

end SdpScan

/-- `parseSdp`. -/
def parseSdp (body : Str) : Option SdpSession :=
  let a := (getlines body).foldl SdpScan.line {}
  if !a.haveAudio || a.session.payloadTypes.isEmpty then none
  else if !a.haveConnection && a.session.connectionAddress.isEmpty then none
  else some a.session

/-! ## the offer/answer step -/

namespace SdpSession

/-- `offersPcmu`: payload type 0. -/
def offersPcmu (s : SdpSession) : Bool := s.payloadTypes.contains 0

/-- `offersPcma`: payload type 8. -/
def offersPcma (s : SdpSession) : Bool := s.payloadTypes.contains 8

end SdpSession

/-- `makeAnswer`: PCMU if offered, else PCMA, else no answer; an advertised
telephone-event payload type is answered too. -/
def makeAnswer (offer : SdpSession) (localAddr : Str) (localPort : UInt16) : Option SdpSession :=
  let chosen : Int := if offer.offersPcmu then 0 else if offer.offersPcma then 8 else -1
  if chosen < 0 then none
  else
    let ans : SdpSession :=
      { username := str "sipdemo"
        sessionId := if offer.sessionId ≠ 0 then offer.sessionId else 1
        sessionVersion := 1
        connectionAddress := localAddr
        audioPort := localPort
        payloadTypes := [chosen]
        ptimeMs := if offer.ptimeMs > 0 then offer.ptimeMs else 20 }
    if 0 ≤ offer.dtmfPayloadType then
      some { ans with
        dtmfPayloadType := offer.dtmfPayloadType
        payloadTypes := ans.payloadTypes ++ [offer.dtmfPayloadType] }
    else some ans

/-! ## generating -/

/-- The `a=rtpmap` lines of one payload type (none for an unknown one). -/
def rtpmapLines (dtmfPayloadType pt : Int) : Str :=
  if pt = 0 then str "a=rtpmap:0 PCMU/8000" ++ crlf
  else if pt = 8 then str "a=rtpmap:8 PCMA/8000" ++ crlf
  else if pt = dtmfPayloadType ∧ 0 ≤ dtmfPayloadType then
    str "a=rtpmap:" ++ intStr pt ++ str " telephone-event/8000" ++ crlf ++
      str "a=fmtp:" ++ intStr pt ++ str " 0-15" ++ crlf
  else []

/-- `SdpSession::generate`. -/
def SdpSession.generate (s : SdpSession) : Str :=
  str "v=0" ++ crlf ++
  str "o=" ++ s.username ++ str " " ++ natStr s.sessionId.toNat ++ str " " ++
    natStr s.sessionVersion.toNat ++ str " IN IP4 " ++ s.connectionAddress ++ crlf ++
  str "s=sipdemo" ++ crlf ++
  str "c=IN IP4 " ++ s.connectionAddress ++ crlf ++
  str "t=0 0" ++ crlf ++
  str "m=audio " ++ natStr s.audioPort.toNat ++ str " RTP/AVP" ++
    s.payloadTypes.flatMap (fun pt => str " " ++ intStr pt) ++ crlf ++
  s.payloadTypes.flatMap (rtpmapLines s.dtmfPayloadType) ++
  str "a=ptime:" ++ intStr s.ptimeMs ++ crlf ++
  str "a=sendrecv" ++ crlf

end SipDemo
