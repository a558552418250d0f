import Mathlib.Data.Stream.Init
import SipDemo.Run
import SipDemo.SipParser
import SipDemo.Sdp

/-!
# SipDemo.SipUas

The user agent server (`SipUas.h`, `SipUas.cpp`): one request in, the responses
to send and a media event out.  The fields of the class fall into two groups,
kept apart here so that "the dialog is unchanged" is one equation:

* `Dialog` — the active dialog state (single call);
* `Tags` — what `newTag` reads: the forced test tag, the counter, and the
  values the random engine is still going to return.

`handle` is the source's `handle`, cut at the comments that divide it.
-/

namespace SipDemo

/-- A transport address. -/
structure Endpoint where
  ip : Str := []
  port : UInt16 := 0
  deriving DecidableEq, Repr

/-- `SipUas::Config`. -/
structure UasConfig where
  localIp : Str := str "127.0.0.1"
  sipPort : UInt16 := 5060
  rtpPort : UInt16 := 40000
  userAgent : Str := str "sipdemo/0.1"
  deriving DecidableEq, Repr

/-- `SipUas::MediaAction`. -/
inductive MediaAction where
  | none
  | start
  | stop
  deriving DecidableEq, Repr

/-- `SipUas::Result`. -/
structure UasResult where
  responses : List SipMessage := []
  media : MediaAction := .none
  remoteRtp : Endpoint := {}
  payloadType : Int := -1
  dtmfPayloadType : Int := -1
  deriving DecidableEq, Repr

/-- The active dialog state. -/
structure Dialog where
  haveDialog : Bool := false
  callId : Str := []
  localTag : Str := []
  inviteCSeq : Int := -1
  lastInvite : SipMessage := {}
  last2xxInvite : SipMessage := {}
  answered : Bool := false
  deriving DecidableEq, Repr

/-- The inputs of `newTag`; `rng` holds the values `rng()` will return. -/
structure Tags where
  forcedTag : Str := []
  tagCounter : UInt32 := 0
  rng : Stream' UInt32

/-- `class SipUas`. -/
structure SipUas extends Dialog, Tags where
  cfg : UasConfig

/-- `reasonFor`. -/
def reasonFor (code : Int) : Str :=
  if code = 100 then str "Trying"
  else if code = 180 then str "Ringing"
  else if code = 200 then str "OK"
  else if code = 400 then str "Bad Request"
  else if code = 415 then str "Unsupported Media Type"
  else if code = 481 then str "Call/Transaction Does Not Exist"
  else if code = 486 then str "Busy Here"
  else if code = 487 then str "Request Terminated"
  else if code = 488 then str "Not Acceptable Here"
  else if code = 500 then str "Server Internal Error"
  else str "OK"

/-- The value of the `Allow` header. -/
def allowedMethods : Str := str "INVITE, ACK, BYE, CANCEL, OPTIONS"

/-- The number of a CSeq header value as `handle` reads it: -1 when `parseCSeq`
fails. -/
def cseqNumber (hdr : Str) : Int :=
  match parseCSeq hdr with
  | some c => c.number
  | none => -1

namespace SipUas

/-- The constructor, with `setTagForTest` applied (an empty tag is the
untouched state) and the values the random engine returns from then on. -/
def fresh (cfg : UasConfig) (forcedTag : Str) (rng : Stream' UInt32) : SipUas :=
  { cfg, forcedTag, rng }

/-- `inCall`. -/
def inCall (u : SipUas) : Bool := u.haveDialog

/-- `newTag`: the forced tag, or `sd`, a random value and the incremented
counter, both in hexadecimal. -/
def newTag (u : SipUas) : Str × SipUas :=
  if u.forcedTag ≠ [] then (u.forcedTag, u)
  else
    let u' := { u with rng := u.rng.tail, tagCounter := u.tagCounter + 1 }
    (str "sd" ++ hexStr u.rng.head.toNat ++ hexStr u'.tagCounter.toNat, u')

/-- The To value of a response: our tag is added unless the request carried one
or the response is a 100. -/
def toValue (u : SipUas) (toHdr : Str) (code : Int) : Str × SipUas :=
  if (headerParam toHdr (str "tag")).isNone ∧ 100 < code then
    let (tag, u) := if u.localTag = [] then u.newTag else (u.localTag, u)
    (toHdr ++ str ";tag=" ++ tag, u)
  else (toHdr, u)

/-- `if (auto v = req.get(name)) resp.set(name, *v);` -/
def echo (req : SipMessage) (name : Str) (resp : SipMessage) : SipMessage :=
  match req.get name with
  | some v => resp.set name v
  | none => resp

/-- The start of `makeResponse`: the status line and the Via stack, top to
bottom. -/
def viaStack (req : SipMessage) (code : Int) (reason : Str) : SipMessage :=
  (req.getAll (str "Via")).foldl (fun r via => r.add (str "Via") via)
    { isRequest := false
      statusCode := code
      reasonPhrase := if reason = [] then reasonFor code else reason }

/-- The To header of a response, if the request has one. -/
def setTo (u : SipUas) (req : SipMessage) (code : Int) (resp : SipMessage) :
    SipMessage × SipUas :=
  match req.get (str "To") with
  | some toHdr =>
      let (toVal, u) := u.toValue toHdr code
      (resp.set (str "To") toVal, u)
  | none => (resp, u)

/-- `makeResponse`: echo all Via values, From, To (with our tag), Call-ID and
CSeq. -/
def makeResponse (u : SipUas) (req : SipMessage) (code : Int) (reason : Str) :
    SipMessage × SipUas :=
  let resp := echo req (str "From") (viaStack req code reason)
  let (resp, u) := u.setTo req code resp
  let resp := echo req (str "CSeq") (echo req (str "Call-ID") resp)
  (resp.set (str "Server") u.cfg.userAgent, u)

/-! ## handle -/

/-- The exits that answer with one response and touch nothing else; `hdrs` are
set on the response. -/
def replyWith (u : SipUas) (req : SipMessage) (code : Int) (reason : Str)
    (hdrs : List (Str × Str)) : UasResult × SipUas :=
  let (resp, u) := u.makeResponse req code reason
  ({ responses := [hdrs.foldl (fun r h => r.set h.1 h.2) resp] }, u)

/-- "New call: set up dialog state." -/
def openDialog (u : SipUas) (req : SipMessage) (cid : Str) (cseqNum : Int) : SipUas :=
  let u := { u with haveDialog := true, answered := false, callId := cid, inviteCSeq := cseqNum }
  let (tag, u) := u.newTag
  { u with localTag := tag, lastInvite := req }

/-- The 200 of an INVITE: Contact and our SDP answer are added. -/
def okInvite (u : SipUas) (req : SipMessage) (answer : SdpSession) : SipMessage × SipUas :=
  let (ok, u) := u.makeResponse req 200 (str "OK")
  let ok := ok.set (str "Contact")
    (str "<sip:" ++ u.cfg.localIp ++ str ":" ++ natStr u.cfg.sipPort.toNat ++ str ">")
  let ok := ok.set (str "Content-Type") (str "application/sdp")
  ({ ok with body := answer.generate }, u)

/-- The new-call path of an INVITE: provisional responses, SDP negotiation and
the final response. -/
def newCall (u : SipUas) (req : SipMessage) (cid : Str) (cseqNum : Int) : UasResult × SipUas :=
  let u := u.openDialog req cid cseqNum
  let (trying, u) := u.makeResponse req 100 []
  let (ringing, u) := u.makeResponse req 180 []
  match parseSdp req.body with
  | none =>
      let (resp, u) := u.makeResponse req 400 (str "Bad Request (SDP)")
      ({ responses := [trying, ringing, resp] }, { u with haveDialog := false })
  | some offer =>
      match makeAnswer offer u.cfg.localIp u.cfg.rtpPort with
      | none =>
          let (resp, u) := u.makeResponse req 488 []
          ({ responses := [trying, ringing, resp] }, { u with haveDialog := false })
      | some answer =>
          let (ok, u) := u.okInvite req answer
          ({ responses := [trying, ringing, ok]
             media := .start
             remoteRtp := { ip := offer.connectionAddress, port := offer.audioPort }
             -- `payloadTypes.front()`: the list of an answer is never empty
             payloadType := answer.payloadTypes.headD (-1)
             dtmfPayloadType := answer.dtmfPayloadType },
            { u with last2xxInvite := ok, answered := true })

/-- `handle`, INVITE. -/
def handleInvite (u : SipUas) (req : SipMessage) : UasResult × SipUas :=
  match req.get (str "Call-ID"), req.get (str "CSeq") with
  | some cid, some cseqHdr =>
      let cseqNum := cseqNumber cseqHdr
      -- Retransmitted INVITE for the call we already answered.
      if u.haveDialog ∧ cid = u.callId ∧ cseqNum = u.inviteCSeq then
        ({ responses := if u.answered then [u.last2xxInvite] else [] }, u)
      -- Busy: we only host one call at a time.
      else if u.haveDialog ∧ cid ≠ u.callId then u.replyWith req 486 [] []
      else u.newCall req cid cseqNum
  | _, _ => u.replyWith req 400 [] []

/-- `handle`, CANCEL: a 487 for the INVITE if it is still pending. -/
def handleCancel (u : SipUas) (req : SipMessage) : UasResult × SipUas :=
  let (resp, u) := u.makeResponse req 200 (str "OK")
  if u.haveDialog ∧ req.get (str "Call-ID") = some u.callId ∧ !u.answered then
    let (term, u) := u.makeResponse u.lastInvite 487 []
    ({ responses := [resp, term], media := .stop }, { u with haveDialog := false })
  else ({ responses := [resp] }, u)

/-- `handle`, BYE. -/
def handleBye (u : SipUas) (req : SipMessage) : UasResult × SipUas :=
  if u.haveDialog ∧ req.get (str "Call-ID") = some u.callId then
    let (resp, u) := u.makeResponse req 200 (str "OK")
    ({ responses := [resp], media := .stop }, { u with haveDialog := false, answered := false })
  else u.replyWith req 481 [] []

/-- `handle`: process one inbound message. -/
def handle (u : SipUas) (req : SipMessage) : UasResult × SipUas :=
  if !req.isRequest then ({}, u)
  else if req.method = str "OPTIONS" then
    u.replyWith req 200 (str "OK")
      [(str "Allow", allowedMethods), (str "Accept", str "application/sdp")]
  else if req.method = str "INVITE" then u.handleInvite req
  else if req.method = str "ACK" then ({}, u)
  else if req.method = str "CANCEL" then u.handleCancel req
  else if req.method = str "BYE" then u.handleBye req
  else u.replyWith req 405 (str "Method Not Allowed") [(str "Allow", allowedMethods)]

/-- The state `handle` leaves. -/
def next (u : SipUas) (req : SipMessage) : SipUas := (u.handle req).2

/-- The states reachable from a new `SipUas` by any sequence of messages. -/
def Reachable : SipUas → Prop :=
  Run.Reachable next fun u => ∃ cfg forcedTag rng, u = fresh cfg forcedTag rng

end SipUas

end SipDemo
