import SipDemo.Framing
import SipDemo.SipMessage

/-!
# SipDemo.SipParser

`SipParser.cpp`: the message parser `parseSip` and the header-value helpers the
user agent server rests on, `headerParam` and `parseCSeq`.  The source scans by
index; the model scans the suffix that starts at the index.
-/

namespace SipDemo

/-! ## messages -/

/-- `splitLines`: `rest` is what follows `pos`, and `left` is how far `pos` is
from `headerEnd`. -/
def splitLines (rest : Str) (left : Nat) : List Str :=
  if left = 0 then []
  else
    let nl := match find crlf rest with
      | some k => if left < k then left else k
      | none => left
    rest.take nl :: splitLines (rest.drop (nl + 2)) (left - (nl + 2))
termination_by left

/-- `SIP/2.0 200 OK`: the code is the three digits between the first space and
the second, or the end. -/
def parseStatusLine (start : Str) : Option SipMessage :=
  match start.dropWhile fun c => c ≠ ch ' ' with
  | [] => none
  | _ :: rest =>
      let code := rest.takeWhile fun c => c ≠ ch ' '
      if code.length ≠ 3 ∨ !code.all isdigit then none
      else some
        { isRequest := false
          version := start.takeWhile fun c => c ≠ ch ' '
          statusCode := atoi code
          reasonPhrase := trim ((rest.dropWhile fun c => c ≠ ch ' ').drop 1) }

/-- `INVITE sip:bob@host SIP/2.0`: the URI is what stands between the first
space and the last. -/
def parseRequestLine (start : Str) : Option SipMessage :=
  match start.dropWhile fun c => c ≠ ch ' ' with
  | [] => none
  | _ :: rest =>
      -- `sp2 == sp1`: the first space is the last
      if ch ' ' ∉ rest then none
      else
        let method := start.takeWhile fun c => c ≠ ch ' '
        let requestUri := trim (rest.rdropWhile fun c => c ≠ ch ' ').dropLast
        let version := trim (rest.rtakeWhile fun c => c ≠ ch ' ')
        if method = [] ∨ requestUri = [] then none
        else if (str "SIP/").isPrefixOf version then some { method, requestUri, version }
        else none

/-- The start line. -/
def parseStartLine (start : Str) : Option SipMessage :=
  if start = [] then none
  else if (str "SIP/").isPrefixOf start then parseStatusLine start
  else parseRequestLine start

/-- A line that continues the header before it. -/
def isFolded (line : Str) : Bool := line.head? = some (ch ' ') || line.head? = some 9

/-- `trim(line.substr(0, colon))`. -/
def headerName (line : Str) : Str := trim (line.takeWhile fun c => c ≠ ch ':')

/-- `trim(line.substr(colon + 1))`. -/
def headerValue (line : Str) : Str := trim ((line.dropWhile fun c => c ≠ ch ':').drop 1)

/-- One iteration of the header loop. -/
def headerLine (headers : List (Str × Str)) (line : Str) : Option (List (Str × Str)) :=
  if line = [] then none
  else if isFolded line then
    match headers.getLast? with
    | none => none
    | some (name, value) => some (headers.dropLast ++ [(name, value ++ str " " ++ trim line)])
  else if ch ':' ∉ line then none
  else if headerName line = [] then none
  else some (headers ++ [(headerName line, headerValue line)])

/-- The body, cut to the declared Content-Length. -/
def takeBody (msg : SipMessage) (body : Str) : Option SipMessage :=
  match msg.get (str "Content-Length") with
  | none => some { msg with body }
  | some cl =>
      match strtol cl with
      | none => none
      | some declared =>
          if declared < 0 then none
          else if body.length < declared.toNat then none
          else some { msg with body := body.take declared.toNat }

/-- `parseSip`. -/
def parseSip (raw : Str) : Option SipMessage := do
  let headerEnd ← find (crlf ++ crlf) raw
  match splitLines raw headerEnd with
  | [] => none
  | start :: lines =>
      let msg ← parseStartLine start
      let headers ← lines.foldlM headerLine []
      takeBody { msg with headers } (raw.drop (headerEnd + 4))

/-! ## header values -/

/-- The bytes that end a parameter name: `=` and `;`. -/
def paramDelim (c : UInt8) : Bool := c = ch '=' || c = ch ';'

/-- The value of a parameter whose name starts at the front: empty when the
name is ended by `;` or by the end of the header (a flag parameter). -/
def paramValue (rest : Str) : Str :=
  match rest.dropWhile fun c => !paramDelim c with
  | c :: value => if c = ch '=' then trim (value.takeWhile fun c => c ≠ ch ';') else []
  | [] => []

/-- `headerParam`: scan for `;param`, honouring the token boundary, so that
`tag` is not found in `xtag`. -/
def headerParam (headerValue paramName : Str) : Option Str :=
  match headerValue with
  | [] => none
  | c :: rest =>
      if c = ch ';' && iequals (trim (rest.takeWhile fun c => !paramDelim c)) paramName then
        some (paramValue rest)
      else headerParam rest paramName

/-- A parsed CSeq value (`42 INVITE`). -/
structure CSeq where
  number : Int
  method : Str
  deriving DecidableEq, Repr

/-- `parseCSeq`: the number is whatever `strtol` reads at the front, and
everything after the first space, trimmed, is the method. -/
def parseCSeq (value : Str) : Option CSeq :=
  let v := trim value
  match v.dropWhile fun c => c ≠ ch ' ' with
  | [] => none
  | _ :: rest =>
      match strtol v with
      | none => none
      | some number =>
          let method := trim rest
          if method = [] then none else some { number, method }

example : parseCSeq (str "314159 INVITE") = some ⟨314159, str "INVITE"⟩ := by decide

end SipDemo
