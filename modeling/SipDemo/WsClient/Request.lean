import SipDemo.Base64
import SipDemo.SipParser.RoundTrip
import SipDemo.WsClient.Handshake

/-!
# SipDemo.WsClient.Request

The upgrade request, as the server reads it.  A URL is taken apart as it was put
together (`parseWsUrl_text`), the key is the base64 text of the bytes that were
drawn (`randomWsKey_eq`), and the text `connect` sends is one HTTP request with
nothing behind it (`readRequest_upgradeRequest`).  `upgrade_read` puts the three
together.
-/

namespace SipDemo

/-! ## reading a request -/

/-- A request as an HTTP server reads it, and what follows its empty line. -/
structure HttpRequest where
  method : Str
  target : Str
  version : Str
  headers : List (Str × Str)
  rest : Str
  deriving DecidableEq, Repr

/-- What a server makes of the bytes, stated apart from the client: three words,
then headers as in a SIP message, up to the empty line. -/
def readRequest (s : Str) : Option HttpRequest :=
  (find (crlf ++ crlf) s).bind fun k =>
    match splitLines s k with
    | [] => none
    | start :: lines =>
        (lines.foldlM headerLine []).bind fun headers =>
          match start.splitOn (ch ' ') with
          | [method, target, version] =>
              some { method, target, version, headers, rest := s.drop (k + 4) }
          | _ => none

/-- Neither blanks nor line ends. -/
def OneWord (s : Str) : Prop := ∀ c ∈ s, ws c = false

instance (s : Str) : Decidable (OneWord s) :=
  decidable_of_iff (s.all (!ws ·) = true) (by simp [OneWord])

theorem OneWord.not_mem {s : Str} (h : OneWord s) {c : UInt8} (hc : ws c = true := by decide) :
    c ∉ s := by
  intro hmem
  rw [h c hmem] at hc
  cases hc

theorem OneWord.oneLine {s : Str} (h : OneWord s) : OneLine s := oneLine_of_no_cr h.not_mem

theorem OneWord.trimmed {s : Str} (h : OneWord s) : Trimmed s :=
  ⟨fun c hc => h c (List.mem_of_mem_head? hc), fun c hc => h c (List.mem_of_getLast? hc)⟩

theorem OneWord.append {s t : Str} (hs : OneWord s) (ht : OneWord t) : OneWord (s ++ t) :=
  fun c hc => (List.mem_append.mp hc).elim (hs c) (ht c)

theorem oneWord_natStr (n : Nat) : OneWord (natStr n) := fun _ hc =>
  ws_of_not_isspace (isspace_of_isdigit (isdigit_of_mem_natStr hc))

open SipMessage (headerText headerText_oneLine foldlM_headerText)

/-- **What a server reads** of three words and headers that can be written. -/
theorem readRequest_frame {method target version : Str} {headers : List (Str × Str)}
    (hwords : ∀ w ∈ [method, target, version], OneWord w)
    (hheaders : ∀ h ∈ headers, SendableHeader h ∧ Trimmed h.2) (rest : Str) :
    readRequest (frame 13 10 ([ch ' '].intercalate [method, target, version] ::
        headers.map headerText) ++ 13 :: 10 :: rest) =
      some { method, target, version, headers, rest } := by
  have hstart : [ch ' '].intercalate [method, target, version] =
      method ++ ch ' ' :: (target ++ ch ' ' :: version) := by
    simp [List.intercalate]
  have honeLine : OneLine (method ++ ch ' ' :: (target ++ ch ' ' :: version)) :=
    (hwords method (by simp)).oneLine.append_cons
      ((hwords target (by simp)).oneLine.append_cons (hwords version (by simp)).oneLine)
  have hlines : ∀ l ∈ [ch ' '].intercalate [method, target, version] :: headers.map headerText,
      l ≠ [] ∧ OneLine l := by
    rw [List.forall_mem_cons, List.forall_mem_map, hstart]
    refine ⟨⟨by simp, honeLine⟩, ?_⟩
    intro h hh
    exact ⟨by simp [headerText], headerText_oneLine (hheaders h hh).1⟩
  have htrim : headers.map (fun h => (h.1, trim h.2)) = headers := by
    refine (List.map_congr_left fun h hh => ?_).trans (List.map_id headers)
    rw [(hheaders h hh).2.trim_eq]
    rfl
  have hsplit : ([ch ' '].intercalate [method, target, version]).splitOn (ch ' ') =
      [method, target, version] :=
    List.splitOn_intercalate _ (fun w hw => (hwords w hw).not_mem) (List.cons_ne_nil _ _)
  obtain ⟨k, hfind, hfound, hrest⟩ := lines_found (List.cons_ne_nil _ _) hlines rest
  rw [readRequest, hfind, Option.bind_some, hfound]
  simp only [foldlM_headerText (fun h hh => (hheaders h hh).1), List.nil_append, htrim,
    Option.bind_some, hsplit, hrest]

namespace WsClient

/-! ## the URL -/

/-- `ws://host[:port][path]`, in parts that can be told apart. -/
structure WsUrl where
  host : Str
  port : Option UInt16
  path : Str
  host_ne_nil : host ≠ []
  host_word : OneWord host
  host_plain : ∀ c ∈ host, c ∉ str "/:]"
  port_ne_zero : port ≠ some 0
  path_slash : ∀ c ∈ path.head?, c = ch '/'
  path_word : OneWord path

/-- The host, and the port when there is one. -/
def WsUrl.authority (u : WsUrl) : Str :=
  u.host ++ match u.port with
    | none => []
    | some port => ch ':' :: natStr port.toNat

def WsUrl.text (u : WsUrl) : Str := str "ws://" ++ (u.authority ++ u.path)

/-- Port 80 and the path `/` when the URL names none. -/
def WsUrl.parts (u : WsUrl) : UrlParts where
  host := u.host
  port := u.port.getD 80
  path := if u.path = [] then str "/" else u.path

theorem not_mem_natStr (n : Nat) {c : UInt8} (hc : isdigit c = false := by decide) :
    c ∉ natStr n := by
  intro hmem
  rw [isdigit_of_mem_natStr hmem] at hc
  cases hc

theorem WsUrl.not_mem_host (u : WsUrl) {c : UInt8} (hc : c ∈ str "/:]" := by decide) :
    c ∉ u.host := fun hmem => u.host_plain c hmem hc

theorem WsUrl.not_mem_authority (u : WsUrl) {c : UInt8} (hc : c ∈ str "/:]" := by decide)
    (hport : c ≠ ch ':' ∧ isdigit c = false := by decide) : c ∉ u.authority := by
  rw [authority, List.mem_append, not_or]
  refine ⟨u.not_mem_host hc, ?_⟩
  cases u.port with
  | none => exact List.not_mem_nil
  | some port =>
      rw [List.mem_cons, not_or]
      exact ⟨hport.1, not_mem_natStr port.toNat hport.2⟩

theorem WsUrl.port_parts_ne_zero (u : WsUrl) : u.parts.port ≠ 0 := by
  have hport := u.port_ne_zero
  cases h : u.port with
  | none => simp [parts, h]
  | some port => simpa [parts, h] using hport

/-- The path starts where the host and the port end. -/
theorem WsUrl.span_path (u : WsUrl) :
    (u.authority ++ u.path).takeWhile (fun c => c ≠ ch '/') = u.authority ∧
      (u.authority ++ u.path).dropWhile (fun c => c ≠ ch '/') = u.path := by
  cases hpath : u.path with
  | nil =>
      rw [List.append_nil]
      exact span_of_not_mem u.not_mem_authority
  | cons c path =>
      obtain rfl := u.path_slash c (by rw [hpath]; rfl)
      exact span_separator u.not_mem_authority path

/-- The host ends at the last colon, which is the one before the port. -/
theorem WsUrl.split_authority (u : WsUrl) (path : Str) :
    (if u.authority.contains (ch ':') && !u.authority.contains (ch ']') then
        { host := (u.authority.rdropWhile fun c => c ≠ ch ':').dropLast
          port := UInt16.ofInt (atoi (u.authority.rtakeWhile fun c => c ≠ ch ':')), path }
      else { host := u.authority, path } : UrlParts) =
      { host := u.host, port := u.port.getD 80, path } := by
  have hbracket : u.authority.contains (ch ']') = false := by
    simpa using u.not_mem_authority (c := ch ']')
  cases h : u.port with
  | none =>
      have hauthority : u.authority = u.host := by simp [authority, h]
      have hcolon : u.host.contains (ch ':') = false := by
        simpa using u.not_mem_host (c := ch ':')
      rw [hauthority, hcolon, Bool.false_and, if_neg Bool.false_ne_true]
      rfl
  | some port =>
      have hauthority : u.authority = u.host ++ ch ':' :: natStr port.toNat := by
        simp [authority, h]
      obtain ⟨htake, hdrop⟩ := rspan_separator (not_mem_natStr port.toNat (c := ch ':')) u.host
      have hcolon : u.authority.contains (ch ':') = true := by simp [hauthority]
      have hnumber : atoi (natStr port.toNat) = port.toNat :=
        atoi_natStr (port.toNat_lt.trans (by decide))
      have hport : UInt16.ofInt (port.toNat : Int) = port := by
        have hlt := port.toNat_lt
        rw [UInt16.ofInt, Int.emod_eq_of_lt (by omega) (by omega), Int.toNat_natCast,
          UInt16.ofNat_toNat]
      rw [hcolon, hbracket, hauthority, htake, hdrop, hnumber, hport, List.dropLast_concat]
      rfl

/-- **The URL comes back.** -/
theorem parseWsUrl_text (u : WsUrl) : parseWsUrl u.text = some u.parts := by
  obtain ⟨htake, hdrop⟩ := u.span_path
  have hprefix : (str "ws://").isPrefixOf u.text = true :=
    List.isPrefixOf_iff_prefix.mpr (List.prefix_append _ _)
  have hrest : u.text.drop (str "ws://").length = u.authority ++ u.path := List.drop_left
  have hsome : ¬(u.host = [] ∨ u.port.getD 80 = 0) :=
    not_or.mpr ⟨u.host_ne_nil, u.port_parts_ne_zero⟩
  simp only [parseWsUrl, hprefix, hrest, htake, hdrop, Bool.not_true, Bool.false_eq_true,
    if_false, u.split_authority, if_neg hsome]
  rfl

/-! ## the key -/

theorem b64_getD (d : Fin 64) : b64.getD d 0 = Base64.standard.symbol d := by
  revert d
  decide +kernel

theorem b64Digit_eq (n : UInt32) {shift : UInt32} (h : shift.toNat < 32) :
    b64Digit n shift = Base64.standard.low (n.toNat / 2 ^ shift.toNat) := by
  have hindex : ((n >>> shift) &&& 63).toNat = n.toNat / 2 ^ shift.toNat % 64 := by
    rw [UInt32.toNat_and, UInt32.toNat_shiftRight, Nat.mod_eq_of_lt h, Nat.shiftRight_eq_div_pow]
    exact Nat.and_two_pow_sub_one_eq_mod _ 6
  rw [b64Digit, hindex]
  exact b64_getD (Fin.ofNat 64 (n.toNat / 2 ^ shift.toNat))

/-- A digit of a number that is known. -/
theorem b64Digit_of_toNat {n : UInt32} {v k : Nat} (hv : n.toNat = v) {shift : UInt32}
    (hshift : shift.toNat < 32) (h : v / 2 ^ shift.toNat % 64 = k % 64) :
    b64Digit n shift = Base64.standard.low k := by
  rw [b64Digit_eq n hshift, hv]
  exact Base64.standard.low_congr h

/-- Three bytes in one number. -/
theorem toNat_three (x y z : UInt8) :
    ((x.toUInt32 <<< 16) ||| (y.toUInt32 <<< 8) ||| z.toUInt32).toNat =
      (x.toNat * 256 + y.toNat) * 256 + z.toNat := by
  have hx := x.toNat_lt
  have hy := y.toNat_lt
  have hfirst : x.toNat <<< 16 < 2 ^ 32 := by
    rw [Nat.shiftLeft_eq]
    omega
  have hsecond : y.toNat <<< 8 < 2 ^ 32 := by
    rw [Nat.shiftLeft_eq]
    omega
  have htwo : x.toNat <<< 16 ||| y.toNat <<< 8 = (x.toNat * 256 + y.toNat) <<< 8 := by
    rw [← BigEndian.shiftLeft_or, Nat.shiftLeft_or_distrib, ← Nat.shiftLeft_add]
  rw [UInt32.toNat_or, UInt32.toNat_or, UInt32.toNat_shiftLeft, UInt32.toNat_shiftLeft,
    UInt8.toNat_toUInt32, UInt8.toNat_toUInt32, UInt8.toNat_toUInt32]
  change x.toNat <<< 16 % 2 ^ 32 ||| y.toNat <<< 8 % 2 ^ 32 ||| z.toNat = _
  rw [Nat.mod_eq_of_lt hfirst, Nat.mod_eq_of_lt hsecond, htwo, BigEndian.shiftLeft_or]

/-- A group of three bytes is written as four digits. -/
theorem group_eq (x y z : UInt8) {n : UInt32}
    (hn : n = (x.toUInt32 <<< 16) ||| (y.toUInt32 <<< 8) ||| z.toUInt32) :
    [b64Digit n 18, b64Digit n 12, b64Digit n 6, b64Digit n 0] =
      Base64.standard.encode [x, y, z] := by
  have hvalue : n.toNat = (x.toNat * 256 + y.toNat) * 256 + z.toNat := by rw [hn, toNat_three]
  have hy := y.toNat_lt
  have hz := z.toNat_lt
  have hfirst : b64Digit n 18 = Base64.standard.low (x.toNat / 4) :=
    b64Digit_of_toNat hvalue (by decide) (by simp; omega)
  have hsecond : b64Digit n 12 = Base64.standard.low ((x.toNat * 256 + y.toNat) / 16) :=
    b64Digit_of_toNat hvalue (by decide) (by simp; omega)
  have hthird : b64Digit n 6 = Base64.standard.low ((y.toNat * 256 + z.toNat) / 64) :=
    b64Digit_of_toNat hvalue (by decide) (by simp; omega)
  have hfourth : b64Digit n 0 = Base64.standard.low z.toNat :=
    b64Digit_of_toNat hvalue (by decide) (by simp; omega)
  rw [hfirst, hsecond, hthird, hfourth]
  rfl

/-- The byte that is left is written as two, and filled up. -/
theorem last_eq (x : UInt8) {n : UInt32} (hn : n = x.toUInt32 <<< 16) :
    [b64Digit n 18, b64Digit n 12, ch '=', ch '='] = Base64.standard.encode [x] := by
  have hx := x.toNat_lt
  have hvalue : n.toNat = x.toNat * 65536 := by
    rw [hn, UInt32.toNat_shiftLeft, UInt8.toNat_toUInt32]
    change x.toNat <<< 16 % 2 ^ 32 = _
    rw [Nat.shiftLeft_eq]
    omega
  have hfirst : b64Digit n 18 = Base64.standard.low (x.toNat / 4) :=
    b64Digit_of_toNat hvalue (by decide) (by simp; omega)
  have hsecond : b64Digit n 12 = Base64.standard.low (x.toNat * 16) :=
    b64Digit_of_toNat hvalue (by decide) (by simp; omega)
  rw [hfirst, hsecond]
  rfl

/-- **The key is base64**, of the bytes that were drawn. -/
theorem randomWsKey_eq (raw : Fin 16 → UInt8) :
    randomWsKey raw = Base64.standard.encode (List.ofFn raw) := by
  have hbytes : List.ofFn raw =
      (List.range 5).flatMap (fun g => [raw (Fin.ofNat 16 (3 * g)), raw (Fin.ofNat 16 (3 * g + 1)),
        raw (Fin.ofNat 16 (3 * g + 2))]) ++ [raw (Fin.ofNat 16 15)] := rfl
  rw [hbytes, Base64.Alphabet.encode_flatMap]
  simp only [randomWsKey, group_eq _ _ _ rfl, last_eq _ rfl]

theorem oneWord_randomWsKey (raw : Fin 16 → UInt8) : OneWord (randomWsKey raw) := by
  rw [randomWsKey_eq]
  exact Base64.standard.forall_mem_encode (p := fun c => ws c = false) rfl (by decide) _

/-! ## the text -/

/-- The headers of the request. -/
def upgradeHeaders (parts : UrlParts) (key : Str) : List (Str × Str) :=
  [(str "Host", parts.host ++ ch ':' :: natStr parts.port.toNat),
    (str "Upgrade", str "websocket"),
    (str "Connection", str "Upgrade"),
    (str "Sec-WebSocket-Key", key),
    (str "Sec-WebSocket-Version", str "13")]

/-- The pieces that `connect` writes one after the other are lines. -/
theorem request_lines (get target http name host port upgrade connection name' key version : Str) :
    get ++ [ch ' '] ++ target ++ (ch ' ' :: http) ++ crlf ++
        (name ++ [ch ':', ch ' ']) ++ host ++ [ch ':'] ++ port ++ crlf ++
        upgrade ++ crlf ++ connection ++ crlf ++
        (name' ++ [ch ':', ch ' ']) ++ key ++ crlf ++ version ++ crlf ++ crlf =
      frame 13 10 [[ch ' '].intercalate [get, target, http],
        headerText (name, host ++ ch ':' :: port), upgrade, connection, headerText (name', key),
        version] ++ 13 :: 10 :: [] := by
  simp only [headerText, crlf, List.intercalate_cons_cons, List.intercalate_singleton, frame,
    List.flatMap_cons, List.flatMap_nil, List.append_assoc, List.cons_append, List.nil_append,
    List.append_nil]

theorem upgradeRequest_eq (parts : UrlParts) (key : Str) :
    upgradeRequest parts key =
      frame 13 10 ([ch ' '].intercalate [str "GET", parts.path, str "HTTP/1.1"] ::
        (upgradeHeaders parts key).map headerText) ++ 13 :: 10 :: [] :=
  request_lines (str "GET") parts.path (str "HTTP/1.1") (str "Host") parts.host
    (natStr parts.port.toNat) (headerText (str "Upgrade", str "websocket"))
    (headerText (str "Connection", str "Upgrade")) (str "Sec-WebSocket-Key") key
    (headerText (str "Sec-WebSocket-Version", str "13"))

/-- A name without blanks and colons, and a value in one word. -/
theorem sendable_of_oneWord {name value : Str}
    (hname : name ≠ [] ∧ OneWord name ∧ ch ':' ∉ name) (hvalue : OneWord value) :
    SendableHeader (name, value) ∧ Trimmed value :=
  ⟨⟨hname.1, hname.2.1.trimmed, hname.2.2, hname.2.1.oneLine, hvalue.oneLine⟩, hvalue.trimmed⟩

/-- **The request is read** as one for the path of the URL, and nothing follows. -/
theorem readRequest_upgradeRequest {parts : UrlParts} {key : Str} (hhost : OneWord parts.host)
    (hpath : OneWord parts.path) (hkey : OneWord key) :
    readRequest (upgradeRequest parts key) = some
      { method := str "GET"
        target := parts.path
        version := str "HTTP/1.1"
        headers := upgradeHeaders parts key
        rest := [] } := by
  rw [upgradeRequest_eq]
  apply readRequest_frame
  · simp only [List.forall_mem_cons]
    exact ⟨by decide, hpath, by decide, by simp⟩
  · have hauthority : OneWord (parts.host ++ ch ':' :: natStr parts.port.toNat) :=
      hhost.append (List.forall_mem_cons.mpr ⟨rfl, oneWord_natStr _⟩)
    simp only [upgradeHeaders, List.forall_mem_cons]
    exact ⟨sendable_of_oneWord (by decide) hauthority,
      sendable_of_oneWord (by decide) (by decide), sendable_of_oneWord (by decide) (by decide),
      sendable_of_oneWord (by decide) hkey, sendable_of_oneWord (by decide) (by decide), by simp⟩

/-! ## what is sent -/

/-- `connect` sends the request, or a first part of it. -/
theorem sent_prefix (s : WsClient) (net : Network) {url : Str} {parts : UrlParts}
    (hurl : parseWsUrl url = some parts) :
    (s.connect net url).2.1 <+: upgradeRequest parts (randomWsKey net.key) := by
  unfold connect
  simp only [hurl]
  split
  · exact List.nil_prefix
  · rcases sendFrom_cases net.send 0 (upgradeRequest parts (randomWsKey net.key)) with
      hall | ⟨part, hpart, hprefix, -⟩
    · simp only [sendAll, hall]
      cases readResponse [] net.incoming with
      | none => exact List.prefix_rfl
      | some r =>
          simp only
          split <;> exact List.prefix_rfl
    · simp only [sendAll, hpart]
      exact hprefix

/-- It sends all of it, in however many pieces, if no send fails. -/
theorem sent_eq (s : WsClient) {net : Network} {url : Str} {parts : UrlParts}
    (hurl : parseWsUrl url = some parts) (hnet : net.Serves parts) :
    (s.connect net url).2.1 = upgradeRequest parts (randomWsKey net.key) := by
  unfold connect
  simp only [hurl, hnet.reached, sendAll, sendFrom_eq hnet.sends, Bool.false_eq_true, if_false]
  cases readResponse [] net.incoming with
  | none => rfl
  | some r =>
      simp only
      split <;> rfl

/-- **The server reads the request that was meant.**  Whatever pieces the sends
cut it into, the bytes are one upgrade request for the path of the URL, with its
host and port and a key that stands for the 16 bytes drawn.  When a send fails
they are the beginning of it. -/
theorem upgrade_read (s : WsClient) {net : Network} (u : WsUrl) (hnet : net.Serves u.parts) :
    (∃ key, readRequest (s.connect net u.text).2.1 = some
        { method := str "GET"
          target := u.parts.path
          version := str "HTTP/1.1"
          headers := upgradeHeaders u.parts key
          rest := [] } ∧
      Base64.standard.decode key = some (List.ofFn net.key)) ∧
    ∀ send, (s.connect { net with send } u.text).2.1 <+: (s.connect net u.text).2.1 := by
  have hurl := parseWsUrl_text u
  have hpath : OneWord u.parts.path := by
    cases h : u.path with
    | nil =>
        have hslash : u.parts.path = str "/" := by simp [WsUrl.parts, h]
        rw [hslash]
        decide
    | cons c path =>
        have hsame : u.parts.path = u.path := by simp [WsUrl.parts, h]
        rw [hsame]
        exact u.path_word
  rw [sent_eq s hurl hnet]
  refine ⟨⟨randomWsKey net.key, ?_, ?_⟩, fun send => sent_prefix s { net with send } hurl⟩
  · exact readRequest_upgradeRequest u.host_word hpath (oneWord_randomWsKey net.key)
  · rw [randomWsKey_eq, Base64.Alphabet.decode_encode]

/-- `ws://gw:8000/v1`. -/
def sampleUrl : WsUrl where
  host := str "gw"
  port := some 8000
  path := str "/v1"
  host_ne_nil := by decide
  host_word := by decide
  host_plain := by simp [str, ch]
  port_ne_zero := by decide
  path_slash := by simp [str]
  path_word := by decide

theorem upgrade_read_sampleUrl :
    ∃ key, readRequest (connect {} (sending []) (str "ws://gw:8000/v1")).2.1 = some
        { method := str "GET"
          target := str "/v1"
          version := str "HTTP/1.1"
          headers :=
            [(str "Host", str "gw:8000"),
              (str "Upgrade", str "websocket"),
              (str "Connection", str "Upgrade"),
              (str "Sec-WebSocket-Key", key),
              (str "Sec-WebSocket-Version", str "13")]
          rest := [] } ∧
      Base64.standard.decode key = some (List.replicate 16 0) := by
  have htext : sampleUrl.text = str "ws://gw:8000/v1" := by decide
  rw [← htext]
  exact (upgrade_read {} sampleUrl (sending_serves [] sampleUrl.parts)).1

end WsClient

end SipDemo
