import SipDemo.WsClient.Handshake

/-!
# SipDemo.WsClient.Upgrade

Which upgrade responses `connect` accepts.

It receives whole blocks until the empty line is there, gives up above 8192
bytes, and then looks for `101` anywhere in what it received.  A status line
with the code 101 is always found that way; but so is a length, a date or a
body with these digits behind a refusal, and a block that runs on behind the
empty line can carry a good response over the limit (`accepts_iff`).
-/

namespace SipDemo

namespace WsClient

open Segments

/-! ## the status line -/

/-- The first line of a response. -/
def statusLine (resp : Str) : Str := resp.take ((find crlf resp).getD resp.length)

/-- `HTTP/1.x`, a blank and the code 101, then nothing or a blank. -/
structure SwitchingLine (line : Str) : Prop where
  version : (str "HTTP/1.").isPrefixOf line = true
  minor : (line.drop 7).head?.any isdigit = true
  code : (str " 101").isPrefixOf (line.drop 8) = true
  reason : (line.drop 12).head?.all (fun c => c = ch ' ') = true

theorem switchingLine_iff {line : Str} :
    SwitchingLine line ↔
      (str "HTTP/1.").isPrefixOf line = true ∧ (line.drop 7).head?.any isdigit = true ∧
        (str " 101").isPrefixOf (line.drop 8) = true ∧
        (line.drop 12).head?.all (fun c => c = ch ' ') = true :=
  ⟨fun h => ⟨h.version, h.minor, h.code, h.reason⟩, fun ⟨h₁, h₂, h₃, h₄⟩ => ⟨h₁, h₂, h₃, h₄⟩⟩

instance (line : Str) : Decidable (SwitchingLine line) := decidable_of_iff' _ switchingLine_iff

/-- The first line ends where the empty line starts, or before. -/
theorem exists_find_crlf {resp : Str} {k : Nat} (hk : find (crlf ++ crlf) resp = some k) :
    ∃ i ≤ k, find crlf resp = some i :=
  exists_find_le ((List.prefix_append crlf crlf).trans (isPrefix_drop_of_find hk))

/-- The digits of the code are in every text that starts with the whole header
section. -/
theorem find_code {stream front : Str} {k : Nat} (hk : find (crlf ++ crlf) stream = some k)
    (hline : SwitchingLine (statusLine stream)) (hfront : front <+: stream)
    (hlong : k ≤ front.length) : (find (str "101") front).isSome = true := by
  obtain ⟨i, hik, hi⟩ := exists_find_crlf hk
  have hcode : str "101" <+: (statusLine stream).drop 9 := by
    have hblank : ch ' ' :: str "101" <+: (statusLine stream).drop 8 :=
      List.isPrefixOf_iff_prefix.mp hline.code
    have htail := hblank.drop 1
    rwa [List.drop_drop] at htail
  have hstart : statusLine stream <+: front := by
    rw [statusLine, hi, Option.getD_some]
    apply List.prefix_of_prefix_length_le (List.take_prefix i stream) hfront
    rw [List.length_take]
    omega
  obtain ⟨j, _, hj⟩ := exists_find_le (hcode.trans (hstart.drop 9))
  rw [hj]
  rfl

/-! ## the blocks received -/

/-- The empty line is there once its last byte is. -/
theorem isSome_find_iff {front rest : Str} {k : Nat}
    (hk : find (crlf ++ crlf) (front ++ rest) = some k) :
    (find (crlf ++ crlf) front).isSome = true ↔ k + 4 ≤ front.length := by
  constructor
  · intro h
    obtain ⟨j, hj⟩ := Option.isSome_iff_exists.mp h
    have hwhole := find_append_left hj rest
    rw [hk, Option.some_inj] at hwhole
    rw [hwhole]
    exact find_add_le hj
  · intro hlen
    have htake := find_take hk
    have hlen' : k + (crlf ++ crlf).length ≤ front.length := hlen
    rw [List.take_append_of_le_length hlen'] at htake
    have hfront := find_append_left htake (front.drop (k + (crlf ++ crlf).length))
    rw [List.take_append_drop] at hfront
    rw [hfront]
    rfl

/-- **What is received**: the blocks up to the empty line, unless they are too
long. -/
theorem readResponse_eq {resp : Str} {segs : Incoming} {k : Nat}
    (hk : find (crlf ++ crlf) (resp ++ segs.flatten) = some k) (hresp : resp.length ≤ 8192) :
    (readResponse resp segs).map Prod.fst =
      if (resp ++ readTo 1024 (k + 4 - resp.length) segs).length ≤ 8192 then
        some (resp ++ readTo 1024 (k + 4 - resp.length) segs)
      else none := by
  fun_induction readResponse resp segs with
  | case1 resp segs hfound =>
      have hlen := (isSome_find_iff hk).mp hfound
      simp [Nat.sub_eq_zero_of_le hlen, readTo, hresp]
  | case2 resp segs hfound left hrecv =>
      have hflat := (recv_eq_nil_iff (by decide) segs).mp (congrArg Prod.fst hrecv)
      rw [hflat, List.append_nil] at hk
      rw [hk] at hfound
      exact absurd rfl hfound
  | case3 resp segs hfound b got left hrecv hlong =>
      have hneed : resp.length < k + 4 := by
        rwa [isSome_find_iff hk, Nat.not_le] at hfound
      rw [readTo_recv (Nat.sub_pos_of_lt hneed) hrecv, ← List.append_assoc, if_neg]
      · rfl
      · rw [List.length_append]
        omega
  | case4 resp segs hfound b got left hrecv hlong ih =>
      have hneed : resp.length < k + 4 := by
        rwa [isSome_find_iff hk, Nat.not_le] at hfound
      have hstream : segs.flatten = b :: got ++ left.flatten := by
        have hfront := recv_append 1024 segs
        rw [hrecv] at hfront
        exact hfront.symm
      rw [hstream, ← List.append_assoc] at hk
      have hrest : k + 4 - (resp ++ b :: got).length = k + 4 - resp.length - (got.length + 1) := by
        rw [List.length_append, List.length_cons, Nat.sub_sub]
      rw [ih hk (Nat.not_lt.mp hlong), hrest, readTo_recv (Nat.sub_pos_of_lt hneed) hrecv,
        List.append_assoc]

/-! ## connecting -/

/-- `connect` succeeds when what it receives is short enough and holds the
digits. -/
theorem connect_fst (s : WsClient) {net : Network} {url : Str} {parts : UrlParts} {k : Nat}
    (hurl : parseWsUrl url = some parts) (hnet : net.Serves parts)
    (hk : find (crlf ++ crlf) net.incoming.flatten = some k) :
    (s.connect net url).1 = true ↔
      (readTo 1024 (k + 4) net.incoming).length ≤ 8192 ∧
        (find (str "101") (readTo 1024 (k + 4) net.incoming)).isSome = true := by
  obtain ⟨closed, sent, hconnect⟩ := connect_eq s hurl hnet
  have hread := @readResponse_eq [] net.incoming k hk (Nat.zero_le _)
  rw [List.nil_append, List.length_nil, Nat.sub_zero] at hread
  rw [hconnect]
  cases hresp : readResponse [] net.incoming with
  | none =>
      rw [hresp] at hread
      split at hread
      · cases hread
      · next hlong => simp [hlong]
  | some r =>
      rw [hresp] at hread
      split at hread
      · next hshort =>
          rw [Option.map_some, Option.some_inj] at hread
          rw [← hread] at hshort ⊢
          cases hcode : find (str "101") r.1 <;> simp [hcode, hshort]
      · cases hread

/-- **Which responses are accepted.**  `connect` goes by the status line of the
response if and only if the blocks it receives, up to the empty line, make at
most 8192 bytes where the status line says 101, and more, or do not hold the
digits, where it does not. -/
theorem accepts_iff (s : WsClient) (net : Network) (url : Str) (parts : UrlParts)
    (hurl : parseWsUrl url = some parts) (hnet : net.Serves parts) (k : Nat)
    (hk : find (crlf ++ crlf) net.incoming.flatten = some k) :
    ((s.connect net url).1 = true ↔ SwitchingLine (statusLine net.incoming.flatten)) ↔
      if SwitchingLine (statusLine net.incoming.flatten) then
        (readTo 1024 (k + 4) net.incoming).length ≤ 8192
      else 8192 < (readTo 1024 (k + 4) net.incoming).length ∨
        find (str "101") (readTo 1024 (k + 4) net.incoming) = none := by
  rw [connect_fst s hurl hnet hk]
  have hprefix := readTo_prefix 1024 (k + 4) net.incoming
  have hlong : k + 4 ≤ (readTo 1024 (k + 4) net.incoming).length :=
    le_length_readTo (by decide) (find_add_le hk)
  by_cases hline : SwitchingLine (statusLine net.incoming.flatten)
  · have hcode := find_code hk hline hprefix (by omega)
    simp [hline, hcode]
  · rw [if_neg hline, iff_false_right hline, not_and_or, Nat.not_le, Option.not_isSome_iff_eq_none]

/-- The response of the examples in two segments, with a frame behind it. -/
theorem accepts_iff_switching :
    (connect {} (sending [switching.take 10, switching.drop 10 ++ [0x89, 0x00]])
        (str "ws://h/")).1 = true ↔
      SwitchingLine (statusLine (switching ++ [0x89, 0x00])) := by
  have hfirst : recv 1024 [switching.take 10, switching.drop 10 ++ [0x89, 0x00]] =
      (ch 'H' :: (switching.take 10).tail, [switching.drop 10 ++ [0x89, 0x00]]) := by decide
  have hblocks : readTo 1024 (12 + 4) [switching.take 10, switching.drop 10 ++ [0x89, 0x00]] =
      switching ++ [0x89, 0x00] := by
    rw [readTo_recv (by decide) hfirst, readTo_singleton (by decide) (by decide) (by decide)]
    rfl
  have hline : SwitchingLine (statusLine (switching ++ [0x89, 0x00])) := by decide
  refine (accepts_iff {} (sending [switching.take 10, switching.drop 10 ++ [0x89, 0x00]])
    (str "ws://h/") _ parseWsUrl_host (sending_serves _ _) 12 (by decide)).mpr ?_
  rw [show (sending [switching.take 10, switching.drop 10 ++ [0x89, 0x00]]).incoming.flatten =
    switching ++ [0x89, 0x00] from rfl, if_pos hline]
  exact (congrArg List.length hblocks).trans_le (by decide)

/-- A refusal whose length has the digits. -/
def refusal : Str :=
  str "HTTP/1.1 404 Not Found" ++ crlf ++ str "Content-Length: 101" ++ crlf ++ crlf

/-- It is accepted. -/
theorem accepts_refusal :
    find (crlf ++ crlf) refusal = some 43 ∧ ¬SwitchingLine (statusLine refusal) ∧
      (connect {} (sending [refusal]) (str "ws://h/")).1 = true := by
  have hk : find (crlf ++ crlf) (sending [refusal]).incoming.flatten = some 43 := by decide
  refine ⟨hk, by decide, (connect_fst {} parseWsUrl_host (sending_serves _ _) hk).mpr ?_⟩
  have hblocks : readTo 1024 (43 + 4) (sending [refusal]).incoming = refusal :=
    readTo_singleton (by decide) (by decide) (by decide)
  rw [hblocks]
  decide

end WsClient

end SipDemo
