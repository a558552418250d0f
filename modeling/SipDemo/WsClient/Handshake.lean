import SipDemo.WsClient.Sending

/-!
# SipDemo.WsClient.Handshake

The bytes behind the upgrade response.

`connect` receives in blocks of up to 1024 bytes until it has seen the empty
line, and keeps what it received in a local string.  When the block that ends
the response also brings the server's first frame, the bytes of the frame go
with that string: they are read once and never again.  So nothing is lost
exactly when the response ends where a block does (`connect_keeps_iff`).
-/

namespace SipDemo

namespace WsClient

open Segments

/-! ## the response -/

/-- A response `connect` accepts: it ends at its first empty line, is at most
8192 bytes long, and holds the status. -/
structure UpgradeResponse (h : Str) : Prop where
  ends : (find (crlf ++ crlf) h).map (· + 4) = some h.length
  short : h.length ≤ 8192
  status : (find (str "101") h).isSome = true

theorem UpgradeResponse.isSome_find {h : Str} (hh : UpgradeResponse h) :
    (find (crlf ++ crlf) h).isSome = true := by
  obtain ⟨k, hk, -⟩ := Option.map_eq_some_iff.mp hh.ends
  rw [hk]
  rfl

/-- A part of it has no empty line. -/
theorem UpgradeResponse.find_part {h part rest : Str} (hh : UpgradeResponse h)
    (hpart : part ++ rest = h) (hrest : rest ≠ []) : find (crlf ++ crlf) part = none := by
  obtain ⟨k, hk, hend⟩ := Option.map_eq_some_iff.mp hh.ends
  by_contra hsome
  obtain ⟨j, hj⟩ := Option.ne_none_iff_exists'.mp hsome
  have hinside := find_add_le hj
  have hwhole := find_append_left hj rest
  rw [hpart, hk] at hwhole
  have hlen : 0 < rest.length := List.length_pos_of_ne_nil hrest
  rw [← hpart, List.length_append] at hend
  have hpat : (crlf ++ crlf).length = 4 := rfl
  grind

/-! ## the loop that receives it -/

theorem readResponse_found {resp : Str} (h : (find (crlf ++ crlf) resp).isSome = true)
    (segs : Incoming) : readResponse resp segs = some (resp, segs) := by
  rw [readResponse, if_pos h]

theorem readResponse_recv {resp : Str} (h : find (crlf ++ crlf) resp = none) {segs left : Incoming}
    {b : UInt8} {got : List UInt8} (hrecv : recv 1024 segs = (b :: got, left))
    (hshort : (resp ++ b :: got).length ≤ 8192) :
    readResponse resp segs = readResponse (resp ++ b :: got) left := by
  rw [readResponse, h, if_neg (by decide), hrecv]
  exact dif_neg (Nat.not_lt.mpr hshort)

/-- The response is a number of blocks, and nothing else is received. -/
theorem readResponse_reads {resp r : Str} {segs left : Incoming}
    (h : readResponse resp segs = some (r, left)) :
    ∃ k, r = resp ++ (reads 1024 k segs).1 ∧ left = (reads 1024 k segs).2 := by
  fun_induction readResponse resp segs with
  | case1 resp segs hfound =>
      cases h
      exact ⟨0, (List.append_nil _).symm, rfl⟩
  | case2 resp segs hfound rest hrecv => cases h
  | case3 resp segs hfound b got rest hrecv hlong => cases h
  | case4 resp segs hfound b got rest hrecv hlong ih =>
      obtain ⟨k, hr, hleft⟩ := ih h
      refine ⟨k + 1, ?_, ?_⟩
      · rw [hr, reads, hrecv, List.append_assoc]
      · rw [hleft, reads, hrecv]

/-- **A response that ends where a block does** is received and no byte after it. -/
theorem readResponse_of_reads {h : Str} (hh : UpgradeResponse h) {resp : Str} {segs : Incoming}
    {k : Nat} (hblocks : resp ++ (reads 1024 k segs).1 = h) :
    ∃ left, readResponse resp segs = some (h, left) := by
  induction k generalizing resp segs with
  | zero =>
      obtain rfl : resp = h := (List.append_nil resp).symm.trans hblocks
      exact ⟨segs, readResponse_found hh.isSome_find segs⟩
  | succ k ih =>
      rw [reads] at hblocks
      by_cases hrest : (recv 1024 segs).1 ++ (reads 1024 k (recv 1024 segs).2).1 = []
      · rw [hrest, List.append_nil] at hblocks
        subst hblocks
        exact ⟨segs, readResponse_found hh.isSome_find segs⟩
      · have hnone := hh.find_part hblocks hrest
        obtain ⟨⟨got, left⟩, hrecv⟩ : ∃ r, recv 1024 segs = r := ⟨_, rfl⟩
        rw [hrecv] at hblocks hrest
        cases got with
        | nil =>
            -- the stream is at its end, so no further block brings anything
            have hend := (recv_eq_nil_iff (by decide) segs).mp (congrArg Prod.fst hrecv)
            have hfront := recv_append 1024 segs
            have hleft := reads_append 1024 k left
            rw [hrecv, hend, List.nil_append] at hfront
            rw [hfront] at hleft
            exact absurd (List.append_eq_nil_iff.mp hleft).1 hrest
        | cons b got =>
            rw [← List.append_assoc] at hblocks
            have hlen : (resp ++ b :: got).length ≤ h.length :=
              List.IsPrefix.length_le ⟨_, hblocks⟩
            rw [readResponse_recv hnone hrecv (hlen.trans hh.short)]
            exact ih hblocks

/-! ## connecting -/

/-- The server can be reached and the request is sent. -/
structure Network.Serves (net : Network) (parts : UrlParts) : Prop where
  resolves : net.resolves parts.host parts.port = true
  socket : net.socket ≠ kInvalidFd
  connects : net.connects = true
  sends : ∀ j, 0 < net.send j

theorem Network.Serves.reached {net : Network} {parts : UrlParts} (h : net.Serves parts) :
    (!net.resolves parts.host parts.port || decide (net.socket = kInvalidFd) ||
      !net.connects) = false := by
  simp [h.resolves, h.socket, h.connects]

/-- `connect` up to the response. -/
theorem connect_eq (s : WsClient) {net : Network} {url : Str} {parts : UrlParts}
    (hurl : parseWsUrl url = some parts) (hnet : net.Serves parts) :
    ∃ closed sent, s.connect net url =
      match readResponse [] net.incoming with
      | none => (false, sent, closed, net.incoming)
      | some (resp, incoming) =>
          if (find (str "101") resp).isNone then (false, sent, closed, incoming)
          else (true, sent, { closed with fd := net.socket, url, connected := true }, incoming) := by
  refine ⟨{ s.closeFdUnlocked with readerStop := false },
    upgradeRequest parts (randomWsKey net.key), ?_⟩
  unfold connect
  simp only [hurl, hnet.reached, sendAll, sendFrom_eq hnet.sends]
  rfl

/-- **Exactly when the handshake loses nothing.**  The stream is a response `h`
and then `f`.  `connect` succeeds and leaves all of `f` to the reader, which then
does with it what it does with `f` in one piece, if and only if `h` ends where
one of the blocks that are received does. -/
theorem connect_keeps_iff (s : WsClient) (net : Network) (url : Str) (parts : UrlParts)
    (hurl : parseWsUrl url = some parts) (hnet : net.Serves parts) (h f : List UInt8)
    (hh : UpgradeResponse h) (hstream : net.incoming.flatten = h ++ f) :
    ((s.connect net url).1 = true ∧ (s.connect net url).2.2.2.flatten = f ∧
      ∀ pongs : Pongs,
        readerLoop pongs 0 (s.connect net url).2.2.1 (s.connect net url).2.2.2 =
          readerLoop pongs 0 (s.connect net url).2.2.1 [f]) ↔
    ∃ k, (reads 1024 k net.incoming).1 = h := by
  obtain ⟨closed, sent, hconnect⟩ := connect_eq s hurl hnet
  constructor
  · rintro ⟨hok, hleft, -⟩
    cases hresp : readResponse [] net.incoming with
    | none => simp [hconnect, hresp] at hok
    | some r =>
        obtain ⟨resp, incoming⟩ := r
        obtain ⟨k, rfl, rfl⟩ := readResponse_reads hresp
        rw [hconnect, hresp] at hleft
        have hall := reads_append 1024 k net.incoming
        have hsame : (reads 1024 k net.incoming).2.flatten = f := by
          simp only at hleft
          split at hleft <;> exact hleft
        rw [hsame, hstream] at hall
        exact ⟨k, List.append_cancel_right hall⟩
  · rintro ⟨k, hk⟩
    obtain ⟨left, hresp⟩ := readResponse_of_reads hh ((List.nil_append _).trans hk)
    have hleft : left.flatten = f := by
      obtain ⟨j, hj, hrest⟩ := readResponse_reads hresp
      have hall := reads_append 1024 j net.incoming
      rw [← List.nil_append (reads 1024 j net.incoming).1, ← hj, ← hrest, hstream] at hall
      exact List.append_cancel_left hall
    have hstatus : (find (str "101") h).isNone = false := by
      rw [← Option.not_isSome, hh.status]
      rfl
    have heq : s.connect net url =
        (true, sent, { closed with fd := net.socket, url, connected := true }, left) := by
      rw [hconnect, hresp]
      exact if_neg (by rw [hstatus]; decide)
    rw [heq]
    refine ⟨rfl, hleft, ?_⟩
    intro pongs
    apply readerLoop_congr
    rw [hleft, List.flatten_singleton]

/-! ## a frame behind the response -/

/-- The response of the examples. -/
def switching : Str := str "HTTP/1.1 101" ++ crlf ++ crlf

theorem switching_upgrade : UpgradeResponse switching where
  ends := by decide
  short := by decide
  status := by decide

/-- A server that sends these segments. -/
def sending (incoming : Incoming) : Network where
  resolves := fun _ _ => true
  socket := 3
  connects := true
  key := fun _ => 0
  send := fun _ => 1
  incoming

theorem sending_serves (incoming : Incoming) (parts : UrlParts) :
    (sending incoming).Serves parts where
  resolves := rfl
  socket := by simp [sending, kInvalidFd]
  connects := rfl
  sends := fun _ => Int.one_pos

theorem parseWsUrl_host :
    parseWsUrl (str "ws://h/") = some { host := str "h" } := by decide

/-- A response and a ping in two blocks: the ping is left to the reader. -/
theorem connect_keeps_iff_apart :
    (connect {} (sending [switching, [0x89, 0x00]]) (str "ws://h/")).2.2.2.flatten =
      [0x89, 0x00] :=
  ((connect_keeps_iff {} (sending [switching, [0x89, 0x00]]) (str "ws://h/") _ parseWsUrl_host
    (sending_serves _ _) switching [0x89, 0x00] switching_upgrade rfl).mpr
      ⟨1, by decide⟩).2.1

/-- In one block the ping is lost: `connect` succeeds and leaves nothing. -/
theorem connect_loses_ping :
    (sending [switching ++ [0x89, 0x00]]).incoming.flatten = switching ++ [0x89, 0x00] ∧
    UpgradeResponse switching ∧
    (connect {} (sending [switching ++ [0x89, 0x00]]) (str "ws://h/")).1 = true ∧
    (connect {} (sending [switching ++ [0x89, 0x00]]) (str "ws://h/")).2.2.2.flatten = [] := by
  have hrecv : recv 1024 [switching ++ [0x89, 0x00]] =
      (ch 'H' :: switching.tail ++ [0x89, 0x00], []) := by decide
  have hblock : readResponse [] (sending [switching ++ [0x89, 0x00]]).incoming =
      some (switching ++ [0x89, 0x00], []) := by
    exact (readResponse_recv rfl hrecv (by decide)).trans (readResponse_found (by decide) [])
  obtain ⟨closed, sent, hconnect⟩ := connect_eq {} parseWsUrl_host
    (sending_serves [switching ++ [0x89, 0x00]] { host := str "h" })
  rw [hconnect, hblock]
  have hstatus : (find (str "101") (switching ++ [0x89, 0x00])).isNone = false := by decide
  simp only [hstatus]
  exact ⟨by simp [sending], switching_upgrade, rfl, rfl⟩

end WsClient

end SipDemo
