import SipDemo.Server
import SipDemo.SipParser.Truncation

/-!
# SipDemo.Server.Datagrams

A request that the network or the receive buffer cut short.  A datagram with a
part of a message is handled as the whole of it or not at all, never by half
(`request_of_part`).
-/

namespace SipDemo

/-- **All or nothing**: of a request with a Content-Length, a datagram that holds
a part is handled as the whole request when the first 2048 bytes of the part go
up to the end of the body, and not at all when they do not. -/
theorem request_of_part {raw : Str} {m : SipMessage} (h : parseSip raw = some m)
    (hlength : (m.get (str "Content-Length")).isSome = true) {dg : Datagram}
    (hpart : dg.data <+: raw) :
    request dg = if framedLength raw m ≤ min dg.data.length 2048 then
      (some m).filter (·.isRequest) else none := by
  have hcut : (recvFrom dg).data <+: raw := (List.take_prefix 2048 dg.data).trans hpart
  have hlen : (recvFrom dg).data.length = min dg.data.length 2048 := by
    rw [recvFrom, List.length_take, Nat.min_comm]
  rw [request]
  split_ifs with hfit
  · rw [parseSip_of_take h hlength]
    exact List.prefix_of_prefix_length_le (List.take_prefix _ _) hcut
      ((List.length_take_le _ _).trans (hlen ▸ hfit))
  · rw [parseSip_of_short h hlength hcut (by omega)]
    rfl

/-- A request with a body, and two more bytes. -/
def sampleOptions : Str := str "OPTIONS sip:x SIP/2.0\r\nContent-Length: 2\r\n\r\nhi!!"

theorem request_of_part_sampleOptions :
    ∃ m : SipMessage, request { data := sampleOptions.dropLast, sender := Server.samplePeer } =
      if framedLength sampleOptions m ≤ min sampleOptions.dropLast.length 2048 then
        (some m).filter (·.isRequest) else none := by
  cases h : parseSip sampleOptions with
  | none => exact absurd h (by decide +kernel)
  | some m =>
      have hlength : (parseSip sampleOptions).all
          (fun m => (m.get (str "Content-Length")).isSome) = true := by
        decide +kernel
      rw [h, Option.all_some] at hlength
      exact ⟨m, request_of_part h hlength (List.dropLast_prefix sampleOptions)⟩

end SipDemo
