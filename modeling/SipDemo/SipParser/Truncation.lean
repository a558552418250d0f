import SipDemo.SipParser.ContentLength

/-!
# SipDemo.SipParser.Truncation

Messages that are cut short.  A message with a Content-Length says where it
ends: `parseSip` reads exactly the bytes up to there (`framedLength`).  Without
one of them it reads nothing (`parseSip_of_short`), and what stands behind them
makes no difference (`parseSip_of_take`).
-/

namespace SipDemo

/-- The bytes of a text up to the end of the message `m` read from it. -/
def framedLength (raw : Str) (m : SipMessage) : Nat :=
  (find (crlf ++ crlf) raw).getD 0 + 4 + m.body.length

/-- With a Content-Length the body is framed by a number that the header
section alone determines. -/
theorem takeBody_framed {msg m : SipMessage} {body : Str} (h : takeBody msg body = some m)
    (hlength : (msg.get (str "Content-Length")).isSome = true) :
    m.body.length ≤ body.length ∧ m = { msg with body := body.take m.body.length } ∧
      ∀ other : Str, takeBody msg other =
        if m.body.length ≤ other.length then
          some { msg with body := other.take m.body.length }
        else none := by
  obtain ⟨value, hget⟩ := Option.isSome_iff_exists.mp hlength
  cases hlong : strtol value with
  | none => simp [takeBody, hget, hlong] at h
  | some declared =>
      simp only [takeBody, hget, hlong] at h ⊢
      split_ifs at h with hneg hshort
      obtain rfl := Option.some.inj h
      have hlen : (body.take declared.toNat).length = declared.toNat :=
        List.length_take_of_le (Nat.le_of_not_lt hshort)
      refine ⟨List.length_take_le' _ _, by simp [hlen], fun other => ?_⟩
      rw [if_neg hneg, hlen]
      by_cases hother : other.length < declared.toNat
      · rw [if_pos hother, if_neg (Nat.not_le.mpr hother)]
      · rw [if_neg hother, if_pos (Nat.le_of_not_lt hother)]

variable {raw q : Str} {m : SipMessage}

/-- An accepted text, cut at the end of its header section. -/
theorem parseSip_framed (h : parseSip raw = some m)
    (hlength : (m.get (str "Content-Length")).isSome = true) :
    ∃ (headerEnd : Nat) (msg : SipMessage), find (crlf ++ crlf) raw = some headerEnd ∧
      framedLength raw m = headerEnd + 4 + m.body.length ∧ framedLength raw m ≤ raw.length ∧
      m = { msg with body := (raw.drop (headerEnd + 4)).take m.body.length } ∧
      ∀ other, parseSip (raw.take (headerEnd + 4) ++ other) =
        if m.body.length ≤ other.length then
          some { msg with body := other.take m.body.length }
        else none := by
  rw [parseSip_eq_bind, Option.bind_eq_some_iff] at h
  obtain ⟨⟨msg, rest⟩, hhead, hbody⟩ := h
  cases hend : find (crlf ++ crlf) raw with
  | none => simp [parseHead, hend] at hhead
  | some headerEnd =>
      obtain ⟨rfl, hreplace⟩ := parseHead_replace hend hhead
      have hget : m.get (str "Content-Length") = msg.get (str "Content-Length") := by
        rw [(takeBody_cases hbody).1]
        rfl
      obtain ⟨hle, hm, hother⟩ := takeBody_framed hbody (hget ▸ hlength)
      have hfit : headerEnd + 4 ≤ raw.length := find_add_le hend
      rw [List.length_drop] at hle
      refine ⟨headerEnd, msg, rfl, by simp [framedLength, hend], ?_, hm, fun other => ?_⟩
      · rw [framedLength, hend, Option.getD_some]
        omega
      · rw [parseSip_eq_bind, hreplace, Option.bind_some, hother]

/-- The bytes of the message decide: any text that starts with them is read as
the same message. -/
theorem parseSip_of_take (h : parseSip raw = some m)
    (hlength : (m.get (str "Content-Length")).isSome = true)
    (hq : raw.take (framedLength raw m) <+: q) : parseSip q = some m := by
  obtain ⟨headerEnd, msg, _, hframed, hfit, hm, hother⟩ := parseSip_framed h hlength
  obtain ⟨rest, rfl⟩ := hq
  have hbody : (raw.drop (headerEnd + 4)).take m.body.length ++ rest =
      ((raw.take (framedLength raw m)).drop (headerEnd + 4)) ++ rest := by
    rw [hframed, List.drop_take, Nat.add_sub_cancel_left]
  have hsplit : raw.take (framedLength raw m) ++ rest =
      raw.take (headerEnd + 4) ++ ((raw.drop (headerEnd + 4)).take m.body.length ++ rest) := by
    rw [hframed, List.take_add, List.append_assoc]
  have hlen : ((raw.drop (headerEnd + 4)).take m.body.length).length = m.body.length := by
    rw [List.length_take, List.length_drop]
    omega
  rw [hsplit, hother, if_pos (by rw [List.length_append, hlen]; omega),
    List.take_left' hlen, ← hm]

/-- Nothing is read of a message that is cut short. -/
theorem parseSip_of_short (h : parseSip raw = some m)
    (hlength : (m.get (str "Content-Length")).isSome = true) (hq : q <+: raw)
    (hshort : q.length < framedLength raw m) : parseSip q = none := by
  obtain ⟨headerEnd, msg, hend, hframed, _, _, hother⟩ := parseSip_framed h hlength
  by_cases hhead : headerEnd + 4 ≤ q.length
  · have hsplit : q = raw.take (headerEnd + 4) ++ q.drop (headerEnd + 4) := by
      obtain ⟨rest, rfl⟩ := hq
      rw [List.take_append_of_le_length hhead, List.take_append_drop]
    rw [hsplit, hother, if_neg]
    rw [List.length_drop]
    omega
  · -- an empty line in the part would be the one of the whole
    have hnone : find (crlf ++ crlf) q = none := by
      cases hfind : find (crlf ++ crlf) q with
      | none => rfl
      | some k =>
          obtain ⟨rest, rfl⟩ := hq
          have hk := find_append_left hfind rest
          rw [hend, Option.some_inj] at hk
          have hfit : k + 4 ≤ q.length := find_add_le hfind
          omega
    simp [parseSip, hnone]

end SipDemo
