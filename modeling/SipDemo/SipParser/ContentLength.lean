import SipDemo.SipParser.Accepted

/-!
# SipDemo.SipParser.ContentLength

How Content-Length frames the body.

`parseSip` is the header section, which does not see what stands behind it
(`parseHead_replace`), and then the body, cut to the number that `strtol` reads
at the front of the first Content-Length value.  Nothing checks that the value
ends where the number does: a value with white space, a sign or other text
around the digits frames the body like the digits alone (`framed_iff`).
-/

namespace SipDemo

/-- `parseSip` up to the body: the message without one, and the bytes behind
the empty line. -/
def parseHead (raw : Str) : Option (SipMessage × Str) := do
  let headerEnd ← find (crlf ++ crlf) raw
  match splitLines raw headerEnd with
  | [] => none
  | start :: lines =>
      let msg ← parseStartLine start
      let headers ← lines.foldlM headerLine []
      some ({ msg with headers }, raw.drop (headerEnd + 4))

theorem parseSip_eq_bind (raw : Str) :
    parseSip raw = (parseHead raw).bind fun x => takeBody x.1 x.2 := by
  unfold parseSip parseHead
  cases find (crlf ++ crlf) raw with
  | none => rfl
  | some headerEnd =>
      simp only [Option.bind_eq_bind, Option.bind_some]
      cases splitLines raw headerEnd with
      | nil => rfl
      | cons start lines =>
          simp [Option.bind_assoc]

/-! ## the header section stands for itself -/

/-- Lines up to a line end are found whatever comes behind it. -/
theorem splitLines_append {front : Str} {left : Nat} (h : left = 0 ∨ crlf <+: front.drop left)
    (rest : Str) : splitLines (front ++ rest) left = splitLines front left := by
  fun_induction splitLines front left with
  | case1 front => exact splitLines_zero _
  | case2 front left hleft nl ih =>
      obtain ⟨k, hk, hfind⟩ := exists_find_le (h.resolve_left hleft)
      have hfit : k + 2 ≤ front.length := find_add_le hfind
      have hnl : nl = k := by simp [nl, hfind, Nat.not_lt.mpr hk]
      have hnext : left - (k + 2) = 0 ∨ crlf <+: (front.drop (k + 2)).drop (left - (k + 2)) := by
        by_cases hlast : left ≤ k + 2
        · exact .inl (Nat.sub_eq_zero_of_le hlast)
        · rw [List.drop_drop, Nat.add_sub_cancel' (Nat.le_of_not_le hlast)]
          exact .inr (h.resolve_left hleft)
      rw [hnl] at ih ⊢
      rw [splitLines, if_neg hleft, find_append_left hfind]
      simp only [if_neg (Nat.not_lt.mpr hk)]
      rw [List.take_append_of_le_length (by omega), List.drop_append_of_le_length hfit, ih hnext]

/-- **The header section is read as it stands**: other bytes behind the empty
line give the same message and those bytes. -/
theorem parseHead_replace {raw rest : Str} {msg : SipMessage} {headerEnd : Nat}
    (hend : find (crlf ++ crlf) raw = some headerEnd) (h : parseHead raw = some (msg, rest)) :
    rest = raw.drop (headerEnd + 4) ∧
      ∀ other, parseHead (raw.take (headerEnd + 4) ++ other) = some (msg, other) := by
  have hfit : headerEnd + 4 ≤ raw.length := find_add_le hend
  have hfront : find (crlf ++ crlf) (raw.take (headerEnd + 4)) = some headerEnd :=
    find_take hend
  have hblank : crlf <+: (raw.take (headerEnd + 4)).drop headerEnd :=
    (List.prefix_append crlf crlf).trans (isPrefix_drop_of_find hfront)
  have hlines : splitLines raw headerEnd = splitLines (raw.take (headerEnd + 4)) headerEnd := by
    conv_lhs => rw [← List.take_append_drop (headerEnd + 4) raw]
    exact splitLines_append (.inr hblank) _
  have hlength : (raw.take (headerEnd + 4)).length = headerEnd + 4 :=
    List.length_take_of_le hfit
  unfold parseHead at h ⊢
  rw [hend] at h
  simp only [Option.bind_eq_bind, Option.bind_some, hlines] at h
  cases hsplit : splitLines (raw.take (headerEnd + 4)) headerEnd with
  | nil =>
      rw [hsplit] at h
      cases h
  | cons start lines =>
      simp only [hsplit, Option.bind_eq_some_iff, Option.some.injEq, Prod.mk.injEq] at h
      obtain ⟨first, hstart, headers, hheaders, rfl, rfl⟩ := h
      refine ⟨rfl, fun other => ?_⟩
      rw [find_append_left hfront]
      simp only [Option.bind_eq_bind, Option.bind_some, splitLines_append (.inr hblank), hsplit,
        hstart, hheaders, List.drop_left' hlength]

/-! ## the number that frames the body -/

/-- A number that `strtol` reads without a minus sign, or a zero. -/
def ReadsAs (value : Str) (n : Nat) : Prop :=
  ∃ neg, ScansTo value neg n ∧ (neg = true → n = 0)

theorem readsAs_of_isDecimal {value : Str} (h : isDecimal value = true) :
    ReadsAs value (digitsValue value) :=
  ⟨false, ⟨[], [], value, [], by simp, by simp, .none, h, by simp, rfl⟩, nofun⟩

theorem ReadsAs.unique {value : Str} {m n : Nat} (hm : ReadsAs value m) (hn : ReadsAs value n) :
    m = n := by
  obtain ⟨_, hm, -⟩ := hm
  obtain ⟨_, hn, -⟩ := hn
  have h := (scanNumeral_eq_some_iff.mpr hm).symm.trans (scanNumeral_eq_some_iff.mpr hn)
  simp at h
  exact h.2

theorem strtol_of_readsAs {value : Str} {n : Nat} (h : ReadsAs value n) (hn : n ≤ maxSize) :
    strtol value = some (n : Int) := by
  obtain ⟨neg, hscan, hminus⟩ := h
  have hbound : maxSize = 2 ^ 63 - 1 := rfl
  have hvalue : (if neg = true then -(n : Int) else n) = n := by
    split
    · next hneg => simp [hminus hneg]
    · rfl
  rw [strtol, scanNumeral_eq_some_iff.mpr hscan, Option.map_some]
  simp only [hvalue, longMin, longMax]
  congr 1
  omega

theorem readsAs_of_strtol {value : Str} {d : Int} (h : strtol value = some d) (hpos : 0 ≤ d)
    (hsmall : d < maxSize) : ReadsAs value d.toNat := by
  rw [strtol, Option.map_eq_some_iff] at h
  obtain ⟨⟨neg, n⟩, hscan, hvalue⟩ := h
  have hbound : maxSize = 2 ^ 63 - 1 := rfl
  simp only [longMin, longMax] at hvalue
  cases neg with
  | false =>
      rw [if_neg Bool.false_ne_true] at hvalue
      obtain rfl : d.toNat = n := by omega
      exact ⟨false, scanNumeral_eq_some_iff.mp hscan, fun h => absurd h Bool.false_ne_true⟩
  | true =>
      rw [if_pos rfl] at hvalue
      obtain rfl : d.toNat = n := by omega
      exact ⟨true, scanNumeral_eq_some_iff.mp hscan, fun _ => by omega⟩

variable {msg m : SipMessage} {rest value : Str}

/-- The body is cut to the number that is read. -/
theorem takeBody_of_readsAs {n : Nat} (hvalue : msg.get (str "Content-Length") = some value)
    (hreads : ReadsAs value n) (hn : n ≤ maxSize) (hfits : n ≤ rest.length) :
    takeBody msg rest = some { msg with body := rest.take n } := by
  unfold takeBody
  simp only [hvalue, strtol_of_readsAs hreads hn]
  rw [if_neg (by omega), if_neg (by omega), Int.toNat_natCast]

theorem readsAs_of_takeBody (hvalue : msg.get (str "Content-Length") = some value)
    (hsize : rest.length < maxSize) (h : takeBody msg rest = some m) :
    ∃ n, ReadsAs value n ∧ n ≤ rest.length ∧ { msg with body := rest.take n } = m := by
  unfold takeBody at h
  cases hlong : strtol value with
  | none =>
      simp only [hvalue, hlong] at h
      cases h
  | some declared =>
      simp only [hvalue, hlong] at h
      split_ifs at h with hneg hshort
      exact ⟨declared.toNat, readsAs_of_strtol hlong (by omega) (by omega), by omega,
        Option.some.inj h⟩

/-! ## framing -/

/-- Content-Length frames the body: where an accepted text has one, the first
is a decimal numeral, of no more than the bytes behind the empty line; the body
is that many of them; and other bytes there, when there are enough, change the
body alone. -/
def Framed (raw : Str) : Prop :=
  ∀ m value, parseSip raw = some m → m.get (str "Content-Length") = some value →
    isDecimal value = true ∧ ∃ headerEnd, find (crlf ++ crlf) raw = some headerEnd ∧
      digitsValue value ≤ (raw.drop (headerEnd + 4)).length ∧
      m.body = (raw.drop (headerEnd + 4)).take (digitsValue value) ∧
      ∀ other, digitsValue value ≤ other.length →
        parseSip (raw.take (headerEnd + 4) ++ other) =
          some { m with body := other.take (digitsValue value) }

/-- The first Content-Length value is no numeral, and yet starts with one, of
no more than the bytes behind the empty line. -/
def Lenient (raw : Str) : Prop :=
  ∃ msg rest value n, parseHead raw = some (msg, rest) ∧
    msg.get (str "Content-Length") = some value ∧ isDecimal value = false ∧
    ReadsAs value n ∧ n ≤ rest.length

theorem length_rest_lt {raw : Str} (hsize : raw.length ≤ maxSize)
    (hhead : parseHead raw = some (msg, rest)) :
    rest.length < maxSize ∧ ∃ headerEnd, find (crlf ++ crlf) raw = some headerEnd := by
  cases hend : find (crlf ++ crlf) raw with
  | none =>
      simp [parseHead, hend] at hhead
  | some headerEnd =>
      have hrest := (parseHead_replace hend hhead).1
      have hfit : headerEnd + 4 ≤ raw.length := find_add_le hend
      rw [hrest, List.length_drop]
      exact ⟨by omega, headerEnd, rfl⟩

/-- **Framing**: it holds of every text but those whose first Content-Length
value `strtol` reads without its being all digits. -/
theorem framed_iff (raw : Str) (hsize : raw.length ≤ maxSize) : Framed raw ↔ ¬Lenient raw := by
  constructor
  · rintro hframed ⟨msg, rest, value, n, hhead, hvalue, hdecimal, hreads, hfits⟩
    have hrest := (length_rest_lt hsize hhead).1
    have hparse : parseSip raw = some { msg with body := rest.take n } := by
      rw [parseSip_eq_bind, hhead]
      exact takeBody_of_readsAs hvalue hreads (by omega) hfits
    rw [(hframed _ value hparse hvalue).1] at hdecimal
    cases hdecimal
  · intro hstrict m value hparse hvalue
    rw [parseSip_eq_bind, Option.bind_eq_some_iff] at hparse
    obtain ⟨⟨msg, rest⟩, hhead, hbody⟩ := hparse
    obtain ⟨hlength, headerEnd, hend⟩ := length_rest_lt hsize hhead
    obtain ⟨hrest, hreplace⟩ := parseHead_replace hend hhead
    have hmsg : msg.get (str "Content-Length") = some value := by
      rw [(takeBody_cases hbody).1] at hvalue
      exact hvalue
    obtain ⟨n, hreads, hfits, rfl⟩ := readsAs_of_takeBody hmsg hlength hbody
    have hdecimal : isDecimal value = true := by
      by_contra hloose
      exact hstrict ⟨msg, rest, value, n, hhead, hmsg, by simpa using hloose, hreads, hfits⟩
    obtain rfl := (readsAs_of_isDecimal hdecimal).unique hreads
    refine ⟨hdecimal, headerEnd, hend, hrest ▸ hfits, hrest ▸ rfl, fun other hother => ?_⟩
    rw [parseSip_eq_bind, hreplace other]
    exact takeBody_of_readsAs hmsg hreads (by omega) hother

/-- A length with a sign and a unit. -/
def looseLength : Str := str "OPTIONS sip:x SIP/2.0\r\nContent-Length: +2 bytes\r\n\r\nhi!"

/-- The text of two headers and a body of two bytes. -/
def strictLength : Str := str "OPTIONS sip:x SIP/2.0\r\nContent-Length: 2\r\n\r\nhi!"

theorem framed_strictLength : Framed strictLength := by
  refine (framed_iff strictLength (by decide)).mpr ?_
  rintro ⟨msg, rest, value, n, hhead, hvalue, hloose, _, _⟩
  have hdecimal : (parseHead strictLength).all (fun head =>
      (head.1.get (str "Content-Length")).all isDecimal) = true := by
    decide +kernel
  rw [hhead, Option.all_some, hvalue, Option.all_some, hloose] at hdecimal
  cases hdecimal

/-- The loose length frames the body all the same. -/
theorem not_framed_looseLength :
    (parseSip looseLength).map SipMessage.body = some (str "hi") ∧ ¬Framed looseLength := by
  have hparse : parseSip looseLength = some
      { method := str "OPTIONS", requestUri := str "sip:x",
        headers := [(str "Content-Length", str "+2 bytes")], body := str "hi" } := by
    decide +kernel
  refine ⟨by rw [hparse]; rfl, fun hframed => ?_⟩
  have hdecimal := (hframed _ (str "+2 bytes") hparse rfl).1
  exact absurd hdecimal (by decide)

end SipDemo
