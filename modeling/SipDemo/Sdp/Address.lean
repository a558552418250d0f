import SipDemo.Sdp.Audio

/-!
# SipDemo.Sdp.Address

Where the media address of a session comes from.

`parseSdp` keeps the address of the last line that has one, of either kind; a
`c=` line wins over an `o=` line only by standing behind it, and without either
the address is the default of the record, which the check for an empty address
lets pass.
-/

namespace SipDemo

/-- The kind of a line with an address. -/
inductive AddressKind where
  | origin
  | connection
  deriving DecidableEq

/-- An `o=` line with six tokens or a `c=` line with three, and its address. -/
def addressLine? (raw : Str) : Option (AddressKind × Str) :=
  match trim raw with
  | type :: eq :: val =>
      if eq = ch '=' then
        if type = ch 'o' then
          match tokenize val with
          | _ :: _ :: _ :: _ :: _ :: addr :: _ => some (.origin, addr)
          | _ => none
        else if type = ch 'c' then
          match tokenize val with
          | _ :: _ :: addr :: _ => some (.connection, addr)
          | _ => none
        else none
      else none
  | _ => none

/-- The lines with an address, in order. -/
def addressLines (body : Str) : List (AddressKind × Str) := (getlines body).filterMap addressLine?

/-- The addresses that the lines of one kind name. -/
def addressesOf (kind : AddressKind) (body : Str) : List Str :=
  ((addressLines body).filter fun x => x.1 = kind).map Prod.snd

theorem mem_addressesOf {kind : AddressKind} {body addr : Str} :
    addr ∈ addressesOf kind body ↔ (kind, addr) ∈ addressLines body := by
  simp [addressesOf]

/-! ## the address of a session -/

/-- A line with an address, and no other, sets it. -/
theorem setting_address (raw : Str) : (setting raw).address = (addressLine? raw).map Prod.snd := by
  unfold setting addressLine? originSetting connectionSetting
  generalize trim raw = text
  rcases text with _ | ⟨type, _ | ⟨eq, val⟩⟩
  · rfl
  · rfl
  · dsimp only
    generalize tokenize val = tokens
    by_cases heq : eq = ch '='
    · rw [if_pos heq, if_pos heq]
      by_cases ho : type = ch 'o'
      · rw [if_pos ho, if_pos ho]
        rcases tokens with _ | ⟨_, _ | ⟨_, _ | ⟨_, _ | ⟨_, _ | ⟨_, _ | ⟨_, _⟩⟩⟩⟩⟩⟩ <;> rfl
      · rw [if_neg ho, if_neg ho]
        by_cases hc : type = ch 'c'
        · rw [if_pos hc, if_pos hc]
          rcases tokens with _ | ⟨_, _ | ⟨_, _ | ⟨_, _⟩⟩⟩ <;> rfl
        · rw [if_neg hc, if_neg hc]
          grind [mediaSetting_address, attributeSetting_address]
    · rw [if_neg heq, if_neg heq]
      rfl

/-- The address is that of the last line with one, and the default without. -/
theorem scanSdp_connectionAddress (body : Str) :
    (scanSdp body).session.connectionAddress =
      ((addressLines body).getLast?.map Prod.snd).getD (str "127.0.0.1") := by
  rw [scanSdp_lastAddress, lastSet_eq setting_address, addressLines]

/-! ## where it should come from -/

/-- The address is one that the offer names for the media: in a `c=` line when
there is one and in an `o=` line otherwise. -/
def AddressOffered (body : Str) : Prop :=
  ∀ s, parseSdp body = some s →
    s.connectionAddress ∈ if addressesOf .connection body = [] then addressesOf .origin body
      else addressesOf .connection body

/-- The last line with an address is a `c=` line, or an `o=` line without any
`c=` line or with one of the same address. -/
def ConnectionLast (body : Str) : Prop :=
  ∃ x ∈ (addressLines body).getLast?, x.1 = .origin → addressesOf .connection body = [] ∨
    x.2 ∈ addressesOf .connection body

/-- **The media address**: it comes from the offer as it should if and only if
the body has no audio line, and so no session, or its last line with an address
is the one to take. -/
theorem addressOffered_iff (body : Str) :
    AddressOffered body ↔ audioLines body = [] ∨ ConnectionLast body := by
  have haddress := scanSdp_connectionAddress body
  unfold AddressOffered ConnectionLast
  rw [parseSdp_eq_audio]
  by_cases hnone : audioLines body = []
  · simp [hnone]
  rw [if_neg hnone, or_iff_right hnone]
  have hsession : (∀ s, some (scanSdp body).session = some s → s.connectionAddress ∈
        if addressesOf .connection body = [] then addressesOf .origin body
        else addressesOf .connection body) ↔
      (scanSdp body).session.connectionAddress ∈
        if addressesOf .connection body = [] then addressesOf .origin body
        else addressesOf .connection body := by
    simp
  rw [hsession, haddress]
  cases hlast : (addressLines body).getLast? with
  | none =>
      have hempty := List.getLast?_eq_none_iff.mp hlast
      simp [addressesOf, hempty]
  | some x =>
      obtain ⟨kind, addr⟩ := x
      have hmem : addr ∈ addressesOf kind body := mem_addressesOf.mpr (List.mem_of_getLast? hlast)
      cases kind with
      | origin =>
          by_cases hc : addressesOf .connection body = []
          · simp [hc, hmem]
          · simp [hc]
      | connection =>
          have hc := List.ne_nil_of_mem hmem
          simp [hc, hmem]

/-- A `c=` line, and behind it an `o=` line whose address is taken; and a body
without any address, accepted with the default. -/
theorem address_not_offered :
    (parseSdp (str "c=IN IP4 10.0.0.1\no=- 1 1 IN IP4 10.0.0.2\nm=audio 1 RTP/AVP 0\n")).map
        SdpSession.connectionAddress = some (str "10.0.0.2") ∧
      addressesOf .connection
          (str "c=IN IP4 10.0.0.1\no=- 1 1 IN IP4 10.0.0.2\nm=audio 1 RTP/AVP 0\n") =
        [str "10.0.0.1"] ∧
      (parseSdp (str "m=audio 1 RTP/AVP 0\n")).map SdpSession.connectionAddress =
        some (str "127.0.0.1") ∧
      addressLines (str "m=audio 1 RTP/AVP 0\n") = [] :=
  ⟨rfl, rfl, rfl, rfl⟩

end SipDemo
