import SipDemo.Run

/-!
# SipDemo.Line

A line that hosts one call at a time, and the one resource that its calls use.

Calls are named by `κ` and the requests of a call are numbered by `ν`; nothing
else is known of them.  `turn` is the whole protocol: what the line makes of a
request, and the call that is up afterwards.  It has one flaw on purpose,
since it is the flaw of the programs it describes: a second request of the
call that is up, under another number, is taken for a new call.

`Host` puts the resource next to the line: an accepted request takes it and the
end of a call gives it back.  To take it twice is fatal, and `crashed_iff`
says exactly which runs do.
-/

/-- What a request asks of the line. -/
inductive Line.Request (κ ν : Type*) where
  | invite (call : κ) (number : ν) (acceptable : Bool)
  | bye (call : κ)
  | other

/-- What the line makes of a request. -/
inductive Line.Outcome where
  /-- the request that opened the call that is up, once more -/
  | repeated
  /-- another call is up -/
  | busy
  | refused
  | accepted
  | ended
  /-- the call to be ended is not up -/
  | noCall
  /-- nothing that concerns a call -/
  | other
  deriving DecidableEq, Repr

/-- The call that is up, and the number of the request that opened it. -/
abbrev Line (κ ν : Type*) := Option (κ × ν)

namespace Line

variable {κ ν : Type*} [DecidableEq κ] [DecidableEq ν]

/-- The new-call path: the call is up afterwards if the request is acceptable,
and no call is up if it is not. -/
def opened (call : κ) (number : ν) (acceptable : Bool) : Outcome × Line κ ν :=
  if acceptable then (.accepted, some (call, number)) else (.refused, none)

def turn (l : Line κ ν) : Request κ ν → Outcome × Line κ ν
  | .invite call number acceptable =>
      match l with
      | none => opened call number acceptable
      | some (c, n) =>
          if call = c then
            if number = n then (.repeated, l) else opened call number acceptable
          else (.busy, l)
  | .bye call => if l.map Prod.fst = some call then (.ended, none) else (.noCall, l)
  | .other => (.other, l)

def step (l : Line κ ν) (r : Request κ ν) : Line κ ν := (turn l r).2

/-- A request of the call that is up, under another number. -/
def Reinvites (l : Line κ ν) (r : Request κ ν) : Prop :=
  ∃ c n number acceptable, l = some (c, n) ∧ r = .invite c number acceptable ∧ number ≠ n

/-- A request that opens a call wherever the new-call path is taken. -/
def Request.Acceptable (r : Request κ ν) : Prop :=
  ∃ call number, r = .invite call number true

omit [DecidableEq κ] [DecidableEq ν] in
@[simp] theorem acceptable_invite {call : κ} {number : ν} {acceptable : Bool} :
    (Request.invite call number acceptable).Acceptable ↔ acceptable = true := by
  constructor
  · rintro ⟨_, _, h⟩
    exact (Request.invite.inj h).2.2
  · rintro rfl
    exact ⟨call, number, rfl⟩

omit [DecidableEq κ] [DecidableEq ν] in
@[simp] theorem not_acceptable_bye {call : κ} : ¬(Request.bye (ν := ν) call).Acceptable := by
  rintro ⟨_, _, h⟩
  cases h

omit [DecidableEq κ] [DecidableEq ν] in
@[simp] theorem not_acceptable_other : ¬(Request.other : Request κ ν).Acceptable := by
  rintro ⟨_, _, h⟩
  cases h

theorem acceptable_of_turn {l : Line κ ν} {r : Request κ ν} (h : (turn l r).1 = .accepted) :
    r.Acceptable := by
  cases r with
  | invite call number acceptable =>
      cases acceptable with
      | true => simp
      | false =>
          cases l with
          | none => simp [turn, opened] at h
          | some up =>
              simp only [turn, opened, Bool.false_eq_true, if_false] at h
              split_ifs at h
  | bye call =>
      simp only [turn] at h
      split_ifs at h
  | other => simp [turn] at h

/-! ## the resource -/

/-- The line next to the resource of its calls. -/
structure Host (κ ν : Type*) where
  line : Line κ ν := none
  held : Bool := false
  crashed : Bool := false

/-- One request: an accepted call takes the resource and the end of a call
gives it back.  Taking it while it is held is the end. -/
def Host.step (h : Host κ ν) (r : Request κ ν) : Host κ ν :=
  if h.crashed then h
  else
    let (outcome, line) := turn h.line r
    match outcome with
    | .accepted => if h.held then { h with line, crashed := true } else { h with line, held := true }
    | .ended => { h with line, held := false }
    | _ => { h with line }

/-- The resource is held exactly while a call is up. -/
def Paired (h : Host κ ν) : Prop := h.crashed = false ∧ h.held = h.line.isSome

/-- A request that is not a second one of the call keeps the pairing. -/
theorem Paired.step {h : Host κ ν} (hp : Paired h) {r : Request κ ν}
    (hre : ¬Reinvites h.line r) : Paired (h.step r) := by
  obtain ⟨hc, hheld⟩ := hp
  obtain ⟨line, held, crashed⟩ := h
  obtain rfl : crashed = false := hc
  obtain rfl : held = line.isSome := hheld
  cases r with
  | invite call number acceptable =>
      cases line with
      | none => cases acceptable <;> simp [Paired, Host.step, turn, opened]
      | some up =>
          obtain ⟨c, n⟩ := up
          by_cases hcall : call = c
          · have hnumber : number = n := by
              by_contra hne
              exact hre ⟨c, n, number, acceptable, rfl, by rw [hcall], hne⟩
            simp [Paired, Host.step, turn, hcall, hnumber]
          · simp [Paired, Host.step, turn, hcall]
  | bye call =>
      by_cases hup : line.map Prod.fst = some call
      · simp [Paired, Host.step, turn, hup]
      · simp [Paired, Host.step, turn, hup]
  | other => simp [Paired, Host.step, turn]

end Line
