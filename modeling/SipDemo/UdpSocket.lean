import SipDemo.Handles

/-!
# SipDemo.UdpSocket

The objects of `UdpSocket.cpp`: construction, moves, `bind` and destruction.

A program has any number of objects, named by `ι`; an action is what it may do
to them, with what the operating system answers.  The invariant (`Sound`) says
what the moves are for: each descriptor that is open belongs to one object, and
the object knows the port that it is bound to.
-/

namespace SipDemo

structure UdpSocket where
  fd : Int
  localPort : UInt16 := 0
  deriving DecidableEq, Repr

namespace UdpSocket

def kInvalidFd : Int := -1

def valid (s : UdpSocket) : Bool := s.fd ≠ kInvalidFd

/-- What `std::move` leaves behind. -/
def moved : UdpSocket := { fd := kInvalidFd }

/-- Who has a descriptor open. -/
inductive Party where
  | sockets
  | rest
  deriving DecidableEq

/-- What `::bind` and `::getsockname` answer. -/
structure Bound where
  /-- The port that the descriptor is bound to. -/
  port : UInt16
  /-- Whether `::getsockname` tells. -/
  named : Bool

inductive Action (ι : Type*) where
  /-- `UdpSocket()`, with what `::socket` returns. -/
  | construct (i : ι) (fd : Int)
  /-- `UdpSocket i(std::move(j))`. -/
  | moveConstruct (i j : ι)
  /-- `i = std::move(j)`. -/
  | moveAssign (i j : ι)
  /-- `bind` on `port`; it throws when it has no answer. -/
  | bind (i : ι) (port : UInt16) (answer : Option Bound)
  | destroy (i : ι)
  /-- The rest of the process opens or closes a descriptor. -/
  | rest (call : Handles.Call Int)

/-- The objects, the descriptors of the process and the ports they are bound to. -/
structure Program (ι : Type*) where
  objects : ι → Option UdpSocket
  table : Handles.Table Int Party
  ports : Int → UInt16

/-- `closeSocket`: the `::close`, if there is one to make. -/
def closeSocket (s : UdpSocket) : List (Party × Handles.Call Int) :=
  if s.fd = kInvalidFd then [] else [(.sockets, .release s.fd)]

/-- The answers that an operating system gives: the port asked for, or one of
its choice, to a descriptor that has none yet. -/
def Bound.Answers (b : Bound) (port old : UInt16) : Prop :=
  b.port ≠ 0 ∧ (port = 0 ∨ b.port = port) ∧ old = 0

instance (b : Bound) (port old : UInt16) : Decidable (b.Answers port old) :=
  inferInstanceAs (Decidable (_ ∧ _ ∧ _))

namespace Program

variable {ι : Type*} [DecidableEq ι]

def put (p : Program ι) (i : ι) (s : Option UdpSocket) : Program ι :=
  { p with objects := Function.update p.objects i s }

/-- The program after an action, up to the table, and the calls it makes. -/
def act (p : Program ι) : Action ι → Program ι × List (Party × Handles.Call Int)
  | .construct i fd =>
      match p.objects i with
      | some _ => (p, [])
      | none =>
          if fd = kInvalidFd then (p, [])
          else if p.table fd = none then
            ({ p with ports := Function.update p.ports fd 0 }.put i (some { fd }),
              [(.sockets, .acquire fd)])
          else (p, [])
  | .moveConstruct i j =>
      match p.objects i, p.objects j with
      | none, some o => ((p.put i (some o)).put j (some moved), [])
      | _, _ => (p, [])
  | .moveAssign i j =>
      match p.objects i, p.objects j with
      | some s, some o =>
          if i = j then (p, []) else ((p.put i (some o)).put j (some moved), s.closeSocket)
      | _, _ => (p, [])
  | .bind i port answer =>
      match p.objects i, answer with
      | some s, some b =>
          if s.valid ∧ b.Answers port (p.ports s.fd) then
            ({ p with ports := Function.update p.ports s.fd b.port }.put i
              (some { s with localPort := if b.named then b.port else port }), [])
          else (p, [])
      | _, _ => (p, [])
  | .destroy i =>
      match p.objects i with
      | some s => (p.put i none, s.closeSocket)
      | none => (p, [])
  | .rest call => if Handles.Allows p.table .rest call then (p, [(.rest, call)]) else (p, [])

def calls (p : Program ι) (a : Action ι) : List (Party × Handles.Call Int) := (p.act a).2

/-- One step; an action that cannot happen changes nothing. -/
def step (p : Program ι) (a : Action ι) : Program ι :=
  { (p.act a).1 with table := Run.final Handles.step p.table (p.calls a) }

/-- The object `i` holds the descriptor `fd`. -/
def Holds (p : Program ι) (i : ι) (fd : Int) : Prop :=
  ∃ s, p.objects i = some s ∧ s.fd = fd ∧ fd ≠ kInvalidFd

/-! ## the invariant -/

structure Sound (p : Program ι) : Prop where
  /-- The descriptors that are open are those of the objects, -/
  owns : Handles.Owns p.table .sockets {fd | ∃ i, p.Holds i fd}
  /-- each of one object, -/
  alone : ∀ i j fd, p.Holds i fd → p.Holds j fd → i = j
  /-- which knows its port, if it was told, -/
  port : ∀ i s, p.objects i = some s → s.valid →
    s.localPort = p.ports s.fd ∨ s.localPort = 0
  /-- and nothing of it is left behind by a move. -/
  moved : ∀ i s, p.objects i = some s → s.valid = false → s = UdpSocket.moved

variable {p p' : Program ι} {a : Action ι} {i j : ι} {s o : UdpSocket} {fd : Int}
  {made : List (Party × Handles.Call Int)}

theorem step_eq (h : p.act a = (p', made)) :
    p.step a = { p' with table := Run.final Handles.step p.table made } := by
  rw [step, calls, h]

theorem holds_put {s' : Option UdpSocket} : (p.put i s').Holds j fd ↔
    if j = i then ∃ s, s' = some s ∧ s.fd = fd ∧ fd ≠ kInvalidFd else p.Holds j fd := by
  unfold Holds put
  by_cases hj : j = i <;> simp [hj]

omit [DecidableEq ι] in
theorem holds_of (h : p.objects i = some s) : p.Holds i fd ↔ s.fd = fd ∧ fd ≠ kInvalidFd := by
  simp [Holds, h]

/-- A call of `closeSocket` gives up the descriptor of the object. -/
theorem owns_closeSocket {t : Handles.Table Int Party} {held : Set Int}
    (h : Handles.Owns t .sockets held) (s : UdpSocket) :
    Handles.Owns (Run.final Handles.step t s.closeSocket) .sockets
      (held \ {fd | s.fd = fd ∧ fd ≠ kInvalidFd}) := by
  unfold closeSocket
  split
  · next hinvalid => exact fun fd => (h fd).trans (by simp +contextual [hinvalid, eq_comm])
  · next hopen =>
      refine fun fd => (h.release fd).trans ?_
      constructor
      · rintro ⟨hheld, hne⟩
        exact ⟨hheld, fun heq => hne heq.1.symm⟩
      · rintro ⟨hheld, hne⟩
        exact ⟨hheld, fun heq =>
          hne ⟨(Set.mem_singleton_iff.mp heq).symm, fun hfd => hopen (heq ▸ hfd)⟩⟩

/-- The objects change places, and one of them may give up its descriptor. -/
theorem Sound.rearrange (h : Sound p) (hact : p.act a = (p', s.closeSocket))
    (hports : p'.ports = p.ports)
    (hfrom : ∀ i o, p'.objects i = some o → o = UdpSocket.moved ∨ ∃ j, p.objects j = some o)
    (halone : ∀ i j fd, p'.Holds i fd → p'.Holds j fd → i = j)
    (hheld : ∀ fd, (∃ i, p'.Holds i fd) ↔
      (∃ i, p.Holds i fd) ∧ ¬(s.fd = fd ∧ fd ≠ kInvalidFd)) : Sound (p.step a) := by
  rw [step_eq hact]
  refine ⟨?_, halone, ?_, ?_⟩
  · exact fun fd => (owns_closeSocket h.owns s fd).trans (hheld fd).symm
  · intro i o ho hvalid
    obtain rfl | ⟨j, hj⟩ := hfrom i o ho
    · exact .inr rfl
    · change o.localPort = p'.ports o.fd ∨ o.localPort = 0
      rw [hports]
      exact h.port j o hj hvalid
  · intro i o ho hvalid
    obtain rfl | ⟨j, hj⟩ := hfrom i o ho
    · rfl
    · exact h.moved j o hj hvalid

theorem Sound.stay (h : Sound p) (hact : p.act a = (p, [])) : Sound (p.step a) := by
  rw [step_eq hact]
  exact h

theorem Sound.destroy (h : Sound p) (i : ι) : Sound (p.step (.destroy i)) := by
  cases hi : p.objects i with
  | none => exact h.stay (by simp [act, hi])
  | some s =>
      have hact : p.act (.destroy i) = (p.put i none, s.closeSocket) := by simp [act, hi]
      refine h.rearrange hact rfl ?_ ?_ ?_
      · intro j o ho
        by_cases hj : j = i
        · simp [put, hj] at ho
        · exact .inr ⟨j, by simpa [put, hj] using ho⟩
      · intro j k fd hj hk
        rw [holds_put] at hj hk
        grind [h.alone j k fd]
      · intro fd
        have hone := h.alone i
        have hi' : p.Holds i fd ↔ s.fd = fd ∧ fd ≠ kInvalidFd := holds_of hi
        simp only [holds_put]
        grind

/-- After `i` has taken over what `j` was. -/
theorem holds_move (hj : p.objects j = some o) (k : ι) :
    ((p.put i (some o)).put j (some UdpSocket.moved)).Holds k fd ↔
      k ≠ j ∧ if k = i then p.Holds j fd else p.Holds k fd := by
  rw [holds_put]
  by_cases hkj : k = j
  · simp [hkj, UdpSocket.moved, eq_comm]
  · rw [if_neg hkj, holds_put, holds_of hj]
    simp [hkj]

/-- A move: `i` gives up what it had, and has what `j` had. -/
theorem Sound.move (h : Sound p)
    (hact : p.act a = ((p.put i (some o)).put j (some UdpSocket.moved), s.closeSocket))
    (hne : i ≠ j) (hj : p.objects j = some o)
    (hi : ∀ fd, p.Holds i fd ↔ s.fd = fd ∧ fd ≠ kInvalidFd) : Sound (p.step a) := by
  refine h.rearrange hact rfl ?_ ?_ ?_
  · intro k u hu
    by_cases hkj : k = j
    · exact .inl (by simpa [put, hkj, eq_comm] using hu)
    · by_cases hki : k = i
      · exact .inr ⟨j, by rw [hj]; simpa [put, hkj, hki, hne] using hu⟩
      · exact .inr ⟨k, by simpa [put, hkj, hki] using hu⟩
  · intro k l fd hk hl
    rw [holds_move hj] at hk hl
    grind [h.alone]
  · intro fd
    simp only [holds_move hj]
    constructor
    · rintro ⟨k, _, hk⟩
      split at hk
      · exact ⟨⟨j, hk⟩, fun hs => hne (h.alone i j fd ((hi fd).mpr hs) hk)⟩
      · next hki => exact ⟨⟨k, hk⟩, fun hs => hki (h.alone k i fd hk ((hi fd).mpr hs))⟩
    · rintro ⟨⟨k, hk⟩, hs⟩
      by_cases hkj : k = j
      · exact ⟨i, hne, by rw [if_pos rfl]; exact hkj ▸ hk⟩
      · have hki : k ≠ i := fun heq => hs ((hi fd).mp (heq ▸ hk))
        exact ⟨k, hkj, by rw [if_neg hki]; exact hk⟩

theorem Sound.moveConstruct (h : Sound p) (i j : ι) : Sound (p.step (.moveConstruct i j)) := by
  cases hi : p.objects i with
  | some s => exact h.stay (by simp [act, hi])
  | none =>
      cases hj : p.objects j with
      | none => exact h.stay (by simp [act, hi, hj])
      | some o =>
          have hne : i ≠ j := fun heq => by simp [heq, hj] at hi
          refine h.move (s := UdpSocket.moved) ?_ hne hj fun fd => ?_
          · simp [act, hi, hj, closeSocket, UdpSocket.moved]
          · simp [Holds, hi, UdpSocket.moved, eq_comm]

theorem Sound.moveAssign (h : Sound p) (i j : ι) : Sound (p.step (.moveAssign i j)) := by
  cases hi : p.objects i with
  | none => exact h.stay (by simp [act, hi])
  | some s =>
      cases hj : p.objects j with
      | none => exact h.stay (by simp [act, hi, hj])
      | some o =>
          by_cases hne : i = j
          · exact h.stay (by simp [act, hj, hne])
          · exact h.move (by simp [act, hi, hj, hne]) hne hj fun fd => holds_of hi

theorem Sound.construct (h : Sound p) (i : ι) (fd : Int) : Sound (p.step (.construct i fd)) := by
  cases hi : p.objects i with
  | some s => exact h.stay (by simp [act, hi])
  | none =>
      by_cases hfd : fd = kInvalidFd
      · exact h.stay (by simp [act, hi, hfd])
      · by_cases hfree : p.table fd = none
        · have hact : p.act (.construct i fd) =
              ({ p with ports := Function.update p.ports fd 0 }.put i (some { fd }),
                [(.sockets, .acquire fd)]) := by simp [act, hi, hfd, hfree]
          have hnew (k : ι) : ¬p.Holds k fd := fun hk => by
            have hopen := (h.owns fd).mpr ⟨k, hk⟩
            simp [hfree] at hopen
          have hput (k : ι) (x : Int) :
              ({ p with ports := Function.update p.ports fd 0 }.put i (some { fd })).Holds k x ↔
                if k = i then fd = x ∧ x ≠ kInvalidFd else p.Holds k x := by
            rw [holds_put]
            simp [Holds]
          rw [step_eq hact]
          refine ⟨?_, ?_, ?_, ?_⟩
          · refine fun x => (h.owns.acquire x).trans ?_
            constructor
            · rintro (rfl | ⟨k, hk⟩)
              · exact ⟨i, (hput i x).mpr (by simp [hfd])⟩
              · have hki : k ≠ i := fun heq => by simp [heq, Holds, hi] at hk
                exact ⟨k, (hput k x).mpr (by rw [if_neg hki]; exact hk)⟩
            · rintro ⟨k, hk⟩
              have hk := (hput k x).mp hk
              split at hk
              · exact .inl hk.1.symm
              · exact .inr ⟨k, hk⟩
          · intro k l x hk hl
            have hk := (hput k x).mp hk
            have hl := (hput l x).mp hl
            grind [h.alone k l x]
          · intro k s hs hvalid
            by_cases hk : k = i
            · obtain rfl : { fd } = s := by simpa [put, hk] using hs
              exact .inr rfl
            · have hs : p.objects k = some s := by simpa [put, hk] using hs
              have hother : s.fd ≠ fd := fun heq =>
                hnew k ⟨s, hs, heq, fun hno => hfd hno⟩
              simpa [put, hother] using h.port k s hs hvalid
          · intro k s hs hinvalid
            by_cases hk : k = i
            · obtain rfl : { fd } = s := by simpa [put, hk] using hs
              simp [valid, hfd] at hinvalid
            · exact h.moved k s (by simpa [put, hk] using hs) hinvalid
        · exact h.stay (by simp [act, hi, hfd, hfree])

theorem Sound.bind (h : Sound p) (i : ι) (port : UInt16) (answer : Option Bound) :
    Sound (p.step (.bind i port answer)) := by
  cases hi : p.objects i with
  | none => exact h.stay (by simp [act, hi])
  | some s =>
      cases answer with
      | none => exact h.stay (by simp [act, hi])
      | some b =>
          by_cases hb : s.valid ∧ b.Answers port (p.ports s.fd)
          · have hact : p.act (.bind i port (some b)) =
                ({ p with ports := Function.update p.ports s.fd b.port }.put i
                  (some { s with localPort := if b.named then b.port else port }), []) := by
              simp [act, hi, hb]
            obtain ⟨hvalid, _, hasked, _⟩ := hb
            have hkeep (k : ι) (x : Int) :
                ({ p with ports := Function.update p.ports s.fd b.port }.put i
                  (some { s with localPort := if b.named then b.port else port })).Holds k x ↔
                  p.Holds k x := by
              rw [holds_put]
              split
              · next hk => rw [hk, holds_of hi]; simp
              · rfl
            rw [step_eq hact]
            refine ⟨?_, ?_, ?_, ?_⟩
            · exact fun x => (h.owns x).trans (exists_congr fun k => (hkeep k x).symm)
            · exact fun k l x hk hl => h.alone k l x ((hkeep k x).mp hk) ((hkeep l x).mp hl)
            · intro k o ho hopen
              by_cases hk : k = i
              · obtain rfl : { s with localPort := if b.named then b.port else port } = o := by
                  simpa [put, hk] using ho
                cases hnamed : b.named with
                | true => exact .inl (by simp [put])
                | false =>
                    cases hasked with
                    | inl hzero => exact .inr (by simp [hzero])
                    | inr hsame => exact .inl (by simp [put, hsame])
              · have ho : p.objects k = some o := by simpa [put, hk] using ho
                have hother : o.fd ≠ s.fd := fun heq => by
                  have hopen' : s.fd ≠ kInvalidFd := by simpa [valid] using hvalid
                  exact hk (h.alone k i s.fd ⟨o, ho, heq, hopen'⟩ ⟨s, hi, rfl, hopen'⟩)
                simpa [put, hother] using h.port k o ho hopen
            · intro k o ho hinvalid
              by_cases hk : k = i
              · obtain rfl : { s with localPort := if b.named then b.port else port } = o := by
                  simpa [put, hk] using ho
                exact absurd (hvalid.symm.trans hinvalid) (by decide)
              · exact h.moved k o (by simpa [put, hk] using ho) hinvalid
          · exact h.stay (by simp [act, hi, hb])

theorem Sound.rest (h : Sound p) (call : Handles.Call Int) : Sound (p.step (.rest call)) := by
  by_cases hallowed : Handles.Allows p.table .rest call
  · have hact : p.act (.rest call) = (p, [(.rest, call)]) := if_pos hallowed
    rw [step_eq hact]
    exact ⟨h.owns.other nofun hallowed, h.alone, h.port, h.moved⟩
  · exact h.stay (if_neg hallowed)

/-- **The invariant** is kept by whatever the program does. -/
theorem Sound.step (h : Sound p) (a : Action ι) : Sound (p.step a) := by
  cases a with
  | construct i fd => exact h.construct i fd
  | moveConstruct i j => exact h.moveConstruct i j
  | moveAssign i j => exact h.moveAssign i j
  | bind i port answer => exact h.bind i port answer
  | destroy i => exact h.destroy i
  | rest call => exact h.rest call

/-! ## the calls -/

omit [DecidableEq ι] in
theorem Sound.closeSocket_lawful (h : Sound p) (hi : p.objects i = some s) :
    Handles.Lawful p.table s.closeSocket := by
  unfold closeSocket
  split
  · trivial
  · next hopen => exact ⟨(h.owns s.fd).mpr ⟨i, s, hi, rfl, hopen⟩, trivial⟩

/-- A descriptor is opened only while it is free, and closed only by the party
that has it open. -/
theorem Sound.lawful (h : Sound p) (a : Action ι) : Handles.Lawful p.table (p.calls a) := by
  cases a with
  | construct i fd =>
      simp only [calls, act]
      split
      · trivial
      · split
        · trivial
        · split
          · next hfree => exact ⟨hfree, trivial⟩
          · trivial
  | moveConstruct i j =>
      simp only [calls, act]
      split <;> trivial
  | moveAssign i j =>
      simp only [calls, act]
      split
      · next s o hi hj =>
          split
          · trivial
          · exact h.closeSocket_lawful hi
      · trivial
  | bind i port answer =>
      simp only [calls, act]
      split
      · split <;> trivial
      · trivial
  | destroy i =>
      simp only [calls, act]
      split
      · next s hi => exact h.closeSocket_lawful hi
      · trivial
  | rest call =>
      simp only [calls, act]
      split
      · next hallowed => exact ⟨hallowed, trivial⟩
      · trivial

/-- No object yet, in a process with descriptors of its own. -/
def Fresh (p : Program ι) : Prop :=
  (∀ i, p.objects i = none) ∧ ∀ fd, p.table fd ≠ some .sockets

omit [DecidableEq ι] in
theorem Fresh.sound (h : Fresh p) : Sound p := by
  obtain ⟨hnone, hfree⟩ := h
  refine ⟨fun fd => ?_, ?_, ?_, ?_⟩
  · simp [hfree fd, Holds, hnone]
  · simp [Holds, hnone]
  · simp [hnone]
  · simp [hnone]

/-- What a run from `p` does with the descriptors. -/
structure Accounted (p : Program ι) (as : List (Action ι)) : Prop where
  sound : Sound (Run.final Program.step p as)
  lawful : Handles.Lawful p.table (Run.collect Program.step calls p as)
  /-- What an object holds has been opened once more than closed, -/
  held : ∀ fd, (∃ i, (Run.final Program.step p as).Holds i fd) →
    (Run.collect Program.step calls p as).count (.sockets, .acquire fd) =
      (Run.collect Program.step calls p as).count (.sockets, .release fd) + 1
  /-- and what no object holds as often. -/
  free : ∀ fd, (∀ i, ¬(Run.final Program.step p as).Holds i fd) →
    (Run.collect Program.step calls p as).count (.sockets, .acquire fd) =
      (Run.collect Program.step calls p as).count (.sockets, .release fd)

/-- **Each descriptor has one owner and is closed once**, however the objects are
built, moved, assigned and destroyed. -/
theorem sockets_accounted (p : Program ι) (h : Fresh p) (as : List (Action ι)) :
    Accounted p as := by
  have hend : Sound (Run.final Program.step p as) :=
    Run.final_of_preserved Sound (fun _ a hp => hp.step a) h.sound as
  have hlawful : Handles.Lawful p.table (Run.collect Program.step calls p as) :=
    Run.always_collect Sound Program.table (fun _ a hp => hp.step a) (fun _ _ => rfl)
      (fun _ a hp => hp.lawful a) h.sound as
  have htable : (Run.final Program.step p as).table =
      Run.final Handles.step p.table (Run.collect Program.step calls p as) :=
    Run.final_proj Program.table (fun _ _ => rfl) p as
  have hbalance (fd : Int) := Handles.balanced .sockets fd hlawful
  simp only [← htable] at hbalance
  have hbefore (fd : Int) : Handles.opened p.table .sockets fd = 0 := if_neg (h.2 fd)
  refine ⟨hend, hlawful, fun fd hheld => ?_, fun fd hfree => ?_⟩
  · have hafter : Handles.opened (Run.final Program.step p as).table .sockets fd = 1 :=
      if_pos ((hend.owns fd).mpr hheld)
    have hfd := hbalance fd
    rw [hbefore, hafter] at hfd
    exact hfd
  · have hafter : Handles.opened (Run.final Program.step p as).table .sockets fd = 0 :=
      if_neg fun hopen => ((hend.owns fd).mp hopen).elim hfree
    have hfd := hbalance fd
    rw [hbefore, hafter] at hfd
    exact hfd

/-- A socket is bound, moved into another object and destroyed there. -/
def sampleMove : List (Action Bool) :=
  [.construct false 3, .bind false 0 (some { port := 40000, named := true }),
    .construct true 4, .moveAssign true false, .destroy false, .destroy true]

theorem sockets_accounted_sampleMove :
    Accounted { objects := fun _ => none, table := fun _ => none, ports := fun _ => 0 }
      sampleMove :=
  sockets_accounted _ ⟨fun _ => rfl, fun _ => (Option.some_ne_none _).symm⟩ sampleMove

end Program

end UdpSocket

end SipDemo
