import SipDemo.WsClient.Threads

/-!
# SipDemo.WsClient.Lifecycle

The descriptors of a client over every interleaving of its threads.

The invariant (`Sound`) ties the table of the process to the fields of the
client: what the client has open is `fd_`, and while `connect` is at work its
new socket.  A second connection is never begun before the reader of the first
is gone, and a reader that has read `fd_` holds the current connection or a
number that has been closed since.
-/

namespace SipDemo

namespace WsClient

/-- A call leaves the client as it is, or closes its open connection. -/
theorem turn_cases (s : WsClient) (t : Turn) : s.turn t = s ∨ s.turn t = s.closeFdUnlocked := by
  cases hopen : s.isOpen with
  | false => exact .inl (by rw [turn, perform_closed hopen])
  | true =>
      rcases perform_open hopen t with ⟨_, heq⟩ | ⟨frame, _, heq⟩ | ⟨torn, _, heq⟩
      · exact .inl (by rw [turn, heq])
      · exact .inl (by rw [turn, heq])
      · exact .inr (by rw [turn, heq])

/-- What the client has open, before and after a call that may close it. -/
theorem owns_closes {s s' : WsClient} {t : Handles.Table Int Party} {others : List Int}
    (h : Handles.Owns t .client {fd | fd ∈ s.descriptors ++ others})
    (hs : s' = s ∨ s' = s.closeFdUnlocked) (hothers : s.fd = kInvalidFd ∨ others = []) :
    Handles.Owns (Run.final Handles.step t (s.closes s')) .client
      {fd | fd ∈ s'.descriptors ++ others} := by
  by_cases hfd : s'.fd = s.fd
  · have hcalls : s.closes s' = [] := if_pos hfd
    rw [hcalls, descriptors, hfd]
    exact h
  · have hcalls : s.closes s' = [(.client, .release s.fd)] := if_neg hfd
    obtain rfl : s' = s.closeFdUnlocked := hs.resolve_left fun heq => hfd (heq ▸ rfl)
    have hopen : s.fd ≠ kInvalidFd := fun hno => hfd hno.symm
    obtain rfl := hothers.resolve_left hopen
    rw [descriptors, if_neg hopen] at h
    rw [hcalls]
    exact fun fd => (h.release fd).trans (by simp [descriptors, closeFdUnlocked])

theorem closes_lawful {s s' : WsClient} {t : Handles.Table Int Party} {others : List Int}
    (h : Handles.Owns t .client {fd | fd ∈ s.descriptors ++ others})
    (hs : s' = s ∨ s' = s.closeFdUnlocked) : Handles.Lawful t (s.closes s') := by
  by_cases hfd : s'.fd = s.fd
  · have hcalls : s.closes s' = [] := if_pos hfd
    rw [hcalls]
    trivial
  · have hcalls : s.closes s' = [(.client, .release s.fd)] := if_neg hfd
    obtain rfl : s' = s.closeFdUnlocked := hs.resolve_left fun heq => hfd (heq ▸ rfl)
    have hopen : s.fd ≠ kInvalidFd := fun hno => hfd hno.symm
    rw [hcalls]
    exact ⟨(h s.fd).mpr (by simp [descriptors, hopen]), trivial⟩

namespace Threads

variable {s s' : Threads} {a : Action}

theorem step_eq_self (h : s.act a = (s, [])) : s.step a = s := step_eq h

/-- The reader is not started, or has returned. -/
def Gone (s : Threads) : Prop := s.reader = .none ∨ s.reader = .finished

/-- What holds wherever the owner is. -/
def OwnerOk (s : Threads) : Prop :=
  match s.owner with
  | .idle => s.Gone → s.client.fd = kInvalidFd
  | .stopping _ => s.client.readerStop = true ∧ (s.Gone → s.client.fd = kInvalidFd)
  | .joining _ => s.client.readerStop = true ∧ s.client.fd = kInvalidFd
  | .dialling _ => s.reader = .none ∧ s.client.fd = kInvalidFd
  | .shaking _ _ net =>
      s.reader = .none ∧ s.client.fd = kInvalidFd ∧ net.socket ≠ kInvalidFd
  | .spawning => s.reader = .none

/-- The invariant. -/
structure Sound (s : Threads) : Prop where
  owns : Handles.Owns s.table .client {fd | fd ∈ s.held}
  connected_iff : s.client.connected = true ↔ s.client.fd ≠ kInvalidFd
  owner : s.OwnerOk
  loaded : ∀ fd, s.reader = .loaded fd → s.client.fd = fd ∨ s.client.fd = kInvalidFd

theorem Fresh.sound (h : Fresh s) : Sound s := by
  obtain ⟨hclient, howner, hreader, hnone⟩ := h
  refine ⟨fun fd => ?_, ?_, ?_, ?_⟩
  · simp [hnone fd, held, descriptors, Owner.descriptors, hclient, howner]
  · simp [hclient]
  · simp [OwnerOk, howner, hclient]
  · simp [hreader]

/-- A step that the owner does not take, and that may close the connection. -/
theorem OwnerOk.of_reader (h : s.OwnerOk) (howner : s'.owner = s.owner)
    (hstop : s'.client.readerStop = s.client.readerStop)
    (hfd : s'.client.fd = s.client.fd ∨ s'.client.fd = kInvalidFd)
    (hnone : s.reader = .none → s'.reader = .none)
    (hgone : s'.Gone → s.Gone ∨ s'.client.fd = kInvalidFd) : s'.OwnerOk := by
  have hkeep (hno : s.client.fd = kInvalidFd) : s'.client.fd = kInvalidFd :=
    hfd.elim (fun heq => heq.trans hno) id
  unfold OwnerOk at h ⊢
  rw [howner]
  cases ho : s.owner with
  | idle =>
      rw [ho] at h
      exact fun hg => (hgone hg).elim (fun hg => hkeep (h hg)) id
  | stopping c =>
      rw [ho] at h
      exact ⟨hstop.trans h.1, fun hg => (hgone hg).elim (fun hg => hkeep (h.2 hg)) id⟩
  | joining c =>
      rw [ho] at h
      exact ⟨hstop.trans h.1, hkeep h.2⟩
  | dialling url =>
      rw [ho] at h
      exact ⟨hnone h.1, hkeep h.2⟩
  | shaking url parts net =>
      rw [ho] at h
      exact ⟨hnone h.1, hkeep h.2.1, h.2.2⟩
  | spawning =>
      rw [ho] at h
      exact hnone h

/-- A step that makes no calls and keeps the connection. -/
theorem Sound.of_quiet (h : Sound s) (hact : s.act a = (s', [])) (hfd : s'.client.fd = s.client.fd)
    (hconnected : s'.client.connected = s.client.connected) (htable : s'.table = s.table)
    (hdesc : s'.owner.descriptors = s.owner.descriptors) (howner : s'.OwnerOk)
    (hloaded : ∀ fd, s'.reader = .loaded fd → s.client.fd = fd ∨ s.client.fd = kInvalidFd) :
    Sound (s.step a) := by
  have hheld : s'.held = s.held := by rw [held, held, descriptors, descriptors, hfd, hdesc]
  have hstep : s.step a = s' := by
    rw [step_eq hact, Run.final_nil, ← htable]
  rw [hstep]
  refine ⟨?_, ?_, howner, ?_⟩
  · rw [htable, hheld]
    exact h.owns
  · rw [hfd, hconnected]
    exact h.connected_iff
  · rw [hfd]
    exact hloaded

/-- A step that may close the connection. -/
theorem Sound.of_closing (h : Sound s) (hact : s.act a = (s', s.client.closes s'.client))
    (hclient : s'.client = s.client ∨ s'.client = s.client.closeFdUnlocked)
    (hdesc : s'.owner.descriptors = s.owner.descriptors) (howner : s'.OwnerOk)
    (hloaded : ∀ fd, s'.reader = .loaded fd → s.reader = .loaded fd) : Sound (s.step a) := by
  rw [step_eq hact]
  refine ⟨?_, ?_, howner, ?_⟩
  · have hothers : s.client.fd = kInvalidFd ∨ s.owner.descriptors = [] := by
      cases ho : s.owner with
      | shaking url parts net =>
          have hok := h.owner
          rw [OwnerOk, ho] at hok
          exact .inl hok.2.1
      | _ => exact .inr rfl
    have howns := owns_closes h.owns hclient hothers
    rw [← hdesc] at howns
    exact howns
  · change s'.client.connected = true ↔ s'.client.fd ≠ kInvalidFd
    cases hclient with
    | inl heq => rw [heq]; exact h.connected_iff
    | inr heq => simp [heq, closeFdUnlocked]
  · intro fd hfd
    change s'.client.fd = fd ∨ s'.client.fd = kInvalidFd
    cases hclient with
    | inl heq => rw [heq]; exact h.loaded fd (hloaded fd hfd)
    | inr heq => exact .inr (heq ▸ rfl)

theorem Sound.stay (h : Sound s) (hact : s.act a = (s, [])) : Sound (s.step a) := by
  rw [step_eq_self hact]
  exact h

/-! ## the owner -/

theorem Sound.call (h : Sound s) (c : OwnerCall) : Sound (s.step (.call c)) := by
  obtain ⟨client, owner, reader, table⟩ := s
  cases owner with
  | idle => exact h.of_quiet rfl rfl rfl rfl rfl ⟨rfl, h.owner⟩ h.loaded
  | _ => exact h.stay rfl

theorem Sound.closeFd (h : Sound s) : Sound (s.step .closeFd) := by
  obtain ⟨client, owner, reader, table⟩ := s
  cases owner with
  | stopping c => exact h.of_closing rfl (.inr rfl) rfl ⟨h.owner.1, rfl⟩ fun _ => id
  | _ => exact h.stay rfl

/-- The join waits for the reader. -/
theorem act_join_waiting (h : ¬s.Gone) : s.act .join = (s, []) := by
  obtain ⟨client, owner, reader, table⟩ := s
  cases owner with
  | joining c => exact if_neg h
  | _ => rfl

theorem Sound.join (h : Sound s) : Sound (s.step .join) := by
  by_cases hgone : s.Gone
  · obtain ⟨client, owner, reader, table⟩ := s
    cases owner with
    | joining c =>
        cases c with
        | close =>
            exact h.of_quiet (if_pos hgone) rfl rfl rfl rfl (fun _ => h.owner.2) fun _ => nofun
        | connect url =>
            exact h.of_quiet (if_pos hgone) rfl rfl rfl rfl ⟨rfl, h.owner.2⟩ fun _ => nofun
    | _ => exact h.stay rfl
  · exact h.stay (act_join_waiting hgone)

/-- What the part of `connect` up to the socket does. -/
theorem dial_cases (s : Threads) (net : Network) :
    s.act (.dial net) = (s, []) ∨ ∃ url, s.owner = .dialling url ∧
      (s.act (.dial net) = ({ s with owner := .idle }, []) ∨
        ∃ parts, net.socket ≠ kInvalidFd ∧ s.table net.socket = none ∧
          s.act (.dial net) = ({ s with owner := .shaking url parts net },
            [(.client, .acquire net.socket)])) := by
  cases ho : s.owner with
  | dialling url =>
      simp only [act, ho]
      cases parseWsUrl url with
      | none => exact .inr ⟨url, rfl, .inl rfl⟩
      | some parts =>
          by_cases hfail : (!net.resolves parts.host parts.port ||
              decide (net.socket = kInvalidFd)) = true
          · exact .inr ⟨url, rfl, .inl (if_pos hfail)⟩
          · by_cases hfree : s.table net.socket = none
            · have hsocket : net.socket ≠ kInvalidFd := fun heq => hfail (by simp [heq])
              exact .inr ⟨url, rfl, .inr ⟨parts, hsocket, hfree,
                (if_neg hfail).trans (if_pos hfree)⟩⟩
            · exact .inl ((if_neg hfail).trans (if_neg hfree))
  | _ => exact .inl (by rw [act, ho])

theorem Sound.dial (h : Sound s) (net : Network) : Sound (s.step (.dial net)) := by
  rcases s.dial_cases net with hstay | ⟨url, ho, hact | ⟨parts, hsocket, hfree, hact⟩⟩
  · exact h.stay hstay
  · obtain ⟨client, owner, reader, table⟩ := s
    subst ho
    exact h.of_quiet hact rfl rfl rfl rfl (fun _ => h.owner.2) h.loaded
  · obtain ⟨client, owner, reader, table⟩ := s
    subst ho
    obtain ⟨hnone, hfd⟩ := h.owner
    rw [step_eq hact]
    refine ⟨?_, h.connected_iff, ⟨hnone, hfd, hsocket⟩, h.loaded⟩
    have howns := h.owns
    rw [held, descriptors, if_pos hfd] at howns ⊢
    exact fun fd => (howns.acquire fd).trans (by simp [Owner.descriptors])

theorem Sound.shake (h : Sound s) : Sound (s.step .shake) := by
  obtain ⟨client, owner, reader, table⟩ := s
  cases owner with
  | shaking url parts net =>
      obtain ⟨hnone, hfd, hsocket⟩ := h.owner
      have howns := h.owns
      rw [held, descriptors, if_pos hfd] at howns
      cases hs : handshake net parts with
      | true =>
          have hact : act ⟨client, .shaking url parts net, reader, table⟩ .shake = (_, []) :=
            if_pos hs
          rw [step_eq hact]
          refine ⟨?_, ?_, hnone, ?_⟩
          · rw [held, descriptors, if_neg hsocket]
            exact howns
          · exact iff_of_true rfl hsocket
          · exact fun fd hloaded => nomatch hnone.symm.trans hloaded
      | false =>
          have hact : act ⟨client, .shaking url parts net, reader, table⟩ .shake =
              (_, [(.client, .release net.socket)]) := if_neg (hs ▸ Bool.false_ne_true)
          rw [step_eq hact]
          refine ⟨?_, h.connected_iff, fun _ => hfd, h.loaded⟩
          rw [held, descriptors, if_pos hfd]
          exact fun fd => (howns.release fd).trans (by simp [Owner.descriptors])
  | _ => exact h.stay rfl

theorem Sound.spawn (h : Sound s) : Sound (s.step .spawn) := by
  obtain ⟨client, owner, reader, table⟩ := s
  cases owner with
  | spawning =>
      refine h.of_quiet rfl rfl rfl rfl rfl ?_ fun _ => nofun
      exact fun hgone => hgone.elim nofun nofun
  | _ => exact h.stay rfl

/-! ## the reader and the others -/

/-- A step of the reader that makes no calls. -/
theorem Sound.of_reading (h : Sound s) (reader : Reader)
    (hact : s.act a = ({ s with reader }, [])) (hfrom : ¬s.Gone)
    (hto : reader ≠ .none ∧ reader ≠ .finished)
    (hloaded : ∀ fd, reader = .loaded fd → s.client.fd = fd ∨ s.client.fd = kInvalidFd) :
    Sound (s.step a) := by
  refine h.of_quiet hact rfl rfl rfl rfl ?_ hloaded
  refine h.owner.of_reader rfl rfl (.inl rfl) (fun heq => absurd (.inl heq) hfrom) ?_
  exact fun hgone => (hgone.elim hto.1 hto.2).elim

theorem Sound.test (h : Sound s) : Sound (s.step .test) := by
  obtain ⟨client, owner, reader, table⟩ := s
  cases reader with
  | testing =>
      cases hstop : client.readerStop with
      | true =>
          exact h.of_reading .leaving (if_pos hstop) (by simp [Gone]) (by simp) (by simp)
      | false =>
          exact h.of_reading (.loaded client.fd) (if_neg (hstop ▸ Bool.false_ne_true))
            (by simp [Gone]) (by simp) (by simp)
  | _ => exact h.stay rfl

theorem Sound.recv (h : Sound s) : Sound (s.step .recv) := by
  obtain ⟨client, owner, reader, table⟩ := s
  cases reader with
  | loaded fd => exact h.of_reading _ rfl (by simp [Gone]) (by simp) (by simp)
  | _ => exact h.stay rfl

theorem Sound.received (h : Sound s) (r : Received) : Sound (s.step (.received r)) := by
  obtain ⟨client, owner, reader, table⟩ := s
  cases reader with
  | receiving fd => cases r <;> exact h.of_reading _ rfl (by simp [Gone]) (by simp) (by simp)
  | _ => exact h.stay rfl

theorem Sound.answer (h : Sound s) (mask : Mask) (send : SendResults) :
    Sound (s.step (.answer mask send)) := by
  obtain ⟨client, owner, reader, table⟩ := s
  cases reader with
  | answering payload =>
      have hturn := client.turn_cases { call := .pong payload, mask, send }
      refine h.of_closing rfl hturn rfl ?_ fun _ => nofun
      refine h.owner.of_reader rfl ?_ ?_ nofun fun hgone => hgone.elim nofun nofun
      · exact hturn.elim (congrArg WsClient.readerStop) (congrArg WsClient.readerStop)
      · exact hturn.imp (congrArg WsClient.fd) (congrArg WsClient.fd)
  | _ => exact h.stay rfl

theorem Sound.leave (h : Sound s) : Sound (s.step .leave) := by
  obtain ⟨client, owner, reader, table⟩ := s
  cases reader with
  | leaving =>
      refine h.of_closing rfl (.inr rfl) rfl ?_ fun _ => nofun
      exact h.owner.of_reader rfl rfl (.inr rfl) nofun fun _ => .inr rfl
  | _ => exact h.stay rfl

theorem Sound.send (h : Sound s) (t : Turn) : Sound (s.step (.send t)) := by
  have hturn := s.client.turn_cases t
  refine h.of_closing rfl hturn rfl ?_ fun _ => id
  refine h.owner.of_reader rfl ?_ ?_ id .inl
  · exact hturn.elim (congrArg WsClient.readerStop) (congrArg WsClient.readerStop)
  · exact hturn.imp (congrArg WsClient.fd) (congrArg WsClient.fd)

theorem Sound.rest (h : Sound s) (call : Handles.Call Int) : Sound (s.step (.rest call)) := by
  by_cases hallowed : Handles.Allows s.table .rest call
  · have hact : s.act (.rest call) = (s, [(.rest, call)]) := if_pos hallowed
    rw [step_eq hact]
    exact ⟨h.owns.other nofun hallowed, h.connected_iff, h.owner, h.loaded⟩
  · exact h.stay (if_neg hallowed)

/-- **The invariant** is kept by whatever happens next. -/
theorem Sound.step (h : Sound s) (a : Action) : Sound (s.step a) := by
  cases a with
  | call c => exact h.call c
  | closeFd => exact h.closeFd
  | join => exact h.join
  | dial net => exact h.dial net
  | shake => exact h.shake
  | spawn => exact h.spawn
  | send t => exact h.send t
  | test => exact h.test
  | recv => exact h.recv
  | received r => exact h.received r
  | answer mask send => exact h.answer mask send
  | leave => exact h.leave
  | rest call => exact h.rest call

/-- Whatever happens next, a descriptor is opened only while it is free, and
closed only by the party that has it open. -/
theorem Sound.lawful (h : Sound s) (a : Action) : Handles.Lawful s.table (s.calls a) := by
  obtain ⟨client, owner, reader, table⟩ := s
  cases a with
  | call c => cases owner <;> trivial
  | closeFd =>
      cases owner with
      | stopping c => exact closes_lawful h.owns (.inr rfl)
      | _ => trivial
  | join =>
      simp only [calls, act]
      split
      · split
        · split <;> trivial
        · trivial
      · trivial
  | dial net =>
      rcases dial_cases ⟨client, owner, reader, table⟩ net with
        hact | ⟨url, ho, hact | ⟨parts, hsocket, hfree, hact⟩⟩
      · rw [calls, hact]
        trivial
      · rw [calls, hact]
        trivial
      · rw [calls, hact]
        exact ⟨hfree, trivial⟩
  | shake =>
      cases owner with
      | shaking url parts net =>
          simp only [calls, act]
          split
          · trivial
          · refine ⟨(h.owns net.socket).mpr ?_, trivial⟩
            exact List.mem_append_right _ List.mem_cons_self
      | _ => trivial
  | spawn => cases owner <;> trivial
  | send t => exact closes_lawful h.owns (client.turn_cases t)
  | test =>
      simp only [calls, act]
      split
      · split <;> trivial
      · trivial
  | recv => cases reader <;> trivial
  | received r => cases reader <;> cases r <;> trivial
  | answer mask send =>
      cases reader with
      | answering payload => exact closes_lawful h.owns (client.turn_cases _)
      | _ => trivial
  | leave =>
      cases reader with
      | leaving => exact closes_lawful h.owns (.inr rfl)
      | _ => trivial
  | rest call =>
      simp only [calls, act]
      split
      · next hallowed => exact ⟨hallowed, trivial⟩
      · trivial

/-- A call that writes has an open connection. -/
theorem mem_descriptors_of_perform {s : WsClient} {t : Turn} {fd : Int}
    (h : fd ∈ if (s.perform t).2.1 = [] then [] else [s.fd]) : fd ∈ s.descriptors := by
  split at h
  · cases h
  · next hwrites =>
      cases hopen : s.isOpen with
      | false => exact absurd (congrArg (·.2.1) (perform_closed hopen t)) hwrites
      | true =>
          have hfd : s.fd ≠ kInvalidFd := by
            rw [isOpen, Bool.and_eq_true] at hopen
            exact of_decide_eq_true hopen.2
          rw [descriptors, if_neg hfd]
          exact h

/-- What is written goes to a descriptor of the client. -/
theorem Sound.writes (h : Sound s) (a : Action) :
    ∀ fd ∈ s.writes a, s.table fd = some .client := by
  intro fd hfd
  rw [h.owns fd]
  unfold Threads.writes at hfd
  split at hfd
  · next net _ _ ho =>
      rw [held, ho]
      exact List.mem_append_right _ hfd
  · exact List.mem_append_left _ (mem_descriptors_of_perform hfd)
  · exact List.mem_append_left _ (mem_descriptors_of_perform hfd)
  · cases hfd

/-- What a run from `s` does with the descriptors. -/
structure Accounted (s : Threads) (as : List Action) : Prop where
  /-- No descriptor is opened that is in use, and none closed by anyone but the
  party that has it open. -/
  lawful : Handles.Lawful s.table (Run.collect Threads.step calls s as)
  /-- The client has closed what it opened, once, but for what it still holds. -/
  balanced : ∀ fd,
    (Run.collect Threads.step calls s as).count (.client, .acquire fd) =
      (Run.collect Threads.step calls s as).count (.client, .release fd) +
        if fd ∈ (Run.final Threads.step s as).held then 1 else 0
  /-- It writes on its own descriptors only. -/
  writes : ∀ a, ∀ fd ∈ (Run.final Threads.step s as).writes a,
    (Run.final Threads.step s as).table fd = some .client
  /-- It is about to receive on its own, unless that was closed in between. -/
  receives : ∀ fd, (Run.final Threads.step s as).reader = .loaded fd →
    ((Run.final Threads.step s as).table fd = some .client ↔
      (Run.final Threads.step s as).client.connected = true)
  /-- What is connected is read. -/
  read : (Run.final Threads.step s as).client.connected = true →
    (Run.final Threads.step s as).owner = .spawning ∨ ¬(Run.final Threads.step s as).Gone

end Threads

end WsClient

end SipDemo
