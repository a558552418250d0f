import SipDemo.Handles
import SipDemo.WsClient.Handshake

/-!
# SipDemo.WsClient.Threads

The client and its threads: the one that calls `connect` and `close`, the
reader, and the threads that send.

Every critical section of `mu_` is one step, and so is every read of
`readerStop_` or of `fd_` outside of it.  The descriptors of the process are a
table (`Handles`) that the rest of the process uses too, so that a number which
the client has closed can come back as another socket.  The reader keeps the
number that it has read from `fd_` until it enters `::recv` with it.  What a
`::recv` brings is decided by the network; how the bytes become frames is the
matter of `readFrame`.
-/

namespace SipDemo

namespace WsClient

/-- Who has a descriptor open. -/
inductive Party where
  | client
  | rest
  deriving DecidableEq

/-- What the owner of the client calls. -/
inductive OwnerCall where
  | close
  | connect (url : Str)

/-- Where the owner is; `connect` begins with `close()`. -/
inductive Owner where
  /-- Between two calls. -/
  | idle
  /-- `readerStop_` is set, `mu_` not taken yet. -/
  | stopping (c : OwnerCall)
  /-- At the join of the reader. -/
  | joining (c : OwnerCall)
  /-- In `connect`, with the old reader gone. -/
  | dialling (url : Str)
  /-- With a socket, up to the end of the handshake. -/
  | shaking (url : Str) (parts : UrlParts) (net : Network)
  /-- `fd_` is set, the reader not started yet. -/
  | spawning

/-- Where the reader is. -/
inductive Reader where
  /-- Not started, or joined. -/
  | none
  /-- Before a test of `readerStop_`. -/
  | testing
  /-- It has read `fd_` and is about to call `::recv`. -/
  | loaded (fd : Int)
  /-- In `::recv`. -/
  | receiving (fd : Int)
  /-- It has a ping to answer. -/
  | answering (payload : List UInt8)
  /-- Out of the loop. -/
  | leaving
  /-- It has returned. -/
  | finished
  deriving DecidableEq

/-- What a `::recv` brings. -/
inductive Received where
  /-- A part of a frame. -/
  | part
  | ping (payload : List UInt8)
  /-- Another frame that is read on after. -/
  | other
  /-- Nothing more, an error, a close frame or one that is too long. -/
  | last

structure Threads where
  client : WsClient := {}
  owner : Owner := .idle
  reader : Reader := .none
  table : Handles.Table Int Party

/-- What can happen next. -/
inductive Action where
  | call (c : OwnerCall)
  /-- The critical section of `close`. -/
  | closeFd
  | join
  /-- From the URL to the socket. -/
  | dial (net : Network)
  /-- From `::connect` to the end of `connect`. -/
  | shake
  | spawn
  /-- Another thread sends. -/
  | send (t : Turn)
  | test
  | recv
  | received (r : Received)
  | answer (mask : Mask) (send : SendResults)
  /-- The critical section at the end of `readerLoop`. -/
  | leave
  /-- The rest of the process opens or closes a descriptor. -/
  | rest (call : Handles.Call Int)

/-- The handshake of `connect` on a socket: whether the server is reached, gets
the request and answers it with a 101. -/
def handshake (net : Network) (parts : UrlParts) : Bool :=
  net.connects && (sendAll net.send (upgradeRequest parts (randomWsKey net.key))).1 &&
    ((readResponse [] net.incoming).elim false fun r => (find (str "101") r.1).isSome)

/-- The descriptor behind `fd_`. -/
def descriptors (s : WsClient) : List Int := if s.fd = kInvalidFd then [] else [s.fd]

/-- The descriptor of `connect` that is not in `fd_` yet. -/
def Owner.descriptors : Owner → List Int
  | .shaking _ _ net => [net.socket]
  | _ => []

/-- The `::close` between two states of the client, if `closeFdUnlocked` has one
to make. -/
def closes (s s' : WsClient) : List (Party × Handles.Call Int) :=
  if s'.fd = s.fd then [] else [(.client, .release s.fd)]

namespace Threads

/-- The state after an action, up to the table, and the calls it makes. -/
def act (s : Threads) : Action → Threads × List (Party × Handles.Call Int)
  | .call c =>
      match s.owner with
      | .idle =>
          ({ s with client := { s.client with readerStop := true }, owner := .stopping c }, [])
      | _ => (s, [])
  | .closeFd =>
      match s.owner with
      | .stopping c =>
          ({ s with client := s.client.closeFdUnlocked, owner := .joining c },
            s.client.closes s.client.closeFdUnlocked)
      | _ => (s, [])
  | .join =>
      match s.owner with
      | .joining c =>
          if s.reader = .none ∨ s.reader = .finished then
            match c with
            | .close => ({ s with owner := .idle, reader := .none }, [])
            | .connect url =>
                ({ s with client := { s.client with readerStop := false }
                          owner := .dialling url, reader := .none }, [])
          else (s, [])
      | _ => (s, [])
  | .dial net =>
      match s.owner with
      | .dialling url =>
          match parseWsUrl url with
          | none => ({ s with owner := .idle }, [])
          | some parts =>
              if !net.resolves parts.host parts.port || net.socket = kInvalidFd then
                ({ s with owner := .idle }, [])
              else if s.table net.socket = none then
                ({ s with owner := .shaking url parts net }, [(.client, .acquire net.socket)])
              else (s, [])
      | _ => (s, [])
  | .shake =>
      match s.owner with
      | .shaking url parts net =>
          if handshake net parts then
            ({ s with client := { s.client with fd := net.socket, url, connected := true }
                      owner := .spawning }, [])
          else ({ s with owner := .idle }, [(.client, .release net.socket)])
      | _ => (s, [])
  | .spawn =>
      match s.owner with
      | .spawning => ({ s with owner := .idle, reader := .testing }, [])
      | _ => (s, [])
  | .send t => ({ s with client := s.client.turn t }, s.client.closes (s.client.turn t))
  | .test =>
      match s.reader with
      | .testing =>
          if s.client.readerStop then ({ s with reader := .leaving }, [])
          else ({ s with reader := .loaded s.client.fd }, [])
      | _ => (s, [])
  | .recv =>
      match s.reader with
      | .loaded fd => ({ s with reader := .receiving fd }, [])
      | _ => (s, [])
  | .received r =>
      match s.reader, r with
      | .receiving _, .part => ({ s with reader := .testing }, [])
      | .receiving _, .ping payload => ({ s with reader := .answering payload }, [])
      | .receiving _, .other => ({ s with reader := .testing }, [])
      | .receiving _, .last => ({ s with reader := .leaving }, [])
      | _, _ => (s, [])
  | .answer mask send =>
      match s.reader with
      | .answering payload =>
          let client := s.client.turn { call := .pong payload, mask, send }
          ({ s with client, reader := .testing }, s.client.closes client)
      | _ => (s, [])
  | .leave =>
      match s.reader with
      | .leaving =>
          ({ s with client := s.client.closeFdUnlocked, reader := .finished },
            s.client.closes s.client.closeFdUnlocked)
      | _ => (s, [])
  | .rest call => if Handles.Allows s.table .rest call then (s, [(.rest, call)]) else (s, [])

/-- The calls that open and close descriptors. -/
def calls (s : Threads) (a : Action) : List (Party × Handles.Call Int) := (s.act a).2

/-- One step; an action that cannot happen changes nothing. -/
def step (s : Threads) (a : Action) : Threads :=
  { (s.act a).1 with table := Run.final Handles.step s.table (s.calls a) }

/-- The descriptors that the client holds: `fd_`, and in `connect` the new one. -/
def held (s : Threads) : List Int := s.client.descriptors ++ s.owner.descriptors

/-- The descriptors that an action connects or sends on. -/
def writes (s : Threads) (a : Action) : List Int :=
  match a, s.owner, s.reader with
  | .shake, .shaking _ _ net, _ => [net.socket]
  | .send t, _, _ => if (s.client.perform t).2.1 = [] then [] else [s.client.fd]
  | .answer mask send, _, .answering payload =>
      if (s.client.perform { call := .pong payload, mask, send }).2.1 = [] then []
      else [s.client.fd]
  | _, _, _ => []

/-- A client that nobody has used, in a process with descriptors of its own. -/
def Fresh (s : Threads) : Prop :=
  s.client = {} ∧ s.owner = .idle ∧ s.reader = .none ∧ ∀ fd, s.table fd ≠ some .client

end Threads

/-! ## `connect` in one piece -/

/-- What `connect` returns, and the client after it. -/
theorem connect_eq_handshake (s : WsClient) (net : Network) (url : Str) :
    ((s.connect net url).1, (s.connect net url).2.2.1) =
      match parseWsUrl url with
      | none => (false, { s.closeFdUnlocked with readerStop := false })
      | some parts =>
          if !net.resolves parts.host parts.port || net.socket = kInvalidFd then
            (false, { s.closeFdUnlocked with readerStop := false })
          else if handshake net parts then
            (true, { s.closeFdUnlocked with
              fd := net.socket, url, connected := true, readerStop := false })
          else (false, { s.closeFdUnlocked with readerStop := false }) := by
  unfold connect
  cases parseWsUrl url with
  | none => rfl
  | some parts =>
      simp only [handshake]
      by_cases hfail : (!net.resolves parts.host parts.port ||
          decide (net.socket = kInvalidFd)) = true
      · rw [if_pos hfail, if_pos (by rw [hfail, Bool.true_or])]
      · rw [if_neg hfail, (Bool.not_eq_true _).mp hfail, Bool.false_or]
        by_cases hc : net.connects = true
        · obtain ⟨ok, sent, hsend⟩ : ∃ ok sent,
              sendAll net.send (upgradeRequest parts (randomWsKey net.key)) = (ok, sent) :=
            ⟨_, _, rfl⟩
          obtain ⟨r, hresp⟩ : ∃ r, readResponse [] net.incoming = r := ⟨_, rfl⟩
          simp only [hc, hsend, hresp]
          cases ok with
          | false => rfl
          | true =>
              cases r with
              | none => rfl
              | some r => cases hcode : find (str "101") r.1 <;> simp [hcode]
        · simp [hc]

namespace Threads

theorem step_eq {s s' : Threads} {a : Action} {made : List (Party × Handles.Call Int)}
    (h : s.act a = (s', made)) :
    s.step a = { s' with table := Run.final Handles.step s.table made } := by
  rw [step, calls, h]

/-- Up to the join, `connect` is `close`. -/
theorem close_steps {client : WsClient} {reader : Reader} {table : Handles.Table Int Party}
    (hgone : reader = .none ∨ reader = .finished) (url : Str) :
    Run.final step ⟨client, .idle, reader, table⟩ [.call (.connect url), .closeFd, .join] =
      ⟨{ client.closeFdUnlocked with readerStop := false }, .dialling url, .none,
        Run.final Handles.step table (client.closes client.closeFdUnlocked)⟩ := by
  have hjoin : act ⟨{ client.closeFdUnlocked with readerStop := true },
      .joining (.connect url), reader,
      Run.final Handles.step table (client.closes client.closeFdUnlocked)⟩ .join = (_, []) :=
    if_pos hgone
  exact step_eq hjoin

/-- Without a reader to wait for, the steps of `connect` come to the same. -/
theorem connect_steps {client : WsClient} {reader : Reader} {table : Handles.Table Int Party}
    (hgone : reader = .none ∨ reader = .finished) {net : Network}
    (hfree : table net.socket = none) (url : Str) :
    let s := Run.final step ⟨client, .idle, reader, table⟩
      [.call (.connect url), .closeFd, .join, .dial net, .shake, .spawn]
    s.client = (client.connect net url).2.2.1 ∧ s.owner = .idle ∧
      s.reader = if (client.connect net url).1 then .testing else .none := by
  have hsteps : Run.final step ⟨client, .idle, reader, table⟩
      [.call (.connect url), .closeFd, .join, .dial net, .shake, .spawn] =
      Run.final step (Run.final step ⟨client, .idle, reader, table⟩
        [.call (.connect url), .closeFd, .join]) [.dial net, .shake, .spawn] := rfl
  rw [hsteps, close_steps hgone url]
  have hstill : Run.final Handles.step table (client.closes client.closeFdUnlocked) net.socket =
      none := by
    unfold closes
    split
    · exact hfree
    · by_cases hsame : net.socket = client.fd <;> simp [Handles.step, hsame, hfree]
  have hconnect := client.connect_eq_handshake net url
  generalize Run.final Handles.step table (client.closes client.closeFdUnlocked) = table' at *
  cases hurl : parseWsUrl url with
  | none =>
      obtain ⟨hok, hclient⟩ := Prod.mk.injEq _ _ _ _ ▸ (hurl ▸ hconnect)
      rw [hok, hclient]
      simp [step, act, calls, hurl]
  | some parts =>
      rw [hurl] at hconnect
      by_cases hfail : (!net.resolves parts.host parts.port ||
          decide (net.socket = kInvalidFd)) = true
      · obtain ⟨hok, hclient⟩ := Prod.mk.injEq _ _ _ _ ▸ hconnect.trans (if_pos hfail)
        rw [hok, hclient]
        simp [step, act, calls, hurl, hfail]
      · cases hshake : handshake net parts with
        | false =>
            obtain ⟨hok, hclient⟩ := Prod.mk.injEq _ _ _ _ ▸
              hconnect.trans ((if_neg hfail).trans (if_neg (by rw [hshake]; decide)))
            rw [hok, hclient]
            simp [step, act, calls, hurl, hfail, hstill, hshake]
        | true =>
            obtain ⟨hok, hclient⟩ := Prod.mk.injEq _ _ _ _ ▸
              hconnect.trans ((if_neg hfail).trans (if_pos hshake))
            rw [hok, hclient]
            simp [step, act, calls, hurl, hfail, hstill, hshake]

end Threads

end WsClient

end SipDemo
