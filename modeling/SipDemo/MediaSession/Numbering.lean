import SipDemo.MediaSession.Contents
import SipDemo.MediaSession.Reception

/-!
# SipDemo.MediaSession.Numbering

The numbers that a session gives to the voice packets it receives.  The jitter
buffer and the statistics keep a highest number each; on every run these are the
same, so they number every packet alike (`numbered_run`), and the packets echoed
are in the order of these numbers (`numbered_sources`).
-/

namespace SipDemo

/-! ## one numbering -/

namespace Reception

/-- The two components have the same highest number. -/
structure Agrees (r : Reception) : Prop where
  inv : r.jitter.Inv
  started : r.jitter.started = r.stats.started
  highest : r.stats.started = true → r.jitter.highestExt = r.stats.maxExt

variable {r : Reception}

theorem agrees_fresh (cfg : JitterBuffer.Config) (clockRate : Nat) :
    Agrees (fresh cfg clockRate) where
  inv := JitterBuffer.inv_fresh cfg
  started := rfl
  highest h := absurd h (by simp [fresh])

/-- They number an arriving packet alike. -/
theorem Agrees.slot_eq (h : Agrees r) (pkt : RtpPacket) (nowSec : ℚ) :
    r.jitter.slotOf pkt = r.stats.number
      { seq := pkt.sequence, rtpTimestamp := pkt.timestamp, arrivalSec := nowSec } := by
  rw [JitterBuffer.slotOf, RtpStats.number, h.started]
  split
  · next hstarted =>
      rw [JitterBuffer.extend, RtpStats.extend, h.highest hstarted]
  · rfl

theorem Agrees.arrive (h : Agrees r) (pkt : RtpPacket) (nowSec : ℚ) :
    Agrees (r.step (.arrive pkt nowSec)) := by
  obtain ⟨hstarted, hhighest, _⟩ := highest_of_insertion h.inv (JitterBuffer.insert_cases h.inv pkt)
  refine ⟨JitterBuffer.step_inv (.insert pkt) h.inv, by simpa using hstarted, fun _ => ?_⟩
  rw [step_arrive_jitter, step_arrive_stats, hhighest, h.slot_eq pkt nowSec, RtpStats.number]
  cases hidle : r.stats.started with
  | false =>
      obtain ⟨_, hmax, _⟩ :=
        @RtpStats.update_of_idle r.stats pkt.sequence pkt.timestamp nowSec hidle
      rw [hmax, (JitterBuffer.start_of_idle (h.started.trans hidle) pkt).2,
        h.slot_eq pkt nowSec, RtpStats.number, hidle]
      simp
  | true =>
      obtain ⟨_, hmax, _⟩ :=
        @RtpStats.update_of_started r.stats pkt.sequence pkt.timestamp nowSec hidle
      rw [hmax, JitterBuffer.start_of_started (h.started.trans hidle), h.highest hidle]
      simp

theorem Agrees.pop (h : Agrees r) : Agrees (r.step .pop) := by
  have hinv := JitterBuffer.step_inv .pop h.inv
  rw [JitterBuffer.step_pop] at hinv
  have hframe : r.jitter.pop.2.started = r.jitter.started ∧
      r.jitter.pop.2.highestExt = r.jitter.highestExt := by
    have hpop := JitterBuffer.pop_cases h.inv
    generalize r.jitter.pop.1 = slot, r.jitter.pop.2 = jb' at hpop ⊢
    cases hpop <;> exact ⟨rfl, rfl⟩
  exact ⟨hinv, hframe.1.trans h.started, fun hstarted => hframe.2.trans (h.highest hstarted)⟩

theorem Agrees.step (h : Agrees r) (e : Event) : Agrees (r.step e) := by
  cases e with
  | arrive pkt nowSec => exact h.arrive pkt nowSec
  | pop => exact h.pop

end Reception

namespace MediaSession

/-! ## the voice of a run -/

/-- The datagrams that hold a voice packet. -/
def voiceData (s : MediaSession) : Action → List Str
  | .recv dg _ =>
    if (RtpPacket.parseBuf dg.data).any fun pkt => !s.isDtmf pkt then [dg.data] else []
  | .playout | .output _ | .stop => []

theorem voice_eq (s : MediaSession) (a : Action) :
    s.voice a = (s.voiceData a).filterMap RtpPacket.parseBuf := by
  cases a with
  | recv dg nowSec =>
      simp only [voice, voiceData]
      cases hparse : RtpPacket.parseBuf dg.data with
      | none => simp
      | some pkt => cases hdtmf : s.isDtmf pkt <;> simp [hdtmf, hparse, Option.filter]
  | playout | output connected | stop => rfl

/-- What an action is to the statistics. -/
def samples (s : MediaSession) : Action → List RtpStats.Sample
  | .recv dg nowSec =>
    (s.voice (.recv dg nowSec)).map fun pkt =>
      { seq := pkt.sequence, rtpTimestamp := pkt.timestamp, arrivalSec := nowSec }
  | .playout | .output _ | .stop => []

theorem seq_samples (s : MediaSession) (a : Action) :
    (s.samples a).map RtpStats.Sample.seq = (s.voice a).map RtpPacket.sequence := by
  cases a with
  | recv dg nowSec => simp [samples, Function.comp_def]
  | playout | output connected | stop => rfl

theorem rtpStats_step (s : MediaSession) (a : Action) :
    (s.step a).rtpStats = Run.final RtpStats.feed s.rtpStats (s.samples a) := by
  cases a with
  | recv dg nowSec =>
      rcases s.recv_cases dg nowSec with
        ⟨hnone, hrecv⟩ | ⟨pkt, hsome, ⟨hdtmf, hrecv⟩ | ⟨hdtmf, hrecv⟩⟩
      · simp [step, act, samples, voice, hnone, hrecv]
      · simp [step, act, samples, voice, Option.filter, hsome, hdtmf, hrecv, feedDtmf]
      · simp [step, act, samples, voice, Option.filter, hsome, hdtmf, hrecv, feedVoice,
          RtpStats.feed]
  | playout =>
      simp only [step, act, playout, samples]
      split <;> rfl
  | output connected =>
      simp only [step, act, output, samples]
      split <;> rfl
  | stop =>
      simp only [step, act, stop, samples]
      split <;> rfl

theorem voice_congr {s t : MediaSession} (h : s.dtmfPayloadType = t.dtmfPayloadType) :
    s.voice = t.voice := by
  have hdtmf : s.isDtmf = t.isDtmf := by
    funext pkt
    rw [isDtmf, isDtmf, h]
  funext a
  cases a <;> simp only [voice, hdtmf]

/-- The voice packets of a run are read off the datagrams that hold voice. -/
theorem voice_run (s : MediaSession) (acts : List Action) :
    Run.collect step voice s acts = (acts.flatMap s.voiceData).filterMap RtpPacket.parseBuf := by
  rw [Run.collect_eq_flatMap fun s a => voice_congr (dtmfPayloadType_step s a),
    List.filterMap_flatMap, show s.voice = _ from funext s.voice_eq]

/-- The statistics see their sequence numbers. -/
theorem seq_run (s : MediaSession) (acts : List Action) :
    (Run.collect step samples s acts).map RtpStats.Sample.seq =
      (Run.collect step voice s acts).map RtpPacket.sequence := by
  rw [← Run.collect_map, ← Run.collect_map]
  exact congrArg (fun f => Run.collect step f s acts)
    (funext fun s => funext fun a => seq_samples s a)

/-! ## numbers -/

/-- The voice packets of an action, with the numbers the jitter buffer gives them. -/
def numbered (s : MediaSession) (a : Action) : List (Int × RtpPacket) :=
  (s.voice a).map fun pkt => (s.jitter.slotOf pkt, pkt)

theorem agrees_step {s : MediaSession} (h : s.reception.Agrees) (a : Action) :
    (s.step a).reception.Agrees := by
  rw [reception_step]
  exact Run.final_of_preserved Reception.Agrees (fun r e hr => hr.step e) h _

theorem number_step {s : MediaSession} (h : s.reception.Agrees) (a : Action) :
    (s.numbered a).map Prod.fst = s.rtpStats.numbers (s.samples a) := by
  cases a with
  | recv dg nowSec =>
      simp only [numbered, samples, voice]
      cases hparse : RtpPacket.parseBuf dg.data with
      | none => rfl
      | some pkt =>
          have hslot : s.jitter.slotOf pkt = s.rtpStats.number _ := h.slot_eq pkt nowSec
          cases hdtmf : s.isDtmf pkt <;> simp [Option.filter, hdtmf, hslot, RtpStats.numbers]
  | playout | output connected | stop => rfl

/-- **One numbering**: the jitter buffer numbers the voice of a run as the
statistics do. -/
theorem numbered_run {s : MediaSession} (h : s.reception.Agrees) (acts : List Action) :
    (Run.collect step numbered s acts).map Prod.fst =
        s.rtpStats.numbers (Run.collect step samples s acts) ∧
      (Run.collect step numbered s acts).map Prod.snd = Run.collect step voice s acts := by
  induction acts generalizing s with
  | nil => exact ⟨rfl, rfl⟩
  | cons a acts ih =>
      obtain ⟨hnumbers, hpackets⟩ := ih (agrees_step h a)
      rw [rtpStats_step] at hnumbers
      simp only [Run.collect_cons, List.map_append, number_step h a, hnumbers, hpackets,
        RtpStats.numbers, Run.collect_append]
      simp [numbered, Function.comp_def]

/-- What gets into the jitter buffer has its number. -/
theorem accepted_sublist (s : MediaSession) (a : Action) :
    (s.accepted a).Sublist (s.numbered a) := by
  cases a with
  | recv dg nowSec =>
      cases hparse : RtpPacket.parseBuf dg.data with
      | none => simp [accepted, jitterOps, hparse]
      | some pkt =>
          cases hdtmf : s.isDtmf pkt with
          | true => simp [accepted, jitterOps, hparse, hdtmf]
          | false =>
              simp only [accepted, numbered, jitterOps, voice, hparse, hdtmf, Option.filter,
                Bool.false_eq_true, if_false, Run.collect_cons, JitterBuffer.accepted]
              split <;> simp
  | playout | output connected | stop => exact .slnil

/-- The number of a packet is its sequence number, unwrapped. -/
theorem accepted_emod (s : MediaSession) (acts : List Action) :
    ∀ h ∈ Run.collect step accepted s acts, h.1 % 65536 = h.2.sequence.toNat := by
  refine Run.forall_mem_collect (fun _ => True) (fun s a _ h hh => ?_) (fun _ _ _ => trivial)
    trivial acts
  obtain ⟨pkt, _, rfl⟩ := List.mem_map.mp ((s.accepted_sublist a).subset hh)
  exact s.jitter.slotOf_emod pkt

/-- The sources of a session with nothing in it are some of the packets it
received, in increasing order of their numbers. -/
theorem numbered_sources {s : MediaSession} {cfg : JitterBuffer.Config}
    (hfresh : s.jitter = .fresh cfg) (hqueue : s.queue.q = []) (acts : List Action) :
    ∃ heard : List (Int × RtpPacket), heard.map Prod.snd = Run.collect step sources s acts ∧
      (heard.map Prod.fst).Pairwise (· < ·) ∧
      heard.Subperm (Run.collect step accepted s acts) := by
  obtain ⟨hsorted, hsubperm, _⟩ := played_in_order hfresh acts
  obtain ⟨hfifo, hentered, _⟩ := sources_in_order s acts
  rw [hqueue, List.nil_append] at hfifo
  rw [hfifo] at hentered
  obtain ⟨heard, hheard, hmap⟩ :=
    List.sublist_map_iff.mp ((List.sublist_append_left _ _).trans hentered)
  exact ⟨heard, hmap.symm, hsorted.sublist (hheard.map Prod.fst), hheard.subperm.trans hsubperm⟩

end MediaSession

end SipDemo
