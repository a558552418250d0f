import SipDemo.Codec.Accuracy
import SipDemo.RtpSender.Reports

/-!
# SipDemo.RtpSender.Fidelity

What a caller hears of its own audio.  `rtp_sender` cuts the audio into frames,
compands and numbers them, loses some and swaps some; the session it sends to
puts them back in order, and echoes them.  Where both ends use the same law, the
frames that come back are in their original order, each at most once
(`frames_echoed`), and every sample is off by no more than the law allows, for
the session decodes and encodes without adding an error of its own.  (A session
that decodes by the other law echoes something else altogether.)
-/

namespace SipDemo

open AdjacentSwaps (Swaps)

/-- A sample as it is off by companding: a thirty-second of its magnitude, and
half the least step. -/
def NearSample (x y : Int16) : Prop := 32 * |y.toInt - x.toInt| ≤ |x.toInt| + 256

namespace RtpSender

/-! ## one frame -/

/-- A frame, companded and read back by the same law. -/
theorem near_codes (src : Source) (p : Nat) {e : EchoStream}
    (hlaw : e.payloadType = 8 ↔ src.payloadType = 8) :
    List.Forall₂ NearSample (src.frame p) (e.decode (src.codes p)) := by
  have hrow : ∀ {f : Int16 → Int16} (pcm : List Int16), (∀ x, NearSample x (f x)) →
      List.Forall₂ NearSample pcm (pcm.map f) := by
    intro f pcm hf
    exact List.forall₂_map_right_iff.mpr (List.forall₂_same.mpr fun x _ => hf x)
  rw [EchoStream.decode, Source.codes]
  by_cases h : src.payloadType = 8
  · rw [if_pos (hlaw.mpr h), if_pos h, G711.decodeALawBulk, G711.encodeALawBulk, List.map_map]
    refine hrow _ fun x => ?_
    have herror := G711.aLevel_error x.toInt
    rw [← G711.toInt_decodeALaw_encodeALaw] at herror
    rw [NearSample, Function.comp_apply]
    exact herror.trans (max_le (le_add_of_nonneg_left (abs_nonneg _)) (by omega))
  · rw [if_neg (mt hlaw.mp h), if_neg h, G711.decodeMuLawBulk, G711.encodeMuLawBulk, List.map_map]
    refine hrow _ fun x => ?_
    have hlo := x.le_toInt
    have hhi := x.toInt_lt
    have herror := G711.muLevel_error (x := x.toInt) (by omega) (by omega)
    rw [← G711.toInt_decodeMuLaw_encodeMuLaw] at herror
    rw [NearSample, Function.comp_apply]
    omega

/-! ## all frames -/

/-- Where every entry comes from somewhere, so does the list. -/
theorem exists_map_eq {α β : Type} {f : α → β} {origin : List α} {l : List β}
    (h : ∀ x ∈ l, ∃ p ∈ origin, f p = x) : ∃ ps : List α, ps ⊆ origin ∧ ps.map f = l := by
  induction l with
  | nil => exact ⟨[], List.nil_subset _, rfl⟩
  | cons x l ih =>
      obtain ⟨p, hp, rfl⟩ := h x List.mem_cons_self
      obtain ⟨ps, hps, rfl⟩ := ih fun y hy => h y (List.mem_cons_of_mem _ hy)
      exact ⟨p :: ps, List.cons_subset.mpr ⟨hp, hps⟩, rfl⟩

variable {src : Source} {seq : UInt16} {timestamp : UInt32} {draw : Nat → Draw} {s : Sender}
  {order : List Nat}

/-- The session numbers the packets by their positions. -/
theorem Accounts.numbered_eq (h : Accounts src seq timestamp draw s order)
    (hclose : Close draw src.totalPackets) {remote : Endpoint} {payloadType dtmfPayloadType : Int}
    {acts : List MediaSession.Action}
    (hheard : acts.flatMap
      (MediaSession.make.start remote payloadType dtmfPayloadType).voiceData = s.datagrams) :
    ∃ c : Int, Run.collect MediaSession.step MediaSession.numbered
      (MediaSession.make.start remote payloadType dtmfPayloadType) acts =
        order.map fun p : Nat => (c + p, arrived src seq timestamp p) := by
  generalize hsession : MediaSession.make.start remote payloadType dtmfPayloadType = session
    at hheard ⊢
  obtain ⟨c, hnumbers⟩ := numbers_of_order h.swaps hclose (h.seq_eq hheard)
  have hagrees : session.reception.Agrees := by
    subst hsession
    exact Reception.agrees_fresh { targetDepth := 3, capacity := 100 } 8000
  obtain ⟨hfst, hsnd⟩ := MediaSession.numbered_run hagrees acts
  have hstats : session.rtpStats = {} := by
    subst hsession
    rfl
  rw [hstats, hnumbers] at hfst
  rw [h.voice_eq hheard] at hsnd
  exact ⟨c, (List.zip_of_prod hfst hsnd).trans List.zip_map'⟩

/-- **The frames come back in order**: a session that decodes by the law the
sender encodes by, and hears its datagrams and no other voice, echoes frames of
the audio in their original order, each at most once, and every sample is off by
companding only; whatever is dropped and swapped on the way, and whatever else
the session does in between. -/
theorem frames_echoed (src : Source) (seq : UInt16) (timestamp : UInt32) (draw : Nat → Draw)
    {throws : Nat → Bool} (hsend : ∀ j, throws j = false)
    (hclose : Close draw src.totalPackets) :
    ∃ s order, send src seq timestamp throws draw = some s ∧
      Accounts src seq timestamp draw s order ∧
      ∀ remote payloadType dtmfPayloadType acts, (payloadType = 8 ↔ src.payloadType = 8) →
        let session := MediaSession.make.start remote payloadType dtmfPayloadType
        acts.flatMap session.voiceData = s.datagrams →
        ∃ frames : List Nat, frames.Pairwise (· < ·) ∧
          frames ⊆ survivors draw src.totalPackets ∧
          List.Forall₂ (fun p out => List.Forall₂ NearSample (src.frame p)
            (session.decode out.payload)) frames
            (Run.collect MediaSession.step MediaSession.sent session acts) := by
  obtain ⟨s₀, settled, order₀, held, hloop, hledger⟩ :=
    ledger_loop src seq timestamp draw hsend src.totalPackets
  obtain ⟨s, order, hflush, haccounts⟩ := hledger.settle hsend
  refine ⟨s, order, by rw [send, hloop]; exact hflush, haccounts, ?_⟩
  intro remote payloadType dtmfPayloadType acts hlaw session hheard
  obtain ⟨c, hnumbered⟩ := haccounts.numbered_eq hclose hheard
  obtain ⟨heard, hmap, hsorted, hamong⟩ := session.numbered_sources rfl rfl acts
  have hpositions : ∀ h ∈ heard, ∃ p ∈ order, (c + (p : Int), arrived src seq timestamp p) = h := by
    intro h hmem
    have haccepted := (Run.collect_sublist MediaSession.accepted_sublist session acts).subset
      (hamong.subset hmem)
    rwa [hnumbered, List.mem_map] at haccepted
  obtain ⟨frames, hframes, rfl⟩ := exists_map_eq hpositions
  rw [List.map_map] at hmap hsorted
  refine ⟨frames, ?_, fun p hp => haccounts.perm.mem_iff.mp (hframes hp), ?_⟩
  · exact (List.pairwise_map.mp hsorted).imp fun hlt => by
      simp only [Function.comp_apply] at hlt
      omega
  · have haudio := (MediaSession.sent_echoes session acts).audio
    rw [← hmap, List.forall₂_map_left_iff] at haudio
    refine haudio.imp fun p out hsame => ?_
    rw [show session.decode out.payload = session.decode (src.codes p) from hsame.2]
    exact near_codes src p hlaw

/-- Five frames of a rising tone: the third is dropped, its neighbours are swapped. -/
def sampleSource : Source where
  pcm := (List.range 800).map fun i : Nat => Int16.ofInt (37 * (i : Int) - 15000)
  ssrc := 1

def swapAroundDrop (p : Nat) : Draw where
  drop := p = 2
  reorder := p = 1

/-- The session hears what was sent, and then plays and echoes. -/
def sampleActions (datagrams : List Str) : List MediaSession.Action :=
  datagrams.map (fun data => .recv { data, sender := {} } 0) ++
    (List.replicate 6 [.playout, .output true]).flatten

/-- The four frames that were not dropped come back. -/
theorem frames_echoed_sampleSource :
    ∃ s order, send sampleSource 65535 0 (fun _ => false) swapAroundDrop = some s ∧
      Accounts sampleSource 65535 0 swapAroundDrop s order ∧
      let session := MediaSession.make.start {} 0 (-1)
      ∃ frames : List Nat, frames.length = 4 ∧ frames.Pairwise (· < ·) ∧
        frames ⊆ survivors swapAroundDrop 5 ∧
        List.Forall₂ (fun p out => List.Forall₂ NearSample (sampleSource.frame p)
          (session.decode out.payload)) frames
          (Run.collect MediaSession.step MediaSession.sent session
            (sampleActions s.datagrams)) := by
  have htotal : sampleSource.totalPackets = 5 := by
    rw [Source.totalPackets, sampleSource, List.length_map, List.length_range]
    rfl
  have hsend : ∀ j : Nat, (fun _ => false) j = false := fun _ => rfl
  have hclose : Close swapAroundDrop 5 := by
    simp [Close, survivors, List.range_succ, swapAroundDrop]
  obtain ⟨s, order, hrun, haccounts, hechoed⟩ :=
    frames_echoed sampleSource 65535 0 swapAroundDrop hsend (htotal ▸ hclose)
  have hfour : ((send sampleSource 65535 0 (fun _ => false) swapAroundDrop).map fun s =>
      (Run.collect MediaSession.step MediaSession.sent (MediaSession.make.start {} 0 (-1))
        (sampleActions s.datagrams)).length) = some 4 := by
    decide +kernel
  obtain ⟨frames, hsorted, hamong, hnear⟩ :=
    hechoed {} 0 (-1) (sampleActions s.datagrams) Iff.rfl (by
      rw [sampleActions, List.flatMap_append, haccounts.datagrams_eq,
        heard_datagrams sampleSource 65535 0 order rfl]
      simp [MediaSession.voiceData])
  rw [hrun, Option.map_some, Option.some.injEq, ← hnear.length_eq] at hfour
  exact ⟨s, order, hrun, haccounts, frames, hfour, hsorted, htotal ▸ hamong, hnear⟩

end RtpSender

end SipDemo
