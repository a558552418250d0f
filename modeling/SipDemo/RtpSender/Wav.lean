import SipDemo.RtpSender

/-!
# SipDemo.RtpSender.Wav

What `loadWavPcm16` does to any file content.

`Reaches` is the walk over the chunks of a RIFF file with the step that the
format gives it, in unbounded arithmetic.  The walk of the source follows it as
long as the step fits 32 bits (`chunkTurn_eq`); a chunk of 0xfffffff7 bytes or
more is stepped over by too little, by nothing at all in the worst case, and
then the loop does not end.
-/

namespace SipDemo

namespace RtpSender

/-! ## the format -/

/-- A RIFF/WAVE file of at least the size of a canonical header. -/
def Wave (buf : Str) : Prop :=
  44 ≤ buf.length ∧ buf.take 4 = str "RIFF" ∧ (buf.drop 8).take 4 = str "WAVE"

instance (buf : Str) : Decidable (Wave buf) :=
  inferInstanceAs (Decidable (_ ∧ _ ∧ _))

def chunkId (buf : Str) (pos : Nat) : Str := (buf.drop pos).take 4

def chunkSize (buf : Str) (pos : Nat) : Nat := littleEndian ((buf.drop (pos + 4)).take 4)

/-- The size of a whole chunk: header, content and pad byte. -/
def chunkExtent (buf : Str) (pos : Nat) : Nat := 8 + chunkSize buf pos + chunkSize buf pos % 2

/-- The samples of a chunk, clipped to the end of the file. -/
def chunkSamples (buf : Str) (pos : Nat) : List Int16 :=
  samples ((buf.drop (pos + 8)).take (chunkSize buf pos))

/-- The walk over the chunks stands at a position: behind the file header, or
behind a chunk that is not the data. -/
inductive Reaches (buf : Str) : Nat → Prop
  | start (hwave : Wave buf) : Reaches buf 12
  | next {pos : Nat} (h : Reaches buf pos) (hroom : pos + 8 ≤ buf.length)
      (hid : chunkId buf pos ≠ str "data") : Reaches buf (pos + chunkExtent buf pos)

/-- What the function is for: the samples of the first data chunk, or nothing
when the walk finds none. -/
inductive Expected (buf : Str) : List Int16 → Prop
  | data {pos : Nat} (h : Reaches buf pos) (hroom : pos + 8 ≤ buf.length)
      (hid : chunkId buf pos = str "data") : Expected buf (chunkSamples buf pos)
  | missing (h : ∀ pos, Reaches buf pos → pos + 8 ≤ buf.length → chunkId buf pos ≠ str "data") :
      Expected buf []

theorem Reaches.wave {buf : Str} {pos : Nat} (h : Reaches buf pos) : Wave buf := by
  induction h with
  | start hwave => exact hwave
  | next _ _ _ ih => exact ih

/-! ## reads -/

theorem copy_eq {buf : Str} {i n : Nat} (h : i + n ≤ buf.length) :
    copy buf i n = .ok ((buf.drop i).take n) := if_pos h

theorem littleEndian_lt {bs : Str} {n : Nat} (h : bs.length ≤ n) : littleEndian bs < 256 ^ n := by
  have hlt := BigEndian.value_lt bs.reverse
  rw [List.length_reverse] at hlt
  exact hlt.trans_le (Nat.pow_le_pow_right (by decide) h)

theorem chunkSize_lt (buf : Str) (pos : Nat) : chunkSize buf pos < 2 ^ 32 :=
  @littleEndian_lt _ 4 (by simp)

/-- An odd byte at the end makes no sample. -/
theorem samples_take (bs : Str) : samples (bs.take (bs.length / 2 * 2)) = samples bs := by
  fun_induction samples bs with
  | case1 lo hi rest ih =>
      have hlength : (lo :: hi :: rest).length / 2 * 2 = rest.length / 2 * 2 + 2 := by
        simp only [List.length_cons]
        omega
      rw [hlength, List.take_succ_cons, List.take_succ_cons, samples, ih]
  | case2 bs hshort =>
      cases bs with
      | nil => rfl
      | cons b bs =>
          cases bs with
          | nil => simp [samples]
          | cons b' bs => exact (hshort b b' bs rfl).elim

/-- The samples that fit are those of the content cut at the end of the file. -/
theorem samples_clipped (buf : Str) (pos : Nat) :
    samples ((buf.drop (pos + 8)).take
        (min (chunkSize buf pos) (buf.length - (pos + 8)) / 2 * 2)) =
      chunkSamples buf pos := by
  have hlength : ((buf.drop (pos + 8)).take (chunkSize buf pos)).length =
      min (chunkSize buf pos) (buf.length - (pos + 8)) := by
    rw [List.length_take, List.length_drop]
  have hcut := samples_take ((buf.drop (pos + 8)).take (chunkSize buf pos))
  rw [hlength, List.take_take, Nat.min_eq_left (by omega)] at hcut
  exact hcut

/-- The 32-bit step is the extent of the chunk, reduced. -/
theorem step_toNat (sz : UInt32) :
    (8 + sz + (sz &&& 1)).toNat = (8 + sz.toNat + sz.toNat % 2) % 2 ^ 32 := by
  have hmod : (sz &&& 1).toNat = sz.toNat % 2 := by
    rw [UInt32.toNat_and]
    exact Nat.and_one_is_mod sz.toNat
  rw [UInt32.toNat_add, UInt32.toNat_add, hmod, Nat.mod_add_mod]
  rfl

/-- The header checks read inside the buffer and recognise a WAVE file. -/
theorem isWave_eq (buf : Str) : ∃ b, isWave buf = .ok b ∧ (b = true ↔ Wave buf) := by
  unfold isWave Wave
  split
  · next hshort => exact ⟨false, rfl, by simp only [Bool.false_eq_true, false_iff]; omega⟩
  · next hlong =>
      refine ⟨decide (buf.take 4 = str "RIFF" ∧ (buf.drop 8).take 4 = str "WAVE"), ?_, ?_⟩
      · rw [copy_eq (by omega), copy_eq (by omega)]
        by_cases hriff : buf.take 4 = str "RIFF" <;>
          simp [hriff, bind, Except.bind, pure, Except.pure]
      · simp only [decide_eq_true_eq]
        exact (and_iff_right (Nat.not_lt.mp hlong)).symm

/-- A turn reads inside the buffer, and finds the data or steps on by the extent
of the chunk as a 32-bit number. -/
theorem chunkAt_eq {buf : Str} {pos : Nat} (h : pos + 8 ≤ buf.length) :
    chunkAt buf pos = .ok
      (if chunkId buf pos = str "data" then .inr (chunkSamples buf pos)
      else .inl (pos + chunkExtent buf pos % 2 ^ 32)) := by
  have hsize : (UInt32.ofNat (littleEndian ((buf.drop (pos + 4)).take 4))).toNat =
      chunkSize buf pos := UInt32.toNat_ofNat_of_lt' (chunkSize_lt buf pos)
  have hhead : (buf.drop pos).take 4 = chunkId buf pos := rfl
  simp only [chunkAt, copy_eq (show pos + 4 + 4 ≤ buf.length by omega),
    copy_eq (show pos + 4 ≤ buf.length by omega), bind, Except.bind, pure, Except.pure,
    step_toNat, hsize, hhead]
  by_cases hid : chunkId buf pos = str "data"
  · rw [if_pos hid, if_pos hid, copy_eq (by omega)]
    simp only [samples_clipped]
  · rw [if_neg hid, if_neg hid, chunkExtent]

/-- A turn of the walk, with every read inside the buffer. -/
theorem chunkTurn_eq (buf : Str) (pos : Nat) :
    chunkTurn buf pos =
      if pos + 8 ≤ buf.length then
        if chunkId buf pos = str "data" then .inr (.ok (chunkSamples buf pos))
        else .inl (pos + chunkExtent buf pos % 2 ^ 32)
      else .inr (.ok []) := by
  unfold chunkTurn
  split
  · next hroom =>
      rw [chunkAt_eq hroom]
      by_cases hid : chunkId buf pos = str "data" <;> simp [hid]
  · rfl

/-! ## the walk -/

/-- The loop of the source passes a position. -/
def Visits (buf : Str) (pos : Nat) : Prop := Wave buf ∧ Loop.Reaches (chunkTurn buf) 12 pos

/-- What is expected of the function on a file: every turn goes to the position
behind the chunk, and the walk ends, with no read outside the buffer, in the
expected samples. -/
structure Loads (buf : Str) : Prop where
  advances : ∀ pos next, Visits buf pos → chunkTurn buf pos = .inl next →
    next = pos + chunkExtent buf pos ∧ pos < next
  result : ∃ fuel pcm, loadWavPcm16 (some buf) fuel = some (.ok pcm) ∧ Expected buf pcm

/-- The extent of every chunk stepped over is a 32-bit number. -/
def Fits (buf : Str) : Prop :=
  ∀ pos, Reaches buf pos → pos + 8 ≤ buf.length → chunkId buf pos ≠ str "data" →
    chunkExtent buf pos < 2 ^ 32

theorem chunkTurn_eq_inl {buf : Str} {pos next : Nat} :
    chunkTurn buf pos = .inl next ↔
      pos + 8 ≤ buf.length ∧ chunkId buf pos ≠ str "data" ∧
        next = pos + chunkExtent buf pos % 2 ^ 32 := by
  rw [chunkTurn_eq]
  by_cases hroom : pos + 8 ≤ buf.length
  · by_cases hid : chunkId buf pos = str "data" <;> simp [hroom, hid, eq_comm]
  · simp [hroom]

/-- Where the walk leaves the loop. -/
theorem chunkTurn_eq_inr {buf : Str} {pos : Nat} {r : Except Nat (List Int16)} :
    chunkTurn buf pos = .inr r ↔
      (pos + 8 ≤ buf.length ∧ chunkId buf pos = str "data" ∧ r = .ok (chunkSamples buf pos)) ∨
        (¬ pos + 8 ≤ buf.length ∧ r = .ok []) := by
  rw [chunkTurn_eq]
  by_cases hroom : pos + 8 ≤ buf.length
  · by_cases hid : chunkId buf pos = str "data" <;> simp [hroom, hid, eq_comm]
  · simp [hroom, eq_comm]

theorem le_chunkExtent (buf : Str) (pos : Nat) : 8 ≤ chunkExtent buf pos := by
  unfold chunkExtent
  omega

/-- A turn that steps as it should is a step of the walk. -/
theorem visits_of_reaches {buf : Str} (hadvance : ∀ pos next, Visits buf pos →
    chunkTurn buf pos = .inl next → next = pos + chunkExtent buf pos) {pos : Nat}
    (h : Reaches buf pos) : Visits buf pos := by
  induction h with
  | start hwave => exact ⟨hwave, .refl 12⟩
  | @next pos _ hroom hid ih =>
      have hturn := chunkTurn_eq_inl.mpr ⟨hroom, hid, rfl⟩
      have hnext := hadvance pos _ ih hturn
      exact ⟨ih.1, ih.2.next (hnext ▸ hturn)⟩

theorem Fits.turn {buf : Str} (h : Fits buf) {pos next : Nat} (hpos : Reaches buf pos)
    (hturn : chunkTurn buf pos = .inl next) :
    next = pos + chunkExtent buf pos ∧ Reaches buf next := by
  obtain ⟨hroom, hid, rfl⟩ := chunkTurn_eq_inl.mp hturn
  rw [Nat.mod_eq_of_lt (h pos hpos hroom hid)]
  exact ⟨rfl, hpos.next hroom hid⟩

theorem Fits.reaches {buf : Str} (h : Fits buf) {pos : Nat} (hpos : Visits buf pos) :
    Reaches buf pos :=
  hpos.2.invariant (Reaches buf) (fun _ _ hs hturn => (h.turn hs hturn).2) (.start hpos.1)

theorem Fits.advances {buf : Str} (h : Fits buf) {pos next : Nat} (hpos : Visits buf pos)
    (hturn : chunkTurn buf pos = .inl next) : next = pos + chunkExtent buf pos ∧ pos < next := by
  have hnext := (h.turn (h.reaches hpos) hturn).1
  have hextent := le_chunkExtent buf pos
  exact ⟨hnext, by omega⟩

/-- The file content decides between no walk and the walk from position 12. -/
theorem loadWavPcm16_eq (buf : Str) (fuel : Nat) :
    (Wave buf → loadWavPcm16 (some buf) fuel = Loop.run (chunkTurn buf) fuel 12) ∧
      (¬ Wave buf → loadWavPcm16 (some buf) fuel = some (.ok [])) := by
  obtain ⟨b, hb, hwave⟩ := isWave_eq buf
  rw [← hwave]
  cases b <;> simp [loadWavPcm16, hb]

/-- The distance to the end of the file falls at every turn that moves on, so a
walk whose turns all do ends. -/
theorem returns_of_moves {buf : Str} (hwave : Wave buf)
    (hmoves : ∀ pos next, Visits buf pos → chunkTurn buf pos = .inl next → pos < next) :
    ∃ fuel pos r, Visits buf pos ∧ chunkTurn buf pos = .inr r ∧
      loadWavPcm16 (some buf) fuel = some r := by
  have hturn : ∀ pos next, Visits buf pos → chunkTurn buf pos = .inl next →
      Visits buf next ∧ buf.length - next < buf.length - pos := by
    intro pos next hpos hturn
    have hmove := hmoves pos next hpos hturn
    have hroom := (chunkTurn_eq_inl.mp hturn).1
    exact ⟨⟨hwave, hpos.2.next hturn⟩, by omega⟩
  obtain ⟨pos, r, hreach, hpos, hexit⟩ :=
    Loop.exists_exit (Visits buf) (buf.length - ·) hturn ⟨hwave, .refl 12⟩
  obtain ⟨fuel, hrun⟩ := Loop.exists_run_iff.mpr ⟨pos, hreach, hexit⟩
  exact ⟨fuel, pos, r, hpos, hexit, ((loadWavPcm16_eq buf fuel).1 hwave).trans hrun⟩

/-- Every position the walk of the source passes and leaves the loop in gives
the expected samples. -/
theorem Fits.expected {buf : Str} (h : Fits buf) {pos : Nat} {r : Except Nat (List Int16)}
    (hpos : Visits buf pos) (hexit : chunkTurn buf pos = .inr r) :
    ∃ pcm, r = .ok pcm ∧ Expected buf pcm := by
  rcases chunkTurn_eq_inr.mp hexit with ⟨hroom, hid, rfl⟩ | ⟨hend, rfl⟩
  · exact ⟨_, rfl, .data (h.reaches hpos) hroom hid⟩
  · refine ⟨[], rfl, .missing fun pos' hpos' hroom' hid' => ?_⟩
    -- a data chunk would be a second place to leave the loop in
    have hvisit := visits_of_reaches (fun p _ hp hturn => (h.advances hp hturn).1) hpos'
    have hexit' := chunkTurn_eq_inr.mpr (.inl ⟨hroom', hid', rfl⟩)
    exact hend (hpos.2.exit_unique hvisit.2 hexit hexit' ▸ hroom')

/-- No read of the loader leaves the buffer, on any file and however far the
walk has come. -/
theorem loadWavPcm16_reads_inside (file : Option Str) (fuel i : Nat) :
    loadWavPcm16 file fuel ≠ some (.error i) := by
  intro herror
  cases file with
  | none => cases herror
  | some buf =>
      by_cases hwave : Wave buf
      · rw [(loadWavPcm16_eq buf fuel).1 hwave] at herror
        obtain ⟨pos, -, hexit⟩ := Loop.exists_run_iff.mp ⟨fuel, herror⟩
        rcases chunkTurn_eq_inr.mp hexit with ⟨-, -, hr⟩ | ⟨-, hr⟩ <;> cases hr
      · rw [(loadWavPcm16_eq buf fuel).2 hwave] at herror
        cases herror

/-- A turn stays where it is at a chunk of size 0xfffffff7 or 0xfffffff8. -/
theorem chunkTurn_eq_self {buf : Str} {pos : Nat} :
    chunkTurn buf pos = .inl pos ↔
      pos + 8 ≤ buf.length ∧ chunkId buf pos ≠ str "data" ∧ chunkExtent buf pos = 2 ^ 32 := by
  have hlo := le_chunkExtent buf pos
  have hhi : chunkExtent buf pos ≤ 2 ^ 32 + 8 := by
    have hsize := chunkSize_lt buf pos
    unfold chunkExtent
    omega
  rw [chunkTurn_eq_inl]
  refine and_congr_right fun _ => and_congr_right fun _ => ?_
  omega

/-- It does so again at every further turn. -/
theorem run_of_stuck {buf : Str} {pos : Nat} (h : chunkTurn buf pos = .inl pos) (fuel : Nat) :
    Loop.run (chunkTurn buf) fuel pos = none := by
  refine Loop.run_eq_none (· = pos) ?_ rfl fuel
  rintro _ rfl
  exact ⟨_, h, rfl⟩

/-- The loader returns unless its walk comes to a chunk whose extent is 2^32. -/
theorem loadWavPcm16_returns_iff (buf : Str) :
    (∃ fuel r, loadWavPcm16 (some buf) fuel = some r) ↔
      ∀ pos, Visits buf pos → pos + 8 ≤ buf.length → chunkId buf pos ≠ str "data" →
        chunkExtent buf pos ≠ 2 ^ 32 := by
  constructor
  · rintro ⟨fuel, r, hrun⟩ pos hvisit hroom hid hextent
    have hstuck := chunkTurn_eq_self.mpr ⟨hroom, hid, hextent⟩
    rw [(loadWavPcm16_eq buf fuel).1 hvisit.1, hvisit.2.run_eq_none (run_of_stuck hstuck)] at hrun
    exact absurd hrun (Option.some_ne_none r).symm
  · intro hmoves
    by_cases hwave : Wave buf
    · obtain ⟨fuel, pos, r, -, -, hrun⟩ := returns_of_moves hwave fun pos next hpos hturn => by
        obtain ⟨hroom, hid, hnext⟩ := chunkTurn_eq_inl.mp hturn
        have hne : pos ≠ next := by
          rintro rfl
          exact hmoves pos hpos hroom hid (chunkTurn_eq_self.mp hturn).2.2
        omega
      exact ⟨fuel, r, hrun⟩
    · exact ⟨0, .ok [], (loadWavPcm16_eq buf 0).2 hwave⟩

/-- On every file content, the loader walks the chunks to the end and returns
the expected samples if and only if every chunk that the walk steps over, before
the first data chunk, has an extent below 2^32. -/
theorem loads_iff (buf : Str) : Loads buf ↔ Fits buf := by
  constructor
  · intro hloads pos hpos hroom hid
    have hadvance := fun p next hp hturn => (hloads.advances p next hp hturn).1
    have hturn := chunkTurn_eq_inl.mpr ⟨hroom, hid, rfl⟩
    have hnext := hadvance pos _ (visits_of_reaches hadvance hpos) hturn
    omega
  · intro hfits
    constructor
    case advances => exact fun _ _ => hfits.advances
    case result =>
      by_cases hwave : Wave buf
      · obtain ⟨fuel, pos, r, hpos, hexit, hrun⟩ :=
          returns_of_moves hwave fun _ _ hpos hturn => (hfits.advances hpos hturn).2
        obtain ⟨pcm, rfl, hexpected⟩ := hfits.expected hpos hexit
        exact ⟨fuel, pcm, hrun, hexpected⟩
      · exact ⟨0, [], (loadWavPcm16_eq buf 0).2 hwave,
          .missing fun pos hpos => absurd hpos.wave hwave⟩

/-- A RIFF/WAVE file whose first chunk says that it has 0xfffffff8 bytes. -/
def wrapFile : Str :=
  str "RIFF" ++ [36, 0, 0, 0] ++ str "WAVE" ++ str "LIST" ++ [0xf8, 0xff, 0xff, 0xff] ++
    List.replicate 24 0

/-- The walk stays at its first chunk for ever. -/
theorem loadWavPcm16_hangs :
    (∀ fuel, loadWavPcm16 (some wrapFile) fuel = none) ∧ ¬ ∀ buf, Loads buf := by
  have hwave : Wave wrapFile := by decide +kernel
  have hstuck : chunkTurn wrapFile 12 = .inl 12 := by
    refine chunkTurn_eq_inl.mpr ?_
    decide +kernel
  have hnone : ∀ fuel, loadWavPcm16 (some wrapFile) fuel = none := by
    intro fuel
    rw [(loadWavPcm16_eq wrapFile fuel).1 hwave]
    exact run_of_stuck hstuck fuel
  refine ⟨hnone, fun hall => ?_⟩
  obtain ⟨fuel, pcm, hrun, -⟩ := (hall wrapFile).result
  exact absurd ((hnone fuel).symm.trans hrun) (Option.some_ne_none _).symm

end RtpSender

end SipDemo
