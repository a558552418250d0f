import Mathlib.Data.List.Basic

/-!
# SipDemo.Segments

A byte stream that arrives in segments, and the reads of a program on it.

The stream is the concatenation of its segments; one read returns bytes of the
first segment that has any, as many as it was asked for at most, and nothing at
the end of the stream.  What a reader makes of a stream may depend on where it
is cut; `flat` forgets the cuts of what is left, and the lemmas about it say
that a reader built from reads that do not depend on them does not either.

The module names nothing of the program.
-/

namespace Segments

variable {β γ δ : Type*}

/-- One read of at most `n`: what it returns and what is left. -/
def recv (n : Nat) : List (List β) → List β × List (List β)
  | [] => ([], [])
  | [] :: segs => recv n segs
  | (b :: seg) :: segs =>
      ((b :: seg).take n, if n < (b :: seg).length then (b :: seg).drop n :: segs else segs)

/-- A read takes from the front of the stream. -/
theorem recv_append (n : Nat) (segs : List (List β)) :
    (recv n segs).1 ++ (recv n segs).2.flatten = segs.flatten := by
  induction segs with
  | nil => rfl
  | cons seg segs ih =>
      cases seg with
      | nil => exact ih
      | cons b seg =>
          rw [recv]
          split
          · rw [List.flatten_cons, List.flatten_cons, ← List.append_assoc, List.take_append_drop]
          · next h => rw [List.take_of_length_le (Nat.le_of_not_lt h), List.flatten_cons]

theorem length_recv_le (n : Nat) (segs : List (List β)) : (recv n segs).1.length ≤ n := by
  induction segs with
  | nil => exact Nat.zero_le n
  | cons seg segs ih =>
      cases seg with
      | nil => exact ih
      | cons b seg => exact List.length_take_le n (b :: seg)

/-- A read returns nothing at the end of the stream only. -/
theorem recv_eq_nil_iff {n : Nat} (hn : 0 < n) (segs : List (List β)) :
    (recv n segs).1 = [] ↔ segs.flatten = [] := by
  induction segs with
  | nil => simp [recv]
  | cons seg segs ih =>
      cases seg with
      | nil => simpa [recv] using ih
      | cons b seg => simp [recv, Nat.ne_of_gt hn]

/-- `k` reads of at most `n` each: what they return together, and what is left. -/
def reads (n : Nat) : Nat → List (List β) → List β × List (List β)
  | 0, segs => ([], segs)
  | k + 1, segs =>
      ((recv n segs).1 ++ (reads n k (recv n segs).2).1, (reads n k (recv n segs).2).2)

theorem reads_append (n k : Nat) (segs : List (List β)) :
    (reads n k segs).1 ++ (reads n k segs).2.flatten = segs.flatten := by
  induction k generalizing segs with
  | zero => rfl
  | succ k ih => rw [reads, List.append_assoc, ih, recv_append]

/-- Reads of at most `n` each until there are `e` bytes, or the stream ends:
what they return together. -/
def readTo (n e : Nat) (segs : List (List β)) : List β :=
  match e with
  | 0 => []
  | e + 1 =>
      match recv n segs with
      | ([], _) => []
      | (b :: got, segs) => b :: got ++ readTo n (e - got.length) segs
termination_by e

theorem readTo_recv {n e : Nat} (he : 0 < e) {segs left : List (List β)} {b : β} {got : List β}
    (hrecv : recv n segs = (b :: got, left)) :
    readTo n e segs = b :: got ++ readTo n (e - (got.length + 1)) left := by
  obtain ⟨e, rfl⟩ := Nat.exists_eq_succ_of_ne_zero (Nat.ne_of_gt he)
  rw [readTo, hrecv, Nat.succ_sub_succ]

/-- One segment that is not too long is read at once. -/
theorem readTo_singleton {n e : Nat} (he : 0 < e) {seg : List β} (hne : seg ≠ [])
    (hlen : seg.length ≤ n) : readTo n e [seg] = seg := by
  have hend (m : Nat) : readTo n m ([] : List (List β)) = [] := by
    cases m <;> simp [readTo, recv]
  obtain ⟨b, got, rfl⟩ := List.exists_cons_of_ne_nil hne
  have hrecv : recv n [b :: got] = (b :: got, []) := by
    rw [recv, List.take_of_length_le hlen, if_neg (Nat.not_lt.mpr hlen)]
  rw [readTo_recv he hrecv, hend, List.append_nil]

/-- They take from the front of the stream. -/
theorem readTo_prefix (n e : Nat) (segs : List (List β)) : readTo n e segs <+: segs.flatten := by
  fun_induction readTo n e segs with
  | case1 segs => exact List.nil_prefix
  | case2 segs e left hrecv => exact List.nil_prefix
  | case3 segs e b got left hrecv ih =>
      have hfront := recv_append n segs
      rw [hrecv] at hfront
      rw [← hfront]
      exact (List.prefix_append_right_inj _).mpr ih

/-- They get the bytes, if the stream has them. -/
theorem le_length_readTo {n : Nat} (hn : 0 < n) {e : Nat} {segs : List (List β)}
    (he : e ≤ segs.flatten.length) : e ≤ (readTo n e segs).length := by
  fun_induction readTo n e segs with
  | case1 segs => exact Nat.zero_le _
  | case2 segs e left hrecv =>
      have hend := (recv_eq_nil_iff hn segs).mp (congrArg Prod.fst hrecv)
      simp [hend] at he
  | case3 segs e b got left hrecv ih =>
      have hfront := congrArg List.length (recv_append n segs)
      rw [hrecv] at hfront
      simp only [List.length_append, List.length_cons] at hfront ⊢
      have hrest := ih (by omega)
      omega

/-! ## forgetting the cuts -/

/-- The result of a reader, and the bytes it leaves. -/
def flat (r : Option (γ × List (List β))) : Option (γ × List β) :=
  r.map fun x => (x.1, x.2.flatten)

@[simp] theorem flat_none : flat (none : Option (γ × List (List β))) = none := rfl

@[simp] theorem flat_some (x : γ) (segs : List (List β)) :
    flat (some (x, segs)) = some (x, segs.flatten) := rfl

theorem flat_map (r : Option (γ × List (List β))) (f : γ → δ) :
    flat (r.map fun x => (f x.1, x.2)) = (flat r).map fun x => (f x.1, x.2) := by
  cases r <;> rfl

/-- Some result, and the segments that are left behind it. -/
theorem exists_of_flat {r : Option (γ × List (List β))} {x : γ} {left : List β}
    (h : flat r = some (x, left)) : ∃ segs, r = some (x, segs) ∧ segs.flatten = left := by
  cases r with
  | none => cases h
  | some y =>
      obtain ⟨rfl, rfl⟩ := Prod.mk.injEq _ _ _ _ ▸ Option.some.inj h
      exact ⟨y.2, rfl, rfl⟩

/-- A sequence of readers, once the first has its result. -/
theorem flat_bind {r : Option (γ × List (List β))} {x : γ} {left : List β}
    {f : γ × List (List β) → Option (δ × List (List β))} {t : Option (δ × List β)}
    (h : flat r = some (x, left)) (hf : ∀ segs, segs.flatten = left → flat (f (x, segs)) = t) :
    flat (r.bind f) = t := by
  obtain ⟨segs, rfl, hsegs⟩ := exists_of_flat h
  exact hf segs hsegs

/-! ## stable readers -/

/-- A reader is stable when what it reads does not depend on the cuts, nor on
bytes behind it that it has not asked for. -/
def Stable (f : List (List β) → Option (γ × List (List β))) : Prop :=
  ∀ segs segs' more, segs'.flatten = segs.flatten ++ more →
    ∀ x left, flat (f segs) = some (x, left) → flat (f segs') = some (x, left ++ more)

theorem Stable.ret (x : γ) : Stable fun segs : List (List β) => some (x, segs) := by
  intro segs segs' more hsegs y left h
  cases h
  rw [flat_some, hsegs]

theorem Stable.bind {f : List (List β) → Option (γ × List (List β))}
    {g : γ × List (List β) → Option (δ × List (List β))} (hf : Stable f)
    (hg : ∀ x, Stable fun segs => g (x, segs)) : Stable fun segs => (f segs).bind g := by
  intro segs segs' more hsegs z left h
  change flat ((f segs).bind g) = some (z, left) at h
  cases hr : f segs with
  | none =>
      rw [hr] at h
      cases h
  | some r =>
      rw [hr] at h
      have hmore := hf segs segs' more hsegs r.1 r.2.flatten (by rw [hr]; rfl)
      exact flat_bind hmore fun rest hrest => hg r.1 r.2 rest more hrest z left h

theorem Stable.map {f : List (List β) → Option (γ × List (List β))}
    {g : γ × List (List β) → δ × List (List β)} (hf : Stable f)
    (hg : ∀ x segs, g (x, segs) = ((g (x, [])).1, segs)) : Stable fun segs => (f segs).map g := by
  have hbind : (fun segs => (f segs).map g) = fun segs => (f segs).bind (some ∘ g) := by
    funext segs
    exact Option.map_eq_bind
  rw [hbind]
  refine hf.bind fun x => ?_
  have hret : (fun segs => (some ∘ g) (x, segs)) = fun segs => some ((g (x, [])).1, segs) :=
    funext fun segs => congrArg some (hg x segs)
  rw [hret]
  exact Stable.ret _

/-- Only the bytes matter to a stable reader. -/
theorem Stable.congr {f : List (List β) → Option (γ × List (List β))} (hf : Stable f)
    {segs segs' : List (List β)} (h : segs.flatten = segs'.flatten) :
    flat (f segs) = flat (f segs') := by
  have hone : ∀ r r' : List (List β), r.flatten = r'.flatten → ∀ x, flat (f r) = some x →
      flat (f r') = some x := by
    intro r r' hr x hx
    simpa using hf r r' [] (by rw [hr, List.append_nil]) x.1 x.2 hx
  apply Option.ext
  intro x
  exact ⟨hone segs segs' h x, hone segs' segs h.symm x⟩

end Segments
