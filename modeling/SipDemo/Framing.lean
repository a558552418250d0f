import Mathlib.Data.List.DropRight
import Mathlib.Data.List.Infix

/-!
# SipDemo.Framing

Text cut into lines by a two-symbol line end, and the search that finds the
cuts.  Nothing here is about a particular alphabet: the line end is `[a, b]`
with `a ≠ b`, and a header section is a list of lines followed by an empty one.

* `find` — the first occurrence of a pattern, with what it says about the text
  before it (`not_infix_take_of_find`);
* `frame` — each line with its line end; the lines are found again
  (`find_line`) and so is the empty line after them (`find_blank`);
* `span_separator`, `rspan_separator` — a text cut at the first or the last
  occurrence of one symbol.
-/

namespace SipDemo

variable {α : Type*} {a b : α}

/-! ## line ends -/

/-- A line end that starts in `l` ends in `l`, unless what follows completes
it. -/
theorem pair_prefix_append {l rest : List α} (hl : l ≠ []) (hrest : ∀ c ∈ rest.head?, c ≠ b)
    (h : [a, b] <+: l ++ rest) : [a, b] <+: l := by
  obtain ⟨x, l, rfl⟩ := List.exists_cons_of_ne_nil hl
  rw [List.cons_append, List.cons_prefix_cons] at h
  rw [List.cons_prefix_cons]
  refine ⟨h.1, ?_⟩
  cases l with
  | nil =>
      cases rest with
      | nil => exact h.2
      | cons c rest => exact absurd (List.cons_prefix_cons.mp h.2).1.symm (hrest c rfl)
  | cons y l =>
      rw [List.cons_append, List.cons_prefix_cons] at h
      rw [List.cons_prefix_cons]
      exact ⟨h.2.1, List.nil_prefix⟩

/-- A symbol that is no part of the line end separates texts for good. -/
theorem pair_infix_append_cons {c : α} (ha : c ≠ a) (hb : c ≠ b) {xs ys : List α}
    (h : [a, b] <:+: xs ++ c :: ys) : [a, b] <:+: xs ∨ [a, b] <:+: ys := by
  induction xs with
  | nil =>
      rw [List.nil_append, List.infix_cons_iff, List.cons_prefix_cons] at h
      exact .inr (h.resolve_left fun hpre => ha hpre.1.symm)
  | cons x xs ih =>
      rw [List.cons_append, List.infix_cons_iff] at h
      cases h with
      | inl hpre =>
          have hcons : [a, b] <+: x :: xs :=
            pair_prefix_append (List.cons_ne_nil _ _) (by simpa using hb) hpre
          exact .inl hcons.isInfix
      | inr hin => exact (ih hin).imp_left fun hxs => hxs.trans (List.suffix_cons x xs).isInfix

/-- In a line without line ends none starts, whatever follows, unless that
completes one. -/
theorem pair_not_prefix_drop {l rest : List α} (hl : ¬[a, b] <:+: l)
    (hrest : ∀ c ∈ rest.head?, c ≠ b) : ∀ k < l.length, ¬[a, b] <+: (l ++ rest).drop k := by
  intro k hk hpre
  rw [List.drop_append_of_le_length hk.le] at hpre
  have hne : l.drop k ≠ [] := by
    rw [ne_eq, List.drop_eq_nil_iff]
    omega
  exact hl ((pair_prefix_append hne hrest hpre).isInfix.trans (List.drop_suffix k l).isInfix)

/-- A pattern without `c` that starts before a `c` ends before it. -/
theorem prefix_of_prefix_append_cons {c : α} {pat w rest : List α} (hpat : c ∉ pat)
    (h : pat <+: w ++ c :: rest) : pat <+: w := by
  by_cases hlen : pat.length ≤ w.length
  · exact List.prefix_of_prefix_length_le h (List.prefix_append _ _) hlen
  · have hlong : (w ++ [c]).length ≤ pat.length := by simp; omega
    have hfront : w ++ [c] <+: w ++ c :: rest := by simp
    have hmem := (List.prefix_of_prefix_length_le hfront h hlong).subset
    exact absurd (hmem (by simp)) hpat

/-- An empty line starts with a line end. -/
theorem pair_prefix_of_blank {s : List α} (h : [a, b, a, b] <+: s) : [a, b] <+: s :=
  (List.prefix_append [a, b] [a, b]).trans h

/-- Each line with its line end. -/
def frame (a b : α) (lines : List (List α)) : List α := lines.flatMap (· ++ [a, b])

@[simp] theorem frame_cons (l : List α) (lines : List (List α)) :
    frame a b (l :: lines) = l ++ a :: b :: frame a b lines := by
  simp [frame]

/-! ## the first occurrence -/

variable [DecidableEq α]

/-- Where `pat` first occurs. -/
def find (pat : List α) : List α → Option Nat
  | [] => if pat = [] then some 0 else none
  | c :: s => if pat.isPrefixOf (c :: s) then some 0 else (find pat s).map (· + 1)

theorem find_of_isPrefix {pat s : List α} (h : pat <+: s) : find pat s = some 0 := by
  cases s with
  | nil => rw [find, if_pos (List.prefix_nil.mp h)]
  | cons c s => rw [find, if_pos (List.isPrefixOf_iff_prefix.mpr h)]

theorem find_cons {pat s : List α} {c : α} (h : ¬pat <+: c :: s) :
    find pat (c :: s) = (find pat s).map (· + 1) := by
  rw [find, if_neg (mt List.isPrefixOf_iff_prefix.mp h)]

/-- The search skips a part in which no occurrence starts. -/
theorem find_append {pat s rest : List α} (h : ∀ k < s.length, ¬pat <+: (s ++ rest).drop k) :
    find pat (s ++ rest) = (find pat rest).map (· + s.length) := by
  induction s with
  | nil => simp
  | cons c s ih =>
      have hhead : ¬pat <+: c :: (s ++ rest) := h 0 (by simp)
      have htail : ∀ k < s.length, ¬pat <+: (s ++ rest).drop k := fun k hk =>
        h (k + 1) (by simpa using hk)
      rw [List.cons_append, find_cons hhead, ih htail, Option.map_map]
      rfl

/-- An occurrence lies inside the text. -/
theorem find_add_le {pat s : List α} {k : Nat} (h : find pat s = some k) :
    k + pat.length ≤ s.length := by
  induction s generalizing k with
  | nil =>
      rw [find] at h
      split at h
      · next hpat =>
          cases h
          simp [hpat]
      · cases h
  | cons c s ih =>
      by_cases hhead : pat <+: c :: s
      · rw [find_of_isPrefix hhead, Option.some_inj] at h
        have hle := hhead.length_le
        omega
      · rw [find_cons hhead, Option.map_eq_some_iff] at h
        obtain ⟨j, hj, rfl⟩ := h
        have hle := ih hj
        rw [List.length_cons]
        omega

/-- What is found first in a text is found first in every text it starts. -/
theorem find_append_left {pat s : List α} {k : Nat} (h : find pat s = some k) (rest : List α) :
    find pat (s ++ rest) = some k := by
  induction s generalizing k with
  | nil =>
      rw [find] at h
      split at h
      · next hpat =>
          cases h
          rw [hpat]
          exact find_of_isPrefix List.nil_prefix
      · cases h
  | cons c s ih =>
      by_cases hhead : pat <+: c :: s
      · rw [find_of_isPrefix hhead] at h
        rw [← h]
        exact find_of_isPrefix (hhead.trans (List.prefix_append _ _))
      · rw [find_cons hhead, Option.map_eq_some_iff] at h
        obtain ⟨j, hj, rfl⟩ := h
        have hlong := find_add_le hj
        have hrest : ¬pat <+: c :: (s ++ rest) := by
          intro hpre
          apply hhead
          apply List.prefix_of_prefix_length_le hpre (List.prefix_append (c :: s) rest)
          rw [List.length_cons]
          omega
        rw [List.cons_append, find_cons hrest, ih hj, Option.map_some]

/-- An occurrence is found, or one before it. -/
theorem exists_find_le {pat s : List α} {n : Nat} (h : pat <+: s.drop n) :
    ∃ k ≤ n, find pat s = some k := by
  induction s generalizing n with
  | nil =>
      rw [List.drop_nil] at h
      exact ⟨0, Nat.zero_le n, find_of_isPrefix h⟩
  | cons c s ih =>
      by_cases hhead : pat <+: c :: s
      · exact ⟨0, Nat.zero_le n, find_of_isPrefix hhead⟩
      · cases n with
        | zero => exact absurd h hhead
        | succ n =>
            obtain ⟨k, hk, hfind⟩ := ih h
            refine ⟨k + 1, Nat.succ_le_succ hk, ?_⟩
            rw [find_cons hhead, hfind, Option.map_some]

/-- What is found is there. -/
theorem isPrefix_drop_of_find {pat s : List α} {k : Nat} (h : find pat s = some k) :
    pat <+: s.drop k := by
  induction s generalizing k with
  | nil =>
      rw [find] at h
      split at h
      · next hpat => rw [hpat]; exact List.nil_prefix
      · cases h
  | cons c s ih =>
      by_cases hhead : pat <+: c :: s
      · rw [find_of_isPrefix hhead, Option.some_inj] at h
        rwa [← h]
      · rw [find_cons hhead, Option.map_eq_some_iff] at h
        obtain ⟨j, hj, rfl⟩ := h
        exact ih hj

/-- The search does not need what stands behind the first occurrence. -/
theorem find_take {pat s : List α} {k : Nat} (h : find pat s = some k) :
    find pat (s.take (k + pat.length)) = some k := by
  have hthere : pat <+: (s.take (k + pat.length)).drop k := by
    rw [List.drop_take, Nat.add_sub_cancel_left]
    exact List.prefix_take_iff.mpr ⟨isPrefix_drop_of_find h, le_rfl⟩
  obtain ⟨j, hj, hfind⟩ := exists_find_le hthere
  have hwhole := find_append_left hfind (s.drop (k + pat.length))
  rw [List.take_append_drop, h, Option.some_inj] at hwhole
  rw [hfind, hwhole]

/-- Nothing is found only where there is nothing to find. -/
theorem find_eq_none {pat s : List α} (h : find pat s = none) : ¬pat <:+: s := by
  induction s with
  | nil =>
      rw [List.infix_nil]
      rintro rfl
      cases h
  | cons c s ih =>
      by_cases hhead : pat <+: c :: s
      · rw [find_of_isPrefix hhead] at h
        cases h
      · rw [find_cons hhead, Option.map_eq_none_iff] at h
        rw [List.infix_cons_iff, not_or]
        exact ⟨hhead, ih h⟩

/-- The text before the first occurrence holds none. -/
theorem not_infix_take_of_find {pat s : List α} {k : Nat} (hpat : pat ≠ [])
    (h : find pat s = some k) : ¬pat <:+: s.take k := by
  induction s generalizing k with
  | nil => simpa using hpat
  | cons c s ih =>
      by_cases hhead : pat <+: c :: s
      · rw [find_of_isPrefix hhead, Option.some_inj] at h
        simpa [← h] using hpat
      · rw [find_cons hhead, Option.map_eq_some_iff] at h
        obtain ⟨j, hj, rfl⟩ := h
        rw [List.take_succ_cons, List.infix_cons_iff, not_or]
        refine ⟨fun hpre => hhead (hpre.trans ?_), ih hj⟩
        rw [List.cons_prefix_cons]
        exact ⟨rfl, List.take_prefix j s⟩

/-! ## finding the lines again -/

theorem find_line (hab : a ≠ b) {l : List α} (hl : ¬[a, b] <:+: l) (rest : List α) :
    find [a, b] (l ++ a :: b :: rest) = some l.length := by
  rw [find_append (pair_not_prefix_drop hl (by simpa using hab)), find_of_isPrefix (by simp)]
  simp

/-- A line is no empty line, so the search for one passes it. -/
theorem find_blank_line (hab : a ≠ b) {l : List α} (hl : ¬[a, b] <:+: l) {rest : List α}
    (hrest : ¬[a, b] <+: rest) :
    find [a, b, a, b] (l ++ a :: b :: rest) =
      (find [a, b, a, b] rest).map (· + (l.length + 2)) := by
  have hskip := @pair_not_prefix_drop _ a b l (a :: b :: rest) hl (by simpa using hab)
  have hend : ¬[a, b, a, b] <+: a :: b :: rest := by
    rwa [List.cons_prefix_cons, List.cons_prefix_cons, and_iff_right rfl, and_iff_right rfl]
  have hmid : ¬[a, b, a, b] <+: b :: rest := by
    rw [List.cons_prefix_cons]
    exact fun h => hab h.1
  rw [find_append fun k hk hpre => hskip k hk (pair_prefix_of_blank hpre), find_cons hend,
    find_cons hmid, Option.map_map, Option.map_map]
  congr 1
  funext k
  simp only [Function.comp_apply]
  omega

/-- The empty line is found behind the lines. -/
theorem find_blank (hab : a ≠ b) {lines : List (List α)} (hne : lines ≠ [])
    (hlines : ∀ l ∈ lines, l ≠ [] ∧ ¬[a, b] <:+: l) (rest : List α) :
    find [a, b, a, b] (frame a b lines ++ a :: b :: rest) =
      some ((frame a b lines).length - 2) := by
  induction lines with
  | nil => exact absurd rfl hne
  | cons l lines ih =>
      rw [List.forall_mem_cons] at hlines
      cases lines with
      | nil =>
          have hblank : find [a, b, a, b] (a :: b :: a :: b :: rest) = some 0 :=
            find_of_isPrefix (by simp)
          have hskip := @pair_not_prefix_drop _ a b l (a :: b :: a :: b :: rest) hlines.1.2
            (by simpa using hab)
          rw [frame_cons, frame, List.flatMap_nil, List.append_assoc, List.cons_append,
            List.cons_append, List.nil_append,
            find_append fun k hk hpre => hskip k hk (pair_prefix_of_blank hpre), hblank]
          simp
      | cons l' lines =>
          have hstart : ¬[a, b] <+: frame a b (l' :: lines) ++ a :: b :: rest := by
            intro hpre
            rw [frame_cons, List.append_assoc] at hpre
            have hl' := hlines.2 l' List.mem_cons_self
            exact hl'.2 (pair_prefix_append hl'.1 (by simpa using hab) hpre).isInfix
          have hfound := ih (List.cons_ne_nil _ _) hlines.2
          have hlong : 2 ≤ (frame a b (l' :: lines)).length := by simp; omega
          rw [frame_cons l, List.append_assoc, List.cons_append, List.cons_append,
            find_blank_line hab hlines.1.2 hstart, hfound]
          simp only [Option.map_some, List.length_append, List.length_cons]
          congr 1
          omega

/-! ## separators -/

/-- Without `c` every symbol differs from it. -/
theorem forall_ne_of_not_mem {c : α} {w : List α} (hw : c ∉ w) :
    ∀ d ∈ w, decide (d ≠ c) = true := by
  intro d hd
  rw [decide_eq_true_eq]
  exact ne_of_mem_of_not_mem hd hw

/-- Without `c` there is nothing to cut. -/
theorem span_of_not_mem {c : α} {w : List α} (hw : c ∉ w) :
    w.takeWhile (fun d => d ≠ c) = w ∧ w.dropWhile (fun d => d ≠ c) = [] :=
  ⟨List.takeWhile_eq_self_iff.mpr (forall_ne_of_not_mem hw),
    List.dropWhile_eq_nil_iff.mpr (forall_ne_of_not_mem hw)⟩

/-- Up to the first `c`, and from it. -/
theorem span_separator {c : α} {w : List α} (hw : c ∉ w) (rest : List α) :
    (w ++ c :: rest).takeWhile (fun d => d ≠ c) = w ∧
      (w ++ c :: rest).dropWhile (fun d => d ≠ c) = c :: rest := by
  have hall := forall_ne_of_not_mem hw
  constructor
  · rw [List.takeWhile_append_of_pos hall, List.takeWhile_cons_of_neg (by simp), List.append_nil]
  · rw [List.dropWhile_append_of_pos hall, List.dropWhile_cons_of_neg (by simp)]

/-- From the last `c`, and up to it. -/
theorem rspan_separator {c : α} {w : List α} (hw : c ∉ w) (front : List α) :
    (front ++ c :: w).rtakeWhile (fun d => d ≠ c) = w ∧
      (front ++ c :: w).rdropWhile (fun d => d ≠ c) = front ++ [c] := by
  have hrev : c ∉ w.reverse := by rwa [List.mem_reverse]
  obtain ⟨htake, hdrop⟩ := span_separator hrev front.reverse
  have hreverse : (front ++ c :: w).reverse = w.reverse ++ c :: front.reverse := by simp
  constructor
  · rw [List.rtakeWhile, hreverse, htake, List.reverse_reverse]
  · rw [List.rdropWhile, hreverse, hdrop, List.reverse_cons, List.reverse_reverse]

end SipDemo
