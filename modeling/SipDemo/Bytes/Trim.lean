import SipDemo.Bytes
import Mathlib.Data.List.TakeWhile

/-!
# SipDemo.Bytes.Trim

The laws of `trim`: what it leaves alone, what it removes at either end, and
that its result has nothing left to remove.
-/

namespace SipDemo

/-- Neither end of the string is white space. -/
def Trimmed (s : Str) : Prop :=
  (∀ c ∈ s.head?, ws c = false) ∧ ∀ c ∈ s.getLast?, ws c = false

instance (s : Str) : Decidable (Trimmed s) :=
  decidable_of_iff (s.head?.all (!ws ·) = true ∧ s.getLast?.all (!ws ·) = true)
    (by simp [Trimmed, Option.all_eq_true])

theorem dropWhile_ws_eq_self {s : Str} (h : ∀ c ∈ s.head?, ws c = false) : s.dropWhile ws = s := by
  rw [List.dropWhile_eq_self_iff]
  intro hpos
  rw [h s[0] (List.head?_eq_getElem? ▸ List.getElem?_eq_getElem hpos)]
  exact Bool.false_ne_true

theorem rdropWhile_ws_eq_self {s : Str} (h : ∀ c ∈ s.getLast?, ws c = false) :
    s.rdropWhile ws = s := by
  rw [List.rdropWhile_eq_self_iff]
  intro hne
  rw [h _ (List.getLast?_eq_some_getLast hne)]
  exact Bool.false_ne_true

/-- `trim` leaves a trimmed string alone. -/
theorem Trimmed.trim_eq {s : Str} (h : Trimmed s) : trim s = s := by
  rw [trim, dropWhile_ws_eq_self h.1, rdropWhile_ws_eq_self h.2]

@[simp] theorem trim_cons_of_ws {c : UInt8} (h : ws c = true) (s : Str) :
    trim (c :: s) = trim s := by
  rw [trim, List.dropWhile_cons_of_pos h, trim]

@[simp] theorem trim_concat_of_ws {c : UInt8} (h : ws c = true) (s : Str) :
    trim (s ++ [c]) = trim s := by
  rw [trim, trim, List.dropWhile_append]
  split
  · next hnil =>
      rw [List.isEmpty_iff.mp hnil, List.dropWhile_cons_of_pos h, List.dropWhile_nil]
  · rw [List.rdropWhile_concat_pos _ _ _ h]

/-- What `trim` returns is trimmed. -/
theorem trimmed_trim (s : Str) : Trimmed (trim s) := by
  have hlast : ∀ c ∈ (trim s).getLast?, ws c = false := by
    intro c hc
    have hne : trim s ≠ [] := by
      rintro hnil
      rw [hnil] at hc
      cases hc
    have hnot := List.rdropWhile_last_not ws (s.dropWhile ws) hne
    rw [List.getLast?_eq_some_getLast hne, Option.mem_some_iff] at hc
    rw [← hc]
    exact Bool.eq_false_iff.mpr hnot
  refine ⟨fun c hc => ?_, hlast⟩
  -- the first byte of what is left is the first byte that is not white space
  have hpre : trim s <+: s.dropWhile ws := List.rdropWhile_prefix ws _
  have hhead : (s.dropWhile ws).head? = some c := by
    obtain ⟨rest, hrest⟩ := hpre
    rw [← hrest, List.head?_append, Option.mem_def.mp hc]
    rfl
  have hnot := List.head?_dropWhile_not ws s
  rw [hhead] at hnot
  exact hnot

theorem trim_eq_self_iff {s : Str} : trim s = s ↔ Trimmed s :=
  ⟨fun h => h ▸ trimmed_trim s, Trimmed.trim_eq⟩

@[simp] theorem trim_trim (s : Str) : trim (trim s) = trim s := (trimmed_trim s).trim_eq

/-- `trim` returns a part of the string. -/
theorem trim_isInfix (s : Str) : trim s <:+: s :=
  (List.rdropWhile_prefix ws _).isInfix.trans (List.dropWhile_suffix ws).isInfix

end SipDemo
