import Mathlib.Data.List.Count
import Mathlib.Data.Set.Insert
import SipDemo.Run

/-!
# SipDemo.Handles

A table of handles that several parties acquire and release, as processes do
with descriptors or threads with locks.  A free handle goes to whoever acquires
it, and only the party that has it open may release it (`Allows`).

The module names nothing of the program.  `Owns` says which handles a party has
open, with a lemma for each call of its own and one for the calls of others;
`balanced` counts a whole history: a handle has been acquired as often as
released, and once more while it is open.
-/

namespace Handles

variable {η ω : Type*}

/-- Who has each handle open; nobody has a free one. -/
abbrev Table (η ω : Type*) := η → Option ω

inductive Call (η : Type*) where
  | acquire (h : η)
  | release (h : η)
  deriving DecidableEq

/-- What `who` may do. -/
def Allows (t : Table η ω) (who : ω) : Call η → Prop
  | .acquire h => t h = none
  | .release h => t h = some who

instance [DecidableEq ω] (t : Table η ω) (who : ω) : DecidablePred (Allows t who)
  | .acquire h => inferInstanceAs (Decidable (t h = none))
  | .release h => inferInstanceAs (Decidable (t h = some who))

variable [DecidableEq η]

/-- The table after a call. -/
def step (t : Table η ω) (x : ω × Call η) : Table η ω :=
  match x.2 with
  | .acquire h => Function.update t h (some x.1)
  | .release h => Function.update t h none

/-- `held` are the handles that `who` has open. -/
def Owns (t : Table η ω) (who : ω) (held : Set η) : Prop := ∀ h, t h = some who ↔ h ∈ held

section
variable {t : Table η ω} {who q : ω} {h : η} {held : Set η}

theorem Owns.acquire (ht : Owns t who held) :
    Owns (step t (who, .acquire h)) who (insert h held) := by
  intro x
  by_cases hx : x = h
  · simp [step, hx]
  · simpa [step, hx] using ht x

theorem Owns.release (ht : Owns t who held) :
    Owns (step t (who, .release h)) who (held \ {h}) := by
  intro x
  by_cases hx : x = h
  · simp [step, hx]
  · simpa [step, hx] using ht x

/-- What others may do takes nothing away and adds nothing. -/
theorem Owns.other (ht : Owns t who held) {call : Call η} (hne : q ≠ who)
    (hcall : Allows t q call) : Owns (step t (q, call)) who held := by
  intro x
  cases call with
  | acquire h =>
      by_cases hx : x = h
      · subst hx
        have hfree : x ∉ held := by
          rw [← ht x, show t x = none from hcall]
          exact Option.some_ne_none who ∘ Eq.symm
        simp [step, hne, hfree]
      · simpa [step, hx] using ht x
  | release h =>
      by_cases hx : x = h
      · subst hx
        have hforeign : x ∉ held := by
          rw [← ht x, show t x = some q from hcall]
          exact fun heq => hne (Option.some.inj heq)
        simp [step, hforeign]
      · simpa [step, hx] using ht x

end

/-! ## histories -/

/-- 1 for a handle that `who` has open. -/
def opened [DecidableEq ω] (t : Table η ω) (who : ω) (h : η) : Nat :=
  if t h = some who then 1 else 0

/-- Everybody does only what is allowed. -/
def Lawful (t : Table η ω) (calls : List (ω × Call η)) : Prop :=
  Run.Always step (fun t x => Allows t x.1 x.2) t calls

variable [DecidableEq ω]

/-- A call is on the books of the party that makes it, and of nobody else. -/
theorem balanced_step (t : Table η ω) (who : ω) (h : η) (x : ω × Call η)
    (hx : Allows t x.1 x.2) :
    [x].count (who, .acquire h) + opened t who h =
      [x].count (who, .release h) + opened (step t x) who h := by
  obtain ⟨p, call⟩ := x
  cases call with
  | acquire k =>
      have hfree : t k = none := hx
      by_cases hk : h = k
      · subst hk
        by_cases hp : p = who <;> simp [opened, step, hfree, hp]
      · simp [opened, step, hk, Ne.symm hk]
  | release k =>
      have hopen : t k = some p := hx
      by_cases hk : h = k
      · subst hk
        by_cases hp : p = who <;> simp [opened, step, hopen, hp]
      · simp [opened, step, hk, Ne.symm hk]

/-- **Balance**: a handle has been acquired as often as released, but for what
is open at the ends of the history. -/
theorem balanced (who : ω) (h : η) {t : Table η ω} {calls : List (ω × Call η)}
    (hlaw : Lawful t calls) :
    calls.count (who, .acquire h) + opened t who h =
      calls.count (who, .release h) + opened (Run.final step t calls) who h := by
  induction calls generalizing t with
  | nil => rfl
  | cons x calls ih =>
      have hhead := balanced_step t who h x hlaw.1
      have htail := ih hlaw.2
      rw [Run.final_cons, ← List.singleton_append, List.count_append, List.count_append]
      omega

end Handles
