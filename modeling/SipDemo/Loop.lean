import Mathlib.Logic.Relation

/-!
# SipDemo.Loop

Loops that need not end: a body `σ → σ ⊕ α` either goes on with another state or
leaves with a result.  `run` turns the loop at most `fuel` times; `Reaches` is
what it passes on the way, however long.

* a loop leaves with `a` if and only if it reaches a state that leaves with `a`
  (`exists_run_iff`);
* it leaves when a measure falls at every turn (`exists_exit`);
* it never does when every turn keeps it going (`run_eq_none`), or when it
  comes to such a state (`Reaches.run_eq_none`).

The module names nothing of the program.
-/

namespace Loop

variable {σ α : Type*} {body : σ → σ ⊕ α} {s t : σ} {a : α}

/-- At most `fuel` turns; `none` when the loop has not left by then. -/
def run (body : σ → σ ⊕ α) : Nat → σ → Option α
  | 0, _ => none
  | fuel + 1, s =>
    match body s with
    | .inl s' => run body fuel s'
    | .inr a => some a

/-- The states the loop passes, the first one included. -/
def Reaches (body : σ → σ ⊕ α) : σ → σ → Prop :=
  Relation.ReflTransGen fun s s' => body s = .inl s'

theorem run_of_continue (h : body s = .inl t) (fuel : Nat) :
    run body (fuel + 1) s = run body fuel t := by
  rw [run, h]

theorem run_of_exit (h : body s = .inr a) (fuel : Nat) : run body (fuel + 1) s = some a := by
  rw [run, h]

/-! ## reached states -/

theorem Reaches.refl (s : σ) : Reaches body s s := Relation.ReflTransGen.refl

theorem Reaches.next {s' : σ} (h : Reaches body s t) (hbody : body t = .inl s') :
    Reaches body s s' := Relation.ReflTransGen.tail h hbody

/-- What every turn keeps holds of all states reached. -/
theorem Reaches.invariant (I : σ → Prop) (hturn : ∀ s s', I s → body s = .inl s' → I s')
    (hs : I s) (h : Reaches body s t) : I t := by
  induction h with
  | refl => exact hs
  | tail _ hbody ih => exact hturn _ _ ih hbody

/-- The loop leaves in one place only. -/
theorem Reaches.exit_unique {s₁ s₂ : σ} {a₁ a₂ : α} (h₁ : Reaches body s s₁)
    (h₂ : Reaches body s s₂) (hexit₁ : body s₁ = .inr a₁) (hexit₂ : body s₂ = .inr a₂) :
    s₁ = s₂ := by
  have hright : Relator.RightUnique fun s s' => body s = .inl s' := fun s t t' ht ht' =>
    Sum.inl.inj (ht.symm.trans ht')
  have hstuck {s s' : σ} {a : α} (hexit : body s = .inr a) (h : Reaches body s s') : s = s' := by
    cases Relation.ReflTransGen.cases_head h with
    | inl heq => exact heq
    | inr hnext =>
        obtain ⟨_, hbody, -⟩ := hnext
        exact absurd (hexit.symm.trans hbody) Sum.inr_ne_inl
  cases Relation.ReflTransGen.total_of_right_unique hright h₁ h₂ with
  | inl h => exact hstuck hexit₁ h
  | inr h => exact (hstuck hexit₂ h).symm

/-- Enough fuel gives the result of the state the loop leaves in. -/
theorem exists_run_iff :
    (∃ fuel, run body fuel s = some a) ↔ ∃ t, Reaches body s t ∧ body t = .inr a := by
  constructor
  · rintro ⟨fuel, hrun⟩
    induction fuel generalizing s with
    | zero => exact absurd hrun (Option.some_ne_none a).symm
    | succ fuel ih =>
        cases hbody : body s with
        | inl s' =>
            rw [run_of_continue hbody] at hrun
            obtain ⟨t, hreach, hexit⟩ := ih hrun
            exact ⟨t, Relation.ReflTransGen.head hbody hreach, hexit⟩
        | inr a' =>
            rw [run_of_exit hbody, Option.some.injEq] at hrun
            exact ⟨s, .refl s, hrun ▸ hbody⟩
  · rintro ⟨t, hreach, hexit⟩
    induction hreach using Relation.ReflTransGen.head_induction_on with
    | refl => exact ⟨1, run_of_exit hexit 0⟩
    | head hbody _ ih =>
        obtain ⟨fuel, hrun⟩ := ih
        exact ⟨fuel + 1, (run_of_continue hbody fuel).trans hrun⟩

/-! ## ending -/

/-- A loop ends when a measure falls at every turn made from a state of `I`. -/
theorem exists_exit (I : σ → Prop) (measure : σ → Nat)
    (hturn : ∀ s s', I s → body s = .inl s' → I s' ∧ measure s' < measure s) (hs : I s) :
    ∃ t a, Reaches body s t ∧ I t ∧ body t = .inr a := by
  induction hm : measure s using Nat.strongRecOn generalizing s with
  | ind m ih =>
      cases hbody : body s with
      | inl s' =>
          obtain ⟨hs', hless⟩ := hturn s s' hs hbody
          obtain ⟨t, a, hreach, ht, hexit⟩ := ih (measure s') (hm ▸ hless) hs' rfl
          exact ⟨t, a, Relation.ReflTransGen.head hbody hreach, ht, hexit⟩
      | inr a => exact ⟨s, a, .refl s, hs, hbody⟩

/-- A loop whose every state of `I` goes on with a state of `I` never ends. -/
theorem run_eq_none (I : σ → Prop) (hturn : ∀ s, I s → ∃ s', body s = .inl s' ∧ I s')
    (hs : I s) (fuel : Nat) : run body fuel s = none := by
  induction fuel generalizing s with
  | zero => rfl
  | succ fuel ih =>
      obtain ⟨s', hbody, hs'⟩ := hturn s hs
      rw [run_of_continue hbody]
      exact ih hs'

/-- Nor does one that comes to a state from which it never ends. -/
theorem Reaches.run_eq_none (h : Reaches body s t) (ht : ∀ fuel, run body fuel t = none)
    (fuel : Nat) : run body fuel s = none := by
  induction h using Relation.ReflTransGen.head_induction_on generalizing fuel with
  | refl => exact ht fuel
  | head hbody _ ih =>
      cases fuel with
      | zero => rfl
      | succ fuel => exact (run_of_continue hbody fuel).trans (ih fuel)

end Loop
