import Mathlib.Algebra.Order.Ring.Nat
import Mathlib.Data.List.Basic

/-!
# SipDemo.Run

Runs of a deterministic system: a step function `σ → ι → σ` is folded over a
list of inputs, and an observation `σ → ι → List β` is read off the state
before each step.  Three notions carry every statement about a whole run:

* `final` — the state the run ends in;
* `collect` — what the observation sees, in order;
* `Always` — a predicate on the state before a step and its input, at every step.

The module names nothing of the program: it holds the induction over a run
once, so that the rest of the development only reasons about single steps.
-/

namespace Run

variable {σ τ ι κ β : Type*} {step : σ → ι → σ} {f : σ → ι → List β}

/-- The state after the inputs `xs`. -/
def final (step : σ → ι → σ) (s : σ) (xs : List ι) : σ := xs.foldl step s

/-- What `f` sees along the run: `f` reads the state before each step and the
input of the step. -/
def collect (step : σ → ι → σ) (f : σ → ι → List β) : σ → List ι → List β
  | _, [] => []
  | s, x :: xs => f s x ++ collect step f (step s x) xs

/-- `p` holds at every step of the run, of the state before it and its input. -/
def Always (step : σ → ι → σ) (p : σ → ι → Prop) : σ → List ι → Prop
  | _, [] => True
  | s, x :: xs => p s x ∧ Always step p (step s x) xs

/-- The states a run from an initial state can end in. -/
def Reachable (step : σ → ι → σ) (init : σ → Prop) (s : σ) : Prop :=
  ∃ s₀ xs, init s₀ ∧ final step s₀ xs = s

/-! ## composition of runs -/

@[simp] theorem final_nil (s : σ) : final step s [] = s := rfl

@[simp] theorem final_cons (s : σ) (x : ι) (xs : List ι) :
    final step s (x :: xs) = final step (step s x) xs := rfl

@[simp] theorem final_append (s : σ) (xs ys : List ι) :
    final step s (xs ++ ys) = final step (final step s xs) ys := List.foldl_append

@[simp] theorem collect_nil (s : σ) : collect step f s [] = [] := rfl

@[simp] theorem collect_cons (s : σ) (x : ι) (xs : List ι) :
    collect step f s (x :: xs) = f s x ++ collect step f (step s x) xs := rfl

@[simp] theorem collect_append (s : σ) (xs ys : List ι) :
    collect step f s (xs ++ ys) = collect step f s xs ++ collect step f (final step s xs) ys := by
  induction xs generalizing s with
  | nil => simp
  | cons x xs ih => simp [ih, List.append_assoc]

/-- An observation through a function is the function of the observation. -/
theorem collect_map {γ : Type*} (g : β → γ) (s : σ) (xs : List ι) :
    collect step (fun s x => (f s x).map g) s xs = (collect step f s xs).map g := by
  induction xs generalizing s with
  | nil => rfl
  | cons x xs ih => rw [collect_cons, collect_cons, List.map_append, ih]

/-- An observation that no step changes reads the inputs alone. -/
theorem collect_eq_flatMap (h : ∀ s x, f (step s x) = f s) (s : σ) (xs : List ι) :
    collect step f s xs = xs.flatMap (f s) := by
  induction xs generalizing s with
  | nil => rfl
  | cons x xs ih => rw [collect_cons, ih, h, List.flatMap_cons]

/-- An observation that shows less at every step shows less of the run. -/
theorem collect_sublist {g : σ → ι → List β} (h : ∀ s x, (f s x).Sublist (g s x)) (s : σ)
    (xs : List ι) : (collect step f s xs).Sublist (collect step g s xs) := by
  induction xs generalizing s with
  | nil => exact .slnil
  | cons x xs ih => exact (h s x).append (ih (step s x))

/-- Two observations that share the steps of a third between them share its run. -/
theorem length_collect_add {γ δ : Type*} {g : σ → ι → List γ} {k : σ → ι → List δ}
    (h : ∀ s x, (f s x).length + (g s x).length = (k s x).length) (s : σ) (xs : List ι) :
    (collect step f s xs).length + (collect step g s xs).length =
      (collect step k s xs).length := by
  induction xs generalizing s with
  | nil => rfl
  | cons x xs ih =>
      have hhead := h s x
      have htail := ih (step s x)
      simp only [collect_cons, List.length_append]
      omega

@[simp] theorem always_nil {p : σ → ι → Prop} (s : σ) : Always step p s [] := trivial

@[simp] theorem always_cons {p : σ → ι → Prop} (s : σ) (x : ι) (xs : List ι) :
    Always step p s (x :: xs) ↔ p s x ∧ Always step p (step s x) xs := Iff.rfl

theorem always_append {p : σ → ι → Prop} (s : σ) (xs ys : List ι) :
    Always step p s (xs ++ ys) ↔ Always step p s xs ∧ Always step p (final step s xs) ys := by
  induction xs generalizing s with
  | nil => simp
  | cons x xs ih => rw [List.cons_append, always_cons, always_cons, ih, final_cons, and_assoc]

instance instDecidableAlways {p : σ → ι → Prop} [∀ s x, Decidable (p s x)] :
    (s : σ) → (xs : List ι) → Decidable (Always step p s xs)
  | _, [] => .isTrue trivial
  | s, x :: xs =>
      haveI := instDecidableAlways (p := p) (step s x) xs
      inferInstanceAs (Decidable (p s x ∧ Always step p (step s x) xs))

/-! ## invariants -/

/-- A property kept by every step holds at the end of every run. -/
theorem final_of_preserved (I : σ → Prop) (hstep : ∀ s x, I s → I (step s x)) {s : σ}
    (hs : I s) (xs : List ι) : I (final step s xs) := by
  induction xs generalizing s with
  | nil => exact hs
  | cons x xs ih => exact ih (hstep s x hs)

/-- Along a run whose steps meet `p` and so keep `I`, whatever `I` and `p` imply
of a step holds at every step. -/
theorem Always.imp (I : σ → Prop) {p q : σ → ι → Prop} (himp : ∀ s x, I s → p s x → q s x)
    (hstep : ∀ s x, I s → p s x → I (step s x)) {s : σ} (hs : I s) {xs : List ι}
    (h : Always step p s xs) : Always step q s xs := by
  induction xs generalizing s with
  | nil => trivial
  | cons x xs ih => exact ⟨himp s x hs h.1, ih (hstep s x hs h.1) h.2⟩

/-- The initial states and the steps keep `I`, so every reachable state has it. -/
theorem Reachable.invariant {init : σ → Prop} (I : σ → Prop) (hinit : ∀ s, init s → I s)
    (hstep : ∀ s x, I s → I (step s x)) {s : σ} (h : Reachable step init s) : I s := by
  obtain ⟨s₀, xs, h₀, rfl⟩ := h
  exact final_of_preserved I hstep (hinit s₀ h₀) xs

theorem Reachable.of_init {init : σ → Prop} {s : σ} (h : init s) : Reachable step init s :=
  ⟨s, [], h, rfl⟩

theorem Reachable.final {init : σ → Prop} {s : σ} (h : Reachable step init s) (xs : List ι) :
    Reachable step init (final step s xs) := by
  obtain ⟨s₀, ys, h₀, rfl⟩ := h
  exact ⟨s₀, ys ++ xs, h₀, final_append s₀ ys xs⟩

/-- Under an invariant that the steps meeting `q` keep, two step predicates
that agree wherever the invariant holds agree along whole runs. -/
theorem always_congr (I : σ → Prop) {p q : σ → ι → Prop}
    (hpq : ∀ s x, I s → (p s x ↔ q s x)) (hstep : ∀ s x, I s → q s x → I (step s x))
    {s : σ} (hs : I s) (xs : List ι) : Always step p s xs ↔ Always step q s xs := by
  induction xs generalizing s with
  | nil => exact Iff.rfl
  | cons x xs ih =>
      rw [always_cons, always_cons, hpq s x hs]
      exact and_congr_right fun hq => ih (hstep s x hs hq)

/-- What every step of a run shows holds of all that the run shows. -/
theorem forall_mem_collect (I : σ → Prop) {q : β → Prop} (hobs : ∀ s x, I s → ∀ y ∈ f s x, q y)
    (hstep : ∀ s x, I s → I (step s x)) {s : σ} (hs : I s) (xs : List ι) :
    ∀ y ∈ collect step f s xs, q y := by
  induction xs generalizing s with
  | nil => exact fun y hy => absurd hy List.not_mem_nil
  | cons x xs ih =>
      intro y hy
      cases List.mem_append.mp hy with
      | inl hy => exact hobs s x hs y hy
      | inr hy => exact ih (hstep s x hs) y hy

/-- **Potential**: when no step gives out more than it takes in and lets the
potential drop by, no run does. -/
theorem sum_collect_add_le {γ : Type*} (I : σ → Prop) (potential : σ → Nat) {g : σ → ι → List γ}
    (cost : β → Nat) (credit : γ → Nat)
    (h : ∀ s x, I s → ((f s x).map cost).sum + potential (step s x) ≤
      potential s + ((g s x).map credit).sum)
    (hstep : ∀ s x, I s → I (step s x)) {s : σ} (hs : I s) (xs : List ι) :
    ((collect step f s xs).map cost).sum + potential (final step s xs) ≤
      potential s + ((collect step g s xs).map credit).sum := by
  induction xs generalizing s with
  | nil => simp
  | cons x xs ih =>
      have hhead := h s x hs
      have htail := ih (hstep s x hs)
      simp only [collect_cons, final_cons, List.map_append, List.sum_append]
      omega

/-- **Origin**: what a run uses, it held at the start or was issued on the way,
when every step only uses, and only keeps, what it held or issues. -/
theorem used_of_held_or_issued (I : σ → Prop) {p : σ → ι → Prop} {held : σ → β → Prop}
    {issued : σ → ι → List β}
    (hused : ∀ s x, I s → p s x → ∀ y ∈ f s x, held s y ∨ y ∈ issued s x)
    (hheld : ∀ s x, I s → p s x → ∀ y, held (step s x) y → held s y ∨ y ∈ issued s x)
    (hstep : ∀ s x, I s → I (step s x)) {s : σ} (hs : I s) {xs : List ι}
    (h : Always step p s xs) :
    ∀ y ∈ collect step f s xs, held s y ∨ y ∈ collect step issued s xs := by
  induction xs generalizing s with
  | nil => exact fun y hy => absurd hy List.not_mem_nil
  | cons x xs ih =>
      intro y hy
      simp only [collect_cons, List.mem_append] at hy ⊢
      cases hy with
      | inl hy => exact (hused s x hs h.1 y hy).imp_right .inl
      | inr hy =>
          cases ih (hstep s x hs) h.2 y hy with
          | inl hkept => exact (hheld s x hs h.1 y hkept).imp_right .inl
          | inr hlater => exact .inr (.inr hlater)

/-- **Simulation**: when related states show the same at every input and stay
related, so do their runs. -/
theorem simulates {step' : τ → ι → τ} {g : τ → ι → List β} (R : σ → τ → Prop)
    (hshow : ∀ s t x, R s t → f s x = g t x)
    (hstep : ∀ s t x, R s t → R (step s x) (step' t x)) {s : σ} {t : τ} (hst : R s t)
    (xs : List ι) :
    collect step f s xs = collect step' g t xs ∧ R (final step s xs) (final step' t xs) := by
  induction xs generalizing s t with
  | nil => exact ⟨rfl, hst⟩
  | cons x xs ih =>
      obtain ⟨hrest, hend⟩ := ih (hstep s t x hst)
      exact ⟨by rw [collect_cons, collect_cons, hshow s t x hst, hrest], hend⟩

/-! ## inputs that change nothing -/

/-- A run of inputs that each leave `s` as it is ends in `s`. -/
theorem final_eq_of_fixed {s : σ} {xs : List ι} (h : ∀ x ∈ xs, step s x = s) :
    final step s xs = s := by
  induction xs with
  | nil => rfl
  | cons x xs ih =>
      rw [final_cons, h x List.mem_cons_self]
      exact ih fun y hy => h y (List.mem_cons_of_mem x hy)

/-- **Erasure**: inputs outside `keep` that leave the state as it is and are
not observed can be dropped from the run; neither the end state nor the
observation changes. -/
theorem erase_unobserved {keep : ι → Bool} {s : σ} {xs : List ι}
    (h : Always step (fun s x => keep x = false → step s x = s ∧ f s x = []) s xs) :
    final step s (xs.filter keep) = final step s xs ∧
      collect step f s (xs.filter keep) = collect step f s xs := by
  induction xs generalizing s with
  | nil => exact ⟨rfl, rfl⟩
  | cons x xs ih =>
      obtain ⟨hx, hxs⟩ := h
      obtain ⟨hfin, hcol⟩ := ih hxs
      cases hk : keep x with
      | true => simp [hk, hfin, hcol]
      | false =>
          obtain ⟨hst, hnone⟩ := hx hk
          rw [hst] at hfin hcol
          simp [hk, hst, hnone, hfin, hcol]

/-- **Hidden inputs**: when the inputs outside `keep` show nothing and are not
noticed by a related state, and the others show the same and keep states
related, a run shows what the run of the kept inputs shows. -/
theorem hides {keep : ι → Bool} (R : σ → σ → Prop)
    (hkept : ∀ s t x, R s t → keep x = true → f s x = f t x ∧ R (step s x) (step t x))
    (hhidden : ∀ s t x, R s t → keep x = false → f s x = [] ∧ R (step s x) t) {s t : σ}
    (hst : R s t) (xs : List ι) :
    collect step f s xs = collect step f t (xs.filter keep) ∧
      R (final step s xs) (final step t (xs.filter keep)) := by
  induction xs generalizing s t with
  | nil => exact ⟨rfl, hst⟩
  | cons x xs ih =>
      cases hk : keep x with
      | true =>
          obtain ⟨hshow, hnext⟩ := hkept s t x hst hk
          obtain ⟨hrest, hend⟩ := ih hnext
          simp [hk, hshow, hrest, hend]
      | false =>
          obtain ⟨hnone, hnext⟩ := hhidden s t x hst hk
          obtain ⟨hrest, hend⟩ := ih hnext
          simp [hk, hnone, hrest, hend]

/-! ## components -/

/-- **Projection**: when every step of the whole acts on the component `proj`
as the run of the component inputs `inp`, so does every run. -/
theorem final_proj {step' : τ → κ → τ} (proj : σ → τ) {inp : σ → ι → List κ}
    (h : ∀ s x, proj (step s x) = final step' (proj s) (inp s x)) (s : σ) (xs : List ι) :
    proj (final step s xs) = final step' (proj s) (collect step inp s xs) := by
  induction xs generalizing s with
  | nil => rfl
  | cons x xs ih => rw [final_cons, collect_cons, final_append, ih, h]

/-- A step predicate that only reads a component runs along with it. -/
theorem always_proj {step' : τ → ι → τ} (proj : σ → τ) (p : τ → ι → Prop)
    (h : ∀ s x, proj (step s x) = step' (proj s) x) (s : σ) (xs : List ι) :
    Always step (fun s x => p (proj s) x) s xs ↔ Always step' p (proj s) xs := by
  induction xs generalizing s with
  | nil => exact Iff.rfl
  | cons x xs ih => rw [always_cons, always_cons, ih, h]

/-- What every step does to the component meets `q`, and so does the whole run. -/
theorem always_collect {step' : τ → κ → τ} (I : σ → Prop) (proj : σ → τ) {inp : σ → ι → List κ}
    {q : τ → κ → Prop} (hkeep : ∀ s x, I s → I (step s x))
    (h : ∀ s x, proj (step s x) = final step' (proj s) (inp s x))
    (hq : ∀ s x, I s → Always step' q (proj s) (inp s x)) {s : σ} (hs : I s) (xs : List ι) :
    Always step' q (proj s) (collect step inp s xs) := by
  induction xs generalizing s with
  | nil => trivial
  | cons x xs ih =>
      rw [collect_cons, always_append, ← h]
      exact ⟨hq s x hs, ih (hkeep s x hs)⟩

/-- What an observation of the component sees is what it sees through the
projection, step by step. -/
theorem collect_proj {step' : τ → κ → τ} (proj : σ → τ) {inp : σ → ι → List κ}
    (h : ∀ s x, proj (step s x) = final step' (proj s) (inp s x)) {g : τ → κ → List β}
    (s : σ) (xs : List ι) :
    collect step (fun s x => collect step' g (proj s) (inp s x)) s xs =
      collect step' g (proj s) (collect step inp s xs) := by
  induction xs generalizing s with
  | nil => rfl
  | cons x xs ih => rw [collect_cons, collect_cons, collect_append, ih, h]

end Run
