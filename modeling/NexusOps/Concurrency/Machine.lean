import Mathlib.Data.List.Infix
import Mathlib.Logic.Basic

/-!
# Labelled machines and their runs

A *machine* moves between states by labelled steps. A *path* is a sequence of
steps between two states, described by its labels; a *run* is a path from an
initial state.

* `Run.invariant` is the induction over runs: what holds initially and is
  preserved by every step holds after every run.
* `Path.exists_step` finds the step of a path that has established a fact.
* `Refines.run` carries the runs of a machine over to an abstract one it
  refines, with the same labels: what holds of every run of the abstract machine
  holds of the other.
-/

namespace Concurrency

section

variable {ε : Type*} {es : List ε} {e e' : ε}

theorem mem_snoc : e ∈ es ++ [e'] ↔ e ∈ es ∨ e = e' := by
  rw [List.mem_append, List.mem_singleton]

/-- A label that is not the last one stands before. -/
theorem mem_of_snoc (h : e ∈ es ++ [e']) (hne : e ≠ e') : e ∈ es :=
  (mem_snoc.1 h).resolve_right hne

end

/-- A machine with states `σ` and steps labelled by `ε`. -/
structure Machine (σ ε : Type*) where
  /-- The initial states. -/
  init : σ → Prop
  /-- The steps. -/
  step : σ → ε → σ → Prop

namespace Machine

variable {σ ε : Type*} (m : Machine σ ε)

/-- A sequence of steps between two states, with its labels. -/
inductive Path : σ → List ε → σ → Prop
  | nil (s : σ) : Path s [] s
  | cons {s s₁ s' : σ} {e : ε} {es : List ε} :
      m.step s e s₁ → Path s₁ es s' → Path s (e :: es) s'

/-- A path from an initial state. -/
def Run (es : List ε) (s : σ) : Prop := ∃ s₀, m.init s₀ ∧ m.Path s₀ es s

variable {m} {s s' : σ} {es es' : List ε} {e : ε}

theorem Path.append {s₁ : σ} (h : m.Path s es s₁) (h' : m.Path s₁ es' s') :
    m.Path s (es ++ es') s' := by
  induction h with
  | nil => exact h'
  | cons hs _ ih => exact .cons hs (ih h')

/-- A path splits where its labels do. -/
theorem path_append : m.Path s (es ++ es') s' ↔ ∃ s₁, m.Path s es s₁ ∧ m.Path s₁ es' s' := by
  refine ⟨fun h => ?_, fun ⟨_, h, h'⟩ => h.append h'⟩
  induction es generalizing s with
  | nil => exact ⟨s, .nil s, h⟩
  | cons e es ih =>
    cases h with
    | cons hs h =>
      obtain ⟨s₁, h₁, h₂⟩ := ih h
      exact ⟨s₁, .cons hs h₁, h₂⟩

theorem path_singleton : m.Path s [e] s' ↔ m.step s e s' := by
  refine ⟨fun h => ?_, fun h => .cons h (.nil _)⟩
  cases h with
  | cons hs h => cases h; exact hs

theorem Run.nil (h : m.init s) : m.Run [] s := ⟨s, h, .nil s⟩

theorem Run.snoc (h : m.Run es s) (hs : m.step s e s') : m.Run (es ++ [e]) s' := by
  obtain ⟨s₀, h₀, hp⟩ := h
  exact ⟨s₀, h₀, hp.append (path_singleton.2 hs)⟩

/-- A run splits where its labels do. -/
theorem run_append : m.Run (es ++ es') s' ↔ ∃ s, m.Run es s ∧ m.Path s es' s' := by
  constructor
  · rintro ⟨s₀, h₀, h⟩
    obtain ⟨s, h₁, h₂⟩ := path_append.1 h
    exact ⟨s, ⟨s₀, h₀, h₁⟩, h₂⟩
  · rintro ⟨s, ⟨s₀, h₀, h₁⟩, h₂⟩
    exact ⟨s₀, h₀, h₁.append h₂⟩

/-- A run with a distinguished step. -/
theorem run_append_cons : m.Run (es ++ e :: es') s' ↔
    ∃ s s₁, m.Run es s ∧ m.step s e s₁ ∧ m.Path s₁ es' s' := by
  rw [run_append]
  constructor
  · rintro ⟨s, h, h'⟩
    cases h' with
    | cons hs h' => exact ⟨s, _, h, hs, h'⟩
  · rintro ⟨s, _, h, hs, h'⟩
    exact ⟨s, h, .cons hs h'⟩

/-- Induction over runs, from their first step to their last. -/
@[elab_as_elim]
theorem Run.induction {motive : ∀ es s, m.Run es s → Prop}
    (init : ∀ s (h : m.init s), motive [] s (.nil h))
    (snoc : ∀ es s e s' (h : m.Run es s) (hs : m.step s e s'),
      motive es s h → motive (es ++ [e]) s' (h.snoc hs))
    {es : List ε} {s : σ} (h : m.Run es s) : motive es s h := by
  induction es using List.reverseRecOn generalizing s with
  | nil =>
    obtain ⟨s₀, h₀, hp⟩ := h
    cases hp
    exact init _ h₀
  | append_singleton es e ih =>
    obtain ⟨s₁, h₁, h₂⟩ := run_append.1 h
    exact snoc _ _ _ _ h₁ (path_singleton.1 h₂) (ih h₁)

/-- What holds initially and is preserved by every step holds after every run. -/
theorem Run.invariant {P : σ → Prop} (hinit : ∀ s, m.init s → P s)
    (hstep : ∀ s e s', P s → m.step s e s' → P s') (h : m.Run es s) : P s := by
  induction h using Run.induction with
  | init s hs => exact hinit s hs
  | snoc _ s e s' _ hs ih => exact hstep s e s' ih hs

/-- What holds is kept along a path whose labels are all among those that keep it. -/
theorem Path.invariant_on {P : σ → Prop} {L : ε → Prop}
    (hstep : ∀ s e s', L e → P s → m.step s e s' → P s') (h : m.Path s es s')
    (hes : ∀ e ∈ es, L e) (hs : P s) : P s' := by
  induction h with
  | nil => exact hs
  | cons h₁ _ ih =>
    refine ih (fun e he => hes e (List.mem_cons_of_mem _ he)) (hstep _ _ _ ?_ hs h₁)
    exact hes _ List.mem_cons_self

/-- What a run has established is kept along a path that continues it. -/
theorem Path.invariant {P : σ → Prop} (hstep : ∀ s e s', P s → m.step s e s' → P s')
    (h : m.Path s es s') (hs : P s) : P s' :=
  h.invariant_on (L := fun _ => True) (fun s e s' _ => hstep s e s') (fun _ _ => trivial) hs

/-- What holds at the end of a path but not at its start has been established by one of its
    steps. -/
theorem Path.exists_step {P : σ → Prop} (h : m.Path s es s') (hs : ¬P s) (hs' : P s') :
    ∃ es₁ e es₂ s₁ s₂, es = es₁ ++ e :: es₂ ∧ m.Path s es₁ s₁ ∧ m.step s₁ e s₂ ∧
      m.Path s₂ es₂ s' ∧ ¬P s₁ ∧ P s₂ := by
  induction h with
  | nil => exact absurd hs' hs
  | @cons s s₁ s' e es hstep h ih =>
    by_cases hs₁ : P s₁
    · exact ⟨[], e, es, s, s₁, rfl, .nil s, hstep, h, hs, hs₁⟩
    · obtain ⟨es₁, e', es₂, s₂, s₃, rfl, hpath, hstep', hpath', hs₂, hs₃⟩ := ih hs₁ hs'
      exact ⟨e :: es₁, e', es₂, s₂, s₃, rfl, .cons hstep hpath, hstep', hpath', hs₂, hs₃⟩

/-! ## Refinement -/

/-- The machine `m` refines `abs` through the abstraction `f`: every step from a
    state `m` runs to is, seen through `f`, a step of `abs` with that label. -/
structure Refines {τ : Type*} (m : Machine σ ε) (abs : Machine τ ε) (f : σ → τ) : Prop where
  init : ∀ s, m.init s → abs.init (f s)
  step : ∀ es s e s', m.Run es s → m.step s e s' → abs.step (f s) e (f s')

/-- A run of a refining machine is a run of the refined one. -/
theorem Refines.run {τ : Type*} {abs : Machine τ ε} {f : σ → τ} (hf : m.Refines abs f)
    (h : m.Run es s) : abs.Run es (f s) := by
  induction h using Run.induction with
  | init s hs => exact .nil (hf.init s hs)
  | snoc es s e s' hr hs ih => exact ih.snoc (hf.step es s e s' hr hs)

end Machine

end Concurrency
