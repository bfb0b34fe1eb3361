import NexusOps.Concurrency.Process
import Mathlib.Logic.Relation

/-!
# Rely and guarantee

To reason about the interleavings of a system, one task at a time, fix an
invariant of the shared state and, for each task, a *guarantee*: the relation
its atomic sections stay within (`Protocol`). What a task can *rely* on, between
two of its steps, is that the invariant holds and that the state has only been
changed by the environment and within the guarantees of the other tasks.

`Protocol.Safe` says that a task in a given state keeps to the protocol from
then on, and establishes a postcondition. It is computed by executing the task,
from one atomic section to the next.

A task is *neutral* (`Protocol.Neutral`) if it keeps every fact that others keep.

* `Protocol.Sound.of_run`: if every program the system may start is safe, then
  in every interleaving the invariant holds, and every task remains safe;
* `Protocol.Keeps.guarantee_of_step`: every step of a task is within its
  guarantee;
* `Protocol.Keeps.path`: what the guarantees add up to along a path.
-/

namespace Concurrency

variable {ι σ α β : Type} {S : System ι σ}

/-- An invariant with a guarantee for each task. -/
structure Protocol (S : System ι σ) where
  /-- What holds of the shared state at any time. -/
  inv : σ → Prop
  /-- What an atomic section of a task may do. -/
  guarantee : ι → σ → σ → Prop
  /-- What holds as long as a task has not been started. -/
  idle : ι → σ → Prop

namespace Protocol

variable (P : Protocol S) (i : ι)

/-- A change of the state by others than the task `i`. -/
def Interferes (s s' : σ) : Prop :=
  P.inv s ∧ P.inv s' ∧ (S.env s s' ∨ ∃ j, j ≠ i ∧ P.guarantee j s s')

/-- What may have happened to the state while the task `i` did nothing. -/
def Rely : σ → σ → Prop := Relation.ReflTransGen (P.Interferes i)

/-- A fact that the others do not invalidate. -/
def Stable (A : σ → Prop) : Prop := ∀ s s', P.Interferes i s s' → A s → A s'

/-- From the state `s`, the task keeps to the protocol as `i`, and if it returns
    then with `Q`. -/
def Safe (Q : α → σ → Prop) : Proc σ α → σ → Prop
  | .ret a, s => Q a s
  | .atomic f k, s => ∀ s₁, P.Rely i s s₁ → P.inv s₁ → ∀ b s₂, f s₁ = some (b, s₂) →
      P.inv s₂ ∧ P.guarantee i s₁ s₂ ∧ Safe Q (k b) s₂
  | .await k, s => ∀ b, Safe Q (k b) s

variable {P i} {s s' : σ} {Q : α → σ → Prop}

theorem Stable.rely {A : σ → Prop} (hA : P.Stable i A) (h : P.Rely i s s') (hs : A s) : A s' := by
  induction h with
  | refl => exact hs
  | tail _ h ih => exact hA _ _ h ih

theorem stable_true : P.Stable i fun _ => True := fun _ _ _ _ => trivial

theorem Stable.and {A B : σ → Prop} (hA : P.Stable i A) (hB : P.Stable i B) :
    P.Stable i fun s => A s ∧ B s :=
  fun s s' h hs => ⟨hA s s' h hs.1, hB s s' h hs.2⟩

/-- A safe task remains so while others run. -/
theorem Safe.interfere {p : Proc σ α} (hQ : ∀ a, P.Stable i (Q a)) (hp : P.Safe i Q p s)
    (h : P.Interferes i s s') : P.Safe i Q p s' := by
  induction p with
  | ret a => exact hQ a s s' h hp
  | atomic f k _ => exact fun s₁ hr => hp s₁ (.head h hr)
  | await k ih => exact fun b => ih b (hp b)

/-- A weaker postcondition. -/
theorem Safe.mono {Q' : α → σ → Prop} {p : Proc σ α} (hp : P.Safe i Q p s)
    (h : ∀ a s, Q a s → Q' a s) : P.Safe i Q' p s := by
  induction p generalizing s with
  | ret a => exact h a s hp
  | atomic f k ih =>
    intro s₁ hr hi b s₂ hf
    obtain ⟨hi₂, hg, hk⟩ := hp s₁ hr hi b s₂ hf
    exact ⟨hi₂, hg, ih b hk⟩
  | await k ih => exact fun b => ih b (hp b)

/-- A task continued by another is safe if it is safe and leads to where the
    other is. -/
theorem safe_bind {Q : β → σ → Prop} {p : Proc σ α} {k : α → Proc σ β} :
    P.Safe i Q (p >>= k) s ↔ P.Safe i (fun a s => P.Safe i Q (k a) s) p s := by
  induction p generalizing s with
  | ret a => exact Iff.rfl
  | atomic f k' ih =>
    exact forall₅_congr fun _ _ _ _ _ => imp_congr_right fun _ =>
      and_congr_right fun _ => and_congr_right fun _ => ih _
  | await k' ih => exact forall_congr' fun b => ih b

/-- The same, from a program to what follows it. -/
theorem Safe.bind {R : α → σ → Prop} {Q : β → σ → Prop} {p : Proc σ α} {k : α → Proc σ β}
    (hp : P.Safe i R p s) (hk : ∀ a s, R a s → P.Safe i Q (k a) s) : P.Safe i Q (p >>= k) s :=
  safe_bind.2 (hp.mono hk)

/-- A task in the middle of an atomic section: the assertion `A` held before it,
    and no other task has invalidated it. -/
theorem safe_act {A : σ → Prop} {f : σ → Option (β × σ)} {k : β → Proc σ α}
    (hA : P.Stable i A) (hs : A s)
    (h : ∀ s₁ b s₂, A s₁ → P.inv s₁ → f s₁ = some (b, s₂) →
      P.inv s₂ ∧ P.guarantee i s₁ s₂ ∧ P.Safe i Q (k b) s₂) :
    P.Safe i Q (Proc.act f >>= k) s :=
  fun s₁ hr hi b s₂ hf => h s₁ b s₂ (hA.rely hr hs) hi hf

/-- A section that only reads the state. -/
theorem safe_read {A : σ → Prop} {f : σ → β} {k : β → Proc σ α} (hA : P.Stable i A) (hs : A s)
    (hg : ∀ s, P.guarantee i s s) (h : ∀ s₁, A s₁ → P.inv s₁ → P.Safe i Q (k (f s₁)) s₁) :
    P.Safe i Q (Proc.read f >>= k) s := by
  refine safe_act hA hs fun s₁ b s₂ hA₁ hi hf => ?_
  obtain ⟨⟩ := hf
  exact ⟨hi, hg s₁, h s₁ hA₁ hi⟩

/-- A section that is never blocked. -/
theorem safe_modify {A : σ → Prop} {f : σ → σ} {k : Unit → Proc σ α} (hA : P.Stable i A)
    (hs : A s) (h : ∀ s₁, A s₁ → P.inv s₁ →
      P.inv (f s₁) ∧ P.guarantee i s₁ (f s₁) ∧ P.Safe i Q (k ()) (f s₁)) :
    P.Safe i Q (Proc.modify f >>= k) s := by
  refine safe_act hA hs fun s₁ b s₂ hA₁ hi hf => ?_
  obtain ⟨⟩ := hf
  exact h s₁ hA₁ hi

/-- An awaited answer can be any. -/
theorem safe_ask {k : β → Proc σ α} (h : ∀ b, P.Safe i Q (k b) s) :
    P.Safe i Q (Proc.ask β >>= k) s :=
  h

/-! ## Neutral tasks -/

variable (P i) in
/-- The task keeps whatever can be relied on while others run: what it does could as
    well have been done by them. -/
def Neutral (p : Proc σ α) : Prop :=
  ∀ A, P.Stable i A → ∀ s, A s → P.Safe i (fun _ => A) p s

theorem neutral_pure {a : α} : P.Neutral i (pure a) := fun _ _ _ hs => hs

theorem Neutral.bind {p : Proc σ α} {k : α → Proc σ β} (hp : P.Neutral i p)
    (hk : ∀ a, P.Neutral i (k a)) : P.Neutral i (p >>= k) :=
  fun A hA s hs => Safe.bind (hp A hA s hs) fun a s hs => hk a A hA s hs

theorem neutral_ask : P.Neutral i (Proc.ask β) := fun _ _ _ hs _ => hs

/-- A section that could have been one of another task. -/
theorem neutral_act {f : σ → Option (β × σ)} (h : ∀ s b s', P.inv s → f s = some (b, s') →
    P.inv s' ∧ P.guarantee i s s' ∧ P.Interferes i s s') : P.Neutral i (Proc.act f) := by
  refine fun A hA s hs => safe_act (k := .ret) hA hs fun s₁ b s₂ hs₁ hi hf => ?_
  obtain ⟨hi₂, hg, hinterferes⟩ := h s₁ b s₂ hi hf
  exact ⟨hi₂, hg, hA s₁ s₂ hinterferes hs₁⟩

/-! ## Soundness -/

/-- The system keeps to the protocol: it holds initially, the environment and the
    other tasks respect it, and every program a task can be started with is
    safe. -/
structure Sound (P : Protocol S) : Prop where
  init : ∀ s, S.init s → P.inv s ∧ ∀ i, P.idle i s
  env : ∀ s s', P.inv s → S.env s s' → P.inv s'
  idle : ∀ i, P.Stable i (P.idle i)
  entry : ∀ i p s, S.entry i p → P.inv s → P.idle i s → P.Safe i (fun _ _ => True) p s

/-- A task is where the protocol wants it: it has not been started, or it is safe. -/
def TaskSafe (P : Protocol S) (i : ι) (s : σ) : Option (Proc σ Unit) → Prop
  | none => P.idle i s
  | some p => P.Safe i (fun _ _ => True) p s

/-- The invariant holds, and every task is where the protocol wants it. -/
structure Keeps (P : Protocol S) (c : Config ι σ) : Prop where
  inv : P.inv c.shared
  tasks : ∀ i, P.TaskSafe i c.shared (c.tasks i)

theorem TaskSafe.interfere (hP : P.Sound) {t : Option (Proc σ Unit)} (ht : P.TaskSafe i s t)
    (h : P.Interferes i s s') : P.TaskSafe i s' t := by
  cases t with
  | none => exact hP.idle i s s' h ht
  | some p => exact Safe.interfere (fun _ _ _ _ => id) ht h

/-- A step of a safe task is within its guarantee, or changes nothing. -/
theorem Safe.step {p p' : Proc σ α} (hp : P.Safe i Q p s) (hi : P.inv s)
    (h : p.Step s p' s') :
    P.inv s' ∧ (s' = s ∨ P.guarantee i s s') ∧ P.Safe i Q p' s' := by
  cases h with
  | atomic h =>
    obtain ⟨hi', hg, hp'⟩ := hp s .refl hi _ _ h
    exact ⟨hi', .inr hg, hp'⟩
  | await _ b => exact ⟨hi, .inl rfl, hp b⟩

variable [DecidableEq ι] {c c' : Config ι σ} {l : Label ι}

theorem taskSafe_update {tasks : ι → Option (Proc σ Unit)} {t : Option (Proc σ Unit)}
    (ht : P.TaskSafe i s t) (h : ∀ j, j ≠ i → P.TaskSafe j s (tasks j)) (j : ι) :
    P.TaskSafe j s (Function.update tasks i t j) := by
  by_cases hj : j = i
  · subst hj
    rwa [Function.update_self]
  · rw [Function.update_of_ne hj]
    exact h j hj

/-- Every step of the system keeps to the protocol. -/
theorem Keeps.step (hP : P.Sound) (hc : P.Keeps c) (h : S.Step c l c') : P.Keeps c' := by
  cases l with
  | start i =>
    obtain ⟨hnone, p, hp, rfl⟩ := h
    have hidle := hc.tasks i
    rw [hnone] at hidle
    exact ⟨hc.inv, taskSafe_update (hP.entry i p _ hp hc.inv hidle) fun j _ => hc.tasks j⟩
  | run i =>
    obtain ⟨p, p', s', hsome, hstep, rfl⟩ := h
    have hp := hc.tasks i
    rw [hsome] at hp
    obtain ⟨hi', hg, hp'⟩ := Safe.step hp hc.inv hstep
    refine ⟨hi', taskSafe_update hp' fun j hj => ?_⟩
    rcases hg with rfl | hg
    · exact hc.tasks j
    · exact (hc.tasks j).interfere hP ⟨hc.inv, hi', .inr ⟨i, Ne.symm hj, hg⟩⟩
  | env =>
    obtain ⟨s', hs', rfl⟩ := h
    have hi' := hP.env _ _ hc.inv hs'
    exact ⟨hi', fun j => (hc.tasks j).interfere hP ⟨hc.inv, hi', .inl hs'⟩⟩

/-- In every interleaving, the invariant holds and every task is safe. -/
theorem Sound.of_run (hP : P.Sound) {ls : List (Label ι)} (h : S.machine.Run ls c) :
    P.Keeps c := by
  refine h.invariant (fun c hc => ?_) fun _ _ _ hc hs => hc.step hP hs
  obtain ⟨hi, hidle⟩ := hP.init _ hc.1
  exact ⟨hi, fun i => by rw [hc.2 i]; exact hidle i⟩

/-- A step of a task is within its guarantee, or leaves the shared state as it
    is. -/
theorem Keeps.guarantee_of_step (hc : P.Keeps c) (hs : S.Step c (.run i) c') :
    c'.shared = c.shared ∨ P.guarantee i c.shared c'.shared := by
  obtain ⟨p, p', s', hsome, hstep, rfl⟩ := hs
  have hp := hc.tasks i
  rw [hsome] at hp
  exact (Safe.step hp hc.inv hstep).2.1

/-- What the shared state goes through along a path: a relation that holds of every step of a
    task and of the environment, and composes. -/
theorem Keeps.path (hP : P.Sound) (hc : P.Keeps c) {ls : List (Label ι)} {R : σ → σ → Prop}
    (h : S.machine.Path c ls c') (refl : ∀ s, R s s)
    (trans : ∀ s₁ s₂ s₃, R s₁ s₂ → R s₂ s₃ → R s₁ s₃)
    (step : ∀ i s s', P.inv s → P.inv s' → P.guarantee i s s' → R s s')
    (env : ∀ s s', P.inv s → S.env s s' → R s s') : P.Keeps c' ∧ R c.shared c'.shared := by
  refine h.invariant (P := fun c' => P.Keeps c' ∧ R c.shared c'.shared)
    (fun c₁ l c₂ ⟨hc₁, hr⟩ hs => ?_) ⟨hc, refl _⟩
  have hc₂ := hc₁.step hP hs
  refine ⟨hc₂, trans _ _ _ hr ?_⟩
  cases l with
  | start i =>
    obtain ⟨-, p, -, rfl⟩ := hs
    exact refl _
  | run i =>
    rcases hc₁.guarantee_of_step hs with heq | hg
    · exact heq ▸ refl _
    · exact step i _ _ hc₁.inv hc₂.inv hg
  | env =>
    obtain ⟨s', hs', rfl⟩ := hs
    exact env _ _ hc₁.inv hs'

end Protocol

end Concurrency
