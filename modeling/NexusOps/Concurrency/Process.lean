import NexusOps.Concurrency.Machine
import Mathlib.Logic.Function.Basic

/-!
# Tasks over a shared state

A *task* is a program that alternates between atomic sections on a shared state
and points where it awaits an answer of its surroundings (`Proc`). An atomic
section may be blocked, e.g., waiting for a lock.

A *system* of tasks (`System`) runs any number of them, interleaved in any way:
at any time, a task may be started, a running task may take its next step, or
the environment may change the shared state. Tasks are named, and a name is used
once; a task that has returned stays there as such.
-/

namespace Concurrency

open Function

/-- A task over the shared state `σ`, returning an `α`. -/
inductive Proc (σ α : Type) : Type 1
  /-- The task has returned. -/
  | ret (a : α)
  /-- An atomic section, which is blocked in the states where it is undefined. -/
  | atomic {β : Type} (f : σ → Option (β × σ)) (k : β → Proc σ α)
  /-- An answer is awaited; it can be any. -/
  | await {β : Type} (k : β → Proc σ α)

namespace Proc

variable {σ α β : Type}

/-- A task continued by another. -/
protected def bind : Proc σ α → (α → Proc σ β) → Proc σ β
  | ret a, g => g a
  | atomic f k, g => atomic f fun b => (k b).bind g
  | await k, g => await fun b => (k b).bind g

instance : Monad (Proc σ) where
  pure := ret
  bind := Proc.bind

/-- The task of one atomic section. -/
def act (f : σ → Option (β × σ)) : Proc σ β := atomic f ret

/-- The task of an atomic section that only reads the state. -/
def read (f : σ → β) : Proc σ β := act fun s => some (f s, s)

/-- The task of an atomic section that is never blocked. -/
def modify (f : σ → σ) : Proc σ Unit := act fun s => some ((), f s)

/-- The task that awaits an answer. -/
def ask (β : Type) : Proc σ β := await ret

/-- What an atomic section returns and leaves behind. -/
theorem result_inj {b b' : β} {s s' : σ} (h : some (b, s) = some (b', s')) : b = b' ∧ s = s' :=
  Prod.mk.inj (Option.some.inj h)

/-- A step of a task, which changes the state if it is an atomic section. -/
inductive Step : Proc σ α → σ → Proc σ α → σ → Prop
  | atomic {β : Type} {f : σ → Option (β × σ)} {k : β → Proc σ α} {s s' : σ} {b : β}
      (h : f s = some (b, s')) : Step (.atomic f k) s (k b) s'
  | await {β : Type} {k : β → Proc σ α} (s : σ) (b : β) : Step (.await k) s (k b) s

/-- Steps of a task while all others do nothing. -/
inductive Alone : Proc σ α → σ → Proc σ α → σ → Prop
  | refl {p : Proc σ α} {s : σ} : Alone p s p s
  | act {β : Type} {f : σ → Option (β × σ)} {k : β → Proc σ α} {s : σ} {b : β} {s₁ : σ}
      {p' : Proc σ α} {s' : σ} (hf : f s = some (b, s₁)) (h : Alone (k b) s₁ p' s') :
      Alone (.atomic f k) s p' s'
  | answer {β : Type} {k : β → Proc σ α} {s : σ} (b : β) {p' : Proc σ α} {s' : σ}
      (h : Alone (k b) s p' s') : Alone (.await k) s p' s'

end Proc

/-- The named tasks started so far, and the shared state. -/
structure Config (ι σ : Type) where
  tasks : ι → Option (Proc σ Unit)
  shared : σ

/-- What a step of a system is. -/
inductive Label (ι : Type)
  /-- A task is started. -/
  | start (i : ι)
  /-- A task takes a step. -/
  | run (i : ι)
  /-- The environment changes the shared state. -/
  | env

/-- A system of tasks named by `ι`, over the shared state `σ`. -/
structure System (ι σ : Type) where
  /-- The initial states. -/
  init : σ → Prop
  /-- The programs a task can be started with. -/
  entry : ι → Proc σ Unit → Prop
  /-- What the environment may do. -/
  env : σ → σ → Prop

namespace System

variable {ι σ : Type} [DecidableEq ι] (S : System ι σ)

/-- A step of a system. -/
def Step (c : Config ι σ) : Label ι → Config ι σ → Prop
  | .start i, c' => c.tasks i = none ∧ ∃ p, S.entry i p ∧
      c' = ⟨update c.tasks i (some p), c.shared⟩
  | .run i, c' => ∃ p p' s', c.tasks i = some p ∧ p.Step c.shared p' s' ∧
      c' = ⟨update c.tasks i (some p'), s'⟩
  | .env, c' => ∃ s', S.env c.shared s' ∧ c' = ⟨c.tasks, s'⟩

/-- The interleavings of a system. -/
def machine : Machine (Config ι σ) (Label ι) where
  init c := S.init c.shared ∧ ∀ i, c.tasks i = none
  step := S.Step

/-! ## Runs of one task after another -/

variable {S} {ls : List (Label ι)} {i : ι} {tasks : ι → Option (Proc σ Unit)} {s : σ}

theorem run_start {p : Proc σ Unit} (h : S.machine.Run ls ⟨tasks, s⟩) (hi : tasks i = none)
    (hp : S.entry i p) : ∃ ls, S.machine.Run ls ⟨update tasks i (some p), s⟩ := by
  have hstep : S.machine.step ⟨tasks, s⟩ (.start i) ⟨update tasks i (some p), s⟩ :=
    ⟨hi, p, hp, rfl⟩
  exact ⟨_, h.snoc hstep⟩

/-- A task goes on that was started before. -/
theorem run_resume {p : Proc σ Unit} (h : S.machine.Run ls ⟨tasks, s⟩) (hi : tasks i = some p) :
    S.machine.Run ls ⟨update tasks i (some p), s⟩ := by
  rw [← hi, update_eq_self]
  exact h

/-- The environment changes the shared state. -/
theorem run_env {s' : σ} (h : S.machine.Run ls ⟨tasks, s⟩) (hs : S.env s s') :
    ∃ ls, S.machine.Run ls ⟨tasks, s'⟩ := by
  have hstep : S.machine.step ⟨tasks, s⟩ .env ⟨tasks, s'⟩ := ⟨s', hs, rfl⟩
  exact ⟨_, h.snoc hstep⟩

/-- A task that is left alone runs on. -/
theorem path_alone {p p' : Proc σ Unit} {s' : σ} (h : p.Alone s p' s') :
    ∃ n, S.machine.Path ⟨update tasks i (some p), s⟩ (List.replicate n (.run i))
      ⟨update tasks i (some p'), s'⟩ := by
  induction h with
  | refl => exact ⟨0, .nil _⟩
  | @act _ f k s b s₁ p' s' hf _ ih =>
    obtain ⟨n, h⟩ := ih
    refine ⟨n + 1, .cons (e := Label.run i) ⟨_, _, _, update_self .., .atomic hf, ?_⟩ h⟩
    rw [update_idem]
  | @answer _ k s b p' s' _ ih =>
    obtain ⟨n, h⟩ := ih
    refine ⟨n + 1, .cons (e := Label.run i) ⟨_, _, _, update_self .., .await s b, ?_⟩ h⟩
    rw [update_idem]

/-- A task that was started is left alone for some steps. -/
theorem run_alone {p p' : Proc σ Unit} {s' : σ}
    (h : S.machine.Run ls ⟨update tasks i (some p), s⟩) (halone : p.Alone s p' s') :
    ∃ ls, S.machine.Run ls ⟨update tasks i (some p'), s'⟩ := by
  obtain ⟨n, hpath⟩ : ∃ n, S.machine.Path ⟨update tasks i (some p), s⟩
      (List.replicate n (.run i)) ⟨update tasks i (some p'), s'⟩ := path_alone halone
  exact ⟨_, Machine.run_append.2 ⟨_, h, hpath⟩⟩

/-- A task is started, and left alone for some steps. -/
theorem run_task {p p' : Proc σ Unit} {s' : σ} (h : S.machine.Run ls ⟨tasks, s⟩) (i : ι)
    (hi : tasks i = none) (hp : S.entry i p) (halone : p.Alone s p' s') :
    ∃ ls, S.machine.Run ls ⟨update tasks i (some p'), s'⟩ := by
  obtain ⟨_, h⟩ := run_start h hi hp
  exact run_alone h halone

end System

end Concurrency
