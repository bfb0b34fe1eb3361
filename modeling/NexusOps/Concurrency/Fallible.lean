import NexusOps.Concurrency.RelyGuarantee

/-!
# Tasks that may fail

A task that returns or fails (`Fallible`). A failure skips the rest of the task,
except for what has to be released on the way out: `Fallible.always` releases
something in any case, and `Fallible.onError` only after a failure.

`Protocol.SafeOr` is the safety of such a task, with a postcondition for each way
out.
-/

namespace Concurrency

variable {ι σ ε α β : Type}

/-- A task over the shared state `σ` that may fail with an `ε`. -/
abbrev Fallible (σ ε : Type) := ExceptT ε (Proc σ)

namespace Fallible

/-- A task that does not fail. -/
def lift (p : Proc σ α) : Fallible σ ε α := ExceptT.mk (p >>= fun a => pure (.ok a))

/-- The task of one atomic section, which may fail. -/
def act (f : σ → Option (Except ε β × σ)) : Fallible σ ε β := ExceptT.mk (.act f)

/-- The task of an atomic section that only reads the state. -/
def read (f : σ → β) : Fallible σ ε β := lift (.read f)

/-- The task that awaits an answer. -/
def ask (β : Type) : Fallible σ ε β := lift (.ask β)

/-- The task that awaits an answer, and fails if that is a failure. -/
def await (β : Type) : Fallible σ ε β := ExceptT.mk (.ask (Except ε β))

/-- Fails with `e` unless `p` holds. -/
def ensure (p : Prop) [Decidable p] (e : ε) : Fallible σ ε Unit := if p then pure () else throw e

/-- Runs `release` after the task, however it ends. -/
def always (x : Fallible σ ε α) (release : Proc σ Unit) : Fallible σ ε α :=
  ExceptT.mk do
    let r ← x.run
    release
    return r

/-- Runs `release` after the task, if that fails. -/
def onError (x : Fallible σ ε α) (release : Proc σ Unit) : Fallible σ ε α :=
  ExceptT.mk do
    match ← x.run with
    | .ok a => return .ok a
    | .error e =>
      release
      return .error e

end Fallible

/-- The postcondition of a task that may fail: `Q` if it returns, `E` if it fails. -/
abbrev Fallible.Post (Q : α → σ → Prop) (E : ε → σ → Prop) : Except ε α → σ → Prop
  | .ok a, s => Q a s
  | .error e, s => E e s

namespace Protocol

open Fallible (Post)

variable {S : System ι σ} {P : Protocol S} {i : ι} {s : σ} {Q : α → σ → Prop} {E : ε → σ → Prop}

variable (P i) in
/-- From the state `s`, the task keeps to the protocol as `i`; if it returns then
    with `Q`, and if it fails then with `E`. -/
def SafeOr (Q : α → σ → Prop) (E : ε → σ → Prop) (x : Fallible σ ε α) (s : σ) : Prop :=
  P.Safe i (Post Q E) x.run s

/-- Weaker postconditions. -/
theorem SafeOr.mono {Q' : α → σ → Prop} {E' : ε → σ → Prop} {x : Fallible σ ε α}
    (hx : P.SafeOr i Q E x s) (hQ : ∀ a s, Q a s → Q' a s) (hE : ∀ e s, E e s → E' e s) :
    P.SafeOr i Q' E' x s := by
  refine Safe.mono hx fun r s h => ?_
  cases r with
  | ok a => exact hQ a s h
  | error e => exact hE e s h

variable (P i) in
/-- From the state `s`, the task keeps to the protocol as `i`, whatever it leads to. -/
abbrev Conforms (x : Fallible σ ε α) (s : σ) : Prop :=
  P.SafeOr i (fun _ _ => True) (fun _ _ => True) x s

theorem Conforms.run {x : Fallible σ ε α} (hx : P.Conforms i x s) :
    P.Safe i (fun _ _ => True) x.run s :=
  Safe.mono hx fun _ _ _ => trivial

theorem safeOr_pure {a : α} : P.SafeOr i Q E (pure a) s ↔ Q a s := Iff.rfl

/-- A task continued by another: a failure is passed on. -/
theorem safeOr_bind {Q : β → σ → Prop} {x : Fallible σ ε α} {k : α → Fallible σ ε β} :
    P.SafeOr i Q E (x >>= k) s ↔ P.SafeOr i (fun a s => P.SafeOr i Q E (k a) s) E x s := by
  refine safe_bind.trans (iff_of_eq (congrArg (fun Q => P.Safe i Q x.run s) ?_))
  funext r s
  cases r <;> rfl

/-- The same, from a task to what follows it. -/
theorem SafeOr.bind {R : α → σ → Prop} {Q : β → σ → Prop} {x : Fallible σ ε α}
    {k : α → Fallible σ ε β} (hx : P.SafeOr i R E x s)
    (hk : ∀ a s, R a s → P.SafeOr i Q E (k a) s) : P.SafeOr i Q E (x >>= k) s :=
  safeOr_bind.2 (hx.mono hk fun _ _ h => h)

theorem safeOr_lift {p : Proc σ α} : P.SafeOr i Q E (.lift p) s ↔ P.Safe i Q p s :=
  safe_bind

theorem safeOr_liftThen {R : α → σ → Prop} {Q : β → σ → Prop} {p : Proc σ α}
    {k : α → Fallible σ ε β} (hp : P.Safe i R p s) (hk : ∀ a s, R a s → P.SafeOr i Q E (k a) s) :
    P.SafeOr i Q E (.lift p >>= k) s :=
  safeOr_bind.2 (safeOr_lift.2 (hp.mono hk))

/-- A section that may fail. -/
theorem safeOr_act {A : σ → Prop} {f : σ → Option (Except ε α × σ)} (hA : P.Stable i A) (hs : A s)
    (h : ∀ s₁ r s₂, A s₁ → P.inv s₁ → f s₁ = some (r, s₂) → P.inv s₂ ∧ P.guarantee i s₁ s₂ ∧
      Post Q E r s₂) : P.SafeOr i Q E (.act f) s :=
  safe_act (k := .ret) hA hs h

theorem safeOr_read {A : σ → Prop} {f : σ → α} (hA : P.Stable i A) (hs : A s)
    (hg : ∀ s, P.guarantee i s s) (h : ∀ s₁, A s₁ → P.inv s₁ → Q (f s₁) s₁) :
    P.SafeOr i Q E (.read f) s :=
  safeOr_lift.2 (safe_read (k := .ret) hA hs hg h)

theorem safeOr_ask {Q : β → σ → Prop} (h : ∀ b, Q b s) : P.SafeOr i Q E (.ask β) s :=
  safeOr_lift.2 h

theorem safeOr_await {Q : β → σ → Prop} (h : ∀ b, Q b s) (hE : ∀ e, E e s) :
    P.SafeOr i Q E (.await β) s := by
  intro r
  cases r with
  | ok b => exact h b
  | error e => exact hE e

theorem safeOr_ensure {Q : Unit → σ → Prop} {p : Prop} [Decidable p] {e : ε} (h : p → Q () s)
    (hE : ¬p → E e s) : P.SafeOr i Q E (.ensure p e) s := by
  rw [Fallible.ensure]
  split_ifs with hp
  · exact h hp
  · exact hE hp

/-- What is released in any case. -/
theorem safeOr_always {x : Fallible σ ε α} {release : Proc σ Unit}
    (h : P.SafeOr i (fun a s => P.Safe i (fun _ s => Q a s) release s)
      (fun e s => P.Safe i (fun _ s => E e s) release s) x s) :
    P.SafeOr i Q E (.always x release) s := by
  refine Safe.bind h fun r s hr => safe_bind.2 ?_
  cases r <;> exact hr

/-- What is released after a failure. -/
theorem safeOr_onError {x : Fallible σ ε α} {release : Proc σ Unit}
    (h : P.SafeOr i Q (fun e s => P.Safe i (fun _ s => E e s) release s) x s) :
    P.SafeOr i Q E (.onError x release) s := by
  refine Safe.bind h fun r s hr => ?_
  cases r with
  | ok a => exact hr
  | error e => exact safe_bind.2 hr

/-! ## Neutral tasks -/

section

variable {x : Fallible σ ε α} {release : Proc σ Unit}

theorem Neutral.safeOr {A : σ → Prop} (hx : P.Neutral i x.run) (hA : P.Stable i A) (hs : A s) :
    P.SafeOr i (fun _ => A) (fun _ => A) x s := by
  refine Safe.mono (hx A hA s hs) fun r s hs => ?_
  cases r <;> exact hs

theorem neutral_lift {p : Proc σ α} (hp : P.Neutral i p) :
    P.Neutral i (Fallible.lift p : Fallible σ ε α).run :=
  hp.bind fun _ => neutral_pure

theorem neutral_throw {e : ε} : P.Neutral i (throw e : Fallible σ ε α).run := neutral_pure

theorem Neutral.andThen {k : α → Fallible σ ε β} (hx : P.Neutral i x.run)
    (hk : ∀ a, P.Neutral i (k a).run) : P.Neutral i (x >>= k).run := by
  refine hx.bind fun r => ?_
  cases r with
  | ok a => exact hk a
  | error e => exact neutral_pure

theorem neutral_ensure {p : Prop} [Decidable p] {e : ε} :
    P.Neutral i (Fallible.ensure p e : Fallible σ ε Unit).run := by
  rw [Fallible.ensure]
  split_ifs
  · exact neutral_pure
  · exact neutral_throw

theorem Neutral.onError (hx : P.Neutral i x.run) (hr : P.Neutral i release) :
    P.Neutral i (Fallible.onError x release).run := by
  refine hx.bind fun r => ?_
  cases r with
  | ok a => exact neutral_pure
  | error e => exact hr.bind fun _ => neutral_pure

end

end Protocol

end Concurrency
