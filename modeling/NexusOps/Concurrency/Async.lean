import NexusOps.Concurrency.Fallible

/-!
# Tasks that may be dropped

A task that returns, fails, or is dropped while it awaits an answer (`Async`). What it
holds is released on the way out of all three (`Fallible.always`), but a dropped task
cannot be continued: a handler only sees failures (`Async.attempt`).

A loop that is left at a time that is not known in advance (`Fallible.loop`) awaits how
often it is repeated at most: whatever it does up to some time is what it does with a
bound that is large enough.

`Protocol.SafeAsync` is the safety of such a task, with a postcondition for each way
out. Most tasks keep what is known before them, unless they are dropped
(`Protocol.Preserves`).
-/

namespace Concurrency

variable {ι σ ε α β : Type}

namespace Fallible

/-- Repeats a task at most `n` times, until it returns a result. After that it is
    blocked. -/
def iterate (body : α → Fallible σ ε (α ⊕ β)) : Nat → α → Fallible σ ε β
  | 0, _ => .act fun _ => none
  | n + 1, a => do
    match ← body a with
    | .inl a => iterate body n a
    | .inr b => return b

/-- Repeats a task until it returns a result. -/
def loop (body : α → Fallible σ ε (α ⊕ β)) (a : α) : Fallible σ ε β := do
  let n ← .ask Nat
  iterate body n a

end Fallible

/-- How a task ends that does not return. -/
inductive Exit (ε : Type)
  /-- It fails. -/
  | error (e : ε)
  /-- It is dropped. -/
  | dropped

/-- A task over the shared state `σ` that may fail with an `ε`, or be dropped. -/
abbrev Async (σ ε : Type) := Fallible σ (Exit ε)

namespace Async

/-- Fails. -/
def fail (e : ε) : Async σ ε α := throw (.error e)

/-- The result of a computation, which may be a failure. -/
def ofExcept : Except ε α → Async σ ε α
  | .ok a => pure a
  | .error e => fail e

/-- Fails with `e` unless `p` holds. -/
def ensure (p : Prop) [Decidable p] (e : ε) : Async σ ε Unit := Fallible.ensure p (.error e)

/-- The task that awaits an answer, or is dropped: then `drop` is done first. -/
def await (drop : Proc σ Unit) (β : Type) : Async σ ε β := do
  match ← .ask (Option β) with
  | some b => return b
  | none =>
    .lift drop
    throw .dropped

/-- Catches a failure. -/
def attempt (x : Async σ ε α) : Async σ ε (Except ε α) :=
  ExceptT.mk do
    match ← x.run with
    | .ok a => return .ok (.ok a)
    | .error (.error e) => return .ok (.error e)
    | .error .dropped => return .error .dropped

end Async

/-- The postcondition of a task that does not return: `F` if it fails, `D` if it is
    dropped. -/
abbrev Exit.Post (F : ε → σ → Prop) (D : σ → Prop) : Exit ε → σ → Prop
  | .error e, s => F e s
  | .dropped, s => D s

namespace Protocol

open Fallible (Post)

variable {S : System ι σ} {P : Protocol S} {i : ι} {s : σ} {Q : α → σ → Prop} {E : ε → σ → Prop}

/-! ## Loops -/

/-- What holds before each round of a loop. -/
theorem safeOr_loop {Q : β → σ → Prop} {I : α → σ → Prop} {body : α → Fallible σ ε (α ⊕ β)}
    {a : α} (hbody : ∀ a s, I a s → P.SafeOr i (fun r s => r.elim (I · s) (Q · s)) E (body a) s)
    (h : I a s) : P.SafeOr i Q E (.loop body a) s := by
  refine safeOr_bind.2 (safeOr_ask fun n => ?_)
  induction n generalizing a s with
  | zero => exact fun s₁ _ _ b s₂ hf => nomatch hf
  | succ n ih =>
    refine (hbody a s h).bind fun r s hr => ?_
    cases r with
    | inl a => exact ih hr
    | inr b => exact hr

/-! ## Tasks that may be dropped -/

variable {F : ε → σ → Prop} {D : σ → Prop}

variable (P i) in
/-- From the state `s`, the task keeps to the protocol as `i`; if it returns then with
    `Q`, if it fails then with `F`, and if it is dropped then with `D`. -/
abbrev SafeAsync (Q : α → σ → Prop) (F : ε → σ → Prop) (D : σ → Prop) (x : Async σ ε α) (s : σ) :
    Prop :=
  P.SafeOr i Q (Exit.Post F D) x s

/-- Weaker postconditions. -/
theorem SafeAsync.mono {Q' : α → σ → Prop} {F' : ε → σ → Prop} {D' : σ → Prop} {x : Async σ ε α}
    (hx : P.SafeAsync i Q F D x s) (hQ : ∀ a s, Q a s → Q' a s) (hF : ∀ e s, F e s → F' e s)
    (hD : ∀ s, D s → D' s) : P.SafeAsync i Q' F' D' x s := by
  refine SafeOr.mono hx hQ fun e s h => ?_
  cases e with
  | error e => exact hF e s h
  | dropped => exact hD s h

theorem safeAsync_ofExcept {r : Except ε α} (h : ∀ a, r = .ok a → Q a s)
    (hF : ∀ e, r = .error e → F e s) : P.SafeAsync i Q F D (.ofExcept r) s := by
  cases r with
  | ok a => exact h a rfl
  | error e => exact hF e rfl

theorem safeAsync_await {Q : β → σ → Prop} {drop : Proc σ Unit} (h : ∀ b, Q b s)
    (hD : P.Safe i (fun _ => D) drop s) : P.SafeAsync i Q F D (.await drop β) s := by
  refine safeOr_bind.2 (safeOr_ask fun r => ?_)
  cases r with
  | some b => exact h b
  | none => exact safeOr_bind.2 (safeOr_lift.2 hD)

/-- A failure is caught. -/
theorem safeAsync_attempt {F' : ε → σ → Prop} {Q : Except ε α → σ → Prop} {x : Async σ ε α}
    (hx : P.SafeAsync i (fun a => Q (.ok a)) (fun e => Q (.error e)) D x s) :
    P.SafeAsync i Q F' D (.attempt x) s := by
  refine Safe.bind hx fun r s hr => ?_
  rcases r with (e | _) | a
  · exact hr
  · exact hr
  · exact hr

/-- What is released in any case. -/
theorem safeAsync_always {x : Async σ ε α} {release : Proc σ Unit}
    (hx : P.SafeAsync i (fun a => P.Safe i (fun _ => Q a) release)
      (fun e => P.Safe i (fun _ => F e) release) (P.Safe i (fun _ => D) release) x s) :
    P.SafeAsync i Q F D (.always x release) s := by
  refine safeOr_always (SafeOr.mono hx (fun _ _ h => h) fun e s h => ?_)
  cases e with
  | error e => exact h
  | dropped => exact h

/-! ## Tasks that keep an assertion -/

variable {A : σ → Prop}

variable (P i) in
/-- The task keeps `A`, whether it returns or fails; if it is dropped, then with `D`. -/
def Preserves (A D : σ → Prop) (x : Async σ ε α) : Prop :=
  ∀ s, A s → P.SafeAsync i (fun _ => A) (fun _ => A) D x s

section

variable {x : Async σ ε α}

theorem preserves_pure {a : α} : P.Preserves i A D (pure a : Async σ ε α) := fun _ h => h

theorem preserves_fail {e : ε} : P.Preserves i A D (.fail e : Async σ ε α) := fun _ h => h

theorem preserves_ofExcept {r : Except ε α} : P.Preserves i A D (.ofExcept r) :=
  fun _ h => safeAsync_ofExcept (fun _ _ => h) fun _ _ => h

theorem preserves_ensure {p : Prop} [Decidable p] {e : ε} :
    P.Preserves i A D (.ensure p e : Async σ ε Unit) :=
  fun _ h => safeOr_ensure (fun _ => h) fun _ => h

theorem Preserves.bind {k : α → Async σ ε β} (hx : P.Preserves i A D x)
    (hk : ∀ a, P.Preserves i A D (k a)) : P.Preserves i A D (x >>= k) :=
  fun s h => SafeOr.bind (hx s h) fun a s h => hk a s h

theorem Preserves.attempt (hx : P.Preserves i A D x) : P.Preserves i A D (.attempt x) :=
  fun s h => safeAsync_attempt (hx s h)

theorem Preserves.loop {body : α → Async σ ε (α ⊕ β)} {a : α}
    (hbody : ∀ a, P.Preserves i A D (body a)) : P.Preserves i A D (Fallible.loop body a) := by
  refine fun s h => safeOr_loop (I := fun _ => A) (fun a s h => ?_) h
  refine SafeOr.mono (hbody a s h) (fun r s h => ?_) fun _ _ h => h
  cases r <;> exact h

theorem preserves_ask : P.Preserves i A D (.ask β : Async σ ε β) :=
  fun _ h => safeOr_ask fun _ => h

/-- A neutral task keeps what others keep, even if it is dropped. -/
theorem Neutral.preserves (hx : P.Neutral i x.run) (hA : P.Stable i A) (hD : ∀ s, A s → D s) :
    P.Preserves i A D x := by
  refine fun s hs => SafeOr.mono (hx.safeOr hA hs) (fun _ _ h => h) fun e s h => ?_
  cases e with
  | error e => exact h
  | dropped => exact hD s h

/-- What follows a task that keeps an assertion. -/
theorem Preserves.andThen {Q : β → σ → Prop} {k : α → Async σ ε β} (hx : P.Preserves i A D x)
    (h : A s) (hF : ∀ e s, A s → F e s) (hk : ∀ a s, A s → P.SafeAsync i Q F D (k a) s) :
    P.SafeAsync i Q F D (x >>= k) s :=
  SafeOr.bind (SafeAsync.mono (hx s h) (fun _ _ h => h) hF fun _ h => h) hk

/-- The same, if a failure is caught. -/
theorem Preserves.attemptThen {Q : β → σ → Prop} {k : Except ε α → Async σ ε β}
    (hx : P.Preserves i A D x) (h : A s) (hk : ∀ r s, A s → P.SafeAsync i Q F D (k r) s) :
    P.SafeAsync i Q F D (.attempt x >>= k) s :=
  SafeOr.bind (safeAsync_attempt (hx s h)) hk

theorem preserves_lift {p : Proc σ α} (hp : ∀ s, A s → P.Safe i (fun _ => A) p s) :
    P.Preserves i A D (.lift p : Async σ ε α) :=
  fun s h => safeOr_lift.2 (hp s h)

theorem preserves_await {drop : Proc σ Unit} (hdrop : ∀ s, A s → P.Safe i (fun _ => D) drop s) :
    P.Preserves i A D (.await drop β : Async σ ε β) :=
  fun s h => safeAsync_await (fun _ => h) (hdrop s h)

end

end Protocol

end Concurrency
