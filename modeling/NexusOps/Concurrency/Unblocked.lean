import NexusOps.Concurrency.Trace

/-!
# Tasks that are not blocked

A section may be blocked in some states, and a task that has come to such a section may have to
wait (`Proc.Blocks`). It is *unblocked* (`Proc.Unblocked`) if it never comes to one, as long as the
sections it runs are among those that are expected: then it always goes on, until it returns or
awaits an answer.

A loop is blocked when its bound is used up. If there is less to do after each round, a bound
above what there is to do in the beginning is never used up (`Fallible.unblocked_iterate`): the
loop ends, and so does the loop of the program, which has no bound.
-/

namespace Concurrency

variable {σ ε α β : Type} {G : σ → σ → Prop}

namespace Proc

/-- The next section is blocked in some state. -/
def Blocks : Proc σ α → Prop
  | .atomic f _ => ∃ s, f s = none
  | _ => False

/-- The task does not come to a section that may be blocked, if its sections are expected. -/
def Unblocked (G : σ → σ → Prop) (p : Proc σ α) : Prop :=
  ∀ ts q, Trace p ts q → (∀ x ∈ ts, G x.1 x.2) → ¬ q.Blocks

variable {p : Proc σ α}

theorem unblocked_pure {a : α} : Unblocked G (pure a : Proc σ α) := by
  intro ts q h _
  obtain ⟨-, rfl⟩ := trace_ret.1 h
  exact id

theorem unblocked_act {f : σ → Option (β × σ)} (h : ∀ s, f s ≠ none) : Unblocked G (.act f) := by
  intro ts q ht _
  rcases trace_atomic.1 ht with ⟨-, rfl⟩ | ⟨s, b, s', ts', -, -, hk⟩
  · rintro ⟨s, hs⟩
    exact h s hs
  · obtain ⟨-, rfl⟩ := trace_ret.1 hk
    exact id

theorem unblocked_modify {f : σ → σ} : Unblocked G (.modify f) :=
  unblocked_act fun _ => Option.some_ne_none _

theorem unblocked_ask : Unblocked G (.ask β) := by
  intro ts q ht _
  rcases trace_await.1 ht with ⟨-, rfl⟩ | ⟨b, hk⟩
  · exact id
  · obtain ⟨-, rfl⟩ := trace_ret.1 hk
    exact id

/-- Fewer sections are expected. -/
theorem Unblocked.mono {G' : σ → σ → Prop} (hp : Unblocked G' p) (h : ∀ s s', G s s' → G' s s') :
    Unblocked G p :=
  fun ts q ht hts => hp ts q ht fun x hx => h x.1 x.2 (hts x hx)

theorem Unblocked.bind {k : α → Proc σ β} (hp : Unblocked G p)
    (hk : ∀ a ts, Returns p ts a → (∀ x ∈ ts, G x.1 x.2) → Unblocked G (k a)) :
    Unblocked G (p >>= k) := by
  intro ts q h hts
  rcases trace_bind.1 h with ⟨p', hp', rfl⟩ | ⟨a, ts₁, ts₂, rfl, h₁, h₂⟩
  · -- what the first part does next is what the task does next, unless it has returned
    cases p' with
    | ret a => exact hk a ts hp' hts [] _ .nil fun x hx => absurd hx List.not_mem_nil
    | atomic f k' => exact hp ts _ hp' hts
    | await k' => exact id
  · have hts := List.forall_mem_append.1 hts
    exact hk a ts₁ h₁ hts.1 ts₂ q h₂ hts.2

end Proc

/-! ## Tasks that may fail -/

namespace Fallible

open Proc

theorem unblocked_lift {p : Proc σ α} (hp : Unblocked G p) :
    Unblocked G (lift p : Fallible σ ε α).run :=
  hp.bind fun _ _ _ _ => unblocked_pure

theorem unblocked_andThen {x : Fallible σ ε α} {k : α → Fallible σ ε β} (hx : Unblocked G x.run)
    (hk : ∀ a ts, Returns x.run ts (.ok a) → (∀ y ∈ ts, G y.1 y.2) → Unblocked G (k a).run) :
    Unblocked G (x >>= k).run := by
  refine Unblocked.bind hx fun r ts h hts => ?_
  cases r with
  | ok a => exact hk a ts h hts
  | error e => exact unblocked_pure

theorem unblocked_ensure {p : Prop} [Decidable p] {e : ε} :
    Unblocked G (ensure p e : Fallible σ ε Unit).run := by
  rw [ensure]
  split_ifs
  · exact unblocked_pure
  · exact unblocked_pure

/-- A loop with a bound above what there is to do. -/
theorem unblocked_iterate {body : α → Fallible σ ε (α ⊕ β)} (I : α → Prop) (left : α → Nat)
    (hbody : ∀ a, I a → Unblocked G (body a).run)
    (hnext : ∀ a a' ts, I a → Returns (body a).run ts (.ok (.inl a')) → (∀ x ∈ ts, G x.1 x.2) →
      I a' ∧ left a' < left a)
    {n : Nat} {a : α} (ha : I a) (hn : left a < n) : Unblocked G (iterate body n a).run := by
  induction n generalizing a with
  | zero => exact absurd hn (Nat.not_lt_zero _)
  | succ n ih =>
    refine unblocked_andThen (hbody a ha) fun r ts h hts => ?_
    cases r with
    | inl a' =>
      obtain ⟨ha', hless⟩ := hnext a a' ts ha h hts
      exact ih ha' (by omega)
    | inr b => exact unblocked_pure

end Fallible

/-! ## Tasks that may be dropped -/

namespace Async

open Proc Fallible

theorem unblocked_ofExcept {r : Except ε α} :
    Unblocked G (Async.ofExcept r : Async σ ε α).run := by
  cases r with
  | ok a => exact unblocked_pure
  | error e => exact unblocked_pure

theorem unblocked_await {drop : Proc σ Unit} (hdrop : Unblocked G drop) :
    Unblocked G (Async.await drop β : Async σ ε β).run := by
  refine unblocked_andThen (unblocked_lift unblocked_ask) fun r _ _ _ => ?_
  cases r with
  | some b => exact unblocked_pure
  | none => exact unblocked_andThen (unblocked_lift hdrop) fun _ _ _ _ => unblocked_pure

end Async

end Concurrency
