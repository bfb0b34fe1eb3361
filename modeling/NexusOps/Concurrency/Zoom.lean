import NexusOps.Concurrency.Obeys

/-!
# Tasks over a part of the state

A task that was written for a state can be run on a larger one, of which that state is a part
(`Part.embed`). There, it may be subject to being dropped before each of its steps, if tasks can
be dropped at all.

Often all that has to be known about such a task is what its sections may change, one by one,
whatever state they find (`Within`). It is then safe on the larger state, under any protocol that
allows for these changes (`Within.preserves`).
-/

namespace Concurrency

variable {ι σ τ ε α β : Type}

/-! ## Tasks as a lawful monad -/

namespace Proc

theorem bind_pure' (p : Proc σ α) : p.bind ret = p := by
  induction p with
  | ret a => rfl
  | atomic f k ih => exact congrArg (atomic f) (funext ih)
  | await k ih => exact congrArg await (funext ih)

theorem bind_assoc' {γ : Type} (p : Proc σ α) (f : α → Proc σ β) (g : β → Proc σ γ) :
    (p.bind f).bind g = p.bind fun a => (f a).bind g := by
  induction p with
  | ret a => rfl
  | atomic f k ih => exact congrArg (atomic f) (funext ih)
  | await k ih => exact congrArg await (funext ih)

instance : LawfulMonad (Proc σ) :=
  LawfulMonad.mk' _ bind_pure' (fun _ _ => rfl) bind_assoc'

end Proc

/-! ## Parts -/

/-- A part of the state `τ`, and what becomes of the state when it is replaced. -/
structure Part (τ σ : Type) where
  get : τ → σ
  set : τ → σ → τ

/-- Where a task can be dropped, if that is possible. -/
def Async.pause (droppable : Bool) : Async σ ε Unit :=
  if droppable then do
    if ← .ask Bool then return () else throw .dropped
  else return ()

namespace Part

variable (part : Part τ σ) (droppable : Bool)

/-- A section on a part of the state. -/
def section' (f : σ → Option (β × σ)) : τ → Option (β × τ) :=
  fun t => (f (part.get t)).map fun r => (r.1, part.set t r.2)

/-- Runs a task on a part of the state. -/
def embed : Proc σ α → Async τ ε α
  | .ret a => pure a
  | .atomic f k => do
    .pause droppable
    let b ← .lift (.act (part.section' f))
    embed (k b)
  | @Proc.await _ _ β k => do
    .pause droppable
    let b ← .ask β
    embed (k b)

/-- The same, for a task that is not dropped. -/
def widen : Proc σ α → Proc τ α
  | .ret a => .ret a
  | .atomic f k => .atomic (part.section' f) fun b => widen (k b)
  | .await k => .await fun b => widen (k b)

/-- The same, for a task that may fail. -/
def lift (x : Fallible σ ε α) : Async τ ε α := do
  let r ← part.embed droppable x.run
  .ofExcept r

variable {part droppable}

theorem embed_bind (p : Proc σ α) (k : α → Proc σ β) :
    part.embed droppable (p >>= k) =
      (part.embed droppable p >>= fun a => part.embed droppable (k a) : Async τ ε β) := by
  induction p with
  | ret a => exact (pure_bind a fun a => (part.embed droppable (k a) : Async τ ε β)).symm
  | atomic f k' ih =>
    change (_ >>= fun _ => _ >>= fun b => part.embed droppable (k' b >>= k)) = _
    rw [embed, bind_assoc]
    simp only [bind_assoc, ih]
  | await k' ih =>
    change (_ >>= fun _ => _ >>= fun b => part.embed droppable (k' b >>= k)) = _
    rw [embed, bind_assoc]
    simp only [bind_assoc, ih]

theorem lift_bind (x : Fallible σ ε α) (k : α → Fallible σ ε β) :
    part.lift droppable (x >>= k) =
      (part.lift droppable x >>= fun a => part.lift droppable (k a) : Async τ ε β) := by
  rw [lift, lift, bind_assoc, ExceptT.run_bind, embed_bind, bind_assoc]
  refine congrArg _ (funext fun r => ?_)
  cases r with
  | ok a => rfl
  | error e => rfl

end Part

/-! ## Changes of a part -/

/-- A state that may change in any way at any time. -/
def chaos (σ : Type) : System Unit σ := ⟨fun _ => False, fun _ _ => False, fun _ _ => True⟩

/-- The protocol whose only demand is that each section is within `R`. -/
def frame (R : σ → σ → Prop) : Protocol (chaos σ) := ⟨fun _ => True, fun _ => R, fun _ _ => True⟩

/-- Each section of the task is within `R`, whatever the state is that it finds. -/
abbrev Within (R : σ → σ → Prop) (p : Proc σ α) : Prop := (frame R).Obeys () p

section

variable {R R' : σ → σ → Prop} {p : Proc σ α}

/-- What a state is does not matter to a task that finds any other. -/
theorem Within.of_safe {s : σ} (h : (frame R).Safe () (fun _ _ => True) p s) : Within R p := by
  intro s'
  exact Protocol.Safe.interfere (fun _ _ _ _ _ => trivial) h ⟨trivial, trivial, .inl trivial⟩

theorem within_atomic {f : σ → Option (β × σ)} {k : β → Proc σ α} (h : Within R (.atomic f k))
    {s s' : σ} {b : β} (hf : f s = some (b, s')) : R s s' ∧ Within R (k b) := by
  obtain ⟨-, hR, hk⟩ := h s s .refl trivial b s' hf
  exact ⟨hR, .of_safe hk⟩

theorem within_await {k : β → Proc σ α} (h : Within R (.await k)) (b : β) : Within R (k b) :=
  fun s => h s b

end

namespace Protocol

variable {S : System ι τ} {P : Protocol S} {i : ι} {part : Part τ σ} {droppable : Bool} {t : τ}
  {A D : τ → Prop}

theorem safeAsync_pause {F : ε → τ → Prop} (ht : A t) (hD : droppable = true → D t) :
    P.SafeAsync i (fun _ => A) F D (.pause droppable) t := by
  rw [Async.pause]
  split_ifs with hdrop
  · refine safeOr_bind.2 (safeOr_ask fun go => ?_)
    split_ifs
    · exact ht
    · exact hD hdrop
  · exact ht

/-- A section on a part of the state. -/
theorem safeAsync_embed_act {Q : β → τ → Prop} {F : ε → τ → Prop} {f : σ → Option (β × σ)}
    (hA : P.Stable i A) (ht : A t) (hD : droppable = true → ∀ t, A t → D t)
    (h : ∀ t b s, A t → P.inv t → f (part.get t) = some (b, s) →
      P.inv (part.set t s) ∧ P.guarantee i t (part.set t s) ∧ Q b (part.set t s)) :
    P.SafeAsync i Q F D (part.embed droppable (.act f)) t := by
  refine SafeOr.bind (safeAsync_pause ht fun hdrop => hD hdrop t ht) fun _ t₁ ht₁ => ?_
  refine safeOr_bind.2 (safeOr_lift.2 (safe_act (k := .ret) hA ht₁ fun t₂ b t₃ ht₂ hi hf => ?_))
  obtain ⟨⟨b, s⟩, hsection, hset⟩ := Option.map_eq_some_iff.1 hf
  obtain ⟨⟩ := hset
  exact h t₂ b s ht₂ hi hsection

/-- A section that may fail. -/
theorem safeAsync_lift_act {Q : β → τ → Prop} {F : ε → τ → Prop}
    {f : σ → Option (Except ε β × σ)} (hA : P.Stable i A) (ht : A t)
    (hD : droppable = true → ∀ t, A t → D t)
    (h : ∀ t r s, A t → P.inv t → f (part.get t) = some (r, s) →
      P.inv (part.set t s) ∧ P.guarantee i t (part.set t s) ∧
        Fallible.Post Q F r (part.set t s)) :
    P.SafeAsync i Q F D (part.lift droppable (.act f)) t := by
  refine SafeOr.bind (safeAsync_embed_act (Q := Fallible.Post Q F) hA ht hD h) fun r t₁ hr => ?_
  cases r with
  | ok b => exact hr
  | error e => exact hr

/-- An awaited answer can be any. -/
theorem safeAsync_lift_ask {Q : β → τ → Prop} {F : ε → τ → Prop} (h : ∀ b, Q b t)
    (hD : droppable = true → D t) :
    P.SafeAsync i Q F D (part.lift droppable (.ask β)) t := by
  refine safeOr_bind.2 (safeOr_bind.2 ?_)
  refine SafeOr.mono (safeAsync_pause (A := fun t => ∀ b, Q b t) (F := F) h hD) (fun _ t₁ h => ?_)
    fun _ _ h => h
  exact safeOr_bind.2 (safeOr_ask h)

/-- What is safe on a part of the state is safe on all of it, if there the protocol of the part is
    kept by everyone, and what else is known (`A`) is not affected by the part. -/
theorem Safe.widen {U : System ι σ} {P' : Protocol U} {Q : α → σ → Prop} {p : Proc σ α}
    (hget : ∀ t s, part.get (part.set t s) = s) (hinv : ∀ t, P.inv t → P'.inv (part.get t))
    (hrely : ∀ t t', P.Interferes i t t' → P'.Interferes i (part.get t) (part.get t'))
    (hA : P.Stable i A)
    (hstep : ∀ t s, A t → P.inv t → P'.inv s → P'.guarantee i (part.get t) s →
      P.inv (part.set t s) ∧ P.guarantee i t (part.set t s) ∧ A (part.set t s))
    (h : P'.Safe i Q p (part.get t)) (ht : A t) :
    P.Safe i (fun a t => Q a (part.get t) ∧ A t) (part.widen p) t := by
  induction p generalizing t with
  | ret a => exact ⟨h, ht⟩
  | atomic f k ih =>
    intro t₁ hr hi b t₂ hf
    obtain ⟨⟨b, s⟩, hsection, hset⟩ := Option.map_eq_some_iff.1 hf
    obtain ⟨⟩ := hset
    have hr' : P'.Rely i (part.get t) (part.get t₁) := hr.lift part.get hrely
    obtain ⟨hi', hg, hk⟩ := h _ hr' (hinv t₁ hi) b s hsection
    obtain ⟨hi₂, hg₂, ht₂⟩ := hstep t₁ s (hA.rely hr ht) hi hi' hg
    rw [← hget t₁ s] at hk
    exact ⟨hi₂, hg₂, ih b hk ht₂⟩
  | await k ih => exact fun b => ih b (h b) ht

end Protocol

open Protocol

/-- A task on a part of the state keeps what its sections keep, one by one. -/
theorem Within.preserves {R : σ → σ → Prop} {p : Proc σ α} {S : System ι τ} {P : Protocol S}
    {i : ι} {part : Part τ σ} {droppable : Bool} {A D : τ → Prop} (h : Within R p)
    (hA : P.Stable i A) (hD : droppable = true → ∀ t, A t → D t)
    (hR : ∀ t s, A t → P.inv t → R (part.get t) s →
      P.inv (part.set t s) ∧ P.guarantee i t (part.set t s) ∧ A (part.set t s)) :
    P.Preserves i A D (part.embed droppable p : Async τ ε α) := by
  induction p with
  | ret a => exact preserves_pure
  | atomic f k ih =>
    intro t ht
    refine SafeOr.bind (safeAsync_pause ht fun hdrop => hD hdrop t ht) fun _ t₁ ht₁ => ?_
    refine safeOr_bind.2 (safeOr_lift.2 (safe_act (k := .ret) hA ht₁ fun t₂ b t₃ ht₂ hi hf => ?_))
    obtain ⟨⟨b, s⟩, hsection, hset⟩ := Option.map_eq_some_iff.1 hf
    obtain ⟨⟩ := hset
    obtain ⟨hstep, hk⟩ := within_atomic h hsection
    obtain ⟨hi', hg, ht₃⟩ := hR t₂ s ht₂ hi hstep
    exact ⟨hi', hg, ih b hk _ ht₃⟩
  | await k ih =>
    intro t ht
    refine SafeOr.bind (safeAsync_pause ht fun hdrop => hD hdrop t ht) fun _ t₁ ht₁ => ?_
    exact safeOr_bind.2 (safeOr_ask fun b => ih b (within_await h b) t₁ ht₁)

/-- The same, on the larger state: there, each section is within what the changes of the part
    amount to. -/
theorem Within.embed {R : σ → σ → Prop} {R' : τ → τ → Prop} {p : Proc σ α} {part : Part τ σ}
    {droppable : Bool} (h : Within R p) (hR : ∀ t s, R (part.get t) s → R' t (part.set t s)) :
    Within R' (part.embed droppable p : Async τ ε α).run := by
  refine Preserves.obeys (Within.preserves h (A := fun _ => True) (fun _ _ _ _ => trivial)
    (fun _ _ _ => trivial) fun t s _ _ hstep => ?_)
  exact ⟨trivial, hR t s hstep, trivial⟩

theorem within_pause {R : τ → τ → Prop} {droppable : Bool} :
    Within R (Async.pause droppable : Async τ ε Unit).run := by
  rw [Async.pause]
  split_ifs
  · refine Obeys.andThen (obeys_lift obeys_ask) fun go => ?_
    split_ifs
    · exact obeys_pure
    · exact obeys_throw
  · exact obeys_pure

theorem within_act {R : σ → σ → Prop} {f : σ → Option (β × σ)}
    (h : ∀ s b s', f s = some (b, s') → R s s') : Within R (.act f) :=
  obeys_act fun s b s' _ hf => ⟨trivial, h s b s' hf⟩

section

variable {R : σ → σ → Prop} {S : System ι σ} {P : Protocol S} {i : ι}

/-- A task keeps what its sections keep, one by one. -/
theorem Within.safe {p : Proc σ α} {A : σ → Prop} (h : Within R p) (hA : P.Stable i A)
    (hR : ∀ s s', A s → P.inv s → R s s' → P.inv s' ∧ P.guarantee i s s' ∧ A s') {s : σ}
    (hs : A s) : P.Safe i (fun _ => A) p s := by
  induction p generalizing s with
  | ret a => exact hs
  | atomic f k ih =>
    intro s₁ hrely hi b s₂ hf
    obtain ⟨hstep, hk⟩ := within_atomic h hf
    obtain ⟨hi₂, hg, hs₂⟩ := hR s₁ s₂ (hA.rely hrely hs) hi hstep
    exact ⟨hi₂, hg, ih b hk hs₂⟩
  | await k ih => exact fun b => ih b (within_await h b) hs

/-- A task whose sections could all have been those of another is neutral. -/
theorem Within.neutral {p : Proc σ α} (h : Within R p) (hR : ∀ s s', P.inv s → R s s' →
    P.inv s' ∧ P.guarantee i s s' ∧ P.Interferes i s s') : P.Neutral i p := by
  refine fun A hA s hs => h.safe hA (fun s s' hs hi hstep => ?_) hs
  obtain ⟨hi', hg, hinterferes⟩ := hR s s' hi hstep
  exact ⟨hi', hg, hA s s' hinterferes hs⟩

end

end Concurrency
