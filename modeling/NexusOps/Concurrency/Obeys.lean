import NexusOps.Concurrency.Async

/-!
# Tasks that always keep to a protocol

Some facts about a system hold of every atomic section by itself, whatever was known before it.
A task *obeys* a protocol (`Protocol.Obeys`) if it keeps to it from every state: then its parts
do, and no assertion has to be carried from one to the next.
-/

namespace Concurrency

namespace Protocol

variable {ι σ ε α β : Type} {S : System ι σ} {P : Protocol S} {i : ι}

variable (P i) in
/-- The task keeps to the protocol as `i`, from every state. -/
def Obeys (p : Proc σ α) : Prop := ∀ s, P.Safe i (fun _ _ => True) p s

theorem obeys_pure {a : α} : P.Obeys i (pure a) := fun _ => trivial

theorem Obeys.bind {p : Proc σ α} {k : α → Proc σ β} (hp : P.Obeys i p)
    (hk : ∀ a, P.Obeys i (k a)) : P.Obeys i (p >>= k) :=
  fun s => Safe.bind (hp s) fun a s _ => hk a s

/-- A section that keeps to the protocol in every state. -/
theorem obeys_act {f : σ → Option (β × σ)}
    (h : ∀ s b s', P.inv s → f s = some (b, s') → P.inv s' ∧ P.guarantee i s s') :
    P.Obeys i (Proc.act f) := by
  intro s s₁ _ hi b s₂ hf
  obtain ⟨hi₂, hg⟩ := h s₁ b s₂ hi hf
  exact ⟨hi₂, hg, trivial⟩

theorem obeys_modify {f : σ → σ} (h : ∀ s, P.inv s → P.inv (f s) ∧ P.guarantee i s (f s)) :
    P.Obeys i (Proc.modify f) := by
  refine obeys_act fun s b s' hi hf => ?_
  obtain ⟨⟩ := hf
  exact h s hi

theorem obeys_read {f : σ → β} (hg : ∀ s, P.guarantee i s s) : P.Obeys i (Proc.read f) := by
  refine obeys_act fun s b s' hi hf => ?_
  obtain ⟨⟩ := hf
  exact ⟨hi, hg s⟩

theorem obeys_ask : P.Obeys i (Proc.ask β) := fun _ _ => trivial

/-! ## Tasks that may fail -/

section

variable {x : Fallible σ ε α} {release : Proc σ Unit}

theorem obeys_lift {p : Proc σ α} (hp : P.Obeys i p) :
    P.Obeys i (Fallible.lift p : Fallible σ ε α).run :=
  hp.bind fun _ => obeys_pure

theorem obeys_throw {e : ε} : P.Obeys i (throw e : Fallible σ ε α).run := obeys_pure

theorem Obeys.andThen {k : α → Fallible σ ε β} (hx : P.Obeys i x.run)
    (hk : ∀ a, P.Obeys i (k a).run) : P.Obeys i (x >>= k).run := by
  refine hx.bind fun r => ?_
  cases r with
  | ok a => exact hk a
  | error e => exact obeys_pure

theorem obeys_ensure {p : Prop} [Decidable p] {e : ε} :
    P.Obeys i (Fallible.ensure p e : Fallible σ ε Unit).run := by
  rw [Fallible.ensure]
  split_ifs
  · exact obeys_pure
  · exact obeys_throw

theorem Obeys.always (hx : P.Obeys i x.run) (hr : P.Obeys i release) :
    P.Obeys i (Fallible.always x release).run :=
  hx.bind fun _ => hr.bind fun _ => obeys_pure

theorem Obeys.onError (hx : P.Obeys i x.run) (hr : P.Obeys i release) :
    P.Obeys i (Fallible.onError x release).run := by
  refine hx.bind fun r => ?_
  cases r with
  | ok a => exact obeys_pure
  | error e => exact hr.bind fun _ => obeys_pure

end

/-! ## Tasks that may be dropped -/

section

variable {x : Async σ ε α}

theorem obeys_ofExcept {r : Except ε α} : P.Obeys i (Async.ofExcept r : Async σ ε α).run := by
  cases r with
  | ok a => exact obeys_pure
  | error e => exact obeys_throw

theorem obeys_await {drop : Proc σ Unit} (hdrop : P.Obeys i drop) :
    P.Obeys i (Async.await drop β : Async σ ε β).run := by
  refine Obeys.andThen (obeys_lift obeys_ask) fun r => ?_
  cases r with
  | some b => exact obeys_pure
  | none => exact Obeys.andThen (obeys_lift hdrop) fun _ => obeys_throw

theorem Obeys.attempt (hx : P.Obeys i x.run) : P.Obeys i (Async.attempt x).run := by
  refine hx.bind fun r => ?_
  rcases r with (e | _) | a
  · exact obeys_pure
  · exact obeys_pure
  · exact obeys_pure

/-- A task that keeps to the protocol whatever is known. -/
theorem Preserves.obeys (h : P.Preserves i (fun _ => True) (fun _ => True) x) : P.Obeys i x.run :=
  fun s => Safe.mono (h s trivial) fun _ _ _ => trivial

/-- A task that obeys the protocol can be seen as one that keeps what holds anyway. -/
theorem Obeys.preserves (h : P.Obeys i x.run) :
    P.Preserves i (fun _ => True) (fun _ => True) x := by
  refine fun s _ => Safe.mono (h s) fun r _ _ => ?_
  rcases r with (e | _) | a
  · trivial
  · trivial
  · trivial

theorem Obeys.loop {body : α → Async σ ε (α ⊕ β)} {a : α} (hbody : ∀ a, P.Obeys i (body a).run) :
    P.Obeys i (Fallible.loop body a).run :=
  Preserves.obeys (Preserves.loop fun a => (hbody a).preserves)

end

end Protocol

end Concurrency
