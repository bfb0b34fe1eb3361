import NexusOps.Concurrency.Machine
import Mathlib.Data.List.Pairwise

/-!
# One-shot maps

The abstract map of single-use capabilities: an entry appears only by being
created, is gone at the latest when it is retired, and can be taken, which
returns it and removes it. Entries may also vanish on their own, e.g., by
expiring.

What holds of every run of the abstract map, and hence of every run of a machine
that refines it:

* `OneShot.created_of_get` and `OneShot.created_of_take`: an entry that is there,
  or is taken, was created earlier with that value, and has not been retired
  since;
* `OneShot.get_eq_none_of_take` and `OneShot.take_once`: when keys are fresh,
  i.e., no key is created twice, a key taken once has no entry ever after, and
  is never taken again.
-/

namespace Concurrency

variable {ε K V : Type*}

/-- The one-shot map: `Creates`, `Retires` and `Takes` tell which labels create,
    retire and take an entry. -/
def oneShotMap (Creates Retires Takes : ε → K → V → Prop) : Machine (K → Option V) ε where
  init M := ∀ k, M k = none
  step M e M' :=
    (∀ k v, M' k = some v → Creates e k v ∨ M k = some v ∧ ¬Retires e k v) ∧
      ∀ k v, Takes e k v → M k = some v ∧ M' k = none

/-- No key is created twice. -/
def FreshKeys (Creates : ε → K → V → Prop) (es : List ε) : Prop :=
  es.Pairwise fun e e' => ∀ k v v', Creates e k v → ¬Creates e' k v'

namespace OneShot

variable {Creates Retires Takes : ε → K → V → Prop} {M M' : K → Option V} {es pre post : List ε}
  {e : ε} {k : K} {v : V}

/-- An entry present at the end of a run was created in the run, and has not
    been retired since. -/
theorem created_of_get (hr : (oneShotMap Creates Retires Takes).Run es M) (hk : M k = some v) :
    ∃ pre c mid, es = pre ++ c :: mid ∧ Creates c k v ∧ ∀ e ∈ mid, ¬Retires e k v := by
  induction hr using Machine.Run.induction with
  | init M h => rw [h k] at hk; cases hk
  | snoc es M e M' hr hs ih =>
    rcases hs.1 k v hk with hc | ⟨hk, hne⟩
    · exact ⟨es, e, [], rfl, hc, nofun⟩
    · obtain ⟨pre, c, mid, rfl, hc, hmid⟩ := ih hk
      refine ⟨pre, c, mid ++ [e], by simp, hc, fun e' he' => ?_⟩
      rcases mem_snoc.1 he' with h | rfl
      · exact hmid e' h
      · exact hne

/-- A run up to a step that takes an entry. -/
theorem get_of_take (hr : (oneShotMap Creates Retires Takes).Run (pre ++ e :: post) M)
    (he : Takes e k v) :
    ∃ M₀ M₁, (oneShotMap Creates Retires Takes).Run pre M₀ ∧ M₀ k = some v ∧ M₁ k = none ∧
      (oneShotMap Creates Retires Takes).Path M₁ post M := by
  obtain ⟨M₀, M₁, h₀, hs, h₁⟩ := Machine.run_append_cons.1 hr
  obtain ⟨hk, hn⟩ := hs.2 k v he
  exact ⟨M₀, M₁, h₀, hk, hn, h₁⟩

/-- An entry that is taken was created earlier, and has not been retired since. -/
theorem created_of_take (hr : (oneShotMap Creates Retires Takes).Run (pre ++ e :: post) M)
    (he : Takes e k v) :
    ∃ pre₁ c mid, pre = pre₁ ++ c :: mid ∧ Creates c k v ∧ ∀ e' ∈ mid, ¬Retires e' k v := by
  obtain ⟨_, _, h₀, hk, _⟩ := get_of_take hr he
  exact created_of_get h₀ hk

/-- Without an entry at first, nor any creation, there is no entry in the end. -/
theorem get_eq_none_of_path (hp : (oneShotMap Creates Retires Takes).Path M es M')
    (hM : M k = none) (hc : ∀ c ∈ es, ∀ v, ¬Creates c k v) : M' k = none := by
  induction hp with
  | nil => exact hM
  | @cons M M₁ M' e es hs _ ih =>
    refine ih (Option.eq_none_iff_forall_ne_some.2 fun v hv => ?_) fun c h =>
      hc c (List.mem_cons_of_mem _ h)
    rcases hs.1 k v hv with h | ⟨h, _⟩
    · exact hc e List.mem_cons_self v h
    · exact Option.some_ne_none _ (h.symm.trans hM)

/-- A fresh key that has been taken has no entry ever after. -/
theorem get_eq_none_of_take (hr : (oneShotMap Creates Retires Takes).Run (pre ++ e :: post) M)
    (hf : FreshKeys Creates (pre ++ e :: post)) (he : Takes e k v) : M k = none := by
  obtain ⟨M₀, M₁, h₀, hk, hn, h₁⟩ := get_of_take hr he
  refine get_eq_none_of_path h₁ hn fun c' hc' v' hv' => ?_
  -- The key was created before it was taken, so it cannot be created again.
  obtain ⟨_, c, _, rfl, hc, _⟩ := created_of_get h₀ hk
  exact (List.pairwise_append.1 hf).2.2 c (by simp) c' (List.mem_cons_of_mem _ hc') k v v' hc hv'

/-- A fresh key is taken at most once. -/
theorem take_once (hr : (oneShotMap Creates Retires Takes).Run es M) (hf : FreshKeys Creates es) :
    es.Pairwise fun e e' => ∀ k v v', Takes e k v → ¬Takes e' k v' := by
  induction hr using Machine.Run.induction with
  | init => exact .nil
  | snoc es M e M' hr hs ih =>
    have hf' := (List.pairwise_append.1 hf).1
    refine List.pairwise_append.2
      ⟨ih hf', List.pairwise_singleton .., fun e₁ he₁ e₂ he₂ k v v' ht ht' => ?_⟩
    rw [List.mem_singleton.1 he₂] at ht'
    obtain ⟨pre, post, rfl⟩ := List.append_of_mem he₁
    have hnone := get_eq_none_of_take hr hf' ht
    rw [(hs.2 k v' ht').1] at hnone
    exact Option.some_ne_none _ hnone

end OneShot

end Concurrency
