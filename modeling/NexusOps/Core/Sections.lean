import NexusOps.Core.Steps

/-!
# What a call knows

The facts a call establishes and relies on until it uses them: the locks it holds,
what these protect, and what is in the log. Each of them is stable: no step of
another call invalidates it. Then the sections that all calls use keep any such
fact, and add their own.
-/

namespace NexusOps.Core

open Concurrency RemoteOperations Protocol RemoteOperationFoundation

/-- A slot that is neither connecting nor connected is not connected by others. -/
theorem Undisturbed.idle {data data' : SessionData} (h : Undisturbed data data')
    (hconnecting : data.view.state ≠ .connecting) (hconnected : data.view.state ≠ .connected) :
    data'.view.state ≠ .connecting ∧ data'.view.state ≠ .connected := by
  by_cases hd : data.view.state = .disconnecting
  · rw [h.disconnecting hd]
    decide
  · obtain ⟨h₁, h₂, _⟩ := ConnectionState.quiescent_iff.1
      (h.quiescent (ConnectionState.quiescent_iff.2 ⟨hconnecting, hconnected, hd⟩))
    exact ⟨h₁, h₂⟩

namespace Application

variable {calls : TaskId → Call} {t : TaskId} {host : HostId} {slot : SlotId} {s s' : Application}
  {A : Application → Prop}

/-! ## Stability -/

theorem stable_of (h : ∀ j s s', j ≠ t → Inv calls s → Guarantee j s s' → A s → A s') :
    (protocol calls).Stable t A := by
  rintro s s' ⟨hi, _, henv | ⟨j, hj, hg⟩⟩ hs
  · refine h ⟨t.number + 1⟩ s s' (fun h => ?_) hi ((Env.harmless henv hi).2.guarantee _) hs
    exact absurd (congrArg TaskId.number h) (Nat.succ_ne_self _)
  · exact h j s s' hj hi hg hs

/-- A step of the call that could have been one of another call. -/
theorem interferes_of (hi : Inv calls s) (hi' : Inv calls s') (hg : ∀ j, Guarantee j s s') :
    (protocol calls).Interferes t s s' := by
  refine ⟨hi, hi', .inr ⟨⟨t.number + 1⟩, fun h => ?_, hg _⟩⟩
  exact absurd (congrArg TaskId.number h) (Nat.succ_ne_self _)

theorem stable_logged {es : List AppEvent} : (protocol calls).Stable t fun s => es.Sublist s.log := by
  refine stable_of fun j s s' _ _ hg hs => ?_
  obtain ⟨es', hlog, _, _⟩ := hg.log
  rw [hlog]
  exact hs.trans (List.sublist_append_left ..)

/-- A gate held by the call. -/
theorem stable_gate {holder : GateHolder} (ht : holder.task = t) :
    (protocol calls).Stable t fun s => s.remoteOperations.hostGates host = some holder :=
  stable_of fun _ _ _ hj _ hg hs => (hg.gates host holder (ht ▸ Ne.symm hj)).2 hs

theorem stable_mutation : (protocol calls).Stable t fun s => s.mutation = some t :=
  stable_of fun _ _ _ hj _ hg hs => (hg.mutation t (Ne.symm hj)).2 hs

/-- A slot of a host. -/
def IsSlotOf (slot : SlotId) (host : HostId) (s : Application) : Prop :=
  ∃ data, s.slots slot = some data ∧ data.view.hostId = host

theorem stable_isSlotOf : (protocol calls).Stable t (IsSlotOf slot host) := by
  refine stable_of fun j s s' _ _ hg ⟨data, hd, hid⟩ => ?_
  obtain ⟨data', hd', hstep⟩ := hg.slots slot data hd
  exact ⟨data', hd', hstep.host.trans hid⟩

/-- The guard of a host that the call holds is not held by another one. -/
theorem ne_lifecycle {j : TaskId} (hj : j ≠ t)
    (hgate : s.remoteOperations.hostGates host = some (.lifecycle t)) :
    s.remoteOperations.hostGates host ≠ some (.lifecycle j) := by
  rw [hgate]
  rintro h
  exact hj (GateHolder.lifecycle.inj (Option.some.inj h)).symm

/-- The call guards the host, whose plans and observations belong to its connection. -/
structure Good (t : TaskId) (host : HostId) (s : Application) : Prop where
  gate : s.remoteOperations.hostGates host = some (.lifecycle t)
  good : s.GoodHost host

theorem stable_good : (protocol calls).Stable t (Good t host) :=
  stable_of fun _ _ _ hj hi hg hs => ⟨(hg.gates host (.lifecycle t) (Ne.symm hj)).2 hs.gate,
    hg.goodHost hi.slots (ne_lifecycle hj hs.gate) hs.good⟩

/-- The call guards the host, which has no plans and no observations. -/
structure Clear (t : TaskId) (host : HostId) (s : Application) : Prop where
  gate : s.remoteOperations.hostGates host = some (.lifecycle t)
  pending : ∀ id a, s.remoteOperations.authorities.state.pending.get id = some a →
    a.binding.hostId ≠ host
  observations : s.serviceObservations.sets.get host = none

theorem Clear.toGood (h : Clear t host s) : Good t host s := by
  refine ⟨h.gate, fun id a ha hid => absurd hid (h.pending id a ha), fun set hset => ?_⟩
  rw [h.observations] at hset
  cases hset

theorem stable_clear : (protocol calls).Stable t (Clear t host) := by
  refine stable_of fun j s s' hj _ hg hs => ?_
  have hne := ne_lifecycle hj hs.gate
  refine ⟨(hg.gates host (.lifecycle t) (Ne.symm hj)).2 hs.gate, fun id a ha hid => ?_, ?_⟩
  · exact hs.pending id a (hg.pending id a ha (hid ▸ hne)) hid
  · refine Option.eq_none_iff_forall_ne_some.2 fun set hset => ?_
    have hset := hg.observations host set hset hne
    rw [hs.observations] at hset
    cases hset

/-- The call guards the host, and the binding is that of its connection. -/
structure Bound (t : TaskId) (binding : AuthorityBinding) (s : Application) : Prop where
  gate : s.remoteOperations.hostGates binding.hostId = some (.lifecycle t)
  bound : s.BoundTo binding.hostId binding

theorem stable_bound {binding : AuthorityBinding} :
    (protocol calls).Stable t (Bound t binding) :=
  stable_of fun _ _ _ hj hi hg hs => ⟨(hg.gates _ (.lifecycle t) (Ne.symm hj)).2 hs.gate,
    hg.boundTo hi.slots (ne_lifecycle hj hs.gate) hs.bound⟩

/-- The call guards the host, whose slot it has. -/
structure Owns (t : TaskId) (host : HostId) (slot : SlotId) (s : Application) : Prop where
  gate : s.remoteOperations.hostGates host = some (.lifecycle t)
  session : s.sessions host = some slot

theorem stable_owns : (protocol calls).Stable t (Owns t host slot) :=
  stable_of fun _ _ _ hj _ hg hs => ⟨(hg.gates _ (.lifecycle t) (Ne.symm hj)).2 hs.gate,
    (hg.sessions host slot hs.session).resolve_right fun h => ne_lifecycle hj hs.gate h.1⟩

/-- The call guards the host, whose slot is neither connecting nor connected. -/
structure Idle (t : TaskId) (host : HostId) (slot : SlotId) (s : Application) : Prop
    extends Owns t host slot s where
  idle : ∃ data, s.slots slot = some data ∧ data.view.hostId = host ∧
    data.view.state ≠ .connecting ∧ data.view.state ≠ .connected

theorem stable_idle : (protocol calls).Stable t (Idle t host slot) := by
  refine stable_of fun j s s' hj hi hg hs => ?_
  obtain ⟨data, hd, hid, hconnecting, hconnected⟩ := hs.idle
  obtain ⟨data', hd', hstep⟩ := hg.slots slot data hd
  have hidle := (hstep.unguarded (hid ▸ ne_lifecycle hj hs.gate)).idle hconnecting hconnected
  exact ⟨⟨(hg.gates _ (.lifecycle t) (Ne.symm hj)).2 hs.gate, (hg.sessions host slot hs.session).resolve_right
    fun h => ne_lifecycle hj hs.gate h.1⟩, data', hd', hstep.host.trans hid, hidle⟩

/-- The call holds the metadata lock, and the slot of the host has no connection. -/
structure Resting (t : TaskId) (host : HostId) (slot : SlotId) (s : Application) : Prop where
  mutation : s.mutation = some t
  session : s.sessions host = some slot
  quiescent : ∃ data, s.slots slot = some data ∧ data.view.hostId = host ∧
    data.view.state.Quiescent

theorem ne_mutation {j : TaskId} (hj : j ≠ t) (h : s.mutation = some t) : s.mutation ≠ some j := by
  rw [h]
  exact fun h => hj (Option.some.inj h).symm

theorem stable_resting : (protocol calls).Stable t (Resting t host slot) := by
  refine stable_of fun j s s' hj _ hg hs => ?_
  obtain ⟨data, hd, hid, hq⟩ := hs.quiescent
  obtain ⟨data', hd', hstep⟩ := hg.slots slot data hd
  have hne := ne_mutation hj hs.mutation
  exact ⟨(hg.mutation t (Ne.symm hj)).2 hs.mutation,
    (hg.sessions host slot hs.session).resolve_right fun h => hne h.2,
    data', hd', hstep.host.trans hid, hstep.quiescent hne hq⟩

/-- An attempt of the call to connect the host: it goes on as long as the generation of
    the slot is that of the attempt. -/
def Trying (t : TaskId) (host : HostId) (attempt : Attempt) (s : Application) : Prop :=
  ∃ data, s.slots attempt.slot = some data ∧ data.view.hostId = host ∧
    attempt.generation ≤ data.generation ∧ (data.generation = attempt.generation →
      s.attempts attempt.slot = some t ∧ data.view.state = .connecting ∧
        Unsuperseded t host s.log)

variable {attempt : Attempt}

theorem stable_trying : (protocol calls).Stable t (Trying t host attempt) := by
  refine stable_of fun j s s' hj _ hg ⟨data, hd, hid, hle, htrying⟩ => ?_
  obtain ⟨data', hd', hstep⟩ := hg.slots attempt.slot data hd
  refine ⟨data', hd', hstep.host.trans hid, hle.trans hstep.generation, fun hgen => ?_⟩
  have hgen' : data.generation = attempt.generation :=
    le_antisymm (hgen ▸ hstep.generation) hle
  obtain ⟨hattempt, hstate, hun⟩ := htrying hgen'
  obtain ⟨hattempt', hstate', hun'⟩ :=
    hstep.attempt t (Ne.symm hj) hattempt hstate (hgen.trans hgen'.symm)
  exact ⟨hattempt', hstate', hid ▸ hun' (hid.symm ▸ hun)⟩

/-! ## Neutral sections -/

section

variable {α β : Type}

/-- A section within the guarantee of every call. -/
theorem neutral_section {f : Application → Option (β × Application)}
    (h : ∀ s b s', Inv calls s → f s = some (b, s') → Inv calls s' ∧ ∀ j, Guarantee j s s') :
    (protocol calls).Neutral t (.act f) := by
  refine neutral_act fun s b s' hi hf => ?_
  obtain ⟨hi', hg⟩ := h s b s' hi hf
  exact ⟨hi', hg t, interferes_of hi hi' hg⟩

theorem Agree.refl (s : Application) : Agree s s :=
  ⟨rfl, rfl, rfl, rfl, rfl, rfl, rfl, rfl, rfl, rfl⟩

/-- A section that changes nothing that the protocol is about. -/
theorem neutral_agree {f : Application → Option (β × Application)}
    (h : ∀ s b s', f s = some (b, s') → Agree s s') : (protocol calls).Neutral t (.act f) :=
  neutral_section fun s b s' hi hf => ⟨(h s b s' hf).inv hi, (h s b s' hf).harmless.guarantee⟩

theorem neutral_read {f : Application → β} : (protocol calls).Neutral t (.read f) := by
  refine neutral_agree fun s b s' hf => ?_
  obtain ⟨⟩ := hf
  exact .refl s

theorem neutral_modify {f : Application → Application} (h : ∀ s, Agree s (f s)) :
    (protocol calls).Neutral t (.modify f) := by
  refine neutral_agree fun s b s' hf => ?_
  obtain ⟨⟩ := hf
  exact h s

/-- A section of the authority store that does not publish a plan. -/
theorem neutral_storeSection {f : StoreState SystemdOperation → β × StoreState SystemdOperation}
    (hf : ∀ store, ∃ e : StoreEvent SystemdOperation,
      e.Performs PLAN_TTL store (f store).2 ∧ e.newId = none) :
    (protocol calls).Neutral t (storeSection f) := by
  refine neutral_section fun s b s' hi h => ?_
  obtain ⟨⟩ := h
  obtain ⟨e, he, hn⟩ := hf s.remoteOperations.authorities.state
  obtain ⟨hi', hh⟩ := step_store hi he hn
  exact ⟨hi', hh.guarantee⟩

/-- A section of the observation store that does not publish observations. -/
theorem neutral_observationSection {f : ObservationState → Except AppError β × ObservationState}
    (hf : ∀ state host set, (f state).2.sets.get host = some set → state.sets.get host = some set) :
    (protocol calls).Neutral t (observationSection f).run := by
  refine neutral_section fun s b s' hi h => ?_
  obtain ⟨⟩ := h
  obtain ⟨hi', hh⟩ := step_observations hi (hf s.serviceObservations)
  exact ⟨hi', hh.guarantee⟩

/-- A section under the lock of a slot. -/
theorem safeOr_slotSection {Q : β → Application → Prop} {E : AppError → Application → Prop}
    {f : SessionData → Application → Option (Except AppError β × Application)}
    (hA : (protocol calls).Stable t A) (hs : A s)
    (h : ∀ s data r s', A s → Inv calls s → s.slots slot = some data → f data s = some (r, s') →
      Inv calls s' ∧ Guarantee t s s' ∧ Fallible.Post Q E r s') :
    (protocol calls).SafeOr t Q E (slotSection slot f) s := by
  refine safeOr_act hA hs fun s₁ r s₂ hs₁ hi hf => ?_
  obtain ⟨data, hdata, hf⟩ := Option.bind_eq_some_iff.1 hf
  exact h s₁ data r s₂ hs₁ hi hdata hf

theorem neutral_slotSection
    {f : SessionData → Application → Option (Except AppError β × Application)}
    (h : ∀ s data r s', Inv calls s → s.slots slot = some data → f data s = some (r, s') →
      Inv calls s' ∧ ∀ j, Guarantee j s s') :
    (protocol calls).Neutral t (slotSection slot f).run := by
  refine neutral_section fun s b s' hi hf => ?_
  obtain ⟨data, hdata, hf⟩ := Option.bind_eq_some_iff.1 hf
  exact h s data b s' hi hdata hf

variable {id : HostId}

theorem neutral_repositoryGet : (protocol calls).Neutral t (repositoryGet id).run := by
  refine (neutral_lift neutral_ask).andThen fun fails => neutral_agree fun s b s' hf => ?_
  split_ifs at hf
  · obtain ⟨⟩ := hf
    exact .refl s
  · split at hf
    all_goals
      obtain ⟨⟩ := hf
      exact .refl s

theorem neutral_removeRotationPlan : (protocol calls).Neutral t (removeRotationPlan id).run := by
  refine neutral_agree fun s b s' hf => ?_
  obtain ⟨⟩ := hf
  exact ⟨rfl, rfl, rfl, rfl, rfl, rfl, rfl, rfl, rfl, rfl⟩

/-- The slot of a host is found or created. -/
theorem safeOr_slotOf (hA : (protocol calls).Stable t A) (hs : A s) :
    (protocol calls).SafeOr t (fun slot s => A s ∧ s.sessions id = some slot ∧ IsSlotOf slot id s)
      (fun _ => A) (slotOf id) s := by
  refine safeOr_bind.2 (safeOr_ask fun slot => safeOr_bind.2 (safeOr_ask fun cancel => ?_))
  refine safeOr_act hA hs fun s₁ r s₂ hs₁ hi hf => ?_
  cases hsession : s₁.sessions id with
  | some slot' =>
    rw [hsession] at hf
    obtain ⟨⟩ := hf
    exact ⟨hi, .refl t _, hs₁, hsession, hi.slots.hosted id slot' hsession⟩
  | none =>
    simp only [hsession] at hf
    split_ifs at hf with hfree
    obtain ⟨⟩ := hf
    obtain ⟨hi', hh⟩ := step_newSlot cancel (insert cancel s₁.tokens) hi hsession hfree.1
    exact ⟨hi', hh.guarantee t, hA _ _ (interferes_of hi hi' hh.guarantee) hs₁,
      Function.update_self .., _, Function.update_self .., rfl⟩

theorem neutral_slotOf : (protocol calls).Neutral t (slotOf id).run := by
  intro A hA s hs
  refine Safe.mono (safeOr_slotOf hA hs) fun r s h => ?_
  cases r with
  | ok slot => exact h.1
  | error e => exact h

theorem neutral_revokeHost : (protocol calls).Neutral t (revokeHost id).run :=
  (neutral_lift (neutral_storeSection fun _ => ⟨.revokeHost id _, rfl, rfl⟩)).andThen fun _ =>
    neutral_observationSection fun _ _ _ h => (ObservationState.get_revokeHost h).2

end

/-! ## Locks -/

section

variable {α : Type} {Q : α → Application → Prop} {E : Application → Prop} {body : App α}

variable (calls t) in
/-- What a call knows whether or not it holds the metadata lock. -/
structure Lasting (A : Application → Prop) : Prop where
  stable : (protocol calls).Stable t A
  mutation : ∀ s holder, A s → A { s with mutation := holder }

theorem Lasting.and {B : Application → Prop} (hA : Lasting calls t A) (hB : Lasting calls t B) :
    Lasting calls t fun s => A s ∧ B s :=
  ⟨hA.stable.and hB.stable, fun s holder h => ⟨hA.mutation s holder h.1, hB.mutation s holder h.2⟩⟩

theorem lasting_true : Lasting calls t fun _ => True := ⟨stable_true, fun _ _ h => h⟩

theorem lasting_good : Lasting calls t (Good t host) :=
  ⟨stable_good, fun _ _ h => ⟨h.gate, h.good.pending, h.good.observations⟩⟩

theorem lasting_clear : Lasting calls t (Clear t host) :=
  ⟨stable_clear, fun _ _ h => ⟨h.gate, h.pending, h.observations⟩⟩

theorem lasting_idle : Lasting calls t (Idle t host slot) :=
  ⟨stable_idle, fun _ _ h => ⟨⟨h.gate, h.session⟩, h.idle⟩⟩

theorem lasting_trying : Lasting calls t (Trying t host attempt) :=
  ⟨stable_trying, fun _ _ h => h⟩

/-- A call that holds the metadata lock, until it releases it. -/
theorem safeOr_releaseMutation (hQ : ∀ a, Lasting calls t (Q a)) (hE : Lasting calls t E)
    (h : (protocol calls).SafeOr t (fun a s => Q a s ∧ s.mutation = some t)
      (fun _ s => E s ∧ s.mutation = some t) body s) :
    (protocol calls).SafeOr t Q (fun _ => E)
      (.always body (.modify fun s => { s with mutation := none })) s := by
  have hrelease : ∀ B s, Lasting calls t B → B s ∧ s.mutation = some t →
      (protocol calls).Safe t (fun _ => B)
        (.modify fun s : Application => { s with mutation := none }) s := by
    intro B s hB hs
    refine safe_modify (k := .ret) (hB.stable.and stable_mutation) hs fun s₁ ⟨hs₁, hm⟩ hi => ?_
    have hold : ∀ t' ∈ s₁.mutation, t' = t := fun t' ht' => by
      rw [hm] at ht'
      exact (Option.some.inj ht').symm
    obtain ⟨hi', hg⟩ := step_mutation none hi hold nofun
    exact ⟨hi', hg, hB.mutation s₁ none hs₁⟩
  exact safeOr_always (h.mono (fun a s hs => hrelease (Q a) s (hQ a) hs) fun _ s hs => hrelease E s hE hs)

/-- The metadata lock is free when it is taken. -/
theorem step_takeMutation (hi : Inv calls s) (hfree : s.mutation = none) :
    Inv calls { s with mutation := some t } ∧ Guarantee t s { s with mutation := some t } := by
  refine step_mutation (some t) hi (fun t' ht' => ?_) fun t' ht' => (Option.some.inj ht').symm
  rw [hfree] at ht'
  cases ht'

theorem safeOr_withMutation (hA : Lasting calls t A) (hs : A s) (hQ : ∀ a, Lasting calls t (Q a))
    (hE : Lasting calls t E)
    (hbody : ∀ s, A s ∧ s.mutation = some t → (protocol calls).SafeOr t
      (fun a s => Q a s ∧ s.mutation = some t) (fun _ s => E s ∧ s.mutation = some t) body s) :
    (protocol calls).SafeOr t Q (fun _ => E) (withMutation t body) s := by
  refine safeOr_bind.2 (safeOr_act hA.stable hs fun s₁ r s₂ hs₁ hi hf => ?_)
  split_ifs at hf with hfree
  obtain ⟨⟩ := hf
  obtain ⟨hi', hg⟩ := step_takeMutation hi hfree
  exact ⟨hi', hg, safeOr_releaseMutation hQ hE (hbody _ ⟨hA.mutation _ _ hs₁, rfl⟩)⟩

theorem safeOr_withTryMutation {e : AppError} (hA : Lasting calls t A) (hs : A s)
    (hQ : ∀ a, Lasting calls t (Q a)) (hE : Lasting calls t E) (hfail : ∀ s, A s → E s)
    (hbody : ∀ s, A s ∧ s.mutation = some t → (protocol calls).SafeOr t
      (fun a s => Q a s ∧ s.mutation = some t) (fun _ s => E s ∧ s.mutation = some t) body s) :
    (protocol calls).SafeOr t Q (fun _ => E) (withTryMutation t e body) s := by
  refine safeOr_bind.2 (safeOr_act hA.stable hs fun s₁ r s₂ hs₁ hi hf => ?_)
  split_ifs at hf with hfree
  · obtain ⟨⟩ := hf
    obtain ⟨hi', hg⟩ := step_takeMutation hi hfree
    exact ⟨hi', hg, safeOr_releaseMutation hQ hE (hbody _ ⟨hA.mutation _ _ hs₁, rfl⟩)⟩
  · obtain ⟨⟩ := hf
    exact ⟨hi, .refl t _, hfail _ hs₁⟩

variable (calls t) in
/-- What a call knows whether or not it guards a host. -/
structure Unguarded (A : Application → Prop) : Prop where
  stable : (protocol calls).Stable t A
  gates : ∀ s F, A s → A { s with remoteOperations := F }

theorem Unguarded.and {B : Application → Prop} (hA : Unguarded calls t A)
    (hB : Unguarded calls t B) : Unguarded calls t fun s => A s ∧ B s :=
  ⟨hA.stable.and hB.stable, fun s F h => ⟨hA.gates s F h.1, hB.gates s F h.2⟩⟩

theorem unguarded_true : Unguarded calls t fun _ => True := ⟨stable_true, fun _ _ h => h⟩

theorem unguarded_logged {es : List AppEvent} : Unguarded calls t fun s => es.Sublist s.log :=
  ⟨stable_logged, fun _ _ h => h⟩

theorem unguarded_isSlotOf : Unguarded calls t (IsSlotOf slot host) :=
  ⟨stable_isSlotOf, fun _ _ h => h⟩

theorem unguarded_trying : Unguarded calls t (Trying t host attempt) :=
  ⟨stable_trying, fun _ _ h => h⟩

/-- A free gate is locked: the plans and observations of its host belong to its
    connection. -/
theorem step_lockGate (hi : Inv calls s)
    (h : lockGate s host (.lifecycle t) = some s') :
    Inv calls s' ∧ Guarantee t s s' ∧ Good t host s' ∧
      ∃ F, s' = { s with remoteOperations := F } := by
  obtain ⟨hfree, rfl⟩ := lockGate_eq_some.1 h
  rw [foundation_eq] at hfree
  obtain ⟨hi', hg⟩ := step_gate (t := t) host (some (.lifecycle t)) hi
    (fun g hg => by rw [hfree] at hg; cases hg) (fun g hg => Option.some.inj hg ▸ rfl)
    (fun h => absurd rfl (h t))
  have hgood : s.GoodHost host := hi.good host fun t' h => by
    rw [hfree] at h
    cases h
  exact ⟨hi', hg, ⟨Function.update_self .., hgood.pending, hgood.observations⟩, _, rfl⟩

/-- A call that guards a host, until it drops the guard. -/
theorem safeOr_dropGuard (hQ : ∀ a, Unguarded calls t (Q a))
    (h : (protocol calls).SafeOr t (fun a s => Q a s ∧ Good t host s) (fun _ => Good t host)
      body s) :
    (protocol calls).SafeOr t Q (fun _ _ => True)
      (.always body (dropGuard host)) s := by
  have hdrop : ∀ B s, Unguarded calls t B → B s ∧ Good t host s →
      (protocol calls).Safe t (fun _ => B) (dropGuard host) s := by
    intro B s hB hs
    refine safe_modify (k := .ret) (hB.stable.and stable_good) hs fun s₁ ⟨hs₁, hgood⟩ hi => ?_
    obtain ⟨hi', hg⟩ := step_gate (t := t) host none hi
      (fun g hg => by rw [hgood.gate] at hg; exact Option.some.inj hg ▸ rfl) nofun
      fun _ => hgood.good
    exact ⟨hi', hg, hB.gates _ _ hs₁⟩
  exact safeOr_always (h.mono (fun a s hs => hdrop (Q a) s (hQ a) hs) fun _ s hs =>
    hdrop _ s unguarded_true ⟨trivial, hs⟩)

theorem safeOr_withLifecycleGuard (hA : Unguarded calls t A) (hs : A s)
    (hQ : ∀ a, Unguarded calls t (Q a))
    (hbody : ∀ s, A s → Good t host s → (protocol calls).SafeOr t
      (fun a s => Q a s ∧ Good t host s) (fun _ => Good t host) body s) :
    (protocol calls).SafeOr t Q (fun _ _ => True) (withLifecycleGuard t host body) s := by
  refine safeOr_bind.2 (safeOr_lift.2 (safe_act (k := .ret) hA.stable hs fun s₁ b s₂ hs₁ hi hf => ?_))
  obtain ⟨s₂, hlock, hf⟩ := Option.map_eq_some_iff.1 hf
  obtain ⟨⟩ := hf
  obtain ⟨hi', hg, hgood, F, rfl⟩ := step_lockGate hi hlock
  exact ⟨hi', hg, safeOr_dropGuard hQ (hbody _ (hA.gates _ F hs₁) hgood)⟩

theorem safeOr_withTryLifecycleGuard {e : AppError} (hA : Unguarded calls t A) (hs : A s)
    (hQ : ∀ a, Unguarded calls t (Q a))
    (hbody : ∀ s, A s → Good t host s → (protocol calls).SafeOr t
      (fun a s => Q a s ∧ Good t host s) (fun _ => Good t host) body s) :
    (protocol calls).SafeOr t Q (fun _ _ => True) (withTryLifecycleGuard t host e body) s := by
  refine safeOr_bind.2 (safeOr_lift.2 (safe_act (k := .ret) hA.stable hs fun s₁ b s₂ hs₁ hi hf => ?_))
  cases hlock : lockGate s₁ host (.lifecycle t) with
  | none =>
    rw [hlock] at hf
    obtain ⟨⟩ := hf
    exact ⟨hi, .refl t _, trivial⟩
  | some s' =>
    rw [hlock] at hf
    obtain ⟨⟩ := hf
    obtain ⟨hi', hg, hgood, F, rfl⟩ := step_lockGate hi hlock
    exact ⟨hi', hg, safeOr_dropGuard hQ (hbody _ (hA.gates _ F hs₁) hgood)⟩

/-- Revoking a guarded host leaves nothing of it. -/
theorem safeOr_revokeHost (hA : (protocol calls).Stable t A) (hs : A s ∧ Good t host s) :
    (protocol calls).SafeOr t (fun _ s => A s ∧ Clear t host s) (fun _ s => A s ∧ Good t host s)
      (revokeHost host) s := by
  have hgate : (protocol calls).Stable t fun s => A s ∧ Good t host s ∧
      ∀ id a, s.remoteOperations.authorities.state.pending.get id = some a →
        a.binding.hostId ≠ host := by
    refine hA.and (stable_of fun j s s' hj hi hg ⟨hgood, hnone⟩ => ?_)
    have hne := ne_lifecycle hj hgood.gate
    exact ⟨⟨(hg.gates host (.lifecycle t) (Ne.symm hj)).2 hgood.gate,
      hg.goodHost hi.slots hne hgood.good⟩,
      fun id a ha hid => hnone id a (hg.pending id a ha (hid ▸ hne)) hid⟩
  refine safeOr_bind.2 (safeOr_lift.2 (safe_act (k := .ret) (hA.and stable_good) hs
    fun s₁ b s₂ ⟨hs₁, hgood⟩ hi hf => ?_))
  obtain ⟨⟩ := hf
  obtain ⟨hi', hh⟩ := step_store (e := .revokeHost host _) hi rfl rfl
  refine ⟨hi', hh.guarantee t, ?_⟩
  have hkeep := interferes_of (t := t) hi hi' hh.guarantee
  refine safeOr_act hgate ⟨hA _ _ hkeep hs₁, stable_good _ _ hkeep hgood, fun id a ha => ?_⟩
    fun s₃ r s₄ ⟨hs₃, hgood, hnone⟩ hi hf => ?_
  · exact ((StoreState.get_revokeHost hi.valid.consistent).1 ha).2
  · obtain ⟨⟩ := hf
    obtain ⟨hi', hh⟩ := step_observations hi fun _ _ h => (ObservationState.get_revokeHost h).2
    have hkeep := interferes_of (t := t) hi hi' hh.guarantee
    exact ⟨hi', hh.guarantee t, hA _ _ hkeep hs₃, hgood.gate, hnone, Table.get_remove_self ..⟩

end

end Application

end NexusOps.Core
