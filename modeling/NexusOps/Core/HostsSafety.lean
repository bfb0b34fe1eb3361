import NexusOps.Core.LifecycleSafety

/-!
# Editing hosts and approving their keys is safe

The calls that edit and delete a host, and those that approve its key, keep to the
protocol. Those that do not delete it only change slots without a connection, so
that they keep whatever a call knows.
-/

namespace NexusOps.Core.Application

open Concurrency RemoteOperations Protocol

variable {calls : TaskId → Call} {t : TaskId} {host : HostId} {slot : SlotId} {s s' : Application}
  {data : SessionData} {A : Application → Prop}

/-! ## `save_host` -/

theorem neutral_getPrevious {id : Option HostId} :
    (protocol calls).Neutral t (getPrevious id).run := by
  cases id with
  | none => exact neutral_pure
  | some id => exact neutral_repositoryGet.andThen fun _ => neutral_pure

variable {input : HostInput}

theorem neutral_intoHost : (protocol calls).Neutral t (intoHost input).run :=
  neutral_ask.andThen fun _ => (neutral_lift neutral_ask).andThen fun _ => neutral_pure

variable {previous : Option StoredHost} {credential : Bool}

theorem neutral_storeCredential :
    (protocol calls).Neutral t (storeCredential credential previous).run := by
  unfold storeCredential
  split_ifs
  · exact neutral_ask.andThen fun _ => (neutral_lift neutral_ask).andThen fun _ =>
      neutral_ask.andThen fun _ => neutral_pure
  · cases previous with
    | none => exact neutral_throw
    | some previous => exact neutral_pure

theorem neutral_removeReplaced {id : HostId} :
    (protocol calls).Neutral t (removeReplaced previous id).run := by
  cases previous with
  | none => exact neutral_pure
  | some old =>
    rw [removeReplaced]
    split_ifs
    · exact neutral_ask
    · exact neutral_pure

/-- The slot is found without a connection, which none can be started for as long as
    the metadata lock is held. -/
theorem safeOr_checkEditable (hA : (protocol calls).Stable t A)
    (hs : A s ∧ s.mutation = some t) (hsession : s.sessions host = some slot) :
    (protocol calls).SafeOr t (fun _ s => A s ∧ Resting t host slot s)
      (fun _ s => A s ∧ s.mutation = some t) (slotSection slot checkEditable) s := by
  have hB : (protocol calls).Stable t fun s => s.mutation = some t ∧ s.sessions host = some slot :=
    stable_of fun _ _ _ hj _ hg ⟨hm, hsession⟩ => ⟨(hg.mutation t (Ne.symm hj)).2 hm,
      (hg.sessions host slot hsession).resolve_right fun h => ne_mutation hj hm h.2⟩
  refine safeOr_slotSection (hA.and hB) ⟨hs.1, hs.2, hsession⟩
    fun s₁ data r s₂ ⟨hs₁, hm, hsession⟩ hi hd h => ?_
  rw [checkEditable] at h
  split_ifs at h with hbusy
  · obtain ⟨⟩ := h
    exact ⟨hi, .refl t _, hs₁, hm⟩
  · obtain ⟨⟩ := h
    push Not at hbusy
    exact ⟨hi, .refl t _, hs₁, hm, hsession, data, hd, hi.slots.hostId_eq hsession hd,
      ConnectionState.quiescent_iff.2 hbusy⟩

/-- The host is stored, while its slot has no connection. -/
theorem safeOr_repositorySave (stored : StoredHost)
    (hA : (protocol calls).Stable t A) (hs : A s ∧ Resting t stored.host.id slot s) :
    (protocol calls).SafeOr t (fun _ s => A s ∧ Resting t stored.host.id slot s)
      (fun _ s => A s ∧ s.mutation = some t) (repositorySave t previous stored) s := by
  refine safeOr_bind.2 (safeOr_ask fun reply => ?_)
  cases reply with
  | ok _ =>
    have hB : (protocol calls).Stable t fun s => A s ∧ Resting t stored.host.id slot s :=
      hA.and stable_resting
    refine safeOr_act hB hs fun s₁ r s₂ hs₁ hi h => ?_
    obtain ⟨⟩ := h
    obtain ⟨data, hd, _, hq⟩ := hs₁.2.quiescent
    obtain ⟨hi', hg⟩ := step_repository (Function.update s₁.repository stored.host.id (some stored)) hi
      (.inl (rfl : _ = AppEvent.edited t stored.host.id)) fun slot' data' hd' hid' =>
        (ConnectionState.quiescent_iff.1
          (hi.slots.quiescent_of hs₁.2.session hd hq hd' hid')).1
    exact ⟨hi', hg t, hB _ _ (interferes_of hi hi' hg) hs₁⟩
  | error e =>
    have hfail : A s ∧ s.mutation = some t := ⟨hs.1, hs.2.mutation⟩
    dsimp only
    split_ifs
    · exact SafeOr.bind (R := fun _ s => A s ∧ s.mutation = some t)
        (safeOr_await (fun _ => hfail) fun _ => hfail) fun _ _ h => h
    · exact hfail

/-- The slot of an edited host is set to disconnected. -/
theorem safeOr_resetSlot (hA : (protocol calls).Stable t A) (hs : A s ∧ Resting t host slot s) :
    (protocol calls).SafeOr t (fun _ s => A s ∧ s.mutation = some t)
      (fun _ s => A s ∧ s.mutation = some t) (slotSection slot (resetSlot host slot)) s := by
  refine safeOr_slotSection (hA.and stable_resting) hs fun s₁ data r s₂ ⟨hs₁, hrest⟩ hi hd h => ?_
  obtain ⟨data₁, hbump, h⟩ := Option.map_eq_some_iff.1 h
  obtain rfl := SessionData.bump_eq_some hbump
  obtain ⟨⟩ := h
  obtain ⟨data', hd', hid, hq⟩ := hrest.quiescent
  obtain rfl := Option.mem_unique hd hd'
  have hok := hi.slots.ok slot data hd
  obtain ⟨_, hconnected, hdisconnecting⟩ := ConnectionState.quiescent_iff.1 hq
  have hstep : Inv calls _ ∧ ∀ j, Guarantee j s₁ ((s₁.cancelToken data.cancel).setSlot slot
      { data with
        generation := data.generation + 1
        view := .disconnected host
        connectionId := none }) :=
    step_quiescent hi hd hid.symm (Nat.le_succ _) hq (.inl rfl)
      ⟨nofun, fun _ _ => ⟨(hok.vacant hconnected hdisconnecting).1, rfl, rfl⟩,
        fun h => absurd (hok.refreshing h) hconnected⟩
  exact ⟨hstep.1, hstep.2 t, hA _ _ (interferes_of hi hstep.1 hstep.2) hs₁, hrest.mutation⟩

/-- Storing a host keeps what the call knows. -/
theorem safeOr_saveHostLocked (hA : (protocol calls).Stable t A) (hs : A s ∧ s.mutation = some t) :
    (protocol calls).SafeOr t (fun _ s => A s ∧ s.mutation = some t)
      (fun _ s => A s ∧ s.mutation = some t) (saveHostLocked t input credential) s := by
  have hM : (protocol calls).Stable t fun s => A s ∧ s.mutation = some t := hA.and stable_mutation
  refine SafeOr.bind (neutral_getPrevious.safeOr hM hs) fun previous s₁ hs₁ => ?_
  refine SafeOr.bind (neutral_intoHost.safeOr hM hs₁) fun host s₂ hs₂ => ?_
  refine SafeOr.bind (safeOr_slotOf hM hs₂) fun slot s₃ ⟨hs₃, hsession, _⟩ => ?_
  refine SafeOr.bind (safeOr_checkEditable hA hs₃ hsession) fun _ s₄ hs₄ => ?_
  have hR : (protocol calls).Stable t fun s => A s ∧ Resting t host.id slot s :=
    hA.and stable_resting
  have hfail : ∀ (_ : AppError) s, A s ∧ Resting t host.id slot s → A s ∧ s.mutation = some t :=
    fun _ _ h => ⟨h.1, h.2.mutation⟩
  refine SafeOr.bind ((neutral_ensure.safeOr hR hs₄).mono (fun _ _ h => h) hfail) fun _ s₅ hs₅ => ?_
  refine SafeOr.bind ((neutral_storeCredential.safeOr hR hs₅).mono (fun _ _ h => h) hfail)
    fun credentialId s₆ hs₆ => ?_
  refine SafeOr.bind (safeOr_repositorySave ⟨host, credentialId⟩ hA hs₆)
    fun _ s₇ hs₇ => ?_
  refine SafeOr.bind ((neutral_revokeHost.safeOr hR hs₇).mono (fun _ _ h => h) hfail)
    fun _ s₈ hs₈ => ?_
  refine SafeOr.bind ((neutral_removeRotationPlan.safeOr hR hs₈).mono (fun _ _ h => h) hfail)
    fun _ s₉ hs₉ => ?_
  refine SafeOr.bind (safeOr_resetSlot hA hs₉) fun _ s₁₀ hs₁₀ => ?_
  refine SafeOr.bind (neutral_removeReplaced.safeOr hM hs₁₀) fun _ s₁₁ hs₁₁ => ?_
  exact SafeOr.bind (R := fun _ s => A s ∧ s.mutation = some t)
    (safeOr_await (fun _ => hs₁₁) fun _ => hs₁₁) fun _ _ h => h

theorem safeOr_saveHost : (protocol calls).Conforms t (saveHost t input credential) s := by
  rw [saveHost]
  cases input.id with
  | none =>
    exact safeOr_withMutation lasting_true trivial (fun _ => lasting_true) lasting_true
      fun s₁ hs₁ => safeOr_saveHostLocked stable_true hs₁
  | some id =>
    refine safeOr_withLifecycleGuard unguarded_true trivial (fun _ => unguarded_true)
      fun s₁ _ hs₁ => ?_
    exact (safeOr_withMutation lasting_good hs₁ (fun _ => lasting_good) lasting_good
      fun s₂ hs₂ => safeOr_saveHostLocked stable_good hs₂).mono (fun _ _ h => ⟨trivial, h⟩)
        fun _ _ h => h

/-! ## `delete_host` -/

/-- A host without a connection is deleted. -/
theorem safeOr_removeHost (hs : (Clear t host s ∧ Quiet t host slot s) ∧ s.mutation = some t) :
    (protocol calls).SafeOr t (fun _ s => Clear t host s ∧ s.mutation = some t)
      (fun _ s => Clear t host s ∧ s.mutation = some t) (removeHost t host) s := by
  have hA : (protocol calls).Stable t fun s =>
      (Clear t host s ∧ Quiet t host slot s) ∧ s.mutation = some t :=
    (stable_clear.and stable_quiet).and stable_mutation
  have hweak : ∀ s, (Clear t host s ∧ Quiet t host slot s) ∧ s.mutation = some t →
      Clear t host s ∧ s.mutation = some t := fun _ h => ⟨h.1.1, h.2⟩
  refine safeOr_bind.2 (safeOr_await (fun _ => ?_) fun _ => hweak s hs)
  refine safeOr_bind.2 (safeOr_act hA hs fun s₂ r s₃ hs₂ hi h => ?_)
  obtain ⟨⟩ := h
  obtain ⟨data, hd, _, hq⟩ := hs₂.1.2.quiescent
  obtain ⟨hi', hg⟩ := step_repository (Function.update s₂.repository host none) hi
    (.inr (rfl : _ = AppEvent.deleted t host)) fun slot' data' hd' hid' =>
      (ConnectionState.quiescent_iff.1
        (hi.slots.quiescent_of hs₂.1.2.session hd hq hd' hid')).1
  refine ⟨hi', hg t, ?_⟩
  have hs₃ := hA _ _ (interferes_of hi hi' hg) hs₂
  refine SafeOr.bind ((neutral_removeRotationPlan.safeOr hA hs₃).mono (fun _ _ h => h) fun _ => hweak)
    fun _ s₄ hs₄ => ?_
  have hgates : (protocol calls).Neutral t (Fallible.act fun s : Application =>
      some ((.ok () : Except AppError Unit), { s with
        serviceAdmission.gates := Function.update s.serviceAdmission.gates host none })).run := by
    refine neutral_agree fun s b s' h => ?_
    obtain ⟨⟩ := h
    exact ⟨rfl, rfl, rfl, rfl, rfl, rfl, rfl, rfl, rfl, rfl⟩
  refine SafeOr.bind ((hgates.safeOr hA hs₄).mono (fun _ _ h => h) fun _ => hweak) fun _ s₅ hs₅ => ?_
  refine safeOr_act hA hs₅ fun s₆ r s₇ ⟨⟨hclear, hquiet⟩, hm⟩ hi h => ?_
  obtain ⟨⟩ := h
  obtain ⟨data, hd, _, hq⟩ := hquiet.quiescent
  obtain ⟨hi', hg⟩ := step_removeSession hi hclear.gate hm fun slot' data' hd' hid' =>
    hi.slots.quiescent_of hquiet.session hd hq hd' hid'
  exact ⟨hi', hg, ⟨hclear.gate, hclear.pending, hclear.observations⟩, hm⟩

theorem lasting_quiet : Lasting calls t (Quiet t host slot) :=
  ⟨stable_quiet, fun _ _ h => ⟨⟨h.gate, h.session⟩, h.quiescent⟩⟩

theorem safeOr_deleteHost : (protocol calls).Conforms t (deleteHost t host) s := by
  refine safeOr_withLifecycleGuard unguarded_true trivial (fun _ => unguarded_true)
    fun s₁ _ hs₁ => ?_
  refine SafeOr.bind (safeOr_withMutation lasting_good hs₁
    (fun work : StoredHost × DisconnectWork => lasting_disconnecting host work.2) lasting_good
    fun s₂ hs₂ => ?_) fun work s₄ hs₄ => ?_
  · refine SafeOr.bind (neutral_repositoryGet.safeOr (stable_good.and stable_mutation) hs₂)
      fun stored s₃ hs₃ => ?_
    exact SafeOr.bind (safeOr_prepareDisconnect hs₃) fun work s₄ hs₄ => hs₄
  refine SafeOr.bind ((safeOr_finishDisconnect hs₄).mono (fun _ _ h => h) fun _ _ h => h.toGood)
    fun _ s₅ hs₅ => ?_
  refine SafeOr.bind ((safeOr_withMutation (lasting_clear.and lasting_quiet) hs₅
    (fun _ => lasting_clear) lasting_clear fun s₆ hs₆ => safeOr_removeHost hs₆).mono (fun _ _ h => h)
      fun _ _ h => h.toGood) fun _ s₇ hs₇ => ?_
  refine SafeOr.bind (R := fun _ => Good t host)
    (safeOr_await (fun _ => hs₇.toGood) fun _ => hs₇.toGood) fun _ s₈ hs₈ => ?_
  exact safeOr_await (fun _ => ⟨trivial, hs₈⟩) fun _ => hs₈

/-! ## `trust_host_key` -/

/-- What is done under both locks and keeps whatever the call knows. -/
theorem safeOr_locked {α : Type} {body : App α} (h : (protocol calls).Neutral t body.run) :
    (protocol calls).Conforms t (withLifecycleGuard t host (withMutation t body)) s := by
  refine safeOr_withLifecycleGuard unguarded_true trivial (fun _ => unguarded_true)
    fun s₁ _ hs₁ => ?_
  exact (safeOr_withMutation lasting_good hs₁ (fun _ => lasting_good) lasting_good fun s₂ hs₂ =>
    h.safeOr (stable_good.and stable_mutation) hs₂).mono (fun _ _ h => ⟨trivial, h⟩) fun _ _ h => h

variable {challenge : HostKeyChallenge}

theorem neutral_trustKey {trusted audit : Except AppError Unit} : (protocol calls).Neutral t
      (slotSection slot (trustKey t host slot challenge trusted audit)).run := by
  refine neutral_slotSection fun s data r s' hi hd h => ?_
  unfold trustKey at h
  split_ifs at h with hstale
  · obtain ⟨⟩ := h
    exact ⟨hi, fun j => .refl j _⟩
  push Not at hstale
  have hstate := hstale.1
  cases trusted with
  | error e =>
    obtain ⟨⟩ := h
    exact ⟨hi, fun j => .refl j _⟩
  | ok _ =>
    have hok := hi.slots.ok slot data hd
    simp only [hstate,
      show ConnectionState.awaitingTrust.transition .disconnected = .ok .disconnected from rfl] at h
    obtain ⟨⟩ := h
    refine step_quiescent hi hd rfl le_rfl (hstate ▸ .inr (.inl rfl)) (.inl rfl) ⟨nofun, ?_, ?_⟩
    · exact fun _ _ => hok.vacant (by rw [hstate]; decide) (by rw [hstate]; decide)
    · intro h
      have := hok.refreshing h
      rw [hstate] at this
      cases this

theorem safeOr_trustHostKey : (protocol calls).Conforms t (trustHostKey t host challenge) s :=
  safeOr_locked (neutral_repositoryGet.andThen fun _ => neutral_slotOf.andThen fun _ =>
    (neutral_lift neutral_ask).andThen fun _ => (neutral_lift neutral_ask).andThen fun _ =>
      neutral_trustKey)

/-! ## Key rotation -/

theorem neutral_storedHost : (protocol calls).Neutral t (storedHost host).run := by
  refine (neutral_lift neutral_ask).andThen fun fails => (neutral_agree fun s b s' h => ?_).andThen
    fun stored => (neutral_lift neutral_ask).andThen fun valid => neutral_ensure.andThen fun _ =>
      neutral_pure
  split_ifs at h
  · obtain ⟨⟩ := h
    exact .refl s
  · split at h
    all_goals
      obtain ⟨⟩ := h
      exact .refl s

theorem safeOr_planHostKeyRotation :
    (protocol calls).Conforms t (planHostKeyRotation t host) s := by
  refine safeOr_locked (neutral_removeRotationPlan.andThen fun _ => neutral_storedHost.andThen
    fun stored => neutral_slotOf.andThen fun slot => (neutral_lift neutral_ask).andThen fun planId =>
      (neutral_lift neutral_ask).andThen fun known => (neutral_lift neutral_ask).andThen fun unixMs =>
        neutral_slotSection fun s data r s' hi hd h => ?_)
  rw [planRotation] at h
  cases hplan : rotationPlan stored planId known unixMs data with
  | error e =>
    rw [hplan] at h
    obtain ⟨⟩ := h
    exact ⟨hi, fun j => .refl j _⟩
  | ok plan =>
    rw [hplan] at h
    obtain ⟨⟩ := h
    have hagree : ∀ plans, Agree s { s with rotationPlans := plans } := fun _ =>
      ⟨rfl, rfl, rfl, rfl, rfl, rfl, rfl, rfl, rfl, rfl⟩
    exact ⟨(hagree _).inv hi, (hagree _).harmless.guarantee⟩

theorem neutral_takeRotation {id : HostKeyRotationPlanId} :
    (protocol calls).Neutral t (takeRotation host id).run := by
  refine neutral_agree fun s b s' h => ?_
  cases hplan : s.rotationPlans host with
  | none =>
    simp only [hplan] at h
    obtain ⟨⟩ := h
    exact .refl s
  | some authority =>
    simp only [hplan] at h
    split_ifs at h
    · obtain ⟨⟩ := h
      exact .refl s
    · obtain ⟨⟩ := h
      exact ⟨rfl, rfl, rfl, rfl, rfl, rfl, rfl, rfl, rfl, rfl⟩

variable {stored : Host}

/-- A changed key is only presented in an attempt that has failed. -/
theorem state_of_changedChallenge {name : Except AppError String}
    (h : changedChallenge stored name data = .ok challenge) :
    data.view.state = .failed := by
  rw [changedChallenge] at h
  split_ifs at h with hne
  push Not at hne
  exact hne.2.1

variable {authority : RotationAuthority}

theorem state_of_checkRotation {known : KnownKey}
    (h : checkRotation stored authority known data = .ok ()) : data.view.state = .failed := by
  rw [checkRotation] at h
  split_ifs at h
  cases hchallenge : changedChallenge stored known.canonicalHostname data with
  | error e =>
    rw [hchallenge] at h
    cases h
  | ok challenge => exact state_of_changedChallenge hchallenge

/-- The slot of a host whose key has been changed is set to disconnected. -/
theorem safeOr_rotateKey {known : KnownKey}
    (hA : (protocol calls).Stable t A) (hs : A s ∧ IsSlotOf slot host s) :
    (protocol calls).SafeOr t (fun _ => A) (fun _ => A)
      (slotSection slot (rotateKey host slot stored authority known)) s := by
  refine safeOr_slotSection (hA.and stable_isSlotOf) hs fun s₁ data r s₂ ⟨hs₁, hslot⟩ hi hd h => ?_
  rw [rotateKey] at h
  cases hcheck : checkRotation stored authority known data with
  | error e =>
    rw [hcheck] at h
    obtain ⟨⟩ := h
    exact ⟨hi, .refl t _, hs₁⟩
  | ok _ =>
    rw [hcheck] at h
    obtain ⟨data₁, hbump, h⟩ := Option.map_eq_some_iff.1 h
    obtain rfl := SessionData.bump_eq_some hbump
    obtain ⟨⟩ := h
    have hq : data.view.state.Quiescent := .inr (.inr (state_of_checkRotation hcheck))
    have hstep : Inv calls _ ∧ ∀ j, Guarantee j s₁ ((s₁.cancelToken data.cancel).setSlot slot
        { data with
          generation := data.generation + 1
          refreshing := false
          transport := none
          connectionId := none
          view := .disconnected host }) :=
      step_quiescent hi hd (hslot.hostId_eq hd).symm (Nat.le_succ _) hq (.inl rfl)
        ⟨nofun, fun _ _ => ⟨rfl, rfl, rfl⟩, nofun⟩
    exact ⟨hstep.1, hstep.2 t, hA _ _ (interferes_of hi hstep.1 hstep.2) hs₁⟩

theorem neutral_rotateWith : (protocol calls).Neutral t (rotateWith host authority).run := by
  refine (neutral_lift neutral_read).andThen fun now => neutral_ensure.andThen fun _ =>
    neutral_storedHost.andThen fun stored => (neutral_lift neutral_ask).andThen fun known =>
      neutral_ensure.andThen fun _ => ?_
  intro A hA s hs
  refine Safe.mono (SafeOr.bind (safeOr_slotOf hA hs) fun slot s₁ ⟨hs₁, _, hslot⟩ =>
    safeOr_rotateKey hA ⟨hs₁, hslot⟩) fun r s h => ?_
  cases r <;> exact h

theorem safeOr_executeHostKeyRotation {id : HostKeyRotationPlanId} :
    (protocol calls).Conforms t (executeHostKeyRotation t host id) s :=
  safeOr_locked (neutral_takeRotation.andThen fun _ =>
    (neutral_lift neutral_rotateWith).andThen fun _ => neutral_ask.andThen fun _ => neutral_pure)

end NexusOps.Core.Application
