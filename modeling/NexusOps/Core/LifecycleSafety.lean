import NexusOps.Core.Sections

/-!
# Connecting and disconnecting are safe

The sections of `connect_host`, `get_session`, `disconnect_host` and `refresh_host`
keep to the protocol, and so do the calls:

* a slot is only set to connecting after its host has been revoked, under the
  lifecycle guard and the metadata lock;
* the outcome of an attempt is only published if the attempt still goes on
  (`Trying`);
* a connection is only ended by a call that guards its host, and that revokes what
  depends on it before the guard is dropped.
-/

namespace NexusOps.Core.Application

open Concurrency RemoteOperations Protocol Function

variable {calls : TaskId → Call} {t : TaskId} {host : HostId} {slot : SlotId} {s s' : Application}
  {data : SessionData}

/-! ## Slots -/

theorem SlotsOk.hostId_eq (h : s.SlotsOk) (hsession : s.sessions host = some slot)
    (hd : s.slots slot = some data) : data.view.hostId = host := by
  obtain ⟨data', hd', hid⟩ := h.hosted host slot hsession
  rwa [Option.mem_unique hd hd']

theorem IsSlotOf.hostId_eq (h : IsSlotOf slot host s) (hd : s.slots slot = some data) :
    data.view.hostId = host := by
  obtain ⟨data', hd', hid⟩ := h
  rwa [Option.mem_unique hd hd']

variable {data' : SessionData}

/-- A change of a slot by a call that guards its host and holds the metadata lock, or
    that does not start a connection. -/
theorem SlotStep.of_guarded (hhost : data'.view.hostId = data.view.hostId)
    (hgeneration : data.generation ≤ data'.generation)
    (hgate : s.remoteOperations.hostGates data.view.hostId = some (.lifecycle t))
    (hquiescent : s.mutation = some t ∨ (data.view.state.Quiescent → data'.view.state.Quiescent))
    (hattempt : data.view.state = .connecting → data.generation < data'.generation) :
    SlotStep t s s' slot data data' where
  host := hhost
  generation := hgeneration
  unguarded hne := absurd hgate hne
  quiescent hne := hquiescent.resolve_left hne
  attempt _ _ _ hc hgen := absurd hgen (hattempt hc).ne'

/-- A change of a slot that does not affect its connection. -/
theorem step_view (hi : Inv calls s) (hd : s.slots slot = some data)
    (hhost : data'.view.hostId = data.view.hostId) (hgeneration : data'.generation = data.generation)
    (hstate : data'.view.state = data.view.state)
    (hconnection : data'.connectionId = data.connectionId)
    (htransport : data'.transport = data.transport)
    (hsession : data'.view.hostSessionId = data.view.hostSessionId)
    (hrefreshing : data'.refreshing = true → data'.view.state = .connected) :
    Inv calls (s.setSlot slot data') ∧ ∀ j, Guarantee j s (s.setSlot slot data') := by
  have hok : data'.Ok := by
    refine ⟨?_, ?_, hrefreshing⟩ <;> rw [hstate, hconnection, htransport, hsession]
    · exact (hi.slots.ok slot data hd).connected
    · exact (hi.slots.ok slot data hd).vacant
  have hstep : ∀ j, SlotStep j s (s.setSlot slot data') slot data data' := fun j =>
    ⟨hhost, hgeneration.ge, fun _ => ⟨fun hc => ⟨hstate.trans hc, hconnection, htransport, hgeneration⟩,
      fun hd => hstate.trans hd, fun hq => hstate ▸ hq⟩, fun _ hq => hstate ▸ hq,
      fun _ _ ha hc _ => ⟨ha, hstate.trans hc, fun hu => hu⟩⟩
  have h : ∀ j, Inv calls _ ∧ Guarantee j s (s.setSlot slot data') := fun j =>
    step_slot hi hd ⟨rfl, (List.append_nil _).symm, rfl, rfl, rfl, rfl, fun _ _ => rfl⟩
      ⟨hok, hstep j, fun h => hi.slots.attached slot data hd (hstate ▸ h),
        fun session transport hc hs ht => hi.slots.established slot data session transport hd
          (hstate ▸ hc) (hconnection ▸ hs) (htransport ▸ ht),
        Nat.zero_le _, List.forall_mem_nil _, List.forall_mem_nil _⟩ hi.log
  exact ⟨(h ⟨0⟩).1, fun j => (h j).2⟩

/-- A change of a slot without a connection to one of the same kind. -/
theorem step_quiescent {cancelled : CancellationToken → Bool}
    {rotationPlans : HostId → Option RotationAuthority} (hi : Inv calls s)
    (hd : s.slots slot = some data) (hhost : data'.view.hostId = data.view.hostId)
    (hgeneration : data.generation ≤ data'.generation) (hq : data.view.state.Quiescent)
    (hq' : data'.view.state.Quiescent) (hok : data'.Ok) :
    let s' := ({ s with cancelled := cancelled, rotationPlans := rotationPlans } :
      Application).setSlot slot data'
    Inv calls s' ∧ ∀ j, Guarantee j s s' := by
  obtain ⟨hconnecting, hconnected, hdisconnecting⟩ := ConnectionState.quiescent_iff.1 hq
  intro s'
  have hstep : ∀ j, SlotStep j s s' slot data data' := fun j =>
    ⟨hhost, hgeneration, fun _ => ⟨fun h => absurd h hconnected, fun h => absurd h hdisconnecting,
      fun _ => hq'⟩, fun _ _ => hq', fun _ _ _ h => absurd h hconnecting⟩
  have h : ∀ j, Inv calls s' ∧ Guarantee j s s' := fun j =>
    step_slot hi hd ⟨rfl, (List.append_nil _).symm, rfl, rfl, rfl, rfl, fun _ _ => rfl⟩
      ⟨hok, hstep j, fun h => absurd hq' h,
        fun _ _ hc => absurd hc (ConnectionState.quiescent_iff.1 hq').2.1,
        Nat.zero_le _, List.forall_mem_nil _, List.forall_mem_nil _⟩ hi.log
  exact ⟨(h ⟨0⟩).1, fun j => (h j).2⟩

/-! ## `connect_host` -/

/-- A revoked host is set to connecting. -/
theorem step_beginConnect {cancel : CancellationToken} {r : Except AppError Attempt}
    (hi : Inv calls s) (hclear : Clear t host s) (hm : s.mutation = some t)
    (hsession : s.sessions host = some slot) (hd : s.slots slot = some data)
    (h : beginConnect t host slot cancel data s = some (r, s')) :
    Inv calls s' ∧ Guarantee t s s' ∧ (Clear t host s' ∧ s'.mutation = some t) ∧
      ∀ attempt, r = .ok attempt → Trying t host attempt s' := by
  have hid := hi.slots.hostId_eq hsession hd
  rw [beginConnect] at h
  by_cases hbusy : data.view.state = .connecting ∨ data.view.state = .connected ∨
      data.view.state = .disconnecting
  · rw [if_pos hbusy] at h
    obtain ⟨⟩ := h
    exact ⟨hi, .refl t _, ⟨hclear, hm⟩, nofun⟩
  rw [if_neg hbusy] at h
  push Not at hbusy
  have hq : data.view.state.Quiescent := ConnectionState.quiescent_iff.2 hbusy
  simp only [hq.transition] at h
  split_ifs at h
  obtain ⟨data₁, hbump, h⟩ := Option.map_eq_some_iff.1 h
  obtain ⟨⟩ := h
  obtain rfl := SessionData.bump_eq_some hbump
  refine and_assoc.1 ⟨step_slot hi hd
    ⟨rfl, rfl, rfl, rfl, rfl, rfl, fun slot' hne => update_of_ne hne ..⟩
    ⟨⟨nofun, fun _ _ => ⟨rfl, rfl, rfl⟩, nofun⟩,
      .of_guarded hid.symm (Nat.le_succ _) (hid.symm ▸ hclear.gate) (.inl hm)
        fun hc => absurd hc hbusy.1,
      fun _ => hid.symm ▸ hsession, nofun, le_rfl, List.forall_mem_singleton.2 trivial,
      List.forall_mem_singleton.2 fun host' h => h ▸ hsession⟩
    (hi.log.snoc trivial nofun nofun nofun), ⟨⟨hclear.gate, hclear.pending, hclear.observations⟩, hm⟩,
    fun attempt ha => ?_⟩
  obtain ⟨⟩ := ha
  exact ⟨_, update_self .., rfl, le_rfl, fun _ => ⟨update_self .., rfl, s.log, [],
    rfl, List.forall_mem_nil _⟩⟩

/-- Up to the use of the network, `connect_host` has started an attempt. -/
theorem safeOr_prepareConnect (hs : Good t host s) :
    (protocol calls).SafeOr t (fun attempt s => Trying t host attempt s ∧ Good t host s)
      (fun _ => Good t host) (prepareConnect t host) s := by
  refine SafeOr.bind ((safeOr_revokeHost stable_true ⟨trivial, hs⟩).mono (fun _ _ h => h)
    fun _ _ h => h.2) fun _ s₁ ⟨_, hs₁⟩ => ?_
  refine (safeOr_withMutation lasting_clear hs₁ (fun attempt => lasting_trying.and lasting_clear)
    lasting_clear fun s₂ hs₂ => ?_).mono (fun _ _ h => ⟨h.1, h.2.toGood⟩) fun _ _ h => h.toGood
  have hA : (protocol calls).Stable t fun s => Clear t host s ∧ s.mutation = some t :=
    stable_clear.and stable_mutation
  refine (neutral_repositoryGet.safeOr hA hs₂).bind fun _ s₃ hs₃ => ?_
  refine (neutral_removeRotationPlan.safeOr hA hs₃).bind fun _ s₄ hs₄ => ?_
  refine (safeOr_slotOf hA hs₄).bind fun slot s₅ ⟨⟨hclear, hm⟩, hsession, _⟩ => ?_
  refine safeOr_bind.2 (safeOr_ask fun cancel => ?_)
  refine safeOr_slotSection (stable_owns.and hA) ⟨⟨hclear.gate, hsession⟩, hclear, hm⟩
    fun s₆ data r s₇ ⟨howns, hclear, hm⟩ hi hd h => ?_
  obtain ⟨hi', hg, hkept, htry⟩ := step_beginConnect hi hclear hm howns.session hd h
  refine ⟨hi', hg, ?_⟩
  cases r with
  | ok attempt => exact ⟨⟨htry attempt rfl, hkept.1⟩, hkept.2⟩
  | error e => exact hkept

theorem neutral_establish : (protocol calls).Neutral t establish.run :=
  neutral_ask.andThen fun _ => neutral_ask.andThen fun _ => neutral_ask.andThen fun _ =>
    (neutral_lift neutral_read).andThen fun _ => neutral_ensure.andThen fun _ =>
      neutral_ask.andThen fun _ => neutral_pure

/-- The states that an attempt can end in. -/
theorem transition_connecting {next : ConnectionState}
    (h : next = .connected ∨ next = .awaitingTrust ∨ next = .failed ∨ next = .disconnecting) :
    ConnectionState.connecting.transition next = .ok next := by
  rcases h with rfl | rfl | rfl | rfl <;> rfl

/-- A change of a slot that the call has set to connecting. -/
theorem SlotStep.of_attempt (hhost : data'.view.hostId = data.view.hostId)
    (hgeneration : data'.generation = data.generation) (hstate : data.view.state = .connecting)
    (hattempt : s.attempts slot = some t) : SlotStep t s s' slot data data' where
  host := hhost
  generation := hgeneration.ge
  unguarded _ := by
    refine ⟨fun h => ?_, fun h => ?_, fun h => ?_⟩ <;> rw [hstate] at h
    · cases h
    · cases h
    · exact absurd h (by decide)
  quiescent _ h := absurd (hstate ▸ h) (by decide)
  attempt t' ht' ha := absurd (Option.mem_unique ha hattempt) ht'

variable {session : HostSessionId}

/-- The outcome of an attempt that still goes on is published. -/
theorem step_finishConnect {attempt : Attempt} {outcome : Except AppError TransportId}
    {audit r : Except AppError Unit} (hi : Inv calls s)
    (htry : Trying t host attempt s) (hd : s.slots attempt.slot = some data)
    (h : finishConnect t host attempt outcome session audit data s = some (r, s')) :
    Inv calls s' ∧ Guarantee t s s' := by
  unfold finishConnect at h
  by_cases hstale : data.generation ≠ attempt.generation ∨ s.cancelled attempt.cancel = true
  · rw [if_pos hstale] at h
    obtain ⟨⟩ := h
    exact ⟨hi, .refl t _⟩
  rw [if_neg hstale] at h
  push Not at hstale
  obtain ⟨data', hd', _, _, hgo⟩ := htry
  obtain rfl := Option.mem_unique hd hd'
  obtain ⟨hattempt, hstate, hun⟩ := hgo hstale.1
  have hok := hi.slots.ok _ _ hd
  have hnot : ¬data.view.state.Quiescent := hstate ▸ by decide
  have hattached := hi.slots.attached _ _ hd hnot
  have hvacant := hok.vacant (by rw [hstate]; decide) (by rw [hstate]; decide)
  have hrefreshing : data.refreshing ≠ true := fun h => by
    have := hok.refreshing h
    rw [hstate] at this
    cases this
  cases outcome with
  | ok transport =>
    simp only [hstate, transition_connecting (.inl rfl)] at h
    split_ifs at h with hused
    obtain ⟨⟩ := h
    refine step_slot hi hd ⟨rfl, rfl, rfl, rfl, rfl, rfl, fun _ _ => rfl⟩
      ⟨⟨fun _ => ⟨nofun, session, rfl, rfl⟩, fun h => absurd rfl h, fun h => absurd h hrefreshing⟩,
        .of_attempt rfl rfl hstate hattempt, fun _ => hattached, fun session' transport' _ hs ht => ?_,
        le_rfl, List.forall_mem_singleton.2 trivial, List.forall_mem_singleton.2 nofun⟩
      (hi.log.connected hun hused)
    obtain ⟨⟩ := hs
    obtain ⟨⟩ := ht
    exact ⟨t, host, List.mem_append_cons_self⟩
  | error e =>
    dsimp only at h
    generalize hif : (if e.code = .unknownHostKey then ConnectionState.awaitingTrust
      else .failed) = next at h
    have hnext : next = .awaitingTrust ∨ next = .failed := by
      rw [← hif]
      split_ifs
      · exact .inl rfl
      · exact .inr rfl
    have hq : next.Quiescent := .inr hnext
    simp only [hstate, transition_connecting (.inr (hnext.imp_right .inl))] at h
    obtain ⟨⟩ := h
    exact step_slot hi hd ⟨rfl, rfl, rfl, rfl, rfl, rfl, fun _ _ => rfl⟩
      ⟨⟨fun h => absurd h (ConnectionState.quiescent_iff.1 hq).2.1,
        fun _ _ => ⟨rfl, hvacant.2⟩, fun h => absurd h hrefreshing⟩,
        .of_attempt rfl rfl hstate hattempt, fun h => absurd hq h, fun _ _ _ _ => (nomatch ·),
        le_rfl, List.forall_mem_singleton.2 trivial, List.forall_mem_singleton.2 nofun⟩
      (hi.log.snoc hun nofun nofun nofun)

theorem safeOr_connectHost : (protocol calls).Conforms t (connectHost t host) s := by
  refine SafeOr.bind (safeOr_withLifecycleGuard unguarded_true trivial (fun _ => unguarded_trying)
    fun s₁ _ hs₁ => safeOr_prepareConnect hs₁) fun attempt s₂ hs₂ => ?_
  refine SafeOr.bind (((neutral_lift neutral_establish).safeOr stable_trying hs₂).mono
    (fun _ _ h => h) fun _ _ _ => trivial) fun outcome s₃ hs₃ => ?_
  refine safeOr_bind.2 (safeOr_ask fun session => safeOr_bind.2 (safeOr_ask fun audit => ?_))
  refine safeOr_slotSection stable_trying hs₃ fun s₄ data r s₅ hs₄ hi hd h => ?_
  obtain ⟨hi', hg⟩ := step_finishConnect hi hs₄ hd h
  refine ⟨hi', hg, ?_⟩
  cases r <;> exact trivial

/-! ## `get_session` -/

/-- The call guards a host whose connection it has ended: what is left of it belongs to
    the session. -/
structure Closed (t : TaskId) (host : HostId) (session : HostSessionId) (s : Application) : Prop where
  gate : s.remoteOperations.hostGates host = some (.lifecycle t)
  pending : ∀ id a, s.remoteOperations.authorities.state.pending.get id = some a →
    a.binding.hostId = host → a.binding.hostSessionId = session
  observations : ∀ set, s.serviceObservations.sets.get host = some set →
    set.binding.hostSessionId = session

theorem stable_closed : (protocol calls).Stable t (Closed t host session) := by
  refine stable_of fun j s s' hj _ hg hs => ?_
  have hne := ne_lifecycle hj hs.gate
  exact ⟨(hg.gates host (.lifecycle t) (Ne.symm hj)).2 hs.gate,
    fun id a ha hid => hs.pending id a (hg.pending id a ha (hid.symm ▸ hne)) hid,
    fun set hset => hs.observations set (hg.observations host set hset hne)⟩

/-- What belongs to the connection of a slot belongs to its session. -/
theorem BoundTo.hostSessionId_eq {binding : AuthorityBinding}
    (h : s.BoundTo host binding) (hsession : s.sessions host = some slot)
    (hd : s.slots slot = some data) (hconnection : data.connectionId = some session) :
    binding.hostSessionId = session := by
  obtain ⟨slot', data', hsession', hd', _, _, hconnection', _⟩ := h
  obtain rfl := Option.mem_unique hsession hsession'
  obtain rfl := Option.mem_unique hd hd'
  exact Option.mem_unique hconnection' hconnection

/-- A connection that has been closed is ended. -/
theorem step_closeRemotely {r : Except AppError (HostSession × Option HostSessionId)}
    (hi : Inv calls s) (hgood : Good t host s) (hslot : IsSlotOf slot host s)
    (hd : s.slots slot = some data) (h : closeRemotely t slot data s = some (r, s')) :
    Inv calls s' ∧ Guarantee t s s' ∧ ∃ view closed, r = .ok (view, closed) ∧
      match closed with
      | none => Good t host s'
      | some session => Closed t host session s' := by
  have hid := hslot.hostId_eq hd
  rw [closeRemotely] at h
  by_cases hclose : NeedsRemoteClose data s
  · rw [if_pos hclose] at h
    obtain ⟨data₁, hbump, h⟩ := Option.map_eq_some_iff.1 h
    obtain rfl := SessionData.bump_eq_some hbump
    have hstate := hclose.2
    obtain ⟨_, session, hconnection, _⟩ := (hi.slots.ok slot data hd).connected hstate
    have hsession : s.sessions host = some slot :=
      hid ▸ hi.slots.attached slot data hd (by rw [hstate]; decide)
    simp only [hstate, show ConnectionState.connected.transition .failed = .ok .failed from rfl] at h
    obtain ⟨⟩ := h
    refine and_assoc.1 ⟨step_slot hi hd ⟨rfl, (List.append_nil _).symm, rfl, rfl, rfl, rfl, fun _ _ => rfl⟩
      ⟨⟨nofun, fun _ _ => ⟨rfl, rfl, rfl⟩, nofun⟩,
        .of_guarded rfl (Nat.le_succ _) (hid.symm ▸ hgood.gate) (.inr fun _ => .inr (.inr rfl))
          fun _ => Nat.lt_succ_self _,
        fun h => absurd (.inr (.inr rfl)) h, nofun, Nat.zero_le _, List.forall_mem_nil _, List.forall_mem_nil _⟩ hi.log,
      _, _, rfl, ?_⟩
    simp only [hconnection]
    exact ⟨hgood.gate, fun id a ha hhost =>
      (hgood.good.pending id a ha hhost).hostSessionId_eq hsession hd hconnection,
      fun set hset => (hgood.good.observations set hset).hostSessionId_eq hsession hd hconnection⟩
  · rw [if_neg hclose] at h
    obtain ⟨⟩ := h
    exact ⟨hi, .refl t _, _, none, rfl, hgood⟩

/-- What belongs to a connection that has been closed is revoked. -/
theorem safeOr_revokeConnection {closed : Option HostSessionId}
    (hs : match closed with
      | none => Good t host s
      | some session => Closed t host session s) :
    (protocol calls).SafeOr t (fun _ => Good t host) (fun _ => Good t host)
      (revokeConnection host closed) s := by
  cases closed with
  | none => exact hs
  | some session =>
    have hrevoked : (protocol calls).Stable t fun s => Closed t host session s ∧
        ∀ id a, s.remoteOperations.authorities.state.pending.get id = some a →
          a.binding.hostId ≠ host := by
      refine stable_of fun j s s' hj hi hg ⟨hclosed, hnone⟩ => ?_
      have hne := ne_lifecycle hj hclosed.gate
      refine ⟨?_, fun id a ha hid => hnone id a (hg.pending id a ha (hid ▸ hne)) hid⟩
      exact ⟨(hg.gates host (.lifecycle t) (Ne.symm hj)).2 hclosed.gate,
        fun id a ha hid => absurd hid (hnone id a (hg.pending id a ha (hid.symm ▸ hne))),
        fun set hset => hclosed.observations set (hg.observations host set hset hne)⟩
    refine safeOr_bind.2 (safeOr_lift.2 (safe_act (k := .ret) stable_closed hs
      fun s₁ b s₂ hs₁ hi hf => ?_))
    obtain ⟨⟩ := hf
    obtain ⟨hi', hh⟩ := step_store (e := .revokeSession host session _) hi rfl rfl
    refine ⟨hi', hh.guarantee t, SafeOr.bind (R := fun _ => Good t host) ?_ fun _ s₅ hgood =>
      safeOr_await (fun _ => hgood) fun _ => hgood⟩
    refine safeOr_act hrevoked ⟨stable_closed _ _ (interferes_of hi hi' hh.guarantee) hs₁,
      fun id a ha hid => ?_⟩ fun s₃ r s₄ ⟨hclosed, hnone⟩ hi hf => ?_
    · obtain ⟨ha, hne⟩ := (StoreState.get_revokeSession hi.valid.consistent).1 ha
      exact hne ⟨hid, hs₁.pending id a ha hid⟩
    · obtain ⟨⟩ := hf
      obtain ⟨hi', hh⟩ := step_observations hi fun _ _ h => (ObservationState.get_revokeSession h).1
      refine ⟨hi', hh.guarantee t, hclosed.gate, fun id a ha hid => absurd hid (hnone id a ha),
        fun set hset => ?_⟩
      obtain ⟨hset, hne⟩ := ObservationState.get_revokeSession hset
      exact absurd (hclosed.observations set hset) (hne rfl)

theorem safeOr_getSession : (protocol calls).Conforms t (getSession t host) s := by
  have hview : ∀ {β : Type} (slot : SlotId) (f : SessionData → Application → β),
      (protocol calls).Neutral t
        (slotSection slot fun data s => some (.ok (f data s), s)).run := by
    refine fun slot f => neutral_slotSection fun s data r s' hi _ h => ?_
    obtain ⟨⟩ := h
    exact ⟨hi, fun j => .refl j _⟩
  refine SafeOr.bind (neutral_repositoryGet.safeOr stable_true trivial) fun _ s₁ _ => ?_
  refine SafeOr.bind (safeOr_slotOf stable_true trivial) fun slot s₂ ⟨_, _, hs₂⟩ => ?_
  refine SafeOr.bind (((hview slot _).safeOr stable_isSlotOf hs₂).mono (fun _ _ h => h)
    fun _ _ _ => trivial) fun needsRemoteClose s₃ hs₃ => ?_
  split_ifs
  · refine safeOr_withLifecycleGuard unguarded_isSlotOf hs₃ (fun _ => unguarded_true)
      fun s₄ hslot hgood => ?_
    refine safeOr_bind.2 (safeOr_slotSection (stable_good.and stable_isSlotOf) ⟨hgood, hslot⟩
      fun s₅ data r s₆ ⟨hgood, hslot⟩ hi hd h => ?_)
    obtain ⟨hi', hg, view, closed, rfl, hclosed⟩ := step_closeRemotely hi hgood hslot hd h
    exact ⟨hi', hg, SafeOr.bind (safeOr_revokeConnection hclosed) fun _ s₇ hgood => ⟨trivial, hgood⟩⟩
  · exact (hview slot _).safeOr stable_true trivial

/-! ## `disconnect_host` -/

/-- The slot of a revoked host gives up what it was doing. -/
theorem step_disconnecting (data' : SessionData) (cancelled : CancellationToken → Bool)
    (hi : Inv calls s) (hclear : Clear t host s) (hm : s.mutation = some t)
    (hsession : s.sessions host = some slot) (hd : s.slots slot = some data) (hok : data'.Ok)
    (hhost : data'.view.hostId = host) (hgeneration : data.generation < data'.generation)
    (hconnecting : data'.view.state ≠ .connecting) (hconnected : data'.view.state ≠ .connected) :
    let s' := (({ s with cancelled := cancelled } : Application).setSlot slot data').note
      (.disconnecting t host)
    Inv calls s' ∧ Guarantee t s s' ∧ (Clear t host s' ∧ Idle t host slot s') ∧
      s'.mutation = some t := by
  have hid := hi.slots.hostId_eq hsession hd
  intro s'
  refine and_assoc.1 ⟨step_slot hi hd ⟨rfl, rfl, rfl, rfl, rfl, rfl, fun _ _ => rfl⟩
    ⟨hok, .of_guarded (hhost.trans hid.symm) hgeneration.le (hid.symm ▸ hclear.gate) (.inl hm)
        fun _ => hgeneration,
      fun _ => hid.symm ▸ hsession, fun _ _ h => absurd h hconnected,
      le_rfl, List.forall_mem_singleton.2 trivial,
      List.forall_mem_singleton.2 fun host' h => h ▸ hsession⟩
    (hi.log.snoc trivial nofun nofun nofun),
    ⟨⟨hclear.gate, hclear.pending, hclear.observations⟩, ⟨hclear.gate, hsession⟩, data',
      update_self .., hhost, hconnecting, hconnected⟩, hm⟩

/-- The slot of a revoked host is neither connecting nor connected any more. -/
theorem step_beginDisconnect {r : Except AppError DisconnectWork} (hi : Inv calls s)
    (hclear : Clear t host s) (hm : s.mutation = some t) (hsession : s.sessions host = some slot)
    (hd : s.slots slot = some data) (h : beginDisconnect t host slot data s = some (r, s')) :
    Inv calls s' ∧ Guarantee t s s' ∧ ∃ work, r = .ok work ∧
      (Clear t host s' ∧ Idle t host work.slot s') ∧ s'.mutation = some t := by
  have hid := hi.slots.hostId_eq hsession hd
  have hok := hi.slots.ok slot data hd
  obtain ⟨data₁, hbump, h⟩ := Option.map_eq_some_iff.1 h
  obtain rfl := SessionData.bump_eq_some hbump
  obtain ⟨cancelled, hcancelled⟩ : ∃ cancelled, (if data.view.state = .connecting then
      s.cancelToken data.cancel else s) = { s with cancelled := cancelled } := by
    split_ifs
    · exact ⟨_, rfl⟩
    · exact ⟨s.cancelled, rfl⟩
  simp only [hcancelled] at h
  by_cases hactive : data.view.state = .connecting ∨ data.view.state = .connected
  · have htransition : data.view.state.transition .disconnecting = .ok .disconnecting := by
      rcases hactive with h | h <;> rw [h] <;> rfl
    simp only [if_pos hactive, htransition] at h
    obtain ⟨⟩ := h
    obtain ⟨hi', hg, hkept⟩ := step_disconnecting
      { data with
        generation := data.generation + 1
        refreshing := false
        view := { data.view with state := .disconnecting } }
      cancelled hi hclear hm hsession hd ⟨nofun, fun _ h => absurd rfl h, nofun⟩ hid
      (Nat.lt_succ_self _) nofun nofun
    exact ⟨hi', hg, _, rfl, hkept⟩
  · simp only [if_neg hactive] at h
    push Not at hactive
    obtain ⟨⟩ := h
    obtain ⟨hi', hg, hkept⟩ := step_disconnecting
      { data with generation := data.generation + 1, refreshing := false }
      cancelled hi hclear hm hsession hd ⟨fun h => absurd h hactive.2, hok.vacant, nofun⟩ hid
      (Nat.lt_succ_self _) hactive.1 hactive.2
    exact ⟨hi', hg, _, rfl, hkept⟩

theorem lasting_disconnecting (host : HostId) (work : DisconnectWork) :
    Lasting calls t fun s => Clear t host s ∧ Idle t host work.slot s :=
  lasting_clear.and lasting_idle

theorem safeOr_prepareDisconnect (hs : Good t host s ∧ s.mutation = some t) :
    (protocol calls).SafeOr t
      (fun work s => (Clear t host s ∧ Idle t host work.slot s) ∧ s.mutation = some t)
      (fun _ s => Good t host s ∧ s.mutation = some t) (prepareDisconnect t host) s := by
  have hA : (protocol calls).Stable t fun s => s.mutation = some t ∧ Clear t host s :=
    stable_mutation.and stable_clear
  have hfail : ∀ (_ : AppError) s, s.mutation = some t ∧ Clear t host s →
      Good t host s ∧ s.mutation = some t := fun _ _ h => ⟨h.2.toGood, h.1⟩
  refine SafeOr.bind ((safeOr_revokeHost stable_mutation hs.symm).mono (fun _ _ h => h)
    fun _ _ h => h.symm) fun _ s₁ hs₁ => ?_
  refine SafeOr.bind ((neutral_removeRotationPlan.safeOr hA hs₁).mono (fun _ _ h => h) hfail)
    fun _ s₂ hs₂ => ?_
  refine SafeOr.bind ((safeOr_slotOf hA hs₂).mono (fun _ _ h => h) hfail)
    fun slot s₃ ⟨⟨hm, hclear⟩, hsession, _⟩ => ?_
  refine safeOr_slotSection (stable_owns.and hA) ⟨⟨hclear.gate, hsession⟩, hm, hclear⟩
    fun s₄ data r s₅ ⟨howns, hm, hclear⟩ hi hd h => ?_
  obtain ⟨hi', hg, work, rfl, hkept⟩ := step_beginDisconnect hi hclear hm howns.session hd h
  exact ⟨hi', hg, hkept⟩

/-- The call guards the host, whose slot has no connection. -/
structure Quiet (t : TaskId) (host : HostId) (slot : SlotId) (s : Application) : Prop
    extends Owns t host slot s where
  quiescent : ∃ data, s.slots slot = some data ∧ data.view.hostId = host ∧
    data.view.state.Quiescent

theorem stable_quiet : (protocol calls).Stable t (Quiet t host slot) := by
  refine stable_of fun j s s' hj _ hg hs => ?_
  obtain ⟨data, hd, hid, hq⟩ := hs.quiescent
  obtain ⟨data', hd', hstep⟩ := hg.slots slot data hd
  have hne := ne_lifecycle hj hs.gate
  exact ⟨⟨(hg.gates host (.lifecycle t) (Ne.symm hj)).2 hs.gate,
    (hg.sessions host slot hs.session).resolve_right fun h => hne h.1⟩, data', hd',
    hstep.host.trans hid, (hstep.unguarded (hid.symm ▸ hne)).quiescent hq⟩

/-- No slot of the host has a connection if the one it uses has none. -/
theorem SlotsOk.quiescent_of (h : s.SlotsOk) (hsession : s.sessions host = some slot)
    (hd : s.slots slot = some data) (hq : data.view.state.Quiescent) {slot' : SlotId}
    (hd' : s.slots slot' = some data') (hid' : data'.view.hostId = host) :
    data'.view.state.Quiescent := by
  by_contra hnot
  have hattached := h.attached slot' data' hd' hnot
  rw [hid', hsession] at hattached
  obtain ⟨⟩ := hattached
  obtain rfl := Option.mem_unique hd hd'
  exact hnot hq

theorem neutral_closeTransfers {connection : Option HostSessionId} :
    (protocol calls).Neutral t (closeTransfers slot connection).run := by
  cases connection with
  | none => exact neutral_pure
  | some session =>
    refine (neutral_lift neutral_ask).andThen fun r => ?_
    cases r with
    | ok _ => exact neutral_pure
    | error e =>
      refine neutral_slotSection fun s data r s' hi hd h => ?_
      obtain ⟨⟩ := h
      exact step_view hi hd rfl rfl rfl rfl rfl rfl (hi.slots.ok slot data hd).refreshing

/-- The slot is set to disconnected. -/
theorem step_endDisconnect {r : Except AppError (Option TransportId)} (hi : Inv calls s)
    (hclear : Clear t host s) (hidle : Idle t host slot s) (hd : s.slots slot = some data)
    (h : endDisconnect host slot data s = some (r, s')) :
    Inv calls s' ∧ Guarantee t s s' ∧ r = .ok data.transport ∧
      Clear t host s' ∧ Quiet t host slot s' := by
  obtain ⟨⟩ := h
  obtain ⟨data', hd', hid, hconnecting, hconnected⟩ := hidle.idle
  obtain rfl := Option.mem_unique hd hd'
  refine and_assoc.1 ⟨step_slot hi hd
    ⟨rfl, (List.append_nil _).symm, rfl, rfl, rfl, rfl, fun _ _ => rfl⟩
    ⟨⟨nofun, fun _ _ => ⟨rfl, rfl, rfl⟩, fun h =>
        absurd ((hi.slots.ok slot data hd).refreshing h) hconnected⟩,
      .of_guarded hid.symm le_rfl (hid.symm ▸ hclear.gate) (.inr fun _ => .inl rfl)
        fun h => absurd h hconnecting,
      fun h => absurd (.inl rfl) h, nofun, Nat.zero_le _, List.forall_mem_nil _, List.forall_mem_nil _⟩ hi.log,
    rfl, ⟨hclear.gate, hclear.pending, hclear.observations⟩, ⟨hclear.gate, hidle.session⟩, _,
    update_self .., rfl, .inl rfl⟩

theorem safeOr_finishDisconnect {work : DisconnectWork}
    (hs : Clear t host s ∧ Idle t host work.slot s) :
    (protocol calls).SafeOr t (fun _ s => Clear t host s ∧ Quiet t host work.slot s)
      (fun _ => Clear t host) (finishDisconnect host work) s := by
  have hQ : (protocol calls).Stable t fun s => Clear t host s ∧ Quiet t host work.slot s :=
    stable_clear.and stable_quiet
  refine SafeOr.bind ((neutral_closeTransfers.safeOr (stable_clear.and stable_idle) hs).mono
    (fun _ _ h => h) fun _ _ h => h.1) fun _ s₁ hs₁ => ?_
  refine safeOr_bind.2 (safeOr_slotSection (stable_clear.and stable_idle) hs₁
    fun s₂ data r s₃ ⟨hclear, hidle⟩ hi hd h => ?_)
  obtain ⟨hi', hg, rfl, hquiet⟩ := step_endDisconnect hi hclear hidle hd h
  refine ⟨hi', hg, SafeOr.bind (R := fun _ s => Clear t host s ∧ Quiet t host work.slot s) ?_
    fun _ s₄ hs₄ => safeOr_await (fun _ => hs₄) fun _ => hs₄.1⟩
  cases data.transport with
  | none => exact hquiet
  | some transport => exact safeOr_await (fun _ => hquiet) fun _ => hquiet.1

theorem safeOr_disconnectHost : (protocol calls).Conforms t (disconnectHost t host) s := by
  refine safeOr_withLifecycleGuard unguarded_true trivial (fun _ => unguarded_true)
    fun s₁ _ hs₁ => ?_
  refine SafeOr.bind (safeOr_withMutation lasting_good hs₁
    (lasting_disconnecting host) lasting_good fun s₂ hs₂ => ?_) fun work s₃ hs₃ => ?_
  · exact SafeOr.bind (neutral_repositoryGet.safeOr (stable_good.and stable_mutation) hs₂)
      fun _ s₃ hs₃ => safeOr_prepareDisconnect hs₃
  · exact (safeOr_finishDisconnect hs₃).mono (fun _ _ h => ⟨trivial, h.1.toGood⟩)
      fun _ _ h => h.toGood

theorem safeOr_reconnectHost : (protocol calls).Conforms t (reconnectHost t host) s :=
  SafeOr.bind safeOr_disconnectHost fun _ _ _ => safeOr_connectHost

/-! ## `refresh_host` -/

theorem neutral_refreshHost : (protocol calls).Neutral t (refreshHost host).run := by
  refine neutral_repositoryGet.andThen fun _ => neutral_slotOf.andThen fun slot =>
    (neutral_slotSection fun s data r s' hi hd h => ?_).andThen fun attempt =>
      (neutral_lift neutral_ask).andThen fun outcome => (neutral_lift neutral_ask).andThen fun audit =>
        neutral_slotSection fun s data r s' hi hd h => ?_
  · rw [beginRefresh] at h
    split_ifs at h with hbusy
    · obtain ⟨⟩ := h
      exact ⟨hi, fun j => .refl j _⟩
    · push Not at hbusy
      cases htransport : data.transport with
      | none =>
        rw [htransport] at h
        obtain ⟨⟩ := h
        exact ⟨hi, fun j => .refl j _⟩
      | some transport =>
        rw [htransport] at h
        obtain ⟨⟩ := h
        exact step_view hi hd rfl rfl rfl rfl htransport.symm rfl fun _ => hbusy.1
  · rw [finishRefresh] at h
    split_ifs at h
    · obtain ⟨⟩ := h
      exact ⟨hi, fun j => .refl j _⟩
    · obtain ⟨⟩ := h
      exact step_view hi hd rfl rfl rfl rfl rfl rfl nofun

end NexusOps.Core.Application
