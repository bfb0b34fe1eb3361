import NexusOps.Core.ServicesSafety

/-!
# Executing a plan is safe

An execution dispatches the plan it has consumed only after it has read a third
inventory, with the unit still in the required state, and has then seen the slot of
the host connected as it was when the plan was made (`Consumed`).
-/

namespace NexusOps.Core.Application

open Concurrency RemoteOperations Protocol Fallible RemoteOperationFoundation

variable {calls : TaskId → Call} {t : TaskId} {host : HostId} {slot : SlotId} {s s' : Application}
  {A : Application → Prop} {o : SystemdOperation}

/-! ## Admission -/

/-- An event of an execution that is not a dispatch is logged. -/
theorem step_record {e : FoundationEvent SystemdOperation} (hi : Inv calls s)
    (he : Rule calls s.log (.operation e)) :
    Inv calls (s.note (.operation e)) ∧ Harmless s (s.note (.operation e)) :=
  step_note hi trivial nofun he nofun nofun

theorem neutral_record {e : FoundationEvent SystemdOperation}
    (he : ∀ log, Rule calls log (.operation e)) :
    (protocol calls).Neutral t (.modify fun s : Application => record s e) := by
  refine neutral_section fun s b s' hi h => ?_
  obtain ⟨⟩ := h
  obtain ⟨hi', hh⟩ := step_record (e := e) hi (he _)
  exact ⟨hi', hh.guarantee⟩

/-- An execution that locks or unlocks the gate of a host, which no lifecycle guard
    protects. -/
theorem step_executionGate (host : HostId) (holder : Option GateHolder) (hi : Inv calls s)
    (hold : ∀ g ∈ s.remoteOperations.hostGates host, g = .execution t)
    (hnew : ∀ g ∈ holder, g = .execution t) :
    let s' : Application := setFoundation s { s.remoteOperations with
      hostGates := Function.update s.remoteOperations.hostGates host holder }
    Inv calls s' ∧ Guarantee t s s' := by
  refine step_gate host holder hi (fun g hg => hold g hg ▸ rfl) (fun g hg => hnew g hg ▸ rfl) fun _ => ?_
  refine hi.good host fun t' h => ?_
  exact nomatch hold _ h

theorem safe_tryExecute (host : HostId) (hA : Unguarded calls t A) (hs : A s) :
    (protocol calls).Safe t
      (Post (fun _ s => A s ∧ s.remoteOperations.hostGates host = some (.execution t)) fun _ => A)
      (tryExecute t host) s := by
  have hA' : (protocol calls).Stable t fun s =>
      A s ∧ s.remoteOperations.hostGates host = some (.execution t) := hA.stable.and (stable_gate rfl)
  refine safe_act hA.stable hs fun s₁ b s₂ hs₁ hi h => ?_
  cases hlock : lockGate s₁ host (.execution t) with
  | none =>
    rw [hlock] at h
    obtain ⟨⟩ := h
    exact ⟨hi, .refl t _, hs₁⟩
  | some s' =>
    rw [hlock] at h
    obtain ⟨⟩ := h
    obtain ⟨hfree, rfl⟩ := lockGate_eq_some.1 hlock
    rw [foundation_eq] at hfree
    obtain ⟨hi', hg⟩ := step_executionGate (t := t) host (some (.execution t)) hi
      (fun g hg => by rw [hfree] at hg; cases hg) fun g hg => (Option.some.inj hg).symm
    refine ⟨hi', hg, ?_⟩
    refine safe_act hA' ⟨hA.gates _ _ hs₁, Function.update_self ..⟩ fun s₃ b s₄ hs₃ hi h => ?_
    split_ifs at h
    · obtain ⟨⟩ := h
      obtain ⟨hi₁, hh⟩ := step_record (e := .admitted t host) hi trivial
      have hagree : Agree (s₃.note (.operation (.admitted t host)))
          (record (setPermit s₃ (some t)) (.admitted t host)) :=
        ⟨rfl, rfl, rfl, rfl, rfl, rfl, rfl, rfl, rfl, rfl⟩
      have hg : ∀ j, Guarantee j s₃ _ := fun j =>
        hh.guarantee_trans (hagree.harmless.guarantee j) rfl
      have hi' := hagree.inv hi₁
      exact ⟨hi', hg t, hA' _ _ (interferes_of hi hi' hg) hs₃⟩
    · obtain ⟨⟩ := h
      refine ⟨hi, .refl t _, safe_modify hA' hs₃ fun s₅ hs₅ hi => ?_⟩
      obtain ⟨hi', hg⟩ := step_executionGate (t := t) host none hi
        (fun g hg => by rw [hs₅.2] at hg; exact (Option.some.inj hg).symm) nofun
      exact ⟨hi', hg, hA.gates _ _ hs₅.1⟩

theorem safe_dropPermit {r : Except AppError ExecutionResult}
    (hs : s.remoteOperations.hostGates host = some (.execution t)) :
    (protocol calls).Safe t (fun _ _ => True) (dropPermit t host r) s := by
  refine safe_modify (stable_gate rfl) hs fun s₁ hs₁ hi => ?_
  obtain ⟨hi₁, hh⟩ := step_record (e := .returned t r) hi trivial
  obtain ⟨hi', hg⟩ := step_executionGate (t := t) host none hi₁
    (fun g hg => (Option.mem_unique hs₁ hg).symm) nofun
  refine ⟨hi', hh.guarantee_trans hg rfl, ?_⟩
  have hrelease : (protocol calls).Neutral t
      (.modify fun s : Application => setPermit s none) :=
    neutral_modify fun _ => ⟨rfl, rfl, rfl, rfl, rfl, rfl, rfl, rfl, rfl, rfl⟩
  exact hrelease _ stable_true _ trivial

/-! ## Consumption -/

/-- The call has consumed a plan that is accounted for, and holds the gate of its host.
    After the consumption, the events `es` have been logged. -/
structure Consumed (calls : TaskId → Call) (t : TaskId) (slot : SlotId) (p : Provenance)
    {o : SystemdOperation} (a : ConsumedAuthority o) (es : List AppEvent) (s : Application) :
    Prop where
  gate : s.remoteOperations.hostGates a.binding.hostId = some (.execution t)
  slot : IsSlotOf slot a.binding.hostId s
  call : calls t = .executeService o a.binding.hostId a.binding.hostSessionId a.id
  explained : p.Explains calls s.log o a.binding a.target
  claimed : [.bound t a.binding p.transport, .operation (.consumed t o a)].Sublist s.log
  events : p.LeadsTo s.log o a.binding a.target a.id (.operation (.consumed t o a) :: es)

variable {connection : Connection} {risk : OperationRisk} {id : RemoteOperationPlanId}
  {token : CancellationToken}

section

variable {p : Provenance} {a : ConsumedAuthority o} {es : List AppEvent}

theorem stable_consumed : (protocol calls).Stable t (Consumed calls t slot p a es) := by
  refine stable_of fun j s s' hj hi hg hs => ?_
  obtain ⟨data, hd, hid⟩ := hs.slot
  obtain ⟨data', hd', hstep⟩ := hg.slots slot data hd
  obtain ⟨es', hlog, _, _⟩ := hg.log
  refine ⟨(hg.gates _ (.execution t) (Ne.symm hj)).2 hs.gate, ⟨data', hd', hstep.host.trans hid⟩,
    hs.call, ?_, ?_, ?_⟩ <;> rw [hlog]
  · exact hs.explained.append
  · exact hs.claimed.trans (List.sublist_append_left ..)
  · exact hs.events.append

/-- One more event is logged. -/
theorem Consumed.note (h : Consumed calls t slot p a es s) (e : AppEvent) :
    Consumed calls t slot p a (es ++ [e]) (s.note e) :=
  ⟨h.gate, h.slot, h.call, h.explained.append, h.claimed.trans (List.sublist_append_left ..),
    h.events.snoc⟩

/-- A plan is consumed: where it comes from is known. -/
theorem safe_consume {binding : AuthorityBinding} {transport : TransportId}
    (hcall : calls t = .executeService o binding.hostId binding.hostSessionId id)
    (hs : Claimed t slot binding transport s ∧
      s.remoteOperations.hostGates binding.hostId = some (.execution t)) :
    (protocol calls).Safe t (Post
      (fun a s => a.binding = binding ∧ ∃ p, p.transport = transport ∧ Consumed calls t slot p a [] s)
      fun _ s => s.remoteOperations.hostGates binding.hostId = some (.execution t))
      (consume t o id binding) s := by
  have hA : (protocol calls).Stable t fun s => Claimed t slot binding transport s ∧
      s.remoteOperations.hostGates binding.hostId = some (.execution t) :=
    stable_claimed.and (stable_gate rfl)
  refine safe_read hA hs (Guarantee.refl t) fun s₁ hs₁ _ => ?_
  refine safe_act (k := .ret) hA hs₁ fun s₂ r s₃ hs₂ hi h => ?_
  obtain ⟨state, hconsume, rfl⟩ := consumeSection_eq_some h
  cases r with
  | error e =>
    obtain ⟨hi', hh⟩ := step_store (e := .consume o id binding _ (.error e)) hi hconsume rfl
    exact ⟨hi', hh.guarantee t, (hA _ _ (interferes_of hi hi' hh.guarantee) hs₂).2⟩
  | ok a =>
    obtain ⟨stored, hget, hgrant, rfl, _⟩ := StoreState.consume_eq_ok hconsume
    obtain ⟨o', c, p, hgrant', hexplained, hleads⟩ := hi.planned id stored hget
    rw [hgrant] at hgrant'
    obtain ⟨rfl, rfl⟩ : o = o' ∧ HEq a c := by simpa using hgrant'
    have hid : a.id = id :=
      (StoredAuthority.of_grant_eq hgrant).1.trans (hi.valid.consistent.wellTyped hget).1
    have hbound := List.singleton_sublist.1 hs₂.1.2
    obtain rfl := hi.log.transport_eq hbound (hexplained.claimed.subset List.mem_cons_self)
    -- The event is logged in the section that takes the plan out of the store.
    obtain ⟨hi₁, hh₁⟩ := step_record (e := .consumed t o a) hi trivial
    obtain ⟨hi', hh⟩ := step_store (e := .consume o id a.binding _ (.ok a)) hi₁ hconsume rfl
    refine ⟨hi', hh₁.guarantee_trans (hh.guarantee t) rfl, rfl, p, rfl, hs₂.2, hs₂.1.1, ?_,
      hexplained.append, hs₂.1.2.append (List.Sublist.refl _), hleads.snoc⟩
    rw [hid]
    exact hcall

/-! ## Revalidation and dispatch -/

/-- The call has read the third inventory, which still has the unit in the required
    state, and has seen the connection once more. -/
def Revalidated (calls : TaskId → Call) (t : TaskId) (slot : SlotId) (p : Provenance)
    {o : SystemdOperation} (a : ConsumedAuthority o) (last : ServiceSnapshot) (s : Application) :
    Prop :=
  last.Shows o a.target ∧
    Consumed calls t slot p a [.read t p.transport last, .bound t a.binding p.transport] s

theorem stable_revalidated {last : ServiceSnapshot} :
    (protocol calls).Stable t (Revalidated calls t slot p a last) :=
  fun s s' h hs => ⟨hs.1, stable_consumed s s' h hs.2⟩

/-- The inventory is read and the connection is checked, with a permit. -/
theorem safeOr_reobserve (htransport : connection.transport = p.transport)
    (hs : Consumed calls t slot p a [] s) :
    (protocol calls).SafeOr t (fun _ s => ∃ last, Revalidated calls t slot p a last s)
      (fun _ s => s.remoteOperations.hostGates a.binding.hostId = some (.execution t)) (do
        observeExact o t connection.transport a.binding a.target a.preconditions
        slotSection slot (recheckConnection t a.binding connection staleSession)) s := by
  refine SafeOr.bind (R := fun _ s => ∃ last : ServiceSnapshot, last.Shows o a.target ∧
    Consumed calls t slot p a [.read t p.transport last] s)
    (safeOr_observeExact stable_consumed hs (fun last s hs hshows => ?_) (fun _ _ h => h.gate)
      fun _ _ _ h => h.gate) fun _ s₁ ⟨last, hshows, hs₁⟩ => ?_
  · rw [htransport]
    exact ⟨last, hshows, hs.note _⟩
  · refine safeOr_recheckConnection stable_consumed hs₁ hs₁.slot (fun s hs _ => ?_) fun _ _ h => h.gate
    rw [htransport]
    exact ⟨last, hshows, hs.note _⟩

theorem safeOr_revalidate
    (htransport : connection.transport = p.transport) (hs : Consumed calls t slot p a [] s) :
    (protocol calls).SafeOr t (fun _ s => ∃ last, Revalidated calls t slot p a last s)
      (fun _ s => s.remoteOperations.hostGates a.binding.hostId = some (.execution t))
      (revalidate o risk t slot connection a.binding a) s := by
  have hfail : ∀ (_ : AppError) (s : Application), Consumed calls t slot p a [] s →
      s.remoteOperations.hostGates a.binding.hostId = some (.execution t) := fun _ _ h => h.gate
  have hgate : (protocol calls).Stable t fun s =>
      s.remoteOperations.hostGates a.binding.hostId = some (.execution t) := stable_gate rfl
  refine SafeOr.bind (((neutral_lift neutral_read).safeOr stable_consumed hs).mono (fun _ _ h => h)
    hfail) fun _ s₁ hs₁ => ?_
  refine SafeOr.bind ((neutral_ensure.safeOr stable_consumed hs₁).mono (fun _ _ h => h) hfail)
    fun _ s₂ hs₂ => ?_
  refine SafeOr.bind ((neutral_existingServiceGate.safeOr stable_consumed hs₂).mono (fun _ _ h => h)
    hfail) fun gate s₃ hs₃ => ?_
  refine SafeOr.bind ((neutral_tryLockServiceGate.safeOr stable_consumed hs₃).mono (fun _ _ h => h)
    hfail) fun _ s₄ hs₄ => ?_
  refine SafeOr.bind (R := fun _ s => ∃ last, Revalidated calls t slot p a last s)
    (safeOr_onError (SafeOr.bind ((neutral_tryAcquireServiceLimit.safeOr stable_consumed hs₄).mono
      (fun _ _ h => h) fun _ s h => neutral_unlockServiceGate _ hgate s h.gate) fun _ s₅ hs₅ => ?_))
    fun _ s₆ hs₆ => hs₆
  refine safeOr_always ((safeOr_reobserve htransport hs₅).mono (fun _ s ⟨last, hs⟩ => ?_)
    fun _ s hs => ?_)
  · exact Safe.mono (neutral_releaseServiceLimit _ stable_revalidated s hs) fun _ _ h => ⟨last, h⟩
  · exact Safe.mono (neutral_releaseServiceLimit _ hgate s hs) fun _ s h =>
      neutral_unlockServiceGate _ hgate s h

theorem neutral_mustStop : (protocol calls).Neutral t
      (mustStop t token : Proc Application Bool) := by
  have hnote : ∀ {e : FoundationEvent SystemdOperation} (c : Application → Bool),
      (∀ log, Rule calls log (.operation e)) → (protocol calls).Neutral t (.act fun s : Application =>
        if c s then some (true, s) else some (false, record s e)) := by
    intro e c he
    refine neutral_section fun s b s' hi h => ?_
    split_ifs at h
    · obtain ⟨⟩ := h
      exact ⟨hi, fun j => .refl j _⟩
    · obtain ⟨⟩ := h
      obtain ⟨hi', hh⟩ := step_record (e := e) hi (he _)
      exact ⟨hi', hh.guarantee⟩
  refine (hnote (e := .unsealed t) _ fun _ => trivial).bind fun isSealed => ?_
  split_ifs
  · exact neutral_pure
  · exact hnote (e := .uncancelled t token) _ fun _ => trivial

/-- The plan is dispatched at most once, after everything that accounts for it. -/
theorem safe_executeConsumed (htransport : connection.transport = p.transport)
    (hs : Consumed calls t slot p a [] s) : (protocol calls).Safe t
      (fun _ s => s.remoteOperations.hostGates a.binding.hostId = some (.execution t))
      (executeConsumed t
        (serviceExecution o risk t slot connection a.binding) token a) s := by
  have hgate : (protocol calls).Stable t fun s =>
      s.remoteOperations.hostGates a.binding.hostId = some (.execution t) := stable_gate rfl
  refine safe_read stable_consumed hs (Guarantee.refl t) fun s₁ hs₁ _ => ?_
  split_ifs
  · exact hs₁.gate
  refine Safe.bind (safeOr_revalidate htransport hs₁) fun r s₂ hs₂ => ?_
  cases r with
  | error e =>
    refine safe_read hgate hs₂ (Guarantee.refl t) fun s₃ hs₃ _ => ?_
    split_ifs
    · exact hs₃
    · exact hs₃
  | ok gate =>
    obtain ⟨last, hs₂⟩ := hs₂
    have hnote : (protocol calls).Neutral t
        (.modify fun s : Application => record s (.revalidated t)) := neutral_record fun _ => trivial
    refine Safe.bind (hnote _ stable_revalidated s₂ hs₂) fun _ s₃ hs₃ => ?_
    refine Safe.bind (neutral_mustStop _ stable_revalidated s₃ hs₃) fun stop s₄ hs₄ => ?_
    have hunlock : ∀ s, s.remoteOperations.hostGates a.binding.hostId = some (.execution t) →
        ∀ r : ExecutionResult, (protocol calls).Safe t
          (fun _ s => s.remoteOperations.hostGates a.binding.hostId = some (.execution t)) (do
            unlockServiceGate gate
            return r) s := fun s hs r =>
      Safe.bind (neutral_unlockServiceGate _ hgate s hs) fun _ _ h => h
    cases stop with
    | true => exact hunlock s₄ hs₄.2.gate _
    | false =>
      refine safe_modify stable_revalidated hs₄ fun s₅ hs₅ hi => ?_
      obtain ⟨hshows, hconsumed⟩ := hs₅
      have haccounted : Accounted calls s₅.log t a p last :=
        ⟨hconsumed.call, hconsumed.explained, hshows, hconsumed.claimed, hconsumed.events⟩
      obtain ⟨hi', hh⟩ := step_record (e := .dispatched t o a) hi ⟨p, last, haccounted⟩
      exact ⟨hi', hh.guarantee t, safe_ask fun outcome =>
        hunlock (record s₅ (.dispatched t o a)) hconsumed.gate _⟩

end

theorem safe_execute {binding : AuthorityBinding}
    (hcall : calls t = .executeService o binding.hostId binding.hostSessionId id)
    (hs : Claimed t slot binding connection.transport s) :
    (protocol calls).Safe t (fun _ _ => True) (execute t o id binding
      (serviceExecution o risk t slot connection binding) token) s := by
  have hfail : ∀ e (s : Application), (protocol calls).Safe t (fun _ _ => True) (do
      Proc.modify fun s : Application => record s (.returned t (.error e))
      pure (.error e : Except AppError ExecutionResult)) s := by
    intro e s
    have hnote : (protocol calls).Neutral t
        (.modify fun s : Application => record s (.returned t (.error e))) :=
      neutral_record fun _ => trivial
    exact Safe.bind (hnote _ stable_true s trivial) fun _ _ h => h
  refine safe_read stable_claimed hs (Guarantee.refl t) fun s₁ hs₁ _ => ?_
  split_ifs
  · exact hfail _ s₁
  refine Safe.bind (safe_tryExecute binding.hostId unguarded_claimed hs₁)
    fun r s₂ hs₂ => ?_
  cases r with
  | error e => exact hfail e s₂
  | ok _ =>
    refine Safe.bind (R := fun _ s =>
      s.remoteOperations.hostGates binding.hostId = some (.execution t)) ?_ fun r s₃ hs₃ =>
        Safe.bind (safe_dropPermit hs₃) fun _ _ h => h
    refine safe_read (stable_claimed.and (stable_gate rfl)) hs₂ (Guarantee.refl t) fun s₄ hs₄ _ => ?_
    split_ifs
    · exact hs₄.2
    refine Safe.bind (safe_consume hcall hs₄) fun r s₅ hs₅ => ?_
    cases r with
    | error e => exact hs₅
    | ok a =>
      obtain ⟨rfl, p, hp, hs₅⟩ := hs₅
      exact Safe.bind (safe_executeConsumed hp.symm hs₅) fun _ _ h => h

theorem safeOr_executeService {session : HostSessionId}
    (hcall : calls t = .executeService o host session id) :
    (protocol calls).Conforms t (executeService o risk t host session id) s := by
  refine SafeOr.bind (safeOr_slotOf stable_true trivial) fun slot s₁ ⟨_, _, hslot⟩ => ?_
  refine SafeOr.bind (safeOr_claimConnection stable_true trivial hslot)
    fun connection s₂ ⟨_, hs₂⟩ => ?_
  refine SafeOr.bind (R := fun _ _ => True) (Safe.mono (safe_execute hcall hs₂) fun r _ _ => ?_)
    fun execution s₃ _ => ?_
  · cases r <;> exact trivial
  refine safeOr_bind.2 (safeOr_ask fun audited => ?_)
  refine SafeOr.bind (R := fun _ _ => True) (safeOr_lift.2 (Conforms.run safeOr_listHostServices))
    fun _ _ _ => trivial

end NexusOps.Core.Application
