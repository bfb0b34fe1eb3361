import NexusOps.Concurrency.OneShot
import NexusOps.RemoteOperations.Store
import Mathlib.Data.Finset.Option

/-!
# Histories of the authority store

The store as a machine: a step is one locked section, that of a call with its
result or that of an expiry timer, in any order and at any instants. Plan ids are
random; here, an insertion uses an id never used before.

* `AuthorityStore.refines`: the store refines the one-shot map from plan ids to
  what consuming them returns (`AuthorityStore.grants`).
* `AuthorityStore.lifecycle_of_run`: what this means for the calls of every
  history.
-/

namespace NexusOps.RemoteOperations

open Concurrency

variable {O : Type} [NativeOperation O]

variable (O) in
/-- The store, with the plan ids used so far. -/
structure AuthorityStore where
  state : StoreState O
  issued : Finset RemoteOperationPlanId

variable (O) in
/-- A locked section of the store: a call with its arguments, the instant it
    read and its result, or an expiry timer. -/
inductive StoreEvent where
  | insert {o : O} (draft : PlanDraft o) (current : AuthorityBinding) (issuedAt : Instant)
      (id : RemoteOperationPlanId) (result : Except AppError PlanReceipt)
  | consume (o : O) (id : RemoteOperationPlanId) (expected : AuthorityBinding) (now : Instant)
      (result : Except AppError (ConsumedAuthority o))
  | discard (o : O) (id : RemoteOperationPlanId) (expected : AuthorityBinding) (now : Instant)
      (result : Except AppError Bool)
  | revokeHost (host : HostId) (result : Bool)
  | revokeSession (host : HostId) (session : HostSessionId) (result : Bool)
  | revokeAll
  | sealAndRevokeAll
  | isSealed (result : Bool)
  | pendingCount (now : Instant) (result : Nat)
  | contains (id : RemoteOperationPlanId) (now : Instant) (result : Bool)
  | expire (id : RemoteOperationPlanId) (expires : Instant)

namespace StoreEvent

variable [DecidableEq O]

/-- The locked section takes the store from `s` to `s'`. -/
def Performs (ttl : Duration) (s s' : StoreState O) : StoreEvent O → Prop
  | insert draft current issuedAt id result =>
    s.insert ttl draft current issuedAt id = (result, s')
  | consume o id expected now result => s.consume o id expected now = (result, s')
  | discard o id expected now result => s.discard o id expected now = (result, s')
  | revokeHost host result => s.revokeHost host = (result, s')
  | revokeSession host session result => s.revokeSession host session = (result, s')
  | revokeAll => s' = s.revokeAll
  | sealAndRevokeAll => s' = s.sealAndRevokeAll
  | isSealed result => s.sealed = result ∧ s' = s
  | pendingCount now result => s.pendingCount now = (result, s')
  | contains id now result => s.contains id now = (result, s')
  | expire id expires => s' = s.expire id expires

omit [DecidableEq O]

/-- The plan id an insertion draws. -/
def newId : StoreEvent O → Option RemoteOperationPlanId
  | insert _ _ _ id _ => some id
  | _ => none

/-- The call created the plan `k`, with the authority `a`. -/
def Stores (ttl : Duration) (e : StoreEvent O) (k : RemoteOperationPlanId)
    (a : StoredAuthority O) : Prop :=
  ∃ (o : O) (draft : PlanDraft o) (current : AuthorityBinding) (issuedAt : Instant)
    (receipt : PlanReceipt), e = insert draft current issuedAt k (.ok receipt) ∧
      draft.binding = current ∧ a = .new k draft issuedAt (issuedAt + ttl)

/-- The call created the plan `k`, with the grant `g`. -/
def Creates (ttl : Duration) (e : StoreEvent O) (k : RemoteOperationPlanId)
    (g : Σ o : O, ConsumedAuthority o) : Prop :=
  ∃ a, e.Stores ttl k a ∧ g = a.grant

/-- The call ends the life of the plan `k` bound to `b`: a successful discard of
    it, a successful insertion of another plan for its host, a revocation of its
    host or of its session, or one of all plans. -/
def Ends (k : RemoteOperationPlanId) (b : AuthorityBinding) : StoreEvent O → Prop
  | insert draft _ _ id (.ok _) => id ≠ k ∧ draft.binding.hostId = b.hostId
  | discard _ id _ _ (.ok true) => id = k
  | revokeHost host _ => host = b.hostId
  | revokeSession host session _ => host = b.hostId ∧ session = b.hostSessionId
  | revokeAll => True
  | sealAndRevokeAll => True
  | _ => False

/-- The call ended the life of the plan `k`, with the grant `g`. -/
def Retires (e : StoreEvent O) (k : RemoteOperationPlanId) (g : Σ o : O, ConsumedAuthority o) :
    Prop :=
  e.Ends k g.2.binding

/-- The call consumed the plan `k`, and returned the grant `g`. -/
def Takes (e : StoreEvent O) (k : RemoteOperationPlanId) (g : Σ o : O, ConsumedAuthority o) :
    Prop :=
  ∃ expected now, e = consume g.1 k expected now (.ok g.2)

/-! ## What a locked section does -/

variable [DecidableEq O] {ttl : Duration} {s s' : StoreState O} {e : StoreEvent O}

/-- A pending plan has just been inserted, or was pending before and its life has
    not been ended. -/
theorem Performs.pending (h : e.Performs ttl s s') (hs : s.Consistent)
    {k : RemoteOperationPlanId} {a : StoredAuthority O} (hk : s'.pending.get k = some a) :
    e.Stores ttl k a ∨ s.pending.get k = some a ∧ ¬e.Ends k a.binding := by
  have drop : ∀ id, (s.dropId id).pending.get k = some a → k ≠ id ∧ s.pending.get k = some a :=
    fun id h => Table.get_of_get_remove (by rwa [StoreState.pending_dropId] at h)
  cases e with
  | insert draft current issuedAt id result =>
    cases result with
    | error e =>
      rw [StoreState.insert_eq_error h] at hk
      exact .inr ⟨hk, not_false⟩
    | ok r =>
      obtain ⟨hb, _, _, _, _, hget⟩ := StoreState.insert_eq_ok hs h
      rcases (hget k a).1 hk with ⟨rfl, ha⟩ | ⟨_, ha, _, hne⟩
      · exact .inl ⟨_, draft, current, issuedAt, r, rfl, hb, ha⟩
      · exact .inr ⟨ha, fun h => hne h.2.symm⟩
  | consume o id expected now result =>
    rcases StoreState.consume_state hs h with rfl | rfl
    · exact .inr ⟨hk, not_false⟩
    · exact .inr ⟨(drop id hk).2, not_false⟩
  | discard o id expected now result =>
    rcases StoreState.discard_eq h with ⟨rfl, rfl⟩ | ⟨hr, rfl⟩ | ⟨rfl, _, rfl⟩
    · exact .inr ⟨(drop id hk).2, fun h => (drop id hk).1 h.symm⟩
    · refine .inr ⟨hk, fun hends => ?_⟩
      match result, hr, hends with
      | .ok true, hr, _ => exact hr rfl
    · exact .inr ⟨(drop id hk).2, not_false⟩
  | revokeHost host result =>
    obtain rfl : (s.revokeHost host).2 = s' := congrArg Prod.snd h
    obtain ⟨ha, hne⟩ := (StoreState.get_revokeHost hs).1 hk
    exact .inr ⟨ha, fun h => hne h.symm⟩
  | revokeSession host session result =>
    obtain rfl : (s.revokeSession host session).2 = s' := congrArg Prod.snd h
    obtain ⟨ha, hne⟩ := (StoreState.get_revokeSession hs).1 hk
    exact .inr ⟨ha, fun h => hne ⟨h.1.symm, h.2.symm⟩⟩
  | revokeAll => obtain rfl := h; cases hk
  | sealAndRevokeAll => obtain rfl := h; cases hk
  | isSealed result => exact .inr ⟨h.2 ▸ hk, not_false⟩
  | pendingCount now result =>
    obtain rfl : s.removeExpired now = s' := congrArg Prod.snd h
    exact .inr ⟨(StoreState.get_removeExpired.1 hk).1, not_false⟩
  | contains id now result =>
    obtain rfl : s.removeExpired now = s' := congrArg Prod.snd h
    exact .inr ⟨(StoreState.get_removeExpired.1 hk).1, not_false⟩
  | expire id expires =>
    obtain rfl := h
    rw [StoreState.expire] at hk
    split_ifs at hk
    · exact .inr ⟨(drop id hk).2, not_false⟩
    · exact .inr ⟨hk, not_false⟩

/-- A locked section inserts a plan, revokes all plans, or removes some. -/
theorem Performs.cases (h : e.Performs ttl s s') (hs : s.Consistent) :
    (∃ (o : O) (draft : PlanDraft o) (current : AuthorityBinding) (issuedAt : Instant)
      (id : RemoteOperationPlanId) (result : Except AppError PlanReceipt),
        id ∈ e.newId ∧ s.insert ttl draft current issuedAt id = (result, s')) ∨
    s' = s.revokeAll ∨ s' = s.sealAndRevokeAll ∨ s.Removes s' := by
  cases e with
  | insert draft current issuedAt id result => exact .inl ⟨_, draft, _, _, id, result, rfl, h⟩
  | revokeAll => exact .inr (.inl h)
  | sealAndRevokeAll => exact .inr (.inr (.inl h))
  | consume o id expected now result =>
    refine .inr (.inr (.inr ?_))
    rcases StoreState.consume_state hs h with rfl | rfl
    exacts [.refl _, .dropId s id]
  | discard o id expected now result =>
    refine .inr (.inr (.inr ?_))
    rcases StoreState.discard_eq h with ⟨_, rfl⟩ | ⟨_, rfl⟩ | ⟨_, _, rfl⟩
    exacts [.dropId s id, .refl _, .dropId s id]
  | revokeHost host result =>
    obtain rfl : (s.revokeHost host).2 = s' := congrArg Prod.snd h
    refine .inr (.inr (.inr ?_))
    rw [StoreState.revokeHost_eq hs]
    cases s.byHost.get host with
    | none => exact .refl s
    | some id => exact .dropId s id
  | revokeSession host session result =>
    obtain rfl : (s.revokeSession host session).2 = s' := congrArg Prod.snd h
    refine .inr (.inr (.inr ?_))
    rcases StoreState.revokeSession_state s host session with h | ⟨id, h⟩
    · rw [h]
      exact .refl s
    · rw [h]
      exact .dropId s id
  | isSealed result => exact .inr (.inr (.inr (h.2 ▸ .refl s)))
  | pendingCount now result => exact .inr (.inr (.inr ⟨_, (congrArg Prod.snd h).symm⟩))
  | contains id now result => exact .inr (.inr (.inr ⟨_, (congrArg Prod.snd h).symm⟩))
  | expire id expires =>
    obtain rfl := h
    refine .inr (.inr (.inr ?_))
    rw [StoreState.expire]
    split_ifs
    exacts [.dropId s id, .refl s]

/-- Every locked section keeps the maps inverse to each other, if an insertion
    draws an id that is not in use. -/
theorem Performs.consistent (h : e.Performs ttl s s') (hs : s.Consistent)
    (hid : ∀ id ∈ e.newId, s.pending.get id = none) : s'.Consistent := by
  rcases h.cases hs with ⟨o, draft, current, issuedAt, id, result, hnew, h⟩ | rfl | rfl | h
  · exact hs.insert (hid id hnew) h
  · exact .revokeAll
  · exact .sealAndRevokeAll
  · exact hs.removes h

/-- A sealed store stays sealed. -/
theorem Performs.sealed (h : e.Performs ttl s s') (hs : s.Consistent)
    (hsealed : s.sealed = true) : s'.sealed = true := by
  rcases h.cases hs with ⟨o, draft, current, issuedAt, id, result, -, h⟩ | rfl | rfl | h
  · cases result with
    | error e => rwa [StoreState.insert_eq_error h]
    | ok r => exact absurd hsealed (by simp [(StoreState.insert_eq_ok hs h).2.1])
  · exact hsealed
  · rfl
  · exact h.sealed_eq.trans hsealed

end StoreEvent

namespace AuthorityStore

variable [DecidableEq O]

variable (O) in
/-- The store as a machine. -/
def machine (ttl : Duration) : Machine (AuthorityStore O) (StoreEvent O) where
  init s := s = ⟨.default, ∅⟩
  step s e s' := e.Performs ttl s.state s'.state ∧ (∀ id ∈ e.newId, id ∉ s.issued) ∧
    s'.issued = s.issued ∪ e.newId.toFinset

/-- A locked section that draws no plan id. -/
theorem step_of_performs {ttl : Duration} {s : AuthorityStore O} {state : StoreState O}
    {e : StoreEvent O} (h : e.Performs ttl s.state state) (hn : e.newId = none) :
    (machine O ttl).step s e ⟨state, s.issued⟩ :=
  ⟨h, by simp [hn], by simp [hn]⟩

/-- The pending plans, with what consuming them returns. -/
def grants (s : AuthorityStore O) (k : RemoteOperationPlanId) :
    Option (Σ o : O, ConsumedAuthority o) :=
  (s.state.pending.get k).map StoredAuthority.grant

/-- In every state the store runs to, the maps are inverse to each other, and the
    pending plans have used ids. -/
structure Valid (s : AuthorityStore O) : Prop where
  consistent : s.state.Consistent
  issued_of_pending : ∀ {k a}, s.state.pending.get k = some a → k ∈ s.issued

variable {ttl : Duration} {s s' : AuthorityStore O} {e : StoreEvent O} {es : List (StoreEvent O)}

theorem Valid.step (hs : s.Valid) (h : (machine O ttl).step s e s') : s'.Valid := by
  obtain ⟨hp, hid, hissued⟩ := h
  refine ⟨hp.consistent hs.consistent fun id hn => ?_, fun {k a} hk => ?_⟩
  · exact Option.eq_none_iff_forall_ne_some.2 fun a ha => hid id hn (hs.issued_of_pending ha)
  · rw [hissued, Finset.mem_union]
    rcases hp.pending hs.consistent hk with ⟨_, _, _, _, _, rfl, _⟩ | ⟨hk, _⟩
    · exact .inr (by simp [StoreEvent.newId])
    · exact .inl (hs.issued_of_pending hk)

/-- A used id that is not pending never becomes so. -/
theorem Valid.gone (hs : s.Valid) (h : (machine O ttl).step s e s') {k : RemoteOperationPlanId}
    (hk : k ∈ s.issued) (hn : s.state.pending.get k = none) :
    k ∈ s'.issued ∧ s'.state.pending.get k = none := by
  obtain ⟨hp, hid, hissued⟩ := h
  refine ⟨hissued ▸ Finset.mem_union_left _ hk, Option.eq_none_iff_forall_ne_some.2 fun a ha => ?_⟩
  rcases hp.pending hs.consistent ha with ⟨_, _, _, _, _, rfl, _⟩ | ⟨ha, _⟩
  · exact hid k rfl hk
  · exact Option.some_ne_none _ (ha.symm.trans hn)

theorem valid_of_run (h : (machine O ttl).Run es s) : s.Valid := by
  refine h.invariant (fun s hs => ?_) fun _ _ _ hs => hs.step
  obtain rfl := hs
  exact ⟨StoreState.consistent_default, nofun⟩

/-- The store refines the one-shot map from plan ids to grants. -/
theorem refines : (machine O ttl).Refines
    (oneShotMap (StoreEvent.Creates ttl) StoreEvent.Retires StoreEvent.Takes) grants where
  init s hs k := by obtain rfl := hs; rfl
  step es s e s' hr h := by
    have hs := (valid_of_run hr).consistent
    refine ⟨fun k g hk => ?_, fun k g => ?_⟩
    · obtain ⟨a, ha, rfl⟩ := Option.map_eq_some_iff.1 hk
      rcases h.1.pending hs ha with hst | ⟨ha, hne⟩
      · exact .inl ⟨a, hst, rfl⟩
      · exact .inr ⟨Option.map_eq_some_iff.2 ⟨a, ha, rfl⟩, hne⟩
    · rintro ⟨expected, now, rfl⟩
      obtain ⟨a, ha, hg, _, _, hs'⟩ := StoreState.consume_eq_ok h.1
      refine ⟨Option.map_eq_some_iff.2 ⟨a, ha, hg⟩, ?_⟩
      rw [grants, hs', StoreState.pending_dropId, Table.get_remove_self, Option.map_none]

/-- The ids drawn in a run are used. -/
theorem issued_of_run (h : (machine O ttl).Run es s) {id : RemoteOperationPlanId}
    (he : e ∈ es) (hid : id ∈ e.newId) : id ∈ s.issued := by
  induction h using Machine.Run.induction with
  | init => cases he
  | snoc es s e' s' hr hs ih =>
    rw [hs.2.2, Finset.mem_union]
    rcases mem_snoc.1 he with he | rfl
    · exact .inl (ih he)
    · exact .inr (Option.mem_toFinset.2 hid)

/-- No plan is created twice. -/
theorem freshKeys_of_run (h : (machine O ttl).Run es s) :
    FreshKeys (StoreEvent.Creates ttl) es := by
  induction h using Machine.Run.induction with
  | init => exact .nil
  | snoc es s e s' hr hs ih =>
    refine List.pairwise_append.2
      ⟨ih, List.pairwise_singleton .., fun e₁ he₁ e₂ he₂ k g g' hc hc' => ?_⟩
    rw [List.mem_singleton.1 he₂] at hc'
    obtain ⟨_, ⟨_, _, _, _, _, rfl, _⟩, _⟩ := hc
    obtain ⟨_, ⟨_, _, _, _, _, rfl, _⟩, _⟩ := hc'
    exact hs.2.1 k rfl (issued_of_run hr he₁ rfl)

/-- The store stays sealed after it has been sealed. -/
theorem sealed_of_path (h : (machine O ttl).Path s es s') (hs : s.Valid)
    (hsealed : s.state.sealed = true) : s'.Valid ∧ s'.state.sealed = true := by
  refine h.invariant (P := fun s => s.Valid ∧ s.state.sealed = true) ?_ ⟨hs, hsealed⟩
  intro s e s' ⟨hs, hsealed⟩ hstep
  exact ⟨hs.step hstep, hstep.1.sealed hs.consistent hsealed⟩

/-- What the calls of the history `es`, ending in the store `s`, guarantee. -/
structure Lifecycle (ttl : Duration) (es : List (StoreEvent O)) (s : AuthorityStore O) : Prop where
  /-- The history is one of the one-shot map. -/
  oneShot : (oneShotMap (StoreEvent.Creates ttl) StoreEvent.Retires StoreEvent.Takes).Run es
    s.grants
  /-- No id is consumed twice. -/
  consume_once : es.Pairwise fun e e' => ∀ id o b now c o' b' now' c',
    e = .consume o id b now (.ok c) → e' ≠ .consume o' id b' now' (.ok c')
  /-- A consumption returns what an earlier insertion of that operation type
      created for that binding, before it expires, and unless its life has been
      ended in between. -/
  inserted_of_consume : ∀ pre post o id b now c, es = pre ++ StoreEvent.consume o id b now (.ok c) :: post →
    ∃ (pre₁ mid : List (StoreEvent O)) (draft : PlanDraft o) (issuedAt : Instant)
      (receipt : PlanReceipt),
      pre = pre₁ ++ .insert draft b issuedAt id (.ok receipt) :: mid ∧ draft.binding = b ∧
      c = ⟨id, b, RISK o, issuedAt, issuedAt + ttl, draft.target, draft.preconditions,
        draft.payload⟩ ∧
      now < issuedAt + ttl ∧ ∀ e ∈ mid, ¬e.Ends id b
  /-- After a seal, no insertion succeeds. -/
  not_insert_of_sealed : ∀ pre post, es = pre ++ .sealAndRevokeAll :: post →
    ∀ (o : O) (draft : PlanDraft o) current issuedAt id receipt,
      StoreEvent.insert draft current issuedAt id (.ok receipt) ∉ post
  /-- A plan that has not expired is neither consumed nor discarded under another
      binding or as another operation type, and the store stays as it is. -/
  mismatch : ∀ id a o b now, s.state.pending.get id = some a → now < a.expiresAt →
    b ≠ a.binding ∨ o ≠ a.operationType → ∃ error, s.state.consume o id b now = (.error error, s.state) ∧
      s.state.discard o id b now = (.error error, s.state)
  /-- A host is mapped to a plan exactly if that plan is pending for the host. -/
  inverse : ∀ host id, s.state.byHost.get host = some id ↔
    ∃ a, s.state.pending.get id = some a ∧ a.binding.hostId = host
  /-- There is at most one plan for a host. -/
  unique : ∀ id id' a a', s.state.pending.get id = some a → s.state.pending.get id' = some a' →
    a.binding.hostId = a'.binding.hostId → id = id'
  /-- A sealed store is empty. -/
  pending_of_sealed : s.state.sealed = true → ∀ id, s.state.pending.get id = none

/-- Every history of the store keeps the life cycle of its plans. -/
theorem lifecycle_of_run (h : (machine O ttl).Run es s) : Lifecycle ttl es s := by
  have habs := refines.run h
  have hs := (valid_of_run h).consistent
  refine ⟨habs, ?_, ?_, ?_, ?_, fun host id => ⟨hs.pending_of_byHost, ?_⟩,
    fun _ _ _ _ => hs.id_unique, hs.pending_of_sealed⟩
  · refine (OneShot.take_once habs (freshKeys_of_run h)).imp fun {e e'} hne => ?_
    intro id o b now c o' b' now' c' he he'
    exact hne id ⟨o, c⟩ ⟨o', c'⟩ ⟨b, now, he⟩ ⟨b', now', he'⟩
  · intro pre post o id b now c hes
    rw [hes] at h habs
    obtain ⟨pre₁, _, mid, rfl, ⟨_, ⟨o', draft, current, issuedAt, receipt, rfl, hb, rfl⟩, hg⟩, hmid⟩ :=
      OneShot.created_of_take (k := id) (v := ⟨o, c⟩) habs ⟨b, now, rfl⟩
    -- The consumed authority is the one inserted: the types agree as well.
    obtain ⟨rfl, hc⟩ := Sigma.mk.inj hg
    obtain rfl := eq_of_heq hc
    obtain ⟨_, _, _, hstep, _⟩ := Machine.run_append_cons.1 h
    obtain ⟨_, _, _, rfl, hlt, _⟩ := StoreState.consume_eq_ok hstep.1
    exact ⟨pre₁, mid, draft, issuedAt, receipt, by rw [← hb]; rfl, rfl, rfl, hlt, hmid⟩
  · intro pre post hes o draft current issuedAt id receipt hmem
    rw [hes] at h
    obtain ⟨s₀, s₁, h₀, hseal, hpost⟩ := Machine.run_append_cons.1 h
    obtain ⟨mid, post, rfl⟩ := List.append_of_mem hmem
    obtain ⟨s₂, hmid, h₂⟩ := Machine.path_append.1 hpost
    have h₁ : s₁.Valid := (valid_of_run h₀).step hseal
    obtain ⟨hv₂, hsealed₂⟩ := sealed_of_path hmid h₁ (by rw [show s₁.state = _ from hseal.1]; rfl)
    cases h₂ with
    | cons hins _ =>
      have := (StoreState.insert_eq_ok hv₂.consistent hins.1).2.1
      rw [hsealed₂] at this
      cases this
  · intro id a o b now ha hlive hne
    exact StoreState.eq_error_of_mismatch ha hlive hne
  · rintro ⟨a, ha, rfl⟩
    exact hs.byHost_of_pending ha

/-- A plan to start `ssh.service`, over the first connection of a host. -/
def startDraft : PlanDraft SystemdOperation.start where
  binding := ⟨⟨1⟩, ⟨1⟩, 1⟩
  target := ⟨"ssh.service", by decide⟩
  preconditions := {}
  payload := ()

/-- The plan is published, and consumed a minute later. -/
def startHistory : List (StoreEvent SystemdOperation) :=
  [.insert startDraft startDraft.binding 0 ⟨7⟩
      (.ok ⟨⟨7⟩, startDraft.binding, .high, 0, PLAN_TTL, none⟩),
    .consume .start ⟨7⟩ startDraft.binding (Duration.fromSecs 60)
      (.ok ⟨⟨7⟩, startDraft.binding, .high, 0, PLAN_TTL, startDraft.target, {}, ()⟩)]

/-- The store once the plan is published. -/
def startStore : AuthorityStore SystemdOperation where
  state := (StoreState.default.insert PLAN_TTL startDraft startDraft.binding 0 ⟨7⟩).2
  issued := {⟨7⟩}

theorem run_startHistory : (machine SystemdOperation PLAN_TTL).Run startHistory
    ⟨startStore.state.dropId ⟨7⟩, startStore.issued⟩ := by
  have hinsert : (machine SystemdOperation PLAN_TTL).step ⟨.default, ∅⟩ startHistory[0]
      startStore := ⟨rfl, by decide, rfl⟩
  have hconsume : (machine SystemdOperation PLAN_TTL).step startStore startHistory[1]
      ⟨startStore.state.dropId ⟨7⟩, startStore.issued⟩ := ⟨rfl, nofun, rfl⟩
  exact ((Machine.Run.nil rfl).snoc hinsert).snoc hconsume

theorem lifecycle_startHistory : Lifecycle PLAN_TTL startHistory
    ⟨startStore.state.dropId ⟨7⟩, startStore.issued⟩ :=
  lifecycle_of_run run_startHistory

end AuthorityStore

end NexusOps.RemoteOperations
