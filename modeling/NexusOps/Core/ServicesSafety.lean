import NexusOps.Core.Sections

/-!
# Service requests are safe

The calls that list services and that plan, discard and execute operations keep to
the protocol. What they publish is accounted for:

* observations, by an inventory that was read while the slot was connected
  (`safeOr_listHostServices`);
* a plan, by the observation it was planned for and by a second inventory
  (`safeOr_planService`);
* a dispatch, by the plan it has consumed and by a third inventory
  (`safeOr_executeService`).
-/

namespace NexusOps.Core

open Concurrency RemoteOperations Protocol RemoteOperationFoundation ObservationState

variable {unit : SystemdServiceUnitName} {snapshot : ServiceSnapshot}

/-- The unit has been found in the inventory, in the state the operation requires. -/
theorem Application.shows_of_exactService {o : SystemdOperation} {preconditions : o.Preconditions}
    (h : (exactService o snapshot unit preconditions).isSome = true) : snapshot.Shows o unit := by
  obtain ⟨entry, h⟩ := Option.isSome_iff_exists.1 h
  obtain ⟨hfind, hmatches⟩ := Option.filter_eq_some_iff.1 h
  refine ⟨entry, List.mem_of_find?_eq_some hfind, ?_, ?_⟩
  · simpa using List.find?_some hfind
  · cases o <;> exact hmatches

namespace Application

variable {calls : TaskId → Call} {t : TaskId} {host : HostId} {slot : SlotId} {s s' : Application}
  {data : SessionData} {A : Application → Prop} {o : SystemdOperation}

/-! ## Admission -/

theorem neutral_serviceGate : (protocol calls).Neutral t (serviceGate host).run := by
  refine (neutral_lift neutral_ask).andThen fun gate => neutral_agree fun s b s' h => ?_
  split at h
  · obtain ⟨⟩ := h
    exact .refl s
  · split_ifs at h
    obtain ⟨⟩ := h
    exact ⟨rfl, rfl, rfl, rfl, rfl, rfl, rfl, rfl, rfl, rfl⟩

theorem neutral_existingServiceGate : (protocol calls).Neutral t (existingServiceGate host).run := by
  refine neutral_agree fun s b s' h => ?_
  split at h
  all_goals
    obtain ⟨⟩ := h
    exact .refl s

variable {gate : ServiceGateId}

theorem neutral_tryLockServiceGate :
    (protocol calls).Neutral t (tryLockServiceGate t gate).run := by
  refine neutral_agree fun s b s' h => ?_
  split_ifs at h
  · obtain ⟨⟩ := h
    exact ⟨rfl, rfl, rfl, rfl, rfl, rfl, rfl, rfl, rfl, rfl⟩
  · obtain ⟨⟩ := h
    exact .refl s

theorem neutral_unlockServiceGate : (protocol calls).Neutral t (unlockServiceGate gate) :=
  neutral_modify fun _ => ⟨rfl, rfl, rfl, rfl, rfl, rfl, rfl, rfl, rfl, rfl⟩

theorem neutral_tryAcquireServiceLimit :
    (protocol calls).Neutral t tryAcquireServiceLimit.run := by
  refine neutral_agree fun s b s' h => ?_
  split_ifs at h
  · obtain ⟨⟩ := h
    exact .refl s
  · obtain ⟨⟩ := h
    exact ⟨rfl, rfl, rfl, rfl, rfl, rfl, rfl, rfl, rfl, rfl⟩

theorem neutral_releaseServiceLimit : (protocol calls).Neutral t releaseServiceLimit :=
  neutral_modify fun _ => ⟨rfl, rfl, rfl, rfl, rfl, rfl, rfl, rfl, rfl, rfl⟩

theorem neutral_acquireServicePermits :
    (protocol calls).Neutral t (acquireServicePermits t gate).run :=
  neutral_tryLockServiceGate.andThen fun _ =>
    neutral_tryAcquireServiceLimit.onError neutral_unlockServiceGate

theorem neutral_releaseServicePermits : (protocol calls).Neutral t (releaseServicePermits gate) :=
  neutral_releaseServiceLimit.bind fun _ => neutral_unlockServiceGate

/-! ## Connections and inventories -/

variable {transport : TransportId} {session : HostSessionId}

/-- A connected slot of a host is the one it uses. -/
theorem SlotsOk.connectedBy (h : s.SlotsOk) (hslot : IsSlotOf slot host s)
    (hd : s.slots slot = some data)
    (hactive : Active session data) (htransport : data.transport = some transport) :
    s.ConnectedBy ⟨host, session, data.generation⟩ transport := by
  obtain ⟨data', hd', hid⟩ := hslot
  obtain rfl := Option.mem_unique hd hd'
  refine ⟨slot, data, ?_, hd, hactive.1, hactive.2.1, rfl, htransport⟩
  have hattached := h.attached slot data hd (by rw [hactive.1]; decide)
  rwa [hid] at hattached

variable {binding : AuthorityBinding}

theorem ConnectedBy.boundTo
    (h : s.ConnectedBy binding transport) : s.BoundTo binding.hostId binding := by
  obtain ⟨slot, data, hsession, hd, hstate, hconnection, hgeneration, _⟩ := h
  exact ⟨slot, data, hsession, hd, hstate, rfl, hconnection, hgeneration⟩

/-- A connection that has been seen is logged. -/
theorem step_bound (hi : Inv calls s)
    (h : s.ConnectedBy binding transport) : Inv calls (s.note (.bound t binding transport)) ∧
      ∀ j, Guarantee j s (s.note (.bound t binding transport)) := by
  obtain ⟨hi', hh⟩ := step_note (e := .bound t binding transport) hi h nofun trivial nofun nofun
  exact ⟨hi', hh.guarantee⟩

/-- The call has seen the connection of a slot. -/
def Claimed (t : TaskId) (slot : SlotId) (binding : AuthorityBinding) (transport : TransportId)
    (s : Application) : Prop :=
  IsSlotOf slot binding.hostId s ∧ [.bound t binding transport].Sublist s.log

theorem stable_claimed : (protocol calls).Stable t (Claimed t slot binding transport) :=
  stable_isSlotOf.and stable_logged

theorem unguarded_claimed : Unguarded calls t (Claimed t slot binding transport) :=
  ⟨stable_claimed, fun _ _ h => h⟩

/-- The connection of a slot is claimed: if it is active, that is logged. -/
theorem safeOr_claimConnection (hA : (protocol calls).Stable t A)
    (hs : A s) (hslot : IsSlotOf slot host s) : (protocol calls).SafeOr t
      (fun c s => A s ∧ Claimed t slot ⟨host, session, c.generation⟩ c.transport s) (fun _ => A)
      (slotSection slot (claimConnection t host session)) s := by
  refine safeOr_slotSection (hA.and stable_isSlotOf) ⟨hs, hslot⟩
    fun s₁ data r s₂ ⟨hs₁, hslot⟩ hi hd h => ?_
  unfold claimConnection at h
  split_ifs at h with hactive
  · cases htransport : data.transport with
    | none =>
      rw [htransport] at h
      obtain ⟨⟩ := h
      exact ⟨hi, .refl t _, hs₁⟩
    | some transport =>
      rw [htransport] at h
      obtain ⟨⟩ := h
      obtain ⟨hi', hg⟩ := step_bound (t := t) hi (hi.slots.connectedBy hslot hd hactive htransport)
      exact ⟨hi', hg t, hA _ _ (interferes_of hi hi' hg) hs₁, hslot, List.sublist_append_right ..⟩
  · obtain ⟨⟩ := h
    exact ⟨hi, .refl t _, hs₁⟩

variable {E : AppError → Application → Prop}

/-- The connection of a slot is checked again, and is still that of the binding. -/
theorem safeOr_recheckConnection {connection : Connection}
    {e : AppError} {Q : Unit → Application → Prop}
    (hA : (protocol calls).Stable t A) (hs : A s) (hslot : IsSlotOf slot binding.hostId s)
    (hQ : ∀ s, A s → s.BoundTo binding.hostId binding →
      Q () (s.note (.bound t binding connection.transport))) (hE : ∀ e s, A s → E e s) :
    (protocol calls).SafeOr t Q E
      (slotSection slot (recheckConnection t binding connection e)) s := by
  refine safeOr_slotSection (hA.and stable_isSlotOf) ⟨hs, hslot⟩
    fun s₁ data r s₂ ⟨hs₁, hslot⟩ hi hd h => ?_
  rw [recheckConnection] at h
  split_ifs at h with hstale
  · obtain ⟨⟩ := h
    exact ⟨hi, .refl t _, hE _ _ hs₁⟩
  · obtain ⟨⟩ := h
    push Not at hstale
    obtain ⟨_, _, hgeneration, hactive, htransport⟩ := hstale
    have hconnected := hi.slots.connectedBy hslot hd hactive htransport
    rw [hgeneration] at hconnected
    obtain ⟨hi', hg⟩ := step_bound (t := t) hi hconnected
    exact ⟨hi', hg t, hQ _ hs₁ hconnected.boundTo⟩

/-- An inventory is read, which is logged. -/
theorem safeOr_observeServices {Q : ServiceSnapshot → Application → Prop}
    (hA : (protocol calls).Stable t A) (hs : A s)
    (hQ : ∀ snapshot s, A s → Q snapshot (s.note (.read t transport snapshot)))
    (hE : ∀ e s, A s → E e s) :
    (protocol calls).SafeOr t Q E (observeServices t transport binding) s := by
  refine safeOr_bind.2 (safeOr_await (fun reply => ?_) fun e => hE e s hs)
  refine safeOr_act hA hs fun s₁ r s₂ hs₁ hi h => ?_
  obtain ⟨⟩ := h
  obtain ⟨hi', hh⟩ := step_note (e := .read t transport
    ⟨binding.hostId, binding.hostSessionId, reply.1, reply.2⟩) hi trivial nofun trivial nofun nofun
  exact ⟨hi', hh.guarantee t, hQ _ _ hs₁⟩

/-- An inventory is read that has the unit in the state the operation requires. -/
theorem safeOr_observeExact {preconditions : o.Preconditions} {Q : Unit → Application → Prop}
    (hA : (protocol calls).Stable t A) (hs : A s)
    (hQ : ∀ snapshot s, A s → snapshot.Shows o unit → Q () (s.note (.read t transport snapshot)))
    (hE : ∀ e s, A s → E e s) (hE' : ∀ e s event, A s → E e (s.note event)) :
    (protocol calls).SafeOr t Q E (observeExact o t transport binding unit preconditions) s := by
  refine safeOr_bind.2 (safeOr_observeServices hA hs (fun snapshot s₁ hs₁ => ?_) hE)
  exact safeOr_ensure (fun h => hQ snapshot s₁ hs₁ (shows_of_exactService h))
    fun _ => hE' _ _ _ hs₁

/-! ## `list_host_services` -/

/-- What a request for the services of a host has found before it reads them. -/
def Listed (t : TaskId) (host : HostId) (listing : Listing) (s : Application) : Prop :=
  listing.binding.hostId = host ∧
    Claimed t listing.slot listing.binding listing.connection.transport s

theorem lasting_listed (host : HostId) (listing : Listing) :
    Lasting calls t (Listed t host listing) :=
  ⟨fun s s' h ⟨hb, hclaimed⟩ => ⟨hb, stable_claimed s s' h hclaimed⟩, fun _ _ h => h⟩

theorem safeOr_beginListing :
    (protocol calls).SafeOr t (Listed t host) (fun _ _ => True) (beginListing t host session) s := by
  refine safeOr_withTryMutation lasting_true trivial (lasting_listed host) lasting_true
    (fun _ h => h) fun s₁ ⟨_, hm⟩ => ?_
  have hfail : ∀ (_ : AppError) (s : Application), s.mutation = some t → True ∧ s.mutation = some t :=
    fun _ _ h => ⟨trivial, h⟩
  refine SafeOr.bind ((neutral_repositoryGet.safeOr stable_mutation hm).mono (fun _ _ h => h) hfail)
    fun _ s₂ hs₂ => ?_
  refine SafeOr.bind ((safeOr_slotOf stable_mutation hs₂).mono (fun _ _ h => h) hfail)
    fun slot s₃ ⟨hm, _, hslot⟩ => ?_
  refine SafeOr.bind ((safeOr_claimConnection stable_mutation hm hslot).mono (fun _ _ h => h) hfail)
    fun connection s₄ hs₄ => ?_
  have hB : (protocol calls).Stable t fun s => s.mutation = some t ∧
      Claimed t slot ⟨host, session, connection.generation⟩ connection.transport s :=
    stable_mutation.and stable_claimed
  have hfail : ∀ (_ : AppError) (s : Application), s.mutation = some t ∧
      Claimed t slot ⟨host, session, connection.generation⟩ connection.transport s →
      True ∧ s.mutation = some t := fun _ _ h => ⟨trivial, h.1⟩
  have hrequest : (protocol calls).Neutral t
      (observationSection fun state => state.beginRequest host).run :=
    neutral_observationSection fun state host' set h => by
      rwa [sets_beginRequest] at h
  refine SafeOr.bind ((hrequest.safeOr hB hs₄).mono (fun _ _ h => h) hfail) fun sequence s₅ hs₅ => ?_
  refine SafeOr.bind ((neutral_serviceGate.safeOr hB hs₅).mono (fun _ _ h => h) hfail)
    fun gate s₆ hs₆ => ?_
  exact SafeOr.bind ((neutral_acquireServicePermits.safeOr hB hs₆).mono (fun _ _ h => h) hfail)
    fun _ s₇ hs₇ => ⟨⟨rfl, hs₇.2⟩, hs₇.1⟩

/-- The inventory that was read between two looks at the connection is published. -/
theorem step_publishSection {ids : Nat → ServiceObservationId} {order : List HostId}
    {instant : Instant} {sequence : Nat} {r : Except AppError ServiceSnapshot} (hi : Inv calls s)
    (hgood : Good t binding.hostId s) (hbound : s.BoundTo binding.hostId binding)
    (hlog : [.bound t binding transport, .read t transport snapshot,
      .bound t binding transport].Sublist s.log)
    (h : publishSection t ids order instant binding sequence snapshot s = some (r, s')) :
    Inv calls s' ∧ Guarantee t s s' ∧ Good t binding.hostId s' := by
  rw [publishSection] at h
  split_ifs at h
  cases hp : s.serviceObservations.publish ids order instant binding sequence snapshot with
  | mk result state =>
    rw [hp] at h
    rcases of_publish hp with ⟨rfl, rfl⟩ | ⟨published, observations, rfl, hshows, hnew,
      hold⟩
    · obtain ⟨⟩ := h
      exact ⟨hi, .refl t _, hgood⟩
    · dsimp only at h
      split_ifs at h with hfresh
      obtain ⟨⟩ := h
      have hobserved : Observed (s.log ++ [AppEvent.issued t binding observations]) binding observations :=
        ⟨t, transport, snapshot, hlog.append (List.Sublist.refl _), hshows⟩
      obtain ⟨hi', hg⟩ := step_publish hi hgood.gate hnew hold hfresh hobserved
      refine ⟨hi', hg, hgood.gate, hgood.good.pending, fun set hset => ?_⟩
      obtain ⟨set', hset', rfl, _⟩ := hnew
      obtain rfl := Option.mem_unique hset' hset
      exact hbound

theorem safeOr_publishServices {sequence : Nat}
    (hs : (Good t binding.hostId s ∧ Bound t binding s) ∧ [.bound t binding transport,
      .read t transport snapshot, .bound t binding transport].Sublist s.log) :
    (protocol calls).SafeOr t (fun _ => Good t binding.hostId) (fun _ => Good t binding.hostId)
      (publishServices t binding sequence snapshot) s := by
  have hA : (protocol calls).Stable t fun s => (Good t binding.hostId s ∧ Bound t binding s) ∧
      [.bound t binding transport, .read t transport snapshot,
        .bound t binding transport].Sublist s.log :=
    (stable_good.and stable_bound).and stable_logged
  refine SafeOr.bind (((neutral_lift neutral_read).safeOr hA hs).mono (fun _ _ h => h)
    fun _ _ h => h.1.1) fun instant s₁ hs₁ => ?_
  refine safeOr_bind.2 (safeOr_ask fun ids => safeOr_bind.2 (safeOr_ask fun order => ?_))
  refine safeOr_act hA hs₁ fun s₂ r s₃ ⟨⟨hgood, hbound⟩, hlog⟩ hi h => ?_
  obtain ⟨hi', hg, hgood⟩ := step_publishSection hi hgood hbound.bound hlog h
  refine ⟨hi', hg, ?_⟩
  cases r <;> exact hgood

theorem safeOr_listHostServices :
    (protocol calls).Conforms t (listHostServices t host session) s := by
  refine SafeOr.bind safeOr_beginListing fun listing s₁ hs₁ => ?_
  obtain rfl := hs₁.1
  have hread : ∀ snapshot : ServiceSnapshot, Unguarded calls t fun s =>
      IsSlotOf listing.slot listing.binding.hostId s ∧
        [.bound t listing.binding listing.connection.transport,
          .read t listing.connection.transport snapshot].Sublist s.log := fun _ =>
    unguarded_isSlotOf.and unguarded_logged
  refine SafeOr.bind (safeOr_always (Q := fun snapshot s =>
    IsSlotOf listing.slot listing.binding.hostId s ∧
      [.bound t listing.binding listing.connection.transport,
        .read t listing.connection.transport snapshot].Sublist s.log)
    (safeOr_observeServices (lasting_listed _ listing).stable hs₁
      (fun snapshot s ⟨_, hslot, hlog⟩ => ?_) fun _ s _ => ?_)) fun snapshot s₂ hs₂ => ?_
  · exact neutral_releaseServicePermits _ (hread snapshot).stable _
      ⟨hslot, hlog.append (List.Sublist.refl _)⟩
  · exact neutral_releaseServicePermits _ stable_true s trivial
  refine safeOr_withTryLifecycleGuard (hread snapshot) hs₂ (fun _ => unguarded_true)
    fun s₃ ⟨hslot, hlog⟩ hgood => ?_
  refine SafeOr.bind (safeOr_recheckConnection (stable_good.and stable_logged) ⟨hgood, hlog⟩ hslot
    (Q := fun _ s => (Good t listing.binding.hostId s ∧ Bound t listing.binding s) ∧
      [.bound t listing.binding listing.connection.transport,
        .read t listing.connection.transport snapshot,
        .bound t listing.binding listing.connection.transport].Sublist s.log)
    (fun s ⟨hgood, hlog⟩ hbound => ?_) fun _ _ h => h.1) fun _ s₄ hs₄ => ?_
  · exact ⟨⟨⟨hgood.gate, hgood.good.pending, hgood.good.observations⟩, hgood.gate, hbound⟩,
      hlog.append (List.Sublist.refl _)⟩
  · exact (safeOr_publishServices hs₄).mono (fun _ _ h => ⟨trivial, h⟩) fun _ _ h => h

/-! ## Plans -/

/-- The id has been published for the operation and the unit, with an inventory read over
    the transport. -/
structure Published (log : List AppEvent) (p : Provenance) (o : SystemdOperation)
    (binding : AuthorityBinding) (unit : SystemdServiceUnitName) : Prop where
  observation : p.observations.get p.observation = some ⟨o, unit⟩
  published : p.published.Shows o unit
  events : [.bound p.publisher binding p.transport, .read p.publisher p.transport p.published,
    .bound p.publisher binding p.transport, .issued p.publisher binding p.observations].Sublist log

variable {p : Provenance}

theorem Published.issued {log : List AppEvent} (h : Published log p o binding unit) :
    Issued log p.observation ⟨o, unit⟩ :=
  ⟨p.publisher, binding, p.observations, h.events.subset (by simp), h.observation⟩

theorem unguarded_published : Unguarded calls t fun s => Published s.log p o binding unit :=
  ⟨fun s s' h hs => { hs with events := stable_logged s s' h hs.events }, fun _ _ h => h⟩

/-- Two looks at a session were at the same connection. -/
theorem LogOk.transport_eq {sessionIds : Finset HostSessionId}
    {observationIds : Finset ServiceObservationId} {log : List AppEvent}
    (h : LogOk calls sessionIds observationIds log) {t' : TaskId}
    {transport transport' : TransportId} (hb : .bound t binding transport ∈ log)
    (hb' : .bound t' binding transport' ∈ log) : transport = transport' :=
  h.unique _ _ _ (h.bound _ _ _ hb) (h.bound _ _ _ hb')

/-- An observation is resolved to a unit it was published for. -/
theorem safeOr_resolveObservation {id : ServiceObservationId}
    {Q : SystemdServiceUnitName → Application → Prop} (hA : (protocol calls).Stable t A) (hs : A s)
    (hclaimed : ∀ s, A s → [.bound t binding transport].Sublist s.log)
    (hQ : ∀ unit s (p : Provenance), A s → LogOk calls s.sessionIds s.observationIds s.log →
      p.transport = transport → p.observation = id → Published s.log p o binding unit → Q unit s)
    (hE : ∀ e s, A s → E e s) :
    (protocol calls).SafeOr t Q E (resolveObservation o id binding) s := by
  refine safeOr_bind.2 (((neutral_lift neutral_read).safeOr hA hs).mono (fun instant s₁ hs₁ => ?_) hE)
  refine safeOr_act hA hs₁ fun s₂ r s₃ hs₂ hi h => ?_
  cases hresolve : resolveFor o s₂.serviceObservations id binding instant with
  | mk result state =>
    simp only [hresolve] at h
    obtain ⟨rfl, rfl⟩ := Proc.result_inj h
    obtain ⟨rfl, hok⟩ := of_resolveFor hresolve
    obtain ⟨hi', hh⟩ := step_observations hi fun host set
      (h : (s₂.serviceObservations.removeExpired instant).sets.get host = some set) =>
        get_removeExpired h
    have hs₃ := hA _ _ (interferes_of hi hi' hh.guarantee) hs₂
    refine ⟨hi', hh.guarantee t, ?_⟩
    cases result with
    | error e => exact hE e _ hs₃
    | ok unit =>
      obtain ⟨set, hset, -, rfl, hget⟩ := hok unit rfl
      obtain ⟨t', transport', snapshot, hevents, hshows⟩ := hi.observed _ set hset
      obtain rfl := hi.log.transport_eq (List.singleton_sublist.1 (hclaimed s₂ hs₂))
        (hevents.subset List.mem_cons_self)
      exact hQ unit _ ⟨t', t, transport, snapshot, set.entries, id, snapshot⟩ hs₃ hi'.log rfl rfl
        ⟨hget, hshows id _ hget, hevents⟩

/-- A second inventory has been read, and the unit is still in the required state. -/
structure Inspected (calls : TaskId → Call) (p : Provenance) (o : SystemdOperation)
    (binding : AuthorityBinding) (unit : SystemdServiceUnitName) (slot : SlotId) (s : Application) :
    Prop where
  slot : IsSlotOf slot binding.hostId s
  explained : p.Explains calls s.log o binding unit
  events : [.bound p.publisher binding p.transport, .read p.publisher p.transport p.published,
    .bound p.publisher binding p.transport, .issued p.publisher binding p.observations,
    .read p.planner p.transport p.inspected].Sublist s.log

theorem unguarded_inspected : Unguarded calls t (Inspected calls p o binding unit slot) := by
  refine ⟨fun s s' h hs => ?_, fun _ _ h => ⟨h.slot, h.explained, h.events⟩⟩
  exact ⟨stable_isSlotOf s s' h hs.slot,
    { hs.explained with claimed := stable_logged s s' h hs.explained.claimed },
    stable_logged s s' h hs.events⟩

/-- What has to be known to publish a plan. -/
structure Plannable (calls : TaskId → Call) (t : TaskId) (p : Provenance) {o : SystemdOperation}
    (draft : PlanDraft o) (s : Application) : Prop where
  good : Good t draft.binding.hostId s
  bound : Bound t draft.binding s
  explained : p.Explains calls s.log o draft.binding draft.target
  events : (p.events draft.binding).Sublist s.log

theorem stable_plannable {draft : PlanDraft o} :
    (protocol calls).Stable t (Plannable calls t p draft) := fun s s' h hs =>
  ⟨stable_good s s' h hs.good, stable_bound s s' h hs.bound,
    { hs.explained with claimed := stable_logged s s' h hs.explained.claimed },
    stable_logged s s' h hs.events⟩

/-- A plan is published for a guarded host, with what leads to it. -/
theorem safeOr_plan {draft : PlanDraft o} (hp : p.planner = t) (hs : Plannable calls t p draft s) :
    (protocol calls).SafeOr t (fun _ => Good t draft.binding.hostId)
      (fun _ => Good t draft.binding.hostId)
      (ExceptT.mk (plan t draft draft.binding)) s := by
  refine safe_read stable_plannable hs (Guarantee.refl t) fun s₁ hs₁ _ => ?_
  refine safe_ask fun id => safe_act (k := .ret) stable_plannable hs₁ fun s₂ r s₃ hs₂ hi h => ?_
  cases r with
  | error e =>
    obtain ⟨hi', hh⟩ := step_plan_error hi h
    exact ⟨hi', hh.guarantee t, stable_good _ _ (interferes_of hi hi' hh.guarantee) hs₂.good⟩
  | ok receipt =>
    obtain ⟨hi', hg, hgood⟩ := step_plan_ok hi hs₂.good.gate hs₂.explained hp hs₂.events h
    refine ⟨hi', hg, ?_, hgood _ hs₂.good.good hs₂.bound.bound⟩
    obtain ⟨state, _, rfl⟩ := planSection_eq_some h
    exact hs₂.good.gate

/-- The observation is resolved once more, to the same unit, and the plan is published. -/
theorem safeOr_planGuarded (p : Provenance) {connection : Connection} {e : AppError} {α : Type}
    {k : SystemdServiceUnitName → PlanReceipt → α} (hp : p.planner = t)
    (htransport : connection.transport = p.transport)
    (hs : Inspected calls p o binding unit slot s) (hgood : Good t binding.hostId s) :
    (protocol calls).SafeOr t (fun _ s => True ∧ Good t binding.hostId s)
      (fun _ => Good t binding.hostId) (do
        slotSection slot (recheckConnection t binding connection e)
        let unit ← resolveObservation o p.observation binding
        let receipt ← ExceptT.mk
          (plan t (⟨binding, unit, o.preconditions, ()⟩ : PlanDraft o) binding)
        return k unit receipt) s := by
  refine SafeOr.bind (R := fun _ => Plannable calls t p
    (⟨binding, unit, o.preconditions, ()⟩ : PlanDraft o))
    (safeOr_recheckConnection (stable_good.and unguarded_inspected.stable) ⟨hgood, hs⟩ hs.slot
      (fun s₁ ⟨hgood, hs₁⟩ hbound => ?_) fun _ _ h => h.1) fun _ s₂ hs₂ => ?_
  · rw [htransport, ← hp]
    refine ⟨⟨hp ▸ hgood.gate, hgood.good.pending, hgood.good.observations⟩, ⟨hp ▸ hgood.gate, hbound⟩,
      hs₁.explained.append, hs₁.events.append (List.Sublist.refl _)⟩
  have hclaimed : ∀ s, Plannable calls t p (⟨binding, unit, o.preconditions, ()⟩ : PlanDraft o) s →
      [.bound t binding p.transport].Sublist s.log := fun s hs => by
    rw [← hp]
    exact List.singleton_sublist.2 (hs.explained.claimed.subset List.mem_cons_self)
  refine safeOr_bind.2 (safeOr_resolveObservation stable_plannable hs₂ hclaimed
    (fun unit' s₃ p' hs₃ hlog _ hid hpublished => ?_) fun _ _ h => h.good)
  -- The id stands for one unit in all publications, so this is the one that was inspected.
  have hissued : Issued s₃.log p.observation ⟨o, unit⟩ :=
    ⟨p.publisher, binding, p.observations, hs₃.events.subset (by simp [Provenance.events]),
      hs₃.explained.observation⟩
  obtain rfl : unit = unit' := congrArg ActionableServiceObservation.unit
    (hlog.resolved _ _ _ hissued (hid ▸ hpublished.issued))
  exact SafeOr.bind (safeOr_plan hp hs₃) fun _ _ h => ⟨trivial, h⟩

theorem safeOr_planService {id : ServiceObservationId}
    (hcall : calls t = .planService o host session id) :
    (protocol calls).Conforms t (planService o t host session id) s := by
  have htrue : ∀ (A : Application → Prop) (_ : AppError) (s : Application), A s → True :=
    fun _ _ _ _ => trivial
  refine SafeOr.bind (neutral_repositoryGet.safeOr stable_true trivial) fun _ s₁ _ => ?_
  refine SafeOr.bind (safeOr_slotOf stable_true trivial) fun slot s₂ ⟨_, _, hslot⟩ => ?_
  refine SafeOr.bind (safeOr_claimConnection stable_true trivial hslot)
    fun ⟨transport, cancel, generation⟩ s₃ ⟨_, hs₃⟩ => ?_
  refine safeOr_bind.2 (safeOr_resolveObservation stable_claimed hs₃ (fun _ h => h.2)
    (fun unit s₄ p hclaimed _ htransport hid hpublished => ?_) (htrue _))
  obtain rfl := htransport
  obtain rfl := hid
  have hA : (protocol calls).Stable t fun s =>
      Claimed t slot ⟨host, session, generation⟩ p.transport s ∧
        Published s.log p o ⟨host, session, generation⟩ unit :=
    stable_claimed.and unguarded_published.stable
  refine SafeOr.bind ((neutral_serviceGate.safeOr hA ⟨hclaimed, hpublished⟩).mono (fun _ _ h => h)
    (htrue _)) fun gate s₅ hs₅ => ?_
  refine SafeOr.bind ((neutral_acquireServicePermits.safeOr hA hs₅).mono (fun _ _ h => h)
    (htrue _)) fun _ s₆ hs₆ => ?_
  refine SafeOr.bind (R := fun _ s => ∃ inspected, Inspected calls
    { p with planner := t, inspected := inspected } o ⟨host, session, generation⟩ unit slot s)
    (safeOr_always (safeOr_observeExact hA hs₆ (fun inspected s ⟨hclaimed, hpublished⟩ hshows => ?_)
      (fun _ s _ => ?_) fun _ s _ _ => ?_)) fun _ s₇ ⟨inspected, hs₇⟩ => ?_
  · refine Safe.mono (neutral_releaseServicePermits _ unguarded_inspected.stable _ ?_)
      fun _ s h => ⟨inspected, h⟩
    exact ⟨hclaimed.1, ⟨hcall, hpublished.observation, hpublished.published, hshows,
      hclaimed.2.append (List.Sublist.refl _)⟩, hpublished.events.append (List.Sublist.refl _)⟩
  · exact neutral_releaseServicePermits _ stable_true s trivial
  · exact neutral_releaseServicePermits _ stable_true _ trivial
  exact safeOr_withTryLifecycleGuard unguarded_inspected hs₇ (fun _ => unguarded_true)
    fun s₈ hs₈ hgood => safeOr_planGuarded { p with planner := t, inspected := inspected } rfl rfl hs₈
      hgood

theorem safeOr_discardService {id : RemoteOperationPlanId} :
    (protocol calls).Conforms t (discardService o t host session id) s := by
  refine safeOr_withTryLifecycleGuard unguarded_true trivial (fun _ => unguarded_true)
    fun s₁ _ hgood => ?_
  have hbody : (protocol calls).Neutral t (do
      let slot ← slotOf host
      let binding ← slotSection slot (activeBinding host session)
      ExceptT.mk (discard o id binding) : App Bool).run := by
    refine neutral_slotOf.andThen fun slot => (neutral_slotSection fun s data r s' hi _ h => ?_).andThen
      fun binding => neutral_read.bind fun instant => neutral_storeSection fun _ =>
        ⟨.discard o id binding instant _, rfl, rfl⟩
    rw [activeBinding] at h
    split_ifs at h
    · obtain ⟨⟩ := h
      exact ⟨hi, fun j => .refl j _⟩
    · obtain ⟨⟩ := h
      exact ⟨hi, fun j => .refl j _⟩
  exact (hbody.safeOr stable_good hgood).mono (fun _ _ h => ⟨trivial, h⟩) fun _ _ h => h

end Application

end NexusOps.Core
