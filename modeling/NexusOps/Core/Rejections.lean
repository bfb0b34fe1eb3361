import NexusOps.Concurrency.Trace
import NexusOps.Core.ObservationHistory
import NexusOps.Core.Safety

/-!
# Requests that are turned down

A call that is turned down as the host is busy has already had effects. Here they are read off
the trace of the call, section by section.

* `connect_host` revokes what may be executed or planned on the host, and forgets its approved
  key change, before it looks whether the host is already connected
  (`connectHost_rejected_iff`).
* `list_host_services` supersedes the requests of the host before it tries the service gate and
  the service limit (`listHostServices_busy`), so a request that is reading meanwhile cannot be
  published any more.
-/

namespace NexusOps.Core.Application

open Concurrency RemoteOperations Proc Fallible Function RemoteOperationFoundation

variable {β : Type} {t : TaskId} {host : HostId} {s s' : Application}
  {ts : List (Application × Application)}

/-! ## Sections -/

variable {r : Except AppError β} {slot : SlotId}

theorem returns_slotSection
    {f : SessionData → Application → Option (Except AppError β × Application)} : Returns
    (slotSection slot f).run ts r ↔
      ∃ s data s', ts = [(s, s')] ∧ s.slots slot = some data ∧ f data s = some (r, s') := by
  refine returns_act'.trans ⟨?_, ?_⟩
  · rintro ⟨s, s', rfl, hf⟩
    obtain ⟨data, hdata, hf⟩ := Option.bind_eq_some_iff.1 hf
    exact ⟨s, data, s', rfl, hdata, hf⟩
  · rintro ⟨s, data, s', rfl, hdata, hf⟩
    exact ⟨s, s', rfl, Option.bind_eq_some_iff.2 ⟨data, hdata, hf⟩⟩

theorem returns_observationSection {f : ObservationState → Except AppError β × ObservationState} :
    Returns (observationSection f).run ts r ↔ ∃ s, r = (f s.serviceObservations).1 ∧
      ts = [(s, { s with serviceObservations := (f s.serviceObservations).2 })] := by
  refine returns_act'.trans ⟨?_, ?_⟩
  · rintro ⟨s, s', rfl, hf⟩
    obtain ⟨⟩ := hf
    exact ⟨s, rfl, rfl⟩
  · rintro ⟨s, rfl, rfl⟩
    exact ⟨s, _, rfl, rfl⟩

/-- The slot of a host that has one. -/
theorem of_returns_slotOf {r : Except AppError SlotId} (h : Returns (slotOf host).run ts r) :
    ∃ s slot s', ts = [(s, s')] ∧ r = .ok slot ∧
      ∀ slot', s.sessions host = some slot' → slot = slot' ∧ s' = s := by
  obtain ⟨fresh, h⟩ := returns_ask_andThen.1 h
  obtain ⟨cancel, h⟩ := returns_ask_andThen.1 h
  obtain ⟨s, s', rfl, hf⟩ := returns_act'.1 h
  refine ⟨s, ?_⟩
  cases hslot : s.sessions host with
  | some slot =>
    rw [hslot] at hf
    obtain ⟨⟩ := hf
    exact ⟨slot, s, rfl, rfl, fun slot' h => ⟨Option.some.inj h, rfl⟩⟩
  | none =>
    rw [hslot] at hf
    dsimp only at hf
    split_ifs at hf
    obtain ⟨⟩ := hf
    exact ⟨fresh, _, rfl, rfl, nofun⟩

theorem of_returns_repositoryGet {r : Except AppError StoredHost}
    (h : Returns (repositoryGet host).run ts r) : ∃ s, ts = [(s, s)] ∧
      ∀ e, r = .error e → e = repositoryFailure ∨ e = hostNotFound := by
  obtain ⟨fails, h⟩ := returns_ask_andThen.1 h
  obtain ⟨s, s', rfl, hf⟩ := returns_act'.1 h
  refine ⟨s, ?_⟩
  split_ifs at hf
  · obtain ⟨⟩ := hf
    exact ⟨rfl, fun e he => .inl (Except.error.inj he).symm⟩
  · cases hstored : s.repository host with
    | some stored =>
      rw [hstored] at hf
      obtain ⟨⟩ := hf
      exact ⟨rfl, nofun⟩
    | none =>
      rw [hstored] at hf
      obtain ⟨⟩ := hf
      exact ⟨rfl, fun e he => .inr (Except.error.inj he).symm⟩

/-! ## `connect_host` -/

/-- The host is connected, or is about to be connected or disconnected. -/
def BusySlot (data : SessionData) : Prop :=
  data.view.state = .connecting ∨ data.view.state = .connected ∨ data.view.state = .disconnecting

/-- What the revocations of `connect_host` leave. -/
def revoked (host : HostId) (s : Application) : Application :=
  { setStore s (s.remoteOperations.authorities.state.revokeHost host).2 with
    serviceObservations := s.serviceObservations.revokeHost host }

theorem returns_revokeHost {r : Except AppError Unit} (h : Returns (revokeHost host).run ts r)
    (hlinked : Linked s ts s') : r = .ok () ∧ s' = revoked host s := by
  rcases returns_andThen.1 h with ⟨e, -, h⟩ | ⟨_, ts₁, ts₂, rfl, h₁, h₂⟩
  · nomatch returns_lift.1 h
  obtain ⟨_, -, h₁⟩ := returns_lift.1 h₁
  obtain ⟨s₁, s₂, rfl, hf⟩ := returns_act.1 h₁
  obtain ⟨⟩ := hf
  obtain ⟨s₃, rfl, rfl⟩ := returns_observationSection.1 h₂
  obtain ⟨rfl, rfl, rfl⟩ := hlinked
  exact ⟨rfl, rfl⟩

/-- A section that runs under the metadata lock. -/
theorem of_returns_withMutation {body : App β}
    (h : Returns (withMutation t body).run ts r) (hlinked : Linked s ts s') :
    ∃ ts₁ s₁, Returns body.run ts₁ r ∧ Linked { s with mutation := some t } ts₁ s₁ ∧
      s' = { s₁ with mutation := none } := by
  rcases returns_andThen.1 h with ⟨e, -, h⟩ | ⟨_, ts₁, ts₂, rfl, h₁, h₂⟩
  · obtain ⟨s₁, s₂, -, hf⟩ := returns_act'.1 h
    split_ifs at hf
    nomatch (Proc.result_inj hf).1
  obtain ⟨s₁, s₂, rfl, hf⟩ := returns_act'.1 h₁
  split_ifs at hf
  obtain ⟨⟩ := hf
  obtain ⟨ts₃, ts₄, rfl, h₃, h₄⟩ := returns_always.1 h₂
  obtain ⟨s₃, rfl⟩ := returns_modify.1 h₄
  obtain ⟨rfl, hlinked⟩ := hlinked
  obtain ⟨s₄, hbody, rfl, rfl⟩ := (linked_append ts₃).1 hlinked
  exact ⟨ts₃, s₃, h₃, hbody, rfl⟩

/-- A section that runs under the lifecycle guard of a host. -/
theorem of_returns_withLifecycleGuard {body : App β}
    (h : Returns (withLifecycleGuard t host body).run ts r) (hlinked : Linked s ts s') :
    ∃ s₁ ts₁ s₂, lockGate s host (.lifecycle t) = some s₁ ∧
      Returns body.run ts₁ r ∧ Linked s₁ ts₁ s₂ ∧
      s' = unlockGate s₂ host := by
  rcases returns_andThen.1 h with ⟨e, -, h⟩ | ⟨_, ts₁, ts₂, rfl, h₁, h₂⟩
  · nomatch returns_lift.1 h
  obtain ⟨_, -, h₁⟩ := returns_lift.1 h₁
  obtain ⟨s₁, s₂, rfl, hf⟩ := returns_act.1 h₁
  obtain ⟨s₃, hlock, hs₃⟩ := Option.map_eq_some_iff.1 hf
  obtain ⟨-, rfl⟩ := Prod.mk.inj hs₃
  obtain ⟨ts₃, ts₄, rfl, h₃, h₄⟩ := returns_always.1 h₂
  obtain ⟨s₄, rfl⟩ := returns_modify.1 h₄
  obtain ⟨rfl, hlinked⟩ := hlinked
  obtain ⟨s₅, hbody, rfl, rfl⟩ := (linked_append ts₃).1 hlinked
  exact ⟨s₃, ts₃, s₄, hlock, h₃, hbody, rfl⟩

variable {data : SessionData}

/-- A busy slot is left as it is. -/
theorem beginConnect_of_busy {cancel : CancellationToken}
    (h : BusySlot data) : beginConnect t host slot cancel data s = some (.error alreadyConnected, s) :=
  if_pos h

/-- What is left when the host is busy: the plan, the observations and the approved key change
    of the host have been revoked, unless the host could not be read. -/
theorem of_returns_prepareConnect {r : Except AppError Attempt} (hslot : s.sessions host = some slot)
    (hdata : s.slots slot = some data) (hbusy : BusySlot data)
    (h : Returns (prepareConnect t host).run ts r) (hlinked : Linked s ts s') :
    r = .error repositoryFailure ∨ r = .error hostNotFound ∨
      r = .error alreadyConnected ∧ s' = { revoked host s with
        mutation := none
        rotationPlans := update s.rotationPlans host none } := by
  rcases returns_andThen.1 h with ⟨e, -, h⟩ | ⟨_, ts₁, ts₂, rfl, h₁, h₂⟩
  · rcases returns_andThen.1 h with ⟨e, -, h⟩ | ⟨_, ts₁, ts₂, rfl, -, h₂⟩
    · nomatch returns_lift.1 h
    · obtain ⟨_, hr, -⟩ := returns_observationSection.1 h₂
      nomatch hr
  obtain ⟨s₁, hlinked₁, hlinked⟩ := (linked_append ts₁).1 hlinked
  obtain ⟨-, rfl⟩ := returns_revokeHost h₁ hlinked₁
  obtain ⟨ts₃, s₃, h₃, hlinked₃, rfl⟩ := of_returns_withMutation h₂ hlinked
  rcases returns_andThen.1 h₃ with ⟨e, rfl, h₄⟩ | ⟨_, ts₄, ts₅, rfl, h₄, h₅⟩
  · obtain ⟨_, -, he⟩ := of_returns_repositoryGet h₄
    rcases he e rfl with rfl | rfl
    · exact .inl rfl
    · exact .inr (.inl rfl)
  refine .inr (.inr ?_)
  obtain ⟨_, rfl, -⟩ := of_returns_repositoryGet h₄
  obtain ⟨rfl, hlinked₃⟩ := hlinked₃
  rcases returns_andThen.1 h₅ with ⟨e, -, h⟩ | ⟨_, ts₆, ts₇, rfl, h₆, h₇⟩
  · obtain ⟨_, _, -, hf⟩ := returns_act'.1 h
    nomatch (Proc.result_inj hf).1
  obtain ⟨s₆, s₇, rfl, hf⟩ := returns_act'.1 h₆
  obtain ⟨⟩ := hf
  obtain ⟨rfl, hlinked₃⟩ := hlinked₃
  rcases returns_andThen.1 h₇ with ⟨e, -, h⟩ | ⟨slot', ts₈, ts₉, rfl, h₈, h₉⟩
  · obtain ⟨_, _, _, -, hr, -⟩ := of_returns_slotOf h
    nomatch hr
  obtain ⟨s₈, slot'', s₉, rfl, hr, hs₉⟩ := of_returns_slotOf h₈
  obtain ⟨rfl, hlinked₃⟩ := hlinked₃
  obtain ⟨rfl, rfl⟩ := hs₉ slot hslot
  obtain ⟨⟩ := hr
  obtain ⟨cancel, h₁₀⟩ := returns_ask_andThen.1 h₉
  obtain ⟨s₁₀, data', s₁₁, rfl, hdata', hf⟩ := returns_slotSection.1 h₁₀
  obtain ⟨rfl, rfl⟩ := hlinked₃
  obtain rfl : data = data' := Option.mem_unique hdata hdata'
  rw [beginConnect_of_busy hbusy] at hf
  obtain ⟨⟩ := hf
  exact ⟨rfl, rfl⟩

/-- What a call that is turned down as the host is busy leaves. -/
structure Revokes (host : HostId) (s s' : Application) : Prop where
  sessions : s'.sessions = s.sessions
  slots : s'.slots = s.slots
  authority : s'.remoteOperations.authorities.state =
    (s.remoteOperations.authorities.state.revokeHost host).2
  observations : s'.serviceObservations = s.serviceObservations.revokeHost host
  rotation : s'.rotationPlans = update s.rotationPlans host none

theorem of_returns_guardedConnect
    {r : Except AppError Attempt} (hslot : s.sessions host = some slot)
    (hdata : s.slots slot = some data) (hbusy : BusySlot data)
    (h : Returns (withLifecycleGuard t host (prepareConnect t host)).run ts r)
    (hlinked : Linked s ts s') : r = .error repositoryFailure ∨ r = .error hostNotFound ∨
      r = .error alreadyConnected ∧ Revokes host s s' := by
  obtain ⟨s₁, ts₁, s₂, hlock, hbody, hlinked₁, rfl⟩ := of_returns_withLifecycleGuard h hlinked
  obtain ⟨-, hs₁⟩ := lockGate_eq_some.1 hlock
  have hslot₁ : s₁.sessions host = some slot := by rw [hs₁]; exact hslot
  have hdata₁ : s₁.slots slot = some data := by rw [hs₁]; exact hdata
  refine (of_returns_prepareConnect hslot₁ hdata₁ hbusy hbody hlinked₁).imp_right
    (Or.imp_right fun ⟨hr, hs₂⟩ => ⟨hr, ?_⟩)
  rw [hs₂, hs₁]
  exact ⟨rfl, rfl, rfl, rfl, rfl⟩

/-- What a call may have done with a host is not to be seen: its slot, its pending plan, its
    observations and requests, and its approved key change are as they were. -/
structure Untouched (host : HostId) (s s' : Application) : Prop where
  slot : s'.sessions host = s.sessions host ∧
    ∀ slot, s.sessions host = some slot → s'.slots slot = s.slots slot
  authority : s'.remoteOperations.authorities.state = s.remoteOperations.authorities.state
  observations : s'.serviceObservations = s.serviceObservations
  rotation : s'.rotationPlans host = s.rotationPlans host

/-- There is nothing that `connect_host` could revoke: no plan, no observations, no approved key
    change, and the requests of the host cannot be superseded any more. -/
structure NothingToRevoke (host : HostId) (s : Application) : Prop where
  authority : s.remoteOperations.authorities.state.byHost.get host = none
  observations : s.serviceObservations.sets.get host = none
  requests : s.serviceObservations.newestRequest.get host = some (2 ^ 64 - 1)
  rotation : s.rotationPlans host = none

theorem revokeHost_eq_self_iff {state : StoreState SystemdOperation} :
    (state.revokeHost host).2 = state ↔ state.byHost.get host = none := by
  rw [StoreState.revokeHost]
  cases hid : state.byHost.get host with
  | none => exact iff_of_true rfl rfl
  | some id =>
    refine iff_of_false (fun h => ?_) (Option.some_ne_none id)
    have hremoved : (state.byHost.remove host).get host = none := Table.get_remove_self ..
    rw [show state.byHost.remove host = state.byHost from congrArg StoreState.byHost h, hid]
      at hremoved
    exact absurd hremoved (Option.some_ne_none id)

variable {state : ObservationState}

/-- Requests are superseded unless their numbers are used up. -/
theorem insert_nextRequest_eq_self_iff :
    state.newestRequest.insert host (state.nextRequest host) = state.newestRequest ↔
      state.newestRequest.get host = some (2 ^ 64 - 1) := by
  constructor
  · intro h
    have hnext : (state.newestRequest.insert host (state.nextRequest host)).get host =
      some (state.nextRequest host) := Table.get_insert_self ..
    rw [h] at hnext
    rw [hnext, ObservationState.nextRequest, hnext, Option.getD_some, saturatingAdd]
    have hself : state.nextRequest host = min (state.nextRequest host + 1) (2 ^ 64 - 1) := by
      conv_lhs => rw [ObservationState.nextRequest, hnext, Option.getD_some, saturatingAdd]
    rw [← hself]
    congr 1
    omega
  · intro h
    ext host' : 1
    rw [Table.get_insert]
    split_ifs with hhost
    · rw [hhost, h, ObservationState.nextRequest, h]
      rfl
    · rfl

theorem observations_revokeHost_eq_self_iff :
    state.revokeHost host = state ↔ state.sets.get host = none ∧
      state.newestRequest.get host = some (2 ^ 64 - 1) := by
  rw [← insert_nextRequest_eq_self_iff]
  constructor
  · intro h
    refine ⟨?_, congrArg ObservationState.newestRequest h⟩
    have hremoved : (state.sets.remove host).get host = none := Table.get_remove_self ..
    rwa [show state.sets.remove host = state.sets from congrArg ObservationState.sets h] at hremoved
  · rintro ⟨hsets, hrequests⟩
    rw [ObservationState.revokeHost, Table.remove_of_get_none hsets, hrequests]

/-- A call that is turned down as the host is connecting, connected or disconnecting leaves no
    trace if, and only if, there was nothing to revoke. -/
theorem connectHost_rejected_iff {slot : SlotId} {data : SessionData}
    (hslot : s.sessions host = some slot) (hdata : s.slots slot = some data)
    (hbusy : BusySlot data)
    (h : (connectHost t host).run.Alone s (.ret (.error alreadyConnected)) s') :
    Untouched host s s' ↔ NothingToRevoke host s := by
  obtain ⟨ts, h, hlinked⟩ := alone_iff.1 h
  have hrevokes : Revokes host s s' := by
    rcases returns_andThen.1 h with ⟨e, he, h₁⟩ | ⟨attempt, ts₁, ts₂, rfl, h₁, -⟩
    · obtain ⟨⟩ := he
      rcases of_returns_guardedConnect hslot hdata hbusy h₁ hlinked with hr | hr | ⟨-, hrevokes⟩
      · exact absurd (Except.error.inj hr) (by decide)
      · exact absurd (Except.error.inj hr) (by decide)
      · exact hrevokes
    · -- The call does not go on to the network.
      obtain ⟨s₁, hlinked₁, -⟩ := (linked_append ts₁).1 hlinked
      rcases of_returns_guardedConnect hslot hdata hbusy h₁ hlinked₁ with hr | hr | ⟨hr, -⟩
      · nomatch hr
      · nomatch hr
      · nomatch hr
  constructor
  · intro hsame
    obtain ⟨hsets, hrequests⟩ := observations_revokeHost_eq_self_iff.1
      (hrevokes.observations.symm.trans hsame.observations)
    refine ⟨revokeHost_eq_self_iff.1 (hrevokes.authority.symm.trans hsame.authority), hsets,
      hrequests, ?_⟩
    rw [← hsame.rotation, hrevokes.rotation, update_self]
  · intro hnothing
    refine ⟨⟨by rw [hrevokes.sessions], fun _ _ => by rw [hrevokes.slots]⟩, ?_, ?_, ?_⟩
    · rw [hrevokes.authority, revokeHost_eq_self_iff.2 hnothing.authority]
    · rw [hrevokes.observations]
      exact observations_revokeHost_eq_self_iff.2 ⟨hnothing.observations, hnothing.requests⟩
    · rw [hrevokes.rotation, update_self, hnothing.rotation]

/-- The slot of the host of a connection. -/
def connectedData : SessionData where
  view := ⟨⟨1⟩, some ⟨1⟩, .connected, none⟩
  generation := 1
  cancel := ⟨1⟩
  transport := some ⟨1⟩
  connectionId := some ⟨1⟩
  refreshing := false

/-- The host is connected, and the given observations have been made. -/
def connectedApp (observations : ObservationState) : Application :=
  { opened with
    tokens := {⟨1⟩}
    sessions := fun id => if id = ⟨1⟩ then some ⟨1⟩ else none
    slots := fun slot => if slot = ⟨1⟩ then some connectedData else none
    serviceObservations := observations
    sessionIds := {⟨1⟩} }

theorem alone_connectHost (observations : ObservationState) :
    ∃ s', (connectHost ⟨0⟩ ⟨1⟩).run.Alone (connectedApp observations)
      (.ret (.error alreadyConnected)) s' ∧
      s'.serviceObservations = observations.revokeHost ⟨1⟩ := by
  exact ⟨_, .act rfl (.act rfl (.act rfl (.act rfl (.answer false (.act rfl (.act rfl
    (.answer (⟨1⟩ : SlotId) (.answer (⟨1⟩ : CancellationToken) (.act rfl
      (.answer (⟨1⟩ : CancellationToken) (.act rfl (.act rfl (.act rfl .refl))))))))))))), rfl⟩

/-- The host is connected, and an inventory of it has been published. Another attempt to connect
    it is turned down, and the observations are gone. -/
theorem connectHost_rejected_revokes : ∃ s',
    (connectHost ⟨0⟩ ⟨1⟩).run.Alone (connectedApp ObservationStore.publication.2)
      (.ret (.error alreadyConnected)) s' ∧
    (ObservationStore.publication.2.sets.get ⟨1⟩).isSome ∧
    s'.serviceObservations.sets.get ⟨1⟩ = none ∧
    ¬Untouched ⟨1⟩ (connectedApp ObservationStore.publication.2) s' := by
  obtain ⟨s', h, hobservations⟩ := alone_connectHost ObservationStore.publication.2
  have hsome : (ObservationStore.publication.2.sets.get ⟨1⟩).isSome := by decide +kernel
  have hnone : s'.serviceObservations.sets.get ⟨1⟩ = none := by
    rw [hobservations]
    exact Table.get_remove_self ..
  refine ⟨s', h, hsome, hnone, fun hsame => ?_⟩
  rw [hsame.observations] at hnone
  have hsome : ((connectedApp ObservationStore.publication.2).serviceObservations.sets.get
    ⟨1⟩).isSome := hsome
  rw [hnone] at hsome
  nomatch hsome

/-- All request numbers of the host are used up. -/
def exhausted : ObservationState := ⟨.empty, Table.empty.insert ⟨1⟩ (2 ^ 64 - 1), false⟩

theorem connectHost_rejected_exhausted : ∃ s',
    (connectHost ⟨0⟩ ⟨1⟩).run.Alone (connectedApp exhausted) (.ret (.error alreadyConnected)) s' ∧
      Untouched ⟨1⟩ (connectedApp exhausted) s' := by
  obtain ⟨s', h, -⟩ := alone_connectHost exhausted
  have hslot : (connectedApp exhausted).sessions ⟨1⟩ = some ⟨1⟩ := rfl
  have hdata : (connectedApp exhausted).slots ⟨1⟩ = some connectedData := rfl
  refine ⟨s', h, (connectHost_rejected_iff hslot hdata (.inr (.inl rfl)) h).2 ⟨rfl, rfl, ?_, rfl⟩⟩
  exact Table.get_insert_self ..

/-! ## `list_host_services` -/

/-- The section leaves the observation store as it is. -/
def KeepsObservations (s s' : Application) : Prop := s'.serviceObservations = s.serviceObservations

theorem keeps_of_some {r r' : Except AppError β} {s₁ : Application}
    (hf : some (r, s₁) = some (r', s')) (h : KeepsObservations s s₁) : KeepsObservations s s' := by
  obtain ⟨⟩ := hf
  exact h

theorem keeps_act {f : Application → Option (Except AppError β × Application)}
    (h : ∀ s r s', f s = some (r, s') → KeepsObservations s s') :
    Within KeepsObservations (Fallible.act f).run := within_act h

theorem keeps_modify {f : Application → Application} (h : ∀ s, KeepsObservations s (f s)) :
    Within KeepsObservations (Proc.modify f) :=
  within_act fun s _ s' hf => by
    obtain ⟨⟩ := hf
    exact h s

theorem keeps_repositoryGet : Within KeepsObservations (repositoryGet host).run := by
  refine Protocol.Obeys.andThen (Protocol.obeys_lift Protocol.obeys_ask) fun fails => ?_
  refine keeps_act fun s r s' hf => ?_
  split_ifs at hf
  · exact keeps_of_some hf rfl
  · cases hstored : s.repository host with
    | some stored =>
      rw [hstored] at hf
      exact keeps_of_some hf rfl
    | none =>
      rw [hstored] at hf
      exact keeps_of_some hf rfl

theorem keeps_slotOf : Within KeepsObservations (slotOf host).run := by
  refine Protocol.Obeys.andThen (Protocol.obeys_lift Protocol.obeys_ask) fun slot => ?_
  refine Protocol.Obeys.andThen (Protocol.obeys_lift Protocol.obeys_ask) fun cancel => ?_
  refine keeps_act fun s r s' hf => ?_
  cases hslot : s.sessions host with
  | some slot =>
    rw [hslot] at hf
    exact keeps_of_some hf rfl
  | none =>
    rw [hslot] at hf
    dsimp only at hf
    split_ifs at hf
    exact keeps_of_some hf rfl

theorem keeps_serviceGate : Within KeepsObservations (serviceGate host).run := by
  refine Protocol.Obeys.andThen (Protocol.obeys_lift Protocol.obeys_ask) fun gate => ?_
  refine keeps_act fun s r s' hf => ?_
  cases hgate : s.serviceAdmission.gates host with
  | some gate =>
    rw [hgate] at hf
    exact keeps_of_some hf rfl
  | none =>
    rw [hgate] at hf
    dsimp only at hf
    split_ifs at hf
    exact keeps_of_some hf rfl

theorem keeps_acquireServicePermits {gate : ServiceGateId} :
    Within KeepsObservations (acquireServicePermits t gate).run := by
  refine Protocol.Obeys.andThen (keeps_act fun s r s' hf => ?_) fun _ =>
    Protocol.Obeys.onError (keeps_act fun s r s' hf => ?_) (keeps_modify fun s => rfl)
  · split_ifs at hf
    · exact keeps_of_some hf rfl
    · exact keeps_of_some hf rfl
  · split_ifs at hf
    · exact keeps_of_some hf rfl
    · exact keeps_of_some hf rfl

/-- What is claimed of a slot changes only the log, and it does not fail for being busy. -/
theorem of_claimConnection {session : HostSessionId}
    {r : Except AppError Connection} (h : claimConnection t host session data s = some (r, s')) :
    KeepsObservations s s' ∧ ∀ e, r = .error e → e = staleSession := by
  rw [claimConnection] at h
  split_ifs at h
  · cases htransport : data.transport with
    | none =>
      rw [htransport] at h
      obtain ⟨⟩ := h
      exact ⟨rfl, fun e he => (Except.error.inj he).symm⟩
    | some transport =>
      rw [htransport] at h
      obtain ⟨⟩ := h
      exact ⟨rfl, nofun⟩
  · obtain ⟨⟩ := h
    exact ⟨rfl, fun e he => (Except.error.inj he).symm⟩

/-- What a request does to the observation store when it is turned down. `s` is the store it
    finds and `s'` the one it leaves. -/
structure Supersedes (host : HostId) (s s' : ObservationState) : Prop where
  /-- What could be resolved still can. -/
  resolves : ∀ o id expected now, (s'.resolveFor o id expected now).1 =
    (s.resolveFor o id expected now).1
  /-- The store is only left as it was if the numbers of the requests are used up. -/
  unchanged_iff : s' = s ↔ s.newestRequest.get host = some (2 ^ 64 - 1)
  /-- An inventory of the host that could be published still can under the same condition
      only. -/
  publishes_iff : ∀ ids order now binding sequence snapshot result, binding.hostId = host →
    (s.publish ids order now binding sequence snapshot).1 = .ok result →
    ((s'.publish ids order now binding sequence snapshot).1 = .ok result ↔
      s.newestRequest.get host = some (2 ^ 64 - 1))

theorem resolve_eq_of_sets {state state' : ObservationState} (h : state'.sets = state.sets)
    (id : ServiceObservationId) (expected : AuthorityBinding) (now : Instant) :
    (state'.resolve id expected now).1 = (state.resolve id expected now).1 := by
  simp only [ObservationState.resolve, ObservationState.removeExpired, h]
  split
  · rfl
  · split_ifs
    · rfl
    · split <;> rfl

theorem resolveFor_fst {o : SystemdOperation}
    {id : ServiceObservationId} {expected : AuthorityBinding} {now : Instant} :
    (state.resolveFor o id expected now).1 = (state.resolve id expected now).1.bind fun observation =>
      if observation.operation = o then .ok observation.unit else .error stale := by
  rw [ObservationState.resolveFor]
  rcases state.resolve id expected now with ⟨e | observation, state'⟩
  · rfl
  · dsimp only [Except.bind]
    split_ifs <;> rfl

/-- Only the newest request can be published. -/
theorem newestRequest_of_publish {ids : Nat → ServiceObservationId}
    {order : List HostId} {now : Instant} {binding : AuthorityBinding} {sequence : Nat}
    {snapshot : ServiceSnapshot} {result : ServiceSnapshot × Observations}
    (h : (state.publish ids order now binding sequence snapshot).1 = .ok result) :
    state.newestRequest.get binding.hostId = some sequence := by
  obtain ⟨-, -, -, hnewest, -⟩ := ObservationState.publish_eq_ok (Prod.ext h rfl)
  exact hnewest

theorem supersedes_beginRequest (h : state.sealed = false) :
    Supersedes host state (state.beginRequest host).2 := by
  have hbegin : (state.beginRequest host).2 = { state with
      newestRequest := state.newestRequest.insert host (state.nextRequest host) } := by
    rw [ObservationState.beginRequest, h]
    rfl
  have hiff : (state.beginRequest host).2 = state ↔
      state.newestRequest.get host = some (2 ^ 64 - 1) := by
    rw [hbegin, ← insert_nextRequest_eq_self_iff]
    constructor
    · exact fun h => congrArg ObservationState.newestRequest h
    · intro h
      rw [h]
  refine ⟨fun o id expected now => ?_, hiff, fun ids order now binding sequence snapshot result
    hhost hok => ⟨fun hok' => ?_, fun hfull => ?_⟩⟩
  · rw [resolveFor_fst, resolveFor_fst, resolve_eq_of_sets ObservationState.sets_beginRequest]
  · -- Both publications have found their number to be the newest one.
    rw [← hiff, hbegin]
    have hold := newestRequest_of_publish hok
    have hnew := newestRequest_of_publish hok'
    rw [hhost] at hold hnew
    rw [hbegin] at hnew
    have hsame : state.newestRequest.insert host (state.nextRequest host) = state.newestRequest := by
      ext host' : 1
      by_cases hhost' : host' = host
      · rw [hhost', hold]
        exact hnew
      · exact Table.get_insert_of_ne _ hhost' _
    rw [hsame]
  · rw [hiff.2 hfull]
    exact hok

theorem of_beginRequest (host : HostId) (state : ObservationState) :
    (state.beginRequest host).1 = .error observationsShuttingDown ∨
      (∃ sequence, (state.beginRequest host).1 = .ok sequence) ∧
        Supersedes host state (state.beginRequest host).2 := by
  cases hsealed : state.sealed with
  | true =>
    rw [ObservationState.beginRequest, if_pos hsealed]
    exact .inl rfl
  | false =>
    refine .inr ⟨⟨state.nextRequest host, ?_⟩, supersedes_beginRequest hsealed⟩
    rw [ObservationState.beginRequest, hsealed]
    rfl

/-- The part of a request that finds the gate and the limit. -/
theorem keeps_serviceAdmission {k : ServiceGateId → Listing} :
    Within KeepsObservations (do
      let gate ← serviceGate host
      acquireServicePermits t gate
      return k gate : App Listing).run :=
  keeps_serviceGate.andThen fun _ => keeps_acquireServicePermits.andThen fun _ =>
    Protocol.obeys_pure

/-- A request that finds the metadata lock free, and is turned down as the service gate of the
    host or the service limit is taken, has superseded the requests of the host in one of its
    sections. The others leave the observation store as it is. -/
theorem listHostServices_busy {session : HostSessionId}
    (h : Returns (beginListing t host session).run ts (.error servicesBusy))
    (hfree : ∀ x ∈ ts.head?, x.1.mutation = none) :
    Returns (listHostServices t host session).run ts (.error servicesBusy) ∧
      ∃ ts₁ s s' ts₂, ts = ts₁ ++ (s, s') :: ts₂ ∧
        (∀ x ∈ ts₁ ++ ts₂, KeepsObservations x.1 x.2) ∧
        Supersedes host s.serviceObservations s'.serviceObservations := by
  refine ⟨returns_andThen.2 (.inl ⟨_, rfl, h⟩), ?_⟩
  rcases returns_andThen.1 h with ⟨e, he, hlock⟩ | ⟨_, ts₀, _, rfl, hlock, h₁⟩
  · -- The metadata lock was free.
    obtain ⟨s, s', rfl, hf⟩ := returns_act'.1 hlock
    rw [if_pos (hfree _ rfl)] at hf
    nomatch (Proc.result_inj hf).1
  have hkeep₀ := Trace.within hlock (keeps_act (fun s r s' hf => by
    split_ifs at hf
    · exact keeps_of_some hf rfl
    · exact keeps_of_some hf rfl))
  obtain ⟨_, ts₉, rfl, hbody, hrelease⟩ := returns_always.1 h₁
  have hkeep₉ := Trace.within hrelease (keeps_modify fun s => rfl)
  -- None of the sections before the request fails with this error.
  rcases returns_andThen.1 hbody with ⟨e, he, h₂⟩ | ⟨_, ts₁, _, rfl, h₂, h₃⟩
  · obtain ⟨_, -, hne⟩ := of_returns_repositoryGet h₂
    rcases hne _ rfl with rfl | rfl
    · exact absurd (Except.error.inj he) (by decide)
    · exact absurd (Except.error.inj he) (by decide)
  have hkeep₁ := Trace.within h₂ keeps_repositoryGet
  rcases returns_andThen.1 h₃ with ⟨e, -, h₄⟩ | ⟨slot, ts₂, _, rfl, h₄, h₅⟩
  · obtain ⟨_, _, _, -, hr, -⟩ := of_returns_slotOf h₄
    nomatch hr
  have hkeep₂ := Trace.within h₄ keeps_slotOf
  rcases returns_andThen.1 h₅ with ⟨e, he, h₆⟩ | ⟨connection, ts₃, _, rfl, h₆, h₇⟩
  · obtain ⟨_, _, _, -, -, hf⟩ := returns_slotSection.1 h₆
    obtain rfl := (of_claimConnection hf).2 e rfl
    exact absurd (Except.error.inj he) (by decide)
  obtain ⟨s₃, _, s₄, rfl, -, hf⟩ := returns_slotSection.1 h₆
  have hkeep₃ := (of_claimConnection hf).1
  rcases returns_andThen.1 h₇ with ⟨e, he, h₈⟩ | ⟨sequence, ts₅, ts₆, rfl, h₈, h₉⟩
  · obtain ⟨s₅, hr, -⟩ := returns_observationSection.1 h₈
    rcases of_beginRequest host s₅.serviceObservations with hdown | ⟨⟨_, hok⟩, -⟩
    · rw [hdown] at hr
      exact absurd ((Except.error.inj he).trans (Except.error.inj hr)) (by decide)
    · nomatch hr.trans hok
  obtain ⟨s₅, hr, rfl⟩ := returns_observationSection.1 h₈
  have hkeep₆ := Trace.within h₉ keeps_serviceAdmission
  rcases of_beginRequest host s₅.serviceObservations with hdown | ⟨-, hsupersedes⟩
  · nomatch hr.trans hdown
  refine ⟨ts₀ ++ (ts₁ ++ (ts₂ ++ [(s₃, s₄)])), s₅, { s₅ with
    serviceObservations := (s₅.serviceObservations.beginRequest host).2 }, ts₆ ++ ts₉, by simp, ?_,
    hsupersedes⟩
  simp only [List.forall_mem_append, List.forall_mem_singleton]
  exact ⟨⟨hkeep₀, hkeep₁, hkeep₂, hkeep₃⟩, hkeep₆, hkeep₉⟩

/-- Two requests for the services of a connected host. The first one is reading when the second
    one is turned down, and then fails as stale. It would have succeeded without the other. -/
theorem listHostServices_busy_stale : ∃ reading s₁ s₂ s₃,
    (listHostServices ⟨1⟩ ⟨1⟩ ⟨1⟩).run.Alone (connectedApp .default) reading s₁ ∧
    (listHostServices ⟨2⟩ ⟨1⟩ ⟨1⟩).run.Alone s₁ (.ret (.error servicesBusy)) s₂ ∧
    reading.Alone s₂ (.ret (.error stale)) s₃ ∧
    ∃ snapshot s₄, reading.Alone s₁ (.ret (.ok snapshot)) s₄ :=
  ⟨_, _, _, _,
    .act rfl (.answer false (.act rfl (.answer (⟨1⟩ : SlotId) (.answer (⟨1⟩ : CancellationToken)
      (.act rfl (.act rfl (.act rfl (.answer (⟨1⟩ : ServiceGateId) (.act rfl (.act rfl (.act rfl
        (.act rfl .refl)))))))))))),
    .act rfl (.answer false (.act rfl (.answer (⟨1⟩ : SlotId) (.answer (⟨1⟩ : CancellationToken)
      (.act rfl (.act rfl (.act rfl (.answer (⟨1⟩ : ServiceGateId) (.act rfl (.act rfl (.act rfl
        .refl))))))))))),
    .answer inventory (.act rfl (.act rfl (.act rfl (.act rfl (.act rfl (.act rfl
      (.answer (fun n => ⟨n⟩ : Nat → ServiceObservationId) (.answer ([] : List HostId) (.act rfl
        (.act rfl .refl)))))))))),
    _, _, .answer inventory (.act rfl (.act rfl (.act rfl (.act rfl (.act rfl (.act rfl
      (.answer (fun n => ⟨n⟩ : Nat → ServiceObservationId) (.answer ([] : List HostId) (.act rfl
        (.act rfl .refl))))))))))⟩

/-- The host is connected, and its services are being read. -/
def readingApp : Application :=
  { connectedApp .default with
    serviceAdmission := ⟨fun _ => some ⟨1⟩, {⟨1⟩}, fun _ => some ⟨1⟩, 3⟩ }

theorem listHostServices_busy_reading : ∃ ts,
    Returns (listHostServices ⟨2⟩ ⟨1⟩ ⟨1⟩).run ts (.error servicesBusy) ∧
      ∃ ts₁ s s' ts₂, ts = ts₁ ++ (s, s') :: ts₂ ∧
        (∀ x ∈ ts₁ ++ ts₂, KeepsObservations x.1 x.2) ∧
        Supersedes ⟨1⟩ s.serviceObservations s'.serviceObservations := by
  obtain ⟨ts, s', h, hfree⟩ : ∃ ts s', Returns (beginListing ⟨2⟩ ⟨1⟩ ⟨1⟩).run
      ((readingApp, s') :: ts) (.error servicesBusy) ∧ readingApp.mutation = none :=
    ⟨_, _, .act rfl (.answer false (.act (s := readingApp) rfl (.answer (⟨1⟩ : SlotId)
      (.answer (⟨1⟩ : CancellationToken) (.act (s := readingApp) rfl (.act (s := readingApp) rfl
        (.act (s := readingApp) rfl (.answer (⟨1⟩ : ServiceGateId) (.act (s := readingApp) rfl
          (.act (s := readingApp) rfl (.act (s := readingApp) rfl .nil))))))))))), rfl⟩
  exact ⟨_, listHostServices_busy h fun x hx => Option.some.inj hx ▸ hfree⟩

end NexusOps.Core.Application
