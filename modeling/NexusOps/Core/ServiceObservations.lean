import NexusOps.Concurrency.Table
import NexusOps.Model.Services
import Mathlib.Algebra.BigOperators.Group.Finset.Defs
import Mathlib.Data.List.MinMax

/-!
# The service observation store

The published inventory of a host, reduced to what may be planned
(`ServiceObservationStore`): an id for each operation and each service in the
state it requires. There is one set of observations for each host, bound to the
session it was read in, which a later publication replaces.

The functions are those run under the lock of the store. Ids are drawn from a
supply, and the iteration order of a hash map is given.

* `ObservationState.of_publish`: what a publication stores;
* `ObservationState.of_resolve`: what an id is resolved to.
-/

namespace NexusOps.Core

open Concurrency RemoteOperations SystemdServiceUnitName

/-- How long observations can be used. -/
def SERVICE_OBSERVATION_TTL : Duration := .fromSecs 120

/-- The bound on the sets of observations. -/
def MAX_HOST_SETS : Nat := 64

/-- The bound on the observations of all hosts. -/
def MAX_ACTIONABLE_GLOBAL : Nat := 4096

/-- A unit that an operation may be planned for. The preconditions stored with it
    hold no data. -/
structure ActionableServiceObservation where
  operation : SystemdOperation
  unit : SystemdServiceUnitName
  deriving DecidableEq

/-- What may be planned, by id. -/
abbrev Observations := Table ServiceObservationId ActionableServiceObservation

/-- The observations of a host. -/
structure ObservationSet where
  binding : AuthorityBinding
  issuedAt : Instant
  expiresAt : Instant
  entries : Observations

/-- The state of the store. -/
structure ObservationState where
  sets : Table HostId ObservationSet
  newestRequest : Table HostId Nat
  sealed : Bool

/-- The store that nothing has been published to. -/
def ObservationState.default : ObservationState := ⟨.empty, .empty, false⟩

/-- The observation cannot be used any more. -/
def stale : AppError :=
  .new .conflict "The service observation is stale; refresh services and try again."

/-- The store is sealed. -/
def observationsShuttingDown : AppError :=
  .new .conflict "NexusOps is shutting down; service observations are unavailable."

/-! ## Issuing ids -/

/-- The state of a publication: the number of ids drawn, the entry at hand, and
    the observations so far. -/
structure Issuing where
  drawn : Nat
  entry : ServiceEntry
  observations : Observations

/-- Issues an id for the operation, if the entry is in the state it requires. -/
def issue (ids : Nat → ServiceObservationId) (unit : SystemdServiceUnitName) (acc : Issuing)
    (o : SystemdOperation) : Issuing :=
  if acc.entry.matches o o.preconditions then
    let id := ids acc.drawn
    { drawn := acc.drawn + 1
      entry := { acc.entry with
        observationIds := Function.update acc.entry.observationIds o (some id) }
      observations := acc.observations.insert id ⟨o, unit⟩ }
  else acc

/-- Issues the ids of an entry. An entry with an unsupported unit gets none. -/
def issueEntry (ids : Nat → ServiceObservationId) (drawn : Nat) (observations : Observations)
    (entry : ServiceEntry) : Issuing :=
  let start : Issuing := ⟨drawn, { entry with observationIds := fun _ => none }, observations⟩
  match parse entry.unit with
  | .error _ => start
  | .ok unit => [.resetFailed, .tryRestart, .reload, .start].foldl (issue ids unit) start

/-- Issues the ids of an inventory. -/
def issueAll (ids : Nat → ServiceObservationId) :
    Nat → Observations → List ServiceEntry → List ServiceEntry × Observations
  | _, observations, [] => ([], observations)
  | drawn, observations, entry :: rest =>
    let acc := issueEntry ids drawn observations entry
    let (rest, observations) := issueAll ids acc.drawn acc.observations rest
    (acc.entry :: rest, observations)

/-! ## Locked sections -/

namespace ObservationState

/-- Removes the sets that have expired. -/
def removeExpired (state : ObservationState) (now : Instant) : ObservationState :=
  { state with sets := state.sets.retain fun _ set => decide (now < set.expiresAt) }

/-- The number of stored observations. -/
def actionableCount (sets : Table HostId ObservationSet) : Nat :=
  sets.keys.sum fun host => ((sets.get host).map fun set => set.entries.keys.card).getD 0

/-- There is no room for a set of `n` observations. -/
def full (sets : Table HostId ObservationSet) (n : Nat) : Bool :=
  decide (MAX_HOST_SETS ≤ sets.keys.card) ||
    decide (MAX_ACTIONABLE_GLOBAL < saturatingAdd (actionableCount sets) n)

/-- The host of the oldest set, and the first one in the iteration order. -/
def oldest (order : List HostId) (sets : Table HostId ObservationSet) : Option HostId :=
  (order.filter fun host => (sets.get host).isSome).argmin fun host =>
    ((sets.get host).map ObservationSet.issuedAt).getD 0

/-- Removes the oldest sets until there is room for `n` observations. There are at
    most `fuel` sets. -/
def evict (order : List HostId) (n : Nat) :
    Nat → Table HostId ObservationSet → Table HostId ObservationSet
  | 0, sets => sets
  | fuel + 1, sets =>
    if full sets n then
      match oldest order sets with
      | none => sets
      | some host => evict order n fuel (sets.remove host)
    else sets

/-- The next sequence number of a host. -/
def nextRequest (state : ObservationState) (host : HostId) : Nat :=
  saturatingAdd ((state.newestRequest.get host).getD 0) 1

/-- Starts a request, which supersedes the earlier ones of the host. -/
def beginRequest (state : ObservationState) (host : HostId) :
    Except AppError Nat × ObservationState :=
  if state.sealed then (.error observationsShuttingDown, state)
  else
    let sequence := state.nextRequest host
    (.ok sequence, { state with newestRequest := state.newestRequest.insert host sequence })

/-- Publishes an inventory, unless a newer request has been started. `ids` are the
    ids it draws, and `order` is the iteration order of the sets. -/
def publish (ids : Nat → ServiceObservationId) (order : List HostId) (now : Instant)
    (binding : AuthorityBinding) (sequence : Nat) (snapshot : ServiceSnapshot)
    (state : ObservationState) : Except AppError (ServiceSnapshot × Observations) × ObservationState :=
  if snapshot.hostId ≠ binding.hostId ∨ snapshot.hostSessionId ≠ binding.hostSessionId ∨
      512 < snapshot.entries.length then
    (.error stale, state)
  else if state.sealed = true ∨ state.newestRequest.get binding.hostId ≠ some sequence then
    (.error stale, state)
  else
    let state := state.removeExpired now
    let sets := state.sets.remove binding.hostId
    let (entries, observations) := issueAll ids 0 .empty snapshot.entries
    let sets := evict order observations.keys.card sets.keys.card sets
    let set : ObservationSet := ⟨binding, now, now + SERVICE_OBSERVATION_TTL, observations⟩
    (.ok ({ snapshot with entries := entries }, observations),
      { state with sets := sets.insert binding.hostId set })

/-- What an id stands for, in the set bound to `expected`. -/
def resolve (state : ObservationState) (id : ServiceObservationId) (expected : AuthorityBinding)
    (now : Instant) : Except AppError ActionableServiceObservation × ObservationState :=
  let state := state.removeExpired now
  match state.sets.get expected.hostId with
  | none => (.error stale, state)
  | some set =>
    if set.binding ≠ expected then (.error stale, state)
    else match set.entries.get id with
      | none => (.error stale, state)
      | some observation => (.ok observation, state)

/-- The unit that the operation may be planned for under an id: `resolve_reset_failed`
    and so on. -/
def resolveFor (o : SystemdOperation) (state : ObservationState) (id : ServiceObservationId)
    (expected : AuthorityBinding) (now : Instant) :
    Except AppError SystemdServiceUnitName × ObservationState :=
  match state.resolve id expected now with
  | (.error e, state) => (.error e, state)
  | (.ok observation, state) =>
    if observation.operation = o then (.ok observation.unit, state) else (.error stale, state)

/-- Revokes the observations of a host, and its requests. -/
def revokeHost (state : ObservationState) (host : HostId) : ObservationState :=
  { state with
    sets := state.sets.remove host
    newestRequest := state.newestRequest.insert host (state.nextRequest host) }

/-- Revokes the observations of a session, and the requests of its host. -/
def revokeSession (state : ObservationState) (host : HostId) (session : HostSessionId) :
    ObservationState :=
  { state with
    sets := if (state.sets.get host).any fun set => decide (set.binding.hostSessionId = session)
      then state.sets.remove host else state.sets
    newestRequest := state.newestRequest.insert host (state.nextRequest host) }

/-- Revokes all observations, and seals the store. -/
def sealAndRevokeAll (_state : ObservationState) : ObservationState := ⟨.empty, .empty, true⟩

end ObservationState

/-! ## What is issued -/

variable {ids : Nat → ServiceObservationId} {id : ServiceObservationId}
  {observation : ActionableServiceObservation}

/-- An observation that a publication has issued for the entry. -/
def Allows (entry : ServiceEntry) (observation : ActionableServiceObservation) : Prop :=
  entry.unit = observation.unit.value ∧
    entry.matches observation.operation observation.operation.preconditions = true

variable {unit : SystemdServiceUnitName} {o : SystemdOperation} {acc : Issuing}

theorem issue_observations (h : (issue ids unit acc o).observations.get id = some observation) :
    acc.observations.get id = some observation ∨
      observation.unit = unit ∧ observation.operation = o ∧
        acc.entry.matches o o.preconditions = true := by
  rw [issue] at h
  split_ifs at h with hm
  · rw [Table.get_insert] at h
    split_ifs at h
    · obtain ⟨⟩ := h
      exact .inr ⟨rfl, rfl, hm⟩
    · exact .inl h
  · exact .inl h

theorem issue_matches {o o' : SystemdOperation} :
    (issue ids unit acc o).entry.matches o' o'.preconditions =
      acc.entry.matches o' o'.preconditions := by
  rw [issue]
  split_ifs
  · exact ServiceEntry.matches_observationIds ..
  · rfl

/-- The ids of an entry are issued for what it allows. -/
theorem foldl_issue_observations (os : List SystemdOperation)
    (h : (os.foldl (issue ids unit) acc).observations.get id = some observation) :
    acc.observations.get id = some observation ∨ observation.unit = unit ∧
      acc.entry.matches observation.operation observation.operation.preconditions = true := by
  induction os generalizing acc with
  | nil => exact .inl h
  | cons o os ih =>
    rcases ih h with h | ⟨hu, hm⟩
    · rcases issue_observations h with h | ⟨hu, rfl, hm⟩
      · exact .inl h
      · exact .inr ⟨hu, hm⟩
    · rw [issue_matches] at hm
      exact .inr ⟨hu, hm⟩

variable {observations : Observations} {drawn : Nat}

theorem issueEntry_observations {entry : ServiceEntry}
    (h : (issueEntry ids drawn observations entry).observations.get id = some observation) :
    observations.get id = some observation ∨ Allows entry observation := by
  rw [issueEntry] at h
  cases hparse : parse entry.unit with
  | error e =>
    rw [hparse] at h
    exact .inl h
  | ok unit =>
    rw [hparse] at h
    refine (foldl_issue_observations _ h).imp_right fun ⟨hu, hm⟩ => ⟨?_, ?_⟩
    · rw [hu, parse_eq_ok hparse]
    · rwa [ServiceEntry.matches_observationIds] at hm

/-- Every issued id is for an entry of the inventory. -/
theorem issueAll_observations (entries : List ServiceEntry)
    (h : (issueAll ids drawn observations entries).2.get id = some observation) :
    observations.get id = some observation ∨ ∃ entry ∈ entries, Allows entry observation := by
  induction entries generalizing drawn observations with
  | nil => exact .inl h
  | cons entry rest ih =>
    rcases ih h with h | ⟨entry', hmem, ha⟩
    · exact (issueEntry_observations h).imp_right fun ha => ⟨entry, List.mem_cons_self, ha⟩
    · exact .inr ⟨entry', List.mem_cons_of_mem _ hmem, ha⟩

/-- Issuing the ids for other operations does not affect that for `o`. -/
theorem foldl_issue_observationIds (os : List SystemdOperation) (h : o ∉ os) (acc : Issuing) :
    (os.foldl (issue ids unit) acc).entry.observationIds o = acc.entry.observationIds o := by
  induction os generalizing acc with
  | nil => rfl
  | cons o' os ih =>
    obtain ⟨hne, hos⟩ := not_or.1 (mt List.mem_cons.2 h)
    rw [List.foldl_cons, ih hos, issue]
    split_ifs
    · exact Function.update_of_ne hne ..
    · rfl

/-- The ids of an entry are noted in it. -/
theorem foldl_issue_noted (os : List SystemdOperation) (hos : os.Nodup)
    (h : (os.foldl (issue ids unit) acc).observations.get id = some observation) :
    acc.observations.get id = some observation ∨ observation.unit = unit ∧
      (os.foldl (issue ids unit) acc).entry.observationIds observation.operation = some id := by
  induction os generalizing acc with
  | nil => exact .inl h
  | cons o os ih =>
    obtain ⟨ho, hos⟩ := List.nodup_cons.1 hos
    rcases ih hos h with h | h
    · rw [List.foldl_cons, issue] at *
      split_ifs at h ⊢ with hm
      · rw [Table.get_insert] at h
        split_ifs at h with hid
        · obtain ⟨⟩ := h
          refine .inr ⟨rfl, ?_⟩
          rw [foldl_issue_observationIds os ho]
          exact (Function.update_self ..).trans (congrArg some hid.symm)
        · exact .inl h
      · exact .inl h
    · exact .inr h

theorem foldl_issue_unit (os : List SystemdOperation)
    (acc : Issuing) : (os.foldl (issue ids unit) acc).entry.unit = acc.entry.unit := by
  induction os generalizing acc with
  | nil => rfl
  | cons o os ih =>
    rw [List.foldl_cons, ih, issue]
    split_ifs
    · rfl
    · rfl

/-- The entry says that the operation may be planned for the unit, under the id. -/
def Notes (entry : ServiceEntry) (id : ServiceObservationId)
    (observation : ActionableServiceObservation) : Prop :=
  entry.unit = observation.unit.value ∧
    entry.observationIds observation.operation = some id

theorem issueEntry_noted {entry : ServiceEntry}
    (h : (issueEntry ids drawn observations entry).observations.get id = some observation) :
    observations.get id = some observation ∨
      Notes (issueEntry ids drawn observations entry).entry id observation := by
  rw [issueEntry] at *
  cases hparse : parse entry.unit with
  | error e =>
    rw [hparse] at h
    exact .inl h
  | ok unit =>
    rw [hparse] at h
    refine (foldl_issue_noted _ (by decide) h).imp_right fun ⟨hu, hid⟩ => ⟨?_, hid⟩
    rw [hu, parse_eq_ok hparse]
    exact foldl_issue_unit _ _

/-- Every issued id is noted in an entry of the inventory that is returned. -/
theorem issueAll_noted (entries : List ServiceEntry)
    (h : (issueAll ids drawn observations entries).2.get id = some observation) :
    observations.get id = some observation ∨
      ∃ entry ∈ (issueAll ids drawn observations entries).1, Notes entry id observation := by
  induction entries generalizing drawn observations with
  | nil => exact .inl h
  | cons entry rest ih =>
    rcases ih h with h | ⟨entry', hmem, hnotes⟩
    · exact (issueEntry_noted h).imp_right fun hnotes => ⟨_, List.mem_cons_self, hnotes⟩
    · exact .inr ⟨entry', List.mem_cons_of_mem _ hmem, hnotes⟩

namespace ObservationState

variable {state state' : ObservationState} {host : HostId} {set : ObservationSet} {now : Instant}

/-! ## What the sections do -/

theorem get_removeExpired (h : (state.removeExpired now).sets.get host = some set) :
    state.sets.get host = some set :=
  (Option.filter_eq_some_iff.1 h).1

variable {order : List HostId}

/-- Evictions only remove sets. -/
theorem get_evict {n : Nat} (fuel : Nat) {sets : Table HostId ObservationSet}
    (h : (evict order n fuel sets).get host = some set) : sets.get host = some set := by
  induction fuel generalizing sets with
  | zero => exact h
  | succ fuel ih =>
    rw [evict] at h
    split_ifs at h
    · cases hold : oldest order sets with
      | none => rwa [hold] at h
      | some host' =>
        rw [hold] at h
        exact (Table.get_of_get_remove (ih h)).2
    · exact h

theorem get_revokeHost {host' : HostId} (h : (state.revokeHost host').sets.get host = some set) :
    host ≠ host' ∧ state.sets.get host = some set :=
  Table.get_of_get_remove h

theorem get_revokeSession {host' : HostId} {session : HostSessionId}
    (h : (state.revokeSession host' session).sets.get host = some set) :
    state.sets.get host = some set ∧ (host = host' → set.binding.hostSessionId ≠ session) := by
  simp only [revokeSession] at h
  split_ifs at h with hany
  · obtain ⟨hne, hget⟩ := Table.get_of_get_remove h
    exact ⟨hget, fun heq => absurd heq hne⟩
  · refine ⟨h, fun heq hs => hany ?_⟩
    rw [← heq, h]
    exact decide_eq_true hs

/-- A request changes no set. -/
theorem sets_beginRequest : (state.beginRequest host).2.sets = state.sets := by
  rw [beginRequest]
  split_ifs <;> rfl

/-- What a publication needs, and what it stores. -/
theorem publish_eq_ok {binding : AuthorityBinding} {sequence : Nat}
    {snapshot snapshot' : ServiceSnapshot}
    (h : publish ids order now binding sequence snapshot state =
      (.ok (snapshot', observations), state')) :
    snapshot.hostId = binding.hostId ∧ snapshot.hostSessionId = binding.hostSessionId ∧
    state.sealed = false ∧ state.newestRequest.get binding.hostId = some sequence ∧
    snapshot' = { snapshot with entries := (issueAll ids 0 .empty snapshot.entries).1 } ∧
    observations = (issueAll ids 0 .empty snapshot.entries).2 ∧
    state'.sealed = state.sealed ∧ state'.newestRequest = state.newestRequest ∧
    state'.sets.get binding.hostId =
      some ⟨binding, now, now + SERVICE_OBSERVATION_TTL, observations⟩ ∧
    ∀ host set, host ≠ binding.hostId → state'.sets.get host = some set →
      state.sets.get host = some set := by
  rw [publish] at h
  split_ifs at h with hsnapshot hstate
  · nomatch (Prod.mk.inj h).1
  · nomatch (Prod.mk.inj h).1
  · obtain ⟨hok, rfl⟩ := Prod.mk.inj h
    obtain ⟨⟩ := hok
    rw [not_or, not_or, not_not, not_not] at hsnapshot
    rw [not_or, not_not, Bool.not_eq_true] at hstate
    refine ⟨hsnapshot.1, hsnapshot.2.1, hstate.1, hstate.2, rfl, rfl, rfl, rfl,
      Table.get_insert_self .., fun host set hne hget => ?_⟩
    rw [Table.get_insert_of_ne _ hne] at hget
    exact get_removeExpired (Table.get_of_get_remove (get_evict _ hget)).2

/-- A publication stores what the inventory shows, for the host it is bound to, and
    otherwise only removes sets. -/
theorem of_publish {binding : AuthorityBinding} {sequence : Nat}
    {snapshot : ServiceSnapshot} {r : Except AppError (ServiceSnapshot × Observations)}
    (h : publish ids order now binding sequence snapshot state = (r, state')) :
    r = .error stale ∧ state' = state ∨
      ∃ snapshot' observations, r = .ok (snapshot', observations) ∧
        (∀ id observation, observations.get id = some observation →
          snapshot.Shows observation.operation observation.unit) ∧
        (∃ set, state'.sets.get binding.hostId = some set ∧ set.binding = binding ∧
          set.entries = observations) ∧
        ∀ host set, host ≠ binding.hostId → state'.sets.get host = some set →
          state.sets.get host = some set := by
  cases r with
  | error e =>
    rw [publish] at h
    split_ifs at h
    · exact .inl ⟨(Prod.mk.inj h).1.symm, (Prod.mk.inj h).2.symm⟩
    · exact .inl ⟨(Prod.mk.inj h).1.symm, (Prod.mk.inj h).2.symm⟩
    · nomatch (Prod.mk.inj h).1
  | ok result =>
    obtain ⟨-, -, -, -, -, hobservations, -, -, hget, hothers⟩ := publish_eq_ok h
    refine .inr ⟨_, _, rfl, fun id observation ho => ?_, ⟨_, hget, rfl, rfl⟩, hothers⟩
    rw [hobservations] at ho
    exact (issueAll_observations _ ho).resolve_left (by simp)

variable {expected : AuthorityBinding}

/-- An id is resolved in the set bound to the expected session. -/
theorem of_resolve {r : Except AppError ActionableServiceObservation}
    (h : state.resolve id expected now = (r, state')) :
    state' = state.removeExpired now ∧ ∀ observation, r = .ok observation → ∃ set,
      state.sets.get expected.hostId = some set ∧ now < set.expiresAt ∧ set.binding = expected ∧
        set.entries.get id = some observation := by
  rw [resolve] at h
  split at h
  · obtain ⟨⟩ := h
    exact ⟨rfl, nofun⟩
  · next set hget =>
    split_ifs at h with hb
    · obtain ⟨⟩ := h
      exact ⟨rfl, nofun⟩
    · split at h
      · obtain ⟨⟩ := h
        exact ⟨rfl, nofun⟩
      · next observation hentry =>
        obtain ⟨⟩ := h
        refine ⟨rfl, fun observation' ho => ?_⟩
        obtain ⟨⟩ := ho
        exact ⟨set, get_removeExpired hget, of_decide_eq_true (Option.filter_eq_some_iff.1 hget).2,
          Decidable.not_not.1 hb, hentry⟩

/-- An id is resolved to a unit only for the operation it was issued for. -/
theorem of_resolveFor {r : Except AppError SystemdServiceUnitName}
    (h : resolveFor o state id expected now = (r, state')) :
    state' = state.removeExpired now ∧ ∀ unit, r = .ok unit → ∃ set,
      state.sets.get expected.hostId = some set ∧ now < set.expiresAt ∧ set.binding = expected ∧
        set.entries.get id = some ⟨o, unit⟩ := by
  rw [resolveFor] at h
  split at h
  · next hr =>
    obtain ⟨⟩ := h
    exact ⟨(of_resolve hr).1, nofun⟩
  · next observation state₁ hr =>
    obtain ⟨hstate, hok⟩ := of_resolve hr
    split_ifs at h with ho
    · obtain ⟨⟩ := h
      refine ⟨hstate, fun unit hu => ?_⟩
      obtain ⟨⟩ := hu
      obtain rfl := ho
      exact hok observation rfl
    · obtain ⟨⟩ := h
      exact ⟨hstate, nofun⟩

/-- What can be resolved is resolved. -/
theorem resolveFor_eq_ok (hget : state.sets.get expected.hostId = some set)
    (hlive : now < set.expiresAt) (hbinding : set.binding = expected)
    (hentry : set.entries.get id = some ⟨o, unit⟩) :
    resolveFor o state id expected now = (.ok unit, state.removeExpired now) := by
  have hkept : (state.removeExpired now).sets.get expected.hostId = some set :=
    Option.filter_eq_some_iff.2 ⟨hget, decide_eq_true hlive⟩
  have hresolve : state.resolve id expected now = (.ok ⟨o, unit⟩, state.removeExpired now) := by
    simp [resolve, hkept, hbinding, hentry]
  rw [resolveFor, hresolve]
  exact if_pos rfl

end ObservationState

end NexusOps.Core
