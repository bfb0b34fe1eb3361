import NexusOps.Core.ObservationHistory
import Mathlib.Algebra.BigOperators.Group.Finset.Basic
import Mathlib.Algebra.Order.BigOperators.Group.Finset
import Mathlib.Data.List.Pairwise

/-!
# Bounds of the service observation store

A publication makes room for what it stores: it removes the oldest set until there are fewer
than `MAX_HOST_SETS` sets, and no more than `MAX_ACTIONABLE_GLOBAL` observations with the new
ones. `Evicts` is a run of that loop, one removal after the other, from a store without room to
one that has it; it leaves the loop by its condition. The loop comes to its end as the
observations of one inventory always have room in an empty store (`card_issueAll_le`).

The sets are iterated over in the order of a hash map, which lists them all. `enumerated` is the
store with such orders only, and `bounded_of_run` are its bounds.
-/

namespace NexusOps.Core

open Concurrency RemoteOperations Function

/-! ## The observations of an inventory -/

variable {ids : Nat → ServiceObservationId} {id : ServiceObservationId}

theorem Observations.card_insert_le (observations : Observations) (id : ServiceObservationId)
    (observation : ActionableServiceObservation) :
    (observations.insert id observation).keys.card ≤ observations.keys.card + 1 :=
  Finset.card_insert_le id observations.keys

variable {unit : SystemdServiceUnitName} {o : SystemdOperation} {acc : Issuing}

theorem card_issue_le :
    (issue ids unit acc o).observations.keys.card ≤ acc.observations.keys.card + 1 := by
  rw [issue]
  split_ifs
  · exact Observations.card_insert_le ..
  · exact Nat.le_succ _

theorem card_foldl_issue_le (os : List SystemdOperation)
    (acc : Issuing) : (os.foldl (issue ids unit) acc).observations.keys.card ≤
      acc.observations.keys.card + os.length := by
  induction os generalizing acc with
  | nil => exact le_rfl
  | cons o os ih =>
    have hrest := ih (issue ids unit acc o)
    have hone : (issue ids unit acc o).observations.keys.card ≤ _ := card_issue_le
    rw [List.foldl_cons, List.length_cons]
    omega

variable {observations : Observations} {drawn : Nat} {entry : ServiceEntry}

/-- There are four operations that an entry can be observed for. -/
theorem card_issueEntry_le : (issueEntry ids drawn observations entry).observations.keys.card ≤
      observations.keys.card + 4 := by
  rw [issueEntry]
  cases SystemdServiceUnitName.parse entry.unit with
  | error e => exact Nat.le_add_right ..
  | ok unit => exact card_foldl_issue_le _ _

theorem card_issueAll_le
    (entries : List ServiceEntry) : (issueAll ids drawn observations entries).2.keys.card ≤
      observations.keys.card + 4 * entries.length := by
  induction entries generalizing drawn observations with
  | nil => exact le_rfl
  | cons entry rest ih =>
    have hentry : (issueEntry ids drawn observations entry).observations.keys.card ≤ _ :=
      card_issueEntry_le
    have hrest : (issueAll ids drawn observations (entry :: rest)).2.keys.card ≤
        (issueEntry ids drawn observations entry).observations.keys.card + 4 * rest.length := ih
    rw [List.length_cons]
    omega

/-! Every id that is returned is stored. -/

/-- Issuing further ids keeps those there are. -/
theorem keys_subset_issue : acc.observations.keys ⊆ (issue ids unit acc o).observations.keys := by
  rw [issue]
  split_ifs
  · exact Finset.subset_insert ..
  · exact subset_rfl

theorem mem_keys_issue {o o' : SystemdOperation}
    (hacc : ∀ o id, acc.entry.observationIds o = some id → id ∈ acc.observations.keys)
    (h : (issue ids unit acc o).entry.observationIds o' = some id) :
    id ∈ (issue ids unit acc o).observations.keys := by
  rw [issue] at *
  split_ifs at h ⊢
  · by_cases ho : o' = o
    · subst ho
      have hid : update acc.entry.observationIds o' (some (ids acc.drawn)) o' = some id := h
      rw [update_self] at hid
      exact Finset.mem_insert.2 (.inl (Option.some.inj hid).symm)
    · have hold : update acc.entry.observationIds o (some (ids acc.drawn)) o' = some id := h
      rw [update_of_ne ho] at hold
      exact Finset.mem_insert_of_mem (hacc o' id hold)
  · exact hacc o' id h

theorem mem_keys_foldl_issue (os : List SystemdOperation)
    (hacc : ∀ o id, acc.entry.observationIds o = some id → id ∈ acc.observations.keys)
    (h : (os.foldl (issue ids unit) acc).entry.observationIds o = some id) :
    id ∈ (os.foldl (issue ids unit) acc).observations.keys := by
  induction os generalizing acc with
  | nil => exact hacc o id h
  | cons o' os ih => exact ih (fun _ _ => mem_keys_issue hacc) h

theorem keys_subset_foldl_issue (os : List SystemdOperation) :
    acc.observations.keys ⊆ (os.foldl (issue ids unit) acc).observations.keys := by
  induction os generalizing acc with
  | nil => exact subset_rfl
  | cons o os ih => exact keys_subset_issue.trans ih

theorem keys_subset_issueEntry :
    observations.keys ⊆ (issueEntry ids drawn observations entry).observations.keys := by
  rw [issueEntry]
  cases SystemdServiceUnitName.parse entry.unit with
  | error e => exact subset_rfl
  | ok unit =>
    exact fun id hid => keys_subset_foldl_issue _ hid

theorem mem_keys_issueEntry
    (h : (issueEntry ids drawn observations entry).entry.observationIds o = some id) :
    id ∈ (issueEntry ids drawn observations entry).observations.keys := by
  rw [issueEntry] at *
  cases hparse : SystemdServiceUnitName.parse entry.unit with
  | error e =>
    rw [hparse] at h
    cases h
  | ok unit =>
    rw [hparse] at h
    exact mem_keys_foldl_issue _ (fun _ _ h => by cases h) h

theorem keys_subset_issueAll (entries : List ServiceEntry) :
    observations.keys ⊆ (issueAll ids drawn observations entries).2.keys := by
  induction entries generalizing drawn observations with
  | nil => exact subset_rfl
  | cons entry rest ih => exact keys_subset_issueEntry.trans ih

theorem mem_keys_issueAll (entries : List ServiceEntry)
    (hentry : entry ∈ (issueAll ids drawn observations entries).1)
    (h : entry.observationIds o = some id) :
    id ∈ (issueAll ids drawn observations entries).2.keys := by
  induction entries generalizing drawn observations with
  | nil => exact absurd hentry List.not_mem_nil
  | cons first rest ih =>
    rcases List.mem_cons.1 hentry with rfl | hentry
    · exact keys_subset_issueAll rest (mem_keys_issueEntry h)
    · exact ih hentry

namespace ObservationState

/-! ## The loop -/

variable {sets sets' : Table HostId ObservationSet} {host : HostId} {set : ObservationSet} {n : Nat}
  {hosts : List HostId}

/-- The bounds hold once a set of `n` observations has been added. -/
def Room (sets : Table HostId ObservationSet) (n : Nat) : Prop :=
  sets.keys.card + 1 ≤ MAX_HOST_SETS ∧ actionableCount sets + n ≤ MAX_ACTIONABLE_GLOBAL

theorem full_eq_false_iff : full sets n = false ↔ Room sets n := by
  rw [full, Bool.or_eq_false_iff, decide_eq_false_iff_not, decide_eq_false_iff_not, Room,
    saturatingAdd, MAX_HOST_SETS, MAX_ACTIONABLE_GLOBAL]
  omega

/-- A run of the loop that makes room for `n` observations: the hosts whose sets are removed, in
    this order. -/
inductive Evicts (n : Nat) :
    Table HostId ObservationSet → List HostId → Table HostId ObservationSet → Prop
  /-- Nothing is removed where there is room. -/
  | done {sets : Table HostId ObservationSet} : Room sets n → Evicts n sets [] sets
  /-- Where there is none, an oldest set is removed. -/
  | remove {sets sets' : Table HostId ObservationSet} {host : HostId} {hosts : List HostId}
      {set : ObservationSet} : ¬Room sets n → sets.get host = some set →
      (∀ host' set', sets.get host' = some set' → set.issuedAt ≤ set'.issuedAt) →
      Evicts n (sets.remove host) hosts sets' → Evicts n sets (host :: hosts) sets'

theorem Evicts.room (h : Evicts n sets hosts sets') : Room sets' n := by
  induction h with
  | done hroom => exact hroom
  | remove _ _ _ _ ih => exact ih

theorem Evicts.get (h : Evicts n sets hosts sets') (hget : sets'.get host = some set) :
    sets.get host = some set := by
  induction h with
  | done => exact hget
  | remove _ _ _ _ ih => exact (Table.get_of_get_remove (ih hget)).2

/-- What is removed was stored. -/
theorem Evicts.mem (h : Evicts n sets hosts sets') (hmem : host ∈ hosts) :
    ∃ set, sets.get host = some set := by
  induction h with
  | done => exact absurd hmem List.not_mem_nil
  | remove _ hget _ _ ih =>
    rcases List.mem_cons.1 hmem with rfl | hmem
    · exact ⟨_, hget⟩
    · obtain ⟨set, hset⟩ := ih hmem
      exact ⟨set, (Table.get_of_get_remove hset).2⟩

/-- The set of `host` was issued no later than that of `host'`. -/
def NoLater (sets : Table HostId ObservationSet) (host host' : HostId) : Prop :=
  ∃ set set', sets.get host = some set ∧ sets.get host' = some set' ∧
    set.issuedAt ≤ set'.issuedAt

/-- The sets are removed in the order they were issued in. -/
theorem Evicts.pairwise (h : Evicts n sets hosts sets') : hosts.Pairwise (NoLater sets) := by
  induction h with
  | done => exact .nil
  | remove _ hget holdest hrest ih =>
    refine .cons (fun host' hmem => ?_) (ih.imp ?_)
    · obtain ⟨set', hset'⟩ := hrest.mem hmem
      have hset' := (Table.get_of_get_remove hset').2
      exact ⟨_, set', hget, hset', holdest host' set' hset'⟩
    · rintro host₁ host₂ ⟨set₁, set₂, h₁, h₂, hle⟩
      exact ⟨set₁, set₂, (Table.get_of_get_remove h₁).2, (Table.get_of_get_remove h₂).2, hle⟩

/-- The order lists every set. -/
def Enumerates (order : List HostId) (sets : Table HostId ObservationSet) : Prop :=
  ∀ host set, sets.get host = some set → host ∈ order

variable {order : List HostId}

theorem Enumerates.mono (h : Enumerates order sets)
    (hsub : ∀ host set, sets'.get host = some set → sets.get host = some set) :
    Enumerates order sets' := fun host set hget => h host set (hsub host set hget)

/-- What is found is an oldest set. -/
theorem of_oldest (horder : Enumerates order sets)
    (h : oldest order sets = some host) : ∃ set, sets.get host = some set ∧
      ∀ host' set', sets.get host' = some set' → set.issuedAt ≤ set'.issuedAt := by
  obtain ⟨hmem, hmin, -⟩ := List.argmin_eq_some_iff.1 h
  obtain ⟨set, hget⟩ := Option.isSome_iff_exists.1 (List.mem_filter.1 hmem).2
  refine ⟨set, hget, fun host' set' hget' => ?_⟩
  have hle := hmin host' (List.mem_filter.2 ⟨horder host' set' hget', by rw [hget']; rfl⟩)
  rwa [hget, hget'] at hle

/-- There is an oldest set unless there is none. -/
theorem exists_oldest (horder : Enumerates order sets)
    (hget : sets.get host = some set) : ∃ host', oldest order sets = some host' := by
  rw [← Option.ne_none_iff_exists']
  intro hnone
  have hfilter := List.filter_eq_nil_iff.1 (List.argmin_eq_none.1 hnone) host (horder host set hget)
  rw [hget] at hfilter
  exact hfilter rfl

/-- An inventory has room in a store that is empty. -/
theorem room_of_keys_eq_empty (h : sets.keys = ∅) (hn : n ≤ MAX_ACTIONABLE_GLOBAL) :
    Room sets n := by
  rw [Room, actionableCount, h, Finset.card_empty, Finset.sum_empty, MAX_HOST_SETS]
  omega

/-- The loop ends with room for the observations, and needs no more turns than there are
    sets. -/
theorem evicts_evict (fuel : Nat) (hn : n ≤ MAX_ACTIONABLE_GLOBAL)
    (horder : Enumerates order sets) (hfuel : sets.keys.card ≤ fuel) :
    ∃ hosts, Evicts n sets hosts (evict order n fuel sets) := by
  induction fuel generalizing sets with
  | zero =>
    have hempty := Finset.card_eq_zero.1 (Nat.le_zero.1 hfuel)
    exact ⟨[], .done (room_of_keys_eq_empty hempty hn)⟩
  | succ fuel ih =>
    rw [evict]
    split_ifs with hfull
    · have hroom : ¬Room sets n := by rw [← full_eq_false_iff, hfull]; decide
      -- A store without room is not empty, so there is an oldest set.
      have hne : sets.keys ≠ ∅ := fun h => hroom (room_of_keys_eq_empty h hn)
      obtain ⟨host, hmem⟩ := Finset.nonempty_iff_ne_empty.2 hne
      obtain ⟨set, hget⟩ := Option.isSome_iff_exists.1 ((sets.mem_keys host).1 hmem)
      obtain ⟨host, hold⟩ := exists_oldest horder hget
      obtain ⟨set, hget, holdest⟩ := of_oldest horder hold
      have hcard : (sets.remove host).keys.card + 1 = sets.keys.card :=
        Finset.card_erase_add_one (Table.mem_keys_of_get hget)
      have hfuel : (sets.remove host).keys.card ≤ fuel := by omega
      obtain ⟨hosts, hrest⟩ := ih (horder.mono fun _ _ h => (Table.get_of_get_remove h).2) hfuel
      rw [hold]
      exact ⟨host :: hosts, .remove hroom hget holdest hrest⟩
    · exact ⟨[], .done (full_eq_false_iff.1 (by simpa using hfull))⟩

/-! ## What is stored -/

theorem actionableCount_insert (h : sets.get host = none) : actionableCount (sets.insert host set) =
    actionableCount sets + set.entries.keys.card := by
  have hnew : host ∉ sets.keys := by
    rw [sets.mem_keys, h]
    exact nofun
  have hkeys : (sets.insert host set).keys = Insert.insert host sets.keys := rfl
  rw [actionableCount, actionableCount, hkeys, Finset.sum_insert hnew, Table.get_insert_self,
    add_comm]
  congr 1
  refine Finset.sum_congr rfl fun host' hmem => ?_
  have hne : host' ≠ host := fun h => hnew (h ▸ hmem)
  rw [Table.get_insert_of_ne sets hne]

theorem card_insert (h : sets.get host = none) :
    (sets.insert host set).keys.card = sets.keys.card + 1 := by
  refine Finset.card_insert_of_notMem ?_
  rw [sets.mem_keys, h]
  exact nofun

/-- The store is within its bounds. -/
def Within (sets : Table HostId ObservationSet) : Prop :=
  sets.keys.card ≤ MAX_HOST_SETS ∧ actionableCount sets ≤ MAX_ACTIONABLE_GLOBAL

theorem within_insert (hget : sets.get host = none) (h : Room sets set.entries.keys.card) :
    Within (sets.insert host set) := by
  rw [Within, card_insert hget, actionableCount_insert hget]
  exact h

/-- A store with some of the sets is within the bounds as well. -/
theorem Within.mono (h : Within sets)
    (hsub : ∀ host set, sets'.get host = some set → sets.get host = some set) : Within sets' := by
  have hkeys : sets'.keys ⊆ sets.keys := by
    intro host hmem
    obtain ⟨set, hget⟩ := Option.isSome_iff_exists.1 ((sets'.mem_keys host).1 hmem)
    exact Table.mem_keys_of_get (hsub host set hget)
  refine ⟨(Finset.card_le_card hkeys).trans h.1, le_trans ?_ h.2⟩
  refine le_trans (Finset.sum_le_sum fun host hmem => ?_) (Finset.sum_le_sum_of_subset hkeys)
  obtain ⟨set, hget⟩ := Option.isSome_iff_exists.1 ((sets'.mem_keys host).1 hmem)
  rw [hget, hsub host set hget]

/-- What a publication stores, and what it has removed before. -/
structure Stored (state state' : ObservationState) (now : Instant) (binding : AuthorityBinding)
    (snapshot : ServiceSnapshot) (observations : Observations) : Prop where
  /-- The bounds hold. -/
  within : Within state'.sets
  /-- The set is stored. -/
  stored : state'.sets.get binding.hostId =
    some ⟨binding, now, now + SERVICE_OBSERVATION_TTL, observations⟩
  /-- Its ids are those that are returned. -/
  ids : ∀ id, id ∈ observations.keys ↔
    ∃ entry ∈ snapshot.entries, ∃ o, entry.observationIds o = some id
  /-- Sets have been removed, an oldest one at a time, until there was room, of those that had
      not expired and were of other hosts. -/
  evicted : ∃ hosts rest,
    Evicts observations.keys.card ((state.removeExpired now).sets.remove binding.hostId) hosts
      rest ∧ hosts.Pairwise (NoLater state.sets) ∧
    state'.sets = rest.insert binding.hostId
      ⟨binding, now, now + SERVICE_OBSERVATION_TTL, observations⟩

/-- What a publication does, if the iteration order lists the sets. -/
theorem stored_publish {ids : Nat → ServiceObservationId} {now : Instant}
    {binding : AuthorityBinding} {sequence : Nat} {snapshot snapshot' : ServiceSnapshot}
    {state state' : ObservationState}
    (horder : Enumerates order state.sets)
    (h : publish ids order now binding sequence snapshot state =
      (.ok (snapshot', observations), state')) :
    Stored state state' now binding snapshot' observations := by
  rw [publish] at h
  split_ifs at h with hsnapshot hstate
  · cases (Prod.mk.inj h).1
  · cases (Prod.mk.inj h).1
  obtain ⟨hok, rfl⟩ := Prod.mk.inj h
  obtain ⟨⟩ := hok
  have hlength : snapshot.entries.length ≤ 512 := by
    by_contra hlong
    exact hsnapshot (.inr (.inr (Nat.lt_of_not_le hlong)))
  have hcard : (issueAll ids 0 .empty snapshot.entries).2.keys.card ≤ MAX_ACTIONABLE_GLOBAL := by
    have hissued : (issueAll ids 0 .empty snapshot.entries).2.keys.card ≤
      0 + 4 * snapshot.entries.length := card_issueAll_le _
    rw [MAX_ACTIONABLE_GLOBAL]
    omega
  have hbefore : ∀ host set,
      ((state.removeExpired now).sets.remove binding.hostId).get host = some set →
        state.sets.get host = some set :=
    fun _ _ hget => get_removeExpired (Table.get_of_get_remove hget).2
  obtain ⟨hosts, hevicts⟩ := evicts_evict _ hcard (horder.mono hbefore) le_rfl
  refine ⟨within_insert ?_ hevicts.room, Table.get_insert_self .., fun id => ⟨fun hid => ?_, ?_⟩,
    hosts, _, hevicts, hevicts.pairwise.imp ?_, rfl⟩
  · -- The old set of the host is not among those that are left.
    refine Option.eq_none_iff_forall_ne_some.2 fun set hget => ?_
    exact (Table.get_of_get_remove (hevicts.get hget)).1 rfl
  · obtain ⟨observation, hget⟩ := Option.isSome_iff_exists.1 ((Table.mem_keys _ _).1 hid)
    rcases issueAll_noted _ hget with hget | ⟨entry, hentry, -, hnoted⟩
    · cases hget
    · exact ⟨entry, hentry, observation.operation, hnoted⟩
  · rintro ⟨entry, hentry, o, hid⟩
    exact mem_keys_issueAll _ hentry hid
  · rintro host₁ host₂ ⟨set₁, set₂, h₁, h₂, hle⟩
    exact ⟨set₁, set₂, hbefore host₁ set₁ h₁, hbefore host₂ set₂ h₂, hle⟩

end ObservationState

namespace ObservationStore

open ObservationState

/-- The call iterates over the sets in an order that lists them all. -/
def Iterates (s s' : ObservationState) : ObservationEvent → Prop
  | .publish binding sequence snapshot now result => ∃ ids order, Enumerates order s.sets ∧
      s.publish ids order now binding sequence snapshot = (result, s')
  | _ => True

/-- The store, with the iteration orders of a hash map. -/
def enumerated : Machine ObservationStore ObservationEvent where
  init := machine.init
  step s e s' := machine.step s e s' ∧ Iterates s.state s'.state e

variable {s s' : ObservationStore} {es : List ObservationEvent} {e : ObservationEvent}

/-- Every call keeps the store within its bounds. -/
theorem within_of_step (h : enumerated.step s e s') (hs : Within s.state.sets) :
    Within s'.state.sets := by
  obtain ⟨⟨hperforms, -⟩, hiterates⟩ := h
  cases e with
  | beginRequest host result =>
    have hbegin : s.state.beginRequest host = (result, s'.state) := hperforms
    have hsets : (s.state.beginRequest host).2.sets = s.state.sets := sets_beginRequest
    rw [hbegin] at hsets
    exact hsets ▸ hs
  | publish binding sequence snapshot now result =>
    obtain ⟨ids, order, horder, hpublish⟩ := hiterates
    cases result with
    | error e =>
      rcases of_publish hpublish with ⟨-, hsame⟩ | ⟨_, _, hok, -⟩
      · exact hsame ▸ hs
      · nomatch hok
    | ok result => exact (stored_publish horder hpublish).within
  | resolve o id expected now result =>
    rw [(of_resolveFor hperforms).1]
    exact hs.mono fun _ _ hget => get_removeExpired hget
  | revokeHost host =>
    rw [hperforms]
    exact hs.mono fun _ _ hget => (get_revokeHost hget).2
  | revokeSession host session =>
    rw [hperforms]
    exact hs.mono fun _ _ hget => (get_revokeSession hget).1
  | sealAndRevokeAll =>
    rw [hperforms]
    exact hs.mono fun host _ hget => absurd hget (Table.get_empty host ▸ nofun)

theorem within_default : Within ObservationState.default.sets :=
  ⟨Nat.zero_le _, Nat.zero_le _⟩

/-- The store is within its bounds after every history, and a publication that succeeds stores
    its set with all its ids, for which it removes oldest sets as long as there is no room. -/
theorem bounded_of_run (h : enumerated.Run es s) : Within s.state.sets ∧
    ∀ s' binding sequence snapshot now snapshot' observations,
      enumerated.step s (.publish binding sequence snapshot now (.ok (snapshot', observations))) s' →
      Stored s.state s'.state now binding snapshot' observations := by
  refine ⟨?_, ?_⟩
  · refine h.invariant (P := fun s => Within s.state.sets) ?_ fun _ _ _ hs hstep =>
      within_of_step hstep hs
    rintro s rfl
    exact within_default
  · rintro s' binding sequence snapshot now snapshot' observations ⟨-, ids, order, horder, hpublish⟩
    exact stored_publish horder hpublish

/-- What the publication of the inventory issues. -/
def failedIssued : List ServiceEntry × Observations :=
  issueAll (fun n => ⟨n⟩) 0 .empty failedInventory.entries

theorem publication_eq : publication.1 =
    .ok ({ failedInventory with entries := failedIssued.1 }, failedIssued.2) := by
  have hnot : ¬(failedInventory.hostId ≠ failedBinding.hostId ∨
      failedInventory.hostSessionId ≠ failedBinding.hostSessionId ∨
        512 < failedInventory.entries.length) := by decide
  have hnewest : ¬(requestedState.sealed = true ∨
      requestedState.newestRequest.get failedBinding.hostId ≠ some 1) := by decide
  rw [publication, ObservationState.publish, if_neg hnot, if_neg hnewest]
  rfl

theorem enumerates_requestedState : Enumerates [] requestedState.sets :=
  fun host set hget => absurd hget (by rw [requestedState, sets_beginRequest]; exact nofun)

theorem bounded_publication : Stored requestedState publication.2 0 failedBinding
    { failedInventory with entries := failedIssued.1 } failedIssued.2 := by
  have hbegin : enumerated.step ⟨.default, ∅⟩ (.beginRequest ⟨1⟩ (.ok 1)) ⟨requestedState, ∅⟩ :=
    ⟨⟨rfl, Finset.disjoint_empty_left _, rfl⟩, trivial⟩
  have hpublish : requestedState.publish (fun n => ⟨n⟩) [] 0 failedBinding 1 failedInventory =
      (.ok ({ failedInventory with entries := failedIssued.1 }, failedIssued.2), publication.2) :=
    Prod.ext publication_eq rfl
  refine (bounded_of_run ((Machine.Run.nil rfl).snoc hbegin)).2
    ⟨publication.2, failedIssued.2.keys⟩ failedBinding 1 failedInventory 0 _ _ ⟨⟨?_, ?_, ?_⟩, ?_⟩
  · exact ⟨fun n => ⟨n⟩, [], hpublish⟩
  · exact Finset.disjoint_empty_right _
  · exact (Finset.union_empty _).symm
  · exact ⟨fun n => ⟨n⟩, [], enumerates_requestedState, hpublish⟩

end ObservationStore

end NexusOps.Core
