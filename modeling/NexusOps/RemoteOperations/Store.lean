import NexusOps.Concurrency.Table
import NexusOps.RemoteOperations.Systemd

/-!
# The authority store

The pending authorities, by plan id, with the index of the plan each host has
pending. Every operation runs under one lock: it is a function of the state,
given the instant (and, for an insertion, the plan id) it read before taking the
lock.

The two maps are inverse to each other (`Consistent`), and every operation keeps
them so. What an operation does to the pending authorities is described without
the index: `pending_removeId`, `pending_removeExpired`, `insert_eq_ok`,
`consume_eq_ok`, ...
-/

namespace NexusOps.RemoteOperations

open Concurrency

/-- How long a plan can be used. -/
def PLAN_TTL : Duration := .fromSecs 120

variable {O : Type} [NativeOperation O]

variable (O) in
/-- The state of the store, under its lock. -/
structure StoreState where
  pending : Table RemoteOperationPlanId (StoredAuthority O)
  byHost : Table HostId RemoteOperationPlanId
  sealed : Bool

namespace StoreState

/-! ## Errors -/

def stale : AppError := .new .conflict "The remote operation plan is stale."

def expired : AppError := .new .conflict "The remote operation plan expired."

def missing : AppError :=
  .new .conflict "The remote operation plan is missing or was already used."

def policy : AppError := .new .policy "The remote operation identity is invalid."

def shuttingDown : AppError :=
  .new .conflict "NexusOps is shutting down; create a fresh plan after restart."

/-! ## Operations -/

/-- The store at the start. -/
def default : StoreState O := ⟨.empty, .empty, false⟩

/-- Removes a plan from both maps. -/
def removeId (s : StoreState O) (id : RemoteOperationPlanId) :
    Option (StoredAuthority O) × StoreState O :=
  match s.pending.get id with
  | none => (none, s)
  | some removed =>
    (some removed,
      { s with
        pending := s.pending.remove id
        byHost := if s.byHost.get removed.binding.hostId = some id then
            s.byHost.remove removed.binding.hostId
          else s.byHost })

/-- The state after `removeId`. -/
def dropId (s : StoreState O) (id : RemoteOperationPlanId) : StoreState O := (s.removeId id).2

variable {id : RemoteOperationPlanId} {a : StoredAuthority O} {s : StoreState O}

theorem removeId_of_some
    (h : s.pending.get id = some a) : s.removeId id = (some a, s.dropId id) := by
  rw [dropId, removeId, h]

theorem dropId_of_none (h : s.pending.get id = none) : s.dropId id = s := by
  rw [dropId, removeId, h]

theorem dropId_of_some (h : s.pending.get id = some a) :
    s.dropId id = ⟨s.pending.remove id, if s.byHost.get a.binding.hostId = some id then
      s.byHost.remove a.binding.hostId else s.byHost, s.sealed⟩ := by
  rw [dropId, removeId, h]

@[simp] theorem pending_dropId (s : StoreState O) (id : RemoteOperationPlanId) :
    (s.dropId id).pending = s.pending.remove id := by
  cases h : s.pending.get id with
  | none => rw [dropId_of_none h, Table.remove_of_get_none h]
  | some a => rw [dropId_of_some h]

@[simp] theorem sealed_dropId (s : StoreState O) (id : RemoteOperationPlanId) :
    (s.dropId id).sealed = s.sealed := by
  cases h : s.pending.get id with
  | none => rw [dropId_of_none h]
  | some a => rw [dropId_of_some h]

/-- A host keeps its plan in the index unless that plan is the one removed. -/
theorem byHost_dropId (s : StoreState O) (id : RemoteOperationPlanId) (host : HostId) :
    (s.dropId id).byHost.get host = if (s.pending.get id).any (·.binding.hostId = host) ∧
      s.byHost.get host = some id then none else s.byHost.get host := by
  cases h : s.pending.get id with
  | none => simp [dropId_of_none h]
  | some a =>
    rw [dropId_of_some h]
    by_cases hh : host = a.binding.hostId
    · subst hh
      by_cases hi : s.byHost.get a.binding.hostId = some id <;> simp [hi]
    · have hne : a.binding.hostId ≠ host := fun e => hh e.symm
      split_ifs <;> simp_all

/-- Removals commute: the order in which a hash map is iterated does not matter. -/
instance : RightCommutative (dropId : StoreState O → RemoteOperationPlanId → StoreState O) where
  right_comm s a b := by
    by_cases hab : a = b
    · rw [hab]
    have hpa : ((s.dropId b).pending.get a) = s.pending.get a := by simp [hab]
    have hpb : ((s.dropId a).pending.get b) = s.pending.get b := by simp [Ne.symm hab]
    have hby : ((s.dropId a).dropId b).byHost = ((s.dropId b).dropId a).byHost := by
      ext host : 1
      rw [byHost_dropId, byHost_dropId, byHost_dropId, byHost_dropId, hpa, hpb]
      by_cases ha : s.byHost.get host = some a <;> by_cases hb : s.byHost.get host = some b <;>
        simp_all
    have hp : ((s.dropId a).dropId b).pending = ((s.dropId b).dropId a).pending := by
      simp only [pending_dropId, Table.remove_comm]
    have hs : ((s.dropId a).dropId b).sealed = ((s.dropId b).dropId a).sealed := by
      simp only [sealed_dropId]
    cases h : (s.dropId a).dropId b
    cases h' : (s.dropId b).dropId a
    simp_all

/-- What removing a plan preserves, removing several does. -/
theorem foldl_dropId {P : StoreState O → Prop} (hP : ∀ s id, P s → P (s.dropId id))
    (m : Multiset RemoteOperationPlanId) : ∀ s, P s → P (m.foldl dropId s) := by
  induction m using Multiset.induction with
  | empty => exact fun s h => h
  | cons id m ih =>
    intro s h
    rw [Multiset.foldl_cons]
    exact ih _ (hP s id h)

/-- Some plans have been removed, one after the other. -/
def Removes (s s' : StoreState O) : Prop :=
  ∃ m : Multiset RemoteOperationPlanId, s' = m.foldl dropId s

theorem Removes.refl (s : StoreState O) : s.Removes s := ⟨0, rfl⟩

theorem Removes.dropId (s : StoreState O) (id : RemoteOperationPlanId) : s.Removes (s.dropId id) :=
  ⟨{id}, rfl⟩

theorem Removes.sealed_eq {s s' : StoreState O} (h : s.Removes s') : s'.sealed = s.sealed := by
  obtain ⟨m, rfl⟩ := h
  refine foldl_dropId (P := fun t => t.sealed = s.sealed) (fun t id ht => ?_) m s rfl
  rw [sealed_dropId, ht]

theorem get_foldl_dropId (m : Multiset RemoteOperationPlanId) (k : RemoteOperationPlanId) :
    ∀ s : StoreState O, (m.foldl dropId s).pending.get k =
      if k ∈ m then none else s.pending.get k := by
  induction m using Multiset.induction with
  | empty =>
    intro s
    rw [Multiset.foldl_zero, if_neg (Multiset.notMem_zero k)]
  | cons id m ih =>
    intro s
    rw [Multiset.foldl_cons, ih, pending_dropId, Table.get_remove]
    by_cases hm : k ∈ m <;> by_cases hk : k = id <;> simp [hm, hk]

/-- Removes the plans that have expired at `now`, in whatever order. -/
def removeExpired (s : StoreState O) (now : Instant) : StoreState O :=
  (s.pending.keysWhere fun _ value => value.expiresAt ≤ now).val.foldl dropId s

variable {k : RemoteOperationPlanId}

@[simp] theorem get_removeExpired {now : Instant} :
    (s.removeExpired now).pending.get k = some a ↔ s.pending.get k = some a ∧ now < a.expiresAt := by
  rw [removeExpired, get_foldl_dropId]
  constructor
  · intro h
    split_ifs at h with hk
    refine ⟨h, not_le.1 fun he => hk ?_⟩
    rw [Finset.mem_val, Table.mem_keysWhere]
    exact ⟨a, h, decide_eq_true he⟩
  · rintro ⟨h, he⟩
    rw [if_neg, h]
    rw [Finset.mem_val, Table.mem_keysWhere]
    rintro ⟨b, hb, hle⟩
    obtain rfl : b = a := Option.mem_unique hb h
    exact absurd he (not_lt.2 (of_decide_eq_true hle))

@[simp] theorem sealed_removeExpired (s : StoreState O) (now : Instant) :
    (s.removeExpired now).sealed = s.sealed :=
  Removes.sealed_eq ⟨_, rfl⟩

/-- Publishes a plan, if the binding captured after planning is still the one the
    draft was created for. -/
def insert {o : O} (s : StoreState O) (ttl : Duration) (draft : PlanDraft o)
    (current : AuthorityBinding) (issuedAt : Instant) (id : RemoteOperationPlanId) :
    Except AppError PlanReceipt × StoreState O :=
  if draft.binding ≠ current then (.error stale, s)
  else
    let expiresAt := issuedAt + ttl
    let authority := StoredAuthority.new id draft issuedAt expiresAt
    if s.sealed then (.error shuttingDown, s)
    else
      let t := s.removeExpired issuedAt
      let superseded := t.byHost.get draft.binding.hostId
      let pending := match superseded with
        | some old => t.pending.remove old
        | none => t.pending
      (.ok ⟨id, draft.binding, RISK o, issuedAt, expiresAt, superseded⟩,
        { t with
          pending := pending.insert id authority
          byHost := (t.byHost.remove draft.binding.hostId).insert draft.binding.hostId id })

variable [DecidableEq O]

/-- Removes a matching plan and returns its authority. -/
def consume (o : O) (s : StoreState O) (id : RemoteOperationPlanId) (expected : AuthorityBinding)
    (now : Instant) : Except AppError (ConsumedAuthority o) × StoreState O :=
  if (s.pending.get id).any (·.expiresAt ≤ now) then (.error expired, s.dropId id)
  else match s.pending.get id with
    | none => (.error missing, s)
    | some current =>
      if current.binding ≠ expected then (.error stale, s)
      else if current.operationType ≠ o ∨ current.risk ≠ RISK o then (.error policy, s)
      else match s.removeId id with
        | (none, t) => (.error missing, t)
        | (some stored, t) => match stored.intoTyped o with
          | some authority => (.ok authority, t)
          | none => (.error policy, t)

/-- Removes a matching plan, and tells whether there was one. -/
def discard (o : O) (s : StoreState O) (id : RemoteOperationPlanId) (expected : AuthorityBinding)
    (now : Instant) : Except AppError Bool × StoreState O :=
  if (s.pending.get id).any (·.expiresAt ≤ now) then (.ok false, s.dropId id)
  else match s.pending.get id with
    | none => (.ok false, s)
    | some current =>
      if current.binding ≠ expected then (.error stale, s)
      else if current.operationType ≠ o ∨ current.risk ≠ RISK o then (.error policy, s)
      else (.ok (s.removeId id).1.isSome, s.dropId id)

omit [DecidableEq O]

/-- Removes the plan of a host. -/
def revokeHost (s : StoreState O) (host : HostId) : Bool × StoreState O :=
  match s.byHost.get host with
  | none => (false, s)
  | some id => ((s.pending.get id).isSome,
      { s with byHost := s.byHost.remove host, pending := s.pending.remove id })

/-- Removes the plan of a host if it is bound to the session. -/
def revokeSession (s : StoreState O) (host : HostId) (session : HostSessionId) :
    Bool × StoreState O :=
  match s.byHost.get host with
  | none => (false, s)
  | some id =>
    if (s.pending.get id).any (·.binding.hostSessionId = session) then
      ((s.removeId id).1.isSome, s.dropId id)
    else (false, s)

/-- Removes every plan. -/
def revokeAll (s : StoreState O) : StoreState O := { s with pending := .empty, byHost := .empty }

/-- Removes every plan, and prevents later publications. -/
def sealAndRevokeAll (s : StoreState O) : StoreState O :=
  { s with sealed := true, pending := .empty, byHost := .empty }

/-- The number of plans that have not expired. -/
def pendingCount (s : StoreState O) (now : Instant) : Nat × StoreState O :=
  let t := s.removeExpired now
  (t.pending.keys.card, t)

/-- Whether a plan is there, and has not expired. -/
def contains (s : StoreState O) (id : RemoteOperationPlanId) (now : Instant) :
    Bool × StoreState O :=
  let t := s.removeExpired now
  ((t.pending.get id).isSome, t)

/-- The timer of a plan: removes the plan with that deadline. -/
def expire (s : StoreState O) (id : RemoteOperationPlanId) (expires : Instant) : StoreState O :=
  if (s.pending.get id).any (·.expiresAt = expires) then s.dropId id else s

/-! ## The invariant -/

/-- The two maps are inverse to each other, stored authorities are well typed,
    and a sealed store is empty. -/
structure Consistent (s : StoreState O) : Prop where
  byHost_of_pending : ∀ {id a}, s.pending.get id = some a →
    s.byHost.get a.binding.hostId = some id
  pending_of_byHost : ∀ {host id}, s.byHost.get host = some id →
    ∃ a, s.pending.get id = some a ∧ a.binding.hostId = host
  wellTyped : ∀ {id a}, s.pending.get id = some a →
    a.id = id ∧ a.body.1 = a.operationType ∧ a.risk = RISK a.operationType
  pending_of_sealed : s.sealed = true → ∀ id, s.pending.get id = none

theorem consistent_default : (default : StoreState O).Consistent where
  byHost_of_pending h := nomatch h
  pending_of_byHost h := nomatch h
  wellTyped h := nomatch h
  pending_of_sealed h := nomatch h

namespace Consistent

variable {s : StoreState O} (hs : s.Consistent)
include hs

/-- A host has at most one plan pending. -/
theorem id_unique {id id' : RemoteOperationPlanId} {a a' : StoredAuthority O}
    (h : s.pending.get id = some a) (h' : s.pending.get id' = some a')
    (hh : a.binding.hostId = a'.binding.hostId) : id = id' := by
  have e := hs.byHost_of_pending h
  rw [hh, hs.byHost_of_pending h'] at e
  exact (Option.some.inj e).symm

theorem dropId (id : RemoteOperationPlanId) : (s.dropId id).Consistent where
  byHost_of_pending {k a} h := by
    rw [pending_dropId] at h
    obtain ⟨hk, h⟩ := Table.get_of_get_remove h
    have hb := hs.byHost_of_pending h
    rw [byHost_dropId, if_neg, hb]
    rintro ⟨-, e⟩
    exact hk (Option.mem_unique hb e)
  pending_of_byHost {host k} h := by
    rw [byHost_dropId] at h
    split_ifs at h with hc
    obtain ⟨a, ha, hh⟩ := hs.pending_of_byHost h
    refine ⟨a, ?_, hh⟩
    rw [pending_dropId, Table.get_remove, if_neg, ha]
    rintro rfl
    exact hc ⟨by simp [ha, hh], h⟩
  wellTyped {k a} h := by
    rw [pending_dropId] at h
    exact hs.wellTyped (Table.get_of_get_remove h).2
  pending_of_sealed h k := by
    rw [sealed_dropId] at h
    rw [pending_dropId, Table.get_remove, hs.pending_of_sealed h, ite_self]

theorem removes {s' : StoreState O} (h : s.Removes s') : s'.Consistent := by
  obtain ⟨m, rfl⟩ := h
  exact foldl_dropId (fun _ id h => h.dropId id) m s hs

theorem removeExpired (now : Instant) : (s.removeExpired now).Consistent := hs.removes ⟨_, rfl⟩

end Consistent

/-! ## What the operations do -/

variable {current : AuthorityBinding} {issuedAt : Instant} {ttl : Duration}

/-- A failed publication leaves the store as it was. -/
theorem insert_eq_error {o : O} {s s' : StoreState O} {draft : PlanDraft o} {e : AppError}
    (h : s.insert ttl draft current issuedAt id = (.error e, s')) : s' = s := by
  unfold insert at h
  split_ifs at h <;> simp_all

/-- A publication adds the plan, and removes the plan the host had and what has expired. -/
theorem insert_eq_ok {o : O} {s s' : StoreState O} {draft : PlanDraft o}
    {r : PlanReceipt} (hs : s.Consistent)
    (h : s.insert ttl draft current issuedAt id = (.ok r, s')) :
    draft.binding = current ∧ s.sealed = false ∧ s'.sealed = false ∧
      r.id = id ∧ r.expiresAt = issuedAt + ttl ∧ ∀ k a, s'.pending.get k = some a ↔
        (k = id ∧ a = .new id draft issuedAt (issuedAt + ttl)) ∨
        (k ≠ id ∧ s.pending.get k = some a ∧ issuedAt < a.expiresAt ∧
          a.binding.hostId ≠ draft.binding.hostId) := by
  unfold insert at h
  split_ifs at h with hb hsealed
  · cases h
  · cases h
  rw [Bool.not_eq_true] at hsealed
  cases h
  refine ⟨not_not.1 hb, hsealed, by simpa using hsealed, rfl, rfl, fun k a => ?_⟩
  have ht := hs.removeExpired issuedAt
  simp only [Table.get_insert]
  by_cases hk : k = id
  · simp [hk, eq_comm]
  simp only [hk, if_false, false_and, not_false_eq_true, ne_eq, true_and, false_or]
  -- The plan superseded, if any, is the only one of the host that had not expired.
  cases hsup : (s.removeExpired issuedAt).byHost.get draft.binding.hostId with
  | none =>
    simp only [get_removeExpired]
    refine and_congr_right fun ha => (and_iff_left_of_imp fun he hh => ?_).symm
    have := ht.byHost_of_pending (get_removeExpired.2 ⟨ha, he⟩)
    rw [hh, hsup] at this
    cases this
  | some old =>
    obtain ⟨b, hold, hhost⟩ := ht.pending_of_byHost hsup
    simp only [Table.get_remove]
    split_ifs with hko
    · subst hko
      refine ⟨nofun, fun ⟨ha, _, hne⟩ => hne ?_⟩
      obtain rfl : a = b := Option.some.inj (ha.symm.trans (get_removeExpired.1 hold).1)
      exact hhost
    · rw [get_removeExpired]
      refine and_congr_right fun ha => (and_iff_left_of_imp fun he hh => hko ?_).symm
      exact ht.id_unique (get_removeExpired.2 ⟨ha, he⟩) hold (hh.trans hhost.symm)

/-- A publication under a new id keeps the maps inverse to each other. -/
theorem Consistent.insert {o : O} {s s' : StoreState O} {draft : PlanDraft o}
    {r : Except AppError PlanReceipt} (hs : s.Consistent) (hid : s.pending.get id = none)
    (h : s.insert ttl draft current issuedAt id = (r, s')) : s'.Consistent := by
  cases r with
  | error e => exact insert_eq_error h ▸ hs
  | ok r =>
    obtain ⟨_, _, hsealed, _, _, hget⟩ := insert_eq_ok hs h
    have ht := hs.removeExpired issuedAt
    have hby : s'.byHost = ((s.removeExpired issuedAt).byHost.remove draft.binding.hostId).insert
        draft.binding.hostId id := by
      unfold StoreState.insert at h
      split_ifs at h
      · cases h
      · cases h
      · cases h; rfl
    refine ⟨fun {k a} h => ?_, fun {host k} h => ?_, fun {k a} h => ?_, fun h => ?_⟩
    · rw [hby]
      rcases (hget k a).1 h with ⟨rfl, rfl⟩ | ⟨_, ha, he, hne⟩
      · exact Table.get_insert_self ..
      · rw [Table.get_insert_of_ne _ hne, Table.get_remove_of_ne _ hne]
        exact ht.byHost_of_pending (get_removeExpired.2 ⟨ha, he⟩)
    · rw [hby, Table.get_insert, Table.get_remove] at h
      split_ifs at h with hh
      · obtain ⟨⟩ := h
        exact ⟨_, (hget _ _).2 (.inl ⟨rfl, rfl⟩), hh.symm⟩
      · obtain ⟨a, ha, hhost⟩ := ht.pending_of_byHost h
        obtain ⟨ha, he⟩ := get_removeExpired.1 ha
        refine ⟨a, (hget _ _).2 (.inr ⟨?_, ha, he, hhost ▸ hh⟩), hhost⟩
        rintro rfl
        exact Option.some_ne_none _ (ha.symm.trans hid)
    · rcases (hget k a).1 h with ⟨rfl, rfl⟩ | ⟨_, ha, _, _⟩
      · exact ⟨rfl, rfl, rfl⟩
      · exact hs.wellTyped ha
    · exact absurd h (by simp [hsealed])

section

variable [DecidableEq O] {o : O} {s s' : StoreState O} {id : RemoteOperationPlanId}
  {expected : AuthorityBinding} {now : Instant}

/-- A consumption returns the pending authority, which matched and had not
    expired, and removes it. -/
theorem consume_eq_ok {c : ConsumedAuthority o}
    (h : consume o s id expected now = (.ok c, s')) :
    ∃ a, s.pending.get id = some a ∧ a.grant = ⟨o, c⟩ ∧ c.binding = expected ∧
      now < c.expiresAt ∧ s' = s.dropId id := by
  rw [consume] at h
  split_ifs at h with he
  · cases h
  cases ha : s.pending.get id with
  | none => rw [ha] at h; cases h
  | some a =>
    simp only [ha, removeId_of_some ha] at h
    split_ifs at h with hb ht
    · cases h
    · cases h
    cases hi : a.intoTyped o with
    | none => rw [hi] at h; cases h
    | some d =>
      rw [hi] at h
      obtain ⟨hd, rfl⟩ := Prod.mk.inj h
      obtain ⟨⟩ := hd
      rw [ha, Option.any_some, decide_eq_true_eq, not_le] at he
      have hg := StoredAuthority.intoTyped_eq_some.1 hi
      obtain ⟨_, hcb, hce⟩ := StoredAuthority.of_grant_eq hg
      exact ⟨a, rfl, hg, hcb.trans (not_not.1 hb), hce ▸ he, rfl⟩

/-- A failed consumption leaves the store as it was, unless the plan had expired. -/
theorem consume_eq_error {e : AppError} (hs : s.Consistent)
    (h : consume o s id expected now = (.error e, s')) :
    s' = s ∨ (∃ a, s.pending.get id = some a ∧ a.expiresAt ≤ now) ∧ s' = s.dropId id := by
  rw [consume] at h
  split_ifs at h with he
  · obtain ⟨a, ha, hle⟩ := (Option.any_eq_true ..).1 he
    exact .inr ⟨⟨a, ha, of_decide_eq_true hle⟩, (Prod.mk.inj h).2.symm⟩
  left
  cases ha : s.pending.get id with
  | none => rw [ha] at h; exact (Prod.mk.inj h).2.symm
  | some a =>
    simp only [ha, removeId_of_some ha] at h
    split_ifs at h with hb ht
    · exact (Prod.mk.inj h).2.symm
    · exact (Prod.mk.inj h).2.symm
    · -- The body of a stored authority has the type it is stored under.
      have ho : a.body.1 = o := (hs.wellTyped ha).2.1.trans (not_not.1 fun hne => ht (.inl hne))
      rw [StoredAuthority.intoTyped, dif_pos ho] at h
      cases h

/-- A discard that finds the plan removes it; otherwise, the store is left as it
    was, unless the plan had expired. -/
theorem discard_eq {r : Except AppError Bool} (h : discard o s id expected now = (r, s')) :
    (r = .ok true ∧ s' = s.dropId id) ∨ (r ≠ .ok true ∧ s' = s) ∨
      (r = .ok false ∧ (∃ a, s.pending.get id = some a ∧ a.expiresAt ≤ now) ∧
        s' = s.dropId id) := by
  rw [discard] at h
  split_ifs at h with he
  · obtain ⟨a, ha, hle⟩ := (Option.any_eq_true ..).1 he
    obtain ⟨⟩ := h
    exact .inr (.inr ⟨rfl, ⟨a, ha, of_decide_eq_true hle⟩, rfl⟩)
  · cases ha : s.pending.get id with
    | none =>
      simp only [ha] at h
      obtain ⟨⟩ := h
      exact .inr (.inl ⟨by simp, rfl⟩)
    | some a =>
      simp only [ha, removeId_of_some ha] at h
      split_ifs at h with hb ht
      · obtain ⟨⟩ := h
        exact .inr (.inl ⟨by simp, rfl⟩)
      · obtain ⟨⟩ := h
        exact .inr (.inl ⟨by simp, rfl⟩)
      · obtain ⟨⟩ := h
        exact .inl ⟨rfl, rfl⟩

/-- A plan that has not expired cannot be consumed or discarded under another
    binding or as another operation type. -/
theorem eq_error_of_mismatch (ha : s.pending.get id = some a)
    (hlive : now < a.expiresAt) (hne : expected ≠ a.binding ∨ o ≠ a.operationType) :
    ∃ e, consume o s id expected now = (.error e, s) ∧ discard o s id expected now = (.error e, s) := by
  have hexp : ¬a.expiresAt ≤ now := not_le.2 hlive
  by_cases hb : a.binding = expected
  · have ho : a.operationType ≠ o := fun e => hne.elim (· hb.symm) (· e.symm)
    exact ⟨policy, by simp [consume, ha, hexp, hb, ho], by simp [discard, ha, hexp, hb, ho]⟩
  · exact ⟨stale, by simp [consume, ha, hexp, hb], by simp [discard, ha, hexp, hb]⟩

/-- A consumption either leaves the store as it was or removes the plan. -/
theorem consume_state (hs : s.Consistent) {r : Except AppError (ConsumedAuthority o)}
    (h : consume o s id expected now = (r, s')) : s' = s ∨ s' = s.dropId id := by
  cases r with
  | ok c =>
    obtain ⟨_, _, _, _, _, rfl⟩ := consume_eq_ok h
    exact .inr rfl
  | error e => exact (consume_eq_error hs h).imp_right And.right

end

section

variable {s : StoreState O} (hs : s.Consistent)
include hs

/-- Revoking a host is removing its plan. -/
theorem revokeHost_eq (host : HostId) : (s.revokeHost host).2 =
    ((s.byHost.get host).map s.dropId).getD s := by
  rw [revokeHost]
  cases h : s.byHost.get host with
  | none => rfl
  | some id =>
    obtain ⟨a, ha, rfl⟩ := hs.pending_of_byHost h
    rw [Option.map_some, Option.getD_some, dropId_of_some ha, if_pos h]

/-- Revoking a host removes what is bound to it. -/
theorem get_revokeHost {host : HostId} : (s.revokeHost host).2.pending.get k = some a ↔
      s.pending.get k = some a ∧ a.binding.hostId ≠ host := by
  rw [revokeHost_eq hs]
  cases h : s.byHost.get host with
  | none =>
    refine (and_iff_left_of_imp fun ha hh => ?_).symm
    rw [← hh, hs.byHost_of_pending ha] at h
    cases h
  | some id =>
    obtain ⟨b, hb, hh⟩ := hs.pending_of_byHost h
    rw [Option.map_some, Option.getD_some, pending_dropId, Table.get_remove]
    split_ifs with hk
    · subst hk
      refine ⟨nofun, fun ⟨ha, hne⟩ => hne ?_⟩
      obtain rfl : a = b := Option.mem_unique ha hb
      exact hh
    · exact (and_iff_left_of_imp fun ha hh' => hk (hs.id_unique ha hb (hh'.trans hh.symm))).symm

/-- Revoking a session removes what is bound to it. -/
theorem get_revokeSession {host : HostId} {session : HostSessionId} :
    (s.revokeSession host session).2.pending.get k = some a ↔
      s.pending.get k = some a ∧
        ¬(a.binding.hostId = host ∧ a.binding.hostSessionId = session) := by
  rw [revokeSession]
  cases h : s.byHost.get host with
  | none =>
    refine (and_iff_left_of_imp fun ha hh => ?_).symm
    rw [← hh.1, hs.byHost_of_pending ha] at h
    cases h
  | some id =>
    obtain ⟨b, hb, hh⟩ := hs.pending_of_byHost h
    simp only [hb, Option.any_some, decide_eq_true_eq]
    split_ifs with hsess
    · rw [pending_dropId, Table.get_remove]
      split_ifs with hk
      · subst hk
        refine ⟨nofun, fun ⟨ha, hne⟩ => hne ?_⟩
        obtain rfl : a = b := Option.mem_unique ha hb
        exact ⟨hh, hsess⟩
      · refine (and_iff_left_of_imp fun ha hh' => hk ?_).symm
        exact hs.id_unique ha hb (hh'.1.trans hh.symm)
    · refine (and_iff_left_of_imp fun ha hh' => hsess ?_).symm
      obtain rfl := hs.id_unique ha hb (hh'.1.trans hh.symm)
      obtain rfl : a = b := Option.mem_unique ha hb
      exact hh'.2

omit hs in
theorem revokeSession_state (s : StoreState O) (host : HostId) (session : HostSessionId) :
    (s.revokeSession host session).2 = s ∨
      ∃ id, (s.revokeSession host session).2 = s.dropId id := by
  rw [StoreState.revokeSession]
  split
  · exact .inl rfl
  · split_ifs
    exacts [.inr ⟨_, rfl⟩, .inl rfl]

omit hs in
theorem Consistent.revokeAll : s.revokeAll.Consistent where
  byHost_of_pending h := nomatch h
  pending_of_byHost h := nomatch h
  wellTyped h := nomatch h
  pending_of_sealed _ _ := rfl

omit hs in
theorem Consistent.sealAndRevokeAll : s.sealAndRevokeAll.Consistent where
  byHost_of_pending h := nomatch h
  pending_of_byHost h := nomatch h
  wellTyped h := nomatch h
  pending_of_sealed _ _ := rfl

end

end StoreState

end NexusOps.RemoteOperations
