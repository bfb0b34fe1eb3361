import NexusOps.Core.Protocol
import NexusOps.Facade.Frames

/-!
# The application and its surroundings

How the application with its stores starts (`Facade.Initial`), and what happens besides its calls
(`Facade.Env`): time passes, connections are closed, plans expire, and the jobs on the thread pool
are done. What is known after a section is stated here for any protocol of the calls.
-/

namespace NexusOps.Facade

open Concurrency Protocol NexusOps.Core

/-- The state of an application that has just been opened. What is stored is there from before. -/
structure Initial (s : Facade) : Prop where
  app : s.app.Initial
  jobs : ∀ id, s.secrets.jobs id = none
  results : ∀ id, s.secrets.results id = none
  files : ∃ clock, s.files = .new clock
  sftpSessions : ∀ host, s.sftpSessions host = none
  sftpGates : ∀ host, s.sftpGates host = none
  reads : ∀ kind, s.reads kind = ⟨fun _ => none, ∅, fun _ => none, 4⟩
  monitors : s.monitors = ⟨fun _ => none, ∅, fun _ => none, fun _ => none⟩
  log : s.log = []

/-- An application that has just been opened, with these hosts. No credentials are stored, and no
    keys are pinned. -/
def opened (repository : HostId → Option StoredHost) (ids : HostId → IdUse) : Facade where
  app :=
    { remoteOperations := ⟨⟨.default, ∅⟩, fun _ => none, none⟩
      clock := 0
      tokens := ∅
      cancelled _ := false
      closed _ := false
      repository := repository
      sessions _ := none
      slots _ := none
      serviceObservations := .default
      serviceAdmission := ⟨fun _ => none, ∅, fun _ => none, 4⟩
      rotationPlans _ := none
      mutation := none
      sessionIds := ∅
      observationIds := ∅
      attempts _ := none
      log := [] }
  secrets := ⟨∅, fun _ => none, fun _ => none⟩
  pins := .empty
  files := .new 0
  sftpSessions _ := none
  sftpGates _ := none
  reads _ := ⟨fun _ => none, ∅, fun _ => none, 4⟩
  monitors := ⟨fun _ => none, ∅, fun _ => none, fun _ => none⟩
  ids := ids
  log := []

theorem initial_opened (repository : HostId → Option StoredHost) (ids : HostId → IdUse) :
    Initial (opened repository ids) where
  app := ⟨rfl, rfl, fun _ => rfl, fun _ => rfl, rfl, rfl, fun _ => rfl, rfl, rfl, rfl, rfl⟩
  jobs _ := rfl
  results _ := rfl
  files := ⟨0, rfl⟩
  sftpSessions _ := rfl
  sftpGates _ := rfl
  reads _ := rfl
  monitors := rfl
  log := rfl

/-- What happens besides the calls. -/
inductive Env : Facade → Facade → Prop
  | app (s : Facade) (app : Application) (h : s.app.Env app) : Env s { s with app := app }
  | tick (s : Facade) (clock : Instant) (h : s.files.clock ≤ clock) :
      Env s { s with files.clock := clock }
  | job (s : Facade) (id : JobId) (job : SecretJob) (result : Except AppError Unit)
      (h : s.secrets.jobs id = some job) : Env s (finishJob s id job result)

/-! ## Sections -/

variable {β : Type} {ι : Type} {S : System ι Facade} {P : Protocol S} {i : ι} {droppable : Bool}
  {A D : Facade → Prop} {s : Facade}

/-- Nothing is logged if the application is as before. -/
theorem core_set_self (s : Facade) : core.set s s.app = s := by
  change { s with log := s.log ++ (s.app.log.drop s.app.log.length).map .app } = s
  rw [List.drop_length, List.map_nil, List.append_nil]

variable {F : AppError → Facade → Prop}

/-- A section before which the call may be dropped. -/
theorem safeAsync_locked {Q : β → Facade → Prop}
    {f : Facade → Option (Except AppError β × Facade)} (hA : P.Stable i A) (hs : A s)
    (hD : ∀ s, A s → D s) (h : ∀ s r s', A s → P.inv s → f s = some (r, s') →
      P.inv s' ∧ P.guarantee i s s' ∧ Fallible.Post Q F r s') :
    P.SafeAsync i Q F D (locked droppable f) s := by
  refine SafeOr.bind (safeAsync_pause hs fun _ => hD s hs) fun _ s₁ hs₁ => ?_
  refine safeOr_act hA hs₁ fun s₂ r s₃ hs₂ hi hf => ?_
  obtain ⟨⟨r, s'⟩, hsection, hr⟩ := Option.map_eq_some_iff.1 hf
  obtain ⟨⟩ := hr
  obtain ⟨hi', hg, hpost⟩ := h s₂ r s' hs₂ hi hsection
  refine ⟨hi', hg, ?_⟩
  cases r with
  | ok b => exact hpost
  | error e => exact hpost

/-- The same, if the section is never blocked and does not fail. -/
theorem safeAsync_update {Q : Unit → Facade → Prop}
    {f : Facade → Facade} (hA : P.Stable i A) (hs : A s) (hD : ∀ s, A s → D s)
    (h : ∀ s, A s → P.inv s → P.inv (f s) ∧ P.guarantee i s (f s) ∧ Q () (f s)) :
    P.SafeAsync i Q F D (update droppable f) s := by
  refine safeAsync_locked hA hs hD fun s₁ r s₂ hs₁ hi hf => ?_
  obtain ⟨⟩ := hf
  exact h s₁ hs₁ hi

/-- The stored host, as it is when it is read. -/
theorem safeAsync_repositoryGet {id : HostId} {Q : StoredHost → Facade → Prop}
    (hg : ∀ s, P.guarantee i s s) (hA : P.Stable i A) (hs : A s)
    (hD : ∀ s, A s → D s) (hF : ∀ e s, A s → F e s)
    (h : ∀ s stored, A s → P.inv s → s.app.repository id = some stored → Q stored s) :
    P.SafeAsync i Q F D (onApp droppable (Application.repositoryGet id)) s := by
  rw [onApp, Application.repositoryGet, Part.lift_bind]
  refine SafeOr.bind (R := fun _ => A) (safeAsync_lift_ask (F := F) (fun _ => hs) fun _ => hD s hs)
    fun fails s₁ hs₁ => ?_
  refine safeAsync_lift_act hA hs₁ (fun _ => hD) fun s₂ r app hs₂ hi hf => ?_
  -- Whatever is found, nothing is changed.
  split_ifs at hf
  · obtain ⟨⟩ := hf
    rw [show core.set s₂ (core.get s₂) = s₂ from core_set_self s₂]
    exact ⟨hi, hg s₂, hF _ _ hs₂⟩
  · split at hf
    · next stored hstored =>
      obtain ⟨⟩ := hf
      rw [show core.set s₂ (core.get s₂) = s₂ from core_set_self s₂]
      exact ⟨hi, hg s₂, h s₂ stored hs₂ hi hstored⟩
    · obtain ⟨⟩ := hf
      rw [show core.set s₂ (core.get s₂) = s₂ from core_set_self s₂]
      exact ⟨hi, hg s₂, hF _ _ hs₂⟩

theorem preserves_reply (hD : ∀ s, A s → D s) : P.Preserves i A D (reply droppable β) := by
  intro s hs
  refine SafeOr.bind (safeAsync_pause hs fun _ => hD s hs) fun _ s₁ hs₁ => ?_
  refine safeOr_bind.2 (safeOr_ask fun r => ?_)
  cases r with
  | ok b => exact hs₁
  | error e => exact hs₁

end NexusOps.Facade
