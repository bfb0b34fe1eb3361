import NexusOps.Facade.Hosts

/-!
# What the parts of a call leave alone

Most parts of a call neither change what is stored of the hosts and their credentials, nor who
holds the gate of a host (`Facade.Calm`). This is a property of each of their sections, whatever
the call has done before.
-/

namespace NexusOps

open Concurrency Protocol NexusOps.Core RemoteOperations

variable {ε α β : Type}

/-! ## Sections of the application -/

namespace Core.Application

/-- The stored hosts and the gates of the hosts are left alone. -/
structure Calm (s s' : Application) : Prop where
  repository : s'.repository = s.repository
  gates : s'.remoteOperations.hostGates = s.remoteOperations.hostGates

variable {s s' : Application} {slot : SlotId} {data : SessionData} {id : HostId} {t : TaskId}

theorem Calm.refl (s : Application) : Calm s s := ⟨rfl, rfl⟩

theorem calm_storeSection {f : StoreState SystemdOperation → β × StoreState SystemdOperation} :
    Within Calm (RemoteOperationFoundation.storeSection f : Proc Application β) := by
  refine within_act fun s b s' hf => ?_
  obtain ⟨⟩ := hf
  exact ⟨rfl, rfl⟩

theorem calm_observationSection {f : ObservationState → Except AppError β × ObservationState} :
    Within Calm (observationSection f).run := by
  refine within_act fun s b s' hf => ?_
  obtain ⟨⟩ := hf
  exact ⟨rfl, rfl⟩

theorem calm_revokeHost : Within Calm (revokeHost id).run :=
  Obeys.andThen (obeys_lift calm_storeSection) fun _ => calm_observationSection

theorem calm_removeRotationPlan : Within Calm (removeRotationPlan id).run := by
  refine within_act fun s b s' hf => ?_
  obtain ⟨⟩ := hf
  exact ⟨rfl, rfl⟩

theorem calm_slotOf : Within Calm (slotOf id).run := by
  refine Obeys.andThen (obeys_lift obeys_ask) fun slot =>
    Obeys.andThen (obeys_lift obeys_ask) fun cancel => within_act fun s b s' hf => ?_
  split at hf
  · obtain ⟨⟩ := hf
    exact .refl s
  · split_ifs at hf
    obtain ⟨⟩ := hf
    exact ⟨rfl, rfl⟩

theorem calm_beginDisconnect {r : Except AppError DisconnectWork}
    (h : beginDisconnect t id slot data s = some (r, s')) : Calm s s' := by
  obtain ⟨data', -, h⟩ := Option.map_eq_some_iff.1 h
  dsimp only at h
  -- Whether the attempt is cancelled does not matter.
  generalize hs₁ : (if data'.view.state = .connecting then s.cancelToken data'.cancel else s) = s₁
    at h
  have hcalm : Calm s s₁ := by
    subst hs₁
    split_ifs
    · exact ⟨rfl, rfl⟩
    · exact .refl s
  split_ifs at h
  · split at h <;> obtain ⟨-, rfl⟩ := Prod.mk.inj h <;> exact ⟨hcalm.repository, hcalm.gates⟩
  · obtain ⟨⟩ := h
    exact ⟨hcalm.repository, hcalm.gates⟩

variable {r : Except AppError Unit}

theorem calm_showError {e : AppError} (h : showError slot e data s = some (r, s')) : Calm s s' := by
  obtain ⟨⟩ := h
  exact ⟨rfl, rfl⟩

theorem calm_endDisconnect {r : Except AppError (Option TransportId)}
    (h : endDisconnect id slot data s = some (r, s')) : Calm s s' := by
  obtain ⟨⟩ := h
  exact ⟨rfl, rfl⟩

theorem calm_checkEditable (h : checkEditable data s = some (r, s')) : Calm s s' := by
  rw [checkEditable] at h
  split_ifs at h <;> obtain ⟨-, rfl⟩ := Proc.result_inj h <;> exact .refl s

theorem calm_resetSlot (h : resetSlot id slot data s = some (r, s')) : Calm s s' := by
  obtain ⟨data', -, h⟩ := Option.map_eq_some_iff.1 h
  obtain ⟨⟩ := h
  exact ⟨rfl, rfl⟩

end Core.Application

/-! ## Parts of a call -/

namespace Facade

variable {droppable : Bool} {t : TaskId} {id : HostId} {session : HostSessionId} {slot : SlotId}

section

variable {R : Facade → Facade → Prop} {x : Task α}

theorem within_locked {f : Facade → Option (Except AppError β × Facade)}
    (h : ∀ s r s', f s = some (r, s') → R s s') : Within R (locked droppable f).run := by
  refine Obeys.andThen within_pause fun _ => within_act fun s b s' hf => ?_
  obtain ⟨⟨r, s'⟩, hsection, hr⟩ := Option.map_eq_some_iff.1 hf
  obtain ⟨⟩ := hr
  exact h s r s' hsection

theorem within_update {f : Facade → Facade} (h : ∀ s, R s (f s)) :
    Within R (update droppable f).run := by
  refine within_locked fun s r s' hf => ?_
  obtain ⟨⟩ := hf
  exact h s

theorem within_reply : Within R (reply droppable β).run := by
  refine Obeys.andThen within_pause fun _ => Obeys.andThen (obeys_lift obeys_ask) fun r => ?_
  cases r with
  | ok b => exact obeys_pure
  | error e => exact obeys_throw

theorem within_onApp {R' : Application → Application → Prop} {x : App α} (h : Within R' x.run)
    (hR : ∀ s app, R' s.app app → R s (core.set s app)) : Within R (onApp droppable x).run :=
  Obeys.andThen (h.embed hR) fun _ => obeys_ofExcept

/-- What is logged besides depends on the result. -/
theorem within_onSlot {f : SessionData → Application → Option (Except AppError β × Application)}
    {events : β → List FacadeEvent}
    (hok : ∀ s data b app, s.app.slots slot = some data → f data s.app = some (.ok b, app) →
      R s { core.set s app with log := (core.set s app).log ++ events b })
    (herror : ∀ s data e app, s.app.slots slot = some data → f data s.app = some (.error e, app) →
      R s (core.set s app)) : Within R (onSlot droppable slot f events).run := by
  refine within_locked fun s r s' hf => ?_
  obtain ⟨data, hdata, hf⟩ := Option.bind_eq_some_iff.1 hf
  obtain ⟨⟨r', app⟩, hsection, hr⟩ := Option.map_eq_some_iff.1 hf
  obtain ⟨⟩ := hr
  cases r' with
  | ok b => exact hok s data b app hdata hsection
  | error e => exact herror s data e app hdata hsection

theorem within_onFiles {R' : Sftp.FilePlanStore → Sftp.FilePlanStore → Prop} {x : Sftp.PlanCall α}
    (h : Within R' x.run) (hR : ∀ s files, R' s.files files → R s (plans.set s files)) :
    Within R (onFiles droppable x).run := by
  refine Obeys.andThen within_pause fun _ => Obeys.andThen (h.embed hR) fun r => ?_
  cases r with
  | ok a => exact obeys_pure
  | error e => exact obeys_throw

end

/-- The stored hosts and credentials, their ids and the gates of the hosts are left alone. -/
structure Calm (s s' : Facade) : Prop where
  app : s.app.Calm s'.app
  ids : s'.ids = s.ids
  secrets : s'.secrets = s.secrets

theorem Calm.refl (s : Facade) : Calm s s := ⟨.refl _, rfl, rfl⟩

theorem calm_onApp {x : App α} (h : Within Application.Calm x.run) :
    Within Calm (onApp droppable x).run :=
  within_onApp h fun _ _ hs => ⟨hs, rfl, rfl⟩

theorem calm_onSlot {f : SessionData → Application → Option (Except AppError β × Application)}
    {events : β → List FacadeEvent}
    (h : ∀ data s r s', f data s = some (r, s') → s.Calm s') :
    Within Calm (onSlot droppable slot f events).run :=
  within_onSlot (fun s data b app _ hf => ⟨h data s.app (.ok b) app hf, rfl, rfl⟩)
    fun s data e app _ hf => ⟨h data s.app (.error e) app hf, rfl, rfl⟩

/-- The store of file plans is no concern of the hosts, whatever is done there. -/
theorem calm_onFiles {x : Sftp.PlanCall α} (h : Within (fun _ _ => True) x.run) :
    Within Calm (onFiles droppable x).run :=
  within_onFiles h fun s _ _ => ⟨.refl s.app, rfl, rfl⟩

theorem calm_withSftpGate {x : Task α} (h : Within Calm x.run) :
    Within Calm (withSftpGate droppable t id x).run := by
  refine Obeys.andThen (within_locked fun s r s' hf => ?_) fun _ => Obeys.always h ?_
  · split_ifs at hf
    obtain ⟨⟩ := hf
    exact ⟨.refl _, rfl, rfl⟩
  · exact obeys_modify fun s _ => ⟨trivial, ⟨.refl _, rfl, rfl⟩⟩

theorem calm_clearMonitor : Within Calm (clearMonitor droppable id).run :=
  within_update fun _ => ⟨.refl _, rfl, rfl⟩

theorem calm_removeMonitor : Within Calm (removeMonitor droppable id).run :=
  Obeys.andThen calm_clearMonitor fun _ => within_update fun _ => ⟨.refl _, rfl, rfl⟩

theorem calm_closeSftp : Within Calm (closeSftp droppable t id session).run := by
  refine calm_withSftpGate (Obeys.andThen (calm_onFiles ?_) fun _ =>
    Obeys.andThen within_reply fun _ => Obeys.andThen (within_update fun _ => ?_) fun _ =>
    within_pause)
  · exact Obeys.andThen (within_act fun _ _ _ _ => trivial) fun _ =>
      within_act fun _ _ _ _ => trivial
  · exact ⟨.refl _, rfl, rfl⟩

theorem calm_disconnectTerminals :
    Within Calm (disconnectTerminals droppable t id session).run :=
  within_update fun _ => ⟨.refl _, rfl, rfl⟩

theorem calm_prepareDisconnect : Within Calm (prepareDisconnect droppable t id).run := by
  refine Obeys.andThen (calm_onApp Application.calm_revokeHost) fun _ =>
    Obeys.andThen (calm_onApp Application.calm_removeRotationPlan) fun _ =>
    Obeys.andThen (calm_onApp Application.calm_slotOf) fun slot =>
    Obeys.andThen (calm_onSlot fun _ _ _ _ h => Application.calm_beginDisconnect h) fun work =>
    Obeys.andThen calm_clearMonitor fun _ => obeys_pure

theorem calm_closeConnection {work : Application.DisconnectWork} :
    Within Calm (closeConnection droppable t id work).run := by
  rw [closeConnection]
  split
  · exact obeys_pure
  · refine Obeys.andThen (Obeys.attempt calm_closeSftp) fun r => ?_
    cases r with
    | ok _ => exact calm_disconnectTerminals
    | error e => exact calm_onSlot fun _ _ _ _ h => Application.calm_showError h

theorem calm_finishDisconnect {work : Application.DisconnectWork} :
    Within Calm (finishDisconnect droppable t id work).run := by
  refine Obeys.andThen calm_closeConnection fun _ =>
    Obeys.andThen (calm_onSlot fun _ _ _ _ h => Application.calm_endDisconnect h)
      fun transport => ?_
  split_ifs
  · exact Obeys.andThen within_reply fun _ => within_reply
  · exact within_reply

end Facade

end NexusOps
