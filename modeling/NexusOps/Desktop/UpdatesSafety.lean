import NexusOps.Desktop.Updates

/-!
# The authority to install an update

What holds in every interleaving of the calls of the updater (`UpdateService.updates_of_run`):
at most one check or download is going on, an announcement is downloaded at most once, and what is
installed are the bytes of one download, with the installer of the announcement that it took.
-/

namespace NexusOps.Desktop

open Concurrency Function UpdateEvent

namespace UpdateService

/-! ## Sections -/

variable {r : Except AppError UpdateOperationSnapshot} {artifact : VerifiedArtifactId}
  {id : UpdateAnnouncementId} {generation : Nat} {currentVersion : String} {downloading : Bool}

namespace Inner

variable {target : Target} {inner inner' : Inner}

/-- A check is going on, or a download or an installation. -/
def Busy : State → Prop
  | .checking _ => True
  | .downloading .. => True
  | .installing .. => True
  | _ => False

theorem beginCheck_cases {r : Except AppError Nat} (h : inner.beginCheck = (r, inner')) :
    (∃ e, r = .error e) ∧ inner' = inner ∧
      (inner.shuttingDown = true ∨ Busy inner.state ∨ 2 ^ 64 ≤ inner.generation + 1) ∨
    r = .ok (inner.generation + 1) ∧ inner' = { inner with
      generation := inner.generation + 1, state := .checking (inner.generation + 1) } ∧
      inner.shuttingDown = false ∧ ¬Busy inner.state := by
  rw [beginCheck] at h
  by_cases hclosed : inner.shuttingDown = true
  · rw [if_pos hclosed] at h
    obtain ⟨⟩ := h
    exact .inl ⟨⟨_, rfl⟩, rfl, .inl hclosed⟩
  rw [if_neg hclosed] at h
  split at h
  · next hstate =>
    obtain ⟨⟩ := h
    exact .inl ⟨⟨_, rfl⟩, rfl, .inr (.inl (hstate ▸ trivial))⟩
  · next hstate =>
    obtain ⟨⟩ := h
    exact .inl ⟨⟨_, rfl⟩, rfl, .inr (.inl (hstate ▸ trivial))⟩
  · next hstate =>
    obtain ⟨⟩ := h
    exact .inl ⟨⟨_, rfl⟩, rfl, .inr (.inl (hstate ▸ trivial))⟩
  · next hchecking hdownloading hinstalling =>
    split_ifs at h with hbound
    · obtain ⟨⟩ := h
      refine .inr ⟨rfl, rfl, by simpa using hclosed, fun hbusy => ?_⟩
      cases hstate : inner.state with
      | checking => exact hchecking _ hstate
      | downloading => exact hdownloading _ _ _ _ _ hstate
      | installing => exact hinstalling _ _ hstate
      | _ =>
        rw [hstate] at hbusy
        exact hbusy
    · obtain ⟨⟩ := h
      exact .inl ⟨⟨_, rfl⟩, rfl, .inr (.inr (Nat.not_lt.1 hbound))⟩

theorem checks_eq_true : inner.checks generation = true ↔ inner.state = .checking generation := by
  cases hstate : inner.state <;> simp [checks, hstate]

/-- A check that ends as it should is the one that is going on. -/
theorem finishAnnounced_cases {checked : CheckedAnnouncement}
    (h : inner.finishAnnounced target generation currentVersion checked id = (r, inner')) :
    (∃ e, r = .error e) ∧ inner' = inner ∨ (∃ snapshot, r = .ok snapshot) ∧ inner' = { inner with
        state := .announced generation id checked.announcement checked.installerContext } ∧
      inner.shuttingDown = false ∧ inner.state = .checking generation := by
  rw [finishAnnounced] at h
  split_ifs at h with hcond
  · obtain ⟨⟩ := h
    exact .inl ⟨⟨_, rfl⟩, rfl⟩
  · obtain ⟨⟩ := h
    rw [not_or, not_not, checks_eq_true, Bool.not_eq_true] at hcond
    exact .inr ⟨⟨_, rfl⟩, rfl, hcond⟩

theorem finishUpToDate_cases (h : inner.finishUpToDate generation currentVersion = (r, inner')) :
    inner' = inner ∨ inner' = { inner with state := .idle } := by
  rw [finishUpToDate] at h
  split_ifs at h
  · exact .inl (Prod.mk.inj h).2.symm
  · exact .inr (Prod.mk.inj h).2.symm

theorem failActive_cases (inner : Inner) (generation : Nat) : inner.failActive generation = inner ∨
    inner.failActive generation = { inner with state := .idle } := by
  rw [failActive]
  split_ifs
  · exact .inr rfl
  · exact .inl rfl

theorem beginDownload_cases {r : Except AppError (Nat × String)}
    (h : inner.beginDownload id = (r, inner')) :
    (∃ e, r = .error e) ∧ inner' = inner ∨ ∃ generation announcement installerContext,
      r = .ok (generation, announcement.version) ∧ inner' = { inner with
        state := .downloading generation id announcement.version false installerContext } ∧
      inner.shuttingDown = false ∧
      inner.state = .announced generation id announcement installerContext := by
  rw [beginDownload] at h
  by_cases hclosed : inner.shuttingDown = true
  · rw [if_pos hclosed] at h
    obtain ⟨⟩ := h
    exact .inl ⟨⟨_, rfl⟩, rfl⟩
  rw [if_neg hclosed] at h
  split at h
  · next generation id' announcement installerContext hstate =>
    split_ifs at h with hid
    · obtain ⟨⟩ := h
      subst hid
      exact .inr ⟨_, _, _, rfl, rfl, by simpa using hclosed, hstate⟩
    · obtain ⟨⟩ := h
      exact .inl ⟨⟨_, rfl⟩, rfl⟩
  · obtain ⟨⟩ := h
    exact .inl ⟨⟨_, rfl⟩, rfl⟩

/-- A download ends as it should, or leaves nothing, or is not the one that is going on. -/
theorem finishDownload_cases {version currentVersion : String}
    {result : Except DownloadFailure (List UInt8)}
    (hsupported : target.installationSupported = true)
    (h : inner.finishDownload target generation version id currentVersion result artifact =
      (r, inner')) : (∃ e, r = .error e) ∧ inner' = inner ∧ (inner.shuttingDown = true ∨
      ∀ version verifying installerContext,
        inner.state ≠ .downloading generation id version verifying installerContext) ∨
    (∃ e, r = .error e) ∧ inner' = { inner with state := .idle } ∨
    ∃ version' verifying installerContext bytes snapshot, result = .ok bytes ∧ r = .ok snapshot ∧
      snapshot.verifiedArtifactId = some artifact ∧
      inner' = { inner with
        state := .verified generation (some artifact) version installerContext bytes } ∧
      inner.shuttingDown = false ∧
      inner.state = .downloading generation id version' verifying installerContext := by
  rw [finishDownload] at h
  by_cases hclosed : inner.shuttingDown = true
  · rw [if_pos hclosed] at h
    obtain ⟨⟩ := h
    exact .inl ⟨⟨_, rfl⟩, rfl, .inl hclosed⟩
  rw [if_neg hclosed] at h
  split at h
  · next active id' version' verifying installerContext hstate =>
    split_ifs at h with hmatch
    · obtain ⟨rfl, rfl⟩ := hmatch
      split at h
      · obtain ⟨⟩ := h
        exact .inr (.inl ⟨⟨_, rfl⟩, rfl⟩)
      · next bytes =>
        split at h
        · obtain ⟨⟩ := h
          exact .inr (.inl ⟨⟨_, rfl⟩, rfl⟩)
        · obtain ⟨⟩ := h
          exact .inr (.inr ⟨_, _, _, bytes, _, rfl, rfl, rfl, rfl, by simpa using hclosed, hstate⟩)
    · obtain ⟨⟩ := h
      refine .inl ⟨⟨_, rfl⟩, rfl, .inr fun _ _ _ heq => hmatch ?_⟩
      obtain ⟨hgeneration, hid, -⟩ := State.downloading.inj (hstate.symm.trans heq)
      exact ⟨hgeneration, hid⟩
  · next hnot =>
    obtain ⟨⟩ := h
    exact .inl ⟨⟨_, rfl⟩, rfl, .inr fun _ _ _ => hnot _ _ _ _ _⟩

theorem consumeInstall_cases {r : Except AppError InstallAuthority}
    (h : inner.consumeInstall target artifact = (r, inner')) : (∃ e, r = .error e) ∧
      (inner' = inner ∨ inner' = { inner with state := .idle } ∧ ¬Busy inner.state) ∨
    ∃ generation version authority, r = .ok authority ∧
      inner' = { inner with state := .installing generation version } ∧
      inner.state = .verified generation (some artifact) version authority.installerContext
        authority.bytes := by
  rw [consumeInstall] at h
  split at h
  · next generation active version installerContext bytes hstate =>
    split_ifs at h with hid
    · subst hid
      split at h
      · obtain ⟨⟩ := h
        exact .inl ⟨⟨_, rfl⟩, .inr ⟨rfl, hstate ▸ not_false⟩⟩
      · obtain ⟨⟩ := h
        exact .inr ⟨_, _, _, rfl, rfl, hstate⟩
    · obtain ⟨⟩ := h
      exact .inl ⟨⟨_, rfl⟩, .inl rfl⟩
  · obtain ⟨⟩ := h
    exact .inl ⟨⟨_, rfl⟩, .inl rfl⟩

theorem beginShutdown_cases (h : inner.beginShutdown = (downloading, inner')) :
    inner' = { inner with shuttingDown := true, state := .idle } ∨
    inner' = { inner with shuttingDown := true } ∧ ∃ generation id version verifying installerContext,
      inner.state = .downloading generation id version verifying installerContext := by
  rw [beginShutdown] at h
  split at h
  · next hstate => exact .inr ⟨(Prod.mk.inj h).2.symm, _, _, _, _, _, hstate⟩
  · exact .inl (Prod.mk.inj h).2.symm

theorem verify_cases (inner : Inner) : inner.verify = inner ∨
    ∃ generation id version verifying installerContext,
      inner.state = .downloading generation id version verifying installerContext ∧
      inner.verify = { inner with
        state := .downloading generation id version true installerContext } := by
  rw [verify]
  split
  · next hstate => exact .inr ⟨_, _, _, _, _, hstate, rfl⟩
  · exact .inl rfl

end Inner

/-! ## What the history tells -/

section

variable (es : List UpdateEvent)

/-- A check has announced the update with the installer. -/
def AnnouncedWith (id : UpdateAnnouncementId) (installerContext : InstallerContext) : Prop :=
  ∃ t generation currentVersion checked snapshot,
    .finishAnnounced t generation currentVersion checked id (.ok snapshot) ∈ es ∧
      checked.installerContext = installerContext

/-- The call has started to download the announcement, which had been made with the
    installer. -/
def Takes (t : TaskId) (id : UpdateAnnouncementId) (installerContext : InstallerContext) : Prop :=
  ∃ es₁ es₂ begun, es = es₁ ++ beginDownload t id (.ok begun) :: es₂ ∧
    AnnouncedWith es₁ id installerContext

/-- The section starts a check. -/
def startsCheck : UpdateEvent → Bool
  | .beginCheck _ (.ok _) => true
  | _ => false

/-- The number of checks that have been started. -/
def checksBegun : Nat := es.countP startsCheck

/-- The section puts an end to what has been verified. -/
def Revokes : UpdateEvent → Prop
  | .beginCheck _ (.ok _) => True
  | .beginShutdown .. => True
  | _ => False

/-- A download has been completed with these bytes, and has drawn the id for them and for the
    installer of the announcement that it took. No check has been started since, and the service
    has not been shut down. -/
def Mints (artifact : VerifiedArtifactId) (authority : InstallAuthority) : Prop :=
  ∃ es₁ es₂ t begun currentVersion snapshot, es = es₁ ++ finishDownload t begun currentVersion
      (.ok authority.bytes) artifact (.ok snapshot) :: es₂ ∧
    snapshot.verifiedArtifactId = some artifact ∧
    Takes es₁ t begun.id authority.installerContext ∧ (∀ e ∈ es₂, ¬Revokes e) ∧
    (checksBegun es < 2 ^ 64 - 1 → ∀ t r, .beginCheck t r ∉ es₂)

variable {es} {e : UpdateEvent} {t : TaskId} {id : UpdateAnnouncementId}
  {artifact : VerifiedArtifactId} {installerContext : InstallerContext}
  {authority : InstallAuthority}

theorem AnnouncedWith.snoc (h : AnnouncedWith es id installerContext) :
    AnnouncedWith (es ++ [e]) id installerContext := by
  obtain ⟨t, generation, currentVersion, checked, snapshot, hmem, hcontext⟩ := h
  exact ⟨t, generation, currentVersion, checked, snapshot, List.mem_append_left _ hmem, hcontext⟩

theorem Takes.snoc (h : Takes es t id installerContext) : Takes (es ++ [e]) t id installerContext := by
  obtain ⟨es₁, es₂, begun, rfl, hannounced⟩ := h
  exact ⟨es₁, es₂ ++ [e], begun, by simp, hannounced⟩

theorem checksBegun_snoc :
    checksBegun (es ++ [e]) = checksBegun es + if startsCheck e then 1 else 0 := by
  rw [checksBegun, checksBegun, List.countP_append, List.countP_singleton]

theorem Mints.snoc (h : Mints es artifact authority) (hnot : ¬Revokes e)
    (hcheck : ∀ t r, e = .beginCheck t r → 2 ^ 64 - 1 ≤ checksBegun es) :
    Mints (es ++ [e]) artifact authority := by
  obtain ⟨es₁, es₂, t, begun, currentVersion, snapshot, hes, hsnapshot, htakes, hsince, hnone⟩ := h
  refine ⟨es₁, es₂ ++ [e], t, begun, currentVersion, snapshot, by simp [hes], hsnapshot, htakes,
    fun e' he' => ?_, fun hbound t' r hmem => ?_⟩
  · rcases mem_snoc.1 he' with he' | rfl
    · exact hsince e' he'
    · exact hnot
  · have hbefore : checksBegun es < 2 ^ 64 - 1 := by
      rw [checksBegun_snoc] at hbound
      omega
    rcases mem_snoc.1 hmem with hmem | rfl
    · exact hnone hbefore t' r hmem
    · exact absurd (hcheck t' r rfl) (Nat.not_le.2 hbefore)

end

/-! ## The invariant -/

variable {target : Target} {es : List UpdateEvent} {s s' : UpdateService} {e : UpdateEvent}
  {t : TaskId}

/-- The call is a check or a download that is going on. -/
def Active (s : UpdateService) (t : TaskId) : Prop := s.checks t ≠ none ∨ s.downloads t ≠ none

/-- What the state is rests on what has happened. -/
def Explained (es : List UpdateEvent) (s : UpdateService) : State → Prop
  | .announced _ id _ installerContext => AnnouncedWith es id installerContext ∧
      ∀ t begun, .beginDownload t id (.ok begun) ∉ es
  | .downloading generation id version _ installerContext => ∃ t, Takes es t id installerContext ∧
      (s.inner.shuttingDown = true ∨ s.downloads t = some ⟨generation, version, id⟩)
  | .verified _ (some artifact) _ installerContext bytes =>
      Mints es artifact ⟨installerContext, bytes⟩ ∧
        ∀ authority, .consumeInstall artifact (.ok authority) ∉ es
  | _ => True

/-- The calls that are going on: there is at most one, and the state is the one that it has
    left. -/
structure Ongoing (s : UpdateService) : Prop where
  checks : ∀ t generation, s.checks t = some generation →
    s.inner.shuttingDown = true ∨ s.inner.state = .checking generation
  downloads : ∀ t begun, s.downloads t = some begun → s.inner.shuttingDown = true ∨
    ∃ verifying installerContext, s.inner.state =
      .downloading begun.generation begun.id begun.version verifying installerContext
  single : ∀ t t', s.Active t → s.Active t' → t = t'
  apart : ∀ t, s.checks t = none ∨ s.downloads t = none
  started : ∀ t, s.Active t → t ∈ s.started

/-- The announcement that a section makes or takes. -/
def announcementOf : UpdateEvent → Option UpdateAnnouncementId
  | .finishAnnounced _ _ _ _ id (.ok _) => some id
  | .beginDownload _ id (.ok _) => some id
  | _ => none

/-- The artifact that a section leaves or takes. -/
def artifactOf : UpdateEvent → Option VerifiedArtifactId
  | .finishDownload _ _ _ _ artifact (.ok _) => some artifact
  | .consumeInstall artifact (.ok _) => some artifact
  | _ => none

/-- The ids in the history have been drawn. -/
structure Drawn (es : List UpdateEvent) (s : UpdateService) : Prop where
  announcements : ∀ e ∈ es, ∀ id, announcementOf e = some id → id ∈ s.announcementIds
  artifacts : ∀ e ∈ es, ∀ artifact, artifactOf e = some artifact → artifact ∈ s.artifactIds

/-- The invariant. -/
structure Inv (es : List UpdateEvent) (s : UpdateService) : Prop where
  generation : s.inner.generation = checksBegun es
  sealed : s.inner.shuttingDown = true ↔ ∃ t downloading, .beginShutdown t downloading ∈ es
  closed : s.inner.shuttingDown = true → s.inner.state = .idle ∨
    ∃ generation id version verifying installerContext,
      s.inner.state = .downloading generation id version verifying installerContext
  waiting : ∀ t ∈ s.shutdowns, s.inner.shuttingDown = true
  ongoing : s.Ongoing
  explained : Explained es s s.inner.state
  drawn : Drawn es s

/-! ## Calls that are going on -/

namespace Ongoing

/-- Once a call has ended, no other is going on. -/
theorem others (h : s.Ongoing) {t' : TaskId} (ht : s.Active t) (hne : t' ≠ t) :
    s.checks t' = none ∧ s.downloads t' = none := by
  refine ⟨?_, ?_⟩
  · by_contra hsome
    exact hne (h.single t' t (.inl hsome) ht)
  · by_contra hsome
    exact hne (h.single t' t (.inr hsome) ht)

theorem of_none (hchecks : ∀ t, s.checks t = none) (hdownloads : ∀ t, s.downloads t = none) :
    s.Ongoing := by
  have hnone : ∀ t, ¬s.Active t := fun t h => h.elim (fun h => h (hchecks t)) fun h => h (hdownloads t)
  refine ⟨fun t generation h => ?_, fun t begun h => ?_, fun t _ h => absurd h (hnone t),
    fun t => .inl (hchecks t), fun t h => absurd h (hnone t)⟩
  · nomatch h.symm.trans (hchecks t)
  · nomatch h.symm.trans (hdownloads t)

/-- The call is the only one that is going on. -/
theorem of_only (hstarted : t ∈ s.started)
    (honly : ∀ t', t' ≠ t → s.checks t' = none ∧ s.downloads t' = none)
    (hcheck : ∀ generation, s.checks t = some generation → s.inner.state = .checking generation)
    (hdownload : ∀ begun, s.downloads t = some begun → ∃ verifying installerContext,
      s.inner.state = .downloading begun.generation begun.id begun.version verifying installerContext)
    (hapart : s.checks t = none ∨ s.downloads t = none) : s.Ongoing := by
  have hactive : ∀ t', s.Active t' → t' = t := fun t' h => by
    by_contra hne
    exact h.elim (fun h => h (honly t' hne).1) fun h => h (honly t' hne).2
  refine ⟨fun t' generation h => .inr ?_, fun t' begun h => .inr ?_, fun t' t'' h h' =>
    (hactive t' h).trans (hactive t'' h').symm, fun t' => ?_, fun t' h => hactive t' h ▸ hstarted⟩
  · obtain rfl := hactive t' (.inl (h ▸ nofun))
    exact hcheck generation h
  · obtain rfl := hactive t' (.inr (h ▸ nofun))
    exact hdownload begun h
  · by_cases hne : t' = t
    · exact hne ▸ hapart
    · exact .inl (honly t' hne).1

/-- Calls may have ended, while the state is the same or does not matter any more. -/
theorem shrink (h : s.Ongoing) (hchecks : ∀ t, s'.checks t = s.checks t ∨ s'.checks t = none)
    (hdownloads : ∀ t, s'.downloads t = s.downloads t ∨ s'.downloads t = none)
    (hinner : s'.inner.shuttingDown = true ∨ s'.inner = s.inner)
    (hstarted : s.started ⊆ s'.started) : s'.Ongoing := by
  have hactive : ∀ t, s'.Active t → s.Active t := fun t => Or.imp
    (fun hsome => (hchecks t).resolve_right hsome ▸ hsome)
    fun hsome => (hdownloads t).resolve_right hsome ▸ hsome
  refine ⟨fun t generation ht => ?_, fun t begun ht => ?_, fun t t' ht ht' =>
    h.single t t' (hactive t ht) (hactive t' ht'), fun t => ?_,
    fun t ht => hstarted (h.started t (hactive t ht))⟩
  · rcases hinner with hclosed | hinner
    · exact .inl hclosed
    · rcases hchecks t with heq | hnone
      · exact hinner ▸ h.checks t generation (heq ▸ ht)
      · nomatch hnone.symm.trans ht
  · rcases hinner with hclosed | hinner
    · exact .inl hclosed
    · rcases hdownloads t with heq | hnone
      · exact hinner ▸ h.downloads t begun (heq ▸ ht)
      · nomatch hnone.symm.trans ht
  · rcases h.apart t with hnone | hnone
    · exact .inl ((hchecks t).elim (fun heq => heq.trans hnone) id)
    · exact .inr ((hdownloads t).elim (fun heq => heq.trans hnone) id)

/-- Nothing is going on, unless the state says so. -/
theorem none_of_not_busy (h : s.Ongoing) (hopen : s.inner.shuttingDown = false)
    (hstate : ¬Inner.Busy s.inner.state) (t : TaskId) :
    s.checks t = none ∧ s.downloads t = none := by
  have hnot : s.inner.shuttingDown ≠ true := by simp [hopen]
  refine ⟨Option.eq_none_iff_forall_ne_some.2 fun generation ht => hstate ?_,
    Option.eq_none_iff_forall_ne_some.2 fun begun ht => hstate ?_⟩
  · rw [(h.checks t generation ht).resolve_left hnot]
    trivial
  · obtain ⟨verifying, installerContext, heq⟩ := (h.downloads t begun ht).resolve_left hnot
    rw [heq]
    trivial

/-- The check was the only call that was going on. -/
theorem of_check_ended (h : s.Ongoing) (ht : s.checks t = some generation)
    (hchecks : s'.checks = update s.checks t none)
    (hdownloads : s'.downloads = s.downloads) : s'.Ongoing := by
  have hactive : s.Active t := .inl (ht ▸ nofun)
  refine of_none (fun t' => ?_) fun t' => ?_
  · rw [hchecks]
    by_cases hne : t' = t
    · rw [hne, update_self]
    · rw [update_of_ne hne]
      exact (h.others hactive hne).1
  · rw [hdownloads]
    by_cases hne : t' = t
    · exact hne ▸ (h.apart t).resolve_left (ht ▸ nofun)
    · exact (h.others hactive hne).2

/-- The download was the only call that was going on. -/
theorem of_download_ended (h : s.Ongoing) {begun : BegunDownload} (ht : s.downloads t = some begun)
    (hdownloads : s'.downloads = update s.downloads t none)
    (hchecks : s'.checks = s.checks) : s'.Ongoing := by
  have hactive : s.Active t := .inr (ht ▸ nofun)
  refine of_none (fun t' => ?_) fun t' => ?_
  · rw [hchecks]
    by_cases hne : t' = t
    · exact hne ▸ (h.apart t).resolve_right (ht ▸ nofun)
    · exact (h.others hactive hne).1
  · rw [hdownloads]
    by_cases hne : t' = t
    · rw [hne, update_self]
    · rw [update_of_ne hne]
      exact (h.others hactive hne).2

end Ongoing

/-! ## Sections without effect -/

/-- The section is a step towards an installation, or the end of the service. -/
def Effective : UpdateEvent → Prop
  | .beginCheck _ (.ok _) => True
  | .finishAnnounced _ _ _ _ _ (.ok _) => True
  | .beginDownload _ _ (.ok _) => True
  | .finishDownload _ _ _ _ _ (.ok _) => True
  | .consumeInstall _ (.ok _) => True
  | .beginShutdown .. => True
  | _ => False

variable {e' : UpdateEvent}

theorem mem_of_mem_snoc (hmem : e' ∈ es ++ [e]) (he : ¬Effective e)
    (he' : Effective e') : e' ∈ es := by
  refine mem_of_snoc hmem ?_
  rintro rfl
  exact he he'

theorem Drawn.snoc (h : Drawn es s) (hannouncements : s.announcementIds ⊆ s'.announcementIds)
    (hartifacts : s.artifactIds ⊆ s'.artifactIds)
    (hannouncement : ∀ id, announcementOf e = some id → id ∈ s'.announcementIds)
    (hartifact : ∀ artifact, artifactOf e = some artifact → artifact ∈ s'.artifactIds) :
    Drawn (es ++ [e]) s' := by
  refine ⟨fun e' he' id hid => ?_, fun e' he' artifact hartifact' => ?_⟩
  · rcases mem_snoc.1 he' with he' | rfl
    · exact hannouncements (h.announcements e' he' id hid)
    · exact hannouncement id hid
  · rcases mem_snoc.1 he' with he' | rfl
    · exact hartifacts (h.artifacts e' he' artifact hartifact')
    · exact hartifact artifact hartifact'

/-- A section other than the start of a shutdown. -/
theorem sealed_snoc (he : ¬Revokes e ∨ startsCheck e = true) :
    (∃ t downloading, beginShutdown t downloading ∈ es ++ [e]) ↔
      ∃ t downloading, .beginShutdown t downloading ∈ es := by
  refine exists₂_congr fun t downloading => ⟨fun hmem => ?_, List.mem_append_left _⟩
  refine mem_of_snoc hmem ?_
  rintro rfl
  exact he.elim (fun h => h trivial) nofun

theorem Explained.snoc {state : State} (h : Explained es s state) (he : ¬Effective e)
    (hclosed : s'.inner.shuttingDown = s.inner.shuttingDown)
    (hdownloads : s.inner.shuttingDown = true ∨ s'.downloads = s.downloads)
    (hmints : ∀ generation artifact version installerContext bytes,
      state = .verified generation (some artifact) version installerContext bytes →
        Mints es artifact ⟨installerContext, bytes⟩ →
          Mints (es ++ [e]) artifact ⟨installerContext, bytes⟩) :
    Explained (es ++ [e]) s' state := by
  rcases state with _ | _ | ⟨generation, id, announcement, installerContext⟩ |
    ⟨generation, id, version, verifying, installerContext⟩ | ⟨generation, artifact, version,
      installerContext, bytes⟩ | _
  · trivial
  · trivial
  · exact ⟨h.1.snoc, fun t begun hmem => h.2 t begun (mem_of_mem_snoc hmem he trivial)⟩
  · obtain ⟨t, htakes, ht⟩ := h
    refine ⟨t, htakes.snoc, ?_⟩
    rw [hclosed]
    rcases hdownloads with hsealed | heq
    · exact .inl hsealed
    · rwa [heq]
  · cases artifact with
    | none => trivial
    | some artifact => exact ⟨hmints generation artifact version _ _ rfl h.1, fun authority hmem =>
        h.2 authority (mem_of_mem_snoc hmem he trivial)⟩
  · trivial

/-- A section without effect leaves the state as it is, or leaves nothing. -/
theorem Inv.snoc (h : Inv es s) (he : ¬Effective e)
    (hgeneration : s'.inner.generation = s.inner.generation)
    (hclosed : s'.inner.shuttingDown = s.inner.shuttingDown)
    (hannouncements : s.announcementIds ⊆ s'.announcementIds)
    (hartifacts : s.artifactIds ⊆ s'.artifactIds) (hshutdowns : s'.shutdowns ⊆ s.shutdowns)
    (hongoing : s'.Ongoing) (hstate : s'.inner.state = .idle ∨ s'.inner.state = s.inner.state ∧
      (s.inner.shuttingDown = true ∨ s'.downloads = s.downloads) ∧
      ∀ t r, e = .beginCheck t r → s.inner.shuttingDown = true ∨ Inner.Busy s.inner.state ∨
        2 ^ 64 ≤ s.inner.generation + 1) : Inv (es ++ [e]) s' := by
  have hstarts : startsCheck e = false := by
    by_contra hstarts
    refine he ?_
    rw [Bool.not_eq_false, startsCheck.eq_def] at hstarts
    split at hstarts
    · trivial
    · nomatch hstarts
  have hrevokes : ¬Revokes e := by
    intro hrevokes
    rw [Revokes.eq_def] at hrevokes
    split at hrevokes
    · exact he trivial
    · exact he trivial
    · exact hrevokes
  have hannouncement : announcementOf e = none := by
    rw [announcementOf.eq_def]
    split
    · exact absurd trivial he
    · exact absurd trivial he
    · rfl
  have hartifact : artifactOf e = none := by
    rw [artifactOf.eq_def]
    split
    · exact absurd trivial he
    · exact absurd trivial he
    · rfl
  refine ⟨?_, ?_, fun hsealed => ?_, fun t ht => hclosed ▸ h.waiting t (hshutdowns ht), hongoing,
    ?_, h.drawn.snoc hannouncements hartifacts
    (fun _ hid => nomatch hannouncement.symm.trans hid)
    fun _ hid => nomatch hartifact.symm.trans hid⟩
  · rw [hgeneration, checksBegun_snoc, hstarts, h.generation]
    rfl
  · rw [hclosed, h.sealed, sealed_snoc (.inl hrevokes)]
  · rcases hstate with hidle | ⟨hsame, -⟩
    · exact .inl hidle
    · exact hsame ▸ h.closed (hclosed ▸ hsealed)
  · rcases hstate with hidle | ⟨hsame, hdownloads, hcheck⟩
    · exact hidle ▸ trivial
    · rw [hsame]
      refine h.explained.snoc he hclosed hdownloads fun generation artifact version installerContext
        bytes hverified hmints => hmints.snoc hrevokes fun t r heq => ?_
      -- A check that is refused in this state has run out of numbers.
      have hopen : ¬s.inner.shuttingDown = true := by
        intro hsealed
        rcases h.closed hsealed with hidle | ⟨_, _, _, _, _, hdownloading⟩
        · nomatch hidle.symm.trans hverified
        · nomatch hdownloading.symm.trans hverified
      have hidle : ¬Inner.Busy s.inner.state := by
        rw [hverified]
        exact id
      have hbound := ((hcheck t r heq).resolve_left hopen).resolve_left hidle
      rw [h.generation] at hbound
      omega

/-! ## Steps -/

theorem Inv.beginCheck (h : Inv es s) {r : Except AppError Nat}
    (hs : Performs target s s' (beginCheck t r)) : Inv (es ++ [beginCheck t r]) s' := by
  obtain ⟨-, inner, hcheck, rfl⟩ := hs
  rcases Inner.beginCheck_cases hcheck with ⟨⟨e, rfl⟩, rfl, hwhy⟩ | ⟨rfl, rfl, hopen, hidle⟩
  · refine h.snoc id rfl rfl subset_rfl subset_rfl subset_rfl ?_
      (.inr ⟨rfl, .inr rfl, fun _ _ _ => hwhy⟩)
    refine h.ongoing.shrink (fun t' => ?_) (fun _ => .inl rfl) (.inr rfl) (Finset.subset_insert _ _)
    by_cases hne : t' = t
    · exact .inr (hne ▸ update_self ..)
    · exact .inl (update_of_ne hne ..)
  · have hnone := h.ongoing.none_of_not_busy hopen hidle
    refine ⟨?_, ?_, fun hsealed => absurd (hopen.symm.trans hsealed) nofun, h.waiting, ?_, trivial,
      h.drawn.snoc subset_rfl subset_rfl nofun nofun⟩
    · rw [checksBegun_snoc, ← h.generation]
      rfl
    · rw [sealed_snoc (.inr rfl)]
      exact h.sealed
    · refine .of_only (t := t) (Finset.mem_insert_self _ _) (fun t' hne => ⟨?_, (hnone t').2⟩)
        (fun generation ht => ?_) (fun begun ht => nomatch (hnone t).2.symm.trans ht) (.inr (hnone t).2)
      · exact (update_of_ne hne ..).trans (hnone t').1
      · obtain rfl := Option.mem_unique (update_self t _ s.checks) ht
        rfl

theorem Inv.finishAnnounced (h : Inv es s) {checked : CheckedAnnouncement}
    (hs : Performs target s s' (.finishAnnounced t generation currentVersion checked id r)) :
    Inv (es ++ [finishAnnounced t generation currentVersion checked id r]) s' := by
  obtain ⟨ht, hfresh, inner, hfinish, rfl⟩ := hs
  have hongoing : Ongoing { s with
      inner := inner
      checks := update s.checks t none
      announcementIds := insert id s.announcementIds } :=
    h.ongoing.of_check_ended ht rfl rfl
  rcases Inner.finishAnnounced_cases hfinish with ⟨⟨e, rfl⟩, rfl⟩ | ⟨⟨snapshot, rfl⟩, rfl, hopen, -⟩
  · exact h.snoc not_false rfl rfl (Finset.subset_insert _ _) subset_rfl subset_rfl hongoing
      (.inr ⟨rfl, .inr rfl, fun _ _ => nofun⟩)
  · refine ⟨?_, ?_, fun hsealed => absurd (hopen.symm.trans hsealed) nofun, h.waiting, hongoing,
      ⟨?_, ?_⟩, ?_⟩
    · rw [checksBegun_snoc]
      exact h.generation
    · rw [sealed_snoc]
      · exact h.sealed
      · exact .inl not_false
    · exact ⟨t, generation, currentVersion, checked, snapshot,
        List.mem_concat_self, rfl⟩
    · -- The id is new.
      intro t' begun hmem
      exact hfresh (h.drawn.announcements _ (mem_of_snoc hmem nofun) id rfl)
    · refine h.drawn.snoc (Finset.subset_insert _ _) subset_rfl (fun id' hid => ?_) nofun
      exact Option.some.inj hid ▸ Finset.mem_insert_self _ _

theorem Inv.finishUpToDate (h : Inv es s)
    (hs : Performs target s s' (.finishUpToDate t generation currentVersion r)) :
    Inv (es ++ [finishUpToDate t generation currentVersion r]) s' := by
  obtain ⟨ht, inner, hfinish, rfl⟩ := hs
  have hongoing : Ongoing { s with inner := inner, checks := update s.checks t none } :=
    h.ongoing.of_check_ended ht rfl rfl
  rcases Inner.finishUpToDate_cases hfinish with rfl | rfl
  · exact h.snoc id rfl rfl subset_rfl subset_rfl subset_rfl hongoing
      (.inr ⟨rfl, .inr rfl, fun _ _ => nofun⟩)
  · exact h.snoc id rfl rfl subset_rfl subset_rfl subset_rfl hongoing (.inl rfl)

theorem Inv.failActive (h : Inv es s) (hs : Performs target s s' (.failActive t generation)) :
    Inv (es ++ [failActive t generation]) s' := by
  obtain ⟨ht, rfl⟩ := hs
  have hongoing : Ongoing { s with
      inner := s.inner.failActive generation
      checks := update s.checks t none } :=
    h.ongoing.of_check_ended ht rfl rfl
  rcases s.inner.failActive_cases generation with heq | heq
  · rw [heq] at hongoing ⊢
    exact h.snoc id rfl rfl subset_rfl subset_rfl subset_rfl hongoing
      (.inr ⟨rfl, .inr rfl, fun _ _ => nofun⟩)
  · rw [heq] at hongoing ⊢
    exact h.snoc id rfl rfl subset_rfl subset_rfl subset_rfl hongoing (.inl rfl)

theorem Inv.beginDownload (h : Inv es s)
    {r : Except AppError (Nat × String)} (hs : Performs target s s' (.beginDownload t id r)) :
    Inv (es ++ [beginDownload t id r]) s' := by
  obtain ⟨hnew, inner, hbegin, rfl⟩ := hs
  rcases Inner.beginDownload_cases hbegin with ⟨⟨e, rfl⟩, rfl⟩ |
    ⟨generation, announcement, installerContext, rfl, rfl, hopen, hstate⟩
  · have hnone : update s.downloads t none = s.downloads := by
      rw [update_eq_self_iff]
      by_contra hactive
      exact hnew (h.ongoing.started t (.inr (Ne.symm hactive)))
    refine h.snoc not_false rfl rfl subset_rfl subset_rfl subset_rfl ?_
      (.inr ⟨rfl, .inr hnone, fun _ _ => nofun⟩)
    exact h.ongoing.shrink (fun _ => .inl rfl) (fun t' => .inl (congrFun hnone t')) (.inr rfl)
      (Finset.subset_insert _ _)
  · have hnone := h.ongoing.none_of_not_busy hopen (hstate ▸ not_false)
    have hexplained := h.explained
    rw [hstate] at hexplained
    refine ⟨?_, ?_, fun hsealed => absurd (hopen.symm.trans hsealed) nofun, h.waiting, ?_,
      ⟨t, ⟨es, [], _, rfl, hexplained.1⟩, .inr (update_self ..)⟩, ?_⟩
    · rw [checksBegun_snoc]
      exact h.generation
    · rw [sealed_snoc]
      · exact h.sealed
      · exact .inl not_false
    · refine .of_only (t := t) (Finset.mem_insert_self _ _) (fun t' hne => ⟨(hnone t').1, ?_⟩)
        (fun generation ht => absurd ((hnone t).1.symm.trans ht) nofun) (fun begun ht => ?_)
        (.inl (hnone t).1)
      · exact (update_of_ne hne ..).trans (hnone t').2
      · obtain rfl := Option.mem_unique (update_self t _ s.downloads) ht
        exact ⟨_, _, rfl⟩
    · refine h.drawn.snoc subset_rfl subset_rfl (fun id' hid => ?_) nofun
      obtain ⟨t', _, _, _, _, hmem, -⟩ := hexplained.1
      exact Option.some.inj hid ▸ h.drawn.announcements _ hmem id rfl

theorem Inv.finishDownload (h : Inv es s) (hsupported : target.installationSupported = true)
    {begun : BegunDownload} {download : Except DownloadFailure (List UInt8)}
    (hs : Performs target s s' (.finishDownload t begun currentVersion download artifact r)) :
    Inv (es ++ [finishDownload t begun currentVersion download artifact r]) s' := by
  obtain ⟨ht, hfresh, inner, hfinish, rfl⟩ := hs
  have hongoing : Ongoing { s with
      inner := inner
      downloads := update s.downloads t none
      artifactIds := insert artifact s.artifactIds } :=
    h.ongoing.of_download_ended ht rfl rfl
  rcases Inner.finishDownload_cases hsupported hfinish with ⟨⟨e, rfl⟩, rfl, hwhy⟩ |
    ⟨⟨e, rfl⟩, rfl⟩ | ⟨version, verifying, installerContext, bytes, snapshot, rfl, rfl, hsnapshot, rfl,
      hopen, hstate⟩
  · -- Unless it is shut down, the service is in the state that the call has left.
    have hclosed : s.inner.shuttingDown = true := by
      by_contra hopen
      obtain ⟨_, _, heq⟩ := (h.ongoing.downloads t begun ht).resolve_left hopen
      exact hwhy.resolve_left hopen _ _ _ heq
    exact h.snoc not_false rfl rfl subset_rfl (Finset.subset_insert _ _) subset_rfl hongoing
      (.inr ⟨rfl, .inl hclosed, fun _ _ => nofun⟩)
  · exact h.snoc not_false rfl rfl subset_rfl (Finset.subset_insert _ _) subset_rfl hongoing
      (.inl rfl)
  · have hexplained := h.explained
    rw [hstate] at hexplained
    obtain ⟨t', htakes, ht'⟩ := hexplained
    have hbegun := ht'.resolve_left (by simp [hopen])
    obtain rfl := h.ongoing.single t t' (.inr (ht ▸ nofun)) (.inr (hbegun ▸ nofun))
    refine ⟨?_, ?_, fun hsealed => absurd (hopen.symm.trans hsealed) nofun, h.waiting, hongoing,
      ⟨?_, ?_⟩, ?_⟩
    · rw [checksBegun_snoc]
      exact h.generation
    · rw [sealed_snoc]
      · exact h.sealed
      · exact .inl not_false
    · exact ⟨es, [], t, begun, currentVersion, snapshot, rfl, hsnapshot, htakes,
        fun e he => absurd he List.not_mem_nil, fun _ _ _ => List.not_mem_nil⟩
    · -- The id is new.
      intro authority hmem
      exact hfresh (h.drawn.artifacts _ (mem_of_snoc hmem nofun) artifact rfl)
    · refine h.drawn.snoc subset_rfl (Finset.subset_insert _ _) nofun fun artifact' hid => ?_
      exact Option.some.inj hid ▸ Finset.mem_insert_self _ _

theorem Inv.consumeInstall (h : Inv es s)
    {r : Except AppError InstallAuthority} (hs : Performs target s s' (.consumeInstall artifact r)) :
    Inv (es ++ [consumeInstall artifact r]) s' := by
  obtain ⟨inner, hconsume, rfl⟩ := hs
  have hunbusy : ¬Inner.Busy s.inner.state → inner.shuttingDown = s.inner.shuttingDown →
      Ongoing { s with inner := inner } := by
    intro hidle hsame
    cases hopen : s.inner.shuttingDown with
    | true =>
      exact h.ongoing.shrink (fun _ => .inl rfl) (fun _ => .inl rfl) (.inl (hsame.trans hopen))
        subset_rfl
    | false =>
      have hnone := h.ongoing.none_of_not_busy hopen hidle
      exact .of_none (fun t => (hnone t).1) fun t => (hnone t).2
  rcases Inner.consumeInstall_cases hconsume with ⟨⟨e, rfl⟩, rfl | ⟨rfl, hidle⟩⟩ |
    ⟨generation, version, authority, rfl, rfl, hstate⟩
  · exact h.snoc not_false rfl rfl subset_rfl subset_rfl subset_rfl h.ongoing
      (.inr ⟨rfl, .inr rfl, fun _ _ => nofun⟩)
  · exact h.snoc not_false rfl rfl subset_rfl subset_rfl subset_rfl (hunbusy hidle rfl) (.inl rfl)
  · have hexplained := h.explained
    rw [hstate] at hexplained
    obtain ⟨⟨es₁, es₂, t, begun, _, _, hes, -⟩, -⟩ := hexplained
    refine ⟨?_, ?_, fun hsealed => ?_, h.waiting, hunbusy (hstate ▸ not_false) rfl, trivial, ?_⟩
    · rw [checksBegun_snoc]
      exact h.generation
    · rw [sealed_snoc]
      · exact h.sealed
      · exact .inl not_false
    · rcases h.closed hsealed with hidle | ⟨_, _, _, _, _, hdownloading⟩
      · nomatch hidle.symm.trans hstate
      · nomatch hdownloading.symm.trans hstate
    · have hminted := h.drawn.artifacts _ (hes ▸ List.mem_append_cons_self) _ rfl
      refine h.drawn.snoc subset_rfl subset_rfl nofun fun artifact' hid => ?_
      exact Option.some.inj hid ▸ hminted

theorem Inv.beginShutdown (h : Inv es s)
    (hs : Performs target s s' (.beginShutdown t downloading)) :
    Inv (es ++ [beginShutdown t downloading]) s' := by
  obtain ⟨-, inner, hbegin, rfl⟩ := hs
  have hinner : inner.generation = s.inner.generation ∧ inner.shuttingDown = true ∧
      (inner.state = .idle ∨ inner.state = s.inner.state ∧
        ∃ generation id version verifying installerContext,
          s.inner.state = .downloading generation id version verifying installerContext) := by
    rcases Inner.beginShutdown_cases hbegin with rfl | ⟨rfl, hstate⟩
    · exact ⟨rfl, rfl, .inl rfl⟩
    · exact ⟨rfl, rfl, .inr ⟨rfl, hstate⟩⟩
  obtain ⟨hgeneration, hclosed, hstate⟩ := hinner
  refine ⟨?_, ⟨fun _ => ⟨t, downloading, List.mem_concat_self⟩,
    fun _ => hclosed⟩, fun _ => ?_, fun _ _ => hclosed, ?_, ?_,
    h.drawn.snoc subset_rfl subset_rfl nofun nofun⟩
  · rw [checksBegun_snoc]
    exact hgeneration.trans h.generation
  · exact hstate.imp_right fun ⟨hsame, hdownloading⟩ => hsame ▸ hdownloading
  · exact h.ongoing.shrink (fun _ => .inl rfl) (fun _ => .inl rfl) (.inl hclosed)
      (Finset.subset_insert _ _)
  · rcases hstate with hidle | ⟨hsame, _, _, _, _, _, hdownloading⟩
    · exact hidle ▸ trivial
    · have hexplained := h.explained
      rw [hdownloading] at hexplained
      obtain ⟨t', htakes, -⟩ := hexplained
      rw [show inner.state = _ from hsame.trans hdownloading]
      exact ⟨t', htakes.snoc, .inl hclosed⟩

theorem Inv.endShutdown (h : Inv es s) (hs : Performs target s s' (.endShutdown t)) :
    Inv (es ++ [endShutdown t]) s' := by
  obtain ⟨ht, rfl⟩ := hs
  exact h.snoc not_false rfl rfl subset_rfl subset_rfl (Finset.erase_subset _ _)
    (h.ongoing.shrink (fun _ => .inl rfl) (fun _ => .inl rfl) (.inl (h.waiting t ht)) subset_rfl)
    (.inl rfl)

/-- A section that only reads. -/
theorem Inv.of_same (h : Inv es s) (he : ¬Effective e) (hcheck : ∀ t r, e ≠ .beginCheck t r)
    (hs : s' = s) : Inv (es ++ [e]) s' := by
  subst hs
  exact h.snoc he rfl rfl subset_rfl subset_rfl subset_rfl h.ongoing
    (.inr ⟨rfl, .inr rfl, fun t r heq => absurd heq (hcheck t r)⟩)

theorem Inv.verify (h : Inv es s) (hs : Performs target s s' .verify) :
    Inv (es ++ [verify]) s' := by
  obtain rfl := hs
  rcases s.inner.verify_cases with heq |
    ⟨generation, id, version, verifying, installerContext, hstate, heq⟩
  · rw [heq]
    exact h.of_same not_false (fun _ _ => nofun) rfl
  · have hexplained := h.explained
    rw [hstate] at hexplained
    obtain ⟨t, htakes, ht⟩ := hexplained
    rw [heq]
    refine ⟨?_, ?_, fun _ => .inr ⟨_, _, _, _, _, rfl⟩, h.waiting, ⟨fun t' generation' ht' => ?_,
      fun t' begun ht' => ?_, h.ongoing.single, h.ongoing.apart, h.ongoing.started⟩,
      ⟨t, htakes.snoc, ht⟩, h.drawn.snoc subset_rfl subset_rfl nofun nofun⟩
    · rw [checksBegun_snoc]
      exact h.generation
    · rw [sealed_snoc]
      · exact h.sealed
      · exact .inl not_false
    · exact (h.ongoing.checks t' generation' ht').imp_right fun hchecking =>
        nomatch hchecking.symm.trans hstate
    · refine (h.ongoing.downloads t' begun ht').imp_right fun ⟨_, _, hdownloading⟩ => ?_
      obtain ⟨rfl, rfl, rfl, -, -⟩ := State.downloading.inj (hdownloading.symm.trans hstate)
      exact ⟨_, _, rfl⟩

/-- A step keeps the invariant. -/
theorem Inv.step (hsupported : target.installationSupported = true) (h : Inv es s)
    (hs : Performs target s s' e) : Inv (es ++ [e]) s' := by
  cases e with
  | beginCheck t r => exact h.beginCheck hs
  | finishAnnounced t generation currentVersion checked id r => exact h.finishAnnounced hs
  | finishUpToDate t generation currentVersion r => exact h.finishUpToDate hs
  | failActive t generation => exact h.failActive hs
  | beginDownload t id r => exact h.beginDownload hs
  | finishDownload t begun currentVersion download artifact r => exact h.finishDownload hsupported hs
  | validateInstall artifact r => exact h.of_same not_false (fun _ _ => nofun) hs.2
  | consumeInstall artifact r => exact h.consumeInstall hs
  | beginShutdown t downloading => exact h.beginShutdown hs
  | endShutdown t => exact h.endShutdown hs
  | verify => exact h.verify hs
  | snapshot currentVersion r => exact h.of_same not_false (fun _ _ => nofun) hs.2

theorem inv_of_run (hsupported : target.installationSupported = true)
    (h : (machine target).Run es s) : Inv es s := by
  induction h using Machine.Run.induction with
  | init s hinit =>
    obtain rfl := hinit
    exact ⟨rfl, by simp [new], nofun, by simp [new], .of_none (fun _ => rfl) fun _ => rfl, trivial,
      by simp, by simp⟩
  | snoc es s e s' _ hs ih => exact ih.step hsupported hs

/-! ## Main results -/

section

variable {es₁ es₂ : List UpdateEvent} (hsupported : target.installationSupported = true)

include hsupported

/-- What is known where a section of a run starts. -/
theorem exists_inv_of_run (h : (machine target).Run (es₁ ++ e :: es₂) s) :
    ∃ s₁ s₂, Inv es₁ s₁ ∧ Performs target s₁ s₂ e := by
  obtain ⟨s₁, s₂, h₁, hs, -⟩ := Machine.run_append_cons.1 h
  exact ⟨s₁, s₂, inv_of_run hsupported h₁, hs⟩

/-- What is known where a section starts, at some time after another one. -/
theorem exists_inv_of_mem (h : (machine target).Run (es₁ ++ e :: es₂) s)
    (hmem : e' ∈ es₂) : ∃ es s₁ s₂, e ∈ es ∧ Inv es s₁ ∧ Performs target s₁ s₂ e' := by
  obtain ⟨es₃, es₄, rfl⟩ := List.append_of_mem hmem
  rw [← List.cons_append, ← List.append_assoc] at h
  obtain ⟨s₁, s₂, hinv, hs⟩ := exists_inv_of_run hsupported h
  exact ⟨_, s₁, s₂, List.mem_append_cons_self, hinv, hs⟩

/-- An announcement is taken at most once. -/
theorem not_mem_of_beginDownload {begun begun' : Nat × String} {t' : TaskId}
    (h : (machine target).Run (es₁ ++ beginDownload t id (.ok begun) :: es₂) s) :
    .beginDownload t' id (.ok begun') ∉ es₂ := by
  intro hmem
  obtain ⟨es, s₁, s₂, hbefore, hinv, -, inner, hbegin, -⟩ := exists_inv_of_mem hsupported h hmem
  rcases Inner.beginDownload_cases hbegin with ⟨⟨e, hr⟩, -⟩ | ⟨_, _, _, -, -, -, hstate⟩
  · nomatch hr
  · have hexplained := hinv.explained
    rw [hstate] at hexplained
    exact hexplained.2 t begun hbefore

/-- An installation is of what a download has left. -/
theorem mints_of_consumeInstall {authority : InstallAuthority}
    (h : (machine target).Run (es₁ ++ consumeInstall artifact (.ok authority) :: es₂) s) :
    Mints es₁ artifact authority := by
  obtain ⟨s₁, s₂, hinv, inner, hconsume, -⟩ := exists_inv_of_run hsupported h
  rcases Inner.consumeInstall_cases hconsume with ⟨⟨e, hr⟩, -⟩ | ⟨_, _, authority', hr, -, hstate⟩
  · nomatch hr
  · obtain ⟨⟩ := hr
    have hexplained := hinv.explained
    rw [hstate] at hexplained
    exact hexplained.1

/-- What a download has left is taken at most once. -/
theorem not_mem_of_consumeInstall {authority authority' : InstallAuthority}
    (h : (machine target).Run (es₁ ++ consumeInstall artifact (.ok authority) :: es₂) s) :
    .consumeInstall artifact (.ok authority') ∉ es₂ := by
  intro hmem
  obtain ⟨es, s₁, s₂, hbefore, hinv, inner, hconsume, -⟩ := exists_inv_of_mem hsupported h hmem
  rcases Inner.consumeInstall_cases hconsume with ⟨⟨e, hr⟩, -⟩ | ⟨_, _, _, -, -, hstate⟩
  · nomatch hr
  · have hexplained := hinv.explained
    rw [hstate] at hexplained
    exact hexplained.2 authority hbefore

/-- Nothing is started any more after the service has been shut down. -/
theorem sealed_of_mem
    (h : (machine target).Run (es₁ ++ beginShutdown t downloading :: es₂) s) (hmem : e' ∈ es₂) :
    ∃ s₁ s₂, s₁.inner.shuttingDown = true ∧ Performs target s₁ s₂ e' := by
  obtain ⟨es, s₁, s₂, hbefore, hinv, hs⟩ := exists_inv_of_mem hsupported h hmem
  exact ⟨s₁, s₂, hinv.sealed.2 ⟨t, downloading, hbefore⟩, hs⟩

theorem not_mem_of_beginShutdown
    (h : (machine target).Run (es₁ ++ beginShutdown t downloading :: es₂) s) :
    (∀ t generation, .beginCheck t (.ok generation) ∉ es₂) ∧
    (∀ t id begun, .beginDownload t id (.ok begun) ∉ es₂) ∧
    (∀ t begun currentVersion download artifact snapshot,
      .finishDownload t begun currentVersion download artifact (.ok snapshot) ∉ es₂) := by
  refine ⟨fun t generation hmem => ?_, fun t id begun hmem => ?_,
    fun t begun currentVersion download artifact snapshot hmem => ?_⟩
  · obtain ⟨s₁, s₂, hclosed, -, inner, hbegin, -⟩ := sealed_of_mem hsupported h hmem
    rcases Inner.beginCheck_cases hbegin with ⟨⟨e, hr⟩, -⟩ | ⟨-, -, hopen, -⟩
    · nomatch hr
    · nomatch hclosed.symm.trans hopen
  · obtain ⟨s₁, s₂, hclosed, -, inner, hbegin, -⟩ := sealed_of_mem hsupported h hmem
    rcases Inner.beginDownload_cases hbegin with ⟨⟨e, hr⟩, -⟩ | ⟨_, _, _, -, -, hopen, -⟩
    · nomatch hr
    · nomatch hclosed.symm.trans hopen
  · obtain ⟨s₁, s₂, hclosed, -, -, inner, hfinish, -⟩ := sealed_of_mem hsupported h hmem
    rcases Inner.finishDownload_cases hsupported hfinish with ⟨⟨e, hr⟩, -⟩ | ⟨⟨e, hr⟩, -⟩ |
      ⟨_, _, _, _, _, -, -, -, -, hopen, -⟩
    · nomatch hr
    · nomatch hr
    · nomatch hclosed.symm.trans hopen

/-- At most one check or download is going on. An announcement starts at most one download. What
    is installed has been left by a download, is taken once, and consists of the bytes of the
    download and the installer of the announcement that it took. After the service has been shut
    down, no check or download starts, and nothing is verified. -/
theorem updates_of_run (h : (machine target).Run es s) :
    (∀ t t', s.Active t → s.Active t' → t = t') ∧
    (∀ t, s.checks t = none ∨ s.downloads t = none) ∧
    (∀ es₁ t id begun, ∀ es₂ : List UpdateEvent,
      es = es₁ ++ beginDownload t id (.ok begun) :: es₂ →
        ∀ t' begun', .beginDownload t' id (.ok begun') ∉ es₂) ∧
    (∀ es₁ artifact authority, ∀ es₂ : List UpdateEvent,
      es = es₁ ++ consumeInstall artifact (.ok authority) :: es₂ →
        Mints es₁ artifact authority ∧
          ∀ authority', .consumeInstall artifact (.ok authority') ∉ es₂) ∧
    ∀ es₁ t downloading, ∀ es₂ : List UpdateEvent, es = es₁ ++ beginShutdown t downloading :: es₂ →
      (∀ t generation, .beginCheck t (.ok generation) ∉ es₂) ∧
      (∀ t id begun, .beginDownload t id (.ok begun) ∉ es₂) ∧
      (∀ t begun currentVersion download artifact snapshot,
        .finishDownload t begun currentVersion download artifact (.ok snapshot) ∉ es₂) ∧
      (s.inner.state = .idle ∨ ∃ generation id version verifying installerContext,
        s.inner.state = .downloading generation id version verifying installerContext) := by
  have hinv := inv_of_run hsupported h
  refine ⟨hinv.ongoing.single, hinv.ongoing.apart, ?_, ?_, ?_⟩
  · rintro es₁ t id begun es₂ rfl t' begun'
    exact not_mem_of_beginDownload hsupported h
  · rintro es₁ artifact authority es₂ rfl
    exact ⟨mints_of_consumeInstall hsupported h, fun _ => not_mem_of_consumeInstall hsupported h⟩
  · rintro es₁ t downloading es₂ rfl
    obtain ⟨hcheck, hdownload, hfinish⟩ := not_mem_of_beginShutdown hsupported h
    exact ⟨hcheck, hdownload, hfinish, hinv.closed (hinv.sealed.2
      ⟨t, downloading, List.mem_append_cons_self⟩)⟩

end

/-- An update that is offered to the application on 64-bit Windows. -/
def offered : CheckedAnnouncement :=
  ⟨⟨"1", "", ""⟩, ⟨0, ⟨"1", "windows", some "NexusOps_1_x64-setup.exe"⟩⟩⟩

/-- What leads to the bytes of an update. -/
def fetched : List UpdateEvent :=
  [.beginCheck ⟨0⟩ (.ok 1),
    .finishAnnounced ⟨0⟩ 1 "0" offered ⟨0⟩
      (.ok ⟨"0", .updateAnnounced, some "1", some ⟨0⟩, none, false⟩),
    .beginDownload ⟨1⟩ ⟨0⟩ (.ok (1, "1")),
    .finishDownload ⟨1⟩ ⟨1, "1", ⟨0⟩⟩ "0" (.ok [7]) ⟨0⟩
      (.ok ⟨"0", .verified, some "1", none, some ⟨0⟩, true⟩)]

/-- The update that is offered can be installed. -/
theorem exists_run_installed : ∃ s, (machine ⟨true, .x64⟩).Run
    (fetched ++ [consumeInstall ⟨0⟩ (.ok ⟨offered.installerContext, [7]⟩),
      beginShutdown ⟨2⟩ false]) s := by
  have hvalid : validateInstallerIdentity ⟨true, .x64⟩ offered.installerContext.identity = .ok () := by
    decide +kernel
  have hfinish : Inner.finishDownload ⟨true, .x64⟩
      ⟨1, false, .downloading 1 ⟨0⟩ "1" false offered.installerContext⟩ 1 "1" ⟨0⟩ "0" (.ok [7]) ⟨0⟩ =
      (.ok ⟨"0", .verified, some "1", none, some ⟨0⟩, true⟩,
        ⟨1, false, .verified 1 (some ⟨0⟩) "1" offered.installerContext [7]⟩) := by
    simp [Inner.finishDownload, hvalid, Target.installationSupported, snapshotFor]
  have hconsume : Inner.consumeInstall ⟨true, .x64⟩
      ⟨1, false, .verified 1 (some ⟨0⟩) "1" offered.installerContext [7]⟩ ⟨0⟩ =
      (.ok ⟨offered.installerContext, [7]⟩, ⟨1, false, .installing 1 "1"⟩) := by
    simp [Inner.consumeInstall, hvalid]
  refine ⟨_, new, rfl, .cons ⟨Finset.notMem_empty _, _, rfl, rfl⟩ <|
    .cons ⟨rfl, Finset.notMem_empty _, _, rfl, rfl⟩ <| .cons ⟨?_, _, rfl, rfl⟩ <|
    .cons ⟨rfl, Finset.notMem_empty _, _, hfinish, rfl⟩ <| .cons ⟨_, hconsume, rfl⟩ <|
    .cons ⟨?_, _, rfl, rfl⟩ <| .nil _⟩
  · decide
  · decide

/-- The update that is offered is installed once, with what was downloaded. -/
theorem updates_installed : Mints fetched ⟨0⟩ ⟨offered.installerContext, [7]⟩ := by
  obtain ⟨s, h⟩ := exists_run_installed
  obtain ⟨-, -, -, hinstall, -⟩ := updates_of_run (by decide) h
  exact (hinstall _ _ _ _ rfl).1

end UpdateService

end NexusOps.Desktop
