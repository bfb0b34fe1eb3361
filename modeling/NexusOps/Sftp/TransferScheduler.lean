import NexusOps.Sftp.TransferSteps

/-!
# Permits and locks of transfers

What the sections of a job on permits and locks do, in terms of the protocol. A job only
changes what it holds itself, so the other jobs keep what they have (`Reschedules`). That
the lock of a destination is removed from the map only if no other job has a reference to
it is seen from the number of its references (`scheduled_forgetDestination`).
-/

namespace NexusOps.Sftp

open Concurrency Function

namespace TransferManager

variable [Platform] {s : TransferManager} {j : TransferJobId} {spec : JobSpec} {c : Scheduler}
  {lock : DestinationLockId}

/-- What a change of permits and locks by the job leaves to the others: the locks they have
    a reference to. -/
structure LeavesLocks (j : TransferJobId) (c c' : Scheduler) : Prop where
  destinations : ∀ j' lock key, j' ≠ j → (c.place j').lock = some lock →
    (∃ l, c.locks lock = some l ∧ j' ∈ l.users) → c.destinations key = some lock →
      c'.destinations key = some lock
  users : ∀ j' lock l, j' ≠ j → c.locks lock = some l → j' ∈ l.users →
    ∃ l', c'.locks lock = some l' ∧ j' ∈ l'.users ∧ (l.holder = some j' → l'.holder = some j')
  holder : ∀ lock l' j', j' ≠ j → c'.locks lock = some l' → l'.holder = some j' →
    ∃ l, c.locks lock = some l ∧ l.holder = some j'

/-- The job changes what it holds, and has what it needs to be where it is then. -/
theorem Scheduled.change (h : s.Scheduled) (hspec : s.spawned j = some spec)
    (hdone : s.done j = false) (hc : Reschedules j s.scheduler c)
    (hlocks : LeavesLocks j s.scheduler c) (hglobal_le : c.global.card ≤ GLOBAL_ACTIVE)
    (hhosts_le : ∀ host, (c.hosts host).card ≤ HOST_ACTIVE)
    (hglobal : j ∈ c.global → c.place j ≠ .awaitingHost ∧ c.place j ≠ .awaitingGlobal)
    (hhosts : ∀ host, j ∈ c.hosts host → c.place j ≠ .awaitingHost)
    (hholder : ∀ lock l, c.locks lock = some l → l.holder = some j → c.place j = .transferring lock)
    (hmapped : ∀ key lock, c.destinations key = some lock → c.locks lock ≠ none)
    (hself : InPlace { s with scheduler := c } j spec) : Scheduled { s with scheduler := c } := by
  have hsome : s.spawned j ≠ none := by
    rw [hspec]
    exact nofun
  refine ⟨hglobal_le, hhosts_le, fun j' hj' => ?_, fun host j' hj' => ?_, fun lock l j' hl hj' => ?_,
    hmapped, fun j' hj' => ?_⟩
  · by_cases hj : j' = j
    · subst hj
      exact ⟨hdone, hsome, hglobal hj'⟩
    · obtain ⟨hd, hs, hp⟩ := h.global j' ((hc.global j' hj).1 hj')
      rw [← hc.place j' hj] at hp
      exact ⟨hd, hs, hp⟩
  · by_cases hj : j' = j
    · subst hj
      exact ⟨hdone, hsome, hhosts host hj'⟩
    · obtain ⟨hd, hs, hp⟩ := h.hosts host j' ((hc.hosts j' hj host).1 hj')
      rw [← hc.place j' hj] at hp
      exact ⟨hd, hs, hp⟩
  · by_cases hj : j' = j
    · subst hj
      exact ⟨hdone, hsome, hholder lock l hl hj'⟩
    · obtain ⟨l₀, hl₀, hj₀⟩ := hlocks.holder lock l j' hj hl hj'
      obtain ⟨hd, hs, hp⟩ := h.holder lock l₀ j' hl₀ hj₀
      exact ⟨hd, hs, (hc.place j' hj).trans hp⟩
  · by_cases hj : j' = j
    · subst hj
      exact ⟨hdone, spec, hspec, hself⟩
    · have hplace := hc.place j' hj
      obtain ⟨hd, spec', hspec', hin⟩ := h.placed j' fun heq => hj' (hplace.trans heq)
      refine ⟨hd, spec', hspec', fun lock hlock => ?_, fun lock hlock => ?_⟩
      · rw [hplace] at hlock
        obtain ⟨hdest, l, hl, huser⟩ := hin.locked lock hlock
        obtain ⟨l', hl', huser', -⟩ := hlocks.users j' lock l hj hl huser
        exact ⟨hlocks.destinations j' lock _ hj hlock ⟨l, hl, huser⟩ hdest, l', hl', huser'⟩
      · rw [hplace] at hlock
        obtain ⟨hg, hh, l, hl, hheld⟩ := hin.inside lock hlock
        have hlock' : (s.scheduler.place j').lock = some lock := by rw [hlock]; rfl
        obtain ⟨-, l₁, hl₁, huser⟩ := hin.locked lock hlock'
        obtain rfl := Option.mem_unique hl hl₁
        obtain ⟨l', hl', -, hheld'⟩ := hlocks.users j' lock l hj hl huser
        exact ⟨(hc.global j' hj).2 hg, (hc.hosts j' hj _).2 hh, l', hl', hheld' hheld⟩

omit [Platform] in
theorem LeavesLocks.of_eq {c' : Scheduler} (hdestinations : c'.destinations = c.destinations)
    (hlocks : c'.locks = c.locks) : LeavesLocks j c c' := by
  refine ⟨fun _ _ _ _ _ _ h => hdestinations ▸ h, fun _ _ l _ h hu => ⟨l, hlocks ▸ h, hu, id⟩,
    fun _ l' _ _ h hh => ⟨l', hlocks ▸ h, hh⟩⟩

/-! ## Where a job stands -/

/-- Where a job is, and which permits it holds. -/
structure Standing where
  place : Place
  host : Bool
  global : Bool

/-- The job has been spawned and has not ended, and this is where it stands. -/
structure At (s : TransferManager) (j : TransferJobId) (spec : JobSpec) (x : Standing) : Prop where
  spawned : s.spawned j = some spec
  done : s.done j = false
  place : s.scheduler.place j = x.place
  global : j ∈ s.scheduler.global ↔ x.global = true
  hosts : ∀ host, j ∈ s.scheduler.hosts host ↔ x.host = true ∧ host = spec.client.info.hostId

variable {calls : TaskId → TransferCall} {x x' : Standing}

/-- The place is one where permits may be held: all of them, or that of the host. -/
structure Standing.Ok (x : Standing) : Prop where
  global : x.global = true → x.place ≠ .awaitingHost ∧ x.place ≠ .awaitingGlobal
  host : x.host = true → x.place ≠ .awaitingHost

omit [Platform] in
theorem Standing.Ok.of_ne (hhost : x.place ≠ .awaitingHost) (hglobal : x.place ≠ .awaitingGlobal) :
    x.Ok :=
  ⟨fun _ => ⟨hhost, hglobal⟩, fun _ => hhost⟩

/-- The job may change permits and locks like this, and stands there then. -/
structure Takes (calls : TaskId → TransferCall) (s : TransferManager) (j : TransferJobId)
    (spec : JobSpec) (c : Scheduler) (x : Standing) : Prop where
  allowed : Allowed calls (.job j) s { s with scheduler := c }
  standing : At { s with scheduler := c } j spec x

theorem step_change (h : s.Inv) (hat : s.At j spec x)
    (hat' : At { s with scheduler := c } j spec x') (hok : x'.Ok)
    (hc : Reschedules j s.scheduler c) (hlocks : LeavesLocks j s.scheduler c)
    (hglobal_le : c.global.card ≤ GLOBAL_ACTIVE)
    (hhosts_le : ∀ host, (c.hosts host).card ≤ HOST_ACTIVE)
    (hholder : ∀ lock l, c.locks lock = some l → l.holder = some j → x'.place = .transferring lock)
    (hmapped : ∀ key lock, c.destinations key = some lock → c.locks lock ≠ none)
    (hself : InPlace { s with scheduler := c } j spec) : Takes calls s j spec c x' := by
  have hplace : c.place j = x'.place := hat'.place
  refine ⟨step_schedule h hc (h.scheduled.change hat.spawned hat.done hc hlocks hglobal_le hhosts_le
    (fun hj => ?_) (fun host hj => ?_) (fun lock l hl hj => hplace.trans (hholder lock l hl hj))
    hmapped hself), hat'⟩
  · rw [hplace]
    exact hok.global (hat'.global.1 hj)
  · rw [hplace]
    exact hok.host ((hat'.hosts host).1 hj).1

/-- The lock a job waits for, holds or has held is that of its destination. -/
theorem InPlace.of_at (h : s.Inv) (hat : s.At j spec x) (hlock : x.place.lock = some lock) :
    s.scheduler.destinations (destinationKey spec) = some lock ∧
      ∃ l, s.scheduler.locks lock = some l ∧ j ∈ l.users := by
  obtain ⟨-, spec', hspec', hin⟩ := h.scheduled.placed j fun heq => by
    rw [← hat.place, heq] at hlock
    nomatch hlock
  obtain rfl := Option.mem_unique hat.spawned hspec'
  exact hin.locked lock (by rw [hat.place]; exact hlock)

/-- The job changes its permits, or waits for something else. -/
theorem step_permits (h : s.Inv) (hat : s.At j spec x)
    (hat' : At { s with scheduler := c } j spec x') (hok : x'.Ok)
    (hc : Reschedules j s.scheduler c) (hdestinations : c.destinations = s.scheduler.destinations)
    (hlocks : c.locks = s.scheduler.locks) (hglobal_le : c.global.card ≤ GLOBAL_ACTIVE)
    (hhosts_le : ∀ host, (c.hosts host).card ≤ HOST_ACTIVE)
    (hout : ∀ lock, x.place ≠ .transferring lock) (hout' : ∀ lock, x'.place ≠ .transferring lock)
    (hlock : ∀ lock, x'.place.lock = some lock → x.place.lock = some lock) :
    Takes calls s j spec c x' := by
  have hplace : c.place j = x'.place := hat'.place
  refine step_change h hat hat' hok hc (.of_eq hdestinations hlocks) hglobal_le hhosts_le
    (fun lock l hl hj => ?_) (fun key lock hkey => ?_) ⟨fun lock hl => ?_, fun lock hl => ?_⟩
  · rw [hlocks] at hl
    exact absurd (hat.place.symm.trans (h.scheduled.holder lock l j hl hj).2.2) (hout lock)
  · rw [hlocks]
    exact h.scheduled.mapped key lock (hdestinations ▸ hkey)
  · change (c.place j).lock = some lock at hl
    rw [hplace] at hl
    change c.destinations _ = some lock ∧ ∃ l, c.locks lock = some l ∧ j ∈ l.users
    rw [hdestinations, hlocks]
    exact InPlace.of_at h hat (hlock lock hl)
  · exact absurd (hplace.symm.trans hl) (hout' lock)

omit [Platform] in
theorem reschedules_move (place : Place) (hc : Reschedules j s.scheduler c) :
    Reschedules j s.scheduler (c.move j place) :=
  ⟨fun j' hj' => (update_of_ne hj' ..).trans (hc.place j' hj'), hc.global, hc.hosts⟩

omit [Platform] in
theorem Reschedules.refl (c : Scheduler) : Reschedules j c c :=
  ⟨fun _ _ => rfl, fun _ _ => Iff.rfl, fun _ _ _ => Iff.rfl⟩

variable {place : Place}

/-- The job waits for something else. -/
theorem step_move (h : s.Inv) (hat : s.At j spec x)
    (hok : Standing.Ok { x with place := place }) (hout : ∀ lock, x.place ≠ .transferring lock)
    (hout' : ∀ lock, place ≠ .transferring lock)
    (hlock : ∀ lock, place.lock = some lock → x.place.lock = some lock) :
    Takes calls s j spec (s.scheduler.move j place) { x with place := place } :=
  step_permits h hat ⟨hat.spawned, hat.done, update_self .., hat.global, hat.hosts⟩ hok
    (reschedules_move place (.refl _)) rfl rfl h.scheduled.global_le h.scheduled.hosts_le hout hout'
    hlock

/-! ## Permits -/

/-- The job takes a permit of its host. -/
theorem step_takeHost (h : s.Inv) (hat : s.At j spec ⟨.awaitingHost, false, false⟩)
    (hc : s.scheduler.takeHost j spec.client.info.hostId = some c) :
    Takes calls s j spec c ⟨.awaitingGlobal, true, false⟩ := by
  rw [Scheduler.takeHost] at hc
  split_ifs at hc with hcard
  obtain ⟨⟩ := hc
  have hhosts : ∀ j' host, j' ∈ update s.scheduler.hosts spec.client.info.hostId
      (insert j (s.scheduler.hosts spec.client.info.hostId)) host ↔
        j' ∈ s.scheduler.hosts host ∨ j' = j ∧ host = spec.client.info.hostId := by
    intro j' host
    by_cases hhost : host = spec.client.info.hostId
    · subst hhost
      simp [or_comm]
    · simp [hhost]
  refine step_permits h hat
    ⟨hat.spawned, hat.done, update_self .., hat.global, fun host => (hhosts j host).trans ?_⟩
    ⟨nofun, nofun⟩ ⟨fun j' hj' => update_of_ne hj' .., fun _ _ => Iff.rfl,
      fun j' hj' host => (hhosts j' host).trans (by simp [hj'])⟩ rfl rfl h.scheduled.global_le
    (fun host => ?_) nofun nofun nofun
  · simp [hat.hosts]
  · change (update s.scheduler.hosts spec.client.info.hostId _ host).card ≤ HOST_ACTIVE
    by_cases hhost : host = spec.client.info.hostId
    · subst hhost
      rw [update_self]
      exact (Finset.card_insert_le _ _).trans hcard
    · rw [update_of_ne hhost]
      exact h.scheduled.hosts_le host

/-- The job takes a permit of the manager. -/
theorem step_takeGlobal (h : s.Inv) (hat : s.At j spec ⟨.awaitingGlobal, true, false⟩)
    (hc : s.scheduler.takeGlobal j = some c) :
    Takes calls s j spec c ⟨.elsewhere, true, true⟩ := by
  rw [Scheduler.takeGlobal] at hc
  split_ifs at hc with hcard
  obtain ⟨⟩ := hc
  refine step_permits h hat
    ⟨hat.spawned, hat.done, update_self .., by simp [Scheduler.move], hat.hosts⟩
    ⟨fun _ => ⟨nofun, nofun⟩, nofun⟩ ⟨fun j' hj' => update_of_ne hj' .., fun j' hj' => ?_,
      fun _ _ _ => Iff.rfl⟩ rfl rfl ((Finset.card_insert_le _ _).trans hcard)
    h.scheduled.hosts_le nofun nofun nofun
  simp [Scheduler.move, hj']

/-- The job returns a permit of the manager. -/
theorem step_releaseGlobal (h : s.Inv) (hat : s.At j spec x) (hok : x.Ok)
    (hout : ∀ lock, x.place ≠ .transferring lock) :
    Takes calls s j spec (s.scheduler.releaseGlobal j) { x with global := false } := by
  refine step_permits h hat
    ⟨hat.spawned, hat.done, hat.place, by simp [Scheduler.releaseGlobal], hat.hosts⟩
    ⟨nofun, hok.host⟩ ⟨fun _ _ => rfl, fun j' hj' => ?_, fun _ _ _ => Iff.rfl⟩ rfl rfl
    (Finset.card_erase_le.trans h.scheduled.global_le) h.scheduled.hosts_le hout hout fun _ => id
  simp [Scheduler.releaseGlobal, hj']

/-- The job returns the permit of its host. -/
theorem step_releaseHost (h : s.Inv) (hat : s.At j spec x) (hok : x.Ok)
    (hout : ∀ lock, x.place ≠ .transferring lock) :
    Takes calls s j spec (s.scheduler.releaseHost j spec.client.info.hostId)
      { x with host := false } := by
  have hhosts : ∀ j' host, j' ∈ update s.scheduler.hosts spec.client.info.hostId
      ((s.scheduler.hosts spec.client.info.hostId).erase j) host ↔
        j' ∈ s.scheduler.hosts host ∧ ¬(j' = j ∧ host = spec.client.info.hostId) := by
    intro j' host
    by_cases hhost : host = spec.client.info.hostId
    · subst hhost
      simp [and_comm]
    · simp [hhost]
  refine step_permits h hat
    ⟨hat.spawned, hat.done, hat.place, hat.global, fun host => (hhosts j host).trans ?_⟩
    ⟨hok.global, nofun⟩ ⟨fun _ _ => rfl, fun _ _ => Iff.rfl,
      fun j' hj' host => (hhosts j' host).trans (by simp [hj'])⟩ rfl rfl h.scheduled.global_le
    (fun host => ?_) hout hout fun _ => id
  · simp [hat.hosts]
  · refine (Finset.card_le_card fun j' hj' => ?_).trans (h.scheduled.hosts_le host)
    exact ((hhosts j' host).1 hj').1

/-! ## Locks -/

section

variable {f : DestinationLock → DestinationLock}

omit [Platform] in
theorem locks_updateLock (lock' : DestinationLockId) : (c.updateLock lock f).locks lock' =
    if lock' = lock then (c.locks lock).map f else c.locks lock' :=
  update_apply ..

omit [Platform] in
/-- The job changes a lock, but not which other jobs have a reference to it. -/
theorem LeavesLocks.updateLock (husers : ∀ l j', j' ≠ j → (j' ∈ (f l).users ↔ j' ∈ l.users))
    (hholder : ∀ l j', j' ≠ j → c.locks lock = some l →
      ((f l).holder = some j' ↔ l.holder = some j')) :
    LeavesLocks j c ((c.updateLock lock f).move j place) := by
  refine ⟨fun _ _ _ _ _ _ h => h, fun j' lock' l hj' hl hu => ?_, fun lock' l' j' hj' hl' hh => ?_⟩
  · change ∃ l', (c.updateLock lock f).locks lock' = some l' ∧ _
    rw [locks_updateLock]
    split_ifs with heq
    · subst heq
      exact ⟨f l, by rw [hl]; rfl, (husers l j' hj').2 hu, (hholder l j' hj' hl).2⟩
    · exact ⟨l, hl, hu, id⟩
  · change (c.updateLock lock f).locks lock' = some l' at hl'
    rw [locks_updateLock] at hl'
    split_ifs at hl' with heq
    · subst heq
      obtain ⟨l, hl, rfl⟩ := Option.map_eq_some_iff.1 hl'
      exact ⟨l, hl, (hholder l j' hj' hl).1 hh⟩
    · exact ⟨l', hl', hh⟩

omit [Platform] in
theorem locks_updateLock_ne_none {lock' : DestinationLockId} (h : c.locks lock' ≠ none) :
    (c.updateLock lock f).locks lock' ≠ none := by
  rw [locks_updateLock]
  split_ifs with heq
  · subst heq
    simpa using h
  · exact h

/-- The job changes a lock, and what it waits for. -/
theorem step_updateLock (h : s.Inv) (hat : s.At j spec x)
    (hok : Standing.Ok { x with place := place })
    (husers : ∀ l j', j' ≠ j → (j' ∈ (f l).users ↔ j' ∈ l.users))
    (hholder : ∀ l j', j' ≠ j → s.scheduler.locks lock = some l →
      ((f l).holder = some j' ↔ l.holder = some j'))
    (hheld : ∀ lock' l, (s.scheduler.updateLock lock f).locks lock' = some l →
      l.holder = some j → place = .transferring lock')
    (hlock : ∀ lock', place.lock = some lock' → lock' = lock ∧
      s.scheduler.destinations (destinationKey spec) = some lock ∧
      ∃ l, s.scheduler.locks lock = some l ∧ j ∈ (f l).users)
    (hinside : ∀ lock', place = .transferring lock' → x.global = true ∧ x.host = true ∧
      ∃ l, s.scheduler.locks lock = some l ∧ (f l).holder = some j) :
    Takes calls s j spec ((s.scheduler.updateLock lock f).move j place) { x with place := place } := by
  have hself : update s.scheduler.place j place j = place := update_self ..
  have hnew : ∀ l, s.scheduler.locks lock = some l →
      (s.scheduler.updateLock lock f).locks lock = some (f l) := by
    intro l hl
    rw [locks_updateLock, if_pos rfl, hl]
    rfl
  refine step_change h hat ⟨hat.spawned, hat.done, hself, hat.global, hat.hosts⟩ hok
    (reschedules_move place ⟨fun _ _ => rfl, fun _ _ => Iff.rfl, fun _ _ _ => Iff.rfl⟩)
    (.updateLock husers hholder) h.scheduled.global_le h.scheduled.hosts_le hheld
    (fun key lock' hkey => locks_updateLock_ne_none (h.scheduled.mapped key lock' hkey))
    ⟨fun lock' hlock' => ?_, fun lock' hlock' => ?_⟩
  · change (update s.scheduler.place j place j).lock = some lock' at hlock'
    rw [hself] at hlock'
    obtain ⟨rfl, hdest, l, hl, huser⟩ := hlock lock' hlock'
    exact ⟨hdest, _, hnew l hl, huser⟩
  · have hplace : place = .transferring lock' := hself.symm.trans hlock'
    obtain ⟨hglobal, hhost, l, hl, hholds⟩ := hinside lock' hplace
    obtain ⟨rfl, -⟩ := hlock lock' (by rw [hplace]; rfl)
    exact ⟨hat.global.2 hglobal, (hat.hosts _).2 ⟨hhost, rfl⟩, _, hnew l hl, hholds⟩

/-- A job that does not hold a lock does not get one. -/
theorem not_held_updateLock (h : s.Inv) (hat : s.At j spec x)
    (hout : ∀ lock, x.place ≠ .transferring lock) {lock' : DestinationLockId} {l : DestinationLock}
    (hl : (s.scheduler.updateLock lock f).locks lock' = some l)
    (hf : ∀ l, (f l).holder = l.holder) : l.holder ≠ some j := by
  have hheld : ∀ lock' l, s.scheduler.locks lock' = some l → l.holder ≠ some j := by
    intro lock' l hl hj
    exact hout lock' (hat.place.symm.trans (h.scheduled.holder lock' l j hl hj).2.2)
  rw [locks_updateLock] at hl
  split_ifs at hl
  · obtain ⟨l₁, hl₁, rfl⟩ := Option.map_eq_some_iff.1 hl
    rw [hf]
    exact hheld lock l₁ hl₁
  · exact hheld lock' l hl

end

/-- The job locks its destination. -/
theorem step_lockDestination (h : s.Inv) (hat : s.At j spec ⟨.awaitingDestination lock, true, true⟩)
    (hc : s.scheduler.lockDestination j lock = some c) :
    Takes calls s j spec c ⟨.transferring lock, true, true⟩ := by
  obtain ⟨l, hl, hc⟩ := Option.bind_eq_some_iff.1 hc
  split_ifs at hc with hfree
  obtain ⟨⟩ := hc
  obtain ⟨hdest, l', hl', huser⟩ := InPlace.of_at h hat rfl
  obtain rfl := Option.mem_unique hl hl'
  refine step_updateLock h hat (.of_ne nofun nofun) (fun _ _ _ => Iff.rfl)
    (fun l₀ j' hj' hl₀ => ?_) (fun lock' l₀ hl₀ hj => ?_) (fun lock' hlock' => ?_)
    fun _ _ => ⟨rfl, rfl, l, hl, rfl⟩
  · -- Nobody held the lock.
    obtain rfl := Option.mem_unique hl hl₀
    simp [hfree, Ne.symm hj']
  · rw [locks_updateLock] at hl₀
    split_ifs at hl₀ with heq
    · rw [heq]
    · have hp := (h.scheduled.holder lock' l₀ j hl₀ hj).2.2
      rw [hat.place] at hp
      nomatch hp
  · exact ⟨(Option.some.inj hlock').symm, hdest, l, hl, huser⟩

/-- The job unlocks its destination. -/
theorem step_unlockDestination (h : s.Inv) (hat : s.At j spec ⟨.transferring lock, true, true⟩) :
    Takes calls s j spec (s.scheduler.unlockDestination j lock) ⟨.leaving lock, true, true⟩ := by
  obtain ⟨hdest, l, hl, huser⟩ := InPlace.of_at h hat rfl
  obtain ⟨-, spec', hspec', hin⟩ := h.scheduled.placed j (by rw [hat.place]; exact nofun)
  obtain ⟨-, -, l', hl', hheld⟩ := hin.inside lock hat.place
  obtain rfl := Option.mem_unique hl hl'
  refine step_updateLock h hat (.of_ne nofun nofun) (fun _ _ _ => Iff.rfl)
    (fun l₀ j' hj' hl₀ => ?_) (fun lock' l₀ hl₀ hj => ?_) (fun lock' hlock' => ?_) nofun
  · -- The job itself held the lock.
    obtain rfl := Option.mem_unique hl hl₀
    simp [hheld, Ne.symm hj']
  · rw [locks_updateLock] at hl₀
    split_ifs at hl₀ with heq
    · obtain ⟨l₁, -, rfl⟩ := Option.map_eq_some_iff.1 hl₀
      nomatch hj
    · have hp := (h.scheduled.holder lock' l₀ j hl₀ hj).2.2
      rw [hat.place] at hp
      exact absurd (Place.transferring.inj hp).symm heq
  · exact ⟨(Option.some.inj hlock').symm, hdest, l, hl, huser⟩

/-- The job drops its reference to the lock of its destination. -/
theorem step_dropLock (h : s.Inv) (hat : s.At j spec x)
    (hout : ∀ lock, x.place ≠ .transferring lock) :
    Takes calls s j spec (s.scheduler.dropLock j lock) { x with place := .elsewhere } :=
  step_updateLock h hat (.of_ne nofun nofun) (fun _ j' hj' => by simp [hj'])
    (fun _ _ _ _ => Iff.rfl)
    (fun _ _ hl hj => absurd hj (not_held_updateLock h hat hout hl fun _ => rfl)) nofun nofun

omit [Platform] in
/-- If the map and one job have the only references to a lock, no other job has one. -/
theorem users_of_strongCount {key : DestinationKey} {l : DestinationLock}
    (hdest : c.destinations key = some lock) (hl : c.locks lock = some l) (hj : j ∈ l.users)
    (hcount : c.strongCount key lock = 2) {j' : TransferJobId} (hj' : j' ∈ l.users) : j' = j := by
  rw [Scheduler.strongCount, hl, if_pos hdest] at hcount
  have hcard : l.users.card = 1 := Nat.succ.inj hcount
  obtain ⟨k, hk⟩ := Finset.card_eq_one.1 hcard
  rw [hk, Finset.mem_singleton] at hj hj'
  rw [hj, hj']

/-- The job removes the lock of its destination from the map, unless another job has a
    reference to it. -/
theorem step_forgetDestination (h : s.Inv) (hat : s.At j spec x)
    (hlock : x.place.lock = some lock) (hout : ∀ lock, x.place ≠ .transferring lock) :
    Takes calls s j spec (s.scheduler.forgetDestination j (destinationKey spec) lock)
      { x with place := .elsewhere } := by
  by_cases hcount : s.scheduler.strongCount (destinationKey spec) lock = 2
  · rw [Scheduler.forgetDestination, if_pos hcount]
    obtain ⟨hdest, l, hl, huser⟩ := InPlace.of_at h hat hlock
    have hself : update s.scheduler.place j .elsewhere j = .elsewhere :=
      update_self ..
    refine step_change h hat ⟨hat.spawned, hat.done, hself, hat.global, hat.hosts⟩
      (.of_ne nofun nofun)
      ⟨fun j' hj' => update_of_ne hj' .., fun _ _ => Iff.rfl, fun _ _ _ => Iff.rfl⟩
      ⟨fun j' lock' key hj' _ hl' hkey => ?_, fun _ _ l' _ hl' hu => ⟨l', hl', hu, id⟩,
        fun _ l' _ _ hl' hh => ⟨l', hl', hh⟩⟩ h.scheduled.global_le h.scheduled.hosts_le
      (fun lock' l' hl' hj => ?_) (fun key lock' hkey => ?_)
      ⟨fun lock' hlock' => ?_, fun lock' hlock' => ?_⟩
    · by_cases heq : key = destinationKey spec
      · -- Another job with a reference to the lock would have been counted.
        subst heq
        obtain rfl := Option.mem_unique hdest hkey
        obtain ⟨l', hl', hu⟩ := hl'
        obtain rfl := Option.mem_unique hl hl'
        exact absurd (users_of_strongCount hdest hl huser hcount hu) hj'
      · exact (update_of_ne heq ..).trans hkey
    · exact absurd (hat.place.symm.trans (h.scheduled.holder lock' l' j hl' hj).2.2) (hout lock')
    · change update s.scheduler.destinations (destinationKey spec) none key = _ at hkey
      by_cases heq : key = destinationKey spec
      · rw [heq, update_self] at hkey
        nomatch hkey
      · rw [update_of_ne heq] at hkey
        exact h.scheduled.mapped key lock' hkey
    · change (update s.scheduler.place j .elsewhere j).lock = some lock' at hlock'
      rw [hself] at hlock'
      nomatch hlock'
    · nomatch hself.symm.trans hlock'
  · rw [Scheduler.forgetDestination, if_neg hcount]
    exact step_move h hat (.of_ne nofun nofun) hout nofun nofun

/-- The job gets a reference to the lock that is in the map. -/
theorem step_shareLock (h : s.Inv) (hat : s.At j spec ⟨.elsewhere, true, true⟩)
    (hdest : s.scheduler.destinations (destinationKey spec) = some lock)
    (hc : c = (s.scheduler.updateLock lock fun l => { l with users := insert j l.users }).move j
      (.awaitingDestination lock)) :
    Takes calls s j spec c ⟨.awaitingDestination lock, true, true⟩ := by
  subst hc
  obtain ⟨l, hl⟩ := Option.ne_none_iff_exists'.1 (h.scheduled.mapped _ _ hdest)
  refine step_updateLock h hat (.of_ne nofun nofun) (fun _ j' hj' => by simp [hj'])
    (fun _ _ _ _ => Iff.rfl)
    (fun _ _ hl hj => absurd hj (not_held_updateLock h hat nofun hl fun _ => rfl))
    (fun lock' hlock' => ?_) nofun
  exact ⟨(Option.some.inj hlock').symm, hdest, l, hl, Finset.mem_insert_self ..⟩

/-- The job puts a new lock into the map. -/
theorem step_newLock (h : s.Inv) (hat : s.At j spec ⟨.elsewhere, true, true⟩)
    (hdest : s.scheduler.destinations (destinationKey spec) = none)
    (hfresh : s.scheduler.locks lock = none)
    (hc : c = ({ s.scheduler with
      destinations := update s.scheduler.destinations (destinationKey spec) (some lock)
      locks := update s.scheduler.locks lock (some ⟨{j}, none⟩) }.move j
        (.awaitingDestination lock))) :
    Takes calls s j spec c ⟨.awaitingDestination lock, true, true⟩ := by
  have hplace : c.place j = .awaitingDestination lock := by
    rw [hc]
    exact update_self ..
  have hdestinations : ∀ key, c.destinations key =
      if key = destinationKey spec then some lock else s.scheduler.destinations key := by
    rw [hc]
    exact fun _ => update_apply ..
  have hlocks : ∀ lock', c.locks lock' =
      if lock' = lock then some ⟨{j}, none⟩ else s.scheduler.locks lock' := by
    rw [hc]
    exact fun _ => update_apply ..
  -- A lock that is already there is another one.
  have hold : ∀ {lock' l}, s.scheduler.locks lock' = some l → c.locks lock' = some l := by
    intro lock' l hl
    rw [hlocks, if_neg]
    · exact hl
    · rintro rfl
      nomatch hfresh.symm.trans hl
  refine step_change h hat
    ⟨hat.spawned, hat.done, hplace, by rw [hc]; exact hat.global, by rw [hc]; exact hat.hosts⟩
    (.of_ne nofun nofun) (by
      subst hc
      exact ⟨fun j' hj' => update_of_ne hj' .., fun _ _ => Iff.rfl, fun _ _ _ => Iff.rfl⟩)
    ⟨fun j' lock' key _ _ _ hkey => ?_, fun j' lock' l _ hl hu => ⟨l, hold hl, hu, id⟩,
      fun lock' l j' _ hl hh => ?_⟩ (hc ▸ h.scheduled.global_le) (hc ▸ h.scheduled.hosts_le)
    (fun lock' l hl hj => ?_) (fun key lock' hkey => ?_)
    ⟨fun lock' hlock' => ?_, fun lock' hlock' => ?_⟩
  · rw [hdestinations, if_neg]
    · exact hkey
    · rintro rfl
      nomatch hdest.symm.trans hkey
  · rw [hlocks] at hl
    split_ifs at hl
    · rw [← Option.some.inj hl] at hh
      nomatch hh
    · exact ⟨l, hl, hh⟩
  · rw [hlocks] at hl
    split_ifs at hl
    · rw [← Option.some.inj hl] at hj
      nomatch hj
    · nomatch hat.place.symm.trans (h.scheduled.holder lock' l j hl hj).2.2
  · rw [hdestinations] at hkey
    split_ifs at hkey
    · rw [← Option.some.inj hkey, hlocks, if_pos rfl]
      exact nofun
    · obtain ⟨l, hl⟩ := Option.ne_none_iff_exists'.1 (h.scheduled.mapped key lock' hkey)
      rw [hold hl]
      exact nofun
  · change (c.place j).lock = some lock' at hlock'
    rw [hplace] at hlock'
    obtain ⟨⟩ := hlock'
    refine ⟨?_, ⟨{j}, none⟩, ?_, Finset.mem_singleton_self j⟩
    · change c.destinations _ = _
      rw [hdestinations, if_pos rfl]
    · change c.locks _ = _
      rw [hlocks, if_pos rfl]
  · nomatch hplace.symm.trans hlock'

/-- The job gets a reference to the lock of its destination. -/
theorem step_cloneLock {fresh : DestinationLockId} (h : s.Inv)
    (hat : s.At j spec ⟨.elsewhere, true, true⟩)
    (hc : s.scheduler.cloneLock j (destinationKey spec) fresh = some (lock, c)) :
    Takes calls s j spec c ⟨.awaitingDestination lock, true, true⟩ := by
  rw [Scheduler.cloneLock] at hc
  split at hc
  · next hdest =>
    obtain ⟨⟩ := hc
    exact step_shareLock h hat hdest rfl
  · next hdest =>
    split_ifs at hc with hfresh
    obtain ⟨⟩ := hc
    exact step_newLock h hat hdest hfresh rfl

end TransferManager

end NexusOps.Sftp
