import NexusOps.Concurrency.Async
import NexusOps.Concurrency.History
import NexusOps.Model.Basic
import Mathlib.Data.Finset.Card

/-!
# The lifecycle of the process

Commands are admitted until the process is about to end (`LifecycleCoordinator`). Each of them
holds a permit while it runs. There are two ways to end: `seal_and_drain` waits until no
permit is left, and `seal_and_drain_others`, which is called with a permit, until that is the
only one left.

A permit is named by the call that was admitted. What waits for a change looks at the state
again after any notification, so a notification is not modelled: a call may look at any time,
and may find at any time that it has waited too long.

* `LifecycleState.commands_of_run`: in every interleaving, the permits are counted, and no
  command is admitted once the process has been sealed, in either way.
-/

namespace NexusOps.Desktop

open Concurrency Protocol Function

/-! ## State -/

inductive LifecyclePhase
  | running
  | sealed
  | exclusive
  | quiesced
  deriving DecidableEq, Repr

/-- What is logged. -/
inductive LifecycleEvent
  /-- `admit` has returned a permit. -/
  | admitted (t : TaskId)
  /-- The permit has been dropped. -/
  | dropped (t : TaskId)
  /-- `seal_and_drain` has sealed the process. -/
  | sealed (t : TaskId)
  /-- `seal_and_drain_others` was the first to seal the process, with this permit. -/
  | won (t permit : TaskId)
  /-- `seal_and_drain` has returned `Ok`. -/
  | drained (t : TaskId)
  /-- `seal_and_drain_others` has returned `Ok`. -/
  | drainedOthers (t permit : TaskId)
  deriving DecidableEq, Repr

/-- The call that has logged an event. -/
def LifecycleEvent.task : LifecycleEvent → TaskId
  | admitted t => t
  | dropped t => t
  | sealed t => t
  | won t _ => t
  | drained t => t
  | drainedOthers t _ => t

/-- The state of the process. -/
structure LifecycleState where
  phase : LifecyclePhase
  active : Nat
  /-- The permits that have not been dropped. -/
  permits : Finset TaskId
  /-- The calls that have been given a reference to a permit. -/
  borrows : TaskId → Finset TaskId
  log : List LifecycleEvent

/-- A call of the coordinator. -/
abbrev LifecycleCall := Async LifecycleState AppError

namespace LifecycleState

/-- The state at the start. -/
def default : LifecycleState := ⟨.running, 0, ∅, fun _ => ∅, []⟩

/-- Logs an event. -/
def record (s : LifecycleState) (e : LifecycleEvent) : LifecycleState :=
  { s with log := s.log ++ [e] }

/-! ## Calls -/

/-- The process is about to end. -/
def closingError : AppError :=
  .new .conflict "NexusOps is closing. Restart the application to continue."

/-- There are still permits. -/
def drainTimeout : AppError := .new .timeout
  "NexusOps is still closing. Wait for active operations and try closing again."

variable (t : TaskId)

/-- Admits a command, unless the counter overflows. -/
def admitCommand (s : LifecycleState) : Except AppError Unit × LifecycleState :=
  if s.phase ≠ .running then (.error closingError, s)
  else if s.active + 1 < 2 ^ 64 then
    (.ok (), { s with active := s.active + 1, permits := insert t s.permits }.record (.admitted t))
  else (.error closingError, { s with phase := .sealed })

/-- Counts a permit that is dropped. -/
def dropPermit (s : LifecycleState) : LifecycleState :=
  if s.active = 0 then { s with phase := .sealed }
  else { s with active := s.active - 1, permits := s.permits.erase t }.record (.dropped t)

/-- A command: it is admitted, does what it has to do, and drops its permit. A reference to the
    permit keeps it from being dropped. -/
def command : Proc LifecycleState Unit := do
  match ← .act fun s => some (s.admitCommand t) with
  | .error _ => return ()
  | .ok () =>
    .ask Unit
    .act fun s => if s.borrows t = ∅ then some ((), s.dropPermit t) else none

/-- Looks whether the process has been drained, and waits if it has not. -/
def awaitDrained (check : LifecycleState → Option LifecycleState) : Unit → LifecycleCall (Unit ⊕ Unit) :=
  fun _ => do
    match ← .act fun s => some (match check s with
        | some s' => (.ok true, s')
        | none => (.ok false, s)) with
    | true => return .inr ()
    | false =>
      let timeout ← .await (pure ()) Bool
      .ensure (timeout = false) drainTimeout
      return .inl ()

/-- Waits until no permit is left. -/
def sealAndDrain : LifecycleCall Unit := do
  .lift (.modify fun s =>
    (if s.phase = .running then { s with phase := .sealed } else s).record (.sealed t))
  .loop (awaitDrained fun s =>
    if s.active = 0 then some ({ s with phase := .quiesced }.record (.drained t)) else none) ()

/-- Seals the process, unless it is sealed. -/
def sealExclusively (permit : TaskId) : LifecycleCall Unit :=
  .act fun s =>
    if s.phase ≠ .running then some (.error (.error closingError), s)
    else some (.ok (), { s with phase := .exclusive }.record (.won t permit))

/-- Gives the reference to a permit back. -/
def giveBack (permit : TaskId) : Proc LifecycleState Unit :=
  .modify fun s => { s with
    borrows := update s.borrows permit ((s.borrows permit).erase t) }

/-- Waits until the permit is the only one left. -/
def sealAndDrainOthers (permit : TaskId) : LifecycleCall Unit := do
  .act fun s => if permit ∈ s.permits then
      some (.ok (), { s with
        borrows := update s.borrows permit (insert t (s.borrows permit)) })
    else none
  .always (do
      sealExclusively t permit
      .loop (awaitDrained fun s =>
        if s.active = 1 then some (s.record (.drainedOthers t permit)) else none) ())
    (giveBack t permit)

/-! ## The system -/

/-- The calls. -/
inductive Request
  | command
  | sealAndDrain
  | sealAndDrainOthers (permit : TaskId)

/-- What a call does. -/
def program : Request → Proc LifecycleState Unit
  | .command => command t
  | .sealAndDrain => do let _ ← (sealAndDrain t).run
  | .sealAndDrainOthers permit => do let _ ← (sealAndDrainOthers t permit).run

/-- The interleavings of calls. -/
def system (calls : TaskId → Request) : System TaskId LifecycleState where
  init s := s = .default
  entry t p := p = program t (calls t)
  env _ _ := False

/-! ## The protocol -/

/-- What holds when an event is logged. -/
def Rule (pre : List LifecycleEvent) : LifecycleEvent → Prop
  | .won _ _ => ∀ t permit, .won t permit ∉ pre
  | .drainedOthers t permit => .won t permit ∈ pre
  | _ => True

/-- The process has been sealed, in either way. -/
def Sealed (log : List LifecycleEvent) : Prop :=
  ∃ t, .sealed t ∈ log ∨ ∃ permit, .won t permit ∈ log

/-- The invariant. -/
structure Inv (s : LifecycleState) : Prop where
  count : s.active = s.permits.card
  live : ∀ t, t ∈ s.permits ↔ .admitted t ∈ s.log ∧ .dropped t ∉ s.log
  borrows : ∀ permit, s.borrows permit ≠ ∅ → permit ∈ s.permits
  closed : Sealed s.log → s.phase ≠ .running
  quiesced : s.phase = .quiesced → s.permits = ∅
  drained : ∀ t, .drained t ∈ s.log → s.phase ≠ .running ∧ s.permits = ∅
  drainedOthers : ∀ t permit, .drainedOthers t permit ∈ s.log →
    s.phase ≠ .running ∧ s.permits ⊆ {permit}
  rule : Justified Rule s.log

/-- What a step of the call `i` does. -/
structure Guarantee (i : TaskId) (s s' : LifecycleState) : Prop where
  log : ∃ es, s'.log = s.log ++ es ∧ (∀ e ∈ es, e.task = i) ∧
    (s.phase ≠ .running → ∀ t, .admitted t ∉ es)
  phase : s.phase ≠ .running → s'.phase ≠ .running
  permits : ∀ t, t ≠ i → (t ∈ s'.permits ↔ t ∈ s.permits)
  closed : s.phase ≠ .running → s'.permits ⊆ s.permits
  borrows : ∀ t, t ≠ i → ∀ permit, t ∈ s'.borrows permit ↔ t ∈ s.borrows permit

/-- The protocol of the calls. -/
def protocol (calls : TaskId → Request) : Protocol (system calls) where
  inv := Inv
  guarantee := Guarantee
  idle t s := t ∉ s.permits ∧ ∀ e ∈ s.log, e.task ≠ t

variable {calls : TaskId → Request} {s s' : LifecycleState} {t : TaskId}

/-! ## Steps -/

theorem Guarantee.refl : Guarantee t s s :=
  ⟨⟨[], by simp, by simp, by simp⟩, id, fun _ _ => Iff.rfl, fun _ => subset_rfl, fun _ _ _ => Iff.rfl⟩

/-- A step that neither admits a command nor drops a permit: the process may be sealed by it,
    and it may log an event. -/
theorem step_event (s' : LifecycleState) {e : LifecycleEvent} (hi : s.Inv)
    (hactive : s'.active = s.active)
    (hpermits : s'.permits = s.permits) (hborrows : s'.borrows = s.borrows)
    (hlog : s'.log = s.log ++ [e]) (htask : e.task = t)
    (hadmitted : ∀ t, e ≠ .admitted t) (hdropped : ∀ t, e ≠ .dropped t)
    (hphase : s'.phase ≠ .running) (hrule : Rule s.log e)
    (hquiesced : s'.phase = .quiesced → s.permits = ∅)
    (hdrained : ∀ t, e = .drained t → s.permits = ∅)
    (hothers : ∀ t permit, e = .drainedOthers t permit → s.permits ⊆ {permit}) :
    s'.Inv ∧ Guarantee t s s' := by
  have hmem : ∀ e', e' ∈ s'.log ↔ e' ∈ s.log ∨ e' = e := by simp [hlog]
  refine ⟨⟨?_, fun t' => ?_, ?_, fun _ => hphase, ?_, fun t' h => ⟨hphase, ?_⟩,
    fun t' permit h => ⟨hphase, ?_⟩, ?_⟩, ⟨[e], hlog, by simpa using htask, fun _ t' => ?_⟩,
    fun _ => hphase, ?_, ?_, ?_⟩
  · rw [hactive, hpermits]
    exact hi.count
  · rw [hpermits, hi.live, hmem, hmem, or_iff_left (hadmitted t').symm,
      or_iff_left (hdropped t').symm]
  · rw [hborrows, hpermits]
    exact hi.borrows
  · rw [hpermits]
    exact hquiesced
  · rw [hpermits]
    exact ((hmem _).1 h).elim (fun h => (hi.drained t' h).2) fun h => hdrained t' h.symm
  · rw [hpermits]
    exact ((hmem _).1 h).elim (fun h => (hi.drainedOthers t' permit h).2)
      fun h => hothers t' permit h.symm
  · rw [hlog]
    exact justified_snoc.2 ⟨hi.rule, hrule⟩
  · simpa using (hadmitted t').symm
  · simp [hpermits]
  · simp [hpermits]
  · simp [hborrows]

variable {permit : TaskId}

/-- A step that changes who has a reference to a permit. -/
theorem step_borrows (calls : Finset TaskId) (hi : s.Inv) (hpermit : calls ≠ ∅ → permit ∈ s.permits)
    (hcalls : ∀ t', t' ≠ t → (t' ∈ calls ↔ t' ∈ s.borrows permit)) :
    let s' := { s with borrows := update s.borrows permit calls }
    s'.Inv ∧ Guarantee t s s' := by
  refine ⟨⟨hi.count, hi.live, fun permit' h => ?_, hi.closed, hi.quiesced, hi.drained,
    hi.drainedOthers, hi.rule⟩, ⟨[], by simp, by simp, by simp⟩, id, fun _ _ => Iff.rfl,
    fun _ => subset_rfl, fun t' ht permit' => ?_⟩
  · dsimp only at h
    by_cases hp : permit' = permit
    · subst hp
      rw [update_self] at h
      exact hpermit h
    · rw [update_of_ne hp] at h
      exact hi.borrows permit' h
  · dsimp only
    by_cases hp : permit' = permit
    · subst hp
      rw [update_self]
      exact hcalls t' ht
    · rw [update_of_ne hp]

/-- A command is admitted while the process is running: nothing has been drained yet. -/
theorem step_admitted (hi : s.Inv) (hphase : s.phase = .running) (hpermits : t ∉ s.permits)
    (hlog : ∀ e ∈ s.log, e.task ≠ t) :
    let s' := { s with active := s.active + 1, permits := insert t s.permits }.record (.admitted t)
    s'.Inv ∧ Guarantee t s s' := by
  have hrunning : ∀ {p : Prop}, s.phase ≠ .running ∧ p → False := fun h => h.1 hphase
  refine ⟨⟨?_, fun t' => ?_, fun permit h => ?_, fun ⟨t', h⟩ => ?_, fun h => ?_, fun t' h => ?_,
    fun t' permit h => ?_, ?_⟩, ⟨[.admitted t], rfl, by simp [LifecycleEvent.task],
    fun h => absurd hphase h⟩, fun h => absurd hphase h, fun t' ht => ?_,
    fun h => absurd hphase h, fun _ _ _ => Iff.rfl⟩
  · change s.active + 1 = (insert t s.permits).card
    rw [Finset.card_insert_of_notMem hpermits, hi.count]
  · change t' ∈ insert t s.permits ↔ _ ∈ s.log ++ [_] ∧ _ ∉ s.log ++ [_]
    rw [Finset.mem_insert, hi.live, mem_snoc, mem_snoc]
    constructor
    · rintro (rfl | ⟨h, h'⟩)
      · exact ⟨.inr rfl, fun h => h.elim (fun h => hlog _ h rfl) nofun⟩
      · exact ⟨.inl h, fun h => h.elim h' nofun⟩
    · rintro ⟨h | h, h'⟩
      · exact .inr ⟨h, fun h => h' (.inl h)⟩
      · exact .inl (LifecycleEvent.admitted.inj h)
  · exact Finset.mem_insert_of_mem (hi.borrows permit h)
  · refine absurd hphase (hi.closed ⟨t', h.imp (fun h => ?_) fun ⟨permit, h⟩ => ⟨permit, ?_⟩⟩)
    · exact mem_of_snoc h nofun
    · exact mem_of_snoc h nofun
  · nomatch hphase.symm.trans h
  · exact (hrunning (hi.drained t' (mem_of_snoc h nofun))).elim
  · exact (hrunning (hi.drainedOthers t' permit (mem_of_snoc h nofun))).elim
  · exact justified_snoc.2 ⟨hi.rule, trivial⟩
  · change t' ∈ insert t s.permits ↔ _
    rw [Finset.mem_insert, or_iff_right ht]

/-- A permit is dropped. -/
theorem step_dropPermit (hi : s.Inv) (hpermit : t ∈ s.permits) (hborrows : s.borrows t = ∅) :
    (s.dropPermit t).Inv ∧ Guarantee t s (s.dropPermit t) ∧ t ∉ (s.dropPermit t).permits := by
  have hactive : s.active ≠ 0 := by
    rw [hi.count]
    exact Finset.card_ne_zero_of_mem hpermit
  rw [dropPermit, if_neg hactive]
  refine ⟨⟨?_, fun t' => ?_, fun permit h => ?_, fun ⟨t', h⟩ => ?_, fun h => ?_, fun t' h => ?_,
    fun t' permit h => ?_, ?_⟩, ⟨⟨[.dropped t], rfl, by simp [LifecycleEvent.task], by simp⟩, id,
    fun t' ht => ?_, fun _ => Finset.erase_subset t s.permits, fun _ _ _ => Iff.rfl⟩,
    Finset.notMem_erase t s.permits⟩
  · change s.active - 1 = (s.permits.erase t).card
    rw [Finset.card_erase_of_mem hpermit, hi.count]
  · change t' ∈ s.permits.erase t ↔ _ ∈ s.log ++ [_] ∧ _ ∉ s.log ++ [_]
    rw [Finset.mem_erase, hi.live, mem_snoc, mem_snoc, or_iff_left nofun, not_or, ne_eq,
      LifecycleEvent.dropped.injEq]
    exact and_left_comm.trans (and_congr_right fun _ => and_comm)
  · refine Finset.mem_erase.2 ⟨fun h' => h (h' ▸ hborrows), hi.borrows permit h⟩
  · refine hi.closed ⟨t', h.imp (fun h => ?_) fun ⟨permit, h⟩ => ⟨permit, ?_⟩⟩
    · exact mem_of_snoc h nofun
    · exact mem_of_snoc h nofun
  · exact Finset.subset_empty.1 ((Finset.erase_subset t _).trans (hi.quiesced h).subset)
  · obtain ⟨hphase, hnone⟩ := hi.drained t' (mem_of_snoc h nofun)
    exact ⟨hphase, Finset.subset_empty.1 ((Finset.erase_subset t _).trans hnone.subset)⟩
  · obtain ⟨hphase, hone⟩ := hi.drainedOthers t' permit (mem_of_snoc h nofun)
    exact ⟨hphase, (Finset.erase_subset t _).trans hone⟩
  · exact justified_snoc.2 ⟨hi.rule, trivial⟩
  · change t' ∈ s.permits.erase t ↔ _
    rw [Finset.mem_erase, and_iff_right ht]

/-- The counter has overflowed. -/
theorem step_overflow (hi : s.Inv) (hphase : s.phase = .running) :
    let s' := { s with phase := .sealed }
    s'.Inv ∧ Guarantee t s s' := by
  refine ⟨⟨hi.count, hi.live, hi.borrows, fun _ => nofun, nofun, fun t' h => ?_,
    fun t' permit h => ?_, hi.rule⟩, ⟨[], by simp, by simp, by simp⟩, fun _ => nofun,
    fun _ _ => Iff.rfl, fun _ => subset_rfl, fun _ _ _ => Iff.rfl⟩
  · exact absurd hphase (hi.drained t' h).1
  · exact absurd hphase (hi.drainedOthers t' permit h).1

/-! ## Calls -/

/-- What a call knows of its own permit and of what it has logged is not affected by others. -/
theorem stable_of_others {A : LifecycleState → Prop}
    (h : ∀ s s' j, j ≠ t → Guarantee j s s' → s'.Inv → A s → A s') : (protocol calls).Stable t A := by
  rintro s s' ⟨-, hi, henv | ⟨j, hj, hg⟩⟩ hs
  · exact henv.elim
  · exact h s s' j hj hg hi hs

theorem stable_idle : (protocol calls).Stable t ((protocol calls).idle t) := by
  refine stable_of_others fun s s' j hj hg _ ⟨hpermits, hlog⟩ => ⟨?_, fun e he => ?_⟩
  · rwa [hg.permits t hj.symm]
  · obtain ⟨es, hes, htask, -⟩ := hg.log
    rw [hes, List.mem_append] at he
    rcases he with he | he
    · exact hlog e he
    · exact fun h => hj ((htask e he).symm.trans h)

theorem stable_closed : (protocol calls).Stable t fun s => s.phase ≠ .running :=
  stable_of_others fun _ _ _ _ hg _ h => hg.phase h

theorem stable_mem_log {e : LifecycleEvent} : (protocol calls).Stable t fun s => e ∈ s.log := by
  refine stable_of_others fun s s' j _ hg _ h => ?_
  obtain ⟨es, hes, -⟩ := hg.log
  rw [hes]
  exact List.mem_append_left es h

theorem stable_borrowed : (protocol calls).Stable t fun s => t ∈ s.borrows permit :=
  stable_of_others fun _ _ _ hj hg _ h => (hg.borrows t hj.symm permit).2 h

theorem safe_command (hidle : (protocol calls).idle t s) :
    (protocol calls).Safe t (fun _ _ => True) (command t) s := by
  refine safe_act stable_idle hidle fun s r s' hidle hi hf => ?_
  replace hf := Option.some.inj hf
  rw [admitCommand] at hf
  split_ifs at hf with hphase hactive
  · obtain ⟨⟩ := hf
    exact ⟨hi, .refl, trivial⟩
  · obtain ⟨⟩ := hf
    rw [not_not] at hphase
    obtain ⟨hi', hg⟩ := step_admitted hi hphase hidle.1 hidle.2
    refine ⟨hi', hg, safe_ask fun _ => ?_⟩
    have hstable : (protocol calls).Stable t fun s => t ∈ s.permits :=
      stable_of_others fun _ _ _ hj hg _ h => (hg.permits t hj.symm).2 h
    refine safe_act (k := .ret) hstable (Finset.mem_insert_self t s.permits)
      fun s _ s' hpermit hi hf => ?_
    split_ifs at hf with hborrows
    obtain ⟨⟩ := hf
    obtain ⟨hi', hg, -⟩ := step_dropPermit hi hpermit hborrows
    exact ⟨hi', hg, trivial⟩
  · obtain ⟨⟩ := hf
    rw [not_not] at hphase
    obtain ⟨hi', hg⟩ := step_overflow (t := t) hi hphase
    exact ⟨hi', hg, trivial⟩

/-- A call that looks at the state until it is drained. -/
theorem safeAsync_awaitDrained {A B : LifecycleState → Prop}
    {check : LifecycleState → Option LifecycleState} (hA : (protocol calls).Stable t A) (hs : A s)
    (h : ∀ s s', A s → s.Inv → check s = some s' → s'.Inv ∧ Guarantee t s s' ∧ B s') :
    (protocol calls).SafeAsync t (fun _ => B) (fun _ => A) A
      (Fallible.loop (awaitDrained check) ()) s := by
  refine safeOr_loop (I := fun _ => A) (fun _ s hs => ?_) hs
  refine SafeOr.bind (R := fun r s => if r = true then B s else A s)
    (safeOr_act hA hs fun s r s' hs hi hf => ?_) fun r s hs => ?_
  · obtain ⟨rfl, rfl⟩ := Proc.result_inj hf
    cases hcheck : check s with
    | none => exact ⟨hi, .refl, hs⟩
    | some s' => exact h s s' hs hi hcheck
  · cases r with
    | true => exact hs
    | false =>
      refine SafeOr.bind (R := fun _ => A) (safeAsync_await (fun _ => hs) hs) fun timeout s hs => ?_
      exact SafeOr.bind (R := fun _ => A) (safeOr_ensure (fun _ => hs) fun _ => hs) fun _ s hs => hs

theorem safeAsync_sealAndDrain : (protocol calls).SafeAsync t (fun _ s => .drained t ∈ s.log)
    (fun _ _ => True) (fun _ => True) (sealAndDrain t) s := by
  refine SafeOr.bind (R := fun _ s => s.phase ≠ .running) (safeOr_lift.2 ?_) fun _ s hs => ?_
  · refine safe_modify (k := .ret) (A := fun _ => True) (fun _ _ _ h => h) trivial
      fun s _ hi => ?_
    have hphase : (if s.phase = .running then { s with phase := .sealed } else s).phase ≠ .running := by
      split_ifs with h
      · exact nofun
      · exact h
    have hquiesced : (if s.phase = .running then { s with phase := .sealed } else s).phase =
        .quiesced → s.permits = ∅ := by
      split_ifs
      · exact nofun
      · exact hi.quiesced
    obtain ⟨hi', hg⟩ := step_event (e := .sealed t) (t := t)
      ((if s.phase = .running then { s with phase := .sealed } else s).record (.sealed t)) hi
      (by split_ifs <;> rfl) (by split_ifs <;> rfl) (by split_ifs <;> rfl) (by split_ifs <;> rfl)
      rfl nofun nofun hphase trivial hquiesced nofun nofun
    exact ⟨hi', hg, hphase⟩
  · refine SafeAsync.mono (safeAsync_awaitDrained stable_closed hs fun s s' hs hi hcheck => ?_)
      (fun _ _ h => h) (fun _ _ _ => trivial) fun _ _ => trivial
    split_ifs at hcheck with hactive
    obtain ⟨⟩ := hcheck
    have hclosed : LifecyclePhase.quiesced ≠ .running := nofun
    have hnone : s.permits = ∅ := Finset.card_eq_zero.1 (hi.count.symm.trans hactive)
    obtain ⟨hi', hg⟩ := step_event (e := .drained t) (t := t)
      ({ s with phase := .quiesced }.record (.drained t)) hi rfl rfl rfl rfl rfl nofun nofun
      hclosed trivial (fun _ => hnone) (fun _ _ => hnone) nofun
    exact ⟨hi', hg, List.mem_concat_self⟩

/-- The call has won, and still has a reference to its permit. -/
def Winner (t permit : TaskId) (s : LifecycleState) : Prop :=
  t ∈ s.borrows permit ∧ .won t permit ∈ s.log ∧ s.phase ≠ .running

theorem stable_winner : (protocol calls).Stable t (Winner t permit) :=
  stable_borrowed.and (stable_mem_log.and stable_closed)

theorem safeAsync_sealExclusively (hs : t ∈ s.borrows permit) :
    (protocol calls).SafeAsync t (fun _ => Winner t permit) (fun _ s => t ∈ s.borrows permit)
      (fun s => t ∈ s.borrows permit) (sealExclusively t permit) s := by
  refine safeOr_act stable_borrowed hs fun s r s' hs hi hf => ?_
  split_ifs at hf with hphase
  · obtain ⟨⟩ := hf
    exact ⟨hi, .refl, hs⟩
  · obtain ⟨⟩ := hf
    rw [not_not] at hphase
    -- The process is still running, so nobody has won before.
    have hfirst : ∀ t' permit', .won t' permit' ∉ s.log := fun t' permit' h =>
      hi.closed ⟨t', .inr ⟨permit', h⟩⟩ hphase
    have hclosed : LifecyclePhase.exclusive ≠ .running := nofun
    have hquiesced : LifecyclePhase.exclusive ≠ .quiesced := nofun
    obtain ⟨hi', hg⟩ := step_event (e := .won t permit) (t := t)
      ({ s with phase := .exclusive }.record (.won t permit)) hi rfl rfl rfl rfl rfl nofun
      nofun hclosed hfirst (fun h => absurd h hquiesced) nofun nofun
    exact ⟨hi', hg, hs, List.mem_concat_self, hclosed⟩

theorem safe_giveBack (hs : t ∈ s.borrows permit) :
    (protocol calls).Safe t (fun _ _ => True) (giveBack t permit) s := by
  refine safe_modify (k := .ret) stable_borrowed hs fun s hs hi => ?_
  have hpermit : permit ∈ s.permits := hi.borrows permit (Finset.ne_empty_of_mem hs)
  obtain ⟨hi', hg⟩ := step_borrows (t := t) ((s.borrows permit).erase t) hi
    (fun _ => hpermit) fun t' ht => by rw [Finset.mem_erase, and_iff_right ht]
  exact ⟨hi', hg, trivial⟩

theorem safeAsync_sealAndDrainOthers :
    (protocol calls).SafeAsync t (fun _ _ => True) (fun _ _ => True) (fun _ => True)
      (sealAndDrainOthers t permit) s := by
  refine SafeOr.bind (R := fun _ s => t ∈ s.borrows permit)
    (safeOr_act (A := fun _ => True) (fun _ _ _ h => h) trivial fun s r s' _ hi hf => ?_)
    fun _ s hs => ?_
  · split_ifs at hf with hpermit
    obtain ⟨⟩ := hf
    obtain ⟨hi', hg⟩ := step_borrows (t := t) (insert t (s.borrows permit)) hi
      (fun _ => hpermit) fun t' ht => by rw [Finset.mem_insert, or_iff_right ht]
    refine ⟨hi', hg, ?_⟩
    change t ∈ update s.borrows permit (insert t (s.borrows permit)) permit
    rw [update_self]
    exact Finset.mem_insert_self t _
  · refine safeAsync_always (SafeOr.bind (R := fun _ => Winner t permit) ?_ fun _ s hs => ?_)
    · exact SafeAsync.mono (safeAsync_sealExclusively hs) (fun _ _ h => h)
        (fun _ _ h => safe_giveBack h) fun _ h => safe_giveBack h
    · refine SafeAsync.mono (safeAsync_awaitDrained (B := Winner t permit) stable_winner hs
          fun s s' hs hi hcheck => ?_) (fun _ _ h => safe_giveBack h.1)
          (fun _ _ h => safe_giveBack h.1) fun _ h => safe_giveBack h.1
      split_ifs at hcheck with hactive
      obtain ⟨⟩ := hcheck
      -- There is one permit, and it cannot have been dropped.
      have hpermit : permit ∈ s.permits := hi.borrows permit (Finset.ne_empty_of_mem hs.1)
      have hone : s.permits ⊆ {permit} := by
        obtain ⟨t', ht'⟩ := Finset.card_eq_one.1 (hi.count.symm.trans hactive)
        rw [ht', Finset.mem_singleton] at hpermit
        rw [ht', hpermit]
      obtain ⟨hi', hg⟩ := step_event (e := .drainedOthers t permit) (t := t)
        (s.record (.drainedOthers t permit)) hi rfl rfl rfl rfl rfl nofun nofun hs.2.2 hs.2.1
        hi.quiesced nofun fun t' permit' h => (LifecycleEvent.drainedOthers.inj h).2 ▸ hone
      exact ⟨hi', hg, hs.1, List.mem_append_left _ hs.2.1, hs.2.2⟩

theorem sound_protocol (calls : TaskId → Request) : (protocol calls).Sound where
  init s hs := by
    subst hs
    refine ⟨⟨rfl, by simp [default], fun permit h => absurd rfl h, ?_, fun _ => rfl, by simp [default],
      by simp [default], justified_nil⟩, fun t => ⟨Finset.notMem_empty t, by simp [default]⟩⟩
    rintro ⟨t, h | ⟨permit, h⟩⟩
    · exact absurd h List.not_mem_nil
    · exact absurd h List.not_mem_nil
  env _ _ _ h := h.elim
  idle _ := stable_idle
  entry t p s hp _ hidle := by
    obtain rfl : p = program t (calls t) := hp
    cases calls t with
    | command => exact safe_command hidle
    | sealAndDrain =>
      exact Safe.bind safeAsync_sealAndDrain fun _ _ _ => trivial
    | sealAndDrainOthers permit =>
      exact Safe.bind safeAsync_sealAndDrainOthers fun _ _ _ => trivial

/-! ## Runs -/

variable {c c' : Config TaskId LifecycleState} {ls ls' : List (Label TaskId)}

/-- What a path does to a process that has been sealed. -/
structure Ends (s s' : LifecycleState) : Prop where
  phase : s'.phase ≠ .running
  permits : s'.permits ⊆ s.permits
  log : ∃ es, s'.log = s.log ++ es ∧ ∀ t, .admitted t ∉ es

theorem Ends.refl (hs : s.phase ≠ .running) : s.Ends s :=
  ⟨hs, subset_rfl, [], by simp, by simp⟩

theorem Ends.trans {s'' : LifecycleState} (h : s.Ends s') (h' : s'.Ends s'') : s.Ends s'' := by
  obtain ⟨-, hpermits, es, hes, hnone⟩ := h
  obtain ⟨hphase', hpermits', es', hes', hnone'⟩ := h'
  refine ⟨hphase', hpermits'.trans hpermits, es ++ es', by rw [hes', hes, List.append_assoc],
    fun t ht => ?_⟩
  exact (List.mem_append.1 ht).elim (hnone t) (hnone' t)

theorem Guarantee.ends (hg : Guarantee t s s') (hs : s.phase ≠ .running) : s.Ends s' := by
  obtain ⟨es, hes, -, hnone⟩ := hg.log
  exact ⟨hg.phase hs, hg.closed hs, es, hes, hnone hs⟩

/-- A process that has been sealed only comes closer to its end. -/
theorem ends_of_path (hc : (protocol calls).Keeps c) (h : (system calls).machine.Path c ls c') :
    (protocol calls).Keeps c' ∧ (c.shared.phase ≠ .running → c.shared.Ends c'.shared) := by
  refine hc.path (R := fun s s' => s.phase ≠ .running → s.Ends s') (sound_protocol calls) h
    (fun s hs => .refl hs) ?_ ?_ fun _ _ _ h => h.elim
  · intro s₁ s₂ s₃ h₁ h₂ hs
    exact (h₁ hs).trans (h₂ (h₁ hs).phase)
  · intro i s s' _ _ hg hs
    exact hg.ends hs

/-- No call wins twice, and no two calls win. -/
theorem Inv.won_once (h : s.Inv) {pre post : List LifecycleEvent}
    (hlog : s.log = pre ++ .won t permit :: post) (t' permit' : TaskId) :
    .won t' permit' ∉ pre ++ post := by
  rw [List.mem_append]
  rintro (hmem | hmem)
  · exact h.rule pre _ post hlog t' permit' hmem
  · obtain ⟨p, q, rfl⟩ := List.append_of_mem hmem
    refine h.rule (pre ++ .won t permit :: p) (.won t' permit') q (by simp [hlog]) t permit ?_
    exact List.mem_append_cons_self

/-- The counter is the number of permits that have not been dropped. Once the process has been
    sealed, in either way, it never runs again, and no command is admitted. At most one call of
    `seal_and_drain_others` wins; when it returns `Ok`, no permit is left but its own, until that
    is dropped as well. A quiesced process has no permits, and gets none; and neither has one in
    which `seal_and_drain` has returned `Ok`. -/
theorem commands_of_run (h : (system calls).machine.Run ls c)
    (h' : (system calls).machine.Path c ls' c') :
    c.shared.active = c.shared.permits.card ∧
    (∀ t, t ∈ c.shared.permits ↔ .admitted t ∈ c.shared.log ∧ .dropped t ∉ c.shared.log) ∧
    (Sealed c.shared.log → c.shared.phase ≠ .running) ∧
    (c.shared.phase ≠ .running → c'.shared.phase ≠ .running ∧
      ∃ es, c'.shared.log = c.shared.log ++ es ∧ ∀ t, .admitted t ∉ es) ∧
    (∀ pre t permit post, c.shared.log = pre ++ .won t permit :: post →
      ∀ t' permit', .won t' permit' ∉ pre ++ post) ∧
    (∀ t permit, .drainedOthers t permit ∈ c.shared.log →
      .won t permit ∈ c.shared.log ∧ c'.shared.permits ⊆ {permit}) ∧
    (c.shared.phase = .quiesced → c.shared.permits = ∅ ∧ c'.shared.permits = ∅) ∧
    ∀ t, .drained t ∈ c.shared.log → c.shared.permits = ∅ := by
  have hc := (sound_protocol calls).of_run h
  obtain ⟨-, hends⟩ := ends_of_path hc h'
  refine ⟨hc.inv.count, hc.inv.live, hc.inv.closed, fun hphase => ?_,
    fun pre t permit post hlog => hc.inv.won_once hlog, fun t permit hmem => ?_, fun hphase => ?_,
    fun t hmem => (hc.inv.drained t hmem).2⟩
  · exact ⟨(hends hphase).phase, (hends hphase).log⟩
  · obtain ⟨hphase, hpermits⟩ := hc.inv.drainedOthers t permit hmem
    obtain ⟨pre, post, hlog⟩ := List.append_of_mem hmem
    refine ⟨?_, (hends hphase).permits.trans hpermits⟩
    rw [hlog]
    exact List.mem_append_left _ (hc.inv.rule pre _ post hlog)
  · have hnone := hc.inv.quiesced hphase
    have hclosed : c.shared.phase ≠ .running := by
      rw [hphase]
      exact nofun
    exact ⟨hnone, Finset.subset_empty.1 (hnone ▸ (hends hclosed).permits)⟩

/-- A command, a call that drains all others, and one that drains it as well. -/
def closingCalls : TaskId → Request
  | ⟨0⟩ => .command
  | ⟨1⟩ => .sealAndDrainOthers ⟨0⟩
  | _ => .sealAndDrain

/-- The command is admitted, and the second call wins and drains the others. When it has given the
    reference back, the command drops its permit, and the third call drains the process. -/
theorem exists_run_drained : ∃ ls c ls' c', (system closingCalls).machine.Run ls c ∧
    (system closingCalls).machine.Path c ls' c' ∧ .drainedOthers ⟨1⟩ ⟨0⟩ ∈ c.shared.log ∧
    ⟨0⟩ ∈ c.shared.permits ∧ c'.shared.phase = .quiesced := by
  have h : (system closingCalls).machine.Run [] ⟨fun _ => none, .default⟩ :=
    .nil ⟨rfl, fun _ => rfl⟩
  obtain ⟨_, h⟩ := System.run_task h ⟨0⟩ rfl rfl (.act rfl <| .refl)
  obtain ⟨_, h⟩ := System.run_task h ⟨1⟩ rfl rfl
    (.act rfl <| .act rfl <| .answer 1 <| .act rfl <| .refl)
  refine ⟨_, _, _, _, h, .cons (e := Label.run (TaskId.mk 1)) ⟨_, _, _, rfl, .atomic rfl, rfl⟩ <|
    .cons (e := Label.run (TaskId.mk 0)) ⟨_, _, _, rfl, .await _ (), rfl⟩ <|
    .cons (e := Label.run (TaskId.mk 0)) ⟨_, _, _, rfl, .atomic rfl, rfl⟩ <|
    .cons (e := Label.start (TaskId.mk 2)) ⟨rfl, _, rfl, rfl⟩ <|
    .cons (e := Label.run (TaskId.mk 2)) ⟨_, _, _, rfl, .atomic rfl, rfl⟩ <|
    .cons (e := Label.run (TaskId.mk 2)) ⟨_, _, _, rfl, .await _ 1, rfl⟩ <|
    .cons (e := Label.run (TaskId.mk 2)) ⟨_, _, _, rfl, .atomic rfl, rfl⟩ <| .nil _, ?_⟩
  exact ⟨by decide, by decide, rfl⟩

theorem lifecycle_drained : ∃ ls c ls' c', (system closingCalls).machine.Run ls c ∧
    (system closingCalls).machine.Path c ls' c' ∧ ⟨0⟩ ∈ c.shared.permits ∧
    c'.shared.permits ⊆ {⟨0⟩} ∧ c'.shared.phase = .quiesced := by
  obtain ⟨ls, c, ls', c', h, h', hdrained, hpermit, hphase⟩ := exists_run_drained
  obtain ⟨-, -, -, -, -, hothers, -⟩ := commands_of_run h h'
  exact ⟨ls, c, ls', c', h, h', hpermit, (hothers _ _ hdrained).2, hphase⟩

end LifecycleState

end NexusOps.Desktop
