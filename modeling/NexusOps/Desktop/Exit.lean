import NexusOps.Concurrency.Zoom
import NexusOps.Desktop.Lifecycle

/-!
# The end of the process

A request to exit is answered at once (`ExitCoordinator`): it is allowed if the process has been
cleaned up, and prevented otherwise. The first one that is prevented starts an attempt to clean
up, in the background; while that runs, no other is started, and when it fails, the next request
starts another. An attempt is five steps, one after the other, the first of which drains the
commands; it stops at the first step that fails.

The process is that of commands and their permits, with the coordinator beside it: the calls of
the former are run on a part of the state. What the other steps of an attempt do is not modelled,
only what they return.

* `ExitProcess.exit_of_run`: in every interleaving, there is one attempt at a time, and an exit is
  allowed only after all steps of one have succeeded, and when there are no more commands.
-/

namespace NexusOps.Desktop

open Concurrency Protocol

/-! ## State -/

inductive ExitRequest
  | startCleanup
  | preventExit
  | allowExit
  deriving DecidableEq, Repr

/-- The steps of an attempt. -/
inductive ExitStage
  | commandDrain
  | updateShutdown
  | applicationShutdown
  | localGrantRevocation
  | loggingFinalize
  deriving DecidableEq, Repr

/-- How a step is called when it has failed. -/
def ExitStage.name : ExitStage → String
  | commandDrain => "command_drain"
  | updateShutdown => "update_shutdown"
  | applicationShutdown => "application_shutdown"
  | localGrantRevocation => "local_grant_revocation"
  | loggingFinalize => "logging_finalize"

structure ExitCleanupFailure where
  stage : ExitStage
  error : AppError
  deriving DecidableEq

structure ExitState where
  attemptRunning : Bool
  cleanupComplete : Bool
  deriving DecidableEq, Repr

/-- What is logged. The request that starts an attempt names it. -/
inductive ExitEvent
  /-- A request was answered. -/
  | requested (t : TaskId) (answer : ExitRequest)
  /-- A step of an attempt has returned `Ok`. -/
  | succeeded (t : TaskId) (stage : ExitStage)
  /-- The attempt is complete. -/
  | completed (t : TaskId)
  /-- The attempt has failed. -/
  | failed (t : TaskId) (failure : ExitCleanupFailure)
  deriving DecidableEq

open ExitEvent

/-- The call that has logged an event. -/
def ExitEvent.task : ExitEvent → TaskId
  | requested t _ => t
  | succeeded t _ => t
  | completed t => t
  | failed t _ => t

/-- The process: its commands, and the coordinator. -/
structure ExitProcess where
  lifecycle : LifecycleState
  exit : ExitState
  log : List ExitEvent

namespace ExitState

def request (s : ExitState) : ExitRequest × ExitState :=
  if s.cleanupComplete then (.allowExit, s)
  else if s.attemptRunning then (.preventExit, s)
  else (.startCleanup, { s with attemptRunning := true })

def complete (_ : ExitState) : ExitState := ⟨false, true⟩

def failed (s : ExitState) : ExitState := { s with attemptRunning := false }

end ExitState

namespace ExitProcess

/-- The state at the start. -/
def default : ExitProcess := ⟨.default, ⟨false, false⟩, []⟩

/-- The commands and their permits. -/
def commands : Part ExitProcess LifecycleState where
  get s := s.lifecycle
  set s lifecycle := { s with lifecycle }

/-! ## Calls -/

section

variable (t : TaskId)

/-- Changes the coordinator, and logs an event. -/
def update (f : ExitState → ExitState) (e : ExitEvent) (s : ExitProcess) : ExitProcess :=
  { s with exit := f s.exit, log := s.log ++ [e] }

/-- A step of an attempt. -/
def cleanupStep (stage : ExitStage) (run : Proc ExitProcess (Except (Exit AppError) Unit)) :
    Async ExitProcess ExitCleanupFailure Unit := do
  match ← .lift run with
  | .ok () => .lift (.modify (update id (.succeeded t stage)))
  | .error (.error error) => .fail ⟨stage, error⟩
  | .error .dropped => throw .dropped

/-- What a step that does not concern the commands returns. -/
def returned : Proc ExitProcess (Except (Exit AppError) Unit) := .ask _

/-- The same, for one that cannot be dropped. -/
def returnedAtOnce : Proc ExitProcess (Except (Exit AppError) Unit) := do
  let r ← .ask (Except AppError Unit)
  return r.mapError .error

def runExitCleanup : Async ExitProcess ExitCleanupFailure Unit := do
  cleanupStep t .commandDrain (commands.widen (LifecycleState.sealAndDrain t).run)
  cleanupStep t .updateShutdown returned
  cleanupStep t .applicationShutdown returned
  cleanupStep t .localGrantRevocation returnedAtOnce
  cleanupStep t .loggingFinalize returnedAtOnce

/-- An attempt. The exit that is requested when it is complete is a request like any other. -/
def runExitAttempt : Async ExitProcess ExitCleanupFailure Unit := do
  match ← Async.attempt (runExitCleanup t) with
  | .ok () => .lift (.modify (update ExitState.complete (.completed t)))
  | .error failure =>
    .lift (.modify (update ExitState.failed (.failed t failure)))
    .fail failure

/-- A request to exit, and the attempt it starts. -/
def exitRequested : Proc ExitProcess Unit := do
  match ← .act fun s => some (s.exit.request.1,
      s.update (fun exit => exit.request.2) (.requested t s.exit.request.1)) with
  | .startCleanup => do let _ ← (runExitAttempt t).run
  | .preventExit => return ()
  | .allowExit => return ()

/-- The calls. -/
inductive Call
  | exitRequested
  | lifecycle (request : LifecycleState.Request)

/-- What a call does. -/
def program : Call → Proc ExitProcess Unit
  | .exitRequested => exitRequested t
  | .lifecycle request => commands.widen (LifecycleState.program t request)

end

/-- The interleavings of calls. -/
def system (calls : TaskId → Call) : System TaskId ExitProcess where
  init s := s = .default
  entry t p := p = program t (calls t)
  env _ _ := False

/-! ## The protocol -/

/-- The attempt has been started, and has not ended. -/
def Running (log : List ExitEvent) (t : TaskId) : Prop :=
  .requested t .startCleanup ∈ log ∧ .completed t ∉ log ∧ ∀ failure, .failed t failure ∉ log

/-- What an attempt logs whose steps have succeeded up to some time. -/
def attempted (t : TaskId) (stages : List ExitStage) : List ExitEvent :=
  .requested t .startCleanup :: stages.map (.succeeded t)

/-- The steps of an attempt, in their order. -/
def allStages : List ExitStage :=
  [.commandDrain, .updateShutdown, .applicationShutdown, .localGrantRevocation, .loggingFinalize]

/-- How a request is answered, by what has happened before. -/
def Answered (pre : List ExitEvent) : ExitRequest → Prop
  | .allowExit => ∃ t, .completed t ∈ pre
  | .preventExit => (∀ t, .completed t ∉ pre) ∧ ∃ t, Running pre t
  | .startCleanup => (∀ t, .completed t ∉ pre) ∧ ∀ t, ¬ Running pre t

/-- What holds when an event is logged. -/
def Rule (pre : List ExitEvent) : ExitEvent → Prop
  | .requested _ answer => Answered pre answer
  | .succeeded t _ => Running pre t
  | .completed t => Running pre t ∧ (attempted t allStages).Sublist pre
  | .failed t _ => Running pre t

/-- The invariant. -/
structure Inv (s : ExitProcess) : Prop where
  lifecycle : s.lifecycle.Inv
  running : s.exit.attemptRunning = true ↔ ∃ t, Running s.log t
  complete : s.exit.cleanupComplete = true ↔ ∃ t, .completed t ∈ s.log
  drained : ∀ t, .succeeded t .commandDrain ∈ s.log → .drained t ∈ s.lifecycle.log
  rule : Justified Rule s.log

/-- What a step of the call `i` does. -/
structure Guarantee (i : TaskId) (s s' : ExitProcess) : Prop where
  lifecycle : LifecycleState.Guarantee i s.lifecycle s'.lifecycle
  log : ∃ es, s'.log = s.log ++ es ∧ ∀ e ∈ es, e.task = i

/-- The protocol of the calls. -/
def protocol (calls : TaskId → Call) : Protocol (system calls) where
  inv := Inv
  guarantee := Guarantee
  idle t s := (t ∉ s.lifecycle.permits ∧ ∀ e ∈ s.lifecycle.log, e.task ≠ t) ∧
    ∀ e ∈ s.log, e.task ≠ t

variable {calls : TaskId → Call} {s s' : ExitProcess} {t : TaskId}

/-! ## Steps -/

/-- An event that neither starts nor ends an attempt. -/
def Quiet : ExitEvent → Prop
  | .requested _ answer => answer ≠ .startCleanup
  | .succeeded _ _ => True
  | .completed _ => False
  | .failed _ _ => False

variable {log : List ExitEvent} {e : ExitEvent}

theorem completed_snoc (he : Quiet e) {t' : TaskId} :
    completed t' ∈ log ++ [e] ↔ completed t' ∈ log := by
  rw [mem_snoc, or_iff_left]
  rintro rfl
  exact he

theorem running_snoc (he : Quiet e) {t' : TaskId} : Running (log ++ [e]) t' ↔ Running log t' := by
  refine and_congr ?_ (and_congr (not_congr (completed_snoc he)) (forall_congr' fun failure => ?_))
  · rw [mem_snoc, or_iff_left]
    rintro rfl
    exact he rfl
  · rw [mem_snoc, or_iff_left]
    rintro rfl
    exact he

/-- An attempt ends, in either way. -/
theorem running_ended (hone : ∀ t t', Running log t → Running log t' → t = t') (ht : Running log t)
    (he : e = .completed t ∨ ∃ failure, e = .failed t failure) (t' : TaskId) :
    ¬ Running (log ++ [e]) t' := by
  rintro ⟨h, h', h''⟩
  have hmem : ∀ {e'}, e' ∈ log → e' ∈ log ++ [e] := fun h => List.mem_append_left _ h
  have hlast : e ∈ log ++ [e] := List.mem_concat_self
  have hstart : .requested t' .startCleanup ∈ log := by
    refine (List.mem_append.1 h).resolve_right fun h => ?_
    rcases he with rfl | ⟨failure, rfl⟩ <;> nomatch List.mem_singleton.1 h
  obtain rfl : t' = t := hone _ _
    ⟨hstart, fun h => h' (hmem h), fun failure h => h'' failure (hmem h)⟩ ht
  rcases he with rfl | ⟨failure, rfl⟩
  · exact h' hlast
  · exact h'' failure hlast

/-- There is one attempt at a time, and none after one is complete. -/
theorem running_unique (h : Justified Rule log) :
    (∀ t t', Running log t → Running log t' → t = t') ∧
      ∀ t t', .completed t ∈ log → ¬ Running log t' := by
  -- by induction on the log, from its end
  induction log using List.reverseRecOn with
  | nil => exact ⟨fun _ _ h => absurd h.1 List.not_mem_nil, fun _ _ h => absurd h List.not_mem_nil⟩
  | append_singleton log e ih =>
    obtain ⟨hlog, he⟩ := justified_snoc.1 h
    obtain ⟨hone, hended⟩ := ih hlog
    -- an attempt ends: there is none after it
    have hends : ∀ t, Running log t → (e = .completed t ∨ ∃ failure, e = .failed t failure) →
        (∀ t t', Running (log ++ [e]) t → Running (log ++ [e]) t' → t = t') ∧
          ∀ t t', completed t ∈ log ++ [e] → ¬ Running (log ++ [e]) t' := by
      intro t ht hends
      have hnone := running_ended hone ht hends
      exact ⟨fun t _ h => absurd h (hnone t), fun _ t' _ => hnone t'⟩
    have hquiet : Quiet e → (∀ t t', Running (log ++ [e]) t → Running (log ++ [e]) t' → t = t') ∧
        ∀ t t', completed t ∈ log ++ [e] → ¬ Running (log ++ [e]) t' := by
      intro hquiet
      simpa only [running_snoc hquiet, completed_snoc hquiet] using ⟨hone, hended⟩
    cases e with
    | succeeded t stage => exact hquiet trivial
    | completed t => exact hends t he.1 (.inl rfl)
    | failed t failure => exact hends t he (.inr ⟨failure, rfl⟩)
    | requested t answer =>
      by_cases hanswer : answer = .startCleanup
      · subst hanswer
        obtain ⟨hnever, hnone⟩ := he
        have hstarted : ∀ t', Running (log ++ [requested t .startCleanup]) t' → t' = t := by
          rintro t' ⟨h, h', h''⟩
          rcases mem_snoc.1 h with h | h
          · refine absurd ⟨h, fun hc => h' ?_, fun failure hf => h'' failure ?_⟩ (hnone t')
            · exact List.mem_append_left _ hc
            · exact List.mem_append_left _ hf
          · exact (ExitEvent.requested.inj h).1
        refine ⟨fun t₁ t₂ h₁ h₂ => (hstarted t₁ h₁).trans (hstarted t₂ h₂).symm, fun t₁ _ h => ?_⟩
        exact absurd (mem_of_snoc h nofun) (hnever t₁)
      · exact hquiet hanswer

/-- A step of the commands. -/
theorem step_lifecycle (hi : s.Inv) {lifecycle : LifecycleState} (hi' : lifecycle.Inv)
    (hg : LifecycleState.Guarantee t s.lifecycle lifecycle) :
    (commands.set s lifecycle).Inv ∧ Guarantee t s (commands.set s lifecycle) := by
  refine ⟨⟨hi', hi.running, hi.complete, fun t' h => ?_, hi.rule⟩, hg, [], ?_, by simp⟩
  · obtain ⟨es, hes, -⟩ := hg.log
    change _ ∈ lifecycle.log
    rw [hes]
    exact List.mem_append_left es (hi.drained t' h)
  · exact (List.append_nil _).symm

/-- A step that logs an event, but neither starts nor ends an attempt. -/
theorem step_quiet (hi : s.Inv) {f : ExitState → ExitState}
    (hf : f s.exit = s.exit) (htask : e.task = t) (hquiet : Quiet e) (hrule : Rule s.log e)
    (hdrained : ∀ t, e = .succeeded t .commandDrain → .drained t ∈ s.lifecycle.log) :
    (s.update f e).Inv ∧ Guarantee t s (s.update f e) := by
  refine ⟨⟨hi.lifecycle, ?_, ?_, fun t' h => ?_, justified_snoc.2 ⟨hi.rule, hrule⟩⟩,
    .refl, [e], rfl, by simpa using htask⟩
  · simpa only [update, hf, running_snoc hquiet] using hi.running
  · simpa only [update, hf, completed_snoc hquiet] using hi.complete
  · rcases mem_snoc.1 h with h | h
    · exact hi.drained t' h
    · exact hdrained t' h.symm

/-- An attempt is started: there is no other. -/
theorem step_started (hi : s.Inv) {f : ExitState → ExitState}
    (hf : f s.exit = { s.exit with attemptRunning := true })
    (hcomplete : s.exit.cleanupComplete = false) (hidle : s.exit.attemptRunning = false)
    (hlog : ∀ e ∈ s.log, e.task ≠ t) :
    let s' := s.update f (.requested t .startCleanup)
    s'.Inv ∧ Guarantee t s s' ∧ Running s'.log t := by
  have hnone : ∀ t', ¬ Running s.log t' := by
    intro t' h
    exact absurd (hi.running.2 ⟨t', h⟩) (by simp [hidle])
  have hcompleted : ∀ t', .completed t' ∉ s.log := by
    intro t' h
    exact absurd (hi.complete.2 ⟨t', h⟩) (by simp [hcomplete])
  have hstarted : Running (s.log ++ [requested t .startCleanup]) t := by
    refine ⟨List.mem_concat_self, fun h => ?_, fun failure h => ?_⟩
    · exact hcompleted t (mem_of_snoc h nofun)
    · exact hlog _ (mem_of_snoc h nofun) rfl
  refine ⟨⟨hi.lifecycle, ?_, ?_, fun t' h => ?_, ?_⟩, ⟨.refl, [_], rfl, by simp [ExitEvent.task]⟩,
    hstarted⟩
  · exact ⟨fun _ => ⟨t, hstarted⟩, fun _ => congrArg ExitState.attemptRunning hf⟩
  · have hsame : (s.update f (.requested t .startCleanup)).exit.cleanupComplete = false :=
      (congrArg ExitState.cleanupComplete hf).trans hcomplete
    rw [hsame]
    refine ⟨nofun, fun ⟨t', h⟩ => ?_⟩
    exact absurd (mem_of_snoc h nofun) (hcompleted t')
  · exact hi.drained t' (mem_of_snoc h nofun)
  · exact justified_snoc.2 ⟨hi.rule, hcompleted, hnone⟩

theorem step_completed (hi : s.Inv) (ht : Running s.log t)
    (hsteps : (attempted t allStages).Sublist s.log) :
    let s' := s.update ExitState.complete (.completed t)
    s'.Inv ∧ Guarantee t s s' := by
  have hnone := running_ended (running_unique hi.rule).1 ht (.inl rfl)
  refine ⟨⟨hi.lifecycle, ?_, ?_, fun t' h => ?_, justified_snoc.2 ⟨hi.rule, ht, hsteps⟩⟩, .refl,
    [_], rfl, by simp [ExitEvent.task]⟩
  · exact ⟨nofun, fun ⟨t', h⟩ => absurd h (hnone t')⟩
  · exact ⟨fun _ => ⟨t, List.mem_concat_self⟩, fun _ => rfl⟩
  · exact hi.drained t' (mem_of_snoc h nofun)

theorem step_failed (hi : s.Inv) (ht : Running s.log t) (failure : ExitCleanupFailure) :
    let s' := s.update ExitState.failed (.failed t failure)
    s'.Inv ∧ Guarantee t s s' := by
  have hnone := running_ended (running_unique hi.rule).1 ht (.inr ⟨failure, rfl⟩)
  have hcompleted : ∀ t', completed t' ∈ s.log ++ [failed t failure] ↔ completed t' ∈ s.log := by
    intro t'
    rw [mem_snoc, or_iff_left nofun]
  refine ⟨⟨hi.lifecycle, ?_, ?_, fun t' h => ?_, justified_snoc.2 ⟨hi.rule, ht⟩⟩, .refl, [_], rfl,
    by simp [ExitEvent.task]⟩
  · exact ⟨nofun, fun ⟨t', h⟩ => absurd h (hnone t')⟩
  · simpa only [update, ExitState.failed, hcompleted] using hi.complete
  · exact hi.drained t' (mem_of_snoc h nofun)

/-! ## Calls -/

/-- What a call knows is not affected by others. -/
theorem stable_of_others {A : ExitProcess → Prop}
    (h : ∀ s s' j, j ≠ t → Guarantee j s s' → A s → A s') : (protocol calls).Stable t A := by
  rintro s s' ⟨-, -, henv | ⟨j, hj, hg⟩⟩ hs
  · exact henv.elim
  · exact h s s' j hj hg hs

/-- The attempt is running, and these of its steps have succeeded. -/
def Attempting (t : TaskId) (stages : List ExitStage) (s : ExitProcess) : Prop :=
  Running s.log t ∧ (attempted t stages).Sublist s.log

theorem stable_running : (protocol calls).Stable t fun s => Running s.log t := by
  refine stable_of_others fun s s' j hj hg ⟨hstart, hcompleted, hfailed⟩ => ?_
  obtain ⟨es, hes, htask⟩ := hg.log
  have hother : ∀ e : ExitEvent, e.task = t → e ∈ s'.log → e ∈ s.log := by
    intro e he hmem
    rw [hes] at hmem
    refine (List.mem_append.1 hmem).resolve_right fun hmem => hj ?_
    exact (htask e hmem).symm.trans he
  refine ⟨?_, fun h => hcompleted (hother _ rfl h), fun failure h =>
    hfailed failure (hother _ rfl h)⟩
  rw [hes]
  exact List.mem_append_left es hstart

variable {stages : List ExitStage}

theorem stable_attempting : (protocol calls).Stable t (Attempting t stages) := by
  refine stable_running.and (stable_of_others fun s s' j _ hg hsteps => ?_)
  obtain ⟨es, hes, -⟩ := hg.log
  rw [hes]
  exact hsteps.trans (List.sublist_append_left s.log es)

theorem stable_drained : (protocol calls).Stable t fun s => .drained t ∈ s.lifecycle.log := by
  refine stable_of_others fun s s' j _ hg h => ?_
  obtain ⟨es, hes, -⟩ := hg.lifecycle.log
  rw [hes]
  exact List.mem_append_left es h

theorem stable_idle : (protocol calls).Stable t ((protocol calls).idle t) := by
  refine stable_of_others fun s s' j hj hg ⟨⟨hpermits, hlog⟩, hlog'⟩ =>
    ⟨⟨?_, fun e he => ?_⟩, fun e he => ?_⟩
  · rwa [hg.lifecycle.permits t hj.symm]
  · obtain ⟨es, hes, htask, -⟩ := hg.lifecycle.log
    rw [hes] at he
    rcases List.mem_append.1 he with he | he
    · exact hlog e he
    · exact fun h => hj ((htask e he).symm.trans h)
  · obtain ⟨es, hes, htask⟩ := hg.log
    rw [hes] at he
    rcases List.mem_append.1 he with he | he
    · exact hlog' e he
    · exact fun h => hj ((htask e he).symm.trans h)

/-- A call of the commands. -/
theorem safe_widen {α : Type} {A : ExitProcess → Prop} {Q : α → LifecycleState → Prop}
    {p : Proc LifecycleState α} {requests : TaskId → LifecycleState.Request}
    (hA : (protocol calls).Stable t A)
    (hkeeps : ∀ s lifecycle, A s → A (commands.set s lifecycle))
    (h : (LifecycleState.protocol requests).Safe t Q p s.lifecycle) (hs : A s) :
    (protocol calls).Safe t (fun a s => Q a s.lifecycle ∧ A s) (commands.widen p) s := by
  have hget : ∀ s lifecycle, commands.get (commands.set s lifecycle) = lifecycle := fun _ _ => rfl
  refine Safe.widen hget (fun _ hi => hi.lifecycle) ?_ hA (fun s lifecycle hs hi hi' hg => ?_) h hs
  · rintro s s' ⟨hi, hi', henv | ⟨j, hj, hg⟩⟩
    · exact henv.elim
    · exact ⟨hi.lifecycle, hi'.lifecycle, .inr ⟨j, hj, hg.lifecycle⟩⟩
  · obtain ⟨hi'', hg'⟩ := step_lifecycle hi hi' hg
    exact ⟨hi'', hg', hkeeps s lifecycle hs⟩

/-- What a step of an attempt leaves, before it is logged. -/
def Returned (t : TaskId) (stages : List ExitStage) (stage : ExitStage)
    (r : Except (Exit AppError) Unit) (s : ExitProcess) : Prop :=
  Attempting t stages s ∧ (r = .ok () → stage = .commandDrain → .drained t ∈ s.lifecycle.log)

variable {stage : ExitStage}

theorem safeAsync_cleanupStep {run : Proc ExitProcess (Except (Exit AppError) Unit)}
    (hrun : (protocol calls).Safe t (Returned t stages stage) run s) :
    (protocol calls).SafeAsync t (fun _ => Attempting t (stages ++ [stage]))
      (fun _ s => Running s.log t) (fun _ => True) (cleanupStep t stage run) s := by
  refine SafeOr.bind (R := Returned t stages stage) (safeOr_lift.2 hrun) fun r s hr => ?_
  rcases r with (error | _) | _
  · exact hr.1.1
  · exact trivial
  · obtain ⟨hs, hdrained⟩ := hr
    have hstable : (protocol calls).Stable t fun s => Attempting t stages s ∧
        (stage = .commandDrain → .drained t ∈ s.lifecycle.log) :=
      stable_attempting.and fun s s' h hs hstage => stable_drained s s' h (hs hstage)
    refine safeOr_lift.2 (safe_modify (k := .ret) hstable ⟨hs, hdrained rfl⟩
      fun s ⟨hs, hdrained⟩ hi => ?_)
    obtain ⟨hi', hg⟩ := step_quiet (t := t) (f := id) (e := .succeeded t stage) hi rfl rfl trivial
      hs.1 (fun t' h => by
        obtain ⟨rfl, rfl⟩ := ExitEvent.succeeded.inj h
        exact hdrained rfl)
    refine ⟨hi', hg, (running_snoc (e := .succeeded t stage) trivial).2 hs.1, ?_⟩
    -- the event comes after those of the steps before
    have hsteps : attempted t (stages ++ [stage]) =
        attempted t stages ++ [succeeded t stage] := by simp [attempted]
    rw [hsteps]
    exact hs.2.append (List.Sublist.refl _)

theorem safe_returned (hs : Attempting t stages s) (hstage : stage ≠ .commandDrain) :
    (protocol calls).Safe t (Returned t stages stage) returned s :=
  safe_ask (k := .ret) fun _ => ⟨hs, fun _ h => absurd h hstage⟩

theorem safe_returnedAtOnce (hs : Attempting t stages s) (hstage : stage ≠ .commandDrain) :
    (protocol calls).Safe t (Returned t stages stage) returnedAtOnce s :=
  safe_ask fun _ => ⟨hs, fun _ h => absurd h hstage⟩

theorem safe_drain (hs : Attempting t [] s) :
    (protocol calls).Safe t (Returned t [] .commandDrain)
      (commands.widen (LifecycleState.sealAndDrain t).run) s := by
  have hdrain : (LifecycleState.protocol fun _ => .command).SafeAsync t
      (fun _ lifecycle => .drained t ∈ lifecycle.log) (fun _ _ => True) (fun _ => True)
      (LifecycleState.sealAndDrain t) s.lifecycle := LifecycleState.safeAsync_sealAndDrain
  refine Safe.mono (safe_widen stable_attempting (fun _ _ h => h) hdrain hs) fun r s hr => ?_
  refine ⟨hr.2, fun hok _ => ?_⟩
  subst hok
  exact hr.1

/-- The steps of an attempt, one after the other. -/
theorem safeAsync_runExitCleanup (hs : Attempting t [] s) :
    (protocol calls).SafeAsync t (fun _ => Attempting t allStages) (fun _ s => Running s.log t)
      (fun _ => True) (runExitCleanup t) s := by
  refine SafeOr.bind (safeAsync_cleanupStep (safe_drain hs)) fun _ s hs => ?_
  refine SafeOr.bind (safeAsync_cleanupStep (safe_returned hs nofun)) fun _ s hs => ?_
  refine SafeOr.bind (safeAsync_cleanupStep (safe_returned hs nofun)) fun _ s hs => ?_
  refine SafeOr.bind (safeAsync_cleanupStep (safe_returnedAtOnce hs nofun)) fun _ s hs => ?_
  have hlast : (protocol calls).Safe t (Returned t _ .loggingFinalize) returnedAtOnce s :=
    safe_returnedAtOnce hs nofun
  exact safeAsync_cleanupStep hlast

theorem safeAsync_runExitAttempt (hs : Attempting t [] s) :
    (protocol calls).SafeAsync t (fun _ _ => True) (fun _ _ => True) (fun _ => True)
      (runExitAttempt t) s := by
  refine SafeOr.bind (R := fun r s => match r with
      | .ok () => Attempting t allStages s
      | .error _ => Running s.log t) (safeAsync_attempt (safeAsync_runExitCleanup hs)) fun r s hr => ?_
  rcases r with failure | _
  · refine safeOr_bind.2 (safeOr_lift.2 (safe_modify (k := .ret) stable_running hr
      fun s hs hi => ?_))
    obtain ⟨hi', hg⟩ := step_failed hi hs failure
    exact ⟨hi', hg, trivial⟩
  · refine safeOr_lift.2 (safe_modify (k := .ret) stable_attempting hr fun s hs hi => ?_)
    obtain ⟨hi', hg⟩ := step_completed hi hs.1 hs.2
    exact ⟨hi', hg, trivial⟩

theorem safe_exitRequested (hidle : (protocol calls).idle t s) :
    (protocol calls).Safe t (fun _ _ => True) (exitRequested t) s := by
  refine safe_act stable_idle hidle fun s answer s' hidle hi hf => ?_
  obtain ⟨⟩ := hf
  have hnone : s.exit.attemptRunning = false → ∀ t', ¬ Running s.log t' :=
    fun h t' ht' => absurd (hi.running.2 ⟨t', ht'⟩) (by simp [h])
  have hnever : s.exit.cleanupComplete = false → ∀ t', .completed t' ∉ s.log :=
    fun h t' ht' => absurd (hi.complete.2 ⟨t', ht'⟩) (by simp [h])
  cases hcomplete : s.exit.cleanupComplete with
  | true =>
    have hrequest : s.exit.request = (.allowExit, s.exit) := by simp [ExitState.request, hcomplete]
    obtain ⟨hi', hg⟩ := step_quiet (t := t) (f := fun exit => exit.request.2)
      (e := .requested t .allowExit) hi (by rw [hrequest]) rfl nofun
      (hi.complete.1 hcomplete) nofun
    rw [hrequest]
    exact ⟨hi', hg, trivial⟩
  | false =>
    cases hrunning : s.exit.attemptRunning with
    | true =>
      have hrequest : s.exit.request = (.preventExit, s.exit) := by
        simp [ExitState.request, hcomplete, hrunning]
      obtain ⟨hi', hg⟩ := step_quiet (t := t) (f := fun exit => exit.request.2)
        (e := .requested t .preventExit) hi (by rw [hrequest]) rfl nofun
        ⟨hnever hcomplete, hi.running.1 hrunning⟩ nofun
      rw [hrequest]
      exact ⟨hi', hg, trivial⟩
    | false =>
      have hrequest : s.exit.request = (.startCleanup, { s.exit with attemptRunning := true }) := by
        simp [ExitState.request, hcomplete, hrunning]
      obtain ⟨hi', hg, ht⟩ := step_started (t := t) (f := fun exit => exit.request.2) hi
        (by rw [hrequest]) hcomplete hrunning hidle.2
      rw [hrequest]
      refine ⟨hi', hg, Safe.bind (safeAsync_runExitAttempt ⟨ht, ?_⟩)
        fun _ _ _ => trivial⟩
      exact List.singleton_sublist.2 ht.1

theorem sound_protocol (calls : TaskId → Call) : (protocol calls).Sound where
  init s hs := by
    subst hs
    obtain ⟨hi, hidle⟩ := (LifecycleState.sound_protocol fun _ => .command).init .default rfl
    refine ⟨⟨hi, ?_, ?_, fun t h => absurd h List.not_mem_nil, justified_nil⟩,
      fun t => ⟨hidle t, fun e h => absurd h List.not_mem_nil⟩⟩
    · exact ⟨nofun, fun ⟨t, h⟩ => absurd h.1 List.not_mem_nil⟩
    · exact ⟨nofun, fun ⟨t, h⟩ => absurd h List.not_mem_nil⟩
  env _ _ _ h := h.elim
  idle _ := stable_idle
  entry t p s hp hi hidle := by
    obtain rfl : p = program t (calls t) := hp
    cases calls t with
    | exitRequested => exact safe_exitRequested hidle
    | lifecycle request =>
      have h := (LifecycleState.sound_protocol fun _ => request).entry t _ s.lifecycle rfl
        hi.lifecycle hidle.1
      refine Safe.mono (safe_widen (A := fun _ => True) (fun _ _ _ h => h) (fun _ _ h => h) h trivial)
        fun _ _ _ => trivial

/-! ## Runs -/

/-- An attempt has failed, and none was started since: there is none, and none was complete. -/
theorem none_of_failed {pre mid : List ExitEvent} {failure : ExitCleanupFailure}
    (h : Justified Rule (pre ++ failed t failure :: mid))
    (hmid : ∀ t', .requested t' .startCleanup ∉ mid) :
    (∀ t', completed t' ∉ pre ++ failed t failure :: mid) ∧
      ∀ t', ¬ Running (pre ++ failed t failure :: mid) t' := by
  -- by induction on what came after, from its end
  induction mid using List.reverseRecOn with
  | nil =>
    obtain ⟨hpre, ht⟩ := justified_snoc.1 h
    obtain ⟨hone, hended⟩ := running_unique hpre
    refine ⟨fun t' hmem => ?_, running_ended hone ht (.inr ⟨failure, rfl⟩)⟩
    have hmem : .completed t' ∈ pre := by simpa using hmem
    exact hended t' t hmem ht
  | append_singleton mid e ih =>
    rw [← List.cons_append, ← List.append_assoc] at h ⊢
    obtain ⟨hlog, he⟩ := justified_snoc.1 h
    obtain ⟨hnever, hnone⟩ := ih hlog fun t' h => hmid t' (List.mem_append_left _ h)
    have hquiet : Quiet e := by
      cases e with
      | succeeded t' stage => exact trivial
      | completed t' => exact hnone t' he.1
      | failed t' failure' => exact hnone t' he
      | requested t' answer =>
        rintro rfl
        exact hmid t' List.mem_concat_self
    simpa only [running_snoc hquiet, completed_snoc hquiet] using ⟨hnever, hnone⟩

variable {c c' : Config TaskId ExitProcess} {ls ls' : List (Label TaskId)}

theorem ends_of_path (hc : (protocol calls).Keeps c) (h : (system calls).machine.Path c ls c') :
    c.shared.lifecycle.phase ≠ .running → c.shared.lifecycle.Ends c'.shared.lifecycle := by
  refine (hc.path (R := fun s s' => s.lifecycle.phase ≠ .running → s.lifecycle.Ends s'.lifecycle)
    (sound_protocol calls) h (fun s hs => .refl hs) ?_ ?_ fun _ _ _ h => h.elim).2
  · intro s₁ s₂ s₃ h₁ h₂ hs
    exact (h₁ hs).trans (h₂ (h₁ hs).phase)
  · intro i s s' _ _ hg hs
    exact hg.lifecycle.ends hs

/-- There is one attempt at a time. A request is answered by what has happened before; when an
    attempt has failed, the next request starts another. If an exit is allowed, then all steps of
    an attempt have succeeded before, in their order; no permit is left, and no command is
    admitted any more. -/
theorem exit_of_run (h : (system calls).machine.Run ls c)
    (h' : (system calls).machine.Path c ls' c') :
    (∀ t t', Running c.shared.log t → Running c.shared.log t' → t = t') ∧
    (∀ pre t answer post, c.shared.log = pre ++ requested t answer :: post →
      Answered pre answer) ∧
    (∀ pre t failure mid t' answer post,
      c.shared.log = pre ++ failed t failure :: mid ++ requested t' answer :: post →
      (∀ t'', .requested t'' .startCleanup ∉ mid) → answer = .startCleanup) ∧
    (∀ pre t post, c.shared.log = pre ++ requested t .allowExit :: post →
      ∃ t', (attempted t' allStages).Sublist pre) ∧
    ∀ t, .requested t .allowExit ∈ c.shared.log →
      c.shared.lifecycle.active = 0 ∧ c.shared.lifecycle.permits = ∅ ∧
      c'.shared.lifecycle.permits = ∅ ∧
      ∃ es, c'.shared.lifecycle.log = c.shared.lifecycle.log ++ es ∧ ∀ t, .admitted t ∉ es := by
  have hc := (sound_protocol calls).of_run h
  have hi : c.shared.Inv := hc.inv
  have hallowed : ∀ pre t post, c.shared.log = pre ++ requested t .allowExit :: post →
      ∃ t', (attempted t' allStages).Sublist pre := by
    intro pre t post hlog
    obtain ⟨t', ht'⟩ : ∃ t', ExitEvent.completed t' ∈ pre := hi.rule pre _ post hlog
    obtain ⟨p, q, rfl⟩ := List.append_of_mem ht'
    have hsteps := (hi.rule p (completed t') (q ++ requested t .allowExit :: post)
      (by simp [hlog])).2
    exact ⟨t', hsteps.trans (List.sublist_append_left _ _)⟩
  refine ⟨(running_unique hi.rule).1, fun pre t answer post hlog => hi.rule pre _ post hlog, ?_,
    hallowed, fun t hmem => ?_⟩
  · intro pre t failure mid t' answer post hlog hmid
    have hjustified : Justified Rule (pre ++ failed t failure :: mid) := by
      intro p e q hpq
      exact hi.rule p e (q ++ requested t' answer :: post) (by rw [hlog, hpq]; simp)
    obtain ⟨hnever, hnone⟩ := none_of_failed hjustified hmid
    have hanswered : Answered _ answer := hi.rule _ (.requested t' answer) post hlog
    cases answer with
    | startCleanup => rfl
    | preventExit =>
      obtain ⟨-, t'', ht''⟩ := hanswered
      exact absurd ht'' (hnone t'')
    | allowExit =>
      obtain ⟨t'', ht''⟩ := hanswered
      exact absurd ht'' (hnever t'')
  · obtain ⟨pre, post, hlog⟩ := List.append_of_mem hmem
    obtain ⟨t', hsteps⟩ := hallowed pre t post hlog
    have hdrain : .succeeded t' .commandDrain ∈ c.shared.log := by
      rw [hlog]
      exact List.mem_append_left _ (hsteps.subset (by simp [attempted, allStages]))
    obtain ⟨hphase, hpermits⟩ := hi.lifecycle.drained t' (hi.drained t' hdrain)
    have hends := ends_of_path hc h' hphase
    refine ⟨?_, hpermits, ?_, hends.log⟩
    · rw [hi.lifecycle.count, hpermits, Finset.card_empty]
    · exact Finset.subset_empty.1 (hpermits ▸ hends.permits)

/-- A command, and requests to exit. -/
def exitingCalls : TaskId → Call
  | ⟨0⟩ => .lifecycle .command
  | _ => .exitRequested

/-- The first attempt fails, since the command still runs. When the command has returned, the next
    request starts another, which is complete, and the last request is allowed. -/
theorem exists_run_exit : ∃ ls c, (system exitingCalls).machine.Run ls c ∧
    .failed ⟨1⟩ ⟨.commandDrain, LifecycleState.drainTimeout⟩ ∈ c.shared.log ∧
    .requested ⟨3⟩ .allowExit ∈ c.shared.log := by
  have h : (system exitingCalls).machine.Run [] ⟨fun _ => none, .default⟩ :=
    .nil ⟨rfl, fun _ => rfl⟩
  obtain ⟨_, h⟩ := System.run_task h ⟨0⟩ rfl rfl (.act rfl <| .refl)
  obtain ⟨_, h⟩ := System.run_task h ⟨1⟩ rfl rfl (.act rfl <| .refl)
  -- the process is sealed, looked at once, and the time is over
  obtain ⟨_, h⟩ := System.run_alone h (.act rfl <| .answer 2 <| .act rfl <| .answer (some true) <|
    .act rfl <| .refl)
  have h := System.run_resume (i := ⟨0⟩) h rfl
  obtain ⟨_, h⟩ := System.run_alone h (.answer () <| .act rfl <| .refl)
  obtain ⟨_, h⟩ := System.run_task h ⟨2⟩ rfl rfl
    (.act rfl <| .act rfl <| .answer 1 <| .act rfl <| .act rfl <|
    .answer (.ok () : Except (Exit AppError) Unit) <| .act rfl <|
    .answer (.ok () : Except (Exit AppError) Unit) <| .act rfl <|
    .answer (.ok () : Except AppError Unit) <| .act rfl <|
    .answer (.ok () : Except AppError Unit) <| .act rfl <| .act rfl <| .refl)
  obtain ⟨_, h⟩ := System.run_task h ⟨3⟩ rfl rfl (.act rfl <| .refl)
  exact ⟨_, _, h, by decide +kernel, by decide +kernel⟩

theorem exit_allowed : ∃ ls c, (system exitingCalls).machine.Run ls c ∧
    .failed ⟨1⟩ ⟨.commandDrain, LifecycleState.drainTimeout⟩ ∈ c.shared.log ∧
    .requested ⟨3⟩ .allowExit ∈ c.shared.log ∧ c.shared.lifecycle.permits = ∅ := by
  obtain ⟨ls, c, h, hfailed, hallowed⟩ := exists_run_exit
  obtain ⟨-, -, -, -, hpermits⟩ := exit_of_run h (.nil c)
  exact ⟨ls, c, h, hfailed, hallowed, (hpermits _ hallowed).2.1⟩

end ExitProcess

end NexusOps.Desktop
