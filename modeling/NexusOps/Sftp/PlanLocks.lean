import NexusOps.Concurrency.LockOrder

/-!
# The locks of the file plans

Plans and editor documents are kept in two tables, each behind a mutex of its own. A call that
needs both takes that of the documents first. The mutexes are not reentrant, and one is taken
where nothing shows it: a reservation of a document that has not become a plan is given back when
its guard is dropped.

Here, a call is what it does with the two mutexes (`Locking`), on all of its paths: where it goes
on by what it finds, it may do so in any way (`any`). A mutex is released at the end of a scope,
whether that is left early or not; this is also what happens when a call is dropped while it
awaits an answer (`awaiting`).

* `PlanLocks.locks_of_run`: in every interleaving, the mutexes are waited for in their order, and
  no calls wait for each other.
-/

namespace NexusOps.Sftp.PlanLocks

open Concurrency Locking Call

/-- The mutexes of the store. -/
inductive StoreLock
  | documents
  | plans
  deriving DecidableEq, Repr

/-- The order in which they are taken. -/
def StoreLock.rank : StoreLock → ℕ
  | documents => 0
  | plans => 1

/-- A call of the store. -/
abbrev StoreCall := Call StoreLock

/-! ## Parts of calls -/

/-- Takes a mutex for the rest of a scope, and fails if it is poisoned. -/
def locked (l : StoreLock) (body : StoreCall Unit) : StoreCall Unit := scope l do
  mayFail
  body

/-- Takes a mutex for the rest of a scope, which is skipped if it is poisoned. -/
def ifLocked (l : StoreLock) (body : StoreCall Unit) : StoreCall Unit := scope l do
  maybe body

/-- What an `EditorPlanningGuard` does when it is dropped: it is active unless the call has
    succeeded, and the store may be gone. -/
def planningGuard (body : StoreCall Unit) : StoreCall Unit :=
  ExceptT.mk do
    match ← body.run with
    | .ok () => return .ok ()
    | .error () => (do
        maybe (ifLocked .documents (pure ()))
        throw () : StoreCall Unit).run

/-! ## The calls of the store -/

def revokeAll : StoreCall Unit := do
  locked .documents (pure ())
  locked .plans (pure ())

/-- The documents are held to the end, unless their mutex is poisoned: then it is released at
    once. -/
def revokeSession : StoreCall Unit := do
  if ← either then
    scope .documents (pure ())
    ifLocked .plans (pure ())
  else
    scope .documents (ifLocked .plans (pure ()))

def registerEditorDocument : StoreCall Unit := do
  mayFail
  locked .documents do
    -- plans of documents that are retired go with them
    maybe (locked .plans (pure ()))
    mayFail

def discardEditorDocument : StoreCall Unit :=
  locked .documents do
    mayFail
    maybe (locked .plans (pure ()))

def insertWithId : StoreCall Unit := do
  mayFail
  locked .plans mayFail

/-- The guard is declared before the documents are locked for the second time, and dropped after
    they are released. -/
def planEditorSave : StoreCall Unit := do
  locked .documents mayFail
  planningGuard do
    mayFail
    awaiting
    mayFail
    awaiting
    mayFail
    locked .documents do
      mayFail
      insertWithId

def discard : StoreCall Unit := locked .documents (locked .plans mayFail)

def planUpload : StoreCall Unit := do
  mayFail
  forEach do
    mayFail
    awaiting
    mayFail
    -- names that are tried for a copy
    forEach awaiting
    mayFail
  insertWithId

def planDownload : StoreCall Unit := do
  mayFail
  forEach do
    awaiting
    mayFail
    awaiting
    mayFail
  insertWithId

def planMutation : StoreCall Unit := do
  mayFail
  insertWithId

def consume : StoreCall Unit := locked .documents (locked .plans mayFail)

/-- The task that `schedule_plan_expiry` starts. -/
def planExpiry : StoreCall Unit := do
  awaiting
  mayFail
  ifLocked .documents do
    mayFail
    ifLocked .plans (pure ())

/-- The task that `schedule_document_expiry` starts. -/
def documentExpiry : StoreCall Unit := do
  awaiting
  mayFail
  ifLocked .documents do
    maybe (ifLocked .plans (pure ()))

/-- The calls. -/
inductive Request
  | revokeAll
  | revokeSession
  | registerEditorDocument
  | discardEditorDocument
  | planEditorSave
  | discard
  | planUpload
  | planDownload
  | planMutation
  | consume
  | planExpiry
  | documentExpiry
  deriving DecidableEq, Repr

/-- What a call does. -/
def program : Request → StoreCall Unit
  | .revokeAll => revokeAll
  | .revokeSession => revokeSession
  | .registerEditorDocument => registerEditorDocument
  | .discardEditorDocument => discardEditorDocument
  | .planEditorSave => planEditorSave
  | .discard => discard
  | .planUpload => planUpload
  | .planDownload => planDownload
  | .planMutation => planMutation
  | .consume => consume
  | .planExpiry => planExpiry
  | .documentExpiry => documentExpiry

/-! ## All calls are ordered -/

section

/-- While it holds mutexes of ranks below `n`, the call takes only others, in their order, and
    awaits nothing while it holds one. -/
abbrev Tidy {α : Type} (n : ℕ) (call : StoreCall α) : Prop :=
  Rising StoreLock.rank (fun _ => True) n call

variable {n : ℕ} {body : StoreCall Unit}

theorem tidy_awaiting : Tidy 0 awaiting := rising_awaiting (.inl rfl)

/-- The documents are taken first. -/
theorem tidy_documents (hbody : Tidy 1 body) : Tidy 0 (locked .documents body) :=
  rising_scope le_rfl (rising_mayFail.andThen fun _ => hbody)

theorem tidy_ifDocuments (hbody : Tidy 1 body) : Tidy 0 (ifLocked .documents body) :=
  rising_scope le_rfl (rising_maybe hbody)

/-- The plans are taken after them, or alone. -/
theorem tidy_plans (hn : n ≤ 1) (hbody : Tidy 2 body) : Tidy n (locked .plans body) :=
  rising_scope hn (rising_mayFail.andThen fun _ => hbody)

theorem tidy_ifPlans (hn : n ≤ 1) : Tidy n (ifLocked .plans (pure ())) :=
  rising_scope hn (rising_maybe rising_pure)

/-- A guard takes the mutex of the documents when it is dropped, so they must not be held where
    it is declared. -/
theorem tidy_planningGuard (hbody : Tidy 0 body) : Tidy 0 (planningGuard body) := by
  refine fun held hheld => Neutral.bind (hbody held hheld) fun r => ?_
  cases r with
  | ok a => exact neutral_pure
  | error e =>
    have hdrop : Tidy 0 (do
        maybe (ifLocked .documents (pure ()))
        throw () : StoreCall Unit) :=
      (rising_maybe (tidy_ifDocuments rising_pure)).andThen fun _ => rising_throw
    exact hdrop held hheld

/-- A plan is inserted by calls that hold the documents, and by others that do not. -/
theorem tidy_insertWithId (hn : n ≤ 1) : Tidy n insertWithId :=
  rising_mayFail.andThen fun _ => tidy_plans hn rising_mayFail

theorem tidy_planEditorSave : Tidy 0 planEditorSave := by
  refine (tidy_documents rising_mayFail).andThen fun _ => tidy_planningGuard ?_
  refine rising_mayFail.andThen fun _ => tidy_awaiting.andThen fun _ => ?_
  refine rising_mayFail.andThen fun _ => tidy_awaiting.andThen fun _ => ?_
  refine rising_mayFail.andThen fun _ => tidy_documents ?_
  exact rising_mayFail.andThen fun _ => tidy_insertWithId le_rfl

theorem tidy_program (request : Request) : Tidy 0 (program request) := by
  cases request with
  | revokeAll =>
    exact (tidy_documents rising_pure).andThen fun _ => tidy_plans (Nat.zero_le 1) rising_pure
  | revokeSession =>
    refine rising_if ?_ (rising_scope (Nat.zero_le _) (tidy_ifPlans le_rfl))
    exact (rising_scope (Nat.zero_le _) rising_pure).andThen fun _ => tidy_ifPlans (Nat.zero_le 1)
  | registerEditorDocument =>
    refine rising_mayFail.andThen fun _ => tidy_documents ?_
    exact (rising_maybe (tidy_plans le_rfl rising_pure)).andThen fun _ => rising_mayFail
  | discardEditorDocument =>
    refine tidy_documents (rising_mayFail.andThen fun _ => ?_)
    exact rising_maybe (tidy_plans le_rfl rising_pure)
  | planEditorSave => exact tidy_planEditorSave
  | discard => exact tidy_documents (tidy_plans le_rfl rising_mayFail)
  | planUpload =>
    refine rising_mayFail.andThen fun _ => (rising_forEach ?_).andThen fun _ =>
      tidy_insertWithId (Nat.zero_le 1)
    refine rising_mayFail.andThen fun _ => tidy_awaiting.andThen fun _ => ?_
    refine rising_mayFail.andThen fun _ => (rising_forEach tidy_awaiting).andThen fun _ => ?_
    exact rising_mayFail
  | planDownload =>
    refine rising_mayFail.andThen fun _ => (rising_forEach ?_).andThen fun _ =>
      tidy_insertWithId (Nat.zero_le 1)
    refine tidy_awaiting.andThen fun _ => rising_mayFail.andThen fun _ => ?_
    exact tidy_awaiting.andThen fun _ => rising_mayFail
  | planMutation => exact rising_mayFail.andThen fun _ => tidy_insertWithId (Nat.zero_le 1)
  | consume => exact tidy_documents (tidy_plans le_rfl rising_mayFail)
  | planExpiry =>
    refine tidy_awaiting.andThen fun _ => rising_mayFail.andThen fun _ => tidy_ifDocuments ?_
    exact rising_mayFail.andThen fun _ => tidy_ifPlans le_rfl
  | documentExpiry =>
    refine tidy_awaiting.andThen fun _ => rising_mayFail.andThen fun _ => tidy_ifDocuments ?_
    exact rising_maybe (tidy_ifPlans le_rfl)

end

/-! ## Interleavings -/

section

variable {ι : Type} [DecidableEq ι]

/-- The task of a call. -/
def task (request : Request) : Locking StoreLock Unit := do
  let _ ← (program request).run

/-- The interleavings of any calls. -/
def system (requests : ι → Request) : Machine (Locking.State ι StoreLock) (Label ι) :=
  machine fun i p => p = task (requests i)

variable {requests : ι → Request} {s : Locking.State ι StoreLock} {ls : List (Label ι)}

theorem inv_of_run (h : (system requests).Run ls s) :
    Inv StoreLock.rank (fun _ => True) s := by
  refine Locking.inv_of_run (fun i p hp => ?_) h
  subst hp
  refine Neutral.bind (tidy_program (requests i) ∅ fun l hl => ?_) fun _ => neutral_pure
  exact absurd hl (Set.notMem_empty l)

/-- A call that waits for the documents holds neither mutex, and one that waits for the plans does
    not hold the plans. So no calls wait for each other, and while one waits, there is one that can
    go on. -/
theorem locks_of_run (h : (system requests).Run ls s) :
    (∀ i, s.Waits i .documents → s.holder .documents ≠ some i ∧ s.holder .plans ≠ some i) ∧
    (∀ i, s.Waits i .plans → s.holder .plans ≠ some i) ∧ ¬ s.Deadlocked ∧
    ∀ i l, s.Waits i l → ∃ j p p' holder, s.tasks j = some p ∧ ¬ s.Pauses j ∧
      Step j p s.holder p' holder ∧ (j = i ∨ ∃ l, s.holder l = some j) := by
  have hi := inv_of_run h
  have hrank : ∀ l : StoreLock, l.rank < 2 := by
    intro l
    cases l <;> decide
  refine ⟨fun i hwaits => ⟨fun hheld => ?_, fun hheld => ?_⟩, fun i hwaits hheld => ?_,
    not_deadlocked hi hrank, fun i l hwaits => waits_runs hi hrank (fun _ => trivial) hwaits⟩
  · exact absurd (waits_rank hi hwaits hheld) (by decide)
  · exact absurd (waits_rank hi hwaits hheld) (by decide)
  · exact absurd (waits_rank hi hwaits hheld) (by decide)

end

/-- One call consumes a plan, while another one inserts one. -/
def twoCalls : Bool → Request
  | false => .consume
  | true => .planMutation

/-- The first has the documents and waits for the plans, which the second has. -/
theorem exists_run_waits : ∃ ls s, (system twoCalls).Run ls s ∧ s.Waits false .plans ∧
    s.holder .documents = some false ∧ s.holder .plans = some true := by
  have h : (system twoCalls).Run [] ⟨fun _ => none, fun _ => none⟩ :=
    .nil ⟨fun _ => rfl, fun _ => rfl⟩
  obtain ⟨_, h⟩ := run_start (i := false) h rfl rfl
  obtain ⟨_, h⟩ := run_step h (.lock rfl)
  obtain ⟨_, h⟩ := run_step h (.choose false)
  obtain ⟨_, h⟩ := run_start (i := true) h rfl rfl
  obtain ⟨_, h⟩ := run_step h (.choose false)
  obtain ⟨_, h⟩ := run_step h (.choose false)
  obtain ⟨_, h⟩ := run_step h (.lock rfl)
  exact ⟨_, _, h, ⟨_, rfl⟩, rfl, rfl⟩

theorem locks_waiting : ∃ ls s, (system twoCalls).Run ls s ∧ s.Waits false .plans ∧
    s.holder .plans = some true ∧ ¬ s.Deadlocked := by
  obtain ⟨ls, s, h, hwaits, -, hplans⟩ := exists_run_waits
  obtain ⟨-, -, hdeadlocked, -⟩ := locks_of_run h
  exact ⟨ls, s, h, hwaits, hplans, hdeadlocked⟩

end NexusOps.Sftp.PlanLocks
