import NexusOps.Sftp.Streaming
import NexusOps.Sftp.TransferParts

/-!
# Saves of the editor

A save replaces a file by what was edited, and must not replace what someone else has written in
the meantime. The file is compared with what was opened three times, once before a staging file is
written and twice after that; only then the staging file is renamed to it.

What a save has done is seen from its trace (`Proc.Trace`): the sections it has run so far, between
which the server, the other tasks and a cancellation may have done anything.

* `EditorSave.runEditorSave_committed`: whatever happens, a save has not asked for the rename,
  and has not succeeded; or it has asked for it once, after all of its steps, in their order; and it
  succeeds if and only if the rename does.
-/

namespace NexusOps.Sftp

open Concurrency Protocol Proc Fallible Async SftpClient

namespace TransferManager

/-! ## Steps of a save -/

/-- The steps of a save before the rename. -/
inductive SaveStep
  /-- The file at the destination is at the revision that was approved. -/
  | revision
  /-- Its contents have the digest they had when it was opened. -/
  | contents
  /-- The staging file has been created, and all bytes have been written to it. -/
  | staged
  /-- It has the owner and the permissions of the file. -/
  | preserved
  /-- The job can no longer be cancelled. -/
  | finalizing
  deriving DecidableEq, Repr

/-- All of them, in their order. -/
def saveSteps : List SaveStep :=
  [.revision, .contents, .staged, .preserved, .revision, .contents, .revision, .contents,
    .finalizing]

/-- What is to be saved. -/
structure EditorSave where
  id : TransferJobId
  client : SftpClient
  bytes : List UInt8
  expected : EditorRevision
  originalDigest : Digest
  destination : String
  staging : String

/-- The sections that a task has run. -/
abbrev Sections := List (TransferManager × TransferManager)

namespace EditorSave

variable [Platform] (save : EditorSave)

/-- The sections are those of a call that makes the step, and succeeds. -/
def Makes (ts : Sections) : SaveStep → Prop
  | .revision =>
    Returns (editorRevision (.job save.id) save.destination).run ts (.ok save.expected)
  | .contents => ∃ contents,
    Returns (readEditorBytes (.job save.id) save.client save.destination).run ts
      (.ok contents) ∧ Platform.sha256 contents = save.originalDigest
  | .staged =>
    Returns (uploadStaged (.job save.id) save.client (.memory save.bytes) save.staging
      (markOwned save.id) (fun s => s.cancelled save.id) (progress save.id)).run ts
      (.ok (.ok save.bytes.length)) ∧
    ∃ ts₁ ts₂ reply handle, ts = ts₁ ++ ts₂ ∧
      Returns (request (.job save.id) (.openExclusive save.staging 0o100600)).run ts₁ (.ok reply) ∧
      reply.intoHandle = .ok handle
  | .preserved =>
    Returns (preserveEditorMetadata (.job save.id) save.staging save.expected).run ts
      (.ok ())
  | .finalizing => Returns (enterFinalizing save.id).run ts (.ok ())

/-- The steps have been made, in their order, and there may be other sections between them. -/
inductive Made : List SaveStep → Sections → Prop
  | nil : Made [] []
  | between {steps : List SaveStep} {ts : Sections} (h : Made steps ts) (ts' : Sections) :
      Made steps (ts ++ ts')
  | step {steps : List SaveStep} {ts ts' : Sections} {step : SaveStep} (h : Made steps ts)
      (hstep : save.Makes ts' step) : Made (steps ++ [step]) (ts ++ ts')

/-- The sections do not note a commit. -/
def Quiet (ts : Sections) : Prop :=
  ∀ x ∈ ts, ∃ es, x.2.log = x.1.log ++ es ∧ ∀ id kind, .commit id kind ∉ es

/-- The rename has been asked for, once and after all steps; and if the save has ended, it has
    succeeded if and only if the rename has. -/
def Committed (ts : Sections) (q : Proc TransferManager (Except (Exit AppError) Unit)) : Prop :=
  stagingPath save.id save.destination ".edit.part" = .ok save.staging ∧
  ∃ ts₁ s ts₂, ts = ts₁ ++ (s, { s with log := s.log ++ [.commit save.id .replace] }) :: ts₂ ∧
    Quiet ts₁ ∧ Quiet ts₂ ∧ save.Made saveSteps ts₁ ∧
    ∀ r, q = .ret r → ∃ ts₃ ts₄ r', ts₂ = ts₃ ++ ts₄ ∧
      Returns (commitReplace (.job save.id) save.client save.staging
        save.destination).run ts₃ r' ∧ (r = .ok () ↔ r' = .ok ())

/-- What is known of a save at any time. -/
def Follows (ts : Sections) (q : Proc TransferManager (Except (Exit AppError) Unit)) : Prop :=
  Quiet ts ∧ (∀ r, q = .ret r → r ≠ .ok ()) ∨ save.Committed ts q

/-! ## Quiet parts -/

section

variable {save} {α β : Type} {pre ts ts' : Sections} {id : TransferJobId}
  {q q' : Proc TransferManager (Except (Exit AppError) Unit)}

/-- The protocol of tasks that note no commit, while the state may change in any way. -/
def quiet : Protocol (⟨fun _ => False, fun _ _ => False, fun _ _ => True⟩ :
    System TransferTask TransferManager) where
  inv _ := True
  guarantee _ s s' := ∃ es, s'.log = s.log ++ es ∧ ∀ id kind, .commit id kind ∉ es
  idle _ _ := True

omit [Platform] in
/-- A section that logs certain events. -/
theorem obeys_logging {f : TransferManager → TransferManager} {i : TransferTask}
    (es : TransferManager → List TransferEvent) (h : ∀ s, (f s).log = s.log ++ es s)
    (hes : ∀ s id kind, .commit id kind ∉ es s) : quiet.Obeys i (.modify f) :=
  obeys_modify fun s _ => ⟨trivial, es s, h s, hes s⟩

omit [Platform] in
theorem routine_quiet : Routine quiet id where
  refl s := ⟨[], by simp, by simp⟩
  note e _ := obeys_logging (fun _ => [.sftp e]) (fun _ => rfl) (by simp)
  setGuard _ := obeys_logging (fun _ => []) (by simp) (by simp)
  progress _ := obeys_logging (fun _ => []) (by simp) (by simp)
  markUnconfirmed := obeys_logging (fun _ => [.unconfirmed (.job id)]) (fun _ => rfl) (by simp)
  transferring := obeys_logging (fun s => s.finishedEvents (.job id) id .transferring)
    (fun _ => rfl) (by simp [finishedEvents, terminal])
  enterFinalizing := by
    refine obeys_act fun s r s' _ hf => ⟨trivial, ?_⟩
    split at hf
    · obtain ⟨⟩ := hf
      exact ⟨[.finalizing id], rfl, by simp⟩
    · obtain ⟨⟩ := hf
      exact ⟨[], by simp, by simp⟩
  dropGuard := by
    refine Obeys.bind (obeys_act fun s b s' _ hf => ⟨trivial, [], ?_, by simp⟩) fun guard => ?_
    · obtain ⟨⟩ := hf
      simp
    · split
      · refine Obeys.bind (obeys_logging (fun _ => []) (by simp) (by simp)) fun _ => ?_
        exact obeys_logging (fun _ => []) (by simp) (by simp)
      · exact obeys_pure

omit [Platform] in
theorem quiet_append (h : Quiet ts) (h' : Quiet ts') : Quiet (ts ++ ts') :=
  fun x hx => (List.mem_append.1 hx).elim (h x) (h' x)

omit [Platform] in
theorem quiet_of_trace {p p' : Proc TransferManager α} (h : Trace p ts p')
    (hp : quiet.Obeys (.job id) p) : Quiet ts :=
  h.obeys (fun _ => trivial) (fun _ _ => trivial) hp

/-! ## How a save goes on -/

variable (save) in
/-- Whatever the task has done, after the sections `pre`, it follows the steps of the save. -/
def Saves (pre : Sections) (x : Transfer Unit) : Prop :=
  ∀ ts q, Trace x.run ts q → save.Follows (pre ++ ts) q

/-- A part that follows, without a commit, and with the same result. -/
theorem Follows.extend (h : save.Follows ts q) (hts' : Quiet ts')
    (hq : ∀ r, q' = .ret r → q = .ret r) : save.Follows (ts ++ ts') q' := by
  rcases h with ⟨hts, hr⟩ | ⟨hpath, ts₁, s, ts₂, rfl, h₁, h₂, hmade, hr⟩
  · exact .inl ⟨quiet_append hts hts', fun r hq' => hr r (hq r hq')⟩
  · refine .inr ⟨hpath, ts₁, s, ts₂ ++ ts', by simp, h₁, quiet_append h₂ hts', hmade,
      fun r hq' => ?_⟩
    obtain ⟨ts₃, ts₄, r', rfl, hcommit, hiff⟩ := hr r (hq r hq')
    exact ⟨ts₃, ts₄ ++ ts', r', by simp, hcommit, hiff⟩

/-- A quiet part, which may fail, and what follows it. -/
theorem saves_bind {x : Transfer α} {k : α → Transfer Unit} (hpre : Quiet pre)
    (hx : quiet.Obeys (.job id) x.run)
    (hk : ∀ a ts, Returns x.run ts (.ok a) → Quiet ts → save.Saves (pre ++ ts) (k a)) :
    save.Saves pre (x >>= k) := by
  intro ts q h
  have hfailed : ∀ {ts e}, Quiet ts → save.Follows (pre ++ ts) (.ret (.error e)) := by
    intro ts e hts
    refine .inl ⟨quiet_append hpre hts, fun r hr => ?_⟩
    obtain rfl := Proc.ret.inj hr
    exact nofun
  rcases trace_bind.1 h with ⟨p', hp', rfl⟩ | ⟨r, ts₁, ts₂, rfl, h₁, h₂⟩
  · have hts := quiet_of_trace hp' hx
    cases p' with
    | ret r =>
      -- the part has returned, and nothing was done after it
      cases r with
      | ok a =>
        have hfollows := hk a ts hp' hts [] _ .nil
        rwa [List.append_nil] at hfollows
      | error e => exact hfailed hts
    | atomic f k' => exact .inl ⟨quiet_append hpre hts, fun _ hr => nomatch hr⟩
    | await k' => exact .inl ⟨quiet_append hpre hts, fun _ hr => nomatch hr⟩
  · have hts := quiet_of_trace h₁ hx
    cases r with
    | ok a =>
      rw [← List.append_assoc]
      exact hk a ts₁ h₁ hts ts₂ q h₂
    | error e =>
      obtain ⟨rfl, rfl⟩ := trace_ret.1 h₂
      rw [List.append_nil]
      exact hfailed hts

/-- What is released in any case does not matter. -/
theorem saves_always {x : Transfer Unit} {release : Proc TransferManager Unit}
    (hx : save.Saves pre x) (hrelease : quiet.Obeys (.job id) release) :
    save.Saves pre (.always x release) := by
  intro ts q h
  rcases trace_bind.1 h with ⟨p', hp', rfl⟩ | ⟨r, ts₁, ts₂, rfl, h₁, h₂⟩
  · have hfollows : save.Follows (pre ++ ts ++ [])
        (p' >>= fun r => release >>= fun _ => pure r) := by
      refine (hx ts p' hp').extend (fun x hx => absurd hx List.not_mem_nil) fun r hr => ?_
      cases p' with
      | ret r' =>
        cases release with
        | ret _ => exact hr
        | atomic f k => nomatch hr
        | await k => nomatch hr
      | atomic f k => nomatch hr
      | await k => nomatch hr
    rwa [List.append_nil] at hfollows
  · have hts : Quiet ts₂ := quiet_of_trace h₂ (hrelease.bind fun _ => obeys_pure)
    rw [← List.append_assoc]
    refine (hx ts₁ _ h₁).extend hts ?_
    rintro r' rfl
    obtain ⟨_, ts₃, ts₄, -, -, h₄⟩ := returns_bind.1 h₂
    obtain ⟨-, rfl⟩ := returns_pure.1 h₄
    rfl

end

/-! ## What successful parts have done -/

section

variable {save} {α : Type} {pre ts : Sections} {id : TransferJobId}

omit [Platform] in
theorem not_returns_cleanupAndFail {e : AppError} {a : α} :
    ¬ Returns (cleanupAndFail id e : Transfer α).run ts (.ok a) := by
  intro h
  obtain ⟨_, ts₁, ts₂, -, -, h₂⟩ := returns_andThen_ok.1 h
  nomatch (returns_throw.1 h₂).2

omit [Platform] in
theorem of_returns_orCleanup {r : Except AppError α} {a : α}
    (h : Returns (orCleanup id r).run ts (.ok a)) : ts = [] ∧ r = .ok a := by
  cases r with
  | ok a' =>
    obtain ⟨rfl, ha⟩ := returns_pure'.1 h
    exact ⟨rfl, congrArg Except.ok (Except.ok.inj ha).symm⟩
  | error e => exact absurd h not_returns_cleanupAndFail

omit [Platform] in
theorem of_returns_ensureOrCleanup {p : Prop} [Decidable p] {e : AppError}
    (h : Returns (ensureOrCleanup id p e).run ts (.ok ())) : ts = [] ∧ p := by
  rw [ensureOrCleanup] at h
  split_ifs at h with hp
  · exact ⟨(returns_pure'.1 h).1, hp⟩
  · exact absurd h not_returns_cleanupAndFail

/-- The file is compared with what was opened: its revision, and then its contents. -/
theorem of_returns_checkEditorFile {changed contentsChanged : String}
    (h : Returns (checkEditorFile save.id save.client save.destination save.expected
      save.originalDigest changed contentsChanged).run ts (.ok ())) :
    ∃ ts₁ ts₂, ts = ts₁ ++ ts₂ ∧ save.Makes ts₁ SaveStep.revision ∧ save.Makes ts₂ SaveStep.contents := by
  obtain ⟨current, ts₁, ts₂, rfl, h₁, h₂⟩ := returns_andThen_ok.1 h
  cases current with
  | error e =>
    obtain ⟨_, ts₃, ts₄, -, h₃, -⟩ := returns_andThen_ok.1 h₂
    exact absurd h₃ not_returns_cleanupAndFail
  | ok revision =>
    obtain ⟨_, ts₃, ts₄, rfl, h₃, h₄⟩ := returns_andThen_ok.1 h₂
    obtain ⟨rfl, rfl⟩ := of_returns_ensureOrCleanup h₃
    obtain ⟨r, ts₅, ts₆, rfl, h₅, h₆⟩ := returns_andThen_ok.1 h₄
    obtain ⟨bytes, ts₇, ts₈, rfl, h₇, h₈⟩ := returns_andThen_ok.1 h₆
    obtain ⟨rfl, rfl⟩ := of_returns_orCleanup h₇
    obtain ⟨rfl, hdigest⟩ := of_returns_ensureOrCleanup h₈
    refine ⟨ts₁, ts₅, by simp, returns_attempt_ok.1 h₁, bytes, returns_attempt_ok.1 h₅, hdigest⟩

omit [Platform] in
/-- A staging file is written only after the server has confirmed that it created it. -/
theorem of_returns_uploadStaged {client : SftpClient} {reader : Reader}
    {staging : String} {markOwned : Proc TransferManager Unit} {cancelled : TransferManager → Bool}
    {progress : Nat → Proc TransferManager Unit} {i : TransferTask} {n : Nat}
    (h : Returns (uploadStaged i client reader staging markOwned cancelled progress).run
      ts (.ok (.ok n))) :
    ∃ ts₁ ts₂ reply handle, ts = ts₁ ++ ts₂ ∧
      Returns (request i (.openExclusive staging 0o100600)).run ts₁ (.ok reply) ∧
      reply.intoHandle = .ok handle := by
  rw [uploadStaged] at h
  split at h
  · cases Except.ok.inj (returns_pure'.1 h).2
  · obtain ⟨reply, ts₁, ts₂, rfl, h₁, h₂⟩ := returns_andThen_ok.1 h
    split at h₂
    · cases Except.ok.inj (returns_pure'.1 h₂).2
    · cases Except.ok.inj (returns_pure'.1 h₂).2
    · next handle hhandle => exact ⟨ts₁, ts₂, reply, handle, rfl, h₁, hhandle⟩

omit [Platform] in
theorem of_returns_uploadStaging {client : SftpClient} {reader : Reader}
    {staging cancelled : String} {n : Nat}
    (h : Returns (uploadStaging id client reader staging cancelled).run ts (.ok n)) :
    ∃ ts₁ ts₂, ts = ts₁ ++ ts₂ ∧ Returns (uploadStaged (.job id) client reader staging
      (markOwned id) (fun s => s.cancelled id) (progress id)).run ts₂ (.ok (.ok n)) := by
  obtain ⟨_, ts₁, ts₂, rfl, -, h₂⟩ := returns_andThen_ok.1 h
  obtain ⟨result, ts₃, ts₄, rfl, h₃, h₄⟩ := returns_andThen_ok.1 h₂
  split at h₄
  · obtain ⟨rfl, hn⟩ := returns_pure'.1 h₄
    obtain ⟨⟩ := hn
    exact ⟨ts₁, ts₃, by simp, h₃⟩
  · nomatch (returns_throw.1 h₄).2
  · nomatch (returns_throw.1 h₄).2
  · obtain ⟨_, ts₅, ts₆, -, -, h₆⟩ := returns_andThen_ok.1 h₄
    obtain ⟨_, ts₇, ts₈, -, -, h₈⟩ := returns_andThen_ok.1 h₆
    split_ifs at h₈
    · nomatch (returns_throw.1 h₈).2
    · nomatch (returns_throw.1 h₈).2

/-! ## The save -/

omit [Platform] in
theorem not_returns_settleCommit {e : AppError} {unknown : String} :
    ¬ Returns (settleCommit id (.error e) unknown).run ts (.ok ()) := by
  intro h
  obtain ⟨result, ts₁, ts₂, -, -, h₂⟩ := returns_andThen_ok.1 h
  cases result with
  | ok _ => nomatch (returns_throw.1 h₂).2
  | error e' =>
    dsimp only at h₂
    split_ifs at h₂
    · nomatch (returns_throw.1 h₂).2
    · nomatch (returns_throw.1 h₂).2

omit [Platform] in
/-- After the rename, the save succeeds if and only if it has. -/
theorem of_returns_commit {unknown : String} {commit : Transfer Unit}
    {r : Except (Exit AppError) Unit}
    (h : Returns (do settleCommit id (← Async.attempt commit) unknown : Transfer Unit).run ts r) :
    ∃ ts₁ ts₂ r', ts = ts₁ ++ ts₂ ∧ Returns commit.run ts₁ r' ∧ (r = .ok () ↔ r' = .ok ()) := by
  rcases returns_andThen.1 h with ⟨e, rfl, h₁⟩ | ⟨result, ts₁, ts₂, rfl, h₁, h₂⟩
  · obtain ⟨r', hr', heq⟩ := returns_attempt.1 h₁
    refine ⟨ts, [], r', by simp, hr', nofun, ?_⟩
    rintro rfl
    nomatch heq
  · obtain ⟨r', hr', heq⟩ := returns_attempt.1 h₁
    refine ⟨ts₁, ts₂, r', rfl, hr', ?_⟩
    rcases r' with (e | _) | _
    · obtain ⟨⟩ := heq
      refine ⟨?_, nofun⟩
      rintro rfl
      exact absurd h₂ not_returns_settleCommit
    · nomatch heq
    · obtain ⟨⟩ := heq
      obtain ⟨_, rfl, -⟩ := returns_lift.1 h₂
      exact ⟨fun _ => rfl, fun _ => rfl⟩

/-- The rename, and what is done after it. The save succeeds if and only if the rename does. -/
theorem saves_commit (hpath : stagingPath save.id save.destination ".edit.part" = .ok save.staging)
    (hpre : Quiet pre) (hmade : save.Made saveSteps pre) {unknown : String} :
    save.Saves pre (do
      .lift (noteCommit save.id .replace)
      let result ← Async.attempt (commitReplace (.job save.id) save.client save.staging
        save.destination)
      settleCommit save.id result unknown) := by
  intro ts q h
  have hrest : quiet.Obeys (.job save.id) (do
      let result ← Async.attempt (commitReplace (.job save.id) save.client save.staging
        save.destination)
      settleCommit save.id result unknown : Transfer Unit).run :=
    Obeys.andThen routine_quiet.commitReplace.attempt fun _ => routine_quiet.settleCommit
  rcases trace_atomic.1 h with ⟨rfl, rfl⟩ | ⟨s, _, s', ts, hf, rfl, hts⟩
  · exact .inl ⟨quiet_append hpre fun x hx => absurd hx List.not_mem_nil,
      fun _ hr => nomatch hr⟩
  · obtain ⟨⟩ := hf
    refine .inr ⟨hpath, pre, s, ts, rfl, hpre, quiet_of_trace hts hrest, hmade, ?_⟩
    rintro r rfl
    exact of_returns_commit hts

theorem saves_ensure {p : Prop} [Decidable p] {e : AppError} {k : Unit → Transfer Unit}
    (hpre : Quiet pre) (hk : p → save.Saves pre (k ())) :
    save.Saves pre (Async.ensure p e >>= k) := by
  refine saves_bind hpre (obeys_ensure (i := TransferTask.job save.id)) fun _ ts hts _ => ?_
  obtain ⟨rfl, hp⟩ := returns_ensure_ok.1 hts
  rw [List.append_nil]
  exact hk hp

theorem saves_ofExcept {r : Except AppError α} {k : α → Transfer Unit} (hpre : Quiet pre)
    (hk : ∀ a, r = .ok a → save.Saves pre (k a)) : save.Saves pre (Async.ofExcept r >>= k) := by
  refine saves_bind hpre (obeys_ofExcept (i := TransferTask.job save.id)) fun a ts hts _ => ?_
  obtain ⟨rfl, hr⟩ := returns_ofExcept_ok.1 hts
  rw [List.append_nil]
  exact hk a hr

/-- A step whose failure is followed by a cleanup. -/
theorem saves_attempt {x : Transfer α} {k : α → Transfer Unit} (hpre : Quiet pre)
    (hx : quiet.Obeys (.job id) x.run)
    (hk : ∀ a ts, Returns x.run ts (.ok a) → Quiet ts → save.Saves (pre ++ ts) (k a)) :
    save.Saves pre (do
      let r ← Async.attempt x
      let a ← orCleanup id r
      k a) := by
  refine saves_bind hpre hx.attempt fun r ts hr hquiet => ?_
  refine saves_bind (quiet_append hpre hquiet) routine_quiet.orCleanup fun a ts' ha _ => ?_
  obtain ⟨rfl, rfl⟩ := of_returns_orCleanup ha
  rw [List.append_nil]
  exact hk a ts (returns_attempt_ok.1 hr) hquiet

/-- The file is compared with what was opened. -/
theorem saves_check {steps : List SaveStep} {changed contentsChanged : String}
    {k : Unit → Transfer Unit} (hpre : Quiet pre) (hmade : save.Made steps pre)
    (hk : ∀ ts, Quiet ts → save.Made (steps ++ [SaveStep.revision] ++ [SaveStep.contents]) (pre ++ ts) →
      save.Saves (pre ++ ts) (k ())) :
    save.Saves pre (checkEditorFile save.id save.client save.destination save.expected
      save.originalDigest changed contentsChanged >>= k) := by
  refine saves_bind hpre routine_quiet.checkEditorFile fun _ ts hts hquiet => hk ts hquiet ?_
  obtain ⟨ts₁, ts₂, rfl, hrevision, hcontents⟩ := of_returns_checkEditorFile hts
  rw [← List.append_assoc]
  exact (hmade.step hrevision).step hcontents

/-- The steps before it. -/
theorem saves_saveVia (hpath : stagingPath save.id save.destination ".edit.part" = .ok save.staging)
    (hpre : Quiet pre) (hmade : save.Made [.revision, .contents] pre) :
    save.Saves pre (saveVia save.id save.client save.bytes save.expected save.originalDigest
      save.destination save.staging) := by
  refine saves_bind hpre routine_quiet.uploadStaging fun streamed ts hts hquiet => ?_
  obtain ⟨ts₁, ts₂, rfl, hstaged⟩ := of_returns_uploadStaging hts
  have hpre := quiet_append hpre hquiet
  refine saves_bind hpre routine_quiet.ensureOrCleanup fun _ ts hts _ => ?_
  obtain ⟨rfl, rfl⟩ := of_returns_ensureOrCleanup hts
  have hmade : save.Made [SaveStep.revision, SaveStep.contents, .staged] (pre ++ (ts₁ ++ ts₂)) := by
    rw [← List.append_assoc]
    exact (hmade.between ts₁).step ⟨hstaged, of_returns_uploadStaged hstaged⟩
  rw [List.append_nil]
  refine saves_attempt hpre routine_quiet.preserveEditorMetadata fun _ ts hpreserved hquiet => ?_
  have hpre := quiet_append hpre hquiet
  have hpreserved : save.Makes ts .preserved := hpreserved
  have hmade := hmade.step hpreserved
  refine saves_check hpre hmade fun ts hquiet hmade => ?_
  have hpre := quiet_append hpre hquiet
  refine saves_check hpre hmade fun ts hquiet hmade => ?_
  have hpre := quiet_append hpre hquiet
  refine saves_attempt hpre routine_quiet.enterFinalizing fun _ ts hfinalizing hquiet => ?_
  have hfinalizing : save.Makes ts .finalizing := hfinalizing
  exact saves_commit hpath (quiet_append hpre hquiet) (hmade.step hfinalizing)

/-- A save, from its beginning. -/
theorem saves_runEditorSave (hstaging : ∀ path,
      stagingPath save.id save.destination ".edit.part" = .ok path → path = save.staging) :
    save.Saves [] (runEditorSave save.id save.client save.bytes save.expected save.originalDigest
      save.destination) := by
  have hnil : Quiet [] := fun x hx => absurd hx List.not_mem_nil
  refine saves_bind hnil routine_quiet.editorRevision fun revision ts₁ h₁ hquiet₁ => ?_
  refine saves_ensure hquiet₁ fun hrevision => ?_
  subst hrevision
  refine saves_bind hquiet₁ routine_quiet.readEditorBytes fun contents ts₂ h₂ hquiet₂ => ?_
  have hquiet := quiet_append hquiet₁ hquiet₂
  refine saves_ensure hquiet fun hdigest => saves_ofExcept hquiet fun path hpath => ?_
  have hcontents : save.Makes ts₂ .contents := ⟨contents, h₂, hdigest⟩
  have hmade : save.Made [SaveStep.revision, SaveStep.contents] (ts₁ ++ ts₂) :=
    (Made.step .nil (show save.Makes ts₁ .revision from h₁)).step hcontents
  refine saves_bind hquiet (obeys_lift (routine_quiet.setGuard _)) fun _ ts _ hquiet' => ?_
  have heq := hstaging path hpath
  subst heq
  exact saves_always (saves_saveVia hpath (quiet_append hquiet hquiet') (hmade.between ts))
    routine_quiet.dropGuard

end

end EditorSave

/-! ## A save that succeeds -/

section

variable {i : TransferTask}

/-- Any packet may be the reply. -/
theorem can_request (r : SftpRequest) (p : Packet) :
    Can (request i r : Transfer Reply) (.packet p) := by
  obtain ⟨ts, hts, -⟩ := succeeds_answer (i := i) r p
  exact ⟨ts, hts⟩

/-- A file with one byte. -/
def savedAttrs : FileAttributes := ⟨some 1, some 0, some 0, some 0o100644, some 1, .file⟩

def savedRevision : EditorRevision := ⟨⟨.file, some 1, some 1⟩, 0o100644, 0, 0⟩

def savingClient : SftpClient :=
  ⟨⟨⟨1⟩, ⟨1⟩, ⟨1⟩⟩, [("posix-rename@openssh.com", "1")], 32768, 32768⟩

/-- The path of the staging file of the job `1`. -/
def savedStaging : String := "/.nexusops-00000000000000000000000000000001.edit.part"

theorem saving_ready : validateRemotePath "/a" = .ok () ∧
    stagingPath ⟨1⟩ "/a" ".edit.part" = .ok savedStaging ∧
    validateRemotePath savedStaging = .ok () ∧
    savingClient.supports "posix-rename@openssh.com" "1" = true := by
  decide +kernel

theorem can_lstat {path : String} : Can (lstat i path : Transfer _) savedAttrs :=
  (can_request (.lstat path) (.attrs savedAttrs)).bind (can_ofExcept rfl)

theorem can_editorRevision : Can (editorRevision i "/a" : Transfer _) savedRevision :=
  (can_ofExcept saving_ready.1).bind (can_lstat.bind (can_ofExcept rfl))

theorem can_fstat : Can (fstat i "h" : Transfer _) savedAttrs :=
  (can_request (.fstat "h") (.attrs savedAttrs)).bind (can_ofExcept rfl)

theorem can_closeHandle : Can (closeHandle i "h" : Transfer _) () :=
  (can_request (.close "h") (.status .ok)).bind (can_ofExcept rfl)

/-- The byte is read, and then the end of the file. -/
theorem can_readEditorFile :
    Can (readEditorFile i savingClient savedRevision "h" : Transfer _) [97] := by
  refine can_fstat.bind ((can_ensure (by decide)).bind (Can.bind (a := [97]) ?_ ?_))
  · refine (can_ask 2).bind (Can.bind (a := Sum.inl [97]) ?_
      (Can.bind (a := Sum.inr [97]) ?_ can_pure))
    · exact (can_request _ (.data [97])).bind ((can_ensure (by decide)).bind can_pure)
    · exact (can_request _ (.status .eof)).bind can_pure
  · exact (can_ensure (by decide)).bind (can_fstat.bind ((can_ensure (by decide)).bind can_pure))

theorem can_readEditorBytes :
    Can (readEditorBytes i savingClient "/a" : Transfer _) [97] := by
  refine (can_ofExcept saving_ready.1).bind (can_editorRevision.bind ?_)
  refine (can_ensure (by decide)).bind (Can.bind (a := "h") ?_ ?_)
  · exact (can_request (.openRead "/a") (.handle "h")).bind (can_ofExcept rfl)
  · refine can_readEditorFile.attempt.bind (can_closeHandle.attempt.bind ?_)
    exact (can_ofExcept rfl).bind ((can_ofExcept rfl).bind can_pure)

/-- The byte is written, and then there are no more. -/
theorem can_uploadFile {id : TransferJobId} : Can (uploadFile i savingClient
    (.memory [98]) (fun s => s.cancelled id) (progress id) "h" : Transfer _) 1 := by
  have hrunning : Can (.act fun s : TransferManager =>
      if s.cancelled id then some (.error (.error transferCancelled), s)
      else some (.ok (), s)) () :=
    can_act (s := .new) rfl
  refine Can.bind (a := 1) ((can_ask 2).bind (Can.bind (a := Sum.inl 1) ?_
    (Can.bind (a := Sum.inr 1) ?_ can_pure))) can_pure
  · refine hrunning.bind (can_pure.bind ((can_request _ (.status .ok)).bind ?_))
    refine (can_ofExcept rfl).bind ((can_ofExcept (a := 1) rfl).bind ?_)
    exact (can_modify new).bind can_pure
  · exact hrunning.bind (can_pure.bind can_pure)

theorem stagingPath_saved : stagingPath ⟨1⟩ "/a" ".edit.part" = .ok savedStaging :=
  saving_ready.2.1

theorem can_uploadStaging : Can (uploadStaging ⟨1⟩ savingClient (.memory [98]) savedStaging
    "Editor save was cancelled before finalization.") 1 := by
  refine (can_modify new).bind (Can.bind (a := .ok 1) ?_ can_pure)
  unfold uploadStaged
  rw [saving_ready.2.2.1]
  refine (can_request _ (.handle "h")).bind ((can_modify new).bind ?_)
  exact can_uploadFile.attempt.bind (can_closeHandle.attempt.bind can_pure)

theorem can_preserveEditorMetadata :
    Can (preserveEditorMetadata i savedStaging savedRevision : Transfer _) () := by
  refine (can_ofExcept saving_ready.2.2.1).bind (can_lstat.bind ?_)
  refine (can_ensure (by decide)).bind ?_
  dsimp only
  rw [if_neg (by decide)]
  refine (can_request _ (.status .ok)).bind ?_
  exact (can_ofExcept rfl).bind (can_lstat.bind (can_ensure (by decide)))

/-- A job that is not cancelled. -/
def savingJob : JobRecord := ⟨⟨⟨1⟩, ⟨1⟩, ⟨1⟩, ⟨1⟩, .transferring, 0, none, false⟩, none, false⟩

theorem can_enterFinalizing : Can (enterFinalizing ⟨1⟩) () := by
  let s : TransferManager :=
    { new with state := { ManagerState.default with jobs := Table.empty.insert ⟨1⟩ savingJob } }
  exact can_act (s := s) rfl

theorem can_commitReplace :
    Can (commitReplace i savingClient savedStaging "/a" : Transfer _) () := by
  refine (can_ensure saving_ready.2.2.2).bind ?_
  refine (can_ofExcept rfl).bind ((can_ofExcept rfl).bind ?_)
  exact (can_request _ (.status .ok)).bind can_pure

theorem can_settleCommit {unknown : String} : Can (settleCommit ⟨1⟩ (.ok ()) unknown) () :=
  can_modify new

/-- All files have the same digest. -/
@[reducible] def savingPlatform : Platform := ⟨fun _ => Vector.replicate 32 0, id⟩

attribute [local instance] savingPlatform

theorem can_checkEditorFile {changed contentsChanged : String} :
    Can (checkEditorFile ⟨1⟩ savingClient "/a" savedRevision (Vector.replicate 32 0) changed
      contentsChanged) () := by
  refine can_editorRevision.attempt.bind (Can.bind (a := ()) can_pure ?_)
  exact can_readEditorBytes.attempt.bind ((Can.bind (a := [97]) can_pure) can_pure)

theorem can_saveVia : Can (saveVia ⟨1⟩ savingClient [98] savedRevision (Vector.replicate 32 0) "/a"
    savedStaging) () := by
  refine can_uploadStaging.bind (Can.bind (a := ()) can_pure ?_)
  refine can_preserveEditorMetadata.attempt.bind (Can.bind (a := ()) can_pure ?_)
  refine can_checkEditorFile.bind (can_checkEditorFile.bind ?_)
  refine can_enterFinalizing.attempt.bind (Can.bind (a := ()) can_pure ?_)
  exact (can_modify new).bind ((can_commitReplace (i := .job ⟨1⟩)).attempt.bind can_settleCommit)

end

end TransferManager

end NexusOps.Sftp
