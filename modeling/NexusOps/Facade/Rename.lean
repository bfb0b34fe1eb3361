import NexusOps.Concurrency.Trace
import NexusOps.Facade.System

/-!
# Renames

A rename is planned for a new name in the directory of the source (`plan_rename`), and is executed
only within a directory (`rename_noclobber`). Whether a plan passes this check depends on how the
directory of the source is written: `planRename_inPlace_iff`.
-/

namespace NexusOps

open Concurrency Concurrency.Proc Concurrency.Fallible Concurrency.Async

/-! ## Errors of a task -/

namespace Sftp

variable {σ ι α β : Type} {p : AppError → Prop} {x : Async σ AppError α} {i : ι}

/-- The errors that the task may return. -/
def Errors (x : Async σ AppError α) (p : AppError → Prop) : Prop :=
  ∀ ts e, Returns x.run ts (.error (.error e)) → p e

theorem errors_pure {a : α} : Errors (pure a : Async σ AppError α) p :=
  fun _ _ h => nomatch (returns_pure'.1 h).2

variable {e : AppError}

theorem errors_fail (h : p e) : Errors (.fail e : Async σ AppError α) p := by
  intro ts e' he'
  obtain ⟨-, heq⟩ := returns_throw.1 he'
  obtain rfl := Exit.error.inj (Except.error.inj heq)
  exact h

theorem Errors.bind {k : α → Async σ AppError β} (hx : Errors x p) (hk : ∀ a, Errors (k a) p) :
    Errors (x >>= k) p := by
  intro ts e h
  rcases returns_andThen.1 h with ⟨e', he', h⟩ | ⟨a, ts₁, ts₂, -, -, h⟩
  · obtain ⟨⟩ := he'
    exact hx ts e h
  · exact hk a ts₂ e h

/-- What follows a computation is only reached with its result. -/
theorem errors_ofExcept {r : Except AppError α} {k : α → Async σ AppError β}
    (herror : ∀ e, r = .error e → p e) (hk : ∀ a, r = .ok a → Errors (k a) p) :
    Errors (.ofExcept r >>= k) p := by
  cases r with
  | ok a => exact hk a rfl
  | error e =>
    intro ts e' h
    rcases returns_andThen.1 h with ⟨_, he', h⟩ | ⟨a, ts₁, ts₂, -, h, -⟩
    · obtain ⟨⟩ := he'
      exact errors_fail (herror e rfl) ts e' h
    · nomatch (returns_throw.1 h).2

theorem errors_ensure {q : Prop} [Decidable q] (h : ¬ q → p e) :
    Errors (.ensure q e : Async σ AppError Unit) p := by
  rw [Async.ensure, Fallible.ensure]
  split_ifs with hq
  · exact errors_pure
  · exact errors_fail (h hq)

theorem errors_request [HasSftp σ ι] {r : SftpRequest} :
    Errors (request i r : Async σ AppError Reply) p := by
  have hlift : ∀ {q : Proc σ Unit}, Errors (.lift q : Async σ AppError Unit) p := by
    intro q ts e h
    obtain ⟨a, ha, -⟩ := returns_lift.1 h
    nomatch ha
  refine hlift.bind fun _ => Errors.bind (fun ts e h => ?_) fun _ => hlift.bind fun _ => errors_pure
  obtain ⟨answer, h⟩ := returns_ask_andThen.1 h
  cases answer with
  | some a => nomatch (returns_pure'.1 h).2
  | none =>
    obtain ⟨e', he', h⟩ | ⟨-, ts₁, ts₂, -, -, h⟩ := returns_andThen.1 h
    · obtain ⟨⟩ := he'
      exact hlift ts e h
    · nomatch (returns_throw.1 h).2

/-! ## Executing a rename -/

theorem mapStatus_ne (code : StatusCode) : mapStatus code ≠ SftpClient.leavesDirectory := by
  cases code <;> decide

theorem mapError_ne (e : SftpError) : mapError e ≠ SftpClient.leavesDirectory := by
  cases e with
  | status code => exact mapStatus_ne code
  | timeout => decide
  | limited => decide
  | unexpectedPacket => decide
  | io => decide

variable {path : String}

theorem validateRemotePath_ne
    (h : validateRemotePath path = .error e) : e ≠ SftpClient.leavesDirectory := by
  rw [validateRemotePath] at h
  split_ifs at h
  obtain ⟨⟩ := h
  decide

theorem parentRemote_ne (h : parentRemote path = .error e) : e ≠ SftpClient.leavesDirectory := by
  cases hvalid : validateRemotePath path with
  | error e' =>
    rw [parentRemote, hvalid] at h
    obtain ⟨⟩ := h
    exact validateRemotePath_ne hvalid
  | ok _ =>
    rw [parentRemote, hvalid] at h
    change (if _ then _ else _) = _ at h
    split_ifs at h
    · cases h
    · split at h <;> cases h

section

variable [HasSftp σ ι]

theorem errors_identity : Errors (SftpClient.identity i path : Async σ _ _)
    (· ≠ SftpClient.leavesDirectory) := by
  refine errors_ofExcept (fun _ => validateRemotePath_ne) fun _ _ => errors_request.bind fun r => ?_
  split
  · exact errors_pure
  · exact errors_pure
  · exact errors_fail (mapError_ne _)

theorem mutationStatus_ne {r : Except SftpError StatusCode} {unknown : String}
    (h : mutationStatus r unknown = .error e) : e ≠ SftpClient.leavesDirectory := by
  unfold mutationStatus at h
  split at h
  · nomatch h
  · exact Except.error.inj h ▸ mapStatus_ne _
  · exact Except.error.inj h ▸ mapStatus_ne _
  · exact Except.error.inj h ▸ fun heq => nomatch congrArg AppError.code heq

/-- A rename is rejected as leaving the directory just if the directories are not written the same
    way. -/
theorem renameNoclobber_rejects_iff {client : SftpClient} {source destination : String}
    {a b : String} (ha : parentRemote source = .ok a) (hb : parentRemote destination = .ok b) :
    (∃ ts, Returns (SftpClient.renameNoclobber i client source destination : Async σ _ _).run ts
      (.error (.error SftpClient.leavesDirectory))) ↔ a ≠ b := by
  constructor
  · rintro ⟨ts, h⟩ hab
    suffices herrors : Errors (SftpClient.renameNoclobber i client source destination :
        Async σ _ _) (· ≠ SftpClient.leavesDirectory) from herrors ts _ h rfl
    refine errors_ofExcept (fun _ => validateRemotePath_ne) fun _ _ => ?_
    refine errors_ofExcept (fun _ => validateRemotePath_ne) fun _ _ => ?_
    refine errors_ofExcept (fun _ => parentRemote_ne) fun a' ha' => ?_
    refine errors_ofExcept (fun _ => parentRemote_ne) fun b' hb' => ?_
    refine (errors_ensure fun hne => absurd ?_ hne).bind fun _ => ?_
    · exact (Except.ok.inj (ha'.symm.trans ha)).trans
        (hab.trans (Except.ok.inj (hb.symm.trans hb')))
    refine errors_identity.bind fun existing => errors_ofExcept (fun e he => ?_) fun _ _ => ?_
    · cases existing with
      | none => exact Except.error.inj he ▸ by decide
      | some _ => nomatch he
    refine (errors_ensure fun _ => by decide).bind fun _ => ?_
    refine errors_identity.bind fun _ => (errors_ensure fun _ => by decide).bind fun _ => ?_
    refine errors_request.bind fun _ => errors_ofExcept (fun _ => mutationStatus_ne) fun _ _ => ?_
    refine errors_request.bind fun _ => ?_
    split
    · exact errors_pure
    · exact errors_fail (by decide)
  · intro hab
    have hvalid : ∀ {path q}, parentRemote path = .ok q → validateRemotePath path = .ok () := by
      intro path q hq
      obtain ⟨⟨⟩, hvalid, -⟩ := of_bind_eq_ok hq
      exact hvalid
    refine ⟨[], ?_⟩
    rw [SftpClient.renameNoclobber, hvalid ha, hvalid hb, ha, hb]
    change Returns (Async.ensure (a = b) SftpClient.leavesDirectory >>= _).run [] _
    refine returns_andThen.2 (.inl ⟨_, rfl, returns_ensure.2 ⟨rfl, ?_⟩⟩)
    rw [if_neg hab]

end

end Sftp

/-! ## Planning a rename -/

namespace Facade

open Sftp Core

/-- The new path of an entry that is renamed. -/
def renameDestination (source newName : String) : Except AppError String := do
  validateChildName newName
  let parent ← parentRemote source
  joinRemote parent newName

variable {droppable : Bool} {t : TaskId} {owner : FileOwner} {source newName : String}
  {ts : List (Facade × Facade)} {plan : FileOperationPlan}

/-- A plan of a rename is the one that is stored for the source and its new path. -/
theorem of_returns_planRename
    (h : Returns (planFile droppable t owner (.rename source newName)).run ts (.ok plan)) :
    ∃ destination, renameDestination source newName = .ok destination ∧
      ∃ client identity ts', ts' <:+: ts ∧ Returns (onFiles droppable (FilePlanStore.planMutation t
        client (.rename source destination identity))).run ts' (.ok plan) := by
  obtain ⟨⟨⟩, ts₁, ts₂, rfl, hname, h⟩ := returns_andThen_ok.1 h
  obtain ⟨parent, ts₃, ts₄, rfl, hparent, h⟩ := returns_andThen_ok.1 h
  obtain ⟨destination, ts₅, ts₆, rfl, hdestination, h⟩ := returns_andThen_ok.1 h
  obtain ⟨⟨⟩, ts₇, ts₈, rfl, -, h⟩ := returns_andThen_ok.1 h
  obtain ⟨ts₉, ts₁₀, rfl, h, -⟩ := returns_always.1 h
  obtain ⟨client, ts₁₁, ts₁₂, rfl, -, h⟩ := returns_andThen_ok.1 h
  obtain ⟨identity, ts₁₃, ts₁₄, rfl, -, h⟩ := returns_andThen_ok.1 h
  obtain ⟨⟨⟩, ts₁₅, ts₁₆, rfl, -, h⟩ := returns_andThen_ok.1 h
  obtain ⟨existing, ts₁₇, ts₁₈, rfl, -, h⟩ := returns_andThen_ok.1 h
  obtain ⟨⟨⟩, ts₁₉, ts₂₀, rfl, -, h⟩ := returns_andThen_ok.1 h
  refine ⟨destination, ?_, client, identity, ts₂₀, ?_, h⟩
  · rw [renameDestination, (returns_ofExcept_ok.1 hname).2, (returns_ofExcept_ok.1 hparent).2]
    exact (returns_ofExcept_ok.1 hdestination).2
  · refine ⟨ts₁ ++ ts₃ ++ ts₅ ++ ts₇ ++ ts₁₁ ++ ts₁₃ ++ ts₁₅ ++ ts₁₇ ++ ts₁₉, ts₁₀, ?_⟩
    simp only [List.append_assoc]

/-- The directory of the source does not end with a slash, unless it is the root. -/
def Trimmed (directory : String) : Prop :=
  directory.toList = ['/'] ∨ directory.toList.getLast? ≠ some '/'

theorem trimmed_iff {directory : String} (hne : directory.toList ≠ []) : Trimmed directory ↔
    directory = if trimEndSlashes directory.toList = [] then "/"
      else String.ofList (trimEndSlashes directory.toList) := by
  have hlast : directory.toList.getLast? ≠ some '/' ↔
      trimEndSlashes directory.toList = directory.toList := by
    rw [trimEndSlashes, List.rdropWhile_eq_self_iff, List.getLast?_eq_some_getLast hne]
    simp [hne]
  rw [Trimmed, hlast]
  constructor
  · rintro (hroot | hself)
    · rw [hroot, if_pos (by decide)]
      exact String.toList_injective (hroot.trans (by decide))
    · rw [hself, if_neg hne, String.ofList_toList]
  · intro h
    split_ifs at h with hempty
    · exact .inl (h ▸ by decide)
    · refine .inr ?_
      conv_rhs => rw [h]
      rw [String.toList_ofList]

/-- A rename that has been planned is executed, unless the directory of its source is written with
    slashes at its end. -/
theorem planRename_inPlace_iff (σ : Type) {ι : Type} [HasSftp σ ι] (i : ι) (client : SftpClient)
    (h : Returns (planFile droppable t owner (.rename source newName)).run ts (.ok plan)) :
    ∃ destination,
      (∃ client identity ts', ts' <:+: ts ∧ Returns (onFiles droppable (FilePlanStore.planMutation
        t client (.rename source destination identity))).run ts' (.ok plan)) ∧
      ((parentRemote source = parentRemote destination ∧
          ¬ ∃ ts, Returns (SftpClient.renameNoclobber i client source destination :
            Async σ _ _).run ts (.error (.error SftpClient.leavesDirectory))) ↔
        ∃ directory, parentRemote source = .ok directory ∧ Trimmed directory) := by
  obtain ⟨destination, hdestination, hplanned⟩ := of_returns_planRename h
  refine ⟨destination, hplanned, ?_⟩
  obtain ⟨-, -, hdestination⟩ := of_bind_eq_ok hdestination
  obtain ⟨directory, hdirectory, hjoin⟩ := of_bind_eq_ok hdestination
  have hparent := parentRemote_of_joinRemote hjoin
  have hne := (validateRemotePath_eq_ok.1 (joinRemote_eq_ok.1 hjoin).1).1
  rw [renameNoclobber_rejects_iff hdirectory hparent, hdirectory, hparent, not_not,
    Except.ok.injEq, and_self, ← trimmed_iff hne]
  constructor
  · exact fun htrimmed => ⟨directory, rfl, htrimmed⟩
  · rintro ⟨directory', heq, htrimmed⟩
    exact Except.ok.inj heq ▸ htrimmed

/-- A client that supports renames. -/
def renamingClient : SftpClient := ⟨⟨⟨1⟩, ⟨1⟩, ⟨1⟩⟩, [("hardlink@openssh.com", "1")], 0, 0⟩

/-- A host is connected, and has an SFTP session. -/
def browsing : Facade :=
  let app := (opened (fun _ => none) fun _ => .unused).app
  let data : SessionData := { SessionData.new ⟨1⟩ ⟨1⟩ with
    view.state := .connected
    connectionId := some ⟨1⟩ }
  { opened (fun _ => none) fun _ => .unused with
    app := { app with sessions := fun _ => some ⟨1⟩, slots := fun _ => some data }
    sftpSessions := fun _ => some renamingClient }

/-- The answers that a rename needs. -/
theorem can_planRename {destination : String}
    (h : renameDestination source newName = .ok destination) :
    ∃ plan, Can (planFile false ⟨1⟩ renamingClient.owner (.rename source newName)) plan := by
  obtain ⟨⟨⟩, hname, h⟩ := of_bind_eq_ok h
  obtain ⟨directory, hdirectory, hjoin⟩ := of_bind_eq_ok h
  obtain ⟨⟨⟩, hsource, -⟩ := of_bind_eq_ok hdirectory
  have hgate : Can (locked false fun s : Facade => if s.sftpGates ⟨1⟩ = none then
      some (.ok (), { s with sftpGates := Function.update s.sftpGates ⟨1⟩ (some ⟨1⟩) })
      else none) () :=
    can_pure.bind (can_act (s := browsing) rfl)
  have howned : Can (ownedSftp false renamingClient.owner) renamingClient := by
    refine Can.bind (a := ⟨1⟩) ⟨[_], .answer ⟨1⟩ (.answer ⟨1⟩ (.act (s := browsing) rfl .nil))⟩ ?_
    refine (can_pure.bind (can_act (s := browsing) rfl)).bind ?_
    refine (can_pure.bind (can_act (s := browsing) rfl)).bind ?_
    exact (can_ensure (by decide)).bind can_pure
  have hreply : ∀ {β : Type} (b : β), Can (reply false β) b := fun b =>
    can_pure.bind ((can_ask (.ok b)).bind can_pure)
  let identity : EntryIdentity := ⟨.file, none, none⟩
  have hstored : ∃ plan, Can (onFiles false (FilePlanStore.planMutation ⟨1⟩ renamingClient
      (.rename source destination identity))) plan := by
    have hkind : FilePlanStore.mutationKind (.rename source destination identity) =
        .ok (.rename, .moderate) := by
      rw [FilePlanStore.mutationKind, hsource, (joinRemote_eq_ok.1 hjoin).2.2.1]
      rfl
    rw [FilePlanStore.planMutation, hkind]
    exact ⟨_, [_, _, _], .answer ⟨1⟩ (.act (s := browsing) rfl
      (.act (s := browsing) rfl (.act (s := browsing) rfl .nil)))⟩
  obtain ⟨plan, hplan⟩ := hstored
  refine ⟨plan, (can_ofExcept hname).bind ((can_ofExcept hdirectory).bind ?_)⟩
  refine (can_ofExcept hjoin).bind (hgate.bind (Can.always ?_ ?_))
  swap
  · exact ⟨_, returns_modify.2 ⟨browsing, rfl⟩⟩
  have hidentity : Can (identityOf false sourceMissing) identity :=
    (hreply (some identity)).bind can_pure
  refine howned.bind (hidentity.bind ?_)
  exact (can_ensure (by decide)).bind ((hreply none).bind ((can_ensure rfl).bind hplan))

/-- The directory of the source ends with a slash, that of its new path does not. -/
theorem planRename_leaves :
    (∃ plan, Can (planFile false ⟨1⟩ renamingClient.owner
      (.rename (String.ofList ['x', '/', '/', 'a']) (String.ofList ['b']))) plan) ∧
    renameDestination (String.ofList ['x', '/', '/', 'a']) (String.ofList ['b']) =
      .ok (String.ofList ['x', '/', 'b']) ∧
    ∃ ts, Returns (SftpClient.renameNoclobber () renamingClient
      (String.ofList ['x', '/', '/', 'a']) (String.ofList ['x', '/', 'b']) :
        Async (List (SftpEvent Unit)) _ _).run ts (.error (.error SftpClient.leavesDirectory)) := by
  have hdestination : renameDestination (String.ofList ['x', '/', '/', 'a'])
      (String.ofList ['b']) = .ok (String.ofList ['x', '/', 'b']) := by decide
  have hsource : parentRemote (String.ofList ['x', '/', '/', 'a']) =
      .ok (String.ofList ['x', '/']) := by decide
  have hparent : parentRemote (String.ofList ['x', '/', 'b']) = .ok (String.ofList ['x']) := by
    decide
  exact ⟨can_planRename hdestination, hdestination,
    (renameNoclobber_rejects_iff hsource hparent).2 (by decide)⟩

theorem planRename_inPlace : ∃ plan ts, Returns (planFile false ⟨1⟩ renamingClient.owner
      (.rename (String.ofList ['x', '/', 'a']) (String.ofList ['b']))).run ts (.ok plan) ∧
    ∃ destination, parentRemote (String.ofList ['x', '/', 'a']) = parentRemote destination := by
  have hdestination : renameDestination (String.ofList ['x', '/', 'a'])
      (String.ofList ['b']) = .ok (String.ofList ['x', '/', 'b']) := by decide
  obtain ⟨plan, ts, hplan⟩ := can_planRename hdestination
  obtain ⟨destination, -, hiff⟩ :=
    planRename_inPlace_iff (List (SftpEvent Unit)) () renamingClient hplan
  have hsource : parentRemote (String.ofList ['x', '/', 'a']) = .ok (String.ofList ['x']) := by
    decide
  exact ⟨plan, ts, hplan, destination, (hiff.2 ⟨_, hsource, .inr (by decide)⟩).1⟩

end Facade

end NexusOps
