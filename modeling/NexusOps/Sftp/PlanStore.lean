import NexusOps.Sftp.Plans

/-!
# The store of file plans

The plans that have been made and the files that are open in the editor (`FilePlanStore`). A
file is saved once: it is *ready* until a save is planned, which reserves it (*planning*) while
the server is asked whether the file is still the one that was opened, and then waits to be
approved (*pending*). To consume the plan of a save consumes the document with it.

There are two locks. That of the documents is always taken first, so a section on the plans
only need not respect it; what is done under both of them at once is one section. What is done
under the lock of the documents before and after a section on the plans are sections of their
own: the lock is held by a task in between (`documentsLock`). The clock is read once in each.

No panic occurs under a lock, so none is ever poisoned.
-/

namespace NexusOps.Sftp

open Concurrency Function

def PLAN_LIFETIME : Duration := .fromSecs (5 * 60)

def PLAN_CAP : Nat := 100

def DOCUMENT_LIFETIME : Duration := .fromSecs (60 * 60)

/-- Whose a document or a plan is: a host, a connection to it and an SFTP session. -/
abbrev FileOwner := HostId × HostSessionId × SftpSessionId

/-- The owner of what is made in a session. -/
def SftpClient.owner (client : SftpClient) : FileOwner :=
  (client.info.hostId, client.info.hostSessionId, client.info.id)

/-! ## State -/

/-- What a document is used for. -/
inductive EditorDocumentUse
  | ready
  | planning (reservation : FilePlanId)
  | pending (plan : FilePlanId)
  deriving DecidableEq, Repr

/-- A file that is open in the editor. -/
structure EditorDocumentAuthority where
  owner : FileOwner
  path : String
  revision : EditorRevision
  contentDigest : Digest
  newline : TextNewline
  bom : Bool
  expires : Instant
  useState : EditorDocumentUse
  deriving DecidableEq, Repr

/-- A plan, until it is consumed. -/
structure StoredPlan where
  plan : Option InternalPlan
  expires : Instant
  editorDocument : Option EditorDocumentId
  deriving DecidableEq, Repr

/-- The owner of a plan. -/
def InternalPlan.owner (plan : InternalPlan) : FileOwner :=
  (plan.view.hostId, plan.view.hostSessionId, plan.view.sftpSessionId)

/-- The tasks: calls of the store, and what has been scheduled for the expiry of a plan or of a
    document. -/
inductive FileTask
  | call (t : TaskId)
  | planExpiry (id : FilePlanId)
  | documentExpiry (id : EditorDocumentId)
  deriving DecidableEq, Repr

/-- The task that holds the lock of the documents, and the document it has found to be reserved
    for it. -/
structure Holder where
  task : FileTask
  saving : Option EditorDocumentId
  deriving DecidableEq, Repr

/-- What is logged. -/
inductive FileEvent
  /-- `register_editor_document` has retired other documents. -/
  | retired (t : TaskId) (ids : Finset EditorDocumentId)
  /-- `register_editor_document` has stored a document. -/
  | registered (t : TaskId) (id : EditorDocumentId) (document : EditorDocumentAuthority)
  /-- `register_editor_document` has returned an error. -/
  | refused (t : TaskId) (e : AppError)
  /-- `plan_editor_save` has reserved the document for a plan. -/
  | reserved (t : TaskId) (plan : FilePlanId) (document : EditorDocumentId) (text : String)
  /-- `plan_editor_save` has stored the plan, and returns it. -/
  | planned (t : TaskId) (plan : FilePlanId) (document : EditorDocumentId)
  /-- `plan_editor_save` has returned, or was dropped. -/
  | finished (t : TaskId)
  /-- `consume` returns this plan of the owner, which was made for the document. -/
  | consumed (t : TaskId) (owner : FileOwner) (plan : FilePlanId)
      (document : Option EditorDocumentId) (payload : PlanPayload)
  /-- `revoke_session` has removed all plans and documents of the connection. -/
  | revoked (t : TaskId) (host : HostId) (session : HostSessionId)
  deriving DecidableEq

/-- The store. -/
structure FilePlanStore where
  plans : Table FilePlanId StoredPlan
  documents : Table EditorDocumentId EditorDocumentAuthority
  documentsLock : Option Holder
  /-- When the expiry of a plan is scheduled, and its document. -/
  planExpiries : FilePlanId → Option (Instant × Option EditorDocumentId)
  /-- When the expiry of a document is scheduled. -/
  documentExpiries : EditorDocumentId → Option Instant
  clock : Instant
  /-- The calls that have drawn the ids of plans. -/
  planIds : FilePlanId → Option TaskId
  /-- The ids of documents that have been used. -/
  documentIds : Finset EditorDocumentId
  log : List FileEvent

/-- A call of the store. -/
abbrev PlanCall := Async FilePlanStore AppError

namespace FilePlanStore

/-- The store as it is created. -/
def new (clock : Instant) : FilePlanStore :=
  ⟨.empty, .empty, none, fun _ => none, fun _ => none, clock, fun _ => none, ∅, []⟩

/-- Logs an event. -/
def record (s : FilePlanStore) (event : FileEvent) : FilePlanStore :=
  { s with log := s.log ++ [event] }

/-- Logs an event. -/
def note (event : FileEvent) : Proc FilePlanStore Unit := .modify (·.record event)

/-- The document is no longer reserved for `expected`, if it was. -/
def releaseEditorReservation (now : Instant)
    (documents : Table EditorDocumentId EditorDocumentAuthority) (id : EditorDocumentId)
    (expected : EditorDocumentUse) : Bool × Table EditorDocumentId EditorDocumentAuthority :=
  match documents.get id with
  | none => (false, documents)
  | some document =>
    if document.useState ≠ expected then (false, documents)
    else if document.expires ≤ now then (false, documents.remove id)
    else (true, documents.insert id { document with useState := .ready })

/-- The document of a plan is no longer reserved for it. -/
def releasePlan (now : Instant) (documents : Table EditorDocumentId EditorDocumentAuthority)
    (plan : FilePlanId) (document : Option EditorDocumentId) :
    Bool × Table EditorDocumentId EditorDocumentAuthority :=
  match document with
  | none => (true, documents)
  | some id => releaseEditorReservation now documents id (.pending plan)

/-! ## Sections -/

variable {β : Type}

/-- A section under the lock of the documents. -/
def documentsSection
    (f : FilePlanStore → Option (Except AppError β × FilePlanStore)) : PlanCall β :=
  .act fun s =>
    if s.documentsLock = none then (f s).map fun (r, s) => (r.mapError .error, s) else none

/-- A section under the lock of the plans. -/
def plansSection (f : FilePlanStore → Except AppError β × FilePlanStore) : PlanCall β :=
  .act fun s => some ((f s).1.mapError .error, (f s).2)

/-- Removes a document. The lock is kept if its plan has to be removed as well. -/
def retireDocument (i : FileTask) (id : EditorDocumentId) (document : EditorDocumentAuthority)
    (s : FilePlanStore) : Option FilePlanId × FilePlanStore :=
  match document.useState with
  | .pending plan =>
    (some plan, { s with documents := s.documents.remove id, documentsLock := some ⟨i, none⟩ })
  | _ => (none, { s with documents := s.documents.remove id })

/-- Removes the plan of a document that has been removed. -/
def removePlanOf (id : EditorDocumentId) : Option FilePlanId → PlanCall Unit
  | none => return ()
  | some plan => plansSection fun s =>
    let plans := if (s.plans.get plan).any (fun stored => stored.editorDocument = some id)
      then s.plans.remove plan else s.plans
    (.ok (), { s with plans := plans, documentsLock := none })

/-! ## Editor documents -/

variable (t : TaskId)

/-- The documents that are retired by one of this owner and path. -/
def retiredBy (owner : FileOwner) (path : String) (s : FilePlanStore) : Finset EditorDocumentId :=
  s.documents.keysWhere fun _ value =>
    value.expires ≤ s.clock || (value.owner == owner && value.path == path)

/-- Retires documents, and keeps the lock. -/
def retireDocuments (owner : FileOwner) (path : String) : PlanCall (Finset EditorDocumentId) :=
  documentsSection fun s =>
    let retired := s.retiredBy owner path
    some (.ok retired, { s with
      documents := s.documents.retain fun id _ => id ∉ retired
      documentsLock := some ⟨.call t, none⟩
      log := if retired = ∅ then s.log else s.log ++ [.retired t retired] })

/-- Removes the plans of documents that have been retired. -/
def removePlansOf (retired : Finset EditorDocumentId) : PlanCall Unit :=
  if retired = ∅ then return ()
  else plansSection fun s => (.ok (), { s with
    plans := s.plans.retain fun _ stored => !stored.editorDocument.any (· ∈ retired) })

/-- Stores a document under an id that has not been used before, if there is room for it, and
    releases the lock. Its expiry is that of the document that is stored. -/
def insertDocument (id : EditorDocumentId) (document : Instant → EditorDocumentAuthority) :
    PlanCall EditorDocumentId :=
  .act fun s =>
    let document := document (s.clock + DOCUMENT_LIFETIME)
    if PLAN_CAP ≤ s.documents.keys.card then
      some (.error (.error (policy "Too many editor documents are open.")),
        { s with documentsLock := none })
    else if id ∈ s.documentIds then none
    else some (.ok id, { s with
      documents := s.documents.insert id document
      documentIds := insert id s.documentIds
      documentExpiries := update s.documentExpiries id (some document.expires)
      documentsLock := none
      log := s.log ++ [.registered t id document] })

/-- Stores a file that has been opened. -/
def registerEditorDocument [Platform] (client : SftpClient) (path : String)
    (revision : EditorRevision) (originalBytes : List UInt8) (newline : TextNewline) (bom : Bool) :
    PlanCall EditorDocumentId := do
  .ofExcept (validateRemotePath path)
  let retired ← retireDocuments t client.owner path
  removePlansOf retired
  let id ← .ask EditorDocumentId
  insertDocument t id fun expires =>
    ⟨client.owner, path, revision, Platform.sha256 originalBytes, newline, bom, expires, .ready⟩

/-- Retires a document. -/
def discardEditorDocument (id : EditorDocumentId) (owner : FileOwner) : PlanCall Unit := do
  let pending ← documentsSection fun s => some <| match s.documents.get id with
    | none => (.ok none, s)
    | some document =>
      if document.owner ≠ owner then
        (.error (policy "The editor document belongs to another SFTP session."), s)
      else
        let (pending, s) := retireDocument (.call t) id document s
        (.ok pending, s)
  removePlanOf id pending

/-! ## Plans -/

/-- What is stored of a plan. -/
structure PlanInsert where
  id : FilePlanId
  client : SftpClient
  kind : FileOperationKind
  risk : OperationRisk
  conflictPolicy : Option ConflictPolicy
  payload : PlanPayload
  editorDocument : Option EditorDocumentId

/-- What is shown of the plan. -/
def PlanInsert.view (request : PlanInsert) : FileOperationPlan :=
  ⟨request.id, request.client.info.hostId, request.client.info.hostSessionId,
    request.client.info.id, request.kind, request.risk, request.conflictPolicy⟩

/-- The plans that wait to be approved. -/
def awaitingApproval (s : FilePlanStore) : Table FilePlanId StoredPlan :=
  s.plans.retain fun _ value => s.clock < value.expires && value.plan.isSome

/-- Stores a plan, if there is room for it. -/
def insertWithId (request : PlanInsert) : PlanCall FileOperationPlan := do
  let now ← .read fun s => s.clock
  let expires := now + PLAN_LIFETIME
  plansSection fun s =>
    let plans := s.awaitingApproval
    if PLAN_CAP ≤ plans.keys.card then
      (.error (policy "Too many file-operation plans are awaiting approval."),
        { s with plans := plans })
    else
      (.ok request.view, { s with
        plans := plans.insert request.id
          ⟨some ⟨request.view, request.payload⟩, expires, request.editorDocument⟩
        planExpiries := update s.planExpiries request.id
          (some (expires, request.editorDocument)) })

/-- An id that has not been used before. -/
def freshPlanId : PlanCall FilePlanId := do
  let id ← .ask FilePlanId
  .act fun s => if s.planIds id = none then
      some (.ok id, { s with planIds := update s.planIds id (some t) })
    else none

/-- Stores a plan that is not for a document. -/
def insertPlan (client : SftpClient) (kind : FileOperationKind) (risk : OperationRisk)
    (conflictPolicy : Option ConflictPolicy) (payload : PlanPayload) :
    PlanCall FileOperationPlan := do
  let id ← freshPlanId t
  insertWithId ⟨id, client, kind, risk, conflictPolicy, payload, none⟩

/-- No file has been selected. -/
def nothingSelected : AppError := policy "Select at least one regular file."

/-- Plans an upload of local files, given with their names. -/
def planUpload (client : SftpClient) (sources : List (LocalItem × String))
    (remoteDirectory : String) (policy : ConflictPolicy) : PlanCall FileOperationPlan := do
  .ofExcept (validateRemotePath remoteDirectory)
  .ensure (sources ≠ []) nothingSelected
  let planned ← planUploads client remoteDirectory policy sources
  insertPlan t client .upload .moderate (some policy) (.upload client policy planned)

/-- Plans a download of remote files. -/
def planDownload (client : SftpClient) (remotePaths : List String)
    (localDirectory : LocalDirectory) (policy : ConflictPolicy) : PlanCall FileOperationPlan := do
  .ensure (remotePaths ≠ []) nothingSelected
  let planned ← planDownloads localDirectory policy remotePaths
  insertPlan t client .download .moderate (some policy) (.download client policy planned)

/-- The kind of a change, if its paths are accepted, and how risky it is. -/
def mutationKind : MutationSpec → Except AppError (FileOperationKind × OperationRisk)
  | .createDirectory path => do
    validateRemotePath path
    return (.createDirectory, .low)
  | .rename source destination _ => do
    validateRemotePath source
    validateRemotePath destination
    return (.rename, .moderate)
  | .delete path _ _ => do
    validateRemotePath path
    return (.delete, .destructive)

/-- Plans a change of the remote file system. -/
def planMutation (client : SftpClient) (spec : MutationSpec) : PlanCall FileOperationPlan := do
  let (kind, risk) ← .ofExcept (mutationKind spec)
  insertPlan t client kind risk none (.mutation client spec)

/-! ## Saving a document -/

/-- Reserves a document for a plan. -/
def reserve (client : SftpClient) (id : EditorDocumentId) (text : String)
    (reservation : FilePlanId) : PlanCall EditorDocumentAuthority :=
  documentsSection fun s => match s.documents.get id with
    | none => some (.error (policy "The editor document is stale; reload it."), s)
    | some existing =>
      if existing.expires ≤ s.clock ∨ existing.owner ≠ client.owner then
        some (.error (policy "The editor document belongs to an old or expired session."), s)
      else if existing.useState ≠ .ready then
        some (.error
          (policy "A save is already being prepared or reviewed for this document."), s)
      else if s.planIds reservation = none then
        let reserved := { existing with useState := .planning reservation }
        some (.ok reserved, { s with
          documents := s.documents.insert id reserved
          planIds := update s.planIds reservation (some t)
          log := s.log ++ [.reserved t reservation id text] })
      else none

/-- Releases the reservation of a plan that has not been made (`EditorPlanningGuard`). -/
def dropPlanningGuard (id : EditorDocumentId) (reservation : FilePlanId) :
    Proc FilePlanStore Unit :=
  .act fun s => if s.documentsLock = none then
      some ((), { s with
        documents := (releaseEditorReservation s.clock s.documents id (.planning reservation)).2 })
    else none

/-- The file is still the one that was opened: its contents as they would be saved. -/
def prepareSave [Platform] (client : SftpClient) (document : EditorDocumentAuthority)
    (text : String) : PlanCall (List UInt8) := do
  .ensure (supports client "posix-rename@openssh.com" "1" = true)
    (.new .sftpUnavailable "Safe editor replacement requires posix-rename@openssh.com v1.")
  let bytes ← .ofExcept (encodeText text document.newline document.bom)
  let revision ← answer EditorRevision
  .ensure (revision = document.revision)
    (.new .conflict "The remote file changed since it was opened.")
  let currentBytes ← answer (List UInt8)
  .ensure (Platform.sha256 currentBytes = document.contentDigest)
    (.new .conflict "The remote file contents changed since it was opened.")
  return bytes

/-- The document is still reserved for the plan. The lock is kept. -/
def verifyReservation (client : SftpClient) (id : EditorDocumentId) (reservation : FilePlanId) :
    PlanCall Unit :=
  documentsSection fun s => some <| match s.documents.get id with
    | none => (.error (policy "The editor document was retired during planning."), s)
    | some current =>
      if current.expires ≤ s.clock ∨ current.useState ≠ .planning reservation ∨
          current.owner ≠ client.owner then
        (.error (policy "The editor document was retired or expired during planning."), s)
      else (.ok (), { s with documentsLock := some ⟨.call t, some id⟩ })

/-- Releases the lock of the documents. -/
def unlockDocuments : Proc FilePlanStore Unit := .modify fun s => { s with documentsLock := none }

/-- The document waits for its plan to be approved. Releases the lock. -/
def markPending (id : EditorDocumentId) (reservation : FilePlanId) : PlanCall Unit :=
  .act fun s => (s.documents.get id).map fun document => (.ok (), { s with
    documents := s.documents.insert id { document with useState := .pending reservation }
    documentsLock := none
    log := s.log ++ [.planned t reservation id] })

/-- Plans to save a document with this text. -/
def planEditorSave [Platform] (client : SftpClient) (id : EditorDocumentId) (text : String) :
    PlanCall FileOperationPlan := do
  let reservation ← .ask FilePlanId
  let document ← reserve t client id text reservation
  let save : PlanCall FileOperationPlan := do
    let bytes ← prepareSave client document text
    verifyReservation t client id reservation
    let view ← .onError
      (insertWithId ⟨reservation, client, .editText, .high, none,
        .editorSave client document.path document.revision document.contentDigest bytes, some id⟩)
      unlockDocuments
    markPending t id reservation
    return view
  .onError save (dropPlanningGuard id reservation)

/-! ## Approval -/

/-- The plan is of another session. -/
def notOwned : AppError :=
  policy "The file-operation plan does not belong to this host session."

/-- Removes a plan, and releases its document. -/
def removePlan (id : FilePlanId) (document : Option EditorDocumentId) (s : FilePlanStore) :
    Bool × FilePlanStore :=
  let (released, documents) := releasePlan s.clock s.documents id document
  (released, { s with plans := s.plans.remove id, documents := documents })

/-- Discards a plan. -/
def discard (id : FilePlanId) (owner : FileOwner) : PlanCall Bool :=
  documentsSection fun s => some <| match s.plans.get id with
    | none => (.ok false, s)
    | some stored =>
      if stored.expires ≤ s.clock then (.ok false, (removePlan id stored.editorDocument s).2)
      else match stored.plan with
        | none => (.ok false, { s with plans := s.plans.remove id })
        | some plan =>
          if plan.owner ≠ owner then (.error notOwned, s)
          else
            let (released, s) := removePlan id stored.editorDocument s
            (.ok released, s)

/-- The document of a plan can be replaced by what has been approved. -/
def Authorized (s : FilePlanStore) (plan : FilePlanId) (owner : FileOwner)
    (document : EditorDocumentId) : Prop :=
  ∃ authority, s.documents.get document = some authority ∧ s.clock < authority.expires ∧
    authority.useState = .pending plan ∧ authority.owner = owner

instance (s : FilePlanStore) (plan : FilePlanId) (owner : FileOwner)
    (document : EditorDocumentId) : Decidable (s.Authorized plan owner document) :=
  decidable_of_iff ((s.documents.get document).any fun authority =>
      s.clock < authority.expires && authority.useState == .pending plan &&
        authority.owner == owner) (by
    simp only [Option.any_eq_true, Bool.and_eq_true, beq_iff_eq, decide_eq_true_eq, and_assoc]
    rfl)

/-- Takes a plan, which is returned, and its document. -/
def takePlan (id : FilePlanId) (stored : StoredPlan) (plan : InternalPlan) (s : FilePlanStore) :
    FilePlanStore :=
  { s with
    plans := s.plans.insert id { stored with plan := none }
    documents := match stored.editorDocument with
      | none => s.documents
      | some document => s.documents.remove document
    log := s.log ++ [.consumed t plan.owner id stored.editorDocument plan.payload] }

/-- Consumes a plan. -/
def consume (id : FilePlanId) (owner : FileOwner) : PlanCall InternalPlan :=
  documentsSection fun s => some <| match s.plans.get id with
    | none => (.error (policy "The file-operation plan is missing or was already used."), s)
    | some stored =>
      if stored.expires < s.clock then
        (.error (policy "The file-operation plan expired."),
          (removePlan id stored.editorDocument s).2)
      else match stored.plan with
        | none => (.error notOwned, s)
        | some plan =>
          if plan.owner ≠ owner then (.error notOwned, s)
          else if ∀ document, stored.editorDocument = some document →
              s.Authorized id owner document then
            (.ok plan, takePlan t id stored plan s)
          else
            (.error (policy "The editor document was retired or expired."),
              { s with plans := s.plans.remove id })

/-! ## Revocation -/

/-- Removes all plans and documents of a connection. -/
def revokeSession (host : HostId) (session : HostSessionId) : PlanCall Unit := do
  documentsSection fun s => some (.ok (), { s with
    documents := s.documents.retain fun _ value => value.owner.1 != host ||
      value.owner.2.1 != session
    documentsLock := some ⟨.call t, none⟩ })
  plansSection fun s => (.ok (), { s with
    plans := s.plans.retain fun _ stored => stored.plan.any fun plan =>
      plan.view.hostId != host || plan.view.hostSessionId != session
    documentsLock := none
    log := s.log ++ [.revoked t host session] })

/-- Removes all plans and documents. -/
def revokeAll : PlanCall Unit := do
  documentsSection fun s => some (.ok (), { s with documents := .empty })
  plansSection fun s => (.ok (), { s with plans := .empty })

/-! ## Expiry -/

/-- What is done when a plan expires (`schedule_plan_expiry`). -/
def planExpiry (id : FilePlanId) : PlanCall Unit := do
  let (expires, document) ← documentsSection fun s => (s.planExpiries id).bind fun timer =>
    if timer.1 ≤ s.clock then
      some (.ok timer, { s with documentsLock := some ⟨.planExpiry id, none⟩ })
    else none
  plansSection fun s =>
    let plans := if (s.plans.get id).any (fun stored => stored.expires = expires)
      then s.plans.remove id else s.plans
    (.ok (), { s with plans := plans })
  .act fun s => some (.ok (), { s with
    documents := (releasePlan s.clock s.documents id document).2
    documentsLock := none })

/-- What is done when a document expires (`schedule_document_expiry`). -/
def documentExpiry (id : EditorDocumentId) : PlanCall Unit := do
  let pending ← documentsSection fun s => (s.documentExpiries id).bind fun expires =>
    if expires ≤ s.clock then some <| match s.documents.get id with
      | none => (.ok none, s)
      | some document =>
        if document.expires = expires then
          let (pending, s) := retireDocument (.documentExpiry id) id document s
          (.ok pending, s)
        else (.ok none, s)
    else none
  removePlanOf id pending

/-! ## The system -/

/-- The calls. -/
inductive Request
  | registerEditorDocument (client : SftpClient) (path : String) (revision : EditorRevision)
      (originalBytes : List UInt8) (newline : TextNewline) (bom : Bool)
  | planEditorSave (client : SftpClient) (document : EditorDocumentId) (text : String)
  | discardEditorDocument (document : EditorDocumentId) (owner : FileOwner)
  | planUpload (client : SftpClient) (sources : List (LocalItem × String))
      (remoteDirectory : String) (policy : ConflictPolicy)
  | planDownload (client : SftpClient) (remotePaths : List String)
      (localDirectory : LocalDirectory) (policy : ConflictPolicy)
  | planMutation (client : SftpClient) (spec : MutationSpec)
  | discard (plan : FilePlanId) (owner : FileOwner)
  | consume (plan : FilePlanId) (owner : FileOwner)
  | revokeSession (host : HostId) (session : HostSessionId)
  | revokeAll

/-- What a call does, and logs of its end. -/
def callProgram [Platform] : Request → Proc FilePlanStore Unit
  | .registerEditorDocument client path revision originalBytes newline bom => do
    match ← (registerEditorDocument t client path revision originalBytes newline bom).run with
    | .error (.error e) => note (.refused t e)
    | _ => return ()
  | .planEditorSave client document text => do
    let _ ← (planEditorSave t client document text).run
    note (.finished t)
  | .discardEditorDocument document owner => do
    let _ ← (discardEditorDocument t document owner).run
  | .planUpload client sources remoteDirectory policy => do
    let _ ← (planUpload t client sources remoteDirectory policy).run
  | .planDownload client remotePaths localDirectory policy => do
    let _ ← (planDownload t client remotePaths localDirectory policy).run
  | .planMutation client spec => do let _ ← (planMutation t client spec).run
  | .discard plan owner => do let _ ← (discard plan owner).run
  | .consume plan owner => do let _ ← (consume t plan owner).run
  | .revokeSession host session => do let _ ← (revokeSession t host session).run
  | .revokeAll => do let _ ← revokeAll.run

/-- What a task does. -/
def program [Platform] (calls : TaskId → Request) : FileTask → Proc FilePlanStore Unit
  | .call t => callProgram t (calls t)
  | .planExpiry id => do let _ ← (planExpiry id).run
  | .documentExpiry id => do let _ ← (documentExpiry id).run

/-- The interleavings of calls and of what they have scheduled. Time passes. -/
def system [Platform] (calls : TaskId → Request) : System FileTask FilePlanStore where
  init s := ∃ clock, s = .new clock
  entry i p := p = program calls i
  env s s' := ∃ clock, s.clock ≤ clock ∧ s' = { s with clock := clock }

end FilePlanStore

end NexusOps.Sftp
