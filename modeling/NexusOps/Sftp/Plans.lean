import NexusOps.Sftp.Manager

/-!
# Plans of file operations

What a plan of a file operation holds, and how it is made (`policy.rs`): how the text of the
editor is turned into the contents of a file and back (`editor.rs`), and what is to be done at the
destinations of a transfer. What the server and the local file system answer is awaited.
-/

namespace NexusOps.Sftp

/-! ## Payloads -/

/-- A planned upload of a local file. -/
structure PlannedUpload where
  source : LocalItem
  destination : String
  action : DestinationAction EntryIdentity
  deriving DecidableEq, Repr

/-- A planned download of a remote file. -/
structure PlannedDownload where
  source : RemoteSource
  destination : LocalDirectory
  fileName : String
  action : DestinationAction LocalIdentity
  deriving DecidableEq, Repr

/-- A change of the remote file system. -/
inductive MutationSpec
  | createDirectory (path : String)
  | rename (source destination : String) (expectedSource : EntryIdentity)
  | delete (path : String) (kind : RemoteEntryKind) (expected : EntryIdentity)
  deriving DecidableEq, Repr

/-- What is done when a plan is executed. -/
inductive PlanPayload
  | editorSave (client : SftpClient) (path : String) (expected : EditorRevision)
      (originalDigest : Digest) (bytes : List UInt8)
  | upload (client : SftpClient) (policy : ConflictPolicy) (items : List PlannedUpload)
  | download (client : SftpClient) (policy : ConflictPolicy) (items : List PlannedDownload)
  | mutation (client : SftpClient) (spec : MutationSpec)
  deriving DecidableEq, Repr

/-- The payload replaces a file by a text of the editor. -/
def PlanPayload.IsEditorSave : PlanPayload → Prop
  | editorSave .. => True
  | _ => False

/-- A plan. -/
structure InternalPlan where
  view : FileOperationPlan
  payload : PlanPayload
  deriving DecidableEq, Repr

/-- The session that the payload is executed in. -/
def PlanPayload.client : PlanPayload → SftpClient
  | editorSave client _ _ _ _ => client
  | upload client _ _ => client
  | download client _ _ => client
  | mutation client _ => client

/-- The server offers a version of an extension. -/
def supports (client : SftpClient) (name version : String) : Bool :=
  client.extensionMap.any fun extension => extension.1 == name && extension.2 == version

/-! ## The text of the editor -/

/-- The text is too large. -/
def textLimit : AppError := policy "The edited text exceeds the 1 MiB editor limit."

/-- The mark of a text in UTF-8. -/
def byteOrderMark (bom : Bool) : List UInt8 := if bom then [0xef, 0xbb, 0xbf] else []

/-- The text with its lines ended as in the file. -/
def encodeNewlines : TextNewline → List Char → List Char
  | .lf, chars => chars
  | .crLf, chars => chars.flatMap fun c => if c = '\n' then ['\r', '\n'] else [c]

/-- The contents of a file with this text. -/
def encodeText (text : String) (newline : TextNewline) (bom : Bool) :
    Except AppError (List UInt8) :=
  let mark := byteOrderMark bom
  if MAX_REMOTE_EDITOR_BYTES < text.utf8ByteSize + mark.length then .error textLimit
  else if '\x00' ∈ text.toList ∨ '\r' ∈ text.toList then
    .error (policy "The editor accepts LF-normalized UTF-8 text without NUL bytes.")
  else
    let body := (encodeNewlines newline text.toList).flatMap String.utf8EncodeChar
    if MAX_REMOTE_EDITOR_BYTES < body.length + mark.length then .error textLimit
    else .ok (mark ++ body)

/-- The text with each `"\r\n"` replaced, from the left. -/
def replaceCrLf (replacement : List Char) : List Char → List Char
  | '\r' :: '\n' :: chars => replacement ++ replaceCrLf replacement chars
  | c :: chars => c :: replaceCrLf replacement chars
  | [] => []

/-- The text of a file with these contents, how its lines end, and whether it has a mark. -/
def decodeText (bytes : List UInt8) : Except AppError (String × TextNewline × Bool) :=
  if MAX_REMOTE_EDITOR_BYTES < bytes.length then
    .error (policy "The remote text file exceeds the 1 MiB editor limit.")
  else
    let bom := (byteOrderMark true).isPrefixOf bytes
    let body := if bom then bytes.drop 3 else bytes
    match String.fromUTF8? ⟨body.toArray⟩ with
    | none => .error (policy "The remote file is not valid UTF-8 text.")
    | some original =>
      let chars := original.toList
      if '\x00' ∈ chars then
        .error (policy "NUL bytes are not supported by the text editor.")
      else
        let hasCrLf := ['\r', '\n'] <:+: chars
        let withoutCrLf := replaceCrLf [] chars
        if '\r' ∈ withoutCrLf ∨ hasCrLf ∧ '\n' ∈ withoutCrLf then
          .error (policy "Mixed or unsupported newline conventions cannot be edited safely.")
        else if hasCrLf then .ok (String.ofList (replaceCrLf ['\n'] chars), .crLf, bom)
        else .ok (original, .lf, bom)

example : decodeText [0xef, 0xbb, 0xbf, 0x61, 0x0d, 0x0a] = .ok ("a\n", .crLf, true) := by
  decide +kernel

/-! ## The destinations of transfers -/

open Concurrency

section

variable {σ : Type}

/-- What the server or the local file system answers. -/
def answer (β : Type) : Async σ AppError β := do
  let result ← .await (pure ()) (Except AppError β)
  .ofExcept result

/-- A name and its extension. -/
def splitName (name : List Char) : List Char × List Char :=
  let extension := (name.reverse.takeWhile (· != '.')).reverse
  let stem := name.take (name.length - extension.length - 1)
  if stem.isEmpty then (name, []) else (stem, '.' :: extension)

/-- The name of a copy. -/
def keepBothName (name : String) (number : Nat) : String :=
  let (stem, extension) := splitName name.toList
  String.ofList (stem ++ " (".toList ++ (toString number).toList ++ ')' :: extension)

/-- No name is left for a copy. -/
def noKeepBothName : AppError := policy "No available Keep both name was found."

/-- The first of the names of copies that are not in use. -/
def keepBothRemote (directory name : String) : List Nat → Async σ AppError String
  | [] => .fail noKeepBothName
  | number :: numbers => do
    let candidate ← .ofExcept (joinRemote directory (keepBothName name number))
    let existing ← answer (Option EntryIdentity)
    if existing.isNone then return candidate else keepBothRemote directory name numbers

/-- The same, in a local directory. -/
def keepBothLocal (name : String) : List Nat → Async σ AppError String
  | [] => .fail noKeepBothName
  | number :: numbers => do
    let taken ← answer Bool
    if taken then keepBothLocal name numbers else return keepBothName name number

/-- The numbers of copies. -/
def keepBothNumbers : List Nat := (List.range 1000).map (· + 1)

/-- Where a file is uploaded to, and what is done there. -/
def planUploadDestination (client : SftpClient) (directory name : String) (policy : ConflictPolicy) :
    Async σ AppError (String × DestinationAction EntryIdentity) := do
  let base ← .ofExcept (joinRemote directory name)
  match ← answer (Option EntryIdentity), policy with
  | none, _ =>
    .ensure (supports client "hardlink@openssh.com" "1" = true)
      (Sftp.policy "Safe new-file finalization requires hardlink@openssh.com v1.")
    return (base, .createNew)
  | some _, .skip => return (base, .skip)
  | some identity, .replace =>
    .ensure (identity.kind = .file ∧ supports client "posix-rename@openssh.com" "1" = true)
      (Sftp.policy "Replace is limited to an existing regular file.")
    return (base, .replaceExisting identity)
  | some _, .keepBoth =>
    .ensure (supports client "hardlink@openssh.com" "1" = true)
      (Sftp.policy "Safe Keep both finalization requires hardlink@openssh.com v1.")
    let candidate ← keepBothRemote directory name keepBothNumbers
    return (candidate, .createNew)

/-- The uploads of local files, given with their names. -/
def planUploads (client : SftpClient) (directory : String) (policy : ConflictPolicy) :
    List (LocalItem × String) → Async σ AppError (List PlannedUpload)
  | [] => return []
  | (source, name) :: sources => do
    -- The file is still what was selected.
    answer Unit
    .ofExcept (validateChildName name)
    let (destination, action) ← planUploadDestination client directory name policy
    let planned ← planUploads client directory policy sources
    return ⟨source, destination, action⟩ :: planned

/-- What is done about a local file, and the name it gets. -/
def planDownloadDestination (name : String) (policy : ConflictPolicy) :
    Async σ AppError (String × DestinationAction LocalIdentity) := do
  match ← answer (Option LocalIdentity), policy with
  | none, _ => return (name, .createNew)
  | some _, .skip => return (name, .skip)
  | some identity, .replace => return (name, .replaceExisting identity)
  | some _, .keepBoth =>
    let candidate ← keepBothLocal name keepBothNumbers
    return (candidate, .createNew)

/-- The remote source of a transfer is gone. -/
def sourceMissing : AppError := .new .notFound "The remote source no longer exists."

/-- The downloads of remote files. -/
def planDownloads (directory : LocalDirectory) (policy : ConflictPolicy) :
    List String → Async σ AppError (List PlannedDownload)
  | [] => return []
  | path :: paths => do
    let entry ← answer RemoteEntry
    .ensure (entry.kind = .file) (Sftp.policy "Only regular files can be downloaded.")
    .ofExcept (validateWindowsFileName entry.name)
    -- The directory is still what was selected.
    answer Unit
    let (fileName, action) ← planDownloadDestination entry.name policy
    match ← answer (Option EntryIdentity) with
    | none => .fail sourceMissing
    | some identity =>
      let planned ← planDownloads directory policy paths
      return ⟨⟨path, identity.size, identity⟩, directory, fileName, action⟩ :: planned

end

end NexusOps.Sftp
