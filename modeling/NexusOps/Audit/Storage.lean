import Mathlib.Data.List.Basic
import Mathlib.Data.Nat.Basic
import Mathlib.Tactic.SplitIfs
import NexusOps.Model.Basic

/-!
# The audit log

Events are appended to a file, one line each. As soon as the file would become too long, it takes
the place of the backup, and a new one is started. A call can fail at every file operation, and a
write that fails may have stored a part of the line. A file is modelled by what has been appended
to it (`Append`), from which its content is read off (`bytes`).

* Without failures the backup and the log hold the latest events, in order, and are not too long
  (`rotation_of_run`).
* After a write that has stored a part of a line, the next event is appended to this part
  (`intact_iff_of_run`).
* A log that has been renamed, but not created again, is not found by any later call
  (`record_iff_of_run`).
-/

namespace NexusOps.Audit

/-! ## Events -/

/-- An operation that is audited. -/
structure Operation where
  id : String
  kind : String
  risk : OperationRisk
  deriving DecidableEq, Repr

/-- Who has asked for an operation. -/
inductive AuditActor
  | user
  | ai
  | plugin
  | automation
  deriving DecidableEq, Repr

/-- How an operation has ended. -/
inductive AuditOutcome
  | success
  | failed
  | cancelled
  | outcomeUnknown
  deriving DecidableEq, Repr

/-- The metadata of an operation. -/
structure AuditEvent where
  host : HostId
  timestamp : String
  operation : Operation
  actor : AuditActor
  outcome : AuditOutcome
  durationMs : Nat
  deriving DecidableEq, Repr

/-- The end of a line. -/
def NEWLINE : UInt8 := 10

/-- The timestamps that `chrono` reads, and the text of an event that `serde_json` writes. -/
class AuditFormat where
  rfc3339 : String → Bool
  encode : AuditEvent → List UInt8
  /-- There is no line break in the compact form. -/
  oneLine : ∀ e, NEWLINE ∉ encode e

def metadataIdentifier (value : String) : Bool :=
  !value.isEmpty && decide (value.utf8ByteSize ≤ 128) &&
    value.toList.all fun c => c.isAlphanum || c ∈ ['.', '_', ':', '-']

variable [AuditFormat]

def AuditEvent.validate (e : AuditEvent) : Except AppError Unit :=
  if !AuditFormat.rfc3339 e.timestamp || !metadataIdentifier e.operation.id ||
      !metadataIdentifier e.operation.kind then
    .error (.new .validation "Audit metadata contains an invalid identifier or timestamp.")
  else .ok ()

/-- The line of an event. -/
def AuditEvent.line (e : AuditEvent) : List UInt8 := AuditFormat.encode e ++ [NEWLINE]

/-! ## Files -/

/-- What a call has written to a file: the first bytes of a line, all of them if the call has
    returned `Ok`. -/
structure Append where
  event : AuditEvent
  stored : Nat
  ok : Bool
  pos : 0 < stored
  whole : ok = true → event.line.length ≤ stored

def Append.bytes (a : Append) : List UInt8 := a.event.line.take a.stored

/-- The content of a file. -/
def bytes (file : List Append) : List UInt8 := file.flatMap Append.bytes

/-- The log and its backup, if there are any. -/
structure Disk where
  log : Option (List Append)
  backup : Option (List Append)

/-- The operations that fail in a call: a write fails after it has stored a number of bytes. -/
structure Faults where
  encode : Bool
  metadata : Bool
  remove : Bool
  rename : Bool
  opening : Bool
  write : Option Nat
  sync : Bool
  deriving DecidableEq, Repr

/-- No operation fails. -/
def Faults.never : Faults := ⟨false, false, false, false, false, none, false⟩

def storageError : AppError := .new .persistence "The local audit record could not be saved."

/-- The log becomes the backup. -/
def rotate (f : Faults) (d : Disk) : Except AppError Unit × Disk :=
  if f.remove then (.error storageError, d)
  else if f.rename then (.error storageError, { d with backup := none })
  else (.ok (), ⟨none, d.log⟩)

/-- All of a line has been written. -/
def Append.all (e : AuditEvent) (ok : Bool) : Append :=
  ⟨e, e.line.length, ok, by simp [AuditEvent.line], fun _ => le_rfl⟩

/-- The log is opened, or created (`open_append`), and the line is written to it. -/
def append (f : Faults) (e : AuditEvent) (d : Disk) : Except AppError Unit × Disk :=
  if f.opening then (.error storageError, d)
  else
    let file := d.log.getD []
    match f.write with
    | some n =>
      let stored : List Append := if h : n = 0 then [] else [⟨e, n, false, Nat.pos_of_ne_zero h, (absurd · Bool.false_ne_true)⟩]
      (.error storageError, { d with log := some (file ++ stored) })
    | none =>
      (if f.sync then .error storageError else .ok (),
        { d with log := some (file ++ [.all e !f.sync]) })

/-- An open log. -/
structure AuditLog where
  maxBytes : Nat
  atLeast : 1024 ≤ maxBytes

namespace AuditLog

/-- `open_with_limit`: the directory or the file may fail to be created. -/
def openWithLimit (maxBytes : Nat) (fails : Bool) (d : Disk) : Except AppError AuditLog × Disk :=
  if h : maxBytes < 1024 then
    (.error (.new .validation "The audit file limit must be at least 1 KiB."), d)
  else if fails then (.error storageError, d)
  else (.ok ⟨maxBytes, Nat.le_of_not_lt h⟩, { d with log := some (d.log.getD []) })

variable (l : AuditLog)

/-- `record`. Files are too short for the sum of the lengths to saturate. -/
def record (f : Faults) (e : AuditEvent) (d : Disk) : Except AppError Unit × Disk :=
  match e.validate with
  | .error x => (.error x, d)
  | .ok _ =>
    if f.encode then (.error storageError, d)
    else if l.maxBytes < e.line.length then
      (.error (.new .validation "The audit event exceeds the local record limit."), d)
    else match d.log with
      | none => (.error storageError, d)
      | some file =>
        if f.metadata then (.error storageError, d)
        else if l.maxBytes < (bytes file).length + e.line.length then
          match rotate f d with
          | (.error x, d) => (.error x, d)
          | (.ok _, d) => append f e d
        else append f e d

/-- What has become of calls: the files, and the events of those that have returned `Ok`. -/
structure History where
  disk : Disk
  recorded : List AuditEvent

/-- One more call. -/
def next (h : History) (c : Faults × AuditEvent) : History :=
  match l.record c.1 c.2 h.disk with
  | (.ok _, d) => ⟨d, h.recorded ++ [c.2]⟩
  | (.error _, d) => ⟨d, h.recorded⟩

/-- The calls one after the other, on a log that was opened in an empty directory. -/
def run (calls : List (Faults × AuditEvent)) : History :=
  calls.foldl l.next ⟨(openWithLimit l.maxBytes false ⟨none, none⟩).2, []⟩

theorem disk_opened : (openWithLimit l.maxBytes false ⟨none, none⟩).2 = ⟨some [], none⟩ := by
  rw [openWithLimit, dif_neg (Nat.not_lt.2 l.atLeast)]
  rfl

/-! ## Rotation -/

/-- The content of a file that may be missing. -/
def content (file : Option (List Append)) : List UInt8 := bytes (file.getD [])

/-- The backup holds the lines of the events `kept`, and the log those of `current`. -/
structure Holds (h : History) (kept current : List AuditEvent) : Prop where
  log : ∃ file, h.disk.log = some file ∧ bytes file = current.flatMap AuditEvent.line
  backup : content h.disk.backup = kept.flatMap AuditEvent.line
  recent : kept ++ current <:+ h.recorded
  latest : h.recorded ≠ [] → current ≠ []
  log_le : (current.flatMap AuditEvent.line).length ≤ l.maxBytes
  backup_le : (kept.flatMap AuditEvent.line).length ≤ l.maxBytes

theorem bytes_all (e : AuditEvent) (ok : Bool) : (Append.all e ok).bytes = e.line :=
  List.take_length

variable {l} {e : AuditEvent} {file : List Append} {backup : Option (List Append)}

/-- A call without failures. -/
theorem record_never (hvalid : e.validate = .ok ()) (hfits : e.line.length ≤ l.maxBytes) :
    l.record .never e ⟨some file, backup⟩ = (.ok (),
      if l.maxBytes < (bytes file).length + e.line.length then ⟨some [.all e true], some file⟩
      else ⟨some (file ++ [.all e true]), backup⟩) := by
  rw [record, hvalid]
  simp only [Faults.never, Bool.false_eq_true, if_false, if_neg (not_lt.2 hfits)]
  split_ifs
  · rfl
  · rfl

/-- A call without failures keeps the latest events. -/
theorem Holds.next {h : History} {kept current : List AuditEvent} (hh : l.Holds h kept current)
    (e : AuditEvent) : ∃ kept' current', l.Holds (l.next h (.never, e)) kept' current' := by
  obtain ⟨⟨log, backup⟩, recorded⟩ := h
  obtain ⟨⟨file, rfl, hfile⟩, hbackup, ⟨old, rfl⟩, -, hlog_le, hbackup_le⟩ := id hh
  rw [AuditLog.next]
  cases hvalid : e.validate with
  | error x =>
    rw [record, hvalid]
    exact ⟨kept, current, hh⟩
  | ok _ =>
    by_cases hfits : e.line.length ≤ l.maxBytes
    · rw [record_never hvalid hfits]
      split_ifs with hrotate
      · -- The log becomes the backup, and the event is the first one of a new log.
        refine ⟨current, [e], ⟨_, rfl, ?_⟩, hfile, ⟨old ++ kept, ?_⟩, fun _ => nofun, ?_, hlog_le⟩
        · simp [bytes, bytes_all]
        · simp
        · simpa using hfits
      · refine ⟨kept, current ++ [e], ⟨_, rfl, ?_⟩, hbackup, ⟨old, ?_⟩, fun _ => by simp, ?_,
          hbackup_le⟩
        · rw [List.flatMap_append, ← hfile]
          simp [bytes, bytes_all]
        · simp
        · rw [hfile, not_lt] at hrotate
          simpa using hrotate
    · simp only [record, hvalid, Faults.never, Bool.false_eq_true, if_false,
        if_pos (not_le.1 hfits)]
      exact ⟨kept, current, hh⟩

variable (l) in
/-- Calls none of which fails. -/
def undisturbed (events : List AuditEvent) : History := l.run (events.map fun e => (.never, e))

theorem exists_holds (events : List AuditEvent) :
    ∃ kept current, l.Holds (l.undisturbed events) kept current := by
  rw [undisturbed, run, List.foldl_map, disk_opened]
  refine List.foldlRecOn (motive := fun h => ∃ kept current, l.Holds h kept current) events _
    ⟨[], [], ?_⟩ fun h ⟨kept, current, hh⟩ e _ => hh.next e
  exact ⟨⟨[], rfl, rfl⟩, rfl, List.suffix_rfl, fun h => absurd rfl h, Nat.zero_le _, Nat.zero_le _⟩

/-- Calls without failures: neither file is too long, and together they hold the lines of the
    latest events. -/
theorem rotation_of_run (l : AuditLog) (events : List AuditEvent) :
    (content (l.undisturbed events).disk.log).length ≤ l.maxBytes ∧
    (content (l.undisturbed events).disk.backup).length ≤ l.maxBytes ∧
    ∃ latest, latest <:+ (l.undisturbed events).recorded ∧
      ((l.undisturbed events).recorded ≠ [] → latest ≠ []) ∧
      content (l.undisturbed events).disk.backup ++ content (l.undisturbed events).disk.log =
        latest.flatMap AuditEvent.line := by
  obtain ⟨kept, current, ⟨⟨file, hlog, hfile⟩, hbackup, hrecent, hlatest, hlog_le, hbackup_le⟩⟩ :=
    exists_holds (l := l) events
  have hcontent : content (l.undisturbed events).disk.log = current.flatMap AuditEvent.line := by
    rw [content, hlog]
    exact hfile
  rw [hcontent, hbackup]
  refine ⟨hlog_le, hbackup_le, kept ++ current, hrecent, fun hne => ?_, List.flatMap_append.symm⟩
  exact List.append_ne_nil_of_right_ne_nil _ (hlatest hne)

/-! ## Lines -/

/-- The text is a line, from a position on: it stands at the beginning or after the end of another
    line, and before the end of a line. -/
def LineAt (content : List UInt8) (pos : Nat) (text : List UInt8) : Prop :=
  ∃ before after, content = before ++ (text ++ NEWLINE :: after) ∧ before.length = pos ∧
    (before = [] ∨ before.getLast? = some NEWLINE)

/-- The events of the calls that have returned `Ok` are lines of the file, where they have been
    appended. -/
def Intact (file : List Append) : Prop :=
  ∀ before a after, file = before ++ a :: after → a.ok = true →
    LineAt (bytes file) (bytes before).length (AuditFormat.encode a.event)

/-- No call has returned `Ok` after one that has written a part of a line only. -/
def Untorn (file : List Append) : Prop :=
  ∀ before a b after, file = before ++ a :: b :: after → b.ok = true →
    a.event.line.length ≤ a.stored

theorem bytes_of_le {a : Append} (h : a.event.line.length ≤ a.stored) : a.bytes = a.event.line :=
  List.take_of_length_le h

theorem bytes_ne_nil (a : Append) : a.bytes ≠ [] := by
  have hline : a.event.line ≠ [] := List.append_ne_nil_of_right_ne_nil _ nofun
  simp [Append.bytes, List.take_eq_nil_iff, Nat.ne_of_gt a.pos, hline]

theorem bytes_append (file file' : List Append) : bytes (file ++ file') = bytes file ++ bytes file' :=
  List.flatMap_append

/-- A part of a line does not end the line. -/
theorem getLast?_bytes_iff (before : List Append) (a : Append) :
    (bytes (before ++ [a])).getLast? = some NEWLINE ↔ a.event.line.length ≤ a.stored := by
  have hlast : bytes (before ++ [a]) = bytes before ++ a.bytes := by simp [bytes]
  rw [hlast, List.getLast?_append_of_ne_nil _ (bytes_ne_nil a)]
  constructor
  · intro h
    by_contra hlt
    have hle : a.stored ≤ (AuditFormat.encode a.event).length := by
      rw [AuditEvent.line, List.length_append, List.length_singleton] at hlt
      omega
    have hpart : a.bytes = (AuditFormat.encode a.event).take a.stored :=
      List.take_append_of_le_length hle
    exact AuditFormat.oneLine a.event (List.mem_of_mem_take (hpart ▸ List.mem_of_getLast? h))
  · intro h
    rw [bytes_of_le h, AuditEvent.line, List.getLast?_concat]

theorem intact_iff_untorn : Intact file ↔ Untorn file := by
  constructor
  · rintro h before a b after rfl hok
    have hfile : before ++ a :: b :: after = before ++ [a] ++ b :: after := by simp
    obtain ⟨text, rest, hcontent, hlength, hstart⟩ := h (before ++ [a]) b after hfile hok
    rw [hfile, bytes_append] at hcontent
    obtain ⟨rfl, -⟩ := List.append_inj hcontent hlength.symm
    refine (getLast?_bytes_iff before a).1 (hstart.resolve_left fun hnil => bytes_ne_nil a ?_)
    rw [bytes_append, List.append_eq_nil_iff] at hnil
    simpa [bytes] using hnil.2
  · rintro h before a after rfl hok
    refine ⟨bytes before, bytes after, ?_, rfl, ?_⟩
    · simp [bytes, bytes_of_le (a.whole hok), AuditEvent.line]
    · rcases List.eq_nil_or_concat' before with rfl | ⟨before, b, rfl⟩
      · exact .inl rfl
      · exact .inr ((getLast?_bytes_iff before b).2 (h before b a after (by simp) hok))

/-- After any calls, one without failures records a valid event that is not too long if and only
    if the log is still there. -/
theorem record_iff_of_run (l : AuditLog) (calls : List (Faults × AuditEvent)) (e : AuditEvent) :
    (l.record .never e (l.run calls).disk).1 = .ok () ↔
      e.validate = .ok () ∧ e.line.length ≤ l.maxBytes ∧ (l.run calls).disk.log ≠ none := by
  generalize (l.run calls).disk = d
  obtain ⟨log, backup⟩ := d
  cases hvalid : e.validate with
  | error x => simp [record, hvalid]
  | ok _ =>
    by_cases hfits : e.line.length ≤ l.maxBytes
    · cases log with
      | none => simp [record, hvalid, Faults.never, not_lt.2 hfits]
      | some file => simp [record_never hvalid hfits, hfits]
    · simp [record, hvalid, Faults.never, not_le.1 hfits, hfits]

/-- Lines of `n + 1` bytes. -/
abbrev linesOf (n : Nat) : AuditFormat :=
  ⟨fun _ => true, fun _ => .replicate n 0, fun _ h => absurd (List.eq_of_mem_replicate h) (by decide)⟩

def smallLog : AuditLog := ⟨1024, le_rfl⟩

def readEvent : AuditEvent := ⟨⟨1⟩, "2026-01-01T00:00:00Z", ⟨"a", "b", .readOnly⟩, .user, .success, 0⟩

omit [AuditFormat] in
/-- The second event does not fit into the log, which is renamed, and cannot be created. -/
theorem renamed_not_recorded : ∃ _ : AuditFormat, ∃ l calls e, AuditEvent.validate e = .ok () ∧
    e.line.length ≤ l.maxBytes ∧ (record l .never e (run l calls).disk).1 = .error storageError := by
  let _ := linesOf 600
  refine ⟨linesOf 600, smallLog, [(.never, readEvent),
    ({ Faults.never with opening := true }, readEvent)], readEvent, rfl, by decide +kernel, ?_⟩
  decide +kernel

end AuditLog

end NexusOps.Audit
