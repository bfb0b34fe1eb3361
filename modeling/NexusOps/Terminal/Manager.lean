import NexusOps.Concurrency.Async
import NexusOps.Concurrency.Table
import NexusOps.Encoding.Base64
import NexusOps.Model.Terminal

/-!
# The terminal manager

The terminals of all hosts (`nexus-terminal`). A terminal is opened over a connection; as
soon as it is open, a task of its own reads its output, and puts it into a queue
(`pumpOutput`). It is taken from there by whoever polls the terminal (`poll`). A terminal
ends by itself, or because it is closed.

What is read from a terminal is up to its surroundings, and so is whether and when a
connection opens or closes a channel.
-/

namespace NexusOps.Terminal

open Concurrency Encoding

def MAX_OPEN_TERMINALS_PER_HOST : Nat := 8
def MAX_INPUT_BYTES : Nat := 16 * 1024
def OUTPUT_CHUNK_BYTES : Nat := 16 * 1024
def OUTPUT_QUEUE_CAPACITY : Nat := 64
def OUTPUT_BATCH_BYTES : Nat := 64 * 1024
def TOMBSTONE_LIMIT : Nat := 64

/-- What is read from a channel. -/
inductive TerminalRead
  | data (data : List UInt8)
  | exit (status : UInt32)
  | closed
  deriving DecidableEq, Repr

/-! ## State -/

/-- A shared pointer to what is kept of a terminal. -/
structure EntryId where
  address : Nat
  deriving DecidableEq, Repr

/-- The tasks: calls of the manager, and those that read the output of a terminal. -/
inductive TerminalTask
  | call (t : TaskId)
  | pump (e : EntryId)
  deriving DecidableEq, Repr

/-- What is kept of a terminal. -/
structure Entry where
  view : TerminalSession
  /-- There is a channel. -/
  channel : Bool
  /-- The task that holds the lock of the channel. -/
  channelLock : Option TerminalTask
  /-- The chunks in the queue. -/
  receiver : List (List UInt8)
  /-- The task that may put chunks into the queue. -/
  sender : Option TerminalTask
  /-- What is left of a chunk that has been taken from the queue. -/
  carryover : Option (List UInt8)
  /-- The task that holds the lock of the output. -/
  outputLock : Option TerminalTask
  cancelled : Bool
  /-- What has been read, but not yet been put into the queue. This is not part of the
      program. -/
  unsent : List UInt8
  /-- What the task that holds the lock of the output has taken. This is not part of the
      program. -/
  taken : List UInt8

/-- Who a terminal belongs to. -/
structure Ownership where
  hostId : HostId
  hostSessionId : HostSessionId
  terminalId : TerminalSessionId
  deriving DecidableEq, Repr

/-- What is logged. -/
inductive TerminalEvent
  /-- The terminal is open. -/
  | opened (e : EntryId)
  /-- The task that reads the output of the terminal has got a result. -/
  | read (e : EntryId) (r : Except AppError TerminalRead)
  /-- A call has begun to close the terminal. -/
  | closing (e : EntryId)
  /-- A call has polled the terminal. -/
  | polled (e : EntryId) (batch : TerminalOutputBatch)
  deriving DecidableEq

/-- The state of the manager. -/
structure TerminalManager where
  sessions : Table TerminalSessionId EntryId
  nextLabel : Table HostId Nat
  closed : List Ownership
  /-- What is kept of the terminals, also of those that are no longer listed. -/
  entries : EntryId → Option Entry
  /-- The ids that have been used. -/
  ids : Finset TerminalSessionId
  log : List TerminalEvent

namespace TerminalManager

/-- The manager as it is created. -/
def new : TerminalManager := ⟨.empty, .empty, [], fun _ => none, ∅, []⟩

/-- Logs an event. -/
def record (s : TerminalManager) (event : TerminalEvent) : TerminalManager :=
  { s with log := s.log ++ [event] }

/-- Sets what is kept of a terminal. -/
def setEntry (s : TerminalManager) (e : EntryId) (x : Entry) : TerminalManager :=
  { s with entries := Function.update s.entries e (some x) }

end TerminalManager

/-- A call of the manager. -/
abbrev TerminalCall := Async TerminalManager AppError

/-- A section on what is kept of a terminal. -/
def entrySection {β : Type} (e : EntryId) (f : Entry → Option (β × Entry)) :
    Proc TerminalManager β :=
  .act fun s => (s.entries e).bind fun x => (f x).map fun (b, x) => (b, s.setEntry e x)

/-- Looks at what is kept of a terminal. -/
def look {β : Type} (e : EntryId) (f : Entry → β) : Proc TerminalManager β :=
  entrySection e fun x => some (f x, x)

/-- Changes what is kept of a terminal. -/
def change (e : EntryId) (f : Entry → Entry) : Proc TerminalManager Unit :=
  entrySection e fun x => some ((), f x)

/-- Changes the state of a terminal. -/
def Entry.setState (x : Entry) (state : TerminalState) : Entry :=
  { x with view := { x.view with state := state } }

/-- Changes the state of a terminal, with an error. -/
def Entry.failWith (x : Entry) (error : AppError) (state : TerminalState) : Entry :=
  { x with view := { x.view with state := state, error := some error } }

/-- Awaits something (which is polled with `x`) unless the terminal is cancelled. -/
def select {ε β : Type} (e : EntryId) (x : Fallible TerminalManager ε (Option β)) :
    Fallible TerminalManager ε (Option β) :=
  .loop (fun (_ : Unit) => do
    if ← .lift (look e Entry.cancelled) then
      return .inr none
    else
      match ← x with
      | some b => return .inr (some b)
      | none => return .inl ()) ()

/-! ## Closing -/

section

variable (i : TerminalTask) (e : EntryId)

/-- Takes the lock of the channel, and the channel. -/
def takeChannel : Proc TerminalManager Bool :=
  entrySection e fun x =>
    if x.channelLock = none then some (x.channel, { x with channel := false, channelLock := some i })
    else none

/-- Closes the channel, if there is one. The lock is held until it is closed. -/
def closeChannel : Proc TerminalManager Unit := do
  if ← takeChannel i e then
    .ask Unit
  change e fun x => { x with channelLock := none }

/-- Takes the lock of the output. -/
def lockOutput : Proc TerminalManager Unit :=
  entrySection e fun x =>
    if x.outputLock = none then some ((), { x with outputLock := some i }) else none

/-- Takes a chunk from the queue. -/
def tryRecv : Proc TerminalManager (Option (List UInt8)) :=
  entrySection e fun x => match x.receiver with
    | [] => some (none, x)
    | chunk :: chunks => some (some chunk, { x with receiver := chunks })

/-- Empties the queue. -/
def discardOutput : Fallible TerminalManager Empty Unit :=
  .loop (fun (_ : Unit) => do
    match ← .lift (tryRecv e) with
    | some _ => return .inl ()
    | none => return .inr ()) ()

/-- Begins to close a terminal, unless it has been disconnected. -/
def beginClose (finalState : TerminalState) : Proc TerminalManager Bool :=
  .act fun s => (s.entries e).map fun x =>
    if x.view.state = .disconnected ∧ finalState ≠ .closed then (false, s)
    else (true, (s.setEntry e (x.setState .closing)).record (.closing e))

/-- Closes a terminal. -/
def closeEntry (finalState : TerminalState) : Proc TerminalManager Unit := do
  if ← beginClose e finalState then
    change e fun x => { x with cancelled := true }
    closeChannel i e
    lockOutput i e
    change e fun x => { x with carryover := none }
    let _ ← (discardOutput e).run
    change e (·.setState finalState)
    change e fun x => { x with outputLock := none }

end

/-! ## The output of a terminal -/

/-- The consecutive parts of a list, of `n` elements each but the last. -/
def chunks {α : Type} (n : Nat) (l : List α) : List (List α) := go l.length l
where
  go : Nat → List α → List (List α)
    | 0, _ => []
    | fuel + 1, l => if l.isEmpty then [] else l.take n :: go fuel (l.drop n)

variable {α : Type}

theorem flatten_go {n : Nat} (hn : 0 < n) {fuel : Nat} {l : List α}
    (h : l.length ≤ fuel) : (chunks.go n fuel l).flatten = l := by
  induction fuel generalizing l with
  | zero => exact (List.eq_nil_of_length_eq_zero (Nat.le_zero.1 h)).symm
  | succ fuel ih =>
    rw [chunks.go]
    split_ifs with hl
    · exact (List.isEmpty_iff.1 hl).symm
    · have hdrop : (l.drop n).length ≤ fuel := by
        rw [List.length_drop]
        omega
      rw [List.flatten_cons, ih hdrop, List.take_append_drop]

/-- The chunks of a list make up the list. -/
theorem flatten_chunks {n : Nat} (hn : 0 < n) (l : List α) : (chunks n l).flatten = l :=
  flatten_go hn le_rfl

theorem of_mem_go {n : Nat} (hn : 0 < n) {fuel : Nat} {l chunk : List α}
    (h : chunk ∈ chunks.go n fuel l) : chunk ≠ [] ∧ chunk.length ≤ n := by
  induction fuel generalizing l with
  | zero => exact absurd h List.not_mem_nil
  | succ fuel ih =>
    rw [chunks.go] at h
    split_ifs at h with hl
    · exact absurd h List.not_mem_nil
    · rcases List.mem_cons.1 h with rfl | h
      · refine ⟨fun hnil => ?_, List.length_take_le ..⟩
        rcases List.take_eq_nil_iff.1 hnil with h0 | hnil
        · omega
        · exact hl (List.isEmpty_iff.2 hnil)
      · exact ih h

/-- No chunk is empty, or longer than it may be. -/
theorem of_mem_chunks {n : Nat} (hn : 0 < n) {l chunk : List α} (h : chunk ∈ chunks n l) :
    chunk ≠ [] ∧ chunk.length ≤ n :=
  of_mem_go hn h

/-- How the task that reads the output ends. -/
inductive PumpExit
  /-- It leaves the loop. -/
  | stop
  /-- It returns at once. -/
  | leave

section

variable (e : EntryId)

/-- Puts a chunk into the queue, if there is room. -/
def trySend (chunk : List UInt8) : Proc TerminalManager (Option Unit) :=
  entrySection e fun x =>
    if x.receiver.length < OUTPUT_QUEUE_CAPACITY then
      some (some (), { x with
        receiver := x.receiver ++ [chunk]
        unsent := x.unsent.drop chunk.length })
    else some (none, x)

/-- Puts chunks into the queue, as there is room. -/
def sendChunks : List (List UInt8) → Fallible TerminalManager PumpExit Unit
  | [] => return ()
  | chunk :: chunks => do
    match ← select e (.lift (trySend e chunk)) with
    | some () => sendChunks chunks
    | none => throw .leave

/-- The data of a result. -/
def readData : Except AppError TerminalRead → List UInt8
  | .ok (.data data) => data
  | _ => []

/-- Logs what has been read. -/
def noteRead (r : Except AppError TerminalRead) : Proc TerminalManager Unit :=
  .act fun s => (s.entries e).map fun x =>
    ((), (s.setEntry e { x with unsent := readData r }).record (.read e r))

/-- The state of a terminal that has failed. -/
def failedState (error : AppError) : TerminalState :=
  if error.code = .connection then .disconnected else .failed

/-- Handles what has been read. -/
def handleRead : Except AppError TerminalRead → Fallible TerminalManager PumpExit Unit
  | .ok (.data data) => sendChunks e (chunks OUTPUT_CHUNK_BYTES data)
  | .ok _ => do
    .lift (change e fun x => if x.view.state = .open then x.setState .closed else x)
    throw .stop
  | .error error => do
    .lift (change e fun x =>
      if x.view.state = .open then x.failWith error (failedState error) else x)
    throw .stop

/-- Reads the output of a terminal until it ends. -/
def pumpLoop : Fallible TerminalManager PumpExit Unit :=
  .loop (fun (_ : Unit) => do
    match ← select e (.ask (Option (Except AppError TerminalRead))) with
    | none => throw .stop
    | some r =>
      .lift (noteRead e r)
      handleRead e r
      return .inl ()) ()

/-- The task that reads the output of a terminal, once it has been spawned. -/
def pumpOutput : Proc TerminalManager Unit := do
  entrySection e fun x => if x.sender = some (.pump e) then some ((), x) else none
  match ← (pumpLoop e).run with
  | .error .leave => pure ()
  | _ => closeChannel (.pump e) e
  change e fun x => { x with sender := none }

end

/-! ## Polling -/

/-- What has been collected for a batch. -/
structure Collected where
  chunksBase64 : List String
  total : Nat

/-- Adds a chunk to a batch. What does not fit is left for the next one. -/
def appendOutputChunk (chunk : List UInt8) (batch : Collected) (carryover : Option (List UInt8)) :
    Collected × Option (List UInt8) :=
  let remaining := OUTPUT_BATCH_BYTES - batch.total
  let carryover := if remaining < chunk.length then some (chunk.drop remaining) else carryover
  let chunk := chunk.take remaining
  (⟨if chunk.isEmpty then batch.chunksBase64 else batch.chunksBase64 ++ [Base64.encode chunk],
    batch.total + chunk.length⟩, carryover)

/-- Adds a chunk to a batch, and keeps the rest of it. -/
def Entry.append (x : Entry) (chunk : List UInt8) (batch : Collected) : Collected × Entry :=
  let (batch', carryover) := appendOutputChunk chunk batch x.carryover
  (batch', { x with
    carryover := carryover
    taken := x.taken ++ chunk.take (OUTPUT_BATCH_BYTES - batch.total) })

/-- There is no such terminal. -/
def notFound : AppError := .new .notFound "The terminal session was not found."

/-- The terminal belongs to another connection. -/
def notOwned : AppError :=
  .new .policy "This terminal does not belong to the supplied host connection."

/-- The terminal belongs to the connection. -/
def verifyOwnership (view : TerminalSession) (key : Ownership) : Except AppError Unit :=
  if view.hostId ≠ key.hostId ∨ view.hostSessionId ≠ key.hostSessionId then .error notOwned
  else .ok ()

/-- The entry of a terminal that belongs to the connection. -/
def entry (key : Ownership) : TerminalCall EntryId := do
  let e ← .act fun s => match s.sessions.get key.terminalId with
    | none => some (.error (.error notFound), s)
    | some e => some (.ok e, s)
  let view ← .lift (look e Entry.view)
  .ofExcept (verifyOwnership view key)
  return e

section

variable (i : TerminalTask) (e : EntryId)

/-- Starts a batch with what was left of the last one. -/
def takeCarryover : Proc TerminalManager Collected :=
  entrySection e fun x => match x.carryover with
    | none => some (⟨[], 0⟩, x)
    | some chunk => some ({ x with carryover := none }.append chunk ⟨[], 0⟩)

/-- Adds the next chunk of the queue to a batch. -/
def takeChunk (batch : Collected) : Proc TerminalManager (Collected ⊕ Collected) :=
  entrySection e fun x => match x.receiver with
    | [] => some (.inr batch, x)
    | chunk :: chunks =>
      let (batch, x) := { x with receiver := chunks }.append chunk batch
      some (.inl batch, x)

/-- Adds chunks of the queue to a batch, while it is not full. -/
def takeChunks (batch : Collected) : Fallible TerminalManager Empty Collected :=
  .loop (fun batch =>
    if batch.total < OUTPUT_BATCH_BYTES then .lift (takeChunk e batch) else return .inr batch) batch

/-- There is nothing left, and nothing will come. -/
def outputDrained : Proc TerminalManager Bool := do
  if ← look e (·.carryover.isNone) then
    if ← look e (·.sender.isNone) then
      look e (·.receiver.isEmpty)
    else return false
  else return false

/-- Gives back the lock of the output, with a batch. -/
def finishBatch (batch : TerminalOutputBatch) : Proc TerminalManager Unit :=
  .act fun s => (s.entries e).map fun x =>
    ((), (s.setEntry e { x with outputLock := none, taken := [] }).record (.polled e batch))

/-- Takes a batch of the output of a terminal. -/
def takeBatch : Proc TerminalManager TerminalOutputBatch := do
  lockOutput i e
  let batch ← takeCarryover e
  match ← (takeChunks e batch).run with
  | .error e => nomatch e
  | .ok batch =>
    let drained ← outputDrained e
    let session ← look e Entry.view
    let batch := ⟨session, batch.chunksBase64, drained⟩
    finishBatch e batch
    return batch

end

/-- Takes a batch of the output of a terminal. -/
def poll (t : TaskId) (key : Ownership) : TerminalCall TerminalOutputBatch := do
  let e ← entry key
  .lift (takeBatch (.call t) e)

/-! ## Input -/

/-- The input is not accepted. -/
def invalidInput : AppError :=
  .new .validation "Terminal input must be non-empty base64 data no larger than 16 KiB."

/-- What `write` writes to the channel, if the input is accepted. -/
def decodeInput (dataBase64 : String) : Except AppError (List UInt8) :=
  if MAX_INPUT_BYTES * 4 / 3 + 8 < dataBase64.utf8ByteSize then .error invalidInput
  else match Base64.decode dataBase64 with
    | none => .error invalidInput
    | some data =>
      if data.isEmpty ∨ MAX_INPUT_BYTES < data.length then .error invalidInput else .ok data

/-- Input within the limit is accepted once it is encoded. -/
theorem decodeInput_encode {data : List UInt8} (hne : data ≠ [])
    (hlength : data.length ≤ MAX_INPUT_BYTES) : decodeInput (Base64.encode data) = .ok data := by
  have hsize : ¬MAX_INPUT_BYTES * 4 / 3 + 8 < (Base64.encode data).utf8ByteSize := by
    rw [Base64.utf8ByteSize_encode]
    rw [MAX_INPUT_BYTES] at *
    omega
  have haccepted : ¬(data.isEmpty ∨ MAX_INPUT_BYTES < data.length) := by
    rw [List.isEmpty_iff, not_or]
    exact ⟨hne, hlength.not_gt⟩
  rw [decodeInput, if_neg hsize, Base64.decode_encode]
  exact if_neg haccepted

end NexusOps.Terminal
