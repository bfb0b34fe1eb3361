import NexusOps.Concurrency.History
import NexusOps.Terminal.System

/-!
# The protocol of the terminal manager

What the tasks of the terminal manager keep to. Every byte that has been read from a
terminal is in one place (`EntryOk.conserved`): it has been delivered, it has been taken by
a call that polls the terminal, it was left over, it is in the queue, or it has not been put
there yet. This holds until the terminal is closed.

What a task may do to a terminal depends on what it holds (`EntryStep`): only the task with
the sender puts chunks into the queue, and only the one with the lock of the output takes
what was left over.
-/

namespace NexusOps.Terminal

open Concurrency Encoding

/-! ## What is read and delivered -/

section

variable (log : List TerminalEvent) (e : EntryId)

/-- What has been read from a terminal. -/
def reads : List (Except AppError TerminalRead) :=
  log.filterMap fun
    | .read e' r => if e' = e then some r else none
    | _ => none

/-- The batches of a terminal. -/
def batches : List TerminalOutputBatch :=
  log.filterMap fun
    | .polled e' batch => if e' = e then some batch else none
    | _ => none

/-- The data of a list of results, up to the first that is something else. -/
def dataOf : List (Except AppError TerminalRead) → List UInt8
  | .ok (.data data) :: rs => data ++ dataOf rs
  | _ => []

/-- The data that has been read from a terminal before it ended. -/
def received : List UInt8 := dataOf (reads log e)

/-- The bytes of a batch. -/
def batchBytes (batch : TerminalOutputBatch) : List UInt8 :=
  batch.chunksBase64.flatMap fun chunk => (Base64.decode chunk).getD []

/-- The bytes of all batches of a terminal. -/
def delivered : List UInt8 := (batches log e).flatMap batchBytes

/-- A batch has been reported as the last one. -/
def Drained : Prop := ∃ batch ∈ batches log e, batch.outputDrained = true

instance : Decidable (Drained log e) :=
  inferInstanceAs (Decidable (∃ batch ∈ batches log e, batch.outputDrained = true))

/-- A result is not the end of the output. -/
def IsData (r : Except AppError TerminalRead) : Prop := ∃ data, r = .ok (.data data)

/-- The last of the results is the end of the output. -/
def Ended (rs : List (Except AppError TerminalRead)) : Prop :=
  ∃ rs' r, rs = rs' ++ [r] ∧ (∀ r' ∈ rs', IsData r') ∧ ¬IsData r

end

/-- The state a terminal gets when its output ends. -/
def endState : Except AppError TerminalRead → TerminalState
  | .ok _ => .closed
  | .error error => failedState error

/-- A chunk of the output. -/
structure IsChunk (chunk : List UInt8) : Prop where
  ne_nil : chunk ≠ []
  length_le : chunk.length ≤ OUTPUT_CHUNK_BYTES

/-- A batch is within the limits of the renderer. -/
structure WithinLimits (batch : TerminalOutputBatch) : Prop where
  length_le : (batchBytes batch).length ≤ OUTPUT_BATCH_BYTES
  chunk : ∀ text ∈ batch.chunksBase64, ∃ chunk, Base64.decode text = some chunk ∧ IsChunk chunk

/-- What holds when an event is logged. -/
def Rule (pre : List TerminalEvent) : TerminalEvent → Prop
  | .polled e batch => WithinLimits batch ∧
      (.closing e ∉ pre → batch.outputDrained = true → ¬batch.session.state.Live) ∧
      (Drained pre e → batch.chunksBase64 = [] ∧ batch.outputDrained = true)
  | _ => True

/-- The terminal an event is about. -/
def TerminalEvent.entry : TerminalEvent → EntryId
  | opened e => e
  | read e _ => e
  | closing e => e
  | polled e _ => e

/-! ## The invariant -/

/-- What holds of a terminal. -/
structure EntryOk (log : List TerminalEvent) (e : EntryId) (x : Entry) : Prop where
  receiver : ∀ chunk ∈ x.receiver, IsChunk chunk
  carryover : ∀ chunk, x.carryover = some chunk → IsChunk chunk
  /-- No byte is lost, and none is in two places. -/
  conserved : .closing e ∉ log → received log e =
    delivered log e ++ x.taken ++ x.carryover.getD [] ++ x.receiver.flatten ++ x.unsent
  unlocked : x.outputLock = none → x.taken = []
  /-- The sender is dropped when the terminal has ended. -/
  ended : .closing e ∉ log → x.sender = none → x.unsent = [] ∧ ¬x.view.state.Live ∧
    (.opened e ∈ log → Ended (reads log e))
  /-- The task that reads the output takes over an open terminal. -/
  spawned : x.sender = some (.pump e) → reads log e = [] →
    x.unsent = [] ∧ (.closing e ∉ log → x.view.state = .open)
  cancelled : x.cancelled = true → x.sender = some (.pump e) → .closing e ∈ log
  drained : Drained log e → x.sender = none ∧ x.receiver = [] ∧ x.carryover = none ∧ x.taken = []
  /-- An open terminal ends as its last result says. -/
  outcome : .closing e ∉ log → .opened e ∈ log → x.view.state = .open ∨
    ∃ r ∈ reads log e, ¬IsData r ∧ x.view.state = endState r

namespace TerminalManager

/-- The invariant. -/
structure Inv (s : TerminalManager) : Prop where
  entry : ∀ e x, s.entries e = some x → EntryOk s.log e x
  known : ∀ event ∈ s.log, s.entries event.entry ≠ none
  rule : Justified Rule s.log

/-! ## The protocol -/

/-- What a step of the task `i` does to a terminal. -/
structure EntryStep (i : TerminalTask) (s' : TerminalManager) (e : EntryId) (x x' : Entry) :
    Prop where
  /-- Only the task with the sender puts chunks into the queue. -/
  sender : x.sender ≠ some i →
    x'.sender = x.sender ∧ x'.unsent = x.unsent ∧ x'.receiver <:+ x.receiver
  state : x.sender ≠ some i → x'.view.state = x.view.state ∨ .closing e ∈ s'.log
  cancelled : x.sender ≠ some i → x'.cancelled = true → x.cancelled = true ∨ .closing e ∈ s'.log
  /-- Only the task with the lock of the output takes what was left over. -/
  lock : ∀ j, j ≠ i → x.outputLock = some j →
    x'.outputLock = some j ∧ x'.taken = x.taken ∧ x'.carryover = x.carryover
  /-- What was left over is not overwritten. -/
  carryover : x.carryover ≠ none → x'.carryover = x.carryover ∨ x'.carryover = none

/-- What a task may log. -/
def Logs (i : TerminalTask) (s : TerminalManager) : TerminalEvent → Prop
  | .opened e => ∃ x, s.entries e = some x ∧ x.sender = some i
  | .read e _ => i = .pump e ∧ ∃ x, s.entries e = some x ∧ x.sender = some i
  | .closing _ => True
  | .polled e _ => ∃ x, s.entries e = some x ∧ x.outputLock = some i

/-- What a step of the task `i` does. -/
structure Guarantee (i : TerminalTask) (s s' : TerminalManager) : Prop where
  log : ∃ es, s'.log = s.log ++ es ∧ ∀ event ∈ es, Logs i s event
  entry : ∀ e x, s.entries e = some x → ∃ x', s'.entries e = some x' ∧ EntryStep i s' e x x'

/-- The protocol of the tasks. -/
def protocol (calls : TaskId → TerminalRequest) : Protocol (system calls) where
  inv := Inv
  guarantee := Guarantee
  idle i s := match i with
    | .call _ => True
    | .pump e => reads s.log e = []

end TerminalManager

end NexusOps.Terminal
