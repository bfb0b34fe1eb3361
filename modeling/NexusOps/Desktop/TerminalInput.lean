import NexusOps.Concurrency.Machine
import NexusOps.Desktop.TerminalFlow
import NexusOps.Terminal.Manager

/-!
# Terminal input in the renderer

What is typed is queued in chunks, which are written one after the other
(`BoundedTerminalInput`). The queue is drained by a task of its own, which awaits each write. It
may be stopped meanwhile, and what a write that fails has done is not known: then nothing is
written any more.

The machine has a step for each call, and for each way the task goes on after a write:

* the write has been resolved or rejected;
* the signal has been aborted, and the task does not wait for the write any longer.

`input_of_run` is what is written, whatever the order of these steps.
-/

namespace NexusOps.Desktop

open Concurrency Encoding Terminal

def MAX_QUEUED_INPUT_BYTES : Nat := 256 * 1024

/-- What `flushing` stands for. -/
inductive Drain
  /-- There is no task. -/
  | idle
  /-- The task awaits the write of a chunk. -/
  | writing (next : List UInt8)
  /-- The task has ended, which has not been noted yet. -/
  | ended
  deriving DecidableEq, Repr

/-- The queue of the input of a terminal. -/
structure BoundedTerminalInput where
  chunks : List (List UInt8)
  bytes : Nat
  stopped : Bool
  writeFailed : Bool
  flushing : Drain
  deriving DecidableEq, Repr

namespace BoundedTerminalInput

/-- An empty queue. -/
def new : BoundedTerminalInput := ⟨[], 0, false, false, .idle⟩

variable (q : BoundedTerminalInput)

/-- Puts a chunk into the queue. -/
def push (chunk : List UInt8) : BoundedTerminalInput :=
  { q with chunks := q.chunks ++ [chunk], bytes := q.bytes + chunk.length }

/-- Queues some input, if there is room for it. -/
def enqueue (input : List UInt8) : Bool × BoundedTerminalInput :=
  if q.stopped = true ∨ input.length = 0 then (false, q)
  else if MAX_QUEUED_INPUT_BYTES < q.bytes + input.length then (false, q)
  else (true, (Terminal.chunks INPUT_CHUNK_BYTES input).foldl push q)

/-- The head of the loop of the task: what is written next, if anything. -/
def drain : BoundedTerminalInput × Option (List UInt8) :=
  if q.stopped then ({ q with flushing := .ended }, none)
  else match q.chunks with
    | [] => ({ q with flushing := .ended }, none)
    | next :: _ => ({ q with flushing := .writing next }, some next)

/-- Starts the task, unless it is running. -/
def flush : BoundedTerminalInput × Option (List UInt8) :=
  if q.flushing = .idle then q.drain else (q, none)

/-- Stops the queue. -/
def stop : BoundedTerminalInput := { q with stopped := true, chunks := [], bytes := 0 }

/-- The task goes on after a write. -/
def resolved (aborted : Bool) (next : List UInt8) : BoundedTerminalInput × Option (List UInt8) :=
  if q.stopped = true ∨ aborted = true then ({ q with flushing := .ended }, none)
  else drain { q with chunks := q.chunks.tail, bytes := q.bytes - next.length }

/-- The task ends as a write has failed, or as the signal has been aborted. -/
def rejected (aborted : Bool) : BoundedTerminalInput :=
  if aborted = false ∧ q.stopped = false then
    { q with writeFailed := true, stopped := true, chunks := [], bytes := 0, flushing := .ended }
  else { q with flushing := .ended }

/-- The end of the task is noted. -/
def finish : BoundedTerminalInput := { q with flushing := .idle }

end BoundedTerminalInput

/-- The base64 of a chunk. -/
def bytesToBase64 (bytes : List UInt8) : String :=
  Base64.encode (Terminal.chunks 8192 bytes).flatten

/-! ## Steps -/

/-- The queue, with the signal of its task. What has been accepted and what has been passed to
    `write` so far, and the number of writes that have not been settled, are not part of the
    program. -/
structure InputState where
  queue : BoundedTerminalInput
  aborted : Bool
  accepted : List (List UInt8)
  written : List (List UInt8)
  pending : Nat
  deriving DecidableEq, Repr

/-- What can happen. -/
inductive InputEvent
  | enqueue (input : List UInt8)
  | flush
  /-- The write that is awaited has been resolved. -/
  | resolved
  /-- The write that is awaited has been rejected. -/
  | rejected
  /-- The signal has been aborted, and the write is not awaited any more. -/
  | cancelled
  /-- A write has been settled that is not awaited. -/
  | settled
  | stop
  /-- The signal is aborted, and the queue is stopped. -/
  | abort
  /-- The end of the task is noted. -/
  | finished
  deriving DecidableEq, Repr

namespace InputState

/-- Nothing has been typed. -/
def new : InputState := ⟨.new, false, [], [], 0⟩

variable (s : InputState)

/-- The queue after the task has run on, which may have passed a chunk to `write`. -/
def wrote (r : BoundedTerminalInput × Option (List UInt8)) : InputState :=
  { s with queue := r.1, written := s.written ++ r.2.toList, pending := s.pending + r.2.toList.length }

/-- What a step leads to, if it is possible. -/
def step : InputEvent → Option InputState
  | .enqueue input =>
    let (accepted, queue) := s.queue.enqueue input
    some { s with queue := queue, accepted := if accepted then s.accepted ++ [input] else s.accepted }
  | .flush => some (s.wrote s.queue.flush)
  | .resolved => match s.queue.flushing with
    | .writing next => some ({ s with pending := s.pending - 1 }.wrote
        (s.queue.resolved s.aborted next))
    | _ => none
  | .rejected => match s.queue.flushing with
    | .writing _ => some { s with queue := s.queue.rejected s.aborted, pending := s.pending - 1 }
    | _ => none
  | .cancelled => match s.queue.flushing, s.aborted with
    | .writing _, true => some { s with queue := s.queue.rejected s.aborted }
    | _, _ => none
  | .settled => match s.queue.flushing with
    | .writing _ => none
    | _ => if s.pending = 0 then none else some { s with pending := s.pending - 1 }
  | .stop => some { s with queue := s.queue.stop }
  | .abort => some { s with queue := s.queue.stop, aborted := true }
  | .finished =>
    if s.queue.flushing = .ended then some { s with queue := s.queue.finish } else none

/-- The queue of a terminal. -/
def machine : Machine InputState InputEvent where
  init s := s = new
  step s e s' := s.step e = some s'

/-! ## What is kept -/

/-- The chunks of the input that has been accepted. -/
def queued : List (List UInt8) := s.accepted.flatMap (Terminal.chunks INPUT_CHUNK_BYTES)

variable {s} {s' : InputState} {e : InputEvent} {es : List InputEvent}

/-- A chunk that can be written. -/
def Writable (chunk : List UInt8) : Prop := chunk ≠ [] ∧ chunk.length ≤ INPUT_CHUNK_BYTES

/-- How many writes have not been settled. -/
def PendingOk (s : InputState) : Prop :=
  match s.queue.flushing with
  | .writing _ => s.pending = 1
  | _ => s.pending ≤ 1 ∧ (s.queue.stopped = false → s.pending = 0)

/-- What is left in the queue: the chunks that have not been passed to `write`, after the one that
    is being written. -/
def OrderOk (s : InputState) : Prop :=
  match s.queue.flushing with
  | .writing next => ∃ rest, s.queue.chunks = next :: rest ∧ s.queued = s.written ++ rest
  | _ => s.queued = s.written ++ s.queue.chunks

/-- The invariant. -/
structure Inv (s : InputState) : Prop where
  bytes : s.queue.bytes = (s.queue.chunks.map List.length).sum
  bound : s.queue.bytes ≤ MAX_QUEUED_INPUT_BYTES
  empty : s.queue.stopped = true → s.queue.chunks = []
  aborted : s.aborted = true → s.queue.stopped = true
  queued : ∀ chunk ∈ s.queued, Writable chunk
  written : s.written <+: s.queued
  order : s.queue.stopped = false → s.OrderOk
  pending : s.PendingOk

theorem inv_new : Inv new where
  bytes := rfl
  bound := Nat.zero_le _
  empty := nofun
  aborted := nofun
  queued := fun _ h => absurd h List.not_mem_nil
  written := List.prefix_rfl
  order := fun _ => rfl
  pending := ⟨Nat.zero_le _, fun _ => rfl⟩

theorem foldl_push (cs : List (List UInt8)) (q : BoundedTerminalInput) :
    cs.foldl BoundedTerminalInput.push q =
      { q with chunks := q.chunks ++ cs, bytes := q.bytes + (cs.map List.length).sum } := by
  induction cs generalizing q with
  | nil => simp
  | cons chunk cs ih =>
    rw [List.foldl_cons, ih]
    simp [BoundedTerminalInput.push, Nat.add_assoc]

theorem sum_length_chunks (input : List UInt8) :
    ((Terminal.chunks INPUT_CHUNK_BYTES input).map List.length).sum = input.length := by
  rw [← List.length_flatten, flatten_chunks (by decide)]

/-- The input has been accepted. -/
def accept (s : InputState) (input : List UInt8) : InputState :=
  { s with
    queue := { s.queue with
      chunks := s.queue.chunks ++ Terminal.chunks INPUT_CHUNK_BYTES input
      bytes := s.queue.bytes + input.length }
    accepted := s.accepted ++ [input] }

theorem queued_accept (s : InputState) (input : List UInt8) :
    (s.accept input).queued = s.queued ++ Terminal.chunks INPUT_CHUNK_BYTES input := by
  simp [queued, accept]

/-- Input is accepted if there is room for it, and otherwise changes nothing. -/
theorem step_enqueue (s : InputState) (input : List UInt8) :
    (s.queue.enqueue input).1 = false ∧ s.step (.enqueue input) = some s ∨
      s.queue.stopped = false ∧ s.queue.bytes + input.length ≤ MAX_QUEUED_INPUT_BYTES ∧
        (s.queue.enqueue input).1 = true ∧ s.step (.enqueue input) = some (s.accept input) := by
  rw [step, BoundedTerminalInput.enqueue]
  split_ifs with hstopped hfull
  · exact .inl ⟨rfl, rfl⟩
  · exact .inl ⟨rfl, rfl⟩
  · rw [foldl_push, sum_length_chunks]
    obtain ⟨hstopped, -⟩ := not_or.1 hstopped
    exact .inr ⟨Bool.eq_false_iff.2 hstopped, Nat.le_of_not_lt hfull, rfl, rfl⟩

theorem Inv.accept (hs : Inv s) {input : List UInt8} (hstopped : s.queue.stopped = false)
    (hroom : s.queue.bytes + input.length ≤ MAX_QUEUED_INPUT_BYTES) : Inv (s.accept input) where
  bytes := by simp [InputState.accept, hs.bytes, sum_length_chunks]
  bound := hroom
  empty := fun h => nomatch hstopped.symm.trans h
  aborted := hs.aborted
  queued := by
    intro chunk hmem
    rw [queued_accept] at hmem
    rcases List.mem_append.1 hmem with hmem | hmem
    · exact hs.queued chunk hmem
    · exact of_mem_chunks (by decide) hmem
  written := by
    rw [queued_accept]
    exact hs.written.trans (List.prefix_append ..)
  order := by
    intro _
    have horder := hs.order hstopped
    rw [OrderOk] at horder ⊢
    have hflushing : (s.accept input).queue.flushing = s.queue.flushing := rfl
    rw [hflushing, queued_accept]
    cases hdrain : s.queue.flushing with
    | idle =>
      rw [hdrain] at horder
      rw [show s.queued = _ from horder, List.append_assoc]
      rfl
    | writing next =>
      rw [hdrain] at horder
      obtain ⟨rest, hchunks, hqueued⟩ := horder
      refine ⟨rest ++ Terminal.chunks INPUT_CHUNK_BYTES input, ?_, ?_⟩
      · rw [← List.cons_append, ← hchunks]
        rfl
      · rw [hqueued, List.append_assoc]
        rfl
    | ended =>
      rw [hdrain] at horder
      rw [show s.queued = _ from horder, List.append_assoc]
      rfl
  pending := hs.pending

/-- What holds when the task is between two writes. -/
structure Between (s : InputState) : Prop where
  bytes : s.queue.bytes = (s.queue.chunks.map List.length).sum
  bound : s.queue.bytes ≤ MAX_QUEUED_INPUT_BYTES
  empty : s.queue.stopped = true → s.queue.chunks = []
  aborted : s.aborted = true → s.queue.stopped = true
  queued : ∀ chunk ∈ s.queued, Writable chunk
  written : s.written <+: s.queued
  order : s.queue.stopped = false → s.queued = s.written ++ s.queue.chunks
  pending : s.pending ≤ 1
  idle : s.queue.stopped = false → s.pending = 0

theorem drain_cases (q : BoundedTerminalInput) :
    q.drain = ({ q with flushing := .ended }, none) ∧ (q.stopped = false → q.chunks = []) ∨
      ∃ next rest, q.chunks = next :: rest ∧ q.stopped = false ∧
        q.drain = ({ q with flushing := .writing next }, some next) := by
  rw [BoundedTerminalInput.drain]
  split_ifs with hstopped
  · exact .inl ⟨rfl, fun h => nomatch hstopped.symm.trans h⟩
  · split
    · next hchunks => exact .inl ⟨by rw [hchunks], fun _ => hchunks⟩
    · next next rest hchunks =>
      exact .inr ⟨next, rest, hchunks, Bool.eq_false_iff.2 hstopped, by rw [hchunks]⟩

theorem wrote_none (s : InputState) (q : BoundedTerminalInput) :
    s.wrote (q, none) = { s with queue := q } := by
  simp [wrote]

/-- The task goes on with the next chunk, or ends. -/
theorem Between.drain (hs : Between s) : Inv (s.wrote s.queue.drain) := by
  rcases drain_cases s.queue with ⟨hdrain, hempty⟩ | ⟨next, rest, hchunks, hstopped, hdrain⟩
  · rw [hdrain, wrote_none]
    exact ⟨hs.bytes, hs.bound, hs.empty, hs.aborted, hs.queued, hs.written, hs.order, hs.pending,
      hs.idle⟩
  · have hqueued : s.queued = (s.written ++ [next]) ++ rest := by
      rw [hs.order hstopped, hchunks, List.append_assoc]
      rfl
    have hpending : s.pending + 1 = 1 := congrArg (· + 1) (hs.idle hstopped)
    rw [hdrain]
    exact ⟨hs.bytes, hs.bound, hs.empty, hs.aborted, hs.queued, ⟨rest, hqueued.symm⟩,
      fun _ => ⟨rest, hchunks, hqueued⟩, hpending⟩

/-- The task is not running, or has ended. -/
theorem Inv.between (hs : Inv s) (h : ∀ next, s.queue.flushing ≠ .writing next) : Between s := by
  obtain ⟨hbytes, hbound, hempty, haborted, hqueued, hwritten, horder, hpending⟩ := hs
  rw [OrderOk] at horder
  rw [PendingOk] at hpending
  cases hdrain : s.queue.flushing with
  | writing next => exact absurd hdrain (h next)
  | idle =>
    rw [hdrain] at horder hpending
    exact ⟨hbytes, hbound, hempty, haborted, hqueued, hwritten, horder, hpending.1, hpending.2⟩
  | ended =>
    rw [hdrain] at horder hpending
    exact ⟨hbytes, hbound, hempty, haborted, hqueued, hwritten, horder, hpending.1, hpending.2⟩

/-- The task is not running, or has ended. -/
theorem Between.inv (hs : Between s) (h : ∀ next, s.queue.flushing ≠ .writing next) : Inv s := by
  refine ⟨hs.bytes, hs.bound, hs.empty, hs.aborted, hs.queued, hs.written, fun hstopped => ?_, ?_⟩
  · rw [OrderOk]
    cases hdrain : s.queue.flushing with
    | writing next => exact absurd hdrain (h next)
    | idle => exact hs.order hstopped
    | ended => exact hs.order hstopped
  · rw [PendingOk]
    cases hdrain : s.queue.flushing with
    | writing next => exact absurd hdrain (h next)
    | idle => exact ⟨hs.pending, hs.idle⟩
    | ended => exact ⟨hs.pending, hs.idle⟩

/-- The task awaits a write. -/
theorem Inv.writing (hs : Inv s) {next : List UInt8} (h : s.queue.flushing = .writing next) :
    s.pending = 1 ∧ (s.queue.stopped = false → ∃ rest, s.queue.chunks = next :: rest ∧
      s.queued = s.written ++ rest) := by
  have hpending := hs.pending
  have horder := hs.order
  rw [PendingOk, h] at hpending
  rw [OrderOk, h] at horder
  exact ⟨hpending, horder⟩

variable {q : BoundedTerminalInput} {aborted : Bool}

/-- A queue that has been stopped, with the task wherever it is. -/
theorem Inv.stopped (hs : Inv s) {pending : Nat}
    (hstopped : q.stopped = true) (hchunks : q.chunks = []) (hbytes : q.bytes = 0)
    (hpending : PendingOk ⟨q, aborted, s.accepted, s.written, pending⟩) :
    Inv ⟨q, aborted, s.accepted, s.written, pending⟩ where
  bytes := by rw [hbytes, hchunks]; rfl
  bound := by rw [hbytes]; exact Nat.zero_le _
  empty := fun _ => hchunks
  aborted := fun _ => hstopped
  queued := hs.queued
  written := hs.written
  order := fun h => nomatch hstopped.symm.trans h
  pending := hpending

/-- The task goes on after a write. -/
theorem Inv.resolved (hs : Inv s) {next : List UInt8} (h : s.queue.flushing = .writing next) :
    Inv ({ s with pending := s.pending - 1 }.wrote (s.queue.resolved s.aborted next)) := by
  obtain ⟨hpending, horder⟩ := hs.writing h
  rw [BoundedTerminalInput.resolved]
  split_ifs with hstop
  · have hstopped : s.queue.stopped = true := hstop.elim id hs.aborted
    have hbytes := hs.bytes
    rw [hs.empty hstopped] at hbytes
    rw [wrote_none, hpending]
    exact hs.stopped hstopped (hs.empty hstopped) hbytes ⟨Nat.zero_le _, fun _ => rfl⟩
  · obtain ⟨hstopped, haborted⟩ := not_or.1 hstop
    rw [Bool.not_eq_true] at hstopped
    obtain ⟨rest, hchunks, hqueued⟩ := horder hstopped
    -- The chunk that has been written is the first one of the queue.
    have hbytes : s.queue.bytes - next.length = (rest.map List.length).sum := by
      rw [hs.bytes, hchunks, List.map_cons, List.sum_cons]
      omega
    let s₁ : InputState := { s with
      queue := { s.queue with chunks := s.queue.chunks.tail, bytes := s.queue.bytes - next.length }
      pending := s.pending - 1 }
    have hbetween : Between s₁ := by
      refine ⟨?_, (Nat.sub_le ..).trans hs.bound, ?_, hs.aborted, hs.queued, hs.written, ?_, ?_, ?_⟩
      · change _ = (s.queue.chunks.tail.map List.length).sum
        rw [hchunks]
        exact hbytes
      · exact fun h => nomatch hstopped.symm.trans h
      · intro _
        change s.queued = s.written ++ s.queue.chunks.tail
        rw [hchunks]
        exact hqueued
      · change s.pending - 1 ≤ 1
        omega
      · intro _
        change s.pending - 1 = 0
        omega
    exact hbetween.drain

/-- The task ends as a write has failed, or as it is not awaited any more. -/
theorem Inv.rejected (hs : Inv s) {pending : Nat} (hpending : pending ≤ 1) :
    Inv { s with queue := s.queue.rejected s.aborted, pending := pending } := by
  rw [BoundedTerminalInput.rejected]
  split_ifs with hfails
  · exact hs.stopped rfl rfl rfl ⟨hpending, fun h => nomatch h⟩
  · have hstopped : s.queue.stopped = true := by
      by_contra hnot
      exact hfails ⟨Bool.eq_false_iff.2 fun h => hnot (hs.aborted h), Bool.eq_false_iff.2 hnot⟩
    have hbytes := hs.bytes
    rw [hs.empty hstopped] at hbytes
    exact hs.stopped hstopped (hs.empty hstopped) hbytes
      ⟨hpending, fun h => nomatch hstopped.symm.trans h⟩

/-- The queue is stopped, wherever its task is. -/
theorem Inv.stop (hs : Inv s) : Inv { s with queue := s.queue.stop, aborted := aborted } := by
  refine hs.stopped rfl rfl rfl ?_
  have hpending := hs.pending
  rw [PendingOk] at hpending ⊢
  change match s.queue.flushing with
    | .writing _ => s.pending = 1
    | _ => s.pending ≤ 1 ∧ (true = false → s.pending = 0)
  cases hdrain : s.queue.flushing with
  | writing next =>
    rw [hdrain] at hpending
    exact hpending
  | idle =>
    rw [hdrain] at hpending
    exact ⟨hpending.1, nofun⟩
  | ended =>
    rw [hdrain] at hpending
    exact ⟨hpending.1, nofun⟩

/-- Every step keeps the invariant. -/
theorem Inv.step (hs : Inv s) (h : s.step e = some s') : Inv s' := by
  cases e with
  | enqueue input =>
    rcases step_enqueue s input with ⟨-, hstep⟩ | ⟨hstopped, hroom, -, hstep⟩
    · exact Option.mem_unique hstep h ▸ hs
    · exact Option.mem_unique hstep h ▸ hs.accept hstopped hroom
  | flush =>
    obtain ⟨⟩ := h
    rw [BoundedTerminalInput.flush]
    split_ifs with hidle
    · exact (hs.between (by rw [hidle]; exact nofun)).drain
    · rw [wrote_none]
      exact hs
  | resolved =>
    rw [InputState.step] at h
    split at h
    · next next hwriting => exact Option.some.inj h ▸ hs.resolved hwriting
    · nomatch h
  | rejected =>
    rw [InputState.step] at h
    split at h
    · next next hwriting =>
      obtain ⟨hpending, -⟩ := hs.writing hwriting
      rw [hpending] at h
      exact Option.some.inj h ▸ hs.rejected (Nat.zero_le _)
    · nomatch h
  | cancelled =>
    rw [InputState.step] at h
    split at h
    · next next hwriting haborted =>
      obtain ⟨hpending, -⟩ := hs.writing hwriting
      exact Option.some.inj h ▸ hs.rejected hpending.le
    · nomatch h
  | settled =>
    rw [InputState.step] at h
    split at h
    · nomatch h
    · next hnot =>
      split_ifs at h
      obtain ⟨⟩ := h
      have hs := hs.between hnot
      refine Between.inv ⟨hs.bytes, hs.bound, hs.empty, hs.aborted, hs.queued, hs.written, hs.order,
        (Nat.sub_le ..).trans hs.pending, fun hstopped => ?_⟩ hnot
      change s.pending - 1 = 0
      rw [hs.idle hstopped]
  | stop => exact Option.some.inj h ▸ hs.stop
  | abort => exact Option.some.inj h ▸ hs.stop
  | finished =>
    rw [InputState.step] at h
    split_ifs at h with hended
    obtain ⟨⟩ := h
    have hs := hs.between (by rw [hended]; exact nofun)
    exact Between.inv ⟨hs.bytes, hs.bound, hs.empty, hs.aborted, hs.queued, hs.written, hs.order,
      hs.pending, hs.idle⟩ fun next => nofun

theorem drain_stopped (h : q.stopped = true) :
    q.drain = ({ q with flushing := .ended }, none) := if_pos h

theorem stopped_rejected
    (h : aborted = true → q.stopped = true) : (q.rejected aborted).stopped = true := by
  rw [BoundedTerminalInput.rejected]
  split_ifs with hfails
  · rfl
  · by_contra hnot
    have hstopped : ¬q.stopped = true := hnot
    exact hfails ⟨Bool.eq_false_iff.2 fun ha => hstopped (h ha), Bool.eq_false_iff.2 hstopped⟩

/-- Nothing is written once the queue has been stopped. -/
theorem step_stopped (hstopped : s.queue.stopped = true) (h : s.step e = some s') :
    s'.queue.stopped = true ∧ s'.written = s.written := by
  cases e with
  | enqueue input =>
    rcases step_enqueue s input with ⟨-, hstep⟩ | ⟨hopen, -⟩
    · obtain rfl := Option.mem_unique hstep h
      exact ⟨hstopped, rfl⟩
    · nomatch hstopped.symm.trans hopen
  | flush =>
    obtain ⟨⟩ := h
    rw [BoundedTerminalInput.flush]
    split_ifs
    · rw [drain_stopped hstopped, wrote_none]
      exact ⟨hstopped, rfl⟩
    · rw [wrote_none]
      exact ⟨hstopped, rfl⟩
  | resolved =>
    rw [InputState.step] at h
    split at h
    · rw [BoundedTerminalInput.resolved, if_pos (.inl hstopped), wrote_none] at h
      obtain ⟨⟩ := h
      exact ⟨hstopped, rfl⟩
    · nomatch h
  | rejected =>
    rw [InputState.step] at h
    split at h
    · obtain ⟨⟩ := h
      exact ⟨stopped_rejected fun _ => hstopped, rfl⟩
    · nomatch h
  | cancelled =>
    rw [InputState.step] at h
    split at h
    · obtain ⟨⟩ := h
      exact ⟨stopped_rejected fun _ => hstopped, rfl⟩
    · nomatch h
  | settled =>
    rw [InputState.step] at h
    split at h
    · nomatch h
    · split_ifs at h
      obtain ⟨⟩ := h
      exact ⟨hstopped, rfl⟩
  | stop =>
    obtain ⟨⟩ := h
    exact ⟨rfl, rfl⟩
  | abort =>
    obtain ⟨⟩ := h
    exact ⟨rfl, rfl⟩
  | finished =>
    rw [InputState.step] at h
    split_ifs at h
    obtain ⟨⟩ := h
    exact ⟨hstopped, rfl⟩

/-- A write has failed, or the queue has been stopped. -/
def Ends : InputEvent → Prop
  | .rejected | .stop | .abort => True
  | _ => False

theorem stopped_of_ends (hs : Inv s) (he : Ends e) (h : s.step e = some s') :
    s'.queue.stopped = true := by
  cases e with
  | rejected =>
    rw [InputState.step] at h
    split at h
    · obtain ⟨⟩ := h
      exact stopped_rejected hs.aborted
    · nomatch h
  | stop =>
    obtain ⟨⟩ := h
    rfl
  | abort =>
    obtain ⟨⟩ := h
    rfl
  | enqueue input => exact absurd he id
  | flush => exact absurd he id
  | resolved => exact absurd he id
  | cancelled => exact absurd he id
  | settled => exact absurd he id
  | finished => exact absurd he id

/-! ## Runs -/

theorem inv_of_run (h : machine.Run es s) : Inv s := by
  refine h.invariant (fun s hs => ?_) fun s e s' hs hstep => hs.step hstep
  rw [show s = new from hs]
  exact inv_new

/-- The queue has been stopped in a run that has ended all writing. -/
theorem stopped_of_run (h : machine.Run es s) (he : ∃ e ∈ es, Ends e) : s.queue.stopped = true := by
  induction h using Machine.Run.induction with
  | init s hs =>
    obtain ⟨e, hmem, -⟩ := he
    exact absurd hmem List.not_mem_nil
  | snoc es s e s' h hstep ih =>
    obtain ⟨e', hmem, hends⟩ := he
    rcases mem_snoc.1 hmem with hmem | rfl
    · exact (step_stopped (ih ⟨e', hmem, hends⟩) hstep).1
    · exact stopped_of_ends (inv_of_run h) hends hstep

/-- Nothing is written any more. -/
theorem written_of_path (h : machine.Path s es s') (hstopped : s.queue.stopped = true) :
    s'.written = s.written := by
  induction h with
  | nil => rfl
  | cons hstep _ ih =>
    obtain ⟨hstopped, hwritten⟩ := step_stopped hstopped hstep
    exact (ih hstopped).trans hwritten

/-- What is written to a terminal. -/
structure Safety (es : List InputEvent) (s : InputState) : Prop where
  /-- The input is written in the order it was accepted in. -/
  order : s.written.flatten <+: s.accepted.flatten
  /-- Every chunk is written once at most. -/
  once : s.written <+: s.accepted.flatMap (Terminal.chunks INPUT_CHUNK_BYTES)
  /-- One chunk is written at a time. -/
  single : s.pending ≤ 1
  size : ∀ chunk ∈ s.written, 1 ≤ chunk.length ∧ chunk.length ≤ 16384
  bytes : s.queue.bytes = (s.queue.chunks.map List.length).sum
  bound : s.queue.bytes ≤ 262144
  /-- Input that is not accepted changes nothing. -/
  refused : ∀ input, (s.queue.enqueue input).1 = false →
    (s.queue.enqueue input).2 = s.queue ∧ s.step (.enqueue input) = some s
  /-- Nothing is written after a write has failed, or the queue has been stopped. -/
  ended : (∃ e ∈ es, Ends e) → ∀ es' s', machine.Path s es' s' → s'.written = s.written
  /-- The terminal manager accepts every chunk. -/
  encoded : ∀ chunk ∈ s.written, decodeInput (bytesToBase64 chunk) = .ok chunk

theorem Inv.pending_le (hs : Inv s) : s.pending ≤ 1 := by
  by_cases h : ∃ next, s.queue.flushing = .writing next
  · obtain ⟨next, h⟩ := h
    exact (hs.writing h).1.le
  · exact (hs.between fun next hnext => h ⟨next, hnext⟩).pending

theorem refused_enqueue {input : List UInt8} (h : (s.queue.enqueue input).1 = false) :
    (s.queue.enqueue input).2 = s.queue := by
  rw [BoundedTerminalInput.enqueue] at h ⊢
  split_ifs at h ⊢
  · rfl
  · rfl

theorem flatten_queued (s : InputState) : s.queued.flatten = s.accepted.flatten := by
  rw [queued]
  induction s.accepted with
  | nil => rfl
  | cons input accepted ih =>
    rw [List.flatMap_cons, List.flatten_append, flatten_chunks (by decide), ih, List.flatten_cons]

/-- What is written, and what is left in the queue, whatever happens in whatever order. -/
theorem input_of_run (h : machine.Run es s) : Safety es s := by
  have hs := inv_of_run h
  have hwritable : ∀ chunk ∈ s.written, Writable chunk :=
    fun chunk hmem => hs.queued chunk (hs.written.subset hmem)
  refine ⟨?_, hs.written, hs.pending_le, fun chunk hmem => ?_, hs.bytes, hs.bound,
    fun input hrefused => ⟨refused_enqueue hrefused, ?_⟩,
    fun hends es' s' hpath => written_of_path hpath (stopped_of_run h hends), fun chunk hmem => ?_⟩
  · obtain ⟨rest, hrest⟩ := hs.written
    refine ⟨rest.flatten, ?_⟩
    rw [← List.flatten_append, hrest, flatten_queued]
  · obtain ⟨hne, hlength⟩ := hwritable chunk hmem
    exact ⟨List.length_pos_iff.2 hne, hlength⟩
  · rcases step_enqueue s input with ⟨-, hstep⟩ | ⟨-, -, haccepted, -⟩
    · exact hstep
    · nomatch hrefused.symm.trans haccepted
  · obtain ⟨hne, hlength⟩ := hwritable chunk hmem
    rw [bytesToBase64, flatten_chunks (by decide)]
    exact decodeInput_encode hne hlength

/-- Some input is typed while another one is being written. -/
def typed : List InputEvent := [.enqueue [108], .flush, .enqueue [115], .resolved]

theorem input_typed : ∃ s, machine.Run typed s ∧ s.written = [[108], [115]] ∧ s.pending = 1 ∧
    Safety typed s := by
  have h : machine.Run typed ⟨⟨[[115]], 1, false, false, .writing [115]⟩, false, [[108], [115]],
      [[108], [115]], 1⟩ :=
    ⟨new, rfl, .cons rfl (.cons rfl (.cons rfl (.cons rfl (.nil _))))⟩
  exact ⟨_, h, rfl, rfl, input_of_run h⟩

end InputState

end NexusOps.Desktop
