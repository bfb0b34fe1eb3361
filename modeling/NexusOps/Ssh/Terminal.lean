import NexusOps.Ssh.SystemdDispatch
import NexusOps.Terminal.Safety

/-!
# Terminals over SSH

A terminal over SSH is a channel. It is opened once the server has confirmed a PTY and a
shell; the output that arrives before is kept (`openTerminal`). Then the messages of the
channel are read one by one (`TerminalReader.read`).

The channel counts as closed as soon as the server reports how the shell has ended, also
if there is output after that. `delivered_eq_payloads_iff`: a terminal that ends by itself
delivers all of its output if, and only if, no output comes after that report.

The loss of the transport is reported by an error that the manager does not take for the loss
of a connection. `transportLoss_disconnects_iff`: once it is processed, the terminal has failed,
and is not disconnected.
-/

namespace NexusOps.Ssh

open Concurrency Terminal TerminalManager

/-! ## Startup -/

def STARTUP_OUTPUT_LIMIT : Nat := 64 * 1024

/-- The session is gone. -/
def terminalUnavailable : AppError :=
  .new .terminalUnavailable "The SSH session is unavailable. Reconnect and open a new terminal."

/-- An operation of a terminal has failed. -/
def terminalFailure (code : ErrorCode) (message : String) : AppError := .new code message

/-- The error of a request that no message has answered. -/
def Cut.startupError (code : ErrorCode) (message : String) : Cut → AppError
  | execError => terminalFailure code message
  | endOfStream => terminalFailure code message
  | cancellation => .new .cancelled "The SSH operation was cancelled."
  | transportLoss => terminalUnavailable
  | timeout => .new .terminalStartup "The server did not confirm terminal startup in time."

/-- The output that has arrived during startup. -/
structure Pending where
  pending : List (List UInt8)
  pendingBytes : Nat

/-- Waits for the reply to a request. The output that arrives meanwhile is kept, up to a
    limit. -/
def waitForRequestReply (code : ErrorCode) (message : String) (cut : Cut) :
    List ChannelMsg → Pending → Except AppError (Pending × List ChannelMsg)
  | [], _ => .error (cut.startupError code message)
  | msg :: rest, p =>
    let keep (data : List UInt8) : Except AppError (Pending × List ChannelMsg) :=
      let pendingBytes := saturatingAdd p.pendingBytes data.length
      if STARTUP_OUTPUT_LIMIT < pendingBytes then
        .error (terminalFailure .terminalStartup
          "Terminal startup output exceeded the 64 KiB limit.")
      else waitForRequestReply code message cut rest ⟨p.pending ++ [data], pendingBytes⟩
    match msg with
    | .success => .ok (p, rest)
    | .failure => .error (terminalFailure code message)
    | .close => .error (terminalFailure code message)
    | .data data => keep data
    | .extendedData data => keep data
    | _ => waitForRequestReply code message cut rest p

/-- The part of a channel that is read. -/
structure TerminalReader where
  channel : List ChannelMsg
  pending : List (List UInt8)

/-- Opens a terminal on a channel with these messages. The cuts are of the requests for a
    PTY and for a shell. -/
def openTerminal (pty shell : Cut) (messages : List ChannelMsg) :
    Except AppError TerminalReader := do
  let (p, rest) ← waitForRequestReply .terminalPty
    "The server rejected the terminal PTY allocation." pty (pty.processed messages) ⟨[], 0⟩
  let (p, rest) ← waitForRequestReply .terminalShell
    "The server rejected the interactive shell request." shell (shell.processed rest) p
  return ⟨rest, p.pending⟩

/-! ## Reading -/

/-- The next result of a channel. It may be that the transport is lost when there are no
    more messages. -/
def readChannel (lost : Bool) :
    List ChannelMsg → Except AppError TerminalRead × List ChannelMsg
  | [] => (if lost then .error terminalUnavailable else .ok .closed, [])
  | msg :: rest => match msg with
    | .data data => (.ok (.data data), rest)
    | .extendedData data => (.ok (.data data), rest)
    | .exitStatus exitStatus => (.ok (.exit exitStatus), rest)
    | .exitSignal => (.ok .closed, rest)
    | .eof => (.ok .closed, rest)
    | .close => (.ok .closed, rest)
    | .failure =>
      (.error (terminalFailure .terminalChannel "The remote terminal channel failed."), rest)
    | _ => readChannel lost rest

namespace TerminalReader

/-- The next result of a terminal, and whether it has been closed by this side. -/
def read (closed lost : Bool) (reader : TerminalReader) :
    Except AppError TerminalRead × TerminalReader :=
  if closed then (.ok .closed, reader)
  else match reader.pending with
    | data :: pending => (.ok (.data data), { reader with pending := pending })
    | [] =>
      let (r, rest) := readChannel lost reader.channel
      (r, { reader with channel := rest })

/-- The first `n` results of a terminal that is not closed by this side. -/
def firstReads (lost : Bool) : Nat → TerminalReader → List (Except AppError TerminalRead)
  | 0, _ => []
  | n + 1, reader =>
    let (r, reader) := reader.read false lost
    r :: firstReads lost n reader

end TerminalReader

/-! ## Output -/

namespace ChannelMsg

/-- The output of a message. -/
def payload : ChannelMsg → List UInt8
  | data bytes => bytes
  | extendedData bytes => bytes
  | _ => []

/-- After this message, the channel counts as closed. -/
def isEnd : ChannelMsg → Bool
  | exitStatus _ => true
  | exitSignal => true
  | eof => true
  | close => true
  | failure => true
  | _ => false

end ChannelMsg

/-- The output of a list of messages. -/
def payloads (messages : List ChannelMsg) : List UInt8 := messages.flatMap ChannelMsg.payload

/-- The messages before the channel counts as closed. -/
def beforeEnd (messages : List ChannelMsg) : List ChannelMsg :=
  messages.takeWhile fun msg => !msg.isEnd

/-- The messages since the channel counts as closed. -/
def afterEnd (messages : List ChannelMsg) : List ChannelMsg :=
  messages.dropWhile fun msg => !msg.isEnd

section

variable {messages channel rest : List ChannelMsg} {msg : ChannelMsg}

theorem payloads_cons : payloads (msg :: rest) = msg.payload ++ payloads rest :=
  List.flatMap_cons

theorem payloads_eq_append (messages : List ChannelMsg) :
    payloads messages = payloads (beforeEnd messages) ++ payloads (afterEnd messages) := by
  rw [payloads, payloads, payloads, ← List.flatMap_append, beforeEnd, afterEnd,
    List.takeWhile_append_dropWhile]

theorem payloads_beforeEnd_of_isEnd (h : msg.isEnd = true) :
    payloads (beforeEnd (msg :: rest)) = [] := by
  rw [beforeEnd, List.takeWhile_cons_of_neg (by simp [h])]
  rfl

theorem payloads_beforeEnd_cons (h : msg.isEnd = false) :
    payloads (beforeEnd (msg :: rest)) = msg.payload ++ payloads (beforeEnd rest) := by
  rw [beforeEnd, List.takeWhile_cons_of_pos (by simp [h]), payloads_cons]
  rfl

/-- The output that arrives during startup is kept. -/
theorem payloads_of_waitForRequestReply {code : ErrorCode} {message : String} {cut : Cut}
    {p p' : Pending} (h : waitForRequestReply code message cut messages p = .ok (p', rest)) :
    p'.pending.flatten ++ payloads rest = p.pending.flatten ++ payloads messages := by
  induction messages generalizing p with
  | nil => nomatch h
  | cons msg messages ih =>
    have hkeep : ∀ data, msg.payload = data → (if STARTUP_OUTPUT_LIMIT <
          saturatingAdd p.pendingBytes data.length then
          Except.error (terminalFailure .terminalStartup
            "Terminal startup output exceeded the 64 KiB limit.")
        else waitForRequestReply code message cut messages ⟨p.pending ++ [data],
          saturatingAdd p.pendingBytes data.length⟩) = .ok (p', rest) →
        p'.pending.flatten ++ payloads rest = p.pending.flatten ++ payloads (msg :: messages) := by
      intro data hdata h
      split_ifs at h
      rw [ih h, payloads_cons, hdata, List.flatten_append, List.flatten_singleton,
        List.append_assoc]
    cases msg with
    | success =>
      obtain ⟨⟩ := h
      rfl
    | failure => nomatch h
    | close => nomatch h
    | data data => exact hkeep data rfl h
    | extendedData data => exact hkeep data rfl h
    | exitStatus => exact ih h
    | exitSignal => exact ih h
    | eof => exact ih h
    | windowAdjusted => exact ih h
    | other => exact ih h

theorem payloads_processed {cut : Cut} {code : ErrorCode} {message : String} {p p' : Pending}
    (h : waitForRequestReply code message cut (cut.processed messages) p = .ok (p', rest)) :
    p'.pending.flatten ++ payloads rest = p.pending.flatten ++ payloads messages := by
  cases cut with
  | execError => nomatch h
  | endOfStream => exact payloads_of_waitForRequestReply h
  | cancellation => exact payloads_of_waitForRequestReply h
  | transportLoss => exact payloads_of_waitForRequestReply h
  | timeout => exact payloads_of_waitForRequestReply h

/-- A terminal that has been opened still has all of its output. -/
theorem payloads_of_openTerminal {pty shell : Cut} {reader : TerminalReader}
    (h : openTerminal pty shell messages = .ok reader) :
    reader.pending.flatten ++ payloads reader.channel = payloads messages := by
  rw [openTerminal] at h
  rcases hpty : waitForRequestReply .terminalPty
    "The server rejected the terminal PTY allocation." pty (pty.processed messages)
    ⟨[], 0⟩ with error | ⟨p, rest⟩
  · rw [hpty] at h
    nomatch h
  rw [hpty] at h
  rcases hshell : waitForRequestReply .terminalShell
    "The server rejected the interactive shell request." shell (shell.processed rest)
    p with error | ⟨p', rest'⟩
  · simp only [bind, Except.bind, hshell] at h
    nomatch h
  simp only [bind, Except.bind, hshell] at h
  obtain ⟨⟩ := h
  exact (payloads_processed hshell).trans (payloads_processed hpty)

/-- A result is the next output, unless there is no more of it. -/
theorem readChannel_cases (lost : Bool) (channel : List ChannelMsg) :
    (∃ data, (readChannel lost channel).1 = .ok (.data data) ∧ payloads (beforeEnd channel) =
      data ++ payloads (beforeEnd (readChannel lost channel).2)) ∨
    ¬IsData (readChannel lost channel).1 ∧ payloads (beforeEnd channel) = [] := by
  induction channel with
  | nil =>
    refine .inr ⟨?_, rfl⟩
    rintro ⟨data, hdata⟩
    cases lost <;> nomatch hdata
  | cons msg rest ih =>
    cases msg with
    | data data => exact .inl ⟨data, rfl, payloads_beforeEnd_cons rfl⟩
    | extendedData data => exact .inl ⟨data, rfl, payloads_beforeEnd_cons rfl⟩
    | exitStatus => exact .inr ⟨nofun, payloads_beforeEnd_of_isEnd rfl⟩
    | exitSignal => exact .inr ⟨nofun, payloads_beforeEnd_of_isEnd rfl⟩
    | eof => exact .inr ⟨nofun, payloads_beforeEnd_of_isEnd rfl⟩
    | close => exact .inr ⟨nofun, payloads_beforeEnd_of_isEnd rfl⟩
    | failure => exact .inr ⟨nofun, payloads_beforeEnd_of_isEnd rfl⟩
    | success => rwa [payloads_beforeEnd_cons rfl]
    | windowAdjusted => rwa [payloads_beforeEnd_cons rfl]
    | other => rwa [payloads_beforeEnd_cons rfl]

/-- What remains when the first result is left out. -/
theorem ended_cons {r : Except AppError TerminalRead} {rs : List (Except AppError TerminalRead)}
    (h : Ended (r :: rs)) : IsData r ∧ Ended rs ∨ ¬IsData r := by
  obtain ⟨rs', r', heq, hrs', hr'⟩ := h
  cases rs' with
  | nil =>
    obtain ⟨rfl, rfl⟩ := List.cons.inj heq
    exact .inr hr'
  | cons r'' rs' =>
    obtain ⟨rfl, rfl⟩ := List.cons.inj heq
    exact .inl ⟨hrs' r List.mem_cons_self, rs', r', rfl, fun r h => hrs' r (List.mem_cons_of_mem _ h),
      hr'⟩

theorem dataOf_cons_of_not {r : Except AppError TerminalRead}
    {rs : List (Except AppError TerminalRead)} (h : ¬IsData r) : dataOf (r :: rs) = [] := by
  rcases r with error | data | status | _
  · rfl
  · exact absurd ⟨data, rfl⟩ h
  · rfl
  · rfl

/-- What is read until the terminal ends is the output before its end. -/
theorem dataOf_firstReads {lost : Bool} {n : Nat} {reader : TerminalReader}
    (h : Ended (reader.firstReads lost n)) : dataOf (reader.firstReads lost n) =
      reader.pending.flatten ++ payloads (beforeEnd reader.channel) := by
  induction n generalizing reader with
  | zero =>
    obtain ⟨rs, r, heq, -⟩ := h
    exact absurd heq (by simp [TerminalReader.firstReads])
  | succ n ih =>
    obtain ⟨channel, pending⟩ := reader
    cases pending with
    | cons data pending =>
      obtain ⟨-, h⟩ | h := ended_cons h
      · have hdata := ih h
        rw [List.flatten_cons, List.append_assoc, ← hdata]
        rfl
      · exact absurd ⟨data, rfl⟩ h
    | nil =>
      have hfirst : TerminalReader.firstReads lost (n + 1) ⟨channel, []⟩ =
          (readChannel lost channel).1 ::
            TerminalReader.firstReads lost n ⟨(readChannel lost channel).2, []⟩ := rfl
      rw [hfirst] at h ⊢
      rcases readChannel_cases lost channel with ⟨data, hdata, hpayloads⟩ | ⟨hend, hpayloads⟩
      · obtain ⟨-, hrest⟩ | hend := ended_cons h
        · rw [hdata, dataOf, ih hrest, hpayloads]
          rfl
        · exact absurd ⟨data, hdata⟩ hend
      · rw [dataOf_cons_of_not hend, hpayloads]
        rfl

end

/-! ## A terminal that ends by itself -/

section

variable {calls : TaskId → TerminalRequest} {ls : List (Label TerminalTask)}
  {c : Config TerminalTask TerminalManager} {e : EntryId} {pty shell : Cut} {lost : Bool}
  {messages : List ChannelMsg} {reader : TerminalReader} {n : Nat}

/-- In every run, a terminal that is drained without being closed has delivered all output
    of its channel if, and only if, there is none since the first report of how the shell
    has ended. -/
theorem delivered_eq_payloads_iff (h : (system calls).machine.Run ls c)
    (hstartup : openTerminal pty shell messages = .ok reader) (hopened : .opened e ∈ c.shared.log)
    (hreads : reads c.shared.log e = reader.firstReads lost n) (hc : .closing e ∉ c.shared.log)
    (hdrained : Drained c.shared.log e) :
    delivered c.shared.log e = payloads messages ↔ payloads (afterEnd reader.channel) = [] := by
  have hi : c.shared.Inv := ((sound_protocol calls).of_run h).inv
  obtain ⟨x, hx⟩ : ∃ x, c.shared.entries e = some x :=
    Option.ne_none_iff_exists'.1 (hi.known _ hopened)
  have hok := hi.entry e x hx
  have hended := (hok.ended hc (hok.drained hdrained).1).2.2 hopened
  rw [hreads] at hended
  rw [hi.delivered_eq hx hc hdrained, received, hreads, dataOf_firstReads hended,
    ← payloads_of_openTerminal hstartup, payloads_eq_append reader.channel]
  simp

/-- The messages of a terminal whose last output arrives before the exit status. -/
def orderlyMessages : List ChannelMsg :=
  [.success, .success, .data [104, 105], .exitStatus 0, .eof, .close]

theorem delivered_orderly : ∃ ls c, (system TerminalManager.pollCalls).machine.Run ls c ∧
    Drained c.shared.log ⟨1⟩ ∧ delivered c.shared.log ⟨1⟩ = payloads orderlyMessages := by
  obtain ⟨ls, c, x, h, hx, hc, hopened, hreads, hdrained⟩ := exists_run_drained
  have hstartup : openTerminal .endOfStream .endOfStream orderlyMessages =
      .ok ⟨[.data [104, 105], .exitStatus 0, .eof, .close], []⟩ := rfl
  have hfirst : reads c.shared.log ⟨1⟩ = TerminalReader.firstReads false 2
      ⟨[.data [104, 105], .exitStatus 0, .eof, .close], []⟩ := hreads
  exact ⟨ls, c, h, hdrained,
    (delivered_eq_payloads_iff h hstartup hopened hfirst hc hdrained).2 rfl⟩

/-- The messages of a terminal whose last output arrives after the exit status. -/
def overtakenMessages : List ChannelMsg :=
  [.success, .success, .data [104, 105], .exitStatus 0, .data [106], .close]

/-- Output that arrives after the exit status is lost. -/
theorem delivered_overtaken : ∃ ls c reader, (system TerminalManager.pollCalls).machine.Run ls c ∧
    openTerminal .endOfStream .endOfStream overtakenMessages = .ok reader ∧
    .opened ⟨1⟩ ∈ c.shared.log ∧ .closing ⟨1⟩ ∉ c.shared.log ∧
    reads c.shared.log ⟨1⟩ = reader.firstReads false 2 ∧ Drained c.shared.log ⟨1⟩ ∧
    delivered c.shared.log ⟨1⟩ = [104, 105] ∧ payloads overtakenMessages = [104, 105, 106] := by
  obtain ⟨ls, c, x, h, hx, hc, hopened, hreads, hdrained⟩ := exists_run_drained
  have hi : c.shared.Inv := ((sound_protocol _).of_run h).inv
  refine ⟨ls, c, _, h, rfl, hopened, hc, hreads, hdrained, ?_, rfl⟩
  rw [hi.delivered_eq hx hc hdrained, received, hreads]
  rfl

/-! ## Loss of the transport -/

/-- Unless the channel has ended before, the loss of the transport is what is read at last. -/
theorem readChannel_lost {channel : List ChannelMsg} (h : ∀ msg ∈ channel, msg.isEnd = false) :
    (IsData (readChannel true channel).1 ∨
      (readChannel true channel).1 = .error terminalUnavailable) ∧
    ∀ msg ∈ (readChannel true channel).2, msg.isEnd = false := by
  induction channel with
  | nil => exact ⟨.inr rfl, nofun⟩
  | cons msg rest ih =>
    obtain ⟨hmsg, hrest⟩ := List.forall_mem_cons.1 h
    cases msg with
    | data data => exact ⟨.inl ⟨data, rfl⟩, hrest⟩
    | extendedData data => exact ⟨.inl ⟨data, rfl⟩, hrest⟩
    | success => exact ih hrest
    | windowAdjusted => exact ih hrest
    | other => exact ih hrest
    | exitStatus => nomatch hmsg
    | exitSignal => nomatch hmsg
    | eof => nomatch hmsg
    | close => nomatch hmsg
    | failure => nomatch hmsg

theorem firstReads_lost (h : ∀ msg ∈ reader.channel, msg.isEnd = false) :
    ∀ r ∈ reader.firstReads true n, IsData r ∨ r = .error terminalUnavailable := by
  induction n generalizing reader with
  | zero => exact nofun
  | succ n ih =>
    obtain ⟨channel, pending⟩ := reader
    refine List.forall_mem_cons.2 ?_
    cases pending with
    | cons data pending => exact ⟨.inl ⟨data, rfl⟩, ih h⟩
    | nil =>
      obtain ⟨hread, hrest⟩ := readChannel_lost h
      exact ⟨hread, ih hrest⟩

variable {x : Entry}

/-- In every run, a terminal that is not closed and whose transport is lost before its channel
    has ended is reported as disconnected, if at all, only as long as it is open: it fails. -/
theorem transportLoss_disconnects_iff (h : (system calls).machine.Run ls c)
    (hx : c.shared.entries e = some x) (hopened : .opened e ∈ c.shared.log)
    (hc : .closing e ∉ c.shared.log) (hend : ∀ msg ∈ reader.channel, msg.isEnd = false)
    (hreads : reads c.shared.log e = reader.firstReads true n) :
    ((x.view.state ≠ .open → x.view.state = .disconnected) ↔ x.view.state = .open) ∧
      (x.view.state ≠ .open → x.view.state = .failed) := by
  have hi : c.shared.Inv := ((sound_protocol calls).of_run h).inv
  have hfailed : x.view.state ≠ .open → x.view.state = .failed := by
    intro hne
    obtain ⟨r, hr, hdata, hstate⟩ := ((hi.entry e x hx).outcome hc hopened).resolve_left hne
    obtain rfl := (firstReads_lost hend r (hreads ▸ hr)).resolve_left hdata
    exact hstate
  refine ⟨⟨fun hdisconnected => ?_, fun hopen hne => absurd hopen hne⟩, hfailed⟩
  by_contra hne
  nomatch (hfailed hne).symm.trans (hdisconnected hne)

/-- The transport is lost as soon as the terminal is open. -/
theorem exists_run_lost : ∃ ls c x, (system TerminalManager.pollCalls).machine.Run ls c ∧
    c.shared.entries ⟨1⟩ = some x ∧ .opened ⟨1⟩ ∈ c.shared.log ∧ .closing ⟨1⟩ ∉ c.shared.log ∧
    reads c.shared.log ⟨1⟩ = TerminalReader.firstReads true 1 ⟨[], []⟩ ∧
    x.view.state = .failed := by
  have h : (system pollCalls).machine.Run [] ⟨fun _ => none, .new⟩ :=
    .nil ⟨rfl, fun _ => rfl⟩
  obtain ⟨_, h⟩ := System.run_task h (.call ⟨0⟩) rfl rfl (.answer (⟨1⟩ : TerminalSessionId) <|
    .answer (⟨1⟩ : EntryId) <| .act rfl <| .answer 1 <| .act rfl <|
    .answer (some (some (.ok () : Except AppError Unit))) <| .act rfl <| .answer (some ()) <|
    .act rfl <| .act rfl <| .act rfl <| .refl)
  obtain ⟨_, h⟩ := System.run_task h (.pump ⟨1⟩) rfl rfl
    (.act rfl <| .answer 1 <| .answer 1 <| .act rfl <|
    .answer (some (.error terminalUnavailable : Except AppError TerminalRead)) <| .act rfl <|
    .act rfl <| .refl)
  exact ⟨_, _, _, h, rfl, by decide +kernel, by decide +kernel, by decide +kernel, rfl⟩

/-- A terminal whose transport is lost is not reported as disconnected. -/
theorem transportLoss_fails : ∃ ls c x, (system TerminalManager.pollCalls).machine.Run ls c ∧
    c.shared.entries ⟨1⟩ = some x ∧ .closing ⟨1⟩ ∉ c.shared.log ∧
    reads c.shared.log ⟨1⟩ = TerminalReader.firstReads true 1 ⟨[], []⟩ ∧
    x.view.state = .failed ∧ x.view.state ≠ .disconnected := by
  obtain ⟨ls, c, x, h, hx, -, hc, hreads, hstate⟩ := exists_run_lost
  exact ⟨ls, c, x, h, hx, hc, hreads, hstate, hstate ▸ nofun⟩

theorem transportLoss_processed : ∃ ls c x, (system TerminalManager.pollCalls).machine.Run ls c ∧
    c.shared.entries ⟨1⟩ = some x ∧
    ((x.view.state ≠ .open → x.view.state = .disconnected) ↔ x.view.state = .open) := by
  obtain ⟨ls, c, x, h, hx, hopened, hc, hreads, -⟩ := exists_run_lost
  exact ⟨ls, c, x, h, hx, (transportLoss_disconnects_iff h hx hopened hc (by simp) hreads).1⟩

end

end NexusOps.Ssh
