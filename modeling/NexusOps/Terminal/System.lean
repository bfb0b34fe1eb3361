import NexusOps.Terminal.Manager

/-!
# The calls of the terminal manager

Terminals are opened (`openWithTimeout`), polled and closed: one at a time (`close`), all of
a connection (`disconnectConnection`), of a host (`removeHost`), or all there are
(`shutdown`). A call that opens a terminal may be dropped at any time; what it leaves behind
is up to its guard (`StartupGuard.drop`).
-/

namespace NexusOps.Terminal

open Concurrency

/-! ## Opening a terminal -/

/-- There are too many terminals. -/
def tooManyTerminals : AppError :=
  .new .conflict "This host already has the maximum of eight terminal sessions."

/-- The terminal was cancelled before it was open. -/
def creationCancelled : AppError := .new .cancelled "Terminal creation was cancelled."

namespace TerminalManager

/-- The terminals of a host that have not ended. -/
def openCount (s : TerminalManager) (host : HostId) : Nat :=
  s.sessions.count fun _ e => (s.entries e).any fun x =>
    x.view.hostId = host ∧ x.view.state ∉ [.closed, .failed, .disconnected]

/-- Lists a new terminal, with an id that has not been used before. -/
def insertEntry (i : TerminalTask) (host : HostId) (session : HostSessionId) (size : TerminalSize)
    (id : TerminalSessionId) (e : EntryId) (s : TerminalManager) :
    Option (Except (Exit AppError) Unit × TerminalManager) :=
  if MAX_OPEN_TERMINALS_PER_HOST ≤ s.openCount host then some (.error (.error tooManyTerminals), s)
  else if id ∉ s.ids ∧ s.entries e = none then
    let number := min ((s.nextLabel.get host).getD 0 + 1) (2 ^ 32 - 1)
    let view : TerminalSession :=
      ⟨id, host, session, "Terminal " ++ toString number, .creating, size, none⟩
    some (.ok (), { s with
      sessions := s.sessions.insert id e
      nextLabel := s.nextLabel.insert host number
      entries := Function.update s.entries e
        (some ⟨view, false, none, [], some i, none, none, false, [], []⟩)
      ids := insert id s.ids })
  else none

/-- No longer lists a terminal. -/
def forget (s : TerminalManager) (id : TerminalSessionId) : TerminalManager :=
  { s with sessions := s.sessions.remove id }

end TerminalManager

section

variable (t : TaskId) (id : TerminalSessionId) (e : EntryId)

/-- What is done when a call is dropped before the terminal is open. The terminal is only
    removed if the manager is not locked. -/
def StartupGuard.drop : Proc TerminalManager Unit := do
  change e fun x => { x with cancelled := true }
  change e fun x =>
    if x.view.state = .creating then x.failWith creationCancelled .disconnected else x
  if ← .ask Bool then
    .modify (·.forget id)

/-- Awaits something, unless the call is dropped. -/
def awaitStartup (β : Type) : TerminalCall β := .await (StartupGuard.drop id e) β

/-- Ends the call with a failure, unless the terminal was closed meanwhile. -/
def failStartup (error : AppError) : TerminalCall TerminalSession := do
  let state ← .lift (look e (·.view.state))
  .lift (change e fun x => { x with cancelled := true })
  if state = .creating then
    .lift (change e (·.failWith error
      (if error.code = .cancelled then .disconnected else .failed)))
    awaitStartup id e Unit
    .lift (.modify (·.forget id))
  .fail error

/-- Opens the terminal, unless it was closed meanwhile. -/
def acceptChannel : Proc TerminalManager Bool :=
  .act fun s => (s.entries e).bind fun x =>
    if x.channelLock ≠ none then none
    else if x.cancelled = true ∨ x.view.state ≠ .creating then some (false, s)
    else some (true, (s.setEntry e { x.setState .open with channel := true }).record (.opened e))

/-- The terminal has a channel. -/
def startTerminal : TerminalCall TerminalSession := do
  awaitStartup id e Unit
  if ← .lift (acceptChannel e) then
    .lift (change e fun x => { x with sender := some (.pump e) })
    .lift (look e Entry.view)
  else
    awaitStartup id e Unit
    .fail creationCancelled

/-- Waits for a channel. -/
def openChannel : TerminalCall TerminalSession := do
  let opened ← select e (awaitStartup id e (Option (Except AppError Unit)))
  match opened.getD (.error creationCancelled) with
  | .ok () =>
    if ← .lift (look e Entry.cancelled) then
      awaitStartup id e Unit
      .lift (change e (·.failWith creationCancelled .disconnected))
      .fail creationCancelled
    else startTerminal id e
  | .error error => failStartup id e error

/-- Opens a terminal. -/
def openWithTimeout (host : HostId) (session : HostSessionId) (size : TerminalSize) :
    TerminalCall TerminalSession := do
  let size ← .ofExcept size.validate
  let id ← .ask TerminalSessionId
  let e ← .ask EntryId
  .act (TerminalManager.insertEntry (.call t) host session size id e)
  .onError (openChannel id e) (change e fun x => { x with sender := none })

end

/-! ## Closing terminals -/

namespace TerminalManager

/-- Remembers a terminal that has been closed. -/
def bury (s : TerminalManager) (key : Ownership) : TerminalManager :=
  { s with
    sessions := s.sessions.remove key.terminalId
    closed :=
      let closed := s.closed ++ [key]
      if TOMBSTONE_LIMIT < closed.length then closed.tail else closed }

/-- Forgets the terminals of a host. -/
def forgetHost (s : TerminalManager) (host : HostId) : TerminalManager :=
  { s with
    sessions := s.sessions.retain fun _ e => (s.entries e).any fun x => x.view.hostId ≠ host
    closed := s.closed.filter fun key => key.hostId ≠ host
    nextLabel := s.nextLabel.remove host }

/-- Forgets all terminals. -/
def forgetAll (s : TerminalManager) : TerminalManager :=
  { s with sessions := .empty, closed := [] }

end TerminalManager

section

variable (t : TaskId)

/-- Closes a terminal, once. -/
def close (key : Ownership) : TerminalCall Unit := do
  let found ← .act fun s =>
    if key ∈ s.closed then some (.ok none, s)
    else match s.sessions.get key.terminalId with
      | none => some (.error (.error notFound), s)
      | some e => some (.ok (some e), s)
  match found with
  | none => return ()
  | some e =>
    let view ← .lift (look e Entry.view)
    .ofExcept (verifyOwnership view key)
    .lift (closeEntry (.call t) e .closed)
    .lift (.modify (·.bury key))

/-- The listed terminals of a set, in some order. -/
def collect (p : TerminalSession → Bool) : Proc TerminalManager (List EntryId) := do
  let ids ← .ask (List TerminalSessionId)
  .act fun s =>
    if ids.Nodup ∧ ids.toFinset =
        s.sessions.keysWhere fun _ e => (s.entries e).any fun x => p x.view then
      some (ids.filterMap s.sessions.get, s)
    else none

/-- Closes terminals, one after the other. -/
def closeAll (finalState : TerminalState) : List EntryId → Proc TerminalManager Unit
  | [] => return ()
  | e :: es => do
    closeEntry (.call t) e finalState
    closeAll finalState es

/-- Closes the terminals of a connection. -/
def disconnectConnection (host : HostId) (session : HostSessionId) :
    Proc TerminalManager Unit := do
  let es ← collect fun view => view.hostId = host ∧ view.hostSessionId = session
  closeAll t .disconnected es

/-- Closes and forgets the terminals of a host. -/
def removeHost (host : HostId) : Proc TerminalManager Unit := do
  let es ← collect fun view => view.hostId = host
  closeAll t .closed es
  .modify (·.forgetHost host)

/-- Closes and forgets all terminals. -/
def shutdown : Proc TerminalManager Unit := do
  let es ← collect fun _ => true
  closeAll t .closed es
  .modify TerminalManager.forgetAll

end

/-! ## The system -/

/-- The calls. -/
inductive TerminalRequest
  | open (host : HostId) (session : HostSessionId) (size : TerminalSize)
  | poll (key : Ownership)
  | close (key : Ownership)
  | disconnectConnection (host : HostId) (session : HostSessionId)
  | removeHost (host : HostId)
  | shutdown

/-- The program of a call. -/
def callProgram (t : TaskId) : TerminalRequest → Proc TerminalManager Unit
  | .open host session size => do
    let _ ← (openWithTimeout t host session size).run
  | .poll key => do
    let _ ← (poll t key).run
  | .close key => do
    let _ ← (close t key).run
  | .disconnectConnection host session => disconnectConnection t host session
  | .removeHost host => removeHost t host
  | .shutdown => shutdown t

/-- The program of a task. -/
def program (calls : TaskId → TerminalRequest) : TerminalTask → Proc TerminalManager Unit
  | .call t => callProgram t (calls t)
  | .pump e => pumpOutput e

/-- The manager and its tasks: `calls t` is the call made by the task `t`, if it is
    started. -/
def system (calls : TaskId → TerminalRequest) : System TerminalTask TerminalManager where
  init s := s = .new
  entry i p := p = program calls i
  env _ _ := False

end NexusOps.Terminal
