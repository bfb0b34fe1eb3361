import NexusOps.Model.Basic

/-!
# Terminals

A terminal as it is shown, and what is read from one.
-/

namespace NexusOps

/-- A terminal. -/
structure TerminalSessionId where
  uuid : Nat
  deriving DecidableEq, Repr

/-- The size of a terminal. -/
structure TerminalSize where
  columns : Nat
  rows : Nat
  pixelWidth : Nat
  pixelHeight : Nat
  deriving DecidableEq, Repr

/-- Only sizes within limits are supported. -/
def TerminalSize.validate (size : TerminalSize) : Except AppError TerminalSize :=
  if size.columns < 2 ∨ 1000 < size.columns ∨ size.rows < 1 ∨ 1000 < size.rows ∨
      100000 < size.pixelWidth ∨ 100000 < size.pixelHeight then
    .error (.new .validation "Terminal dimensions are outside the supported range.")
  else .ok size

/-- The states of a terminal. -/
inductive TerminalState
  | creating
  | open
  | closing
  | closed
  | failed
  | disconnected
  deriving DecidableEq, Repr

/-- The terminal is being opened, or is open. -/
def TerminalState.Live (state : TerminalState) : Prop := state = creating ∨ state = .open

instance (state : TerminalState) : Decidable state.Live :=
  inferInstanceAs (Decidable (state = .creating ∨ state = .open))

/-- A terminal, as it is shown. -/
structure TerminalSession where
  id : TerminalSessionId
  hostId : HostId
  hostSessionId : HostSessionId
  label : String
  state : TerminalState
  size : TerminalSize
  error : Option AppError
  deriving DecidableEq, Repr

/-- The output of a terminal since it was last asked for, in chunks. -/
structure TerminalOutputBatch where
  session : TerminalSession
  chunksBase64 : List String
  outputDrained : Bool
  deriving DecidableEq, Repr

end NexusOps
