import NexusOps.RemoteOperations.Authority

/-!
# The systemd operations

The native operations of the product: four `systemctl` verbs on one service.
Their target is a unit name from a deliberately small subset
(`SystemdServiceUnitName`): a name that does not parse cannot be a target. Each
operation has its own preconditions on the observed state of the service.
-/

namespace NexusOps.RemoteOperations

/-! ## Unit names -/

/-- The suffix of service units. -/
def SUFFIX : String := ".service"

/-- The length limit of unit names, in bytes. -/
def MAX_UNIT_BYTES : Nat := 255

/-- The number of non-overlapping occurrences of `pattern`; `skip` characters are
    still part of the last one. -/
def countMatches (pattern : List Char) : Nat → List Char → Nat
  | _, [] => 0
  | skip + 1, _ :: rest => countMatches pattern skip rest
  | 0, c :: rest =>
    if pattern.isPrefixOf (c :: rest) then 1 + countMatches pattern (pattern.length - 1) rest
    else countMatches pattern 0 rest

/-- An ASCII letter or digit. -/
def isAsciiAlphanumeric (c : Char) : Bool := decide (c.toNat < 128) && c.isAlphanum

/-- A part of a unit name: it starts with a letter or a digit, and goes on with
    those and a few separators. -/
def validPart : List Char → Bool
  | [] => false
  | c :: rest => isAsciiAlphanumeric c &&
      rest.all fun c => isAsciiAlphanumeric c || c == '_' || c == '.' || c == ':' || c == '-'

/-- The supported unit names: `name.service` or `template@instance.service`. -/
def validUnitName (value : String) : Bool :=
  let chars := value.toList
  if chars.isEmpty || decide (MAX_UNIT_BYTES < value.utf8ByteSize)
      || !chars.all (fun c => decide (c.toNat < 128))
      || !SUFFIX.toList.isSuffixOf chars || countMatches SUFFIX.toList 0 chars != 1 then
    false
  else
    let stem := chars.take (chars.length - SUFFIX.toList.length)
    match stem.splitOn '@' with
    | [first] => validPart first
    | [first, second] => validPart first && validPart second
    | _ => false

/-- A restricted, native-only systemd service target. -/
structure SystemdServiceUnitName where
  value : String
  valid : validUnitName value = true
  deriving DecidableEq

/-- The error of an unsupported unit name. -/
def SystemdServiceUnitName.invalid : AppError :=
  .new .validation "The observed service name is not supported for remote operations."

/-- The unit name spelled `value`. -/
def SystemdServiceUnitName.parse (value : String) : Except AppError SystemdServiceUnitName :=
  if h : validUnitName value = true then .ok ⟨value, h⟩ else .error invalid

/-- A parsed unit name is spelled as it was. -/
theorem SystemdServiceUnitName.parse_eq_ok {value : String} {unit : SystemdServiceUnitName}
    (h : parse value = .ok unit) : unit.value = value := by
  unfold parse at h
  split at h
  · cases h; rfl
  · cases h

/-! ## Preconditions -/

/-- The preconditions of `reset-failed`. -/
structure SystemdResetFailedPreconditions where
  deriving DecidableEq

/-- The preconditions of `try-restart`. -/
structure SystemdTryRestartPreconditions where
  deriving DecidableEq

/-- The preconditions of `reload`. -/
structure SystemdReloadPreconditions where
  deriving DecidableEq

/-- The preconditions of `start`. -/
structure SystemdStartPreconditions where
  deriving DecidableEq

/-- The service has failed. -/
def SystemdResetFailedPreconditions.matches (_ : SystemdResetFailedPreconditions)
    (load active sub : String) : Bool :=
  load == "loaded" && active == "failed" && sub == "failed"

/-- The service is running. -/
def SystemdTryRestartPreconditions.matches (_ : SystemdTryRestartPreconditions)
    (load active sub : String) : Bool :=
  load == "loaded" && active == "active" && sub == "running"

/-- The service is running and can be reloaded. -/
def SystemdReloadPreconditions.matches (_ : SystemdReloadPreconditions)
    (load active sub : String) (canReload : Bool) : Bool :=
  load == "loaded" && active == "active" && sub == "running" && canReload

/-- The service is stopped and can be started. -/
def SystemdStartPreconditions.matches (_ : SystemdStartPreconditions)
    (load active sub : String) (canStart : Bool) : Bool :=
  load == "loaded" && active == "inactive" && sub == "dead" && canStart

/-! ## Operations -/

/-- The operations: `SystemdResetFailed`, `SystemdTryRestart`, `SystemdReload`
    and `SystemdStart`. -/
inductive SystemdOperation
  | resetFailed
  | tryRestart
  | reload
  | start
  deriving DecidableEq, Repr

/-- The preconditions of an operation. -/
def SystemdOperation.Preconditions : SystemdOperation → Type
  | resetFailed => SystemdResetFailedPreconditions
  | tryRestart => SystemdTryRestartPreconditions
  | reload => SystemdReloadPreconditions
  | start => SystemdStartPreconditions

/-- The preconditions of an operation, which hold no data. -/
def SystemdOperation.preconditions : (o : SystemdOperation) → o.Preconditions
  | resetFailed => {}
  | tryRestart => {}
  | reload => {}
  | start => {}

/-- The reviewed risk of an operation. -/
def SystemdOperation.risk : SystemdOperation → OperationRisk
  | resetFailed => .moderate
  | tryRestart => .high
  | reload => .high
  | start => .high

instance : NativeOperation SystemdOperation where
  Target _ := SystemdServiceUnitName
  Preconditions := SystemdOperation.Preconditions
  Payload _ := Unit
  RISK := SystemdOperation.risk

end NexusOps.RemoteOperations
