import NexusOps.Concurrency.RelyGuarantee
import NexusOps.Concurrency.Table
import NexusOps.Model.Host
import NexusOps.Model.Hostname

/-!
# Pinned host keys

The keys of the hosts that are trusted, one for each endpoint (`KnownHosts`). A key is
verified against them, trusted if there is none yet, or replaced by another.

Any number of calls work on one database. Each of them makes one transaction, which is
serialised with the others: it commits, or it has no effect.
-/

namespace NexusOps.Ssh

open Concurrency

/-! ## Validation -/

/-- An endpoint: a canonical hostname and a port. -/
abbrev Endpoint := String × Nat

/-- The canonical spelling of a hostname. -/
def canonicalEndpoint [IpAddrs] (hostname : String) (port : Nat) : Except AppError String :=
  let hostname := trimEndMatches (· = '.') (trim hostname.toList)
  let address := IpAddrs.parse (String.ofList hostname)
  if port = 0 ∨ (address.isNone ∧ ¬isDnsName hostname) then
    .error (.new .validation "A valid hostname and SSH port are required.")
  else .ok (match address with
    | some ip => IpAddrs.display ip
    | none => String.ofList (toAsciiLowercase hostname))

/-- The digest of a fingerprint. -/
def digestOf (fingerprint : String) : List Char :=
  if "SHA256:".toList.isPrefixOf fingerprint.toList then fingerprint.toList.drop 7 else []

/-- Only well-formed fingerprints are accepted. -/
def validateFingerprint (algorithm fingerprint : String) : Except AppError Unit :=
  let digest := digestOf fingerprint
  if algorithm.toList.isEmpty ∨ 128 < byteLength algorithm.toList ∨
      ¬algorithm.toList.all (isAlphanumericOr ['-', '@', '.', '_']) ∨ byteLength digest ≠ 43 ∨
      ¬digest.all (isAlphanumericOr ['+', '/']) then
    .error (.new .validation "Invalid SSH host fingerprint.")
  else .ok ()

/-- The same, for a key. -/
def validateKey (key : HostFingerprint) : Except AppError Unit :=
  validateFingerprint key.algorithm key.sha256

/-! ## The database -/

/-- The pinned keys. -/
abbrev Pins := Table Endpoint HostFingerprint

/-- Which steps of a transaction succeed. -/
structure Storage where
  locks : Bool
  begins : Bool
  reads : Bool
  writes : Bool
  commits : Bool
  deriving DecidableEq, Repr

def databaseError : AppError :=
  .new .persistence "The trusted SSH host keys could not be read or saved."

def poisonedDatabase : AppError :=
  .new .persistence "The trusted SSH host key store is unavailable."

def invalidDatabase : AppError :=
  .new .persistence "The trusted SSH host key store is invalid."

def rotationConflict : AppError :=
  .new .conflict "The trusted SSH host key changed. Review a new rotation plan."

/-- A step that may fail. -/
def attempt (ok : Bool) (error : AppError) : Except AppError Unit :=
  if ok then .ok () else .error error

/-- Reads the key of an endpoint. -/
def readPin (storage : Storage) (pins : Pins) (endpoint : Endpoint) :
    Except AppError (Option HostFingerprint) := do
  attempt storage.reads databaseError
  return pins.get endpoint

/-- A stored key has to be well-formed. -/
def checkPin : Option HostFingerprint → Except AppError Unit
  | some pin => (validateKey pin).mapError fun _ => invalidDatabase
  | none => .ok ()

/-- Compares a key with the stored one. -/
def comparePin (endpoint : Endpoint) (fingerprint : HostFingerprint)
    (stored : Option HostFingerprint) : Except AppError Unit :=
  if stored = some fingerprint then .ok ()
  else .error {
    code := if stored.isSome then .changedHostKey else .unknownHostKey
    message :=
      if stored.isSome then ("The SSH host key has changed. Connection blocked; verify the server " ++
        "identity independently.")
      else ("This SSH host is unknown. Verify its fingerprint and explicitly trust it before " ++
        "connecting.")
    hostKey := some ⟨endpoint.1, endpoint.2, fingerprint.algorithm, fingerprint.sha256,
      stored.map HostFingerprint.sha256⟩ }

/-- Pins a key, unless there is one. -/
def insertPin (storage : Storage) (pins : Pins) (endpoint : Endpoint) (key : HostFingerprint) :
    Except AppError Pins := do
  let stored ← readPin storage pins endpoint
  if stored.isSome then
    comparePin endpoint key stored
    return pins
  else
    attempt storage.writes databaseError
    return pins.insert endpoint key

/-- Replaces a key, if it is the expected one. The result is the number of changed rows. -/
def updatePin (pins : Pins) (endpoint : Endpoint) (expected replacement : HostFingerprint) :
    Nat × Pins :=
  if pins.get endpoint = some expected then (1, pins.insert endpoint replacement) else (0, pins)

/-! ## Calls -/

section

variable [IpAddrs] (storage : Storage) (pins : Pins)

/-- Verifies a key, before authentication. -/
def verify (hostname : String) (port : Nat) (fingerprint : HostFingerprint) :
    Except AppError Unit := do
  let hostname ← canonicalEndpoint hostname port
  validateKey fingerprint
  attempt storage.locks poisonedDatabase
  let stored ← readPin storage pins (hostname, port)
  comparePin (hostname, port) fingerprint stored

/-- The key of an endpoint. -/
def fingerprint (hostname : String) (port : Nat) : Except AppError (Option HostFingerprint) := do
  let hostname ← canonicalEndpoint hostname port
  attempt storage.locks poisonedDatabase
  let pin ← readPin storage pins (hostname, port)
  checkPin pin
  return pin

/-- The key of a challenge. -/
def challengeKey (challenge : HostKeyChallenge) : HostFingerprint :=
  ⟨challenge.algorithm, challenge.fingerprint⟩

/-- Trusts the key of a challenge. An existing key is not replaced. -/
def trust (challenge : HostKeyChallenge) : Except AppError Pins := do
  let hostname ← canonicalEndpoint challenge.hostname challenge.port
  validateFingerprint challenge.algorithm challenge.fingerprint
  attempt challenge.previousFingerprint.isNone
    (.new .changedHostKey "A changed SSH host key cannot be trusted through this action.")
  attempt storage.locks poisonedDatabase
  attempt storage.begins databaseError
  let pins ← insertPin storage pins (hostname, challenge.port) (challengeKey challenge)
  attempt storage.commits databaseError
  return pins

/-- Replaces a key by another. -/
def rotate (hostname : String) (port : Nat) (expectedCurrent replacement : HostFingerprint) :
    Except AppError Pins := do
  let hostname ← canonicalEndpoint hostname port
  validateKey expectedCurrent
  validateKey replacement
  attempt (expectedCurrent ≠ replacement) rotationConflict
  attempt storage.locks poisonedDatabase
  attempt storage.begins databaseError
  let endpoint := (hostname, port)
  let stored ← readPin storage pins endpoint
  checkPin stored
  attempt (stored = some expectedCurrent) rotationConflict
  attempt storage.writes databaseError
  let (updated, pins) := updatePin pins endpoint expectedCurrent replacement
  attempt (updated = 1) rotationConflict
  attempt storage.commits databaseError
  return pins

end

/-- The calls. -/
inductive KnownHostsCall
  | verify (hostname : String) (port : Nat) (fingerprint : HostFingerprint)
  | fingerprint (hostname : String) (port : Nat)
  | trust (challenge : HostKeyChallenge)
  | rotate (hostname : String) (port : Nat) (expectedCurrent replacement : HostFingerprint)
  deriving DecidableEq

/-- What a call returns. -/
inductive KnownHostsReply
  | done
  | pin (pin : Option HostFingerprint)
  deriving DecidableEq

/-- A call has returned. -/
structure Returned where
  task : TaskId
  result : Except AppError KnownHostsReply
  deriving DecidableEq

/-- The database, and a log of the calls. -/
structure KnownHosts where
  pins : Pins
  log : List Returned

section

variable [IpAddrs]

/-- The result of a call, and the keys after it. -/
def KnownHostsCall.run (storage : Storage) (pins : Pins) :
    KnownHostsCall → Except AppError (KnownHostsReply × Pins)
  | verify hostname port key => do
    Ssh.verify storage pins hostname port key
    return (.done, pins)
  | fingerprint hostname port => do
    let pin ← Ssh.fingerprint storage pins hostname port
    return (.pin pin, pins)
  | trust challenge => do
    let pins ← Ssh.trust storage pins challenge
    return (.done, pins)
  | rotate hostname port expectedCurrent replacement => do
    let pins ← Ssh.rotate storage pins hostname port expectedCurrent replacement
    return (.done, pins)

/-- A call runs. If it fails then the keys are as before. -/
def KnownHosts.perform (s : KnownHosts) (t : TaskId) (call : KnownHostsCall) (storage : Storage) :
    KnownHosts :=
  match call.run storage s.pins with
  | .ok (reply, pins) => ⟨pins, s.log ++ [⟨t, .ok reply⟩]⟩
  | .error error => ⟨s.pins, s.log ++ [⟨t, .error error⟩]⟩

/-- The program of a call. -/
def knownHostsProgram (t : TaskId) (call : KnownHostsCall) : Proc KnownHosts Unit := do
  let storage ← .ask Storage
  .modify fun s => s.perform t call storage

/-- The database and the calls on it, through any number of handles. -/
def knownHosts (calls : TaskId → KnownHostsCall) : System TaskId KnownHosts where
  init s := s.log = []
  entry t p := p = knownHostsProgram t (calls t)
  env _ _ := False

end

end NexusOps.Ssh
