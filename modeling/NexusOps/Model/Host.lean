import NexusOps.Model.Basic

/-!
# Hosts

A host, as it is configured and stored, and the plan of a change of its pinned
key.
-/

namespace NexusOps

/-- How to authenticate to a host. -/
inductive AuthenticationMethod
  | password
  | privateKey
  deriving DecidableEq, Repr

/-- How to connect to a host. -/
structure HostConnectionConfig where
  hostname : String
  port : Nat
  username : String
  authentication : AuthenticationMethod
  deriving DecidableEq, Repr

/-- A host. -/
structure Host where
  id : HostId
  displayName : String
  connection : HostConnectionConfig
  deriving DecidableEq, Repr

/-- A host as entered: a new one has no id. -/
structure HostInput where
  id : Option HostId
  displayName : String
  connection : HostConnectionConfig
  deriving DecidableEq, Repr

/-- A host with the id of its credential. -/
structure StoredHost where
  host : Host
  credentialId : HostId
  deriving DecidableEq, Repr

/-- A server key. -/
structure HostFingerprint where
  algorithm : String
  sha256 : String
  deriving DecidableEq, Repr

/-- A plan of a key change. -/
structure HostKeyRotationPlanId where
  uuid : Nat
  deriving DecidableEq, Repr

/-- A change of the pinned key of a host, for approval. -/
structure HostKeyRotationPlan where
  id : HostKeyRotationPlanId
  hostId : HostId
  hostname : String
  port : Nat
  currentFingerprint : HostFingerprint
  presentedFingerprint : HostFingerprint
  expiresAtUnixMs : Nat
  deriving DecidableEq, Repr

end NexusOps
