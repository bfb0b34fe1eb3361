import Mathlib.Logic.Function.Basic
import NexusOps.Encoding.Json
import NexusOps.Encoding.Utf8
import NexusOps.Model.Host

/-!
# The vault of credentials

Credentials are stored encrypted, each under an id of its own. What a sequence of calls has done
to the vault is compared with a map of credentials (`History.latest`), in `vault_of_run`: the vault
is that map, whatever fails. In particular what is accepted is never too long to be read again, as
the bound for that covers the worst case of its text (`length_toJson_le`).
-/

namespace NexusOps.Secrets

open Encoding Function

/-! ## Credentials -/

/-- Secrets for one of the methods of authentication. -/
structure Credential where
  password : Option String
  privateKey : Option String
  passphrase : Option String
  deriving DecidableEq, Repr

namespace Credential

def validate (c : Credential) (method : AuthenticationMethod) : Except AppError Unit :=
  let nonempty (v : Option String) : Bool := v.any fun s => !s.isEmpty
  let valid := match method with
    | .password => nonempty c.password && c.privateKey.isNone && c.passphrase.isNone
    | .privateKey => nonempty c.privateKey && c.password.isNone
  if !valid then
    .error (.new .validation "Provide credentials matching the selected authentication method.")
  else if [c.password, c.privateKey, c.passphrase].any (·.any (65536 < ·.utf8ByteSize)) then
    .error (.new .validation "Credential exceeds the 64 KiB size limit.")
  else .ok ()

/-- A field of the text. -/
def fieldJson (name : String) (value : Option String) : List UInt8 :=
  Utf8.bytes name.toList ++ match value with
    | some s => Json.string (Utf8.bytes s.toList)
    | none => Utf8.bytes "null".toList

/-- The text that is encrypted (`SecretRef`). -/
def toJson (c : Credential) : List UInt8 :=
  fieldJson "\x7b\"password\":" c.password ++ fieldJson ",\"privateKey\":" c.privateKey ++
    fieldJson ",\"passphrase\":" c.passphrase ++ Utf8.bytes "\x7d".toList

theorem length_fieldJson_le {name : String} {value : Option String} (hname : name.utf8ByteSize ≤ 14)
    (h : value.any (65536 < ·.utf8ByteSize) = false) :
    (fieldJson name value).length ≤ 6 * 65536 + 16 := by
  unfold fieldJson
  rw [List.length_append, Utf8.length_bytes_toList]
  cases value with
  | none =>
    have hnull : (Utf8.bytes "null".toList).length = 4 := by decide +kernel
    dsimp only
    omega
  | some s =>
    have hs : s.utf8ByteSize ≤ 65536 := by simpa using h
    have hlength := Json.length_string_le (Utf8.bytes s.toList)
    rw [Utf8.length_bytes_toList] at hlength
    dsimp only
    omega

/-- The text of what is accepted. -/
theorem length_toJson_le {c : Credential} {method : AuthenticationMethod}
    (h : c.validate method = .ok ()) : c.toJson.length ≤ 3 * 65536 * 6 + 49 := by
  unfold validate at h
  dsimp only at h
  split_ifs at h with hmethod hlong
  simp only [List.any_cons, List.any_nil, Bool.or_false, Bool.or_eq_true, not_or,
    Bool.not_eq_true] at hlong
  obtain ⟨hpassword, hkey, hpassphrase⟩ := hlong
  have h₁ := length_fieldJson_le (by decide +kernel : "\x7b\"password\":".utf8ByteSize ≤ 14) hpassword
  have h₂ := length_fieldJson_le (by decide +kernel : ",\"privateKey\":".utf8ByteSize ≤ 14) hkey
  have h₃ := length_fieldJson_le (by decide +kernel : ",\"passphrase\":".utf8ByteSize ≤ 14)
    hpassphrase
  have h₄ : (Utf8.bytes "\x7d".toList).length = 1 := by decide +kernel
  simp only [toJson, List.length_append]
  omega

end Credential

/-! ## The vault -/

/-- What the libraries do: texts are read back as they were written, and so are encrypted texts,
    which are longer by a tag. The key is always the same. -/
class Libraries where
  /-- The text of an id. -/
  display : HostId → String
  fromJson : List UInt8 → Option Credential
  fromJson_toJson : ∀ c : Credential, fromJson c.toJson = some c
  key : List UInt8
  encrypt : (key nonce aad msg : List UInt8) → List UInt8
  decrypt : (key nonce aad ciphertext : List UInt8) → Option (List UInt8)
  decrypt_encrypt : ∀ key nonce aad msg, decrypt key nonce aad (encrypt key nonce aad msg) = some msg
  length_encrypt : ∀ key nonce aad msg, (encrypt key nonce aad msg).length = msg.length + 16

variable [Libraries]

def MAX_CIPHERTEXT_BYTES : Nat := 3 * 65536 * 6 + 256

def failure : AppError := .new .secureStorage
  "Secure credential storage is unavailable or locked. Unlock your OS keychain and try again."

/-- The database: the secrets with their nonces, and whether a key has been made for them. -/
structure Vault where
  secrets : HostId → Option (List UInt8 × List UInt8)
  initialized : Bool

/-- Before the first call. -/
def Vault.empty : Vault := ⟨fun _ => none, false⟩

/-- What the key is asked for with. -/
inductive KeyCall
  | key
  | initialise
  deriving DecidableEq, Repr

/-- The steps of `put` that can fail. -/
inductive PutStep
  | transaction
  | query
  | key
  | nonce
  | json
  | encrypt
  | insert
  | mark
  | commit
  deriving DecidableEq, Repr

def aad (id : HostId) : List UInt8 := Utf8.bytes ("nexusops:v1:" ++ Libraries.display id).toList

/-- The ciphertext of a credential. -/
def encrypted (id : HostId) (nonce : List UInt8) (c : Credential) : List UInt8 :=
  Libraries.encrypt Libraries.key nonce (aad id) c.toJson

namespace Vault

variable (v : Vault)

/-- A key is made for a vault that has none. -/
def keyCall : KeyCall := if v.initialized then .key else .initialise

/-- `put`, with the step that fails, if any: how it ends, the vault after it, and how it has asked
    for the key. A transaction that is not committed has no effect. -/
def put (id : HostId) (c : Credential) (nonce : Vector UInt8 12) (fault : Option PutStep) :
    Except AppError Unit × Vault × Option KeyCall :=
  match c.validate (if c.privateKey.isSome then .privateKey else .password) with
  | .error e => (.error e, v, none)
  | .ok _ =>
    if fault = some .transaction ∨ fault = some .query then (.error failure, v, none)
    else
      -- an id that is in use violates the primary key
      if fault.isSome ∨ (v.secrets id).isSome then (.error failure, v, some v.keyCall)
      else
        let secrets := update v.secrets id (some (nonce.toList, encrypted id nonce.toList c))
        (.ok (), ⟨secrets, true⟩, some v.keyCall)

/-- `get`, any step of which may fail. -/
def get (id : HostId) (fails : Bool) : Except AppError Credential :=
  if fails then .error failure
  else match v.secrets id with
    | none => .error failure
    | some (nonce, ciphertext) =>
      if nonce.length = 12 ∧ ciphertext.length ≤ MAX_CIPHERTEXT_BYTES then
        match (Libraries.decrypt Libraries.key nonce (aad id) ciphertext).bind Libraries.fromJson with
        | some c => .ok c
        | none => .error failure
      else .error failure

def delete (id : HostId) (fails : Bool) : Except AppError Unit × Vault :=
  if fails then (.error failure, v)
  else (.ok (), { v with secrets := update v.secrets id none })

end Vault

/-! ## Histories -/

/-- A call that changes the vault, and what fails in it. -/
inductive Call
  | put (id : HostId) (c : Credential) (nonce : Vector UInt8 12) (fault : Option PutStep)
  | delete (id : HostId) (fails : Bool)

/-- The vault after some calls, the credentials that were put and not deleted, and whether any
    `put` has succeeded. -/
structure History where
  vault : Vault
  latest : HostId → Option Credential
  stored : Bool

/-- One more call. -/
def History.next (h : History) : Call → History
  | .put id c nonce fault => match h.vault.put id c nonce fault with
    | (.ok _, v, _) => ⟨v, update h.latest id (some c), true⟩
    | (.error _, v, _) => ⟨v, h.latest, h.stored⟩
  | .delete id fails => match h.vault.delete id fails with
    | (.ok _, v) => ⟨v, update h.latest id none, h.stored⟩
    | (.error _, v) => ⟨v, h.latest, h.stored⟩

def run (calls : List Call) : History := calls.foldl .next ⟨.empty, fun _ => none, false⟩

/-- The vault is the map. -/
structure History.Ok (h : History) : Prop where
  secrets : ∀ id, match h.latest id with
    | some c => (∃ method, c.validate method = .ok ()) ∧ ∃ nonce : Vector UInt8 12,
        h.vault.secrets id = some (nonce.toList, encrypted id nonce.toList c)
    | none => h.vault.secrets id = none
  initialized : h.stored = true → h.vault.initialized = true

/-- What `put` does. -/
theorem put_cases (v : Vault) (id : HostId) (c : Credential) (nonce : Vector UInt8 12)
    (fault : Option PutStep) :
    (∃ e call, v.put id c nonce fault = (.error e, v, call) ∧ (call = none ∨ call = v.keyCall)) ∨
      (∃ method, c.validate method = .ok ()) ∧ v.put id c nonce fault = (.ok (),
        ⟨update v.secrets id (some (nonce.toList, encrypted id nonce.toList c)), true⟩,
        some v.keyCall) := by
  unfold Vault.put
  cases hvalid : c.validate (if c.privateKey.isSome then .privateKey else .password) with
  | error e => exact .inl ⟨e, none, rfl, .inl rfl⟩
  | ok _ =>
    dsimp only
    split_ifs
    · exact .inl ⟨_, _, rfl, .inl rfl⟩
    · exact .inl ⟨_, _, rfl, .inr rfl⟩
    · exact .inr ⟨⟨_, hvalid⟩, rfl⟩

theorem History.Ok.next {h : History} (hok : h.Ok) (call : Call) : (h.next call).Ok := by
  cases call with
  | put id c nonce fault =>
    rcases put_cases h.vault id c nonce fault with ⟨e, call, heq, -⟩ | ⟨hvalid, heq⟩
    · rw [History.next, heq]
      exact hok
    · rw [History.next, heq]
      refine ⟨fun id' => ?_, fun _ => rfl⟩
      by_cases hid : id' = id
      · subst hid
        simp only [update_self]
        exact ⟨hvalid, nonce, rfl⟩
      · simp only [update_of_ne hid]
        exact hok.secrets id'
  | delete id fails =>
    rw [History.next, Vault.delete]
    cases fails with
    | true => exact hok
    | false =>
      refine ⟨fun id' => ?_, hok.initialized⟩
      by_cases hid : id' = id
      · subst hid
        simp only [Bool.false_eq_true, if_false, update_self]
      · simp only [Bool.false_eq_true, if_false, update_of_ne hid]
        exact hok.secrets id'

theorem ok_run (calls : List Call) : (run calls).Ok :=
  List.foldlRecOn (motive := History.Ok) calls _ ⟨fun _ => rfl, nofun⟩ fun _ h call _ => h.next call

/-- What is accepted is never too long to be read. -/
theorem length_encrypted_le {c : Credential} {method : AuthenticationMethod}
    (h : c.validate method = .ok ()) (id : HostId) (nonce : List UInt8) :
    (encrypted id nonce c).length ≤ MAX_CIPHERTEXT_BYTES := by
  have hlength := Credential.length_toJson_le h
  rw [encrypted, Libraries.length_encrypt, MAX_CIPHERTEXT_BYTES]
  omega

theorem History.Ok.get_eq {h : History} (hok : h.Ok) (id : HostId) :
    h.vault.get id false = match h.latest id with
      | some c => .ok c
      | none => .error failure := by
  have hid := hok.secrets id
  unfold Vault.get
  cases hlatest : h.latest id with
  | none =>
    rw [hlatest] at hid
    simp [hid]
  | some c =>
    rw [hlatest] at hid
    obtain ⟨⟨method, hvalid⟩, nonce, hsecret⟩ := hid
    have hread : (nonce.toList.length = 12 ∧
        (encrypted id nonce.toList c).length ≤ MAX_CIPHERTEXT_BYTES) :=
      ⟨nonce.length_toList, length_encrypted_le hvalid id nonce.toList⟩
    simp only [hsecret, Bool.false_eq_true, if_false, if_pos hread]
    simp [encrypted, Libraries.decrypt_encrypt, Libraries.fromJson_toJson]

end NexusOps.Secrets
