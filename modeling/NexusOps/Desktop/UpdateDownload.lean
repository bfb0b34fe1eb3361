import NexusOps.Desktop.Updates
import NexusOps.Encoding.Base64
import NexusOps.Sftp.Path

/-!
# The download of an update

What the updater installs are the bytes that `download_and_verify` has returned. They come in
chunks, as the server pleases, and each chunk goes two ways: to a verifier, which sees the
bytes as they pass, and to a buffer. In the end it is the verifier that accepts, and the buffer
that is returned; and the version that was announced, which nobody has signed, is compared with
the one in the comment of the signature.

The crates it rests on are a class (`Crates`): URLs, signatures, versions. Of signatures, what is
assumed is that a verifier accepts what is genuine, however it is cut into chunks. What the
network does is a parameter, and so is whether there is memory left.
-/

namespace NexusOps.Desktop

open Encoding

/-- A URL, by its parts. -/
structure Url where
  scheme : String
  username : String
  password : Option String
  host : Option String
  /-- The port, or the one the scheme has by default. -/
  port : Option Nat
  path : String
  fragment : Option String
  deriving DecidableEq, Repr

/-- The crates of the updater: `url`, `minisign_verify` and `semver`. -/
class Crates where
  /-- The parts of a URL, from its serialization. -/
  url : String → Url
  PublicKey : Type
  Signature : Type
  StreamVerifier : Type
  decodePublicKey : String → Option PublicKey
  decodeSignature : String → Option Signature
  trustedComment : Signature → String
  verifyStream : PublicKey → Signature → Option StreamVerifier
  update : StreamVerifier → List UInt8 → StreamVerifier
  finalize : StreamVerifier → Bool
  /-- The signature is one of the bytes, by the key. -/
  Genuine : PublicKey → Signature → List UInt8 → Prop
  finalize_iff : ∀ {key signature verifier}, verifyStream key signature = some verifier →
    ∀ chunks : List (List UInt8),
      finalize (chunks.foldl update verifier) = true ↔ Genuine key signature chunks.flatten
  Version : Type
  decidableEqVersion : DecidableEq Version
  parseVersion : String → Option Version

attribute [reducible, instance] Crates.decidableEqVersion

export Crates (PublicKey Signature StreamVerifier Version)

/-- An error of `reqwest`, and whether it is one of time. -/
structure ReqwestError where
  isTimeout : Bool
  deriving DecidableEq, Repr

/-- What a server answers: its chunks, and then the end of the body, or an error. -/
structure Response where
  status : Nat
  contentLength : Option UInt64
  chunks : List (List UInt8)
  ending : Except ReqwestError Unit

/-- What the network and the allocator do during a download. -/
structure Surroundings where
  client : Except ReqwestError Unit
  send : Except ReqwestError Response
  /-- A vector of the one length can grow by the other. -/
  allocates : Nat → Nat → Bool

/-! ## Checks -/

def MAX_ARTIFACT_BYTES : Nat := 134217728
def MAX_SIGNATURE_TEXT_BYTES : Nat := 4096
def MAX_VERSION_BYTES : Nat := 128
def INITIAL_HOST : String := "github.com"
def INITIAL_PATH_PREFIX : String := "/unrealbg/NexusOps/releases/download/"

def mapReqwest (error : ReqwestError) : DownloadFailure :=
  if error.isTimeout then .timeout else .download

def validateStatus (status : Nat) : Except DownloadFailure Unit :=
  if 200 ≤ status ∧ status < 300 then .ok () else .error .download

def validateCommonUrl (url : Url) : Except DownloadFailure String :=
  if url.scheme ≠ "https" ∨ url.username ≠ "" ∨ url.password.isSome ∨ url.fragment.isSome ∨
      url.port ≠ some 443 then
    .error .download
  else
    match url.host with
    | none => .error .download
    | some host => .ok host

def validateInitialUrl (url : Url) : Except DownloadFailure Unit := do
  let host ← validateCommonUrl url
  if host ≠ INITIAL_HOST ∨ ¬ INITIAL_PATH_PREFIX.toList <+: url.path.toList ∨
      url.path.utf8ByteSize ≤ INITIAL_PATH_PREFIX.utf8ByteSize then
    .error .download
  else
    .ok ()

def validateVersion (version : String) : Except DownloadFailure Unit :=
  if version = "" ∨ MAX_VERSION_BYTES < version.utf8ByteSize ∨
      version.toList.any Sftp.isControl then
    .error .verification
  else
    .ok ()

/-- What has no value fails the verification. -/
def verified {α : Type} : Option α → Except DownloadFailure α
  | none => .error .verification
  | some a => .ok a

section

variable [Crates]

def decodePublicKey (encoded : String) : Except DownloadFailure PublicKey := do
  if encoded = "" ∨ MAX_SIGNATURE_TEXT_BYTES < encoded.utf8ByteSize then
    .error .verification
  else
    let decoded ← verified (Base64.decode encoded)
    let text ← verified (String.fromUTF8? ⟨decoded.toArray⟩)
    verified (Crates.decodePublicKey text)

def decodeSignature (encoded : String) : Except DownloadFailure Signature := do
  if encoded = "" ∨ MAX_SIGNATURE_TEXT_BYTES < encoded.utf8ByteSize then
    .error .verification
  else
    let decoded ← verified (Base64.decode encoded)
    if MAX_SIGNATURE_TEXT_BYTES < decoded.length then
      .error .verification
    else
      let text ← verified (String.fromUTF8? ⟨decoded.toArray⟩)
      verified (Crates.decodeSignature text)

/-- An announcement is made of what passes the checks. -/
def PendingAnnouncement.new (version url signature : String) :
    Except DownloadFailure PendingAnnouncement := do
  validateVersion version
  validateInitialUrl (Crates.url url)
  let _ ← decodeSignature signature
  return ⟨version, url, signature⟩

/-! ## The version -/

/-- What a field with a version begins with. -/
def versionMark : List Char := "version:".toList

/-- The loop over the fields of a comment: the version found so far, and the fields to come. -/
def signedVersion : Option (List Char) → List (List Char) →
    Except DownloadFailure (Option (List Char))
  | signed, [] => .ok signed
  | signed, field :: fields =>
    match field.dropPrefix? versionMark with
    | none => signedVersion signed fields
    | some value =>
      if value = [] ∨ signed.isSome then .error .verification
      else signedVersion (some value) fields

/-- A version without the letter in front. -/
def stripV (version : List Char) : List Char :=
  match version with
  | 'v' :: rest => rest
  | _ => version

/-- Two versions are the same: as versions if they are, and else by letter. -/
def sameVersion (signed announced : List Char) : Bool :=
  match Crates.parseVersion (String.ofList (stripV signed)),
    Crates.parseVersion (String.ofList (stripV announced)) with
  | some signed, some announced => signed = announced
  | _, _ => signed = announced

def verifySignedVersion (trustedComment announcedVersion : String) :
    Except DownloadFailure Unit := do
  let signed ← signedVersion none (trustedComment.toList.splitOn '\t')
  let signed ← verified signed
  if sameVersion signed announcedVersion.toList then .ok () else .error .verification

/-! ## The bytes -/

def checkedNextSize (current chunk limit : Nat) : Except DownloadFailure Nat :=
  if 2 ^ 64 ≤ current + chunk then .error .resourceLimit
  else if limit < current + chunk then .error .resourceLimit
  else .ok (current + chunk)

/-- The bytes received so far, which the verifier has seen too. -/
structure BoundedCollector where
  verifier : StreamVerifier
  bytes : List UInt8
  limit : Nat

namespace BoundedCollector

variable (allocates : Nat → Nat → Bool)

/-- How much is reserved at once, for a length that was declared. -/
def capacity (contentLength : Option UInt64) (limit : Nat) : Except DownloadFailure Nat :=
  match contentLength with
  | some length => if limit < length.toNat then .error .resourceLimit else .ok length.toNat
  | none => .ok 0

def new (verifier : StreamVerifier) (contentLength : Option UInt64) (limit : Nat) :
    Except DownloadFailure BoundedCollector := do
  let capacity ← capacity contentLength limit
  if allocates 0 capacity then .ok ⟨verifier, [], limit⟩ else .error .resourceLimit

def accept (collector : BoundedCollector) (chunk : List UInt8) :
    Except DownloadFailure BoundedCollector := do
  let _ ← checkedNextSize collector.bytes.length chunk.length collector.limit
  if allocates collector.bytes.length chunk.length then
    .ok { collector with
      verifier := Crates.update collector.verifier chunk
      bytes := collector.bytes ++ chunk }
  else
    .error .resourceLimit

/-- The loop over the chunks, to the end of the body. -/
def receive (ending : Except ReqwestError Unit) :
    BoundedCollector → List (List UInt8) → Except DownloadFailure BoundedCollector
  | collector, [] =>
    match ending with
    | .error error => .error (mapReqwest error)
    | .ok () => .ok collector
  | collector, chunk :: chunks => do
    let collector ← collector.accept allocates chunk
    receive ending collector chunks

def finish (collector : BoundedCollector) (signature : Signature) :
    Except DownloadFailure (List UInt8 × String) :=
  if Crates.finalize collector.verifier then
    .ok (collector.bytes, Crates.trustedComment signature)
  else
    .error .verification

end BoundedCollector

/-! ## The download -/

/-- The first part of `download_and_verify`, in which the phase is `downloading`. -/
def collect (surroundings : Surroundings) (announcement : PendingAnnouncement)
    (encodedPublicKey : String) : Except DownloadFailure (Signature × BoundedCollector) := do
  validateInitialUrl (Crates.url announcement.url)
  let publicKey ← decodePublicKey encodedPublicKey
  let signature ← decodeSignature announcement.signature
  let verifier ← verified (Crates.verifyStream publicKey signature)
  surroundings.client.mapError mapReqwest
  let response ← surroundings.send.mapError mapReqwest
  validateStatus response.status
  let collector ← BoundedCollector.new surroundings.allocates verifier response.contentLength
    MAX_ARTIFACT_BYTES
  let collector ← collector.receive surroundings.allocates response.ending response.chunks
  return (signature, collector)

/-- The second part of it. -/
def verifyCollected (announcement : PendingAnnouncement) (signature : Signature)
    (collector : BoundedCollector) : Except DownloadFailure (List UInt8) := do
  let (bytes, trustedComment) ← collector.finish signature
  verifySignedVersion trustedComment announcement.version
  return bytes

/-- A download, with the phase it ends in. -/
def downloadAndVerify (surroundings : Surroundings) (announcement : PendingAnnouncement)
    (encodedPublicKey : String) : Except DownloadFailure (List UInt8) × UpdatePhase :=
  match collect surroundings announcement encodedPublicKey with
  | .error failure => (.error failure, .downloading)
  | .ok (signature, collector) =>
    (verifyCollected announcement signature collector, .verifying)

/-! ## What a download returns -/

/-- The fields of a comment that have a version. -/
def versionFields (trustedComment : String) : List (List Char) :=
  (trustedComment.toList.splitOn '\t').filter fun field => versionMark <+: field

/-- Two versions name the same: they are equal as versions, without a letter in front, or equal
    by letter where one of them is none. -/
def NamesVersion (signed announced : List Char) : Prop :=
  (∃ v w, Crates.parseVersion (String.ofList (stripV signed)) = some v ∧
    Crates.parseVersion (String.ofList (stripV announced)) = some w ∧ v = w) ∨
  ((Crates.parseVersion (String.ofList (stripV signed)) = none ∨
    Crates.parseVersion (String.ofList (stripV announced)) = none) ∧ signed = announced)

theorem sameVersion_iff {signed announced : List Char} :
    sameVersion signed announced = true ↔ NamesVersion signed announced := by
  unfold sameVersion NamesVersion
  split
  · rename_i v w hv hw
    simp [hv, hw, eq_comm]
  · rename_i h
    -- one of the two is no version
    have hnone : Crates.parseVersion (String.ofList (stripV signed)) = none ∨
        Crates.parseVersion (String.ofList (stripV announced)) = none := by
      by_contra hsome
      obtain ⟨hv, hw⟩ := not_or.1 hsome
      obtain ⟨v, hv⟩ := Option.ne_none_iff_exists'.1 hv
      obtain ⟨w, hw⟩ := Option.ne_none_iff_exists'.1 hw
      exact h v w hv hw
    constructor
    · intro heq
      exact .inr ⟨hnone, of_decide_eq_true heq⟩
    · rintro (⟨v, w, hv, hw, -⟩ | ⟨-, heq⟩)
      · exact (h v w hv hw).elim
      · exact decide_eq_true heq

omit [Crates] in
/-- The loop over the fields returns the version of the one field that has one. -/
theorem signedVersion_eq_ok {fields : List (List Char)} {signed : Option (List Char)}
    {value : List Char} (h : signedVersion signed fields = .ok (some value)) :
    (signed = none ∧ value ≠ [] ∧
      (fields.filter fun field => versionMark <+: field) = [versionMark ++ value]) ∨
    (signed = some value ∧ (fields.filter fun field => versionMark <+: field) = []) := by
  induction fields generalizing signed with
  | nil => exact .inr ⟨Except.ok.inj h, rfl⟩
  | cons field fields ih =>
    unfold signedVersion at h
    split at h
    · rename_i hfield
      -- the field has no version, and the loop goes on with what it has
      have hnot : ¬ versionMark <+: field := by
        rintro ⟨value, rfl⟩
        rw [List.dropPrefix?_append_of_beq value (beq_self_eq_true _)] at hfield
        nomatch hfield
      rw [List.filter_cons_of_neg (by simpa using hnot)]
      exact ih h
    · rename_i found hfield
      obtain ⟨mark, rfl, hmark⟩ := List.dropPrefix?_eq_some_iff.1 hfield
      have hmark := eq_of_beq hmark
      subst hmark
      split_ifs at h with hbad
      obtain ⟨hfound, hsigned⟩ := not_or.1 hbad
      rw [List.filter_cons_of_pos (by simp)]
      rcases ih h with ⟨hnone, -⟩ | ⟨hsome, hrest⟩
      · nomatch hnone
      · obtain ⟨⟩ := hsome
        exact .inl ⟨by simpa using hsigned, hfound, by rw [hrest]⟩

/-- A version that was verified is that of the one field of the comment that has one. -/
theorem of_verifySignedVersion {trustedComment announcedVersion : String}
    (h : verifySignedVersion trustedComment announcedVersion = .ok ()) :
    ∃ value, versionFields trustedComment = [versionMark ++ value] ∧ value ≠ [] ∧
      NamesVersion value announcedVersion.toList := by
  obtain ⟨signed, hsigned, h⟩ := of_bind_eq_ok h
  obtain ⟨value, hvalue, h⟩ := of_bind_eq_ok h
  cases signed with
  | none => nomatch hvalue
  | some signed =>
    obtain rfl := Except.ok.inj hvalue
    rcases signedVersion_eq_ok hsigned with ⟨-, hne, hfields⟩ | ⟨hnone, -⟩
    · split_ifs at h with hsame
      exact ⟨signed, hfields, hne, sameVersion_iff.1 hsame⟩
    · nomatch hnone

namespace BoundedCollector

/-- A collector has got the chunks: its buffer holds them, within the limit, and its verifier
    has seen them. -/
structure Has (verifier : StreamVerifier) (chunks : List (List UInt8))
    (collector : BoundedCollector) : Prop where
  bytes : collector.bytes = chunks.flatten
  size : collector.bytes.length ≤ collector.limit
  seen : collector.verifier = chunks.foldl Crates.update verifier

variable {allocates : Nat → Nat → Bool} {verifier : StreamVerifier}
  {collector collector' : BoundedCollector} {chunks : List (List UInt8)}

theorem has_new {contentLength : Option UInt64} {limit : Nat}
    (h : new allocates verifier contentLength limit = .ok collector) :
    collector.Has verifier [] ∧ collector.limit = limit := by
  obtain ⟨capacity, -, h⟩ := of_bind_eq_ok h
  split_ifs at h
  obtain ⟨⟩ := h
  exact ⟨⟨rfl, Nat.zero_le _, rfl⟩, rfl⟩

theorem Has.accept {chunk : List UInt8} (hc : collector.Has verifier chunks)
    (h : collector.accept allocates chunk = .ok collector') :
    collector'.Has verifier (chunks ++ [chunk]) ∧ collector'.limit = collector.limit := by
  obtain ⟨next, hnext, h⟩ := of_bind_eq_ok h
  split_ifs at h
  obtain ⟨⟩ := h
  unfold checkedNextSize at hnext
  split_ifs at hnext with hoverflow hlimit
  refine ⟨⟨?_, ?_, ?_⟩, rfl⟩
  · simp [hc.bytes]
  · simpa using Nat.le_of_not_lt hlimit
  · simp [hc.seen]

/-- The loop leaves the collector with the chunks it had and those that were received. -/
theorem Has.receive {ending : Except ReqwestError Unit} {received : List (List UInt8)}
    (hc : collector.Has verifier chunks)
    (h : collector.receive allocates ending received = .ok collector') :
    collector'.Has verifier (chunks ++ received) ∧ collector'.limit = collector.limit ∧
      ending = .ok () := by
  induction received generalizing collector chunks with
  | nil =>
    unfold BoundedCollector.receive at h
    split at h
    · nomatch h
    · obtain ⟨⟩ := h
      exact ⟨by simpa using hc, rfl, rfl⟩
  | cons chunk received ih =>
    obtain ⟨next, hnext, h⟩ := of_bind_eq_ok h
    obtain ⟨hn, hlimit⟩ := hc.accept hnext
    obtain ⟨hc', hlimit', hending⟩ := ih hn h
    exact ⟨by simpa using hc', hlimit'.trans hlimit, hending⟩

end BoundedCollector

/-- What a download returns can be trusted: the bytes are those received, they are not too many,
    the signature is one of them by the key, and it is of the version that was announced. -/
structure Authentic (surroundings : Surroundings) (announcement : PendingAnnouncement)
    (encodedPublicKey : String) (bytes : List UInt8) : Prop where
  received : ∃ response, surroundings.send = .ok response ∧ response.ending = .ok () ∧
    bytes = response.chunks.flatten ∧
    ∃ publicKey signature verifier, decodePublicKey encodedPublicKey = .ok publicKey ∧
      decodeSignature announcement.signature = .ok signature ∧
      Crates.verifyStream publicKey signature = some verifier ∧
      Crates.finalize (response.chunks.foldl Crates.update verifier) = true ∧
      Crates.Genuine publicKey signature bytes ∧
      ∃ value, versionFields (Crates.trustedComment signature) = [versionMark ++ value] ∧
        value ≠ [] ∧ NamesVersion value announcement.version.toList
  size : bytes.length ≤ 134217728

omit [Crates] in
theorem of_verified {α : Type} {x : Option α} {a : α} (h : verified x = .ok a) : x = some a := by
  cases x with
  | none => nomatch h
  | some b => rw [Except.ok.inj h]

omit [Crates] in
theorem of_mapError {α : Type} {x : Except ReqwestError α} {a : α}
    (h : x.mapError mapReqwest = .ok a) : x = .ok a := by
  cases x with
  | error error => nomatch h
  | ok b => rw [Except.ok.inj h]

/-- A download that succeeds returns what can be trusted, whatever the server sends. -/
theorem downloadAndVerify_authentic {surroundings : Surroundings}
    {announcement : PendingAnnouncement} {encodedPublicKey : String} {bytes : List UInt8}
    (h : (downloadAndVerify surroundings announcement encodedPublicKey).1 = .ok bytes) :
    Authentic surroundings announcement encodedPublicKey bytes := by
  unfold downloadAndVerify at h
  split at h
  · nomatch h
  rename_i signature collector hcollect
  -- what was collected
  obtain ⟨-, -, hcollect⟩ := of_bind_eq_ok hcollect
  obtain ⟨publicKey, hkey, hcollect⟩ := of_bind_eq_ok hcollect
  obtain ⟨signature', hsignature, hcollect⟩ := of_bind_eq_ok hcollect
  obtain ⟨verifier, hverifier, hcollect⟩ := of_bind_eq_ok hcollect
  obtain ⟨-, -, hcollect⟩ := of_bind_eq_ok hcollect
  obtain ⟨response, hresponse, hcollect⟩ := of_bind_eq_ok hcollect
  obtain ⟨-, -, hcollect⟩ := of_bind_eq_ok hcollect
  obtain ⟨empty, hempty, hcollect⟩ := of_bind_eq_ok hcollect
  obtain ⟨full, hfull, hcollect⟩ := of_bind_eq_ok hcollect
  obtain ⟨rfl, rfl⟩ := Prod.mk.inj (Except.ok.inj hcollect)
  have hverifier := of_verified hverifier
  obtain ⟨hnew, hlimit⟩ := BoundedCollector.has_new hempty
  obtain ⟨hhas, hlimit', hending⟩ := hnew.receive hfull
  -- what was verified of it
  obtain ⟨⟨bytes', comment⟩, hfinish, h⟩ := of_bind_eq_ok h
  obtain ⟨_, hversion, h⟩ := of_bind_eq_ok h
  obtain rfl := Except.ok.inj h
  unfold BoundedCollector.finish at hfinish
  split_ifs at hfinish with haccepted
  obtain ⟨rfl, rfl⟩ := Prod.mk.inj (Except.ok.inj hfinish)
  rw [hhas.seen] at haccepted
  refine ⟨⟨response, of_mapError hresponse, hending, hhas.bytes, publicKey, signature', verifier,
    hkey, hsignature, hverifier, haccepted, ?_, of_verifySignedVersion hversion⟩, ?_⟩
  · rw [hhas.bytes]
    exact (Crates.finalize_iff hverifier _).1 haccepted
  · exact hhas.size.trans (hlimit'.trans hlimit).le

end

/-! An example: a signature that is the text of what it signs, and a comment in one. -/

/-- A signature of this kind is the text that was signed. -/
@[reducible] def plainCrates : Crates where
  url text := ⟨"https", "", none, some "github.com", some 443,
    "/unrealbg/NexusOps/releases/download/" ++ text, none⟩
  PublicKey := String
  Signature := String
  StreamVerifier := List UInt8 × List UInt8
  decodePublicKey := some
  decodeSignature := some
  trustedComment text := text
  verifyStream _ text := some (text.toUTF8.data.toList, [])
  update verifier chunk := (verifier.1, verifier.2 ++ chunk)
  finalize verifier := verifier.1 = verifier.2
  Genuine _ text bytes := text.toUTF8.data.toList = bytes
  finalize_iff := by
    rintro key text verifier hverifier chunks
    obtain ⟨⟩ := hverifier
    have hfold : ∀ (seen : List UInt8), chunks.foldl
        (fun (verifier : List UInt8 × List UInt8) chunk => (verifier.1, verifier.2 ++ chunk))
        (text.toUTF8.data.toList, seen) = (text.toUTF8.data.toList, seen ++ chunks.flatten) := by
      induction chunks with
      | nil => intro seen; simp
      | cons chunk chunks ih => intro seen; simpa using ih (seen ++ chunk)
    rw [hfold]
    simp
  Version := String
  decidableEqVersion := inferInstance
  parseVersion text := if text = "" then none else some text

/-- The text `file:a`, and after a tab `version:v1.0`, in three chunks. -/
def plainResponse : Response :=
  ⟨200, some 19, [[102, 105, 108, 101, 58, 97, 9], [],
    [118, 101, 114, 115, 105, 111, 110, 58, 118, 49, 46, 48]], .ok ()⟩

/-- The same text is the signature of the announcement, and its version is the one announced. -/
theorem downloadAndVerify_plain :
    letI := plainCrates
    Authentic ⟨.ok (), .ok plainResponse, fun _ _ => true⟩
      ⟨"1.0", "v1.0/a", "ZmlsZTphCXZlcnNpb246djEuMA=="⟩ "a2V5" plainResponse.chunks.flatten :=
  letI := plainCrates
  downloadAndVerify_authentic (by decide +kernel)

end NexusOps.Desktop
