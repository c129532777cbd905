import AgentRuntime.MemoryPlayer

/-!
# The requests of the owner

`memory_api.py` over `MemoryPasswordService`: a user sets a PIN, trades it for
a credential of fifteen minutes that is bound to the session, and shows that
credential with every request about an archive. Each request runs in a
transaction of its own, which is rolled back when it is refused.

`MemoryApi.step` is a request, or an operation of the backend, after some time
has passed; nothing is said about their order. The digests of `hashlib` are
parameters and nothing is assumed of them, the salts and credentials that are
drawn are arguments. Who sends a request has been established before
(`UserIdentity`).

Of the responses the private parts are modelled; the list of archives comes in
the order of the table.
-/

namespace AgentRuntime

open Keyed Runs

/-- `UserIdentity`. -/
structure UserIdentity where
  userId : Int
  sessionId : String
  deriving DecidableEq

/-- A row of `memory_passwords`. -/
structure MemoryPassword where
  userId : Int
  salt : String
  passwordHash : String
  failedAttempts : Nat := 0
  lockedUntil : Option Time := none
  unlockSessionDigest : Option String := none
  unlockTokenDigest : Option String := none
  unlockExpiresAt : Option Time := none
  deriving DecidableEq

/-- `hashlib.scrypt` of a password and a salt, and `hashlib.sha256`. -/
structure Hashes where
  scrypt : String → String → String
  sha256 : String → String

/-! ## The password service -/

namespace MemoryPasswordService

/-- `_validate_password`. -/
def validatePassword (text : PyText) (password : String) : Result Unit :=
  require (password ≠ "" ∧ password.toList.all text.isDecimal = true ∧
      4 ≤ password.length ∧ password.length ≤ 6)
    (invalid "MEMORY_PASSWORD_FORMAT_INVALID")

/-- `setup`. -/
def setup (text : PyText) (hashes : Hashes) (passwords : Table MemoryPassword.userId) (userId : Int)
    (password salt : String) : Result (Table MemoryPassword.userId) := do
  validatePassword text password
  match passwords.insert? { userId, salt, passwordHash := hashes.scrypt password salt } with
  | none => .error (invalid "MEMORY_PASSWORD_ALREADY_SET")
  | some passwords => pure passwords

end MemoryPasswordService

namespace MemoryPassword

/-- A wrong PIN is counted; the fifth one starts the cooldown. -/
def fail (record : MemoryPassword) (now : Time) : MemoryPassword :=
  if 5 ≤ record.failedAttempts + 1 then
    { record with failedAttempts := 0, lockedUntil := some (now + seconds (10 * 60)) }
  else { record with failedAttempts := record.failedAttempts + 1 }

/-- A credential is issued. -/
def unlock (record : MemoryPassword) (hashes : Hashes) (sessionId credential : String)
    (now : Time) : MemoryPassword :=
  { record with
    failedAttempts := 0
    lockedUntil := none
    unlockSessionDigest := some (hashes.sha256 sessionId)
    unlockTokenDigest := some (hashes.sha256 credential)
    unlockExpiresAt := some (now + seconds (15 * 60)) }

end MemoryPassword

namespace MemoryPasswordService

/-- `_get`. -/
def get (passwords : Table MemoryPassword.userId) (userId : Int) : Result MemoryPassword :=
  match passwords.find? userId with
  | none => .error (invalid "MEMORY_PASSWORD_UNSET")
  | some record => pure record

/-- `verify` with the record of the user: the credential or the error, and the
record as it then stands in the session. -/
def verify (hashes : Hashes) (record : MemoryPassword) (password sessionId : String) (now : Time)
    (credential : String) : Result String × MemoryPassword :=
  if ∃ t ∈ record.lockedUntil, now < t then
    (.error (invalid "MEMORY_PASSWORD_COOLDOWN"), record)
  else if record.passwordHash ≠ hashes.scrypt password record.salt then
    (.error (invalid "MEMORY_PASSWORD_INVALID"), record.fail now)
  else (pure credential, record.unlock hashes sessionId credential now)

/-- The record has an unexpired credential of this digest and session. -/
def Unlocked (hashes : Hashes) (record : MemoryPassword) (sessionId credential : String)
    (now : Time) : Prop :=
  (∃ t ∈ record.unlockExpiresAt, now < t) ∧
    (∃ d ∈ record.unlockSessionDigest, d ≠ "" ∧ d = hashes.sha256 sessionId) ∧
    ∃ d ∈ record.unlockTokenDigest, d ≠ "" ∧ d = hashes.sha256 credential

instance (hashes : Hashes) (record : MemoryPassword) (sessionId credential : String)
    (now : Time) : Decidable (Unlocked hashes record sessionId credential now) := by
  unfold Unlocked; infer_instance

/-- `is_unlocked`. -/
def isUnlocked (hashes : Hashes) (passwords : Table MemoryPassword.userId) (identity : UserIdentity)
    (credential : String) (now : Time) : Result Bool := do
  let record ← get passwords identity.userId
  pure (decide (Unlocked hashes record identity.sessionId credential now))

end MemoryPasswordService

/-! ## The requests -/

/-- The requests about one archive. -/
inductive ArchiveRequest
  | detail | delete | pin | unpin
  deriving DecidableEq

inductive MemoryRequest
  | setupPassword (identity : UserIdentity) (password salt : String)
  | verifyPassword (identity : UserIdentity) (password credential : String)
  | listArchives (identity : UserIdentity)
  | archive (identity : UserIdentity) (request : ArchiveRequest) (archiveId : String)
      (unlockCredential : Option String)
  deriving DecidableEq

/-- Who sends the request. -/
def MemoryRequest.identity : MemoryRequest → UserIdentity
  | setupPassword identity .. => identity
  | verifyPassword identity .. => identity
  | listArchives identity => identity
  | archive identity .. => identity

/-- What the list says of an archive. -/
structure ArchiveEntry where
  archiveId : String
  contentStatus : ContentStatus
  generationEpoch : Nat
  isPinned : Bool
  deriving DecidableEq

inductive MemoryAnswer
  | configured
  | credential (credential : String)
  | archives (entries : List ArchiveEntry)
  | detail (entry : ArchiveEntry) (publishedRevision : Nat) (playback : PublishedMemoryPlayback)
  | deleted
  | pinned (isPinned : Bool)
  /-- `HTTPException`. -/
  | refused (status : Nat) (detail : String)
  /-- Any other exception. -/
  | raised (e : ServiceError)
  deriving DecidableEq

def MemoryAnswer.isRefused : MemoryAnswer → Bool
  | refused .. => true
  | _ => false

/-- The backend with the passwords, and the archives that are pinned. -/
structure MemoryApi where
  backend : Backend := {}
  passwords : Table MemoryPassword.userId := Table.empty
  pinned : List String := []

namespace MemoryApi

/-- The archive of `archiveId`, if it is the user's. -/
def owned? (s : MemoryApi) (identity : UserIdentity) (archiveId : String) (allowDeleted : Bool) :
    Option MemoryArchive :=
  (s.backend.db.archives.find? archiveId).filter fun a =>
    decide (a.ownerUserId = identity.userId) && (allowDeleted || a.deletedAt.isNone)

/-- `_require_owned_unlocked_archive`. -/
def requireOwnedUnlockedArchive (hashes : Hashes) (s : MemoryApi) (now : Time)
    (identity : UserIdentity) (archiveId : String) (unlockCredential : Option String)
    (allowDeleted : Bool) : Except MemoryAnswer MemoryArchive :=
  match s.owned? identity archiveId allowDeleted with
  | none => .error (.refused 404 "MEMORY_ARCHIVE_UNAVAILABLE")
  | some archive =>
    match unlockCredential with
    | none => .error (.refused 403 "MEMORY_UNLOCK_REQUIRED")
    | some credential =>
      if credential = "" then .error (.refused 403 "MEMORY_UNLOCK_REQUIRED")
      else
        match MemoryPasswordService.isUnlocked hashes s.passwords identity credential now with
        | .ok true => pure archive
        | _ => .error (.refused 403 "MEMORY_UNLOCK_REQUIRED")

def entry (s : MemoryApi) (a : MemoryArchive) : ArchiveEntry :=
  ⟨a.archiveId, a.contentStatus, a.generationEpoch, decide (a.archiveId ∈ s.pinned)⟩

/-- The archives of a user that are not deleted. -/
def liveOf (s : MemoryApi) (userId : Int) : List MemoryArchive :=
  s.backend.db.archives.rows.filter fun a =>
    decide (a.ownerUserId = userId) && a.deletedAt.isNone

/-- `update(MemoryArchive)` of the live archives of a user with
`is_pinned=False`. -/
def unpinAll (s : MemoryApi) (userId : Int) : List String :=
  s.pinned.filter fun id => decide (id ∉ (s.liveOf userId).map (·.archiveId))

/-- A request about an archive that is the user's and unlocked: the answer,
and what is committed. -/
def serve (s : MemoryApi) (now : Time) (identity : UserIdentity) (archive : MemoryArchive) :
    ArchiveRequest → MemoryAnswer × MemoryApi
  | .detail =>
    match MemoryPlayerService.getPublishedPlayback s.backend.db archive.archiveId with
    | .ok playback => (.detail (s.entry archive) archive.publishedRevision playback, s)
    | .error e => (.raised e, s)
  | .delete =>
    match MemoryDeletionCompensationService.requestArchivePrivacyPurge s.backend.db now
        archive.archiveId with
    | .ok db => (.deleted, { s with backend := { s.backend with db := db } })
    | .error e => (.raised e, s)
  | .pin =>
    (.pinned true, { s with pinned := s.unpinAll identity.userId ++ [archive.archiveId] })
  | .unpin => (.pinned false, { s with pinned := s.pinned.filter fun id => id ≠ archive.archiveId })

/-- `verify_password`: a refusal rolls back. -/
def verifyPassword (hashes : Hashes) (s : MemoryApi) (now : Time) (identity : UserIdentity)
    (password credential : String) : MemoryAnswer × MemoryApi :=
  match MemoryPasswordService.get s.passwords identity.userId with
  | .error (.value code) => (.refused 401 code, s)
  | .error e => (.raised e, s)
  | .ok record =>
    match MemoryPasswordService.verify hashes record password identity.sessionId now credential with
    | (.ok credential, record) => (.credential credential, { s with passwords := s.passwords.put record })
    | (.error (.value code), _) => (.refused 401 code, s)
    | (.error e, _) => (.raised e, s)

/-- The answer to a request at time `now`, and what is committed. -/
def handle (text : PyText) (hashes : Hashes) (s : MemoryApi) (now : Time) :
    MemoryRequest → MemoryAnswer × MemoryApi
  | .setupPassword identity password salt =>
    match MemoryPasswordService.setup text hashes s.passwords identity.userId password salt with
    | .ok passwords => (.configured, { s with passwords := passwords })
    | .error (.value code) => (.refused 400 code, s)
    | .error e => (.raised e, s)
  | .verifyPassword identity password credential =>
    s.verifyPassword hashes now identity password credential
  | .listArchives identity => (.archives ((s.liveOf identity.userId).map s.entry), s)
  | .archive identity request archiveId unlockCredential =>
    match s.requireOwnedUnlockedArchive hashes now identity archiveId unlockCredential
        (decide (request = .delete)) with
    | .ok archive => s.serve now identity archive request
    | .error answer => (answer, s)

end MemoryApi

/-! ## Steps -/

inductive MemoryEvent
  | op (op : BackendOp)
  | request (request : MemoryRequest)

namespace MemoryApi

/-- The time goes on. -/
def wait (s : MemoryApi) (elapsed : Time) : MemoryApi :=
  { s with backend := { s.backend with now := s.backend.now + elapsed } }

/-- The answer to a request that comes after `elapsed`. -/
def answer (text : PyText) (hashes : Hashes) (s : MemoryApi) (elapsed : Time)
    (request : MemoryRequest) : MemoryAnswer :=
  ((s.wait elapsed).handle text hashes (s.backend.now + elapsed) request).1

/-- One step: `e.1` is the time since the step before. -/
def step (text : PyText) (hashes : Hashes) (s : MemoryApi) (e : Time × MemoryEvent) : MemoryApi :=
  match e.2 with
  | .op op => { s with backend := s.backend.step text (e.1, op) }
  | .request request => ((s.wait e.1).handle text hashes (s.backend.now + e.1) request).2

end MemoryApi

end AgentRuntime
