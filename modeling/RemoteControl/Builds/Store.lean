import RemoteControl.Lib.Table
import RemoteControl.Lib.SortBy

/-!
# Client builds

A client build is made by a builder worker: it is queued, leased to a worker for some minutes,
renewed while the worker is at it, and completed with an artifact or failed. An administrator may
cancel it and queue it again. The rows are those of `client_builds`, the statements those of
`store/sqlstore/store.go`, the requests those of `managedclient/builder.go` and of
`httpapi/client_profiles.go`, each up to its write.

> All but the claim read a row, change the copy and write all of it back. Renewals, completions
> and failures are written if the worker still has the lease, cancellations and retries without
> a condition.

Builds of the format `configuration` are made by the API within one request and never claimed. They
may be in the table; that request is left out.
-/

namespace RemoteControl.Builds

open Lib

inductive BuildStatus
  | queued | leased | building | uploading | ready | failed | cancelled
deriving DecidableEq, Repr

/-- `status IN ('leased','building','uploading')`. -/
def BuildStatus.active : BuildStatus → Bool
  | .leased | .building | .uploading => true
  | _ => false

structure ClientBuild where
  id : String
  profileId : String
  targetOs : String
  architecture : String
  format : String
  status : BuildStatus
  artifactName : String
  mediaType : String
  sha256 : String
  error : String
  artifact : String
  createdBy : String
  workerId : String
  attempts : Nat
  createdAt : Nat
  startedAt : Option Nat
  leaseUntil : Option Nat
  completedAt : Option Nat
deriving DecidableEq, Repr

/-- `lease_until>?`. A build without a lease is neither leased after a time nor expired before. -/
def ClientBuild.leasedAfter (v : ClientBuild) (now : Nat) : Bool := v.leaseUntil.any (now < ·)

/-- `lease_until<?`. -/
def ClientBuild.expiredBefore (v : ClientBuild) (now : Nat) : Bool := v.leaseUntil.any (· < now)

abbrev BuildTable := Table ClientBuild.id

/-- An order in which the database comes across rows. -/
structure RowOrder where
  order : List ClientBuild → List ClientBuild
  perm : ∀ rows, (order rows).Perm rows

/-! ## Statements -/

/-- `SELECT … WHERE p ORDER BY created_at LIMIT 1`. -/
def oldest (o : RowOrder) (p : ClientBuild → Bool) (builds : BuildTable) : Option ClientBuild :=
  (sortByKey ClientBuild.createdAt ((o.order builds.rows).filter p)).head?

/-- The columns that `UpdateClientBuild` sets. -/
def ClientBuild.updated (v row : ClientBuild) : ClientBuild :=
  { row with
    status := v.status
    artifactName := v.artifactName
    mediaType := v.mediaType
    sha256 := v.sha256
    error := v.error
    artifact := v.artifact
    workerId := v.workerId
    attempts := v.attempts
    startedAt := v.startedAt
    leaseUntil := v.leaseUntil
    completedAt := v.completedAt }

theorem ClientBuild.updated_id (v row : ClientBuild) : (v.updated row).id = row.id := rfl

def updateClientBuild (v : ClientBuild) (builds : BuildTable) : BuildTable :=
  builds.updateWhere (fun row => row.id = v.id) v.updated v.updated_id

theorem get?_updateClientBuild (v : ClientBuild) (builds : BuildTable) (b : String) :
    (updateClientBuild v builds).get? b
      = (builds.get? b).map fun r => if r.id = v.id then v.updated r else r := by
  unfold updateClientBuild
  rw [Table.get?_updateWhere]
  simp

/-- `UpdateClaimedClientBuild` leaves the worker alone. -/
def ClientBuild.updatedClaimed (v row : ClientBuild) : ClientBuild :=
  { v.updated row with workerId := row.workerId }

theorem ClientBuild.updatedClaimed_id (v row : ClientBuild) :
    (v.updatedClaimed row).id = row.id := rfl

/-- `worker_id=? AND status IN (…) AND lease_until>?`. -/
def ClientBuild.heldBy (row : ClientBuild) (workerId : String) (now : Nat) : Bool :=
  row.workerId = workerId && row.status.active && row.leasedAfter now

def updateClaimedClientBuild (v : ClientBuild) (workerId : String) (now : Nat)
    (builds : BuildTable) : BuildTable :=
  builds.updateWhere (fun row => row.id = v.id && row.heldBy workerId now) v.updatedClaimed
    v.updatedClaimed_id

theorem get?_updateClaimedClientBuild (v : ClientBuild) (workerId : String) (now : Nat)
    (builds : BuildTable) (b : String) :
    (updateClaimedClientBuild v workerId now builds).get? b = (builds.get? b).map fun r =>
      if r.id = v.id && r.heldBy workerId now then v.updatedClaimed r else r :=
  Table.get?_updateWhere builds _ _ _ b

/-- What a builder worker can make. -/
structure Capabilities where
  formats : List String
  platforms : List String
  architectures : List String

/-- The subquery of `ClaimClientBuild`. -/
def ClientBuild.claimable (row : ClientBuild) (c : Capabilities) (now : Nat) : Bool :=
  c.formats.contains row.format && c.platforms.contains row.targetOs &&
    c.architectures.contains row.architecture && row.attempts < 5 &&
    (row.status = .queued || row.status.active && row.expiredBefore now)

/-- The condition of the statement itself, which is looked at again when the row is written. -/
def ClientBuild.free (row : ClientBuild) (now : Nat) : Bool :=
  row.attempts < 5 && (row.status = .queued || row.expiredBefore now)

def ClientBuild.claimed (workerId : String) (now leaseUntil : Nat) (row : ClientBuild) :
    ClientBuild :=
  { row with
    status := .leased
    workerId
    attempts := row.attempts + 1
    startedAt := row.startedAt.or (some now)
    leaseUntil := some leaseUntil
    error := "" }

theorem ClientBuild.claimed_id (workerId : String) (now leaseUntil : Nat) (row : ClientBuild) :
    (row.claimed workerId now leaseUntil).id = row.id := rfl

def leaseBuild (id workerId : String) (now leaseUntil : Nat) (builds : BuildTable) : BuildTable :=
  builds.updateWhere (fun row => row.id = id && row.free now)
    (ClientBuild.claimed workerId now leaseUntil) (ClientBuild.claimed_id workerId now leaseUntil)

theorem get?_leaseBuild (id workerId : String) (now leaseUntil : Nat) (builds : BuildTable)
    (b : String) :
    (leaseBuild id workerId now leaseUntil builds).get? b = (builds.get? b).map fun r =>
      if r.id = id && r.free now then r.claimed workerId now leaseUntil else r :=
  Table.get?_updateWhere builds _ _ _ b

/-- The query after the statement: it goes by worker and lease. -/
def ClientBuild.leasedTo (row : ClientBuild) (workerId : String) (leaseUntil : Nat) : Bool :=
  row.workerId = workerId && row.status = .leased && row.leaseUntil = some leaseUntil

/-! ## Requests -/

/-- What is outside: texts, and the encodings of an artifact. -/
structure BuildEnv where
  trimSpace : String → String
  toLower : String → String
  equalFold : String → String → Bool
  /-- The first 1024 bytes. -/
  truncateBuildError : String → String
  sha256 : List UInt8 → String
  base64 : List UInt8 → String

variable (env : BuildEnv)

/-- `CreateBuild`, for a profile that there is. -/
def createBuild (id profileId targetOs architecture format createdBy : String) (now : Nat) :
    Option ClientBuild :=
  let targetOs := env.toLower (env.trimSpace targetOs)
  let architecture := env.toLower (env.trimSpace architecture)
  let format := env.toLower (env.trimSpace format)
  if !(["windows", "linux", "macos", "android"].contains targetOs) ||
      !(["amd64", "arm64"].contains architecture) ||
      !(["portable", "installer", "apk"].contains format) then none
  else if format = "apk" && targetOs ≠ "android" then none
  else some ⟨id, profileId, targetOs, architecture, format, .queued, "", "", "", "", "", createdBy,
    "", 0, now, none, none, none⟩

def cleanCapabilities (allowed values : List String) : Option (List String) :=
  let values := values.map fun v => env.toLower (env.trimSpace v)
  if values.all allowed.contains then some values.eraseDups else none

/-- Between a minute and a quarter of an hour. -/
def leaseDuration (lease : Int) : Nat := (max 60000 (min lease 900000)).toNat

/-- The checks of `ClaimBuild`. -/
def claimBuild (workerId : String) (c : Capabilities) : Option (String × Capabilities) :=
  let workerId := env.trimSpace workerId
  if workerId = "" || 128 < workerId.utf8ByteSize || c.formats.isEmpty || 16 < c.formats.length ||
      c.platforms.isEmpty || 16 < c.platforms.length || c.architectures.isEmpty ||
      16 < c.architectures.length then none
  else do
    let formats ← cleanCapabilities env ["portable", "installer", "apk"] c.formats
    let platforms ← cleanCapabilities env ["windows", "linux", "macos", "android"] c.platforms
    let architectures ← cleanCapabilities env ["amd64", "arm64"] c.architectures
    some (workerId, ⟨formats, platforms, architectures⟩)

def ownedActiveBuild (buildId workerId : String) (now : Nat) (builds : BuildTable) :
    Option ClientBuild :=
  (builds.get? (env.trimSpace buildId)).filter fun v => v.heldBy (env.trimSpace workerId) now

/-- `RenewBuild` up to its write. -/
def renewBuild (buildId workerId : String) (lease : Int) (now : Nat) (builds : BuildTable) :
    Option ClientBuild :=
  (ownedActiveBuild env buildId workerId now builds).map fun v =>
    { v with leaseUntil := some (now + leaseDuration lease), status := .building }

def safeArtifactName (value : String) : String :=
  let slashed := value.toList.map fun c => if c = Char.ofNat 92 then '/' else c
  let value := env.trimSpace (String.ofList slashed)
  if value = "" || value.toList.contains '/' || value = "." || value = ".." ||
      192 < value.utf8ByteSize then "" else value

def completeBuild (buildId workerId name mediaType expectedSha : String) (artifact : List UInt8)
    (now : Nat) (builds : BuildTable) : Option ClientBuild :=
  (ownedActiveBuild env buildId workerId now builds).bind fun v =>
    let name := safeArtifactName env name
    let digest := env.sha256 artifact
    if name = "" || artifact.isEmpty || 16777216 < artifact.length ||
        128 < mediaType.utf8ByteSize then none
    else if expectedSha ≠ "" && !env.equalFold (env.trimSpace expectedSha) digest then none
    else
      let mediaType := env.trimSpace mediaType
      some { v with
        status := .ready
        artifactName := name
        sha256 := digest
        artifact := "base64:" ++ env.base64 artifact
        mediaType := if mediaType = "" then "application/octet-stream" else mediaType
        error := ""
        leaseUntil := none
        completedAt := some now }

def failBuild (buildId workerId message : String) (now : Nat) (builds : BuildTable) :
    Option ClientBuild :=
  (ownedActiveBuild env buildId workerId now builds).map fun v =>
    { v with
      status := .failed
      error := env.truncateBuildError (env.trimSpace message)
      leaseUntil := none
      completedAt := some now }

def cancelClientBuild (buildId : String) (now : Nat) (builds : BuildTable) : Option ClientBuild :=
  (builds.get? buildId).bind fun v =>
    if v.status = .queued || v.status.active then
      some { v with status := .cancelled, error := "", leaseUntil := none, completedAt := some now }
    else none

def retryClientBuild (buildId : String) (builds : BuildTable) : Option ClientBuild :=
  (builds.get? buildId).bind fun v =>
    if (v.status = .failed || v.status = .cancelled) && v.attempts < 5 then
      some { v with
        status := .queued
        error := ""
        workerId := ""
        startedAt := none
        leaseUntil := none
        completedAt := none }
    else none

end RemoteControl.Builds
