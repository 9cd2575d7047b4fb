import Mathlib.Data.List.Basic

/-!
# Staging a restore

A database that is to replace the current one is staged by the running server and put in place
by the next start of the container. The two share two files: the candidate,
`restore.pending.db`, and the marker, `restore.pending.sha256`, which has the candidate's
digest. The server replaces the candidate first and the marker second, each by a removal and a
rename, and cancels by removing both; the script of the container looks for the marker, checks
the candidate against it, and removes both when it is done.

Every operation is the list of its changes to the files. It may be cut off after any of them, by
a crash or by a call that fails:

> an attempt is an operation and how many of its changes were made.
-/

namespace RemoteControl.Backup

/-! ## Files -/

abbrev Data := List UInt8

abbrev Text := List Char

structure Files where
  /-- The upload of the staging that is going on; its name is new each time. -/
  temporary : Option Data
  candidate : Option Data
  markerTmp : Option Text
  marker : Option Text
  database : Data
  wal : Option Data
  shm : Option Data
  restoreTmp : Option Data
  /-- The seconds in the names of the `pre-restore-` directories. What is copied there is not
  read again. -/
  recoveries : List Nat
deriving DecidableEq, Repr

inductive FileOp
  | createTemp
  | appendTemp (chunk : Data)
  | removeTemp
  | removeCandidate
  | renameTemp
  | truncateMarkerTmp
  | writeMarkerTmp (text : Text)
  | removeMarker
  | renameMarkerTmp
  | mkdirRecovery (second : Nat)
  | copyCandidate
  | moveRestoreTmp
  | removeWal
  | removeShm
  | serve (database : Data) (wal shm : Option Data)
deriving DecidableEq, Repr

/-- A rename is atomic, and does nothing if there is no such file. -/
def FileOp.perform (f : Files) : FileOp → Files
  | .createTemp => { f with temporary := some [] }
  | .appendTemp chunk => { f with temporary := f.temporary.map (· ++ chunk) }
  | .removeTemp => { f with temporary := none }
  | .removeCandidate => { f with candidate := none }
  | .renameTemp => { f with candidate := f.temporary.or f.candidate, temporary := none }
  | .truncateMarkerTmp => { f with markerTmp := some [] }
  | .writeMarkerTmp text => { f with markerTmp := some text }
  | .removeMarker => { f with marker := none }
  | .renameMarkerTmp => { f with marker := f.markerTmp.or f.marker, markerTmp := none }
  | .mkdirRecovery second => { f with recoveries := second :: f.recoveries }
  | .copyCandidate => { f with restoreTmp := f.candidate }
  | .moveRestoreTmp => { f with database := f.restoreTmp.getD f.database, restoreTmp := none }
  | .removeWal => { f with wal := none }
  | .removeShm => { f with shm := none }
  | .serve database wal shm => { f with database, wal, shm }

/-- The first `k` changes of a list. -/
def Files.cut (ops : List FileOp) (k : Nat) (f : Files) : Files :=
  (ops.take k).foldl FileOp.perform f

/-! ## The server -/

/-- `^[0-9a-f]{64}$`. -/
def isChecksum (text : Text) : Bool :=
  text.length = 64 && text.all fun c => ('0' ≤ c && c ≤ '9') || ('a' ≤ c && c ≤ 'f')

/-- What is fixed: the configuration, the digest, and what `InspectBackup` says of a file. -/
structure Deployment where
  databaseDriver : String
  databasePath : Text
  sha256 : Data → Text
  inspect : Data → Bool
  hex : ∀ data, isChecksum (sha256 data) = true

def maximumRestoreSize : Nat := 512 <<< 20

/-- The body of a request, as it arrives; `broken` if it ends in an error. -/
structure Upload where
  chunks : List Data
  broken : Bool
deriving DecidableEq, Repr

/-- `io.LimitReader`. -/
def limitReader : Nat → List Data → List Data
  | _, [] => []
  | n, chunk :: chunks =>
    if n = 0 then [] else chunk.take n :: limitReader (n - chunk.length) chunks

def Upload.read (u : Upload) : List Data := limitReader (maximumRestoreSize + 1) u.chunks

/-- The file that is inspected. -/
def Upload.written (u : Upload) : Data := u.read.flatten

namespace Deployment

variable (D : Deployment)

/-- The upload passes the checks of `StageRestore`. -/
def accepts (u : Upload) : Bool :=
  !u.broken && u.written ≠ [] && u.written.length ≤ maximumRestoreSize && D.inspect u.written

def markerText (data : Data) : Text := D.sha256 data ++ ['\n']

/-- The changes before the candidate is touched. -/
def uploadOps (u : Upload) : List FileOp := .createTemp :: u.read.map .appendTemp

/-- The changes from there on; the last is the deferred removal. -/
def replaceOps (u : Upload) : List FileOp :=
  [.removeCandidate, .renameTemp, .truncateMarkerTmp, .writeMarkerTmp (D.markerText u.written),
    .removeMarker, .renameMarkerTmp, .removeTemp]

def stageRestore (u : Upload) : List FileOp :=
  uploadOps u ++ if D.accepts u then D.replaceOps u else [.removeTemp]

def cancelRestore : List FileOp := [.removeCandidate, .removeMarker]

/-! ## The start of the container -/

inductive Refusal
  | driver | relativePath | unsafePath | missing | checksum | mismatch | recoveryExists
deriving DecidableEq, Repr

def firstLine (text : Text) : Text := text.takeWhile (· ≠ '\n')

/-- The changes that the script makes once all checks are passed. -/
def applyOps (second : Nat) : List FileOp :=
  [.mkdirRecovery second, .copyCandidate, .moveRestoreTmp, .removeWal, .removeShm, .removeCandidate,
    .removeMarker]

/-- The script before it starts the server: the changes it makes, or why it exits. -/
def startOps (second : Nat) (f : Files) : Except Refusal (List FileOp) := match f.marker with
  | none => .ok []
  | some text =>
    if D.databaseDriver ≠ "sqlite" then .error .driver
    else if D.databasePath.head? ≠ some '/' then .error .relativePath
    else if '?' ∈ D.databasePath then .error .unsafePath
    else match f.candidate with
      | none => .error .missing
      | some data =>
        if isChecksum (firstLine text) = false then .error .checksum
        else if D.sha256 data ≠ firstLine text then .error .mismatch
        else if second ∈ f.recoveries then .error .recoveryExists
        else .ok (applyOps second)

inductive Outcome
  | unchanged
  | applied (data : Data)
  | refused (reason : Refusal)
deriving DecidableEq, Repr

/-- A start that is not cut off. -/
def start (second : Nat) (f : Files) : Outcome × Files := match D.startOps second f with
  | .error reason => (.refused reason, f)
  | .ok [] => (.unchanged, f)
  | .ok ops =>
    let f' := ops.foldl FileOp.perform f
    (.applied f'.database, f')

/-! ## Histories -/

inductive Operation
  | stage (u : Upload)
  | cancel
  | start (second : Nat)
  /-- The server at work on its database. -/
  | serve (database : Data) (wal shm : Option Data)
deriving DecidableEq, Repr

/-- There is a service for backups only with SQLite. -/
def ops (f : Files) : Operation → List FileOp
  | .stage u => if D.databaseDriver = "sqlite" then D.stageRestore u else []
  | .cancel => if D.databaseDriver = "sqlite" then cancelRestore else []
  | .start second =>
    match D.startOps second f with
    | .error _ => []
    | .ok ops => ops
  | .serve database wal shm => [.serve database wal shm]

/-- An operation and how many of its changes were made. -/
abbrev Attempt := Operation × Nat

def attempt (f : Files) (a : Attempt) : Files := f.cut (D.ops f a.1) a.2

/-- The files after a history, the latest attempt first. -/
def replay (f : Files) : List Attempt → Files
  | [] => f
  | a :: earlier => D.attempt (replay f earlier) a

/-! ## How far an attempt got -/

/-- With respect to the two files: neither was touched, the candidate was but not the marker, or
both were. -/
inductive Reach
  | untouched
  | torn (candidate : Option Data)
  | settled
deriving DecidableEq, Repr

def reach (f : Files) : Attempt → Reach
  | (.stage u, k) =>
    if D.databaseDriver = "sqlite" ∧ D.accepts u = true then
      if k ≤ (uploadOps u).length then .untouched
      else if k = (uploadOps u).length + 1 then .torn none
      else if k ≤ (uploadOps u).length + 4 then .torn (some u.written)
      else .settled
    else .untouched
  | (.cancel, k) =>
    if D.databaseDriver = "sqlite" then
      if k = 0 then .untouched else if k = 1 then .torn none else .settled
    else .untouched
  | (.start second, k) =>
    if D.startOps second f = .ok (applyOps second) then
      if k ≤ 5 then .untouched else if k = 6 then .torn none else .settled
    else .untouched
  | (.serve .., _) => .untouched

/-- The last attempt that touched the candidate got to the marker, or there was no marker when it
was cut off, or one for the same file. -/
def Untorn (f : Files) : List Attempt → Prop
  | [] => True
  | a :: earlier =>
    match D.reach (D.replay f earlier) a with
    | .untouched => Untorn f earlier
    | .torn candidate => (D.replay f earlier).marker = none ∨
        ∃ data, candidate = some data ∧ (D.replay f earlier).marker = some (D.markerText data)
    | .settled => True

/-- The script takes the path of the database. -/
def PathFits : Prop := D.databasePath.head? = some '/' ∧ '?' ∉ D.databasePath

instance : Decidable D.PathFits := inferInstanceAs (Decidable (_ ∧ _))

end Deployment

end RemoteControl.Backup
