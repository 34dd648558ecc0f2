import TableSink.Committable
import TableSink.Storage.Task

/-!
# From staged to published

A staged file is published by giving it its target as path. Whoever holds its token can do that, and
more than one may try: a file that is gone from its staging place and stands at its target counts as
published. A file that must not be published is removed from its staging place instead.
-/

namespace TableSink

/-- Why a token does not lead to a file. -/
inductive RecoveryError where
  /-- One of the places could not be looked at. -/
  | inspect (path : String) (source : StorageError)
  /-- Neither place holds the file. -/
  | missing (path : String)
  /-- The staged file has another length than the token says. -/
  | lengthMismatch (path : String) (expected actual : Nat)
deriving DecidableEq, Repr

/-- The sentence that reports the error. -/
def RecoveryError.message : RecoveryError → String
  | .inspect path source => "Failed to inspect " ++ path ++ ": " ++ source.message
  | .missing path => "Staged file " ++ path ++ " is missing"
  | .lengthMismatch path expected actual =>
    "Staged file " ++ path ++ " has " ++ toString actual ++ " bytes, expected " ++
      toString expected

/-- Why a file could not be published or removed. -/
inductive CommitError where
  /-- The file could not be given its target as path. -/
  | publish (source target : ObjectPath) (cause : StorageError)
  /-- The staged file could not be removed. -/
  | discard (path : String) (cause : StorageError)
  /-- The file is at neither place. -/
  | vanished (source target : ObjectPath)
deriving DecidableEq, Repr

/-- The sentence that reports the error. -/
def CommitError.message : CommitError → String
  | .publish source target cause =>
    "Failed to publish " ++ source.text ++ " -> " ++ target.text ++ ": " ++ cause.message
  | .discard path cause => "Failed to discard " ++ path ++ ": " ++ cause.message
  | .vanished source target => "Neither " ++ source.text ++ " nor " ++ target.text ++ " exists"

/-- A closed file on its way to its target. -/
inductive PendingFile where
  /-- The bytes wait at their staging place. -/
  | staged (source target : ObjectPath)
  /-- The file was published before. -/
  | published (target : ObjectPath)
deriving DecidableEq, Repr

namespace PendingFile

/-- Publish a file that was just closed. -/
def commit : PendingFile → Task (Except CommitError Unit)
  | .published _ => return .ok ()
  | .staged source target => do
    match ← Task.ask (.rename source target) with
    | .ok () =>
      Task.report (.fileCommitted false)
      return .ok ()
    | .error e => return .error (.publish source target e)

/-- Publish a file that was found through its token. If the staged file is gone, somebody else may
have been faster; then it stands at its target. -/
def commitRecovered : PendingFile → Task (Except CommitError Unit)
  | .published _ => return .ok ()
  | .staged source target => do
    match ← Task.ask (.rename source target) with
    | .ok () =>
      Task.report (.fileCommitted true)
      return .ok ()
    | .error e =>
      if e.isNotFound then
        match ← Task.objectExists target with
        | .ok true =>
          Task.report (.fileCommitted true)
          return .ok ()
        | .ok false => return .error (.vanished source target)
        | .error e => return .error (.publish source target e)
      else return .error (.publish source target e)

end PendingFile

namespace PendingToken

/-- Both places of the file, read back from the token. -/
def places (t : PendingToken) : Except RecoveryError (ObjectPath × ObjectPath) := do
  let source ← (readPath t.staging).mapError (.inspect t.staging)
  let target ← (readPath t.target).mapError (.inspect t.target)
  return (source, target)

/-- Look for the file of the token: at its staging place, and if nothing is there at its target. -/
def recover (t : PendingToken) : Task (Except RecoveryError PendingFile) :=
  match t.places with
  | .error e => return .error e
  | .ok (source, target) => do
    match ← Task.ask (.head source) with
    | .ok actual =>
      return if actual = t.size then .ok (.staged source target)
        else .error (.lengthMismatch t.staging t.size actual)
    | .error e =>
      if e.isNotFound then
        match ← Task.ask (.head target) with
        | .ok actual =>
          return if actual = t.size then .ok (.published target) else .error (.missing t.staging)
        | .error e =>
          return .error (if e.isNotFound then .missing t.staging else .inspect t.target e)
      else return .error (.inspect t.staging e)

end PendingToken

namespace InProgressToken

/-- Remove the staged file of the token, and say whether there was one. Some stores take the removal
of a missing object for a success, so the file is looked for first. -/
def cleanup (t : InProgressToken) : Task (Except CommitError Bool) :=
  match readPath t.staging with
  | .error e => return .error (.discard t.staging e)
  | .ok path => do
    match ← Task.objectExists path with
    | .error e => return .error (.discard t.staging e)
    | .ok false =>
      Task.report (.fileDiscarded false)
      return .ok false
    | .ok true =>
      match ← Task.ask (.delete path) with
      | .ok () =>
        Task.report (.fileDiscarded true)
        return .ok true
      | .error e =>
        if e.isNotFound then
          Task.report (.fileDiscarded false)
          return .ok false
        else return .error (.discard t.staging e)

end InProgressToken

end TableSink
