import TableSink.File.Pending

/-!
# Committing a batch

Each committable of a batch is finished on its own: a file with a pending token is published, any
other one removed. One that cannot be finished is reported with its error and handed back; the rest
of the batch goes on. Nothing is tried twice here, and trying again later is always safe. Commits
need not wait for each other; whoever commits a batch may let some of them overlap.
-/

namespace TableSink

/-- Why a committable could not be finished. -/
inductive CommitFailure where
  /-- Its file was not found. -/
  | recovery (source : RecoveryError)
  /-- Its file could not be published or removed. -/
  | commit (source : CommitError)
deriving DecidableEq, Repr

/-- The sentence that reports the failure. -/
def CommitFailure.message : CommitFailure → String
  | .recovery source => "Recovery failed: " ++ source.message
  | .commit source => "Commit failed: " ++ source.message

/-- A committable that was handed back, and why. -/
structure FailedCommit where
  committable : Committable
  error : CommitFailure
deriving DecidableEq, Repr

/-- What became of the file of a committable. -/
inductive Finish where
  /-- It stands at its target. -/
  | committed
  /-- It is gone. -/
  | discarded
deriving DecidableEq, Repr

/-- What became of a batch. -/
structure CommitReport where
  /-- How many files stand at their targets. -/
  committed : Nat := 0
  /-- How many files are gone. -/
  discarded : Nat := 0
  /-- The committables that could not be finished. -/
  failed : List FailedCommit := []
deriving DecidableEq, Repr

namespace CommitReport

/-- Whether every committable was finished. -/
def isSuccess (r : CommitReport) : Bool := r.failed.isEmpty

/-- The committables that could not be finished, for another attempt. -/
def intoRetries (r : CommitReport) : Except Panic (List Committable) :=
  r.failed.mapM fun f ↦ f.committable.retryLater

/-- The report with one more result. -/
def add (r : CommitReport) : Except FailedCommit Finish → CommitReport
  | .ok .committed => { r with committed := r.committed + 1 }
  | .ok .discarded => { r with discarded := r.discarded + 1 }
  | .error f => { r with failed := r.failed ++ [f] }

/-- The report on some results. -/
def ofResults (results : List (Except FailedCommit Finish)) : CommitReport :=
  results.foldl add {}

end CommitReport

namespace Token

/-- Publish or remove the file of a token. -/
def finish : Token → Task (Except CommitFailure Finish)
  | .pending token => do
    match ← token.recover with
    | .error e =>
      Task.report (.commitFailed .recover)
      return .error (.recovery e)
    | .ok file =>
      match ← file.commitRecovered with
      | .error e =>
        Task.report (.commitFailed .commit)
        return .error (.commit e)
      | .ok () => return .ok .committed
  | .inProgress token => do
    match ← token.cleanup with
    | .error e =>
      Task.report (.commitFailed .cleanup)
      return .error (.commit e)
    | .ok _ => return .ok .discarded

end Token

namespace Committable

/-- Finish a committable, or hand it back as it is. -/
def finish (c : Committable) : Task (Except FailedCommit Finish) := do
  return (← c.token.finish).mapError fun e ↦ ⟨c, e⟩

end Committable

/-- Finish every committable of a batch. -/
def commitBatch (batch : List Committable) : Task CommitReport := do
  let results ← batch.mapM Committable.finish
  Task.report .batchCompleted
  return .ofResults results

/-- Work in which batches are committed. How the commits of a batch overlap is a matter of the work;
there is a limit to how many of them are under way at a time. -/
class Committing (m : Type → Type) where
  /-- Finish every committable of a batch. -/
  commitBatch (limit : Nat) (batch : List Committable) : m CommitReport

/-- In a task, one commit comes after the other. -/
@[default_instance]
instance : Committing Task := ⟨fun _ ↦ commitBatch⟩

end TableSink
