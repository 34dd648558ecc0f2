import TableSink.Partition.Spec
import TableSink.Storage.Task

/-!
# Places for new files

Every file has two places: where its bytes wait, below the directory of the attempt that writes it,
and where it shows once it is published. The files of a partition are numbered, and numbers only
grow, so no place is handed out twice. The name at the target also holds the run, the worker and the
generation.
-/

namespace TableSink

/-- One attempt of one worker to do its part. -/
structure Attempt where
  worker : UInt32
  generation : UInt64
deriving DecidableEq, Repr

/-- The name of an attempt. -/
def Attempt.name (a : Attempt) : String :=
  "task-" ++ toString a.worker.toNat ++ "-" ++ toString a.generation.toNat

/-- How files are named. -/
structure FileNaming where
  /-- What every name begins with. -/
  stem : String := "part"
  /-- What the name of a published file ends with. -/
  suffix : String := ""
deriving DecidableEq, Repr

/-- The two places of a file. -/
structure Slot where
  /-- Where the bytes wait. -/
  staging : ObjectPath
  /-- Where the file shows once it is published. -/
  target : ObjectPath
  /-- The partition of the file, as one text. -/
  bucket : String
  /-- The number of the file among those of its partition. -/
  sequence : Nat
deriving DecidableEq, Repr

/-- Hands out places for the files of one attempt. -/
structure Allocator where
  attempt : Attempt
  /-- The directory of the attempt. -/
  taskDir : ObjectPath
  naming : FileNaming
  /-- The run that the files belong to. -/
  run : String
  /-- For every partition that has files, how many. -/
  counts : List (String × Nat) := []
deriving Repr

namespace Allocator

/-- An allocator below a staging directory. -/
def new (stagingDir : String) (attempt : Attempt) (naming : FileNaming) (run : String) :
    Allocator where
  attempt
  taskDir := (ObjectPath.ofText stagingDir).child attempt.name
  naming
  run

/-- How many files of a partition there are. -/
def count (a : Allocator) (bucket : String) : Nat := (a.counts.lookup bucket).getD 0

/-- The allocator with one more file of a partition. -/
def bump (a : Allocator) (bucket : String) : Allocator :=
  { a with counts := (bucket, a.count bucket + 1) :: a.counts.filter (·.1 ≠ bucket) }

/-- The name of a file that waits. -/
def stagingName (a : Allocator) (sequence : Nat) : String :=
  a.naming.stem ++ "-" ++ toString sequence

/-- The name of a published file. -/
def targetName (a : Allocator) (sequence : Nat) : String :=
  a.naming.stem ++ "-" ++ a.run ++ "-" ++ toString a.attempt.worker.toNat ++ "-" ++
    toString a.attempt.generation.toNat ++ "-" ++ toString sequence ++ a.naming.suffix

/-- The places of the file of a partition with a number. -/
def slot (a : Allocator) (spec : PartitionSpec) (sequence : Nat) : Slot where
  staging := (spec.nest a.taskDir).child (a.stagingName sequence)
  target := (spec.nest .root).child (a.targetName sequence)
  bucket := spec.bucket
  sequence

/-- Places for one more file of a partition. -/
def allocate (a : Allocator) (spec : PartitionSpec) : Slot × Allocator :=
  (a.slot spec (a.count spec.bucket), a.bump spec.bucket)

/-- The files that wait in the directory of the attempt. -/
def listStaged (a : Allocator) : Task (Except StorageError (List ObjectPath)) :=
  Task.listBelow a.taskDir

end Allocator

end TableSink
