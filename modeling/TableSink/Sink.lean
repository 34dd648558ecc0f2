import TableSink.Commit.Batch
import TableSink.Config.Basic

/-!
# Sinks

A sink writes records to a table batch by batch. A batch ends at a *boundary*: a checkpoint, which
closes and commits it, or an abort, which gives it up. Nothing of a batch shows in the table before
its checkpoint.

Committables whose commit failed are kept, and taken into the next boundary; they belong to batches
that were closed in good order, so an abort does not touch them. What was staged for a batch that is
given up is removed, and can never be published. If a committable was handed back too often to be
counted, the program stops in the middle of a boundary, and nothing is left of the sink.

A sink works in any way in which tasks are gone through and batches are committed; it only says how
many committables may be finished at the same time.
-/

namespace TableSink

/-- Why a sink could not do what it was asked for. -/
inductive SinkError where
  /-- There is no valid configuration. -/
  | config (source : ConfigError)
  /-- The table cannot be opened or looked at. -/
  | storage (source : StorageError)
  /-- An input cannot be read. -/
  | input (path : String) (fault : FileFault)
  /-- A line of an input holds no record. -/
  | computation (source : ComputationError)
  /-- A record could not be written, or a batch not be closed. -/
  | write (source : WriteError)
  /-- Some committables of a batch could not be finished. -/
  | batchFailed (batch failed : Nat)
deriving DecidableEq, Repr

/-- The sentence that reports the error. -/
def SinkError.message : SinkError → String
  | .config source => "Configuration error: " ++ source.message
  | .storage source => "Storage error: " ++ source.message
  | .input path fault => "Failed to read input " ++ path ++ ": " ++ fault.tag
  | .computation source => "Computation error: " ++ source.message
  | .write source => "Write error: " ++ source.message
  | .batchFailed batch failed =>
    toString failed ++ " committable(s) failed in batch " ++ toString batch

/-- What a sink has done so far. -/
structure SinkStats where
  /-- The number of records that were written. -/
  records : Nat := 0
  /-- The number of batches that were committed. -/
  batches : Nat := 0
  /-- The number of files that were published. -/
  committed : Nat := 0
  /-- The number of files that were removed. -/
  discarded : Nat := 0
deriving DecidableEq, Repr

/-- The figures with those of a commit added. -/
def SinkStats.add (s : SinkStats) (report : CommitReport) : SinkStats :=
  { s with
    committed := s.committed + report.committed
    discarded := s.discarded + report.discarded }

/-- A writer with what is kept between its batches. -/
structure Sink where
  layout : Layout Json
  writer : Writer
  /-- How many committables may be finished at the same time. -/
  concurrency : Nat
  /-- How many records make a batch. -/
  batchSize : Nat
  /-- How many records the open batch has. -/
  inBatch : Nat := 0
  /-- The committables for the next boundary. -/
  retries : List Committable := []
  stats : SinkStats := {}

namespace Sink

/-- What a call ends with: the sink and the result, unless the program stops. -/
abbrev Ending := Except Panic (Sink × Except SinkError Unit)

/-- A sink without records. Files are laid out and named as the configuration says. -/
def new (config : Config) (run : String) : Sink where
  layout := ⟨JsonPartitioner.computer ⟨config.columns, config.defaultName⟩, jsonLines⟩
  writer := .new config.strategy (.new config.stagingDir config.attempt config.naming run)
    config.fixedPartition
  concurrency := config.concurrency
  batchSize := config.batchSize

/-- Start a sink on a table. The directory of its attempt is looked through first; files that an
earlier run left there stay, but it has to be there for listing. -/
def start (config : Config) (run : String) : Task (Except SinkError Sink) := do
  let sink := new config run
  return (← sink.writer.allocator.listStaged).map (fun _ ↦ sink) |>.mapError .storage

variable {m : Type → Type} [Monad m] [MonadLiftT Task m] [Committing m]

/-- Finish committables, and count those that are finished. At least one may be under way. -/
def commit (s : Sink) (batch : List Committable) : m (Sink × CommitReport) := do
  let report ← Committing.commitBatch (max s.concurrency 1) batch
  return ({ s with stats := s.stats.add report }, report)

/-- Remove whatever the open batch has staged. Whether that succeeds is not reported. -/
def discardBatch (s : Sink) : m Sink := do
  let staged := s.writer.closed.map Committable.intoDiscard
  let s := { s with writer := s.writer.drain }
  if staged = [] then return s
  else return (← s.commit staged).1

/-- Close the open batch and commit it, together with the committables that are kept. A batch that
cannot be closed is given up. -/
def checkpoint (s : Sink) : m Ending := do
  let (writer, closed) ← s.writer.close .commit
  let s := { s with inBatch := 0, writer }
  match closed with
  | .error e => return .ok (← s.discardBatch, .error (.write e))
  | .ok () =>
    let batch := s.retries ++ s.writer.closed
    let s := { s with writer := s.writer.drain, retries := [] }
    if batch = [] then return .ok (s, .ok ())
    else
      let (s, report) ← s.commit batch
      let number := s.stats.batches + 1
      if report.isSuccess then
        return .ok ({ s with stats := { s.stats with batches := number } }, .ok ())
      else
        return report.intoRetries.map fun retries ↦
          ({ s with retries }, .error (.batchFailed number report.failed.length))

/-- Write a record, and end the batch if it is full. -/
def write (s : Sink) (record : Json) : m Ending := do
  let (writer, written) ← s.writer.write s.layout record
  let s := { s with writer }
  match written with
  | .error e => return .ok (s, .error (.write e))
  | .ok () =>
    let s := { s with
      inBatch := s.inBatch + 1
      stats := { s.stats with records := s.stats.records + 1 } }
    if s.batchSize ≤ s.inBatch then s.checkpoint else return .ok (s, .ok ())

/-- Give up the open batch. The committables that are kept get another attempt, unless the files of
the batch could not all be closed. -/
def abort (s : Sink) : m Ending := do
  let (writer, closed) ← s.writer.close .recovery
  let s ← { s with inBatch := 0, writer : Sink }.discardBatch
  match closed with
  | .error e => return .ok (s, .error (.write e))
  | .ok () =>
    if s.retries = [] then return .ok (s, .ok ())
    else
      let (s, report) ← s.commit s.retries
      return report.intoRetries.map fun retries ↦ ({ s with retries }, .ok ())

end Sink

end TableSink
