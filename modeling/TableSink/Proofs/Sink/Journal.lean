import TableSink.Proofs.Ingest.Input

/-!
# The journal of a sink

What a sink was asked to do cuts the records that it took, and the places that it handed out, into
batches. A `Journal` says which batches were closed in good order and which were given up, which
records each of them has, and which of these belong to one file. It is told from the calls and from
what they returned. A record is taken if its write returns well, or if only the commit that follows
fails; it goes to the open file of its partition or to a new one (`Batch.take`), as the strategy
wants it.

An error that names a file may come from before or after the record was taken. Before it, the file
of another partition was to be closed; the records in that file are lost (`Batch.drop`), while the
batch goes on. After it, the batch was full and could not be closed, so it is given up as a whole.
The path tells which (`Config.misses`).

Places are handed out in order, so those of a batch are told by what had handed out places when it
began and when it ended (`Batch.Has`).
-/

namespace TableSink

/-- A batch as it is seen from outside. -/
structure Batch where
  /-- What had handed out places when it began. -/
  first : Allocator
  /-- What had handed out places when it ended, or has by now. -/
  last : Allocator
  /-- The records that were taken. -/
  records : List Json := []
  /-- The files that they went to: those that were closed for another partition, those that are open
  until the batch ends, and those that were dropped. -/
  books : Books Json := {}

namespace Batch

/-- A batch without records. -/
def start (a : Allocator) : Batch := { first := a, last := a }

variable (t : Batch)

/-- The files of the batch, without those that were dropped. -/
def files : List (Filed Json) := t.books.batch

/-- The files whose records are lost to the batch. -/
def dropped : List (Filed Json) := t.books.dropped

/-- A record is taken into the open file of its partition, or into a new one. -/
def take (config : Config) (record : Json) : Batch :=
  { t with
    records := t.records ++ [record]
    books :=
      match config.partition? record with
      | some spec =>
        (t.books.turn config.strategy spec).add spec (t.last.count spec.bucket) record
      | none => t.books }

/-- The open files are dropped. -/
def drop : Batch := { t with books := t.books.close [] t.books.opened }

/-- The place of a partition with this number was handed out for the batch. -/
def Has (spec : PartitionSpec) (i : Nat) : Prop :=
  t.first.count spec.bucket ≤ i ∧ i < t.last.count spec.bucket

instance (spec : PartitionSpec) (i : Nat) : Decidable (t.Has spec i) :=
  inferInstanceAs (Decidable (_ ∧ _))

/-- The file has one of the places of the batch, and holds some of its records in their order. -/
structure Owns (f : Filed Json) : Prop where
  has : t.Has f.spec f.sequence
  records : f.records.Sublist t.records

end Batch

/-- Whether a write has failed before the record was taken. With the grouped strategy it may be that
a file could not be staged; then it is none of the partition of the record. -/
def Config.misses (config : Config) (a : Allocator) (record : Json) :
    Except SinkError Unit → Bool
  | .ok () | .error (.batchFailed _ _) => false
  | .error (.write (.stage path _)) =>
    config.strategy = .grouped ∧ ∀ spec ∈ config.partition? record, ∀ i < a.count spec.bucket,
      path ≠ (a.slot spec i).staging
  | .error _ => true

/-- What has become of the batches of a sink. -/
structure Journal where
  /-- The open batch. -/
  current : Batch
  /-- The batches that were closed in good order, also if a commit has failed. -/
  closed : List Batch := []
  /-- The batches that were given up. -/
  abandoned : List Batch := []
  /-- How many checkpoints ended well that had something to commit. -/
  committed : Nat := 0
  /-- How many boundaries there were. -/
  boundaries : Nat := 0

namespace Journal

/-- Nothing was asked of the sink yet. -/
def start (a : Allocator) : Journal := { current := .start a }

variable (j : Journal)

/-- Places were handed out. -/
def upTo (a : Allocator) : Journal := { j with current := { j.current with last := a } }

/-- A record was taken. -/
def take (config : Config) (record : Json) : Journal :=
  { j with current := j.current.take config record }

/-- A record was not taken. If a file could not be staged for it, that file is dropped. -/
def miss : Except SinkError Unit → Journal
  | .error (.write (.stage _ _)) => { j with current := j.current.drop }
  | _ => j

/-- The open batch was closed in good order. -/
def close : Journal :=
  { j with
    current := .start j.current.last
    closed := j.closed ++ [j.current]
    boundaries := j.boundaries + 1 }

/-- The open batch was given up. -/
def abandon : Journal :=
  { j with
    current := .start j.current.last
    abandoned := j.abandoned ++ [j.current]
    boundaries := j.boundaries + 1 }

/-- A checkpoint returned. There was something to commit if something was kept for it, or if the
batch has files. -/
def boundary (kept : List Committable) : Except SinkError Unit → Journal
  | .ok () =>
    { j.close with
      committed := j.committed + if kept = [] ∧ j.current.files.isEmpty then 0 else 1 }
  | .error (.batchFailed _ _) => j.close
  | .error _ => j.abandon

/-- The journal after a call on a sink, told from what it returned. -/
def after (config : Config) (s s' : Sink) (result : Except SinkError Unit) : Sink.Call → Journal
  | .checkpoint => (j.upTo s'.writer.allocator).boundary s.retries result
  | .abort => (j.upTo s'.writer.allocator).abandon
  | .write record =>
    if config.misses s'.writer.allocator record result then
      (j.miss result).upTo s'.writer.allocator
    else
      let j := (j.take config record).upTo s'.writer.allocator
      if config.batchSize ≤ j.current.records.length then j.boundary s.retries result else j

/-- The call is a checkpoint, should its record be taken. -/
def Closes (config : Config) : Sink.Call → Prop
  | .checkpoint => True
  | .abort => False
  | .write _ => config.batchSize ≤ j.current.records.length + 1

variable {j} {j' : Journal}

/-- The open batch is over, and another one begins. -/
structure Turns (j j' : Journal) : Prop where
  current : j'.current = .start j.current.last
  batches : j'.closed = j.closed ++ [j.current] ∧ j'.abandoned = j.abandoned ∨
    j'.closed = j.closed ∧ j'.abandoned = j.abandoned ++ [j.current]

theorem turns_abandon : j.Turns j.abandon := ⟨rfl, .inr ⟨rfl, rfl⟩⟩

theorem Turns.closed_subset (h : j.Turns j') : j.closed ⊆ j'.closed := by
  rcases h.batches with ⟨hclosed, -⟩ | ⟨hclosed, -⟩
  · exact hclosed ▸ List.subset_append_left _ _
  · exact hclosed ▸ List.Subset.refl _

theorem upTo_eq {a : Allocator} (h : j.current.last = a) : j.upTo a = j := by
  subst h
  rfl

/-- A record that is not taken changes nothing but the files of the open batch. -/
theorem miss_eq (result : Except SinkError Unit) : ∃ books, j.miss result =
    { j with current := { j.current with books } } := by
  unfold miss
  split
  · exact ⟨_, rfl⟩
  · exact ⟨_, rfl⟩

/-- Every checkpoint is a boundary, whatever it returns. -/
theorem turns_boundary (kept : List Committable) (result : Except SinkError Unit) :
    j.Turns (j.boundary kept result) ∧ (j.boundary kept result).boundaries = j.boundaries + 1 := by
  unfold boundary
  split
  · exact ⟨⟨rfl, .inl ⟨rfl, rfl⟩⟩, rfl⟩
  · exact ⟨⟨rfl, .inl ⟨rfl, rfl⟩⟩, rfl⟩
  · exact ⟨turns_abandon, rfl⟩

end Journal

end TableSink
