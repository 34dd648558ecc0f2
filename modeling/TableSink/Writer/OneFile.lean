import TableSink.File.Open

/-!
# One file at a time

The part of a writer that has at most one open file: records go to that file, and it is closed
before another one is opened.
-/

namespace TableSink

/-- How records are laid out: in which partitions, and in which form. -/
structure Layout (ρ : Type) where
  computer : PartitionComputer ρ
  encoder : Encoder ρ Json.Fault

/-- A writer's open file, if there is one, and the committables of the files that it closed. -/
structure OneFile where
  allocator : Allocator
  current : Option OpenFile := none
  /-- The committables that were not fetched yet. -/
  closed : List Committable := []

namespace OneFile

variable {ρ : Type}

/-- The open file, or a new one in a partition. -/
def take (w : OneFile) (spec : PartitionSpec) : Task (OneFile × OpenFile) :=
  match w.current with
  | some f => return (w, f)
  | none => do
    let (slot, allocator) := w.allocator.allocate spec
    return ({ w with allocator }, ← OpenFile.start slot)

/-- Write a record to the open file, or to a new one in a partition. A file whose encoding failed is
dropped. -/
def put (encoder : Encoder ρ Json.Fault) (w : OneFile) (spec : PartitionSpec) (record : ρ) :
    Task (OneFile × Except WriteError Unit) := do
  let (w, f) ← w.take spec
  match ← f.write encoder record with
  | (f, .ok ()) => return ({ w with current := some f }, .ok ())
  | (_, .error e) => return ({ w with current := none }, .error e)

/-- Close the open file. A file that cannot be closed is dropped. -/
def close (w : OneFile) (kind : CloseKind) : Task (OneFile × Except WriteError Unit) :=
  match w.current with
  | none => return (w, .ok ())
  | some f => do
    match ← f.close kind with
    | .ok c => return ({ w with current := none, closed := w.closed ++ [c] }, .ok ())
    | .error e => return ({ w with current := none }, .error e)

/-- Write a record without regard to its partition: all records go to the same one. -/
def writeFixed (layout : Layout ρ) (spec : PartitionSpec) (w : OneFile) (record : ρ) :
    Task (OneFile × Except WriteError Unit) :=
  match layout.computer.project record with
  | .error e => return (w, .error (.computation e))
  | .ok projected => w.put layout.encoder spec projected

/-- Write a record to its partition. An open file of another partition is closed first, so records
should come clustered; a partition that comes again gets another file. -/
def writeClustered (layout : Layout ρ) (w : OneFile) (record : ρ) :
    Task (OneFile × Except WriteError Unit) :=
  match layout.computer.partition record, layout.computer.project record with
  | .error e, _ | .ok _, .error e => return (w, .error (.computation e))
  | .ok spec, .ok projected => do
    if w.current.any (·.slot.bucket ≠ spec.bucket) then
      match ← w.close .commit with
      | (w, .ok ()) => w.put layout.encoder spec projected
      | (w, .error e) => return (w, .error e)
    else w.put layout.encoder spec projected

end OneFile

end TableSink
