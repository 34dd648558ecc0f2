import TableSink.Writer.ManyFiles

/-!
# Writers

A writer takes records and puts them into files of their partitions. At the end of a batch it is
closed, and gives a committable for every file. The strategies differ in the files that may be open
at a time: one for all records, one for clustered records, or one for every partition.
-/

namespace TableSink

/-- How records are routed to files. -/
inductive Strategy where
  /-- All records of a batch go to one file. -/
  | single
  /-- Records come clustered by partition; one file is open at a time. -/
  | grouped
  /-- Records come in any order; every partition has a file open. -/
  | dynamic
deriving DecidableEq, Repr, Inhabited

namespace Strategy

/-- The word for a strategy. -/
def name : Strategy → String
  | .single => "single"
  | .grouped => "grouped"
  | .dynamic => "dynamic"

/-- The strategy of a word. -/
def ofName? : String → Option Strategy
  | "single" => some .single
  | "grouped" => some .grouped
  | "dynamic" => some .dynamic
  | _ => none

@[simp] theorem ofName?_name (s : Strategy) : ofName? s.name = some s := by
  cases s <;> rfl

end Strategy

/-- A writer of one of the strategies. -/
inductive Writer where
  /-- All records go to one partition. -/
  | single (spec : PartitionSpec) (files : OneFile)
  /-- Records come clustered. -/
  | grouped (files : OneFile)
  /-- Every partition has a file. -/
  | dynamic (files : ManyFiles)

namespace Writer

variable {ρ : Type}

/-- A writer without open files. The partition only matters where all records go to one. -/
def new (strategy : Strategy) (allocator : Allocator) (spec : PartitionSpec) : Writer :=
  match strategy with
  | .single => .single spec { allocator }
  | .grouped => .grouped { allocator }
  | .dynamic => .dynamic { allocator }

/-- The strategy of a writer. -/
def strategy : Writer → Strategy
  | .single _ _ => .single
  | .grouped _ => .grouped
  | .dynamic _ => .dynamic

/-- What hands out places to the writer. -/
def allocator : Writer → Allocator
  | .single _ files | .grouped files => files.allocator
  | .dynamic files => files.allocator

/-- The open files, in the order in which they were opened. -/
def opened : Writer → List OpenFile
  | .single _ files | .grouped files => files.current.toList
  | .dynamic files => files.opened

/-- The committables that were not fetched yet. -/
def closed : Writer → List Committable
  | .single _ files | .grouped files => files.closed
  | .dynamic files => files.closed

/-- Write a record to the file of its partition. -/
def write (layout : Layout ρ) (w : Writer) (record : ρ) : Task (Writer × Except WriteError Unit) :=
  match w with
  | .single spec files => do
    let (files, result) ← files.writeFixed layout spec record
    return (.single spec files, result)
  | .grouped files => do
    let (files, result) ← files.writeClustered layout record
    return (.grouped files, result)
  | .dynamic files => do
    let (files, result) ← files.write layout record
    return (.dynamic files, result)

/-- Close every open file, to be published or to be removed. -/
def close (w : Writer) (kind : CloseKind) : Task (Writer × Except WriteError Unit) :=
  match w with
  | .single spec files => do
    let (files, result) ← files.close kind
    return (.single spec files, result)
  | .grouped files => do
    let (files, result) ← files.close kind
    return (.grouped files, result)
  | .dynamic files => do
    let (files, result) ← files.close kind
    return (.dynamic files, result)

/-- The writer after its committables were fetched. -/
def drain : Writer → Writer
  | .single spec files => .single spec { files with closed := [] }
  | .grouped files => .grouped { files with closed := [] }
  | .dynamic files => .dynamic { files with closed := [] }

end Writer

end TableSink
