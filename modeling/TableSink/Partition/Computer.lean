import TableSink.Json.Parser
import TableSink.Json.Printer
import TableSink.Partition.Spec

/-!
# From records to partitions

A partition computer says where a record belongs and what of it is written. Records here are JSON
objects: the values of the partition columns name the partition, and the rest is written.
-/

namespace TableSink

/-- Why a record has no partition. -/
inductive ComputationError where
  /-- The record is no object. -/
  | notAnObject (kind : String)
  /-- A partition column holds an array or an object. -/
  | unsupportedValue (column kind : String)
  /-- A line of the input holds no record. -/
  | malformedRecord (line : Nat) (fault : Json.Fault)
deriving DecidableEq, Repr

/-- The sentence that reports the error. -/
def ComputationError.message : ComputationError → String
  | .notAnObject kind => "Record is not a JSON object (found " ++ kind ++ ")"
  | .unsupportedValue column kind =>
    "Partition column '" ++ column ++ "' has unsupported " ++ kind ++ " value"
  | .malformedRecord line fault =>
    "Malformed record at line " ++ toString line ++ ": " ++ fault.tag

/-- Says where a record belongs and what of it is written. -/
structure PartitionComputer (ρ : Type) where
  /-- The partition of a record. -/
  partition : ρ → Except ComputationError PartitionSpec
  /-- What of a record is written. -/
  project : ρ → Except ComputationError ρ

/-- The value that stands for a missing one. -/
def defaultPartitionName : String := "__DEFAULT_PARTITION__"

/-- Partitions JSON objects by the values of some members. -/
structure JsonPartitioner where
  /-- The members that name the partition, outermost directory first. -/
  columns : List String
  /-- The value that stands for a missing one. -/
  defaultName : String := defaultPartitionName
deriving Repr

namespace JsonPartitioner

/-- The value of a column in a directory name. A member that is missing, null or empty has the
default name; arrays and objects have no name. -/
def columnValue (p : JsonPartitioner) (column : String) :
    Option Json → Except ComputationError String
  | none | some .null => .ok p.defaultName
  | some (.string s) => .ok (if s = "" then p.defaultName else s)
  | some (.boolean b) => .ok (if b then "true" else "false")
  | some (.number n) => .ok (String.ofList n.render)
  | some v => .error (.unsupportedValue column v.kind)

/-- The partition of a record. -/
def partition (p : JsonPartitioner) : Json → Except ComputationError PartitionSpec
  | .object members =>
    p.columns.foldlM (fun spec column ↦
      (p.columnValue column (members.lookup column)).map fun value ↦ spec.set column value) []
  | record => .error (.notAnObject record.kind)

/-- The record without the partition columns; they are in the path already. -/
def project (p : JsonPartitioner) : Json → Except ComputationError Json
  | .object members => .ok (.object (members.filter fun m ↦ !p.columns.contains m.1))
  | record => .error (.notAnObject record.kind)

/-- The partitioner as a partition computer. -/
def computer (p : JsonPartitioner) : PartitionComputer Json := ⟨p.partition, p.project⟩

end JsonPartitioner

end TableSink
