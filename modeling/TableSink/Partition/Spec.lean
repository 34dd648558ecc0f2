import TableSink.ObjectPath

/-!
# Partition specifications

A specification is an ordered list of columns with their values; its order is the order in which
directories nest. It is written in two ways: as one text, the *bucket* (`p=a/q=b`), and as a path
built directory by directory. In both, a column or value is escaped on its own first.
-/

namespace TableSink

/-- Columns with their values, outermost directory first. -/
abbrev PartitionSpec := List (String × String)

namespace PartitionSpec

/-- Give a column a value. A column that is there keeps its place. -/
def set (column value : String) : PartitionSpec → PartitionSpec
  | [] => [(column, value)]
  | entry :: rest =>
    if entry.1 = column then (column, value) :: rest else entry :: set column value rest

/-- The specification that a list of assignments leaves behind. -/
def ofAssignments (assignments : List (String × String)) : PartitionSpec :=
  assignments.foldl (fun spec a ↦ set a.1 a.2 spec) []

/-! ## Names of directories -/

/-- The characters that would be mistaken for part of the notation. -/
def reserved : List Char :=
  ['\x22', '#', '%', '\x27', '*', '/', ':', '=', '?', '\\', '\x7f', '\x7b', '[', ']', '^']

/-- Whether a column or value holds this character in escaped form only. -/
def isReserved (c : Char) : Bool := c.toNat < 0x20 || reserved.contains c

/-- One character of a column or value, as it stands in a bucket. -/
def escapeChar (c : Char) : List Char :=
  if isReserved c then Text.percentByte c.toNat.toUInt8 else [c]

/-- A column or value as it stands in a bucket. -/
def escapeName (s : String) : String := String.ofList (s.toList.flatMap escapeChar)

/-- The name of the directory for one column and value. -/
def directory (entry : String × String) : String :=
  escapeName entry.1 ++ "=" ++ escapeName entry.2

/-- The specification as one text; empty without columns. -/
def bucket (spec : PartitionSpec) : String :=
  String.ofList (Text.join '/' (spec.map fun entry ↦ (directory entry).toList))

/-- The path below `base` that a specification leads to. -/
def nest (spec : PartitionSpec) (base : ObjectPath) : ObjectPath :=
  spec.foldl (fun path entry ↦ path.child (directory entry)) base

example : bucket [("a/b", "1"), ("q", "")] = "a%2Fb=1/q=" := by decide +kernel

example : (nest [("a/b", "1"), ("q", "")] .root).text = "a%252Fb=1/q=" := by decide +kernel

end PartitionSpec

end TableSink
