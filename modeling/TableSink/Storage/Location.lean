/-!
# Where a table lives

A table is named by a URL: a named store in memory, or a directory. A line feed never belongs to a
location, whatever stands in front of it.
-/

namespace TableSink

/-- The place of a table. -/
inductive Location where
  /-- A store in memory, shared by all that use its name. -/
  | memory (name : String)
  /-- A directory, named by an absolute path. -/
  | directory (path : String)
deriving DecidableEq, Repr

namespace Location

/-- A path with a `/` in front. -/
def absolute (cs : List Char) : String :=
  String.ofList (if cs.head? = some '/' then cs else '/' :: cs)

/-- What is left of `cs` behind `start`, if it begins so. -/
def dropStart? : (start cs : List Char) → Option (List Char)
  | [], cs => some cs
  | _ :: _, [] => none
  | s :: start, c :: cs => if s = c then dropStart? start cs else none

/-- The location that a URL names. The longer form `file://` is looked for before `file:`. -/
def ofUrl? (url : String) : Option Location :=
  let cs := url.toList
  if '\n' ∈ cs then none
  else match dropStart? "memory://".toList cs with
    | some name => some (.memory (String.ofList name))
    | none =>
      ((dropStart? "file://".toList cs).or <| (dropStart? "file:".toList cs).or <|
        dropStart? "/".toList cs).map fun path ↦ .directory (absolute path)

/-- The URL that names a location and nothing else. -/
def url : Location → String
  | .memory name => "memory://" ++ name
  | .directory path => "file://" ++ path

example : ofUrl? "file:tmp/t" = some (.directory "/tmp/t") := by decide +kernel

example : ofUrl? "memory:/x" = none := by decide +kernel

end Location

end TableSink
