import TableSink.Storage.Fault
import TableSink.Text.Split

/-!
# Directory trees

A file system as a value: files and directories, without links or permissions. Names are at most 255
bytes long, and a whole path is shorter than 4096.

Places in a tree are given in two ways: by the names on the way down, once it is known where a path
leads, and by *steps*, the parts of a path as it is written, `.` and `..` included.
-/

namespace TableSink

/-- A file, or a directory with its entries. -/
inductive FileTree where
  /-- A file and its bytes. -/
  | file (data : ByteArray)
  /-- A directory; no name stands twice among its entries. -/
  | directory (entries : List (String × FileTree))
deriving Inhabited

namespace FileTree

/-- Whether a name is too long for a file system. -/
def isLong (name : String) : Bool := 255 < name.utf8ByteSize

/-- Whether a place is too far down for its path to be written. -/
def isDeep (place : List String) : Bool :=
  4096 ≤ ("/" ++ "/".intercalate place).utf8ByteSize

/-- The entry of a name. -/
def child? (name : String) (entries : List (String × FileTree)) : Option FileTree :=
  (entries.find? (·.1 = name)).map Prod.snd

/-- The entries with that of a name put in, replaced or taken out. -/
def setEntry (name : String) (node : Option FileTree) (entries : List (String × FileTree)) :
    List (String × FileTree) :=
  match node with
  | none => entries.filter (·.1 ≠ name)
  | some t =>
    if (child? name entries).isSome then
      entries.map fun e ↦ if e.1 = name then (name, t) else e
    else entries ++ [(name, t)]

/-! ## Places -/

/-- What stands at a place. -/
def find : (place : List String) → FileTree → Except FileFault FileTree
  | [], t => .ok t
  | _ :: _, .file _ => .error .notADirectory
  | name :: place, .directory entries =>
    if isLong name then .error .invalidName
    else match child? name entries with
      | none => .error .notFound
      | some t => t.find place

/-- The tree with what stands at a place changed. The directory around the place has to be there. -/
def alter (change : Option FileTree → Option FileTree) :
    (place : List String) → Option FileTree → Except FileFault (Option FileTree)
  | [], t => .ok (change t)
  | _ :: _, none => .error .notFound
  | _ :: _, some (.file _) => .error .notADirectory
  | name :: place, some (.directory entries) =>
    if isLong name then .error .invalidName
    else (alter change place (child? name entries)).map fun t ↦
      some (.directory (setEntry name t entries))

/-- The tree with something put at a place, or taken away; unchanged where that cannot be done. -/
def put (place : List String) (node : Option FileTree) (t : FileTree) : FileTree :=
  match alter (fun _ ↦ node) place (some t) with
  | .ok (some t) => t
  | _ => t

mutual
/-- The files of a tree with their places. -/
def files : FileTree → List (List String × ByteArray)
  | .file data => [([], data)]
  | .directory entries => filesOf entries

/-- The files below the entries of a directory. -/
def filesOf : List (String × FileTree) → List (List String × ByteArray)
  | [] => []
  | (name, t) :: entries => (t.files.map fun f ↦ (name :: f.1, f.2)) ++ filesOf entries
end

/-! ## Paths as they are written -/

/-- The parts of a path. A separator at the end asks for a directory, as a last `.` does. -/
def steps (path : String) : List String :=
  let parts := (Text.split '/' path.toList).map String.ofList
  let named := parts.filter (· ≠ "")
  if parts.getLast? = some "" then named ++ ["."] else named

/-- The place that steps lead to, from a place on. -/
def follow (t : FileTree) : (steps : List String) → (place : List String) →
    Except FileFault (List String)
  | [], place => .ok place
  | step :: steps, place => do
    match ← t.find place with
    | .file _ => throw .notADirectory
    | .directory _ =>
      if step = "." then follow t steps place
      else if step = ".." then follow t steps place.dropLast
      else
        let _ ← t.find (place ++ [step])
        follow t steps (place ++ [step])

/-! ## Making directories -/

/-- Whether steps lead to a directory. -/
def isDirectory (t : FileTree) (start steps : List String) : Bool :=
  t.follow (steps ++ ["."]) start matches .ok _

/-- The tree with a new directory where steps lead. The directory around it has to be there. -/
def makeDirectory (t : FileTree) (start steps : List String) : Except FileFault FileTree := do
  let around ← t.follow (steps.dropLast ++ ["."]) start
  match steps.getLast? with
  | none | some "." | some ".." => throw .alreadyExists
  | some name =>
    match t.find (around ++ [name]) with
    | .ok _ => throw .alreadyExists
    | .error .notFound => return t.put (around ++ [name]) (some (.directory []))
    | .error fault => throw fault

/-- The tree with a directory where the first of several ways leads. Each way leads to what is
around the end of the one before it; it is gone where something is missing, and what was made stays.
-/
def makeDirectories (start : List String) :
    (ways : List (List String)) → FileTree → FileTree × Except FileFault Unit
  | [], t => (t, .ok ())
  | steps :: around, t =>
    let last := fun (t : FileTree) ↦ match t.makeDirectory start steps with
      | .ok t => (t, .ok ())
      | .error fault => (t, if t.isDirectory start steps then .ok () else .error fault)
    match t.makeDirectory start steps with
    | .error .notFound =>
      match makeDirectories start around t with
      | (t, .ok ()) => last t
      | (t, .error fault) => (t, .error fault)
    | _ => last t

/-- The ways to the directories around the end of a way, the closest one in front. -/
def waysAround (steps : List String) : List (List String) :=
  match steps with
  | [] => []
  | step :: steps => (waysAround steps).map (step :: ·) ++ [[]]

/-- The tree with a directory at a place, and at every place on the way to it. -/
def createDirectories (place : List String) (t : FileTree) : FileTree × Except FileFault Unit :=
  makeDirectories [] (place :: waysAround place) t

end FileTree

/-- A directory tree, and the place that relative paths start from. -/
structure Disk where
  tree : FileTree
  current : List String
deriving Inhabited

namespace Disk

/-- A fault that a path has by its text alone. -/
def pathFault? (path : String) : Option FileFault :=
  if path.toList.contains '\x00' then some .invalidInput
  else if path = "" then some .notFound
  else if 4096 ≤ path.utf8ByteSize then some .invalidName
  else none

/-- Where a path starts. -/
def start (disk : Disk) (path : String) : List String :=
  if path.toList.head? = some '/' then [] else disk.current

/-- The place that a path leads to. -/
def locate (disk : Disk) (path : String) : Except FileFault (List String) :=
  match pathFault? path with
  | some fault => .error fault
  | none => disk.tree.follow (FileTree.steps path) (disk.start path)

/-- The bytes of the file that a path leads to. -/
def read (disk : Disk) (path : String) : Except FileFault ByteArray := do
  match ← disk.tree.find (← disk.locate path) with
  | .file data => return data
  | .directory _ => throw .isADirectory

/-- The disk with a directory where a path leads, and its place. A path that ends with `.` does not
name a directory that could be made: it has to be there once what is around it was made. -/
def createDirectories (disk : Disk) (path : String) : Disk × Except FileFault (List String) :=
  match pathFault? path with
  | some fault => (disk, .error fault)
  | none =>
    let steps := FileTree.steps (String.ofList (path.toList.reverse.dropWhile (· = '/')).reverse)
    let start := disk.start path
    let ways := steps :: FileTree.waysAround (steps.filter (· ≠ "."))
    let (tree, made) := FileTree.makeDirectories start ways disk.tree
    ({ disk with tree }, made.bind fun _ ↦ tree.follow steps start)

end Disk

end TableSink
