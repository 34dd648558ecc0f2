import TableSink.Storage.FileTree
import TableSink.Storage.Task

/-!
# Tables in a directory

An object is a file below the directory of its table; the segments of its path are the names on the
way, taken as they stand. A file is first written under a name of its own, beside the one that it is
to have, so names that end with `#` and a number do not belong to objects.

A path that ends like the name of a drive, with a letter and a mark, is written with a separator
behind it. It leads to directories only, so no object is ever found or stored there.
-/

namespace TableSink.Directory

/-! ## Names -/

/-- Whether a name is kept for a file that is still being written. -/
def isTransient (name : String) : Bool :=
  match name.toList.dropWhile (· ≠ '#') with
  | '#' :: suffix => suffix ≠ [] && suffix.all Char.isDigit
  | _ => false

/-- Whether a path may be that of an object. -/
def isFilePath (p : ObjectPath) : Bool :=
  match p.segments.getLast? with
  | some name => !isTransient name
  | none => false

/-- A name under which a file may first be written. -/
def transientName (name : String) (attempt : Nat) : String := name ++ "#" ++ toString attempt

/-- The name under which a file is first written: the first one that is not taken. -/
def freeName (name : String) (taken : List String) : String :=
  let isFree := fun attempt ↦ !taken.contains (transientName name attempt)
  transientName name (((List.range' 1 (taken.length + 1)).find? isFree).getD 1)

/-- Whether a name ends like that of a drive. -/
def endsLikeDrive (name : String) : Bool :=
  match name.toList.reverse with
  | mark :: letter :: _ => (mark == ':' || mark == '|') && letter.isAlpha
  | _ => false

/-! ## Spots -/

/-- Where the file of an object is looked for. -/
structure Spot where
  /-- The names on the way. -/
  place : List String
  /-- Whether only a directory can be found there. -/
  closed : Bool
deriving DecidableEq, Repr

namespace Spot

/-- The spot of a path in the table at `base`. -/
def ofPath (base : List String) (path : ObjectPath) : Spot :=
  let place := base ++ path.segments
  ⟨place, (place.getLast?.map endsLikeDrive).getD false⟩

/-- The place of the directory around a spot. -/
def around (s : Spot) : List String := s.place.dropLast

/-- The last name on the way. -/
def name (s : Spot) : String := s.place.getLast?.getD ""

/-- Whether the path to a spot is too long to be asked for. -/
def isDeep (s : Spot) : Bool := FileTree.isDeep (if s.closed then s.place ++ [""] else s.place)

/-- What is found at a spot. -/
def find (s : Spot) (t : FileTree) : Except FileFault FileTree := do
  if s.isDeep then throw .invalidName
  match ← t.find s.place with
  | .file data => if s.closed then throw .notADirectory else return .file data
  | .directory entries => return .directory entries

/-- The directory in which a file for this spot is first written. In front of a separator that is
the directory at the spot. -/
def writingPlace (s : Spot) : List String := if s.closed then s.place else s.around

/-- The spot where a file for this one is first written, given the names that are taken there. -/
def transient (s : Spot) (taken : List String) : Spot :=
  ⟨s.writingPlace ++ [freeName (if s.closed then "" else s.name) taken], false⟩

end Spot

/-! ## Requests -/

/-- How a refusal of the file system is passed on. -/
def storeFault : FileFault → StoreFault
  | .notFound => .notFound
  | _ => .failed

/-- The bytes of an object. A directory is no object. -/
def read (t : FileTree) (s : Spot) : Except StoreFault ByteArray :=
  match s.find t with
  | .ok (.file data) => .ok data
  | .ok (.directory _) => .error .notFound
  | .error fault => .error (storeFault fault)

/-- What is in the directory at a place. -/
def entriesAt (t : FileTree) (place : List String) :
    Except FileFault (List (String × FileTree)) := do
  match ← t.find place with
  | .file _ => throw .notADirectory
  | .directory entries => return entries

/-- The tree with a directory at a place, made if nothing is there, and what is in it. -/
def prepare (t : FileTree) (place : List String) :
    FileTree × Except FileFault (List (String × FileTree)) :=
  match entriesAt t place with
  | .error .notFound =>
    match t.createDirectories place with
    | (t, .ok ()) => (t, entriesAt t place)
    | (t, .error fault) => (t, .error fault)
  | result => (t, result)

/-- Write a file: under a transient name first, which takes its place then. -/
def write (t : FileTree) (s : Spot) (data : ByteArray) : Except StoreFault Unit × FileTree :=
  if (s.transient []).isDeep then (.error .failed, t)
  else match prepare t s.writingPlace with
    | (t, .error _) => (.error .failed, t)
    | (t, .ok entries) =>
      let first := s.transient (entries.map Prod.fst)
      if first.isDeep || FileTree.isLong first.name || s.closed then (.error .failed, t)
      else match t.find s.place with
        | .ok (.directory _) => (.error .failed, t)
        | _ => (.ok (), t.put s.place (some (.file data)))

/-- Remove a file. -/
def remove (t : FileTree) (s : Spot) : Except StoreFault Unit × FileTree :=
  match s.find t with
  | .ok (.file _) => (.ok (), t.put s.place none)
  | .ok (.directory _) => (.error .failed, t)
  | .error fault => (.error (storeFault fault), t)

/-- Whether something may take the place of something else. -/
def replaces : (moved there : FileTree) → Except FileFault Unit
  | .file _, .file _ => .ok ()
  | .file _, .directory _ => .error .isADirectory
  | .directory _, .file _ => .error .notADirectory
  | .directory _, .directory entries =>
    if entries.isEmpty then .ok () else .error .directoryNotEmpty

/-- The directory around a spot has to be there. -/
def checkAround (t : FileTree) (s : Spot) : Except FileFault Unit := do
  if s.isDeep then throw .invalidName
  match ← t.find s.around with
  | .file _ => throw .notADirectory
  | .directory _ => return ()

/-- Move a file, or a directory with all that is in it. What is around both spots has to be there,
and is looked at before the spots themselves. -/
def rename (t : FileTree) (source target : Spot) : Except FileFault FileTree := do
  checkAround t source
  checkAround t target
  let moved ← t.find source.place
  let there ← match t.find target.place with
    | .ok there => pure (some there)
    | .error .notFound => pure none
    | .error fault => throw fault
  if (moved matches .file _) ∧ (source.closed ∨ target.closed) then throw .notADirectory
  if source.place = target.place then return t
  if source.place.isPrefixOf target.place then throw .invalidInput
  if target.place.isPrefixOf source.place then throw .directoryNotEmpty
  if let some there := there then replaces moved there
  return (t.put source.place none).put target.place (some moved)

/-- Move a file, or a directory with all that is in it. If there is something to move, the directory
around the target is made where it is missing. -/
def move (t : FileTree) (source target : Spot) : Except StoreFault Unit × FileTree :=
  match rename t source target with
  | .ok t => (.ok (), t)
  | .error .notFound =>
    match source.find t, prepare t target.around with
    | .error _, _ => (.error .notFound, t)
    | .ok _, (t, .error _) => (.error .failed, t)
    | .ok _, (t, .ok _) =>
      match rename t source target with
      | .ok t => (.ok (), t)
      | .error fault => (.error (storeFault fault), t)
  | .error _ => (.error .failed, t)

/-- The paths of the objects among some files, given the names on the way to these from the table
on. A name that no path can hold spoils all. -/
def objects (files : List (List String)) : Except StoreFault (List ObjectPath) :=
  if files.any fun f ↦ f.any (·.toList.any ObjectPath.isControl) then .error .invalidPath
  else .ok ((files.map fun f ↦ (⟨f⟩ : ObjectPath)).filter isFilePath)

/-- The objects below a path. Where nothing is, or a file, there are none. -/
def below (t : FileTree) (base : List String) (dir : ObjectPath) :
    Except StoreFault (List ObjectPath) :=
  match (Spot.ofPath base dir).find t with
  | .ok (.file _) | .error .notFound => .ok []
  | .error _ => .error .failed
  | .ok (.directory entries) =>
    objects ((FileTree.filesOf entries).map fun f ↦ dir.segments ++ f.1)

/-- What the table in the directory at `base` replies. -/
def answer (base : List String) : (r : Request) → FileTree → r.Reply × FileTree
  | .get path, t =>
    (if isFilePath path then read t (.ofPath base path) else .error .failed, t)
  | .head path, t =>
    (if isFilePath path then (read t (.ofPath base path)).map ByteArray.size
      else .error .failed, t)
  | .put path data, t =>
    if isFilePath path then write t (.ofPath base path) data else (.error .failed, t)
  | .delete path, t =>
    if isFilePath path then remove t (.ofPath base path) else (.error .failed, t)
  | .rename source target, t =>
    if isFilePath source && isFilePath target then
      move t (.ofPath base source) (.ofPath base target)
    else (.error .failed, t)
  | .list dir, t => (below t base dir, t)

end TableSink.Directory
