import TableSink.Storage.Directory
import TableSink.Storage.Location
import TableSink.Storage.Memory

/-!
# All places for tables

A world holds the stores in memory, by name, and a disk. Opening a table finds its place in the
world and makes its directory; from then on the table answers requests.
-/

namespace TableSink

/-- The stores in memory and the disk. -/
structure World where
  /-- The stores in memory that were touched, under their names. -/
  memory : List (String × MemoryStore)
  /-- The disk. -/
  disk : Disk
deriving Inhabited

/-- Where an opened table keeps its objects. -/
inductive Backend where
  /-- A store in memory. -/
  | memory (name : String)
  /-- The directory at a place. -/
  | directory (place : List String)
deriving DecidableEq, Repr

/-- An opened table. -/
structure Table where
  /-- The URL of the table in its one canonical form. -/
  url : String
  backend : Backend
deriving DecidableEq, Repr

namespace Table

/-- The short description of an opened table. -/
def describe (t : Table) : String := "StorageProvider<" ++ t.url ++ ">"

end Table

namespace World

/-- The store of a name; one that was not touched is empty. -/
def store (w : World) (name : String) : MemoryStore := (w.memory.lookup name).getD .empty

/-- The world with another store of a name. -/
def setStore (w : World) (name : String) (s : MemoryStore) : World :=
  { w with memory := (name, s) :: w.memory.filter (·.1 ≠ name) }

/-- The world with another directory tree. -/
def setTree (w : World) (tree : FileTree) : World := { w with disk := { w.disk with tree } }

/-- Open the table that a URL names, making its directory if it is missing. -/
def openTable (url : String) (w : World) : World × Except StorageError Table :=
  match Location.ofUrl? url with
  | none => (w, .error (.invalidUrl url))
  | some (.memory name) =>
    (w, .ok ⟨(Location.memory name).url, .memory name⟩)
  | some (.directory path) =>
    let (disk, made) := w.disk.createDirectories path
    let w := { w with disk }
    match made with
    | .error fault => (w, .error (.prepareRoot path fault))
    | .ok place =>
      let canonical := "/" ++ String.intercalate "/" place
      (w, .ok ⟨(Location.directory canonical).url, .directory place⟩)

/-- What a table replies. -/
def answer (backend : Backend) (r : Request) (w : World) : r.Reply × World :=
  match backend with
  | .memory name =>
    let (reply, s) := MemoryStore.answer r (w.store name)
    (reply, w.setStore name s)
  | .directory place =>
    let (reply, tree) := Directory.answer place r w.disk.tree
    (reply, w.setTree tree)

/-- All that lies below the root of a table, transient files included. -/
def contents (backend : Backend) (w : World) : List (ObjectPath × ByteArray) :=
  match backend with
  | .memory name => (w.store name).objects.filter fun o ↦ o.1.isBelow .root
  | .directory place =>
    match w.disk.tree.find place with
    | .ok (.directory entries) => (FileTree.filesOf entries).map fun f ↦ (⟨f.1⟩, f.2)
    | _ => []

end World

end TableSink
