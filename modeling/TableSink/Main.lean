import TableSink.CommandLine
import TableSink.RunName

/-!
# The program

The surroundings of a job on a real machine: files, variables, the standard streams. Nothing is
decided here; requests are passed on to the operating system, and its refusals are passed back.
-/

namespace TableSink.Program

/-! ## Files -/

/-- What a refusal of the operating system means. -/
def fileFault : IO.Error → FileFault
  | .noFileOrDirectory .. | .noSuchThing .. => .notFound
  | .alreadyExists .. => .alreadyExists
  | .inappropriateType .. => .isADirectory
  | .invalidArgument .. => .invalidInput
  | .permissionDenied .. => .permissionDenied
  | .unsatisfiedConstraints .. => .directoryNotEmpty
  | _ => .other

/-- What an action gives, its refusal included. -/
def attempt {α : Type} (action : IO α) : IO (Except FileFault α) :=
  try return .ok (← action) catch e => return .error (fileFault e)

/-- The path of a place. -/
def pathOf (place : List String) : String := "/" ++ "/".intercalate place

/-- The files below a directory, with the names on the way to them. -/
partial def filesBelow (place : List String) : IO (List (List String)) := do
  let mut files := []
  for found in ← (System.mkFilePath [pathOf place]).readDir do
    let names ← if ← found.path.isDir then
        pure ((← filesBelow (place ++ [found.fileName])).map (found.fileName :: ·))
      else pure [[found.fileName]]
    files := files ++ names
  return files

/-! ## Tables in a directory -/

/-- The path of a spot. -/
def pathOfSpot (s : Directory.Spot) : String := pathOf s.place ++ (if s.closed then "/" else "")

/-- How a refusal to read an object is passed on. A directory is no object. -/
def readFault : FileFault → StoreFault
  | .isADirectory => .notFound
  | fault => Directory.storeFault fault

/-- Write a file: under a transient name first, which takes its place then. -/
def write (spot : Directory.Spot) (data : ByteArray) : IO Unit := do
  IO.FS.createDirAll (pathOf spot.writingPlace)
  let entries ← (System.mkFilePath [pathOf spot.writingPlace]).readDir
  let first := spot.transient (entries.toList.map (·.fileName))
  IO.FS.writeBinFile (pathOfSpot first) data
  try IO.FS.rename (pathOfSpot first) (pathOfSpot spot)
  catch e =>
    IO.FS.removeFile (pathOfSpot first)
    throw e

/-- Move a file to a place whose directory may be missing. -/
def move (source target : Directory.Spot) : IO Unit := do
  try IO.FS.rename (pathOfSpot source) (pathOfSpot target)
  catch e =>
    if fileFault e = .notFound ∧ (← (System.mkFilePath [pathOfSpot source]).pathExists) then
      IO.FS.createDirAll (pathOf target.around)
      IO.FS.rename (pathOfSpot source) (pathOfSpot target)
    else throw e

/-- The paths of the objects below a path. -/
def objectsBelow (base : List String) (dir : ObjectPath) :
    IO (Except StoreFault (List ObjectPath)) := do
  let spot := Directory.Spot.ofPath base dir
  let path := System.mkFilePath [pathOfSpot spot]
  if (← path.pathExists) && !(← path.isDir) then return .ok []
  match ← attempt (filesBelow spot.place) with
  | .ok files => return Directory.objects (files.map (dir.segments ++ ·))
  | .error .notFound => return .ok []
  | .error _ => return .error .failed

/-- Do something at the spot of an object, if a path may be that of an object. -/
def onObject {α : Type} (base : List String) (fault : FileFault → StoreFault) (path : ObjectPath)
    (action : Directory.Spot → IO α) : IO (Except StoreFault α) := do
  if Directory.isFilePath path then
    return (← attempt (action (.ofPath base path))).mapError fault
  else return .error .failed

/-- What the table in the directory at `base` replies. -/
def directoryAnswer (base : List String) : (r : Request) → IO r.Reply
  | .get path => onObject base readFault path fun spot ↦ IO.FS.readBinFile (pathOfSpot spot)
  | .head path => onObject base readFault path fun spot ↦ do
    return (← IO.FS.readBinFile (pathOfSpot spot)).size
  | .put path data => onObject base (fun _ ↦ .failed) path fun spot ↦ write spot data
  | .delete path => onObject base Directory.storeFault path fun spot ↦
    IO.FS.removeFile (pathOfSpot spot)
  | .rename source target =>
    if Directory.isFilePath target then
      onObject base Directory.storeFault source fun spot ↦ move spot (.ofPath base target)
    else return .error .failed
  | .list dir => objectsBelow base dir

/-! ## Surroundings -/

/-- The stores in memory of this process. -/
abbrev Memory := IO.Ref (List (String × MemoryStore))

/-- What a table replies. -/
def answer (memory : Memory) : Backend → (r : Request) → IO r.Reply
  | .directory base, r => directoryAnswer base r
  | .memory name, r => memory.modifyGet fun stores ↦
    let (reply, store) := MemoryStore.answer r ((stores.lookup name).getD .empty)
    (reply, (name, store) :: stores.filter (·.1 ≠ name))

/-- Open the table of a URL, making its directory if it is missing. -/
def openTable (url : String) : IO (Except StorageError Table) := do
  match Location.ofUrl? url with
  | none => return .error (.invalidUrl url)
  | some (.memory name) => return .ok ⟨(Location.memory name).url, .memory name⟩
  | some (.directory path) =>
    let made ← attempt do
      IO.FS.createDirAll path
      return (← IO.FS.realPath path).toString
    return (made.mapError (.prepareRoot path)).map fun canonical ↦
      ⟨(Location.directory canonical).url, .directory (FileTree.steps canonical)⟩

/-- The machine as the shell of a job. Messages go to the standard error stream. -/
def shell (memory : Memory) : Shell IO where
  openTable := openTable
  fileContent path := attempt (IO.FS.readBinFile path)
  perform backend t := t.runIn (answer memory backend) fun _ ↦ return ()
  lookup name := IO.getEnv name
  announce line := IO.eprintln line

/-- A name for a run that begins now. -/
def newRun : IO String := do
  let random := (← IO.getRandomBytes 16).data.toList
  return RunName.ofParts (← IO.monoMsNow) (random.foldl (fun n b ↦ n * 256 + b.toNat) 0)

/-- How to use the program. -/
def usage : String :=
  "Partitioned NDJSON file sink\n\n" ++
  "Usage: snowdrift [OPTIONS] --config <CONFIG> [INPUTS]...\n\n" ++
  "Arguments:\n  [INPUTS]...  NDJSON input files\n\n" ++
  "Options:\n" ++
  "  -c, --config <CONFIG>  Path to the configuration file [env: SNOWDRIFT_CONFIG=]\n" ++
  "      --dry-run          Validate the configuration without writing anything\n" ++
  "  -h, --help             Print help\n" ++
  "  -V, --version          Print version"

/-- What a call that asks for no job is told. -/
def reportRefusal : Refusal → IO Unit
  | .help => IO.println usage
  | .version => IO.println "snowdrift 0.1.0"
  | .misuse => IO.eprintln usage

end TableSink.Program

/-- Do what the arguments of a call ask for. -/
def main (args : List String) : IO UInt32 := do
  let preset ← IO.getEnv TableSink.Arguments.configVariable
  match TableSink.Arguments.job preset args with
  | .error refusal =>
    TableSink.Program.reportRefusal refusal
    return refusal.exitCode
  | .ok job =>
    let memory ← IO.mkRef []
    let outcome ← job.carryOut (TableSink.Program.shell memory) (← TableSink.Program.newRun)
    match outcome with
    | .ok (.ok ()) => pure ()
    | .ok (.error e) => IO.eprintln ("Error: " ++ e.message)
    | .error .overflow => IO.eprintln "attempt to add with overflow"
    return TableSink.Job.exitCode outcome
