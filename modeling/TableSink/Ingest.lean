import TableSink.Sink
import TableSink.Storage.World
import TableSink.Text.Line

/-!
# Feeding inputs to a sink

An input is a file with one JSON record a line; blank lines count as lines and hold nothing. All
inputs are fed to one sink in order, and a last checkpoint ends the run. The first record that is
not taken ends it too: the open batch is given up, and the batches before it stay.

Where inputs are read, where requests go and how commits overlap is left open: a run can be gone
through on a `World`, or on the real thing.
-/

namespace TableSink

/-- What a line of an input holds. -/
inductive Line where
  /-- Nothing. -/
  | blank
  | record (value : Json)
  /-- No text. -/
  | garbled
  /-- Text that is no record. -/
  | malformed (fault : Json.Fault)
deriving Repr

/-- Read a line. -/
def Line.ofBytes (bytes : ByteArray) : Line :=
  match String.fromUTF8? bytes with
  | none => .garbled
  | some text =>
    if Text.allBlank text then .blank
    else match Json.parse text with
      | .ok value => .record value
      | .error fault => .malformed fault

namespace Sink

variable {m : Type → Type} [Monad m] [MonadLiftT Task m] [Committing m]

/-- Feed the lines of an input to a sink, the first of them having the number `number`. -/
def feedLines (path : String) (s : Sink) : (number : Nat) → List Line → m Ending
  | _, [] => return .ok (s, .ok ())
  | number, .blank :: lines => s.feedLines path (number + 1) lines
  | _, .garbled :: _ => return .ok (s, .error (.input path .invalidData))
  | number, .malformed fault :: _ =>
    return .ok (s, .error (.computation (.malformedRecord number fault)))
  | number, .record value :: lines => do
    match ← s.write value with
    | .ok (s, .ok ()) => s.feedLines path (number + 1) lines
    | stopped => return stopped

/-- Feed an input to a sink, given what the attempt to read it gave. -/
def feedInput (s : Sink) (path : String) (content : Except FileFault ByteArray) : m Ending :=
  match content with
  | .error fault => return .ok (s, .error (.input path fault))
  | .ok bytes => s.feedLines path 1 ((Text.byteLines bytes).map .ofBytes)

/-- End a run: commit the last batch, or give it up if feeding failed. An abort that fails too is
not reported. -/
def finishRun (s : Sink) (fed : Except SinkError Unit) :
    m (Except Panic (Except SinkError SinkStats)) :=
  match fed with
  | .ok () => do
    return (← s.checkpoint).map fun (s, result) ↦ result.map fun () ↦ s.stats
  | .error e => do
    return (← s.abort).map fun _ ↦ .error e

end Sink

/-- Where a run takes its inputs from, and where its work on a table goes. -/
structure Surroundings (n m : Type → Type) where
  /-- Opens the table of a URL. -/
  openTable : String → m (Except StorageError Table)
  /-- The content of a file. -/
  fileContent : String → m (Except FileFault ByteArray)
  /-- Carries out work on an opened table. -/
  perform : {α : Type} → Backend → n α → m α

namespace Surroundings

variable {n m : Type → Type} [Monad n] [MonadLiftT Task n] [Committing n] [Monad m]
variable (env : Surroundings n m)

/-- Feed inputs to a sink one after the other. A file is read when its turn has come. -/
def feed (backend : Backend) : Sink → List String → m Sink.Ending
  | s, [] => return .ok (s, .ok ())
  | s, path :: paths => do
    let content ← env.fileContent path
    match ← env.perform backend (s.feedInput path content) with
    | .ok (s, .ok ()) => feed backend s paths
    | stopped => return stopped

/-- Write all records of some inputs to the table of a configuration. -/
def ingest (config : Config) (run : String) (inputs : List String) :
    m (Except Panic (Except SinkError SinkStats)) := do
  match ← env.openTable config.table with
  | .error e => return .ok (.error (.storage e))
  | .ok table =>
    match ← env.perform table.backend (Sink.start config run) with
    | .error e => return .ok (.error e)
    | .ok sink =>
      match ← env.feed table.backend sink inputs with
      | .ok (sink, fed) => env.perform table.backend (sink.finishRun fed)
      | .error panic => return .error panic

end Surroundings

/-! ## On a world -/

/-- A world and what was reported in it, in order. -/
structure Trace where
  world : World
  events : List Event := []
deriving Inhabited

namespace Trace

/-- Carry out a task on a table of the world. -/
def perform {α : Type} (backend : Backend) (t : Task α) : StateM Trace α := fun trace ↦
  let outcome := t.run (World.answer backend) trace.world
  (outcome.value, ⟨outcome.state, trace.events ++ outcome.events⟩)

/-- Open a table of the world. -/
def openTable (url : String) : StateM Trace (Except StorageError Table) := fun trace ↦
  let (world, table) := World.openTable url trace.world
  (table, { trace with world })

/-- The content of a file of the world. -/
def fileContent (path : String) : StateM Trace (Except FileFault ByteArray) := fun trace ↦
  (trace.world.disk.read path, trace)

/-- A world as the surroundings of a run. -/
def surroundings : Surroundings Task (StateM Trace) := ⟨openTable, fileContent, perform⟩

end Trace

end TableSink
