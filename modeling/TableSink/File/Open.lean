import TableSink.Committable
import TableSink.Partition.Computer
import TableSink.Staging

/-!
# Open files

Records are encoded into the buffer of an open file. Nothing is asked of the store until the file is
closed; then all its bytes are put at its staging place at once. What a failed encoding has written
is taken back, so the buffer always holds whole records.
-/

namespace TableSink

/-- Encodes a record for a file that holds some bytes already: the bytes that it adds behind them,
and whether it got to the end. -/
abbrev Encoder (ρ ε : Type) := ρ → ByteArray → ByteArray × Except ε Unit

/-- Records as lines of JSON. -/
def jsonLines : Encoder Json Json.Fault := fun record _ ↦
  ((record.text ++ "\n").toUTF8, .ok ())

/-- Why a record could not be written or a file not be closed. -/
inductive WriteError where
  /-- The record has no partition. -/
  | computation (source : ComputationError)
  /-- The record could not be encoded. -/
  | encode (path : ObjectPath) (source : Json.Fault)
  /-- The bytes of the file could not be stored. -/
  | stage (path : ObjectPath) (source : StorageError)
deriving DecidableEq, Repr

/-- The sentence that reports the error. -/
def WriteError.message : WriteError → String
  | .computation source => "Failed to compute partition: " ++ source.message
  | .encode path source => "Failed to encode record for " ++ path.text ++ ": " ++ source.tag
  | .stage path source => "Failed to stage " ++ path.text ++ ": " ++ source.message

/-- A file that records are written to. -/
structure OpenFile where
  /-- The two places of the file. -/
  slot : Slot
  /-- The bytes so far. -/
  buffer : ByteArray := .empty
  /-- The number of records in them. -/
  records : Nat := 0

namespace OpenFile

/-- The file with one more encoded record, or as it was if the encoding failed. -/
def append {ε : Type} (f : OpenFile) (encoding : ByteArray × Except ε Unit) :
    OpenFile × Except ε Unit :=
  let longer := f.buffer ++ encoding.1
  match encoding.2 with
  | .ok () => ({ f with buffer := longer, records := f.records + 1 }, .ok ())
  | .error e => ({ f with buffer := longer.extract 0 f.buffer.size }, .error e)

/-- Start a file. -/
def start (slot : Slot) : Task OpenFile := do
  Task.report .fileOpened
  return { slot }

/-- Write a record to the file. -/
def write {ρ : Type} (encoder : Encoder ρ Json.Fault) (f : OpenFile) (record : ρ) :
    Task (OpenFile × Except WriteError Unit) := do
  match f.append (encoder record f.buffer) with
  | (f, .ok ()) =>
    Task.report (.recordsWritten 1)
    return (f, .ok ())
  | (f, .error fault) => return (f, .error (.encode f.slot.staging fault))

/-- The token of the file once it is closed. -/
def token (f : OpenFile) : CloseKind → Token
  | .commit =>
    .pending ⟨f.slot.staging.text, f.slot.target.text, f.buffer.size, f.records⟩
  | .recovery => .inProgress ⟨f.slot.staging.text, f.buffer.size⟩

/-- Close the file: store its bytes at its staging place. The committable of a file that is closed
for recovery only lets it be removed. -/
def close (f : OpenFile) (kind : CloseKind) : Task (Except WriteError Committable) := do
  match ← Task.ask (.put f.slot.staging f.buffer) with
  | .ok () =>
    Task.report (.fileStaged f.buffer.size kind)
    return .ok { bucket := f.slot.bucket, token := f.token kind }
  | .error e => return .error (.stage f.slot.staging e)

end OpenFile

end TableSink
