import TableSink.Writer.OneFile

/-!
# A file for every partition

The part of a writer that keeps one file open for every partition that it has seen. Files stand in
the order in which they were opened, and are closed in that order.
-/

namespace TableSink

/-- A writer's open files, and the committables of the files that it closed. -/
structure ManyFiles where
  allocator : Allocator
  /-- The open files in the order in which they were opened, one for a partition. -/
  opened : List OpenFile := []
  /-- The committables that were not fetched yet. -/
  closed : List Committable := []

namespace ManyFiles

variable {ρ : Type}

/-- The open file of a partition. -/
def file? (w : ManyFiles) (bucket : String) : Option OpenFile :=
  w.opened.find? (·.slot.bucket = bucket)

/-- The writer with a file in the place of the one of its partition. -/
def keep (w : ManyFiles) (f : OpenFile) : ManyFiles :=
  { w with opened := w.opened.map fun g ↦ if g.slot.bucket = f.slot.bucket then f else g }

/-- The writer without the file of a partition. -/
def drop (w : ManyFiles) (bucket : String) : ManyFiles :=
  { w with opened := w.opened.filter (·.slot.bucket ≠ bucket) }

/-- Report how many files are open. -/
def reportOpen (w : ManyFiles) : Task Unit := Task.report (.openFiles w.opened.length)

/-- Write a record to the file of its partition, opening one if there is none. A file whose encoding
failed is dropped. -/
def write (layout : Layout ρ) (w : ManyFiles) (record : ρ) :
    Task (ManyFiles × Except WriteError Unit) :=
  match layout.computer.partition record, layout.computer.project record with
  | .error e, _ | .ok _, .error e => return (w, .error (.computation e))
  | .ok spec, .ok projected =>
    match w.file? spec.bucket with
    | some f => do
      match ← f.write layout.encoder projected with
      | (f, .ok ()) => return (w.keep f, .ok ())
      | (_, .error e) =>
        let w := w.drop spec.bucket
        w.reportOpen
        return (w, .error e)
    | none => do
      let (slot, allocator) := w.allocator.allocate spec
      let w := { w with allocator }
      let f ← OpenFile.start slot
      match ← f.write layout.encoder projected with
      | (f, .ok ()) =>
        let w := { w with opened := w.opened ++ [f] }
        w.reportOpen
        return (w, .ok ())
      | (_, .error e) =>
        w.reportOpen
        return (w, .error e)

/-- Close files one after the other, whatever becomes of each: the committables of those that could
be closed, and the first error. -/
def closeEach (kind : CloseKind) : List OpenFile → Task (List Committable × Option WriteError)
  | [] => return ([], none)
  | f :: fs => do
    let result ← f.close kind
    let (closed, error) ← closeEach kind fs
    match result with
    | .ok c => return (c :: closed, error)
    | .error e => return (closed, some e)

/-- Close all files. Those that cannot be closed are dropped; the first error is reported. -/
def close (w : ManyFiles) (kind : CloseKind) : Task (ManyFiles × Except WriteError Unit) := do
  let (closed, error) ← closeEach kind w.opened
  let w := { w with opened := [], closed := w.closed ++ closed }
  w.reportOpen
  return (w, error.elim (.ok ()) .error)

end ManyFiles

end TableSink
