import Mathlib.Data.List.Basic
import TableSink.Proofs.Storage.Puts
import TableSink.Writer.Basic

/-!
# Calls written out

What a call of a writer reports, what it asks, and what it gives, as an equation for every case:
whether the record has a place (`Layout.place`), whether it can be encoded, and whether a file is
open for it. Only a file that is closed asks a store for something, and just for one put. All else
is reports, so a call that closes no file comes to the same on every store.
-/

namespace TableSink

variable {σ ρ : Type} {layout : Layout ρ} {spec : PartitionSpec} {record projected : ρ}
variable {fault : Json.Fault}

/-- An encoder that never fails. -/
def Encoder.Total (encoder : Encoder ρ Json.Fault) : Prop :=
  ∀ record buffer, (encoder record buffer).2 = .ok ()

theorem jsonLines_total : Encoder.Total jsonLines := fun _ _ ↦ rfl

/-! ## Places of records -/

/-- Where a record belongs and what of it is written. With a fixed partition only the latter is
asked of the record. -/
def Layout.place (layout : Layout ρ) (fixed : Option PartitionSpec) (record : ρ) :
    Except ComputationError (PartitionSpec × ρ) :=
  match fixed with
  | some spec => (layout.computer.project record).map fun projected ↦ (spec, projected)
  | none => do
    let spec ← layout.computer.partition record
    let projected ← layout.computer.project record
    return (spec, projected)

namespace Layout

theorem place_none : layout.place none record = .ok (spec, projected) ↔
    layout.computer.partition record = .ok spec ∧
      layout.computer.project record = .ok projected := by
  unfold place
  cases layout.computer.partition record with
  | error e => simp [bind, Except.bind]
  | ok s => cases layout.computer.project record <;> simp [bind, Except.bind, pure, Except.pure]

theorem place_some {fixed : PartitionSpec} : layout.place (some fixed) record =
    .ok (spec, projected) ↔ spec = fixed ∧ layout.computer.project record = .ok projected := by
  unfold place
  cases layout.computer.project record <;> simp [Except.map, eq_comm]

theorem place_none_eq_error {e : ComputationError} :
    layout.place none record = .error e ↔ layout.computer.partition record = .error e ∨
      ∃ spec, layout.computer.partition record = .ok spec ∧
        layout.computer.project record = .error e := by
  unfold place
  cases layout.computer.partition record with
  | error e' => simp [bind, Except.bind]
  | ok spec => cases layout.computer.project record <;> simp [bind, Except.bind, pure, Except.pure]

theorem place_none_of_partition {e : ComputationError}
    (h : layout.computer.partition record = .error e) : layout.place none record = .error e := by
  simp [place, h, bind, Except.bind]

theorem place_some_of_project {fixed : PartitionSpec} {e : ComputationError}
    (h : layout.computer.project record = .error e) :
    layout.place (some fixed) record = .error e := by
  simp [place, h, Except.map]

theorem project_of_place {fixed : Option PartitionSpec}
    (h : layout.place fixed record = .ok (spec, projected)) :
    layout.computer.project record = .ok projected := by
  cases fixed with
  | none => exact (place_none.mp h).2
  | some _ => exact (place_some.mp h).2

end Layout

/-! ## Writing to a file -/

namespace OpenFile

variable {encoder : Encoder ρ Json.Fault} (f : OpenFile)

/-- A record does not change the places of its file. -/
theorem slot_append {ε : Type} (encoding : ByteArray × Except ε Unit) :
    (f.append encoding).1.slot = f.slot := by
  unfold append
  split
  · rfl
  · rfl

theorem write_of_ok (h : (encoder record f.buffer).2 = .ok ()) :
    f.write encoder record =
      .emit (.recordsWritten 1) (.done ((f.append (encoder record f.buffer)).1, .ok ())) := by
  simp only [write, append, h]
  rfl

theorem write_of_error (h : (encoder record f.buffer).2 = .error fault) :
    f.write encoder record =
      .done ((f.append (encoder record f.buffer)).1, .error (.encode f.slot.staging fault)) := by
  simp only [write, append, h]
  rfl

/-- The first record of a file. -/
theorem write_start_of_ok (slot : Slot) (h : (encoder record .empty).2 = .ok ()) :
    write encoder { slot } record =
      .emit (.recordsWritten 1) (.done ((append { slot } (encoder record .empty)).1, .ok ())) :=
  write_of_ok { slot } h

theorem write_start_of_error (slot : Slot) (h : (encoder record .empty).2 = .error fault) :
    write encoder { slot } record = .done ((append { slot } (encoder record .empty)).1,
      .error (.encode slot.staging fault)) :=
  write_of_error { slot } h

end OpenFile

/-! ## One file at a time -/

namespace OneFile

variable {encoder : Encoder ρ Json.Fault} {w : OneFile} {f : OpenFile}

theorem put_of_open (hcurrent : w.current = some f)
    (hencode : (encoder projected f.buffer).2 = .ok ()) :
    w.put encoder spec projected = .emit (.recordsWritten 1)
      (.done ({ w with current := some (f.append (encoder projected f.buffer)).1 }, .ok ())) := by
  simp only [put, take, hcurrent, Task.pure_eq, Task.done_bind, f.write_of_ok hencode,
    Task.emit_bind]

theorem put_of_new (hcurrent : w.current = none)
    (hencode : (encoder projected .empty).2 = .ok ()) :
    w.put encoder spec projected = .emit .fileOpened (.emit (.recordsWritten 1)
      (.done ({ w with
        allocator := w.allocator.bump spec.bucket
        current := some (OpenFile.append ⟨w.allocator.slot spec (w.allocator.count spec.bucket),
          .empty, 0⟩ (encoder projected .empty)).1 }, .ok ()))) := by
  simp only [put, take, hcurrent, Allocator.allocate, OpenFile.start, Task.report, Task.pure_eq,
    Task.done_bind, OpenFile.write_start_of_ok _ hencode, Task.emit_bind]

theorem put_of_open_error (hcurrent : w.current = some f)
    (hencode : (encoder projected f.buffer).2 = .error fault) :
    w.put encoder spec projected =
      .done ({ w with current := none }, .error (.encode f.slot.staging fault)) := by
  simp only [put, take, hcurrent, Task.pure_eq, Task.done_bind, f.write_of_error hencode]

theorem put_of_new_error (hcurrent : w.current = none)
    (hencode : (encoder projected .empty).2 = .error fault) :
    w.put encoder spec projected = .emit .fileOpened
      (.done ({ w with allocator := w.allocator.bump spec.bucket, current := none }, .error
        (.encode (w.allocator.slot spec (w.allocator.count spec.bucket)).staging fault))) := by
  simp only [put, take, hcurrent, Allocator.allocate, OpenFile.start, Task.report, Task.pure_eq,
    Task.done_bind, OpenFile.write_start_of_error _ hencode, Task.emit_bind]

end OneFile

/-! ## A file for every partition -/

namespace ManyFiles

variable {w : ManyFiles} {f : OpenFile}

theorem write_of_open (hplace : layout.place none record = .ok (spec, projected))
    (hfile : w.file? spec.bucket = some f)
    (hencode : (layout.encoder projected f.buffer).2 = .ok ()) :
    w.write layout record = .emit (.recordsWritten 1)
      (.done (w.keep (f.append (layout.encoder projected f.buffer)).1, .ok ())) := by
  obtain ⟨hpartition, hproject⟩ := Layout.place_none.mp hplace
  simp only [write, hpartition, hproject, hfile, f.write_of_ok hencode, Task.emit_bind,
    Task.done_bind, Task.pure_eq]

theorem write_of_new (hplace : layout.place none record = .ok (spec, projected))
    (hfile : w.file? spec.bucket = none) (hencode : (layout.encoder projected .empty).2 = .ok ()) :
    w.write layout record = .emit .fileOpened (.emit (.recordsWritten 1)
      (.emit (.openFiles (w.opened.length + 1)) (.done ({ w with
        allocator := w.allocator.bump spec.bucket
        opened := w.opened ++ [(OpenFile.append
          ⟨w.allocator.slot spec (w.allocator.count spec.bucket), .empty, 0⟩
          (layout.encoder projected .empty)).1] }, .ok ())))) := by
  obtain ⟨hpartition, hproject⟩ := Layout.place_none.mp hplace
  simp only [write, hpartition, hproject, hfile, Allocator.allocate, OpenFile.start, reportOpen,
    Task.report, Task.pure_eq, OpenFile.write_start_of_ok _ hencode, Task.emit_bind, Task.done_bind,
    List.length_append, List.length_singleton]

theorem write_of_open_error (hplace : layout.place none record = .ok (spec, projected))
    (hfile : w.file? spec.bucket = some f)
    (hencode : (layout.encoder projected f.buffer).2 = .error fault) :
    w.write layout record = .emit (.openFiles (w.drop spec.bucket).opened.length)
      (.done (w.drop spec.bucket, .error (.encode f.slot.staging fault))) := by
  obtain ⟨hpartition, hproject⟩ := Layout.place_none.mp hplace
  simp only [write, hpartition, hproject, hfile, f.write_of_error hencode, reportOpen, Task.report,
    Task.emit_bind, Task.done_bind, Task.pure_eq]

theorem write_of_new_error (hplace : layout.place none record = .ok (spec, projected))
    (hfile : w.file? spec.bucket = none)
    (hencode : (layout.encoder projected .empty).2 = .error fault) :
    w.write layout record = .emit .fileOpened (.emit (.openFiles w.opened.length)
      (.done ({ w with allocator := w.allocator.bump spec.bucket }, .error
        (.encode (w.allocator.slot spec (w.allocator.count spec.bucket)).staging fault)))) := by
  obtain ⟨hpartition, hproject⟩ := Layout.place_none.mp hplace
  simp only [write, hpartition, hproject, hfile, Allocator.allocate, OpenFile.start, reportOpen,
    Task.report, Task.pure_eq, OpenFile.write_start_of_error _ hencode, Task.emit_bind,
    Task.done_bind]

end ManyFiles

/-! ## Records and their places -/

theorem OneFile.writeFixed_of_rejected {w : OneFile} {fixed : PartitionSpec}
    {e : ComputationError} (h : layout.computer.project record = .error e) :
    w.writeFixed layout fixed record = .done (w, .error (.computation e)) := by
  simp only [writeFixed, h, Task.pure_eq]

theorem OneFile.writeFixed_of_project {w : OneFile} {fixed : PartitionSpec}
    (h : layout.computer.project record = .ok projected) :
    w.writeFixed layout fixed record = w.put layout.encoder fixed projected := by
  simp only [writeFixed, h]

theorem ManyFiles.write_of_rejected {w : ManyFiles} {e : ComputationError}
    (h : layout.place none record = .error e) :
    w.write layout record = .done (w, .error (.computation e)) := by
  rcases Layout.place_none_eq_error.mp h with hpartition | ⟨spec, hpartition, hproject⟩
  · simp only [write, hpartition, Task.pure_eq]
  · simp only [write, hpartition, hproject, Task.pure_eq]

theorem OneFile.writeClustered_of_rejected {w : OneFile} {e : ComputationError}
    (h : layout.place none record = .error e) :
    w.writeClustered layout record = .done (w, .error (.computation e)) := by
  rcases Layout.place_none_eq_error.mp h with hpartition | ⟨spec, hpartition, hproject⟩
  · simp only [writeClustered, hpartition, Task.pure_eq]
  · simp only [writeClustered, hpartition, hproject, Task.pure_eq]

/-- A record for the open file, or for a new one where none is open. -/
theorem OneFile.writeClustered_of_same {w : OneFile}
    (hplace : layout.place none record = .ok (spec, projected))
    (hcurrent : ∀ f ∈ w.current, f.slot.bucket = spec.bucket) :
    w.writeClustered layout record = w.put layout.encoder spec projected := by
  obtain ⟨hpartition, hproject⟩ := Layout.place_none.mp hplace
  have hsame : ¬ (w.current.any (·.slot.bucket ≠ spec.bucket) = true) := by
    cases hw : w.current with
    | none => simp
    | some f => simpa using hcurrent f hw
  simp only [writeClustered, hpartition, hproject]
  exact if_neg hsame

/-- The open file of another partition is closed first. -/
theorem OneFile.writeClustered_of_other {w : OneFile} {f : OpenFile}
    (hplace : layout.place none record = .ok (spec, projected)) (hcurrent : w.current = some f)
    (hother : f.slot.bucket ≠ spec.bucket) :
    w.writeClustered layout record = w.close .commit >>= fun outcome ↦ match outcome with
      | (w, .ok ()) => w.put layout.encoder spec projected
      | (w, .error e) => .done (w, .error e) := by
  obtain ⟨hpartition, hproject⟩ := Layout.place_none.mp hplace
  simp only [writeClustered, hpartition, hproject]
  exact if_pos (by simpa [hcurrent] using hother)

/-! ## Many records -/

/-- Write records one after the other, whatever becomes of each of them. -/
def Writer.writeEach (layout : Layout ρ) (w : Writer) :
    List ρ → Task (Writer × List (Except WriteError Unit))
  | [] => return (w, [])
  | record :: records => do
    let (w, result) ← w.write layout record
    let (w, results) ← w.writeEach layout records
    return (w, result :: results)

section Many

variable {answer : (r : Request) → σ → r.Reply × σ}

/-- What every write keeps, as long as all goes well with the store, all of them keep. Beside each
record stands whether it was written. -/
theorem Writer.writeEach_induction {inv : List (ρ × Bool) → Writer → σ → Prop}
    {good : Exchange → Prop} (hstep : ∀ told record w s, inv told w s →
      (∀ x ∈ (w.write layout record).exchanges answer s, good x) →
      let after := (w.write layout record).run answer s
      inv (told ++ [(record, after.value.2.isOk)]) after.value.1 after.state)
    {told : List (ρ × Bool)} {records : List ρ} {w : Writer} {s : σ} (hinv : inv told w s)
    (hgood : ∀ x ∈ (w.writeEach layout records).exchanges answer s, good x) :
    let after := (w.writeEach layout records).run answer s
    after.value.2.length = records.length ∧
      inv (told ++ records.zip (after.value.2.map Except.isOk)) after.value.1 after.state := by
  induction records generalizing told w s with
  | nil => exact ⟨rfl, (List.append_nil told).symm ▸ hinv⟩
  | cons record records ih =>
    simp only [writeEach, Task.exchanges_bind, List.forall_mem_append] at hgood
    obtain ⟨hfirst, hrest, -⟩ := hgood
    obtain ⟨hlength, hinv'⟩ := ih (hstep told record w s hinv hfirst) hrest
    rw [List.append_assoc, List.singleton_append] at hinv'
    simp only [writeEach, Task.run_bind]
    exact ⟨congrArg (· + 1) hlength, hinv'⟩

end Many

/-! ## Closing -/

/-- The result of a writer that closes files. -/
def closeResult (error : Option WriteError) : Except WriteError Unit := error.elim (.ok ()) .error

/-- An open file with the reply to the put that was to stage it. -/
abbrev Try := OpenFile × Except StoreFault Unit

namespace Try

/-- What was asked for the file, and the reply. -/
def exchange (t : Try) : Exchange := ⟨.put t.1.slot.staging t.1.buffer, t.2⟩

/-- The committable of the file, if it was staged. -/
def committable? (kind : CloseKind) (t : Try) : Option Committable :=
  match t.2 with
  | .ok () => some { bucket := t.1.slot.bucket, token := t.1.token kind }
  | .error _ => none

/-- Why the file was not staged. -/
def error? (t : Try) : Option WriteError :=
  match t.2 with
  | .ok () => none
  | .error fault => some (.stage t.1.slot.staging (.request fault))

theorem isPending_of_committable? {kind : CloseKind} {t : Try} {c : Committable}
    (h : t.committable? kind = some c) : c.token.isPending = true ↔ kind = .commit := by
  obtain ⟨f, _ | _⟩ := t
  · cases h
  · obtain rfl := Option.some.inj h
    cases kind <;> simp [OpenFile.token, Token.isPending]

theorem succeeded_exchange (t : Try) :
    t.exchange.1.succeeded t.exchange.2 = true ↔ t.2 = .ok () := by
  obtain ⟨f, _ | _⟩ := t
  · simp [exchange, Request.succeeded]
  · simp [exchange, Request.succeeded]

end Try

/-- Files are tried one after the other, each of them once and whatever became of those before. -/
inductive Tries (answer : (r : Request) → σ → r.Reply × σ) : List Try → σ → σ → Prop
  | nil {s : σ} : Tries answer [] s s
  | cons {f : OpenFile} {tries : List Try} {s s' : σ}
    (h : Tries answer tries (answer (.put f.slot.staging f.buffer) s).2 s') :
    Tries answer ((f, (answer (.put f.slot.staging f.buffer) s).1) :: tries) s s'

section Closing

variable {answer : (r : Request) → σ → r.Reply × σ} {tries : List Try} {s s' : σ}
variable {get? : σ → ObjectPath → Option ByteArray}

/-- Only places of files that were staged change. -/
theorem Tries.get?_eq (h : Tries answer tries s s') (hput : PutsWhole answer get?) {q : ObjectPath}
    (hq : ∀ t ∈ tries, t.2 = .ok () → q ≠ t.1.slot.staging) : get? s' q = get? s q := by
  induction h with
  | nil => rfl
  | @cons f tries s s' h ih =>
    obtain ⟨hfirst, hrest⟩ := List.forall_mem_cons.mp hq
    rw [ih hrest]
    cases hreply : (answer (.put f.slot.staging f.buffer) s).1 with
    | ok _ => rw [hput.stored _ _ _ hreply, if_neg (hfirst hreply)]
    | error fault => exact hput.refused _ _ _ fault hreply q

/-- A file that was staged is there, if no other one has its place. -/
theorem Tries.staged (h : Tries answer tries s s') (hput : PutsWhole answer get?)
    (hdistinct : (tries.map fun t ↦ t.1.slot.staging).Nodup) {t : Try} (ht : t ∈ tries)
    (hok : t.2 = .ok ()) : get? s' t.1.slot.staging = some t.1.buffer := by
  induction h with
  | nil => cases ht
  | @cons f tries s s' h ih =>
    rw [List.map_cons, List.nodup_cons] at hdistinct
    rcases List.mem_cons.mp ht with rfl | ht
    · have hothers : ∀ t ∈ tries, t.2 = .ok () → f.slot.staging ≠ t.1.slot.staging :=
        fun t ht _ he ↦ hdistinct.1 (List.mem_map.mpr ⟨t, ht, he.symm⟩)
      rw [h.get?_eq hput hothers, hput.stored _ _ _ hok, if_pos rfl]
    · exact ih hdistinct.2 ht

/-- Closing a file asks for one put. -/
theorem OpenFile.exchanges_close (answer : (r : Request) → σ → r.Reply × σ) (f : OpenFile)
    (kind : CloseKind) (s : σ) : (f.close kind).exchanges answer s =
      [Try.exchange (f, (answer (.put f.slot.staging f.buffer) s).1)] := by
  rw [close, Task.exchanges_bind, Task.run_ask, Task.exchanges_ask]
  cases hreply : (answer (.put f.slot.staging f.buffer) s).1 with
  | ok _ => rfl
  | error fault => rfl

theorem OpenFile.run_close_of_ok {f : OpenFile} (kind : CloseKind)
    (h : (answer (.put f.slot.staging f.buffer) s).1 = .ok ()) :
    ((f.close kind).run answer s).value = .ok { bucket := f.slot.bucket, token := f.token kind } ∧
      ((f.close kind).run answer s).state = (answer (.put f.slot.staging f.buffer) s).2 := by
  rw [close, Task.run_bind, Task.run_ask, h]
  exact ⟨rfl, rfl⟩

theorem OpenFile.run_close_of_error {f : OpenFile} (kind : CloseKind) {fault : StoreFault}
    (h : (answer (.put f.slot.staging f.buffer) s).1 = .error fault) :
    ((f.close kind).run answer s).value = .error (.stage f.slot.staging (.request fault)) ∧
      ((f.close kind).run answer s).state = (answer (.put f.slot.staging f.buffer) s).2 := by
  rw [close, Task.run_bind, Task.run_ask, h]
  exact ⟨rfl, rfl⟩

theorem OneFile.exchanges_close {w : OneFile} {f : OpenFile} (hcurrent : w.current = some f)
    (kind : CloseKind) : (w.close kind).exchanges answer s =
      [Try.exchange (f, (answer (.put f.slot.staging f.buffer) s).1)] := by
  simp only [close, hcurrent, Task.exchanges_bind, f.exchanges_close]
  cases hreply : (answer (.put f.slot.staging f.buffer) s).1 with
  | ok _ =>
    obtain ⟨hfirst, -⟩ := OpenFile.run_close_of_ok kind hreply
    rw [hfirst]
    rfl
  | error fault =>
    obtain ⟨hfirst, -⟩ := OpenFile.run_close_of_error kind hreply
    rw [hfirst]
    rfl

theorem OneFile.run_close_of_ok {w : OneFile} {f : OpenFile} (hcurrent : w.current = some f)
    (kind : CloseKind) (h : (answer (.put f.slot.staging f.buffer) s).1 = .ok ()) :
    ((w.close kind).run answer s).value = ({ w with
        current := none
        closed := w.closed ++ [{ bucket := f.slot.bucket, token := f.token kind }] }, .ok ()) ∧
      ((w.close kind).run answer s).state = (answer (.put f.slot.staging f.buffer) s).2 := by
  obtain ⟨hfirst, hstate⟩ := OpenFile.run_close_of_ok kind h
  simp only [close, hcurrent, Task.run_bind, hfirst, hstate]
  exact ⟨rfl, rfl⟩

/-- Closing files tries every one of them, whatever became of those before. -/
theorem ManyFiles.run_closeEach (answer : (r : Request) → σ → r.Reply × σ) (kind : CloseKind)
    (files : List OpenFile) (s : σ) : ∃ tries, tries.map Prod.fst = files ∧
      Tries answer tries s ((closeEach kind files).run answer s).state ∧
      (closeEach kind files).exchanges answer s = tries.map Try.exchange ∧
      ((closeEach kind files).run answer s).value =
        (tries.filterMap (Try.committable? kind), tries.findSome? Try.error?) := by
  induction files generalizing s with
  | nil => exact ⟨[], rfl, .nil, rfl, rfl⟩
  | cons f files ih =>
    obtain ⟨tries, rfl, htries, hexchanges, hvalue⟩ :=
      ih (answer (.put f.slot.staging f.buffer) s).2
    refine ⟨(f, (answer (.put f.slot.staging f.buffer) s).1) :: tries, rfl, ?_⟩
    cases hreply : (answer (.put f.slot.staging f.buffer) s).1 with
    | ok _ =>
      obtain ⟨hfirst, hafter⟩ := OpenFile.run_close_of_ok kind hreply
      simp only [closeEach, Task.run_bind, Task.exchanges_bind, f.exchanges_close, hfirst, hafter,
        hvalue, hexchanges, hreply]
      exact ⟨hreply ▸ htries.cons, congrArg (_ :: ·) (List.append_nil _), rfl⟩
    | error fault =>
      obtain ⟨hfirst, hafter⟩ := OpenFile.run_close_of_error kind hreply
      simp only [closeEach, Task.run_bind, Task.exchanges_bind, f.exchanges_close, hfirst, hafter,
        hvalue, hexchanges, hreply]
      exact ⟨hreply ▸ htries.cons, congrArg (_ :: ·) (List.append_nil _), rfl⟩

/-- A closed writer has no open files, and the committables of those that were staged. -/
theorem Writer.run_close_dynamic (answer : (r : Request) → σ → r.Reply × σ) (kind : CloseKind)
    (w : ManyFiles) (s : σ) : ∃ tries, tries.map Prod.fst = w.opened ∧
      Tries answer tries s (((dynamic w).close kind).run answer s).state ∧
      ((dynamic w).close kind).exchanges answer s = tries.map Try.exchange ∧
      (((dynamic w).close kind).run answer s).value =
        (.dynamic { w with
          opened := [], closed := w.closed ++ tries.filterMap (Try.committable? kind) },
        closeResult (tries.findSome? Try.error?)) := by
  obtain ⟨tries, hopened, htries, hexchanges, hvalue⟩ :=
    ManyFiles.run_closeEach answer kind w.opened s
  refine ⟨tries, hopened, ?_, ?_, ?_⟩
  · simp only [close, ManyFiles.close, Task.run_bind]
    exact htries
  · simp [close, ManyFiles.close, Task.exchanges_bind, hexchanges, ManyFiles.reportOpen,
      Task.report]
  · simp only [close, ManyFiles.close, Task.run_bind, hvalue]
    rfl

/-- There is nothing to report if every file was staged. -/
theorem Try.findSome?_error?_eq_none :
    tries.findSome? Try.error? = none ↔ ∀ t ∈ tries, t.2 = .ok () := by
  rw [List.findSome?_eq_none_iff]
  refine forall₂_congr fun t _ ↦ ?_
  obtain ⟨f, _ | _⟩ := t
  · simp [error?]
  · simp [error?]

/-- Where all files were staged, each of them has a committable. -/
theorem Try.filterMap_committable? (kind : CloseKind) (h : ∀ t ∈ tries, t.2 = .ok ()) :
    tries.filterMap (Try.committable? kind) = (tries.map Prod.fst).map fun f ↦
      { bucket := f.slot.bucket, token := f.token kind } := by
  rw [List.map_map, ← List.filterMap_eq_map]
  refine List.filterMap_congr fun t ht ↦ ?_
  rw [committable?, h t ht]
  rfl

end Closing

end TableSink
