import Mathlib.Data.List.Induction
import TableSink.Proofs.Metrics.Figures
import TableSink.Proofs.Writer.Calls

/-!
# The figure of open files

A writer with a file for every partition says how many files it has open, but only when it opens,
drops or closes some. The figure shows what was said last (`Metrics.figure_openFiles`). Every call
either says how many files are open at its end, or leaves as many open as there were
(`Writer.openFiles_call`), so the figure is right after every row of calls
(`Writer.openFiles_shown`).
-/

namespace TableSink

variable {σ ρ : Type} (answer : (r : Request) → σ → r.Reply × σ) (layout : Layout ρ)

/-- The number of open files that an event reports. -/
def Event.openFiles? : Event → Option Nat
  | .openFiles count => some count
  | _ => none

/-- The number of open files that was reported last. -/
def lastOpenFiles (events : List Event) : Option Nat := events.reverse.findSome? Event.openFiles?

theorem lastOpenFiles_append (first second : List Event) :
    lastOpenFiles (first ++ second) = (lastOpenFiles second).or (lastOpenFiles first) := by
  rw [lastOpenFiles, List.reverse_append, List.findSome?_append]
  rfl

theorem lastOpenFiles_concat (events : List Event) (e : Event) :
    lastOpenFiles (events ++ [e]) = e.openFiles?.or (lastOpenFiles events) := by
  rw [lastOpenFiles_append]
  cases e <;> rfl

namespace Metrics

/-- The name of the figure of open files. -/
def openFiles : String := series "snowdrift_open_partition_writers" []

/-- An event sets the figure just if it reports open files. -/
theorem lookup_openFiles_changes (e : Event) (figures : List (String × Nat)) :
    (((changes e).foldl (fun figures c ↦ update c.1 c.2 figures) figures).lookup openFiles).getD 0 =
      e.openFiles?.getD ((figures.lookup openFiles).getD 0) := by
  cases e <;>
    simp [changes, openFiles, lookup_update, series_ne, count_ne, Event.openFiles?, Change.apply]

/-- The figure is what was reported last, and zero if nothing was. -/
theorem figure_openFiles (events : List Event) :
    figure openFiles events = (lastOpenFiles events).getD 0 := by
  induction events using List.reverseRecOn with
  | nil => rfl
  | append_singleton events e ih =>
    rw [figure, totals, List.flatMap_append, List.foldl_append, List.flatMap_singleton,
      lookup_openFiles_changes, lastOpenFiles_concat, Option.getD_or]
    exact congrArg _ ih

end Metrics

/-! ## Calls -/

/-- A task on a part of something, of which the whole is wanted, reports what it does. -/
theorem Task.run_wrap {α β γ : Type} (t : Task (α × β)) (f : α → γ) (s : σ) :
    (t >>= fun outcome ↦ Task.done (f outcome.1, outcome.2)).run answer s =
      let first := t.run answer s
      ⟨(f first.value.1, first.value.2), first.state, first.events⟩ := by
  simp only [run_bind, run_done, List.append_nil]

namespace Writer

/-- What may be asked of a writer. -/
inductive Call (ρ : Type) where
  /-- Write a record. -/
  | write (record : ρ)
  /-- Close all files. -/
  | close (kind : CloseKind)
  /-- Fetch the committables. -/
  | drain

/-- Carry out a call. -/
def call (layout : Layout ρ) (w : Writer) : Call ρ → Task (Writer × Except WriteError Unit)
  | .write record => w.write layout record
  | .close kind => w.close kind
  | .drain => return (w.drain, .ok ())

/-- Carry out calls one after the other, whatever becomes of each. -/
def perform (layout : Layout ρ) (w : Writer) : List (Call ρ) → Task Writer
  | [] => return w
  | c :: cs => do
    let (w, _) ← w.call layout c
    w.perform layout cs

end Writer

namespace ManyFiles

/-- A write that says nothing about open files leaves as many of them. -/
theorem openFiles_write (w : ManyFiles) (record : ρ) (s : σ) :
    let after := (w.write layout record).run answer s
    (lastOpenFiles after.events).getD w.opened.length = after.value.1.opened.length := by
  cases hplace : layout.place none record with
  | error e =>
    rw [write_of_rejected hplace]
    rfl
  | ok place =>
    obtain ⟨spec, projected⟩ := place
    cases hfile : w.file? spec.bucket with
    | some f =>
      cases hencode : (layout.encoder projected f.buffer).2 with
      | ok _ =>
        rw [write_of_open hplace hfile hencode]
        exact (List.length_map _).symm
      | error fault =>
        rw [write_of_open_error hplace hfile hencode]
        rfl
    | none =>
      cases hencode : (layout.encoder projected .empty).2 with
      | ok _ =>
        rw [write_of_new hplace hfile hencode]
        have hlength : ∀ f : OpenFile, (w.opened ++ [f]).length = w.opened.length + 1 :=
          fun f ↦ List.length_append
        exact (hlength _).symm
      | error fault =>
        rw [write_of_new_error hplace hfile hencode]
        rfl

/-- After closing no file is open, and that is said last. -/
theorem openFiles_close (w : ManyFiles) (kind : CloseKind) (s : σ) :
    let after := (w.close kind).run answer s
    lastOpenFiles after.events = some 0 ∧ after.value.1.opened = [] := by
  have hrun : (w.close kind).run answer s =
      let each := (closeEach kind w.opened).run answer s
      ⟨({ w with opened := [], closed := w.closed ++ each.value.1 },
        each.value.2.elim (.ok ()) .error), each.state, each.events ++ [.openFiles 0]⟩ := by
    rw [close, Task.run_bind]
    rfl
  rw [hrun]
  exact ⟨lastOpenFiles_concat _ _, rfl⟩

end ManyFiles

namespace Writer

/-- A call on a writer with a file for every partition: what it says last about open files is so at
its end, and if it says nothing there are as many as before. -/
theorem openFiles_call (w : ManyFiles) (c : Call ρ) (s : σ) :
    let after := ((dynamic w).call layout c).run answer s
    ∃ w', after.value.1 = .dynamic w' ∧
      (lastOpenFiles after.events).getD w.opened.length = w'.opened.length := by
  cases c with
  | write record =>
    simp only [call, write, Task.pure_eq, Task.run_wrap]
    exact ⟨_, rfl, w.openFiles_write answer layout record s⟩
  | close kind =>
    obtain ⟨hlast, hopened⟩ := w.openFiles_close answer kind s
    simp only [call, close, Task.pure_eq, Task.run_wrap]
    exact ⟨_, rfl, by rw [hlast, hopened]; rfl⟩
  | drain => exact ⟨{ w with closed := [] }, rfl, rfl⟩

/-- A row of calls: what was said last about open files is so at its end. -/
theorem openFiles_perform (w : ManyFiles) (cs : List (Call ρ)) (s : σ) :
    let after := ((dynamic w).perform layout cs).run answer s
    (lastOpenFiles after.events).getD w.opened.length = after.value.opened.length := by
  induction cs generalizing w s with
  | nil => rfl
  | cons c cs ih =>
    obtain ⟨w', hvalue, hcall⟩ := openFiles_call answer layout w c s
    simp only [perform, Task.run_bind, hvalue]
    rw [lastOpenFiles_append, Option.getD_or, hcall]
    exact ih w' _

/-- A new writer with a file for every partition, after any calls, whatever the records are and
however they are encoded, and whatever a store replies: the number of open files that was reported
last, or zero if none was, is the number of files that are open. That is also what the figure
shows. -/
theorem openFiles_shown (a : Allocator) (fixed : PartitionSpec) (calls : List (Call ρ)) (s : σ) :
    let after := ((new .dynamic a fixed).perform layout calls).run answer s
    (lastOpenFiles after.events).getD 0 = after.value.opened.length ∧
      Metrics.figure (Metrics.series "snowdrift_open_partition_writers" []) after.events =
        after.value.opened.length := by
  intro after
  have hlast : (lastOpenFiles after.events).getD 0 = after.value.opened.length :=
    openFiles_perform answer layout { allocator := a } calls s
  exact ⟨hlast, (Metrics.figure_openFiles after.events).trans hlast⟩

end Writer

end TableSink
