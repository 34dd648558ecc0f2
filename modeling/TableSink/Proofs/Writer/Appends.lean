import Mathlib.Algebra.GroupWithZero.Nat
import TableSink.File.Open

/-!
# What an open file holds

An encoding may fail after it has written any number of bytes, and what it writes may depend on what
the file holds so far. One that fails leaves no trace (`OpenFile.append_of_error`), so after any row
of encodings the file holds just what the others wrote, in order (`OpenFile.holds_appendEach`).
-/

namespace TableSink

namespace OpenFile

variable {ε : Type} {f : OpenFile} {encoding : ByteArray × Except ε Unit}

theorem append_of_ok (h : encoding.2 = .ok ()) : f.append encoding =
    ({ f with buffer := f.buffer ++ encoding.1, records := f.records + 1 }, .ok ()) := by
  simp only [append, h]

/-- A failed encoding is taken back, whatever it has written. -/
theorem append_of_error {e : ε} (h : encoding.2 = .error e) :
    f.append encoding = (f, .error e) := by
  have hbuffer : (f.buffer ++ encoding.1).extract 0 f.buffer.size = f.buffer :=
    ByteArray.extract_append_eq_left rfl
  simp only [append, h, hbuffer]

/-- Append one encoding after the other, whatever becomes of each. Every one is told what the file
holds by then. Beside the file stands what each encoding was, and how its append ended. -/
def appendEach (f : OpenFile) : List (ByteArray → ByteArray × Except ε Unit) →
    OpenFile × List ((ByteArray × Except ε Unit) × Except ε Unit)
  | [] => (f, [])
  | encode :: encodes =>
    let (g, ended) := f.append (encode f.buffer)
    let (last, entries) := g.appendEach encodes
    (last, (encode f.buffer, ended) :: entries)

/-- The encodings that got to the end. -/
def completed (entries : List ((ByteArray × Except ε Unit) × Except ε Unit)) :
    List (ByteArray × Except ε Unit) :=
  (entries.map Prod.fst).filter fun encoding ↦ encoding.2.isOk

variable {entries : List ((ByteArray × Except ε Unit) × Except ε Unit)} {ended : Except ε Unit}

theorem completed_cons_of_ok (h : encoding.2 = .ok ()) :
    completed ((encoding, ended) :: entries) = encoding :: completed entries := by
  rw [completed, List.map_cons, List.filter_cons_of_pos (by rw [h]; rfl), completed]

theorem completed_cons_of_error {e : ε} (h : encoding.2 = .error e) :
    completed ((encoding, ended) :: entries) = completed entries := by
  rw [completed, List.map_cons, List.filter_cons_of_neg (by rw [h]; nofun), completed]

/-- What a file holds grows by the encodings that got to the end, and every append ends as its
encoding did. -/
theorem appendEach_grows (f : OpenFile)
    (encodes : List (ByteArray → ByteArray × Except ε Unit)) :
    (f.appendEach encodes).1.slot = f.slot ∧
      (f.appendEach encodes).1.buffer.data.toList = f.buffer.data.toList ++
        (completed (f.appendEach encodes).2).flatMap (fun encoding ↦ encoding.1.data.toList) ∧
      (f.appendEach encodes).1.records =
        f.records + (completed (f.appendEach encodes).2).length ∧
      ∀ entry ∈ (f.appendEach encodes).2, entry.2 = entry.1.2 := by
  induction encodes generalizing f with
  | nil => exact ⟨rfl, (List.append_nil _).symm, rfl, by simp [appendEach]⟩
  | cons encode encodes ih =>
    cases h : (encode f.buffer).2 with
    | ok _ =>
      rw [appendEach, append_of_ok h]
      obtain ⟨hslot, hbuffer, hrecords, hentries⟩ :=
        ih { f with buffer := f.buffer ++ (encode f.buffer).1, records := f.records + 1 }
      refine ⟨hslot, ?_, ?_, List.forall_mem_cons.mpr ⟨h.symm, hentries⟩⟩
      · rw [hbuffer, completed_cons_of_ok h, ByteArray.toList_data_append, List.flatMap_cons,
          List.append_assoc]
      · rw [hrecords, completed_cons_of_ok h, List.length_cons, Nat.add_assoc, Nat.add_comm 1]
    | error e =>
      rw [appendEach, append_of_error h]
      obtain ⟨hslot, hbuffer, hrecords, hentries⟩ := ih f
      refine ⟨hslot, ?_, ?_, List.forall_mem_cons.mpr ⟨h.symm, hentries⟩⟩
      · rw [hbuffer, completed_cons_of_error h]
      · rw [hrecords, completed_cons_of_error h]

/-- After any row of encodings a file holds what those wrote that got to the end, in order, and
counts them; so does its token. Every append ends as its encoding did, and one more that fails
leaves the file as it is and has the error of the encoding. -/
theorem holds_appendEach (slot : Slot)
    (encodes : List (ByteArray → ByteArray × Except ε Unit)) :
    let after := appendEach { slot } encodes
    let wrote := completed after.2
    after.1.buffer.data.toList = wrote.flatMap (fun encoding ↦ encoding.1.data.toList) ∧
      after.1.buffer.size = (wrote.map fun encoding ↦ encoding.1.size).sum ∧
      after.1.records = wrote.length ∧
      after.1.token .commit = .pending ⟨slot.staging.text, slot.target.text,
        (wrote.map fun encoding ↦ encoding.1.size).sum, wrote.length⟩ ∧
      (∀ entry ∈ after.2, entry.2 = entry.1.2) ∧
      ∀ (encode : ByteArray → ByteArray × Except ε Unit) (e : ε),
        (encode after.1.buffer).2 = .error e →
          after.1.append (encode after.1.buffer) = (after.1, .error e) := by
  intro after wrote
  obtain ⟨hslot, hbuffer, hrecords, hentries⟩ := appendEach_grows { slot } encodes
  replace hrecords : after.1.records = wrote.length := hrecords.trans (Nat.zero_add _)
  have hsize : after.1.buffer.size = (wrote.map fun encoding ↦ encoding.1.size).sum := by
    have hlength := congrArg List.length hbuffer
    rw [List.length_append, List.length_flatMap] at hlength
    exact hlength.trans (Nat.zero_add _)
  refine ⟨hbuffer, hsize, hrecords, ?_, hentries, fun encode e h ↦ append_of_error h⟩
  rw [token, hsize, hrecords]
  exact congrArg (fun slot : Slot ↦ Token.pending ⟨slot.staging.text, slot.target.text, _, _⟩) hslot

end OpenFile

end TableSink
