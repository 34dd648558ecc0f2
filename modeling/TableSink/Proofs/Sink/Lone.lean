import TableSink.Proofs.Sink.Feed

/-!
# One file for a batch

With the single strategy all records go to one partition, and a file is started for the first record
of a batch only. So there are no more files than batches, the open one counted (`Sink.Lone`), and
none of another partition. It does not matter what a store replies, as long as every record is taken
(`Sink.Lone.write`).
-/

namespace TableSink

variable {σ : Type} {replies : Replying σ} {store store' : σ}

@[simp] theorem Writer.fixed_drain (w : Writer) : w.drain.fixed = w.fixed := by
  cases w <;> rfl

/-- A record that is taken is in an open file afterwards. A place was handed out for it if there was
no such file before. -/
theorem OneFile.ends_writeFixed_ok {ρ : Type} {layout : Layout ρ} {spec : PartitionSpec}
    {record : ρ} {w w' : OneFile}
    (h : (w.writeFixed layout spec record).Ends replies store (w', .ok ()) store') :
    w'.current ≠ none ∧
      w'.allocator = if w.current = none then w.allocator.bump spec.bucket else w.allocator := by
  cases hproject : layout.computer.project record with
  | error e =>
    rw [writeFixed_of_rejected hproject] at h
    obtain ⟨-, hresult, -⟩ := Task.ends_done_pair.mp h
    cases hresult
  | ok projected =>
    rw [writeFixed_of_project hproject] at h
    cases hcurrent : w.current with
    | none =>
      cases hencode : (layout.encoder projected .empty).2 with
      | ok _ =>
        rw [put_of_new hcurrent hencode] at h
        simp only [Task.ends_emit, Task.ends_done_pair] at h
        obtain ⟨rfl, -, -⟩ := h
        exact ⟨Option.some_ne_none _, rfl⟩
      | error fault =>
        rw [put_of_new_error hcurrent hencode] at h
        simp only [Task.ends_emit, Task.ends_done_pair] at h
        obtain ⟨-, hresult, -⟩ := h
        cases hresult
    | some f =>
      cases hencode : (layout.encoder projected f.buffer).2 with
      | ok _ =>
        rw [put_of_open hcurrent hencode] at h
        simp only [Task.ends_emit, Task.ends_done_pair] at h
        obtain ⟨rfl, -, -⟩ := h
        exact ⟨Option.some_ne_none _, rfl⟩
      | error fault =>
        rw [put_of_open_error hcurrent hencode] at h
        obtain ⟨-, hresult, -⟩ := Task.ends_done_pair.mp h
        cases hresult

/-- The same, seen from outside. -/
theorem Writer.ends_write_ok {ρ : Type} {layout : Layout ρ} {spec : PartitionSpec} {record : ρ}
    {w w' : Writer} (hfixed : w.fixed = some spec)
    (h : (w.write layout record).Ends replies store (w', .ok ()) store') :
    w'.fixed = some spec ∧ w'.opened ≠ [] ∧
      w'.allocator = if w.opened = [] then w.allocator.bump spec.bucket else w.allocator := by
  cases w with
  | single spec' files =>
    obtain rfl : spec' = spec := Option.some.inj hfixed
    obtain ⟨files', rfl, hwrite⟩ := (Task.ends_wrap (Writer.single spec')).mp h
    obtain ⟨hcurrent, hallocator⟩ := OneFile.ends_writeFixed_ok hwrite
    refine ⟨rfl, ?_, ?_⟩
    · simpa [opened] using hcurrent
    · simpa [opened, allocator] using hallocator
  | grouped files => cases hfixed
  | dynamic files => cases hfixed

namespace Sink

variable {spec : PartitionSpec} {n : Nat} {s s' : Sink} {record : Json}

/-- All records go to one partition, and of so many of them each batch has one file at most. -/
structure Lone (spec : PartitionSpec) (n : Nat) (s : Sink) : Prop where
  fixed : s.writer.fixed = some spec
  size_pos : 0 < s.batchSize
  inBatch : s.inBatch = n % s.batchSize
  begun : s.inBatch ≠ 0 → s.writer.opened ≠ []
  count_le : s.writer.allocator.count spec.bucket ≤
    n / s.batchSize + if n % s.batchSize = 0 then 0 else 1
  others : ∀ bucket, bucket ≠ spec.bucket → s.writer.allocator.count bucket = 0

/-- Places that were handed out when a record was taken, compared with the number of batches. -/
theorem Lone.count_write (h : s.Lone spec n) {w : Writer}
    (hallocator : w.allocator =
      if s.writer.opened = [] then s.writer.allocator.bump spec.bucket else s.writer.allocator) :
    w.allocator.count spec.bucket ≤ n / s.batchSize + 1 ∧
      ∀ bucket, bucket ≠ spec.bucket → w.allocator.count bucket = 0 := by
  have hcount := h.count_le
  rw [hallocator]
  by_cases hopened : s.writer.opened = []
  · -- Without an open file the batch has not begun.
    have hzero : n % s.batchSize = 0 := by
      by_contra hne
      exact h.begun (h.inBatch ▸ hne) hopened
    rw [if_pos hzero] at hcount
    rw [if_pos hopened]
    refine ⟨?_, fun bucket hne ↦ ?_⟩
    · rw [Allocator.count_bump, if_pos rfl]
      exact Nat.succ_le_succ hcount
    · rw [Allocator.count_bump, if_neg hne, h.others bucket hne]
  · rw [if_neg hopened]
    refine ⟨hcount.trans (Nat.add_le_add_left ?_ _), h.others⟩
    split <;> decide

/-- A record that is taken. -/
theorem Lone.write (h : s.Lone spec n)
    (hw : (s.write record).Ends replies store (.ok (s', .ok ())) store') :
    s'.Lone spec (n + 1) := by
  obtain ⟨w, written, store₁, hwrite, ⟨e, -, hresult, -⟩ | ⟨rfl, hend⟩⟩ := phases_write hw
  · cases hresult
  obtain ⟨hfixed, hopened, hallocator⟩ := Writer.ends_write_ok h.fixed hwrite
  obtain ⟨hcount, hothers⟩ := h.count_write hallocator
  rcases hend with ⟨hfull, hcheckpoint⟩ | ⟨hfull, rfl, -, -⟩
  · rw [h.inBatch] at hfull
    obtain ⟨hdiv, hmod⟩ := add_one_of_full h.size_pos hfull
    have hbounded := bounded_checkpoint hcheckpoint
    obtain ⟨w', closed, store₂, hclose, ⟨e, -, hresult, -⟩ | ⟨-, results, again, -, -, -, rfl⟩⟩ :=
      phases_checkpoint hcheckpoint
    · cases hresult
    obtain ⟨-, -, -, -, -, -, -, -, hfixed'⟩ := Writer.hands_close hclose
    refine ⟨?_, h.size_pos, hmod.symm, fun hne ↦ absurd rfl hne, ?_, ?_⟩
    · rw [Writer.fixed_drain, hfixed']
      exact hfixed
    · rw [hbounded.allocator]
      show _ ≤ (n + 1) / s.batchSize + if (n + 1) % s.batchSize = 0 then 0 else 1
      rw [hdiv, hmod]
      exact hcount
    · rw [hbounded.allocator]
      exact hothers
  · rw [h.inBatch] at hfull
    obtain ⟨hdiv, hmod⟩ := add_one_of_not_full hfull
    refine ⟨hfixed, h.size_pos, ?_, fun _ ↦ hopened, ?_, hothers⟩
    · show s.inBatch + 1 = (n + 1) % s.batchSize
      rw [hmod, h.inBatch]
    · show _ ≤ (n + 1) / s.batchSize + if (n + 1) % s.batchSize = 0 then 0 else 1
      rw [hdiv, hmod, if_neg (Nat.succ_ne_zero _)]
      exact hcount

/-- Lines that were all taken. -/
theorem Lone.feedLines {path : String} {number : Nat} {lines : List Line} (h : s.Lone spec n)
    (hf : (s.feedLines path number lines).Ends replies store (.ok (s', .ok ())) store') :
    s'.Lone spec (n + (lines.filterMap Line.record?).length) := by
  induction lines generalizing s n number store with
  | nil =>
    obtain ⟨hending, -⟩ := Task.ends_done.mp hf
    obtain ⟨rfl, -⟩ := Prod.mk.inj (Except.ok.inj hending)
    exact h
  | cons line lines ih =>
    cases line with
    | blank => exact ih h hf
    | garbled => cases (Task.ends_done.mp hf).1
    | malformed fault => cases (Task.ends_done.mp hf).1
    | record value =>
      simp only [Sink.feedLines, Task.ends_bind] at hf
      obtain ⟨_ | ⟨s₁, _ | _⟩, store₁, hwrite, hf⟩ := hf
      · cases (Task.ends_done.mp hf).1
      · cases (Task.ends_done.mp hf).1
      · have hrest := ih (h.write hwrite) hf
        rwa [Nat.add_assoc, Nat.add_comm 1] at hrest

end Sink

end TableSink
