import TableSink.Proofs.Commit.Settle
import TableSink.Proofs.Sink.Phases
import TableSink.Proofs.Writer.Ends
import TableSink.Proofs.Writer.Order

/-!
# What a call does to the books

`Sink.Keeps` says that the books are right about a sink and its store. A checkpoint either closes
the open batch, and then every one of its files is shown or kept, or gives it up
(`Sink.ends_checkpoint`); an abort gives it up (`Sink.ends_abort`). A write does what its writer
does, and is a checkpoint as well if the batch is full (`Sink.ends_write`).
-/

namespace TableSink

open MemoryStore (Replies)

variable {d : Desk Json} {b : Books Json} {store store' : MemoryStore} {s s' : Sink}

/-- The books are right about a sink and its store. -/
structure Sink.Keeps (d : Desk Json) (store : MemoryStore) (b : Books Json) (s : Sink) : Prop where
  layout : s.layout = d.layout
  at_desk : s.writer.At d
  tracks : b.Tracks d store s.writer.allocator s.writer.opened s.writer.closed
  retries : s.retries.map Committable.fresh =
    b.kept.map fun f ↦ f.committable d.layout s.writer.allocator .commit

namespace Books

/-- The open batch was closed: of all files that are to be published, these are, and those are
still kept. -/
def settle (b : Books Json) (done failed : List (Filed Json)) : Books Json :=
  { b with shown := b.shown ++ done, kept := failed, closed := [], opened := [] }

/-- The open batch was given up: these files could be closed for it, and those could not. -/
def abandon (b : Books Json) (done lost : List (Filed Json)) : Books Json :=
  { b with
    closed := []
    opened := []
    removed := b.removed ++ (b.closed ++ done)
    dropped := b.dropped ++ lost }

end Books

namespace Sink

/-- Giving up what was closed. -/
theorem ends_discardBatch {a : Allocator}
    (hclosed : s.writer.closed.map Committable.intoDiscard =
      b.closed.map fun f ↦ f.committable d.layout a .recovery)
    (hholds : b.Holds d.layout d.mishaps a d.init store)
    (h : s.discardBatch.Ends (Replies d.mishaps) store s' store') :
    (∃ discarded, s' = { s with
      writer := s.writer.drain
      stats := { s.stats with discarded := discarded } }) ∧
    { b with closed := [], removed := b.removed ++ b.closed }.Holds
      d.layout d.mishaps a d.init store' := by
  obtain ⟨results, hresults, rfl⟩ := phases_discardBatch h
  obtain ⟨hcommitted, hholds'⟩ := Books.ends_discardEach rfl hclosed hholds hresults
  refine ⟨⟨s.stats.discarded + (CommitReport.ofResults results).discarded, ?_⟩, hholds'⟩
  simp [SinkStats.add, hcommitted]

/-- What a checkpoint that closes the batch ends with. -/
structure Settled (d : Desk Json) (b : Books Json) (s : Sink) (done failed : List (Filed Json))
    (s' : Sink) (result : Except SinkError Unit) : Prop where
  perm : (done ++ failed).Perm (b.kept ++ b.batch)
  done_eq : failed = [] → done = b.kept ++ b.batch
  stats : s'.stats = { s.stats with
    committed := s.stats.committed + done.length
    batches := s.stats.batches + if failed = [] ∧ done ≠ [] then 1 else 0 }
  result : failed = [] ∧ result = .ok () ∨
    failed ≠ [] ∧ (∃ n k, result = .error (.batchFailed n k)) ∧ ∃ m, d.mishaps m

/-- What giving up a batch ends with. -/
structure Abandoned (d : Desk Json) (b : Books Json) (s : Sink) (done lost : List (Filed Json))
    (s' : Sink) : Prop where
  perm : (done ++ lost).Perm b.opened
  done_eq : lost = [] → done = b.opened
  stats : ∃ discarded, s'.stats = { s.stats with discarded := discarded }

/-- Between batches, the books are only about what is kept. -/
theorem keeps_of_holds {writer : Writer} {b' : Books Json} {batchSize inBatch : Nat}
    {retries : List Committable} {stats : SinkStats} (hkeeps : s.Keeps d store b)
    (hat : writer.At d) (hallocator : writer.allocator = s.writer.allocator)
    (hopened : writer.opened = []) (hb' : b'.closed = [] ∧ b'.opened = [])
    (hretries : retries.map Committable.fresh =
      b'.kept.map fun f ↦ f.committable d.layout s.writer.allocator .commit)
    (hholds : b'.Holds d.layout d.mishaps s.writer.allocator d.init store') :
    Keeps d store' b'
      ⟨s.layout, writer.drain, s.concurrency, batchSize, inBatch, retries, stats⟩ where
  layout := hkeeps.layout
  at_desk := hat.drain
  tracks := by
    rw [Writer.allocator_drain, Writer.opened_drain, Writer.closed_drain, hallocator, hopened]
    exact ⟨hholds, hkeeps.tracks.base, by simp [hb'.2], by simp [hb'.1], by simp [hb'],
      by simp [hb'.2]⟩
  retries := by
    rw [Writer.allocator_drain, hallocator]
    exact hretries

/-- Once the writer is closed, the files of the batch are kept like those of earlier batches. -/
theorem Keeps.kept_of_close {w : Writer} (hkeeps : s.Keeps d store b)
    (h : (s.writer.close .commit).Ends (Replies d.mishaps) store (w, .ok ()) store') :
    { b with kept := b.kept ++ b.batch, closed := [], opened := [] }.Holds d.layout d.mishaps
        s.writer.allocator d.init store' ∧
      (s.retries ++ w.closed).map Committable.fresh = (b.kept ++ b.batch).map
        fun f ↦ f.committable d.layout s.writer.allocator .commit := by
  obtain ⟨done, lost, error, hcloses, hresult, -, -, -, hclosed⟩ :=
    Writer.ends_close hkeeps.at_desk hkeeps.tracks.opened hkeeps.tracks.holds h
  rcases hcloses.error with ⟨-, hlost⟩ | ⟨⟨f, -, e, rfl⟩, -⟩
  · obtain rfl := hcloses.done_eq hlost
    have hholds := hcloses.holds.keep
    simp only [hlost, Books.close, List.append_nil] at hholds
    refine ⟨hholds, ?_⟩
    rw [hclosed, hkeeps.tracks.closed, Books.batch]
    simp only [List.map_append, hkeeps.retries, List.map_map]
    rfl
  · cases hresult

/-- What a closed writer has to give up, whatever its files were closed for. -/
theorem Keeps.intoDiscard_of_close {w : Writer} {kind : CloseKind} {done : List (Filed Json)}
    (lost : List (Filed Json)) (hkeeps : s.Keeps d store b)
    (hclosed : w.closed = s.writer.closed ++
      done.map fun f ↦ f.committable d.layout s.writer.allocator kind) :
    w.closed.map Committable.intoDiscard = (b.close done lost).closed.map
      fun f ↦ f.committable d.layout s.writer.allocator .recovery := by
  rw [hclosed, hkeeps.tracks.closed, Books.close]
  simp only [List.map_append, List.map_map, Function.comp_def, Filed.intoDiscard_committable]

/-- A checkpoint closes the batch, or gives it up. -/
theorem ends_checkpoint {result : Except SinkError Unit} (hkeeps : s.Keeps d store b)
    (h : s.checkpoint.Ends (Replies d.mishaps) store (.ok (s', result)) store') :
    s'.inBatch = 0 ∧ s'.batchSize = s.batchSize ∧
    ((∃ done failed, Settled d b s done failed s' result ∧
        s'.Keeps d store' (b.settle done failed)) ∨
      ∃ done lost, Abandoned d b s done lost s' ∧
        (∃ f ∈ lost, ∃ e,
          result = .error (.write (.stage (f.slot s.writer.allocator).staging e))) ∧
        (∃ m, d.mishaps m) ∧
        s'.Keeps d store' (b.abandon done lost)) := by
  obtain ⟨writer, closed, store₁, hclose, hphases⟩ := phases_checkpoint h
  obtain ⟨done, lost, error, hcloses, rfl, hat, hallocator, hopened, hclosed⟩ :=
    Writer.ends_close hkeeps.at_desk hkeeps.tracks.opened hkeeps.tracks.holds hclose
  rcases hcloses.error with ⟨rfl, rfl⟩ | ⟨⟨f, hf, e, rfl⟩, hm⟩
  · obtain ⟨_, herror, -⟩ | ⟨-, results, again, hresults, hagain, hresult, rfl⟩ := hphases
    · cases herror
    obtain ⟨hholds, hbatch⟩ := hkeeps.kept_of_close hclose
    obtain ⟨done, failed, hsettles, hholds'⟩ :=
      Books.ends_finishEach (fun _ ↦ id) (List.nil_append _).symm hbatch hholds hresults
    have hsuccess := hsettles.isSuccess_iff
    refine ⟨rfl, rfl, .inl ⟨done, failed, ⟨hsettles.perm, hsettles.done_eq, ?_, ?_⟩, ?_⟩⟩
    · have hdone : failed = [] → (s.retries ++ writer.closed ≠ [] ↔ done ≠ []) := by
        intro hfailed
        rw [hsettles.done_eq hfailed, Ne, ← List.map_eq_nil_iff, hbatch, List.map_eq_nil_iff]
      simp only [SinkStats.add, hsettles.committed, hsettles.discarded, hsuccess,
        and_congr_right hdone, Nat.add_zero]
    · by_cases hfailed : failed = []
      · rw [if_pos (hsuccess.mpr hfailed)] at hresult
        exact .inl ⟨hfailed, hresult⟩
      · rw [if_neg (mt hsuccess.mp hfailed)] at hresult
        exact .inr ⟨hfailed, ⟨_, _, hresult⟩, hsettles.mishap hfailed⟩
    · refine keeps_of_holds (s := s) hkeeps hat hallocator hopened ⟨rfl, rfl⟩ ?_ hholds'
      exact (CommitReport.fresh_intoRetries hagain).trans hsettles.failures
  · obtain ⟨_, herror, rfl, hdiscard⟩ | ⟨herror, -⟩ := hphases
    · obtain rfl := Except.error.inj herror
      obtain ⟨⟨discarded, rfl⟩, hholds⟩ :=
        ends_discardBatch (hkeeps.intoDiscard_of_close lost hclosed) hcloses.holds hdiscard
      refine ⟨rfl, rfl, .inr ⟨done, lost, ⟨hcloses.perm, hcloses.done_eq, ⟨_, rfl⟩⟩,
        ⟨f, hf, e, rfl⟩, hm, ?_⟩⟩
      exact keeps_of_holds (s := s) hkeeps hat hallocator hopened ⟨rfl, rfl⟩ hkeeps.retries hholds
    · cases herror

/-- What an abort ends with that has given up all files of the batch: of the files that are kept,
these are published, and those are still kept. -/
structure Retried (d : Desk Json) (b : Books Json) (s : Sink) (shown kept : List (Filed Json))
    (s' : Sink) : Prop where
  perm : (shown ++ kept).Perm b.kept
  shown_eq : kept = [] → shown = b.kept
  mishap : kept ≠ [] → ∃ m, d.mishaps m
  stats : ∃ discarded, s'.stats = { s.stats with
    committed := s.stats.committed + shown.length
    discarded := discarded }

/-- An abort gives the batch up, and publishes what it can of the files that are kept. -/
theorem ends_abort {result : Except SinkError Unit} (hkeeps : s.Keeps d store b)
    (h : s.abort.Ends (Replies d.mishaps) store (.ok (s', result)) store') :
    s'.inBatch = 0 ∧ s'.batchSize = s.batchSize ∧
    ((∃ shown kept, Retried d b s shown kept s' ∧ result = .ok () ∧
        s'.Keeps d store'
          { b.abandon b.opened [] with shown := b.shown ++ shown, kept := kept }) ∨
      ∃ done lost, Abandoned d b s done lost s' ∧
        (∃ f ∈ lost, ∃ e,
          result = .error (.write (.stage (f.slot s.writer.allocator).staging e))) ∧
        (∃ m, d.mishaps m) ∧
        s'.Keeps d store' (b.abandon done lost)) := by
  obtain ⟨writer, closed, store₁, s₁, store₂, hclose, hdiscard, hphases⟩ := phases_abort h
  obtain ⟨done, lost, error, hcloses, rfl, hat, hallocator, hopened, hclosed⟩ :=
    Writer.ends_close hkeeps.at_desk hkeeps.tracks.opened hkeeps.tracks.holds hclose
  obtain ⟨⟨discarded, rfl⟩, hholds⟩ :=
    ends_discardBatch (hkeeps.intoDiscard_of_close lost hclosed) hcloses.holds hdiscard
  rcases hcloses.error with ⟨rfl, rfl⟩ | ⟨⟨f, hf, e, rfl⟩, hm⟩
  · obtain ⟨_, herror, -⟩ | ⟨-, rfl, results, again, hresults, hagain, rfl⟩ := hphases
    · cases herror
    obtain rfl := hcloses.done_eq rfl
    obtain ⟨shown, kept, hsettles, hholds'⟩ :=
      Books.ends_finishEach (b := b.abandon b.opened []) (fun _ ↦ id) (List.nil_append _).symm
        hkeeps.retries hholds hresults
    refine ⟨rfl, rfl, .inl ⟨shown, kept, ⟨hsettles.perm, hsettles.done_eq, hsettles.mishap,
      ⟨discarded, ?_⟩⟩, rfl, ?_⟩⟩
    · simp [SinkStats.add, hsettles.committed, hsettles.discarded]
    · refine keeps_of_holds (s := s) hkeeps hat hallocator hopened ⟨rfl, rfl⟩ ?_ hholds'
      exact (CommitReport.fresh_intoRetries hagain).trans hsettles.failures
  · obtain ⟨_, herror, rfl, rfl, rfl⟩ | ⟨herror, -⟩ := hphases
    · obtain rfl := Except.error.inj herror
      refine ⟨rfl, rfl, .inr ⟨done, lost, ⟨hcloses.perm, hcloses.done_eq, ⟨_, rfl⟩⟩,
        ⟨f, hf, e, rfl⟩, hm, ?_⟩⟩
      exact keeps_of_holds (s := s) hkeeps hat hallocator hopened ⟨rfl, rfl⟩ hkeeps.retries hholds
    · cases herror

/-! ## Writing -/

/-- A write that is taken leaves this sink, before it looks whether the batch is full. -/
structure Took (s s₁ : Sink) : Prop where
  inBatch : s₁.inBatch = s.inBatch + 1
  batchSize : s₁.batchSize = s.batchSize
  stats : s₁.stats = { s.stats with records := s.stats.records + 1 }

/-- A sink whose writer has written a record. -/
theorem Keeps.wrote {record : Json} {written : Except WriteError Unit} {w : Writer}
    (hkeeps : s.Keeps d store b)
    (hw : (s.writer.write s.layout record).Ends (Replies d.mishaps) store (w, written) store') :
    ∃ b₁, b.Wrote d s.writer.allocator record b₁ written ∧ ∀ s' : Sink, s'.layout = s.layout →
      s'.writer = w → s'.retries = s.retries → s'.Keeps d store' b₁ := by
  rw [hkeeps.layout] at hw
  obtain ⟨b₁, hwrote, htracks, hat, -⟩ := Writer.ends_write hkeeps.at_desk hkeeps.tracks hw
  refine ⟨b₁, hwrote, ?_⟩
  rintro s' hlayout rfl hretries
  refine ⟨hlayout.trans hkeeps.layout, hat, htracks, ?_⟩
  rw [hretries, hwrote.unmoved.2.1, hkeeps.retries]
  exact List.map_congr_left fun f _ ↦
    f.committable_congr (hkeeps.tracks.base.trans htracks.base.symm) .commit

/-- A write does what its writer does. If the record is taken and the batch is full, it goes on with
a checkpoint. -/
theorem ends_write {record : Json} {result : Except SinkError Unit} (hkeeps : s.Keeps d store b)
    (h : (s.write record).Ends (Replies d.mishaps) store (.ok (s', result)) store') :
    ∃ b₁ written, b.Wrote d s.writer.allocator record b₁ written ∧
      ((∃ e, written = .error e ∧ result = .error (.write e) ∧ s'.Keeps d store' b₁ ∧
          s'.inBatch = s.inBatch ∧ s'.batchSize = s.batchSize ∧ s'.stats = s.stats) ∨
        ∃ s₁ store₁, written = .ok () ∧ s₁.Keeps d store₁ b₁ ∧ Took s s₁ ∧
          (s.batchSize ≤ s.inBatch + 1 ∧
              s₁.checkpoint.Ends (Replies d.mishaps) store₁ (.ok (s', result)) store' ∨
            s.inBatch + 1 < s.batchSize ∧ s' = s₁ ∧ store' = store₁ ∧ result = .ok ())) := by
  obtain ⟨w, written, store₁, hw, hphases⟩ := phases_write h
  obtain ⟨b₁, hwrote, hnext⟩ := hkeeps.wrote hw
  refine ⟨b₁, written, hwrote, ?_⟩
  rcases hphases with ⟨e, rfl, rfl, rfl, rfl⟩ | ⟨rfl, hend⟩
  · exact .inl ⟨e, rfl, rfl, hnext _ rfl rfl rfl, rfl, rfl, rfl⟩
  · exact .inr ⟨{ s with
      writer := w
      inBatch := s.inBatch + 1
      stats := { s.stats with records := s.stats.records + 1 } }, store₁, rfl,
      hnext _ rfl rfl rfl, ⟨rfl, rfl, rfl⟩, hend⟩

/-- A write leaves a sink that there are books about. -/
theorem Keeps.exists_of_write {record : Json} {result : Except SinkError Unit}
    (hkeeps : s.Keeps d store b)
    (h : (s.write record).Ends (Replies d.mishaps) store (.ok (s', result)) store') :
    ∃ b', s'.Keeps d store' b' := by
  obtain ⟨b₁, written, -, ⟨e, -, -, hkeeps', -⟩ |
    ⟨s₁, store₁, -, hkeeps₁, -, ⟨-, hcheckpoint⟩ | ⟨-, rfl, rfl, -⟩⟩⟩ := ends_write hkeeps h
  · exact ⟨b₁, hkeeps'⟩
  · obtain ⟨-, -, ⟨done, failed, -, hkeeps'⟩ | ⟨done, lost, -, -, -, hkeeps'⟩⟩ :=
      ends_checkpoint hkeeps₁ hcheckpoint
    · exact ⟨_, hkeeps'⟩
    · exact ⟨_, hkeeps'⟩
  · exact ⟨b₁, hkeeps₁⟩

end Sink

end TableSink
