import TableSink.Proofs.Commit.Settle
import TableSink.Proofs.Writer.Ends
import TableSink.Sink

/-!
# The phases of a call

Every call on a sink is taken apart into what its writer does and into committables that are
finished one after the other, whatever a store is like and whatever it replies. A batch without
committables is no special case here: nothing is finished then.
-/

namespace TableSink

variable {σ : Type} {replies : Replying σ} {store store' : σ} {s s' : Sink}
variable {result : Except SinkError Unit}

/-- What is handed back is put into what a call ends with, unless the program stops. -/
theorem Except.map_eq_ok {ε α β : Type} {e : Except ε α} {f : α → β} {b : β} :
    e.map f = .ok b ↔ ∃ a, e = .ok a ∧ b = f a := by
  cases e with
  | ok a => simp [Except.map, eq_comm]
  | error _ => simp [Except.map]

theorem Except.mem_toOption {ε α : Type} {e : Except ε α} {a : α} :
    a ∈ e.toOption ↔ e = .ok a := by
  cases e <;> simp [Except.toOption, eq_comm]

namespace Sink

/-- Giving up a batch finishes what was closed for it, without the tokens that let it show. -/
theorem phases_discardBatch (h : s.discardBatch.Ends replies store s' store') :
    ∃ results,
      ((s.writer.closed.map Committable.intoDiscard).mapM Committable.finish).Ends replies store
        results store' ∧
      s' = { s with writer := s.writer.drain, stats := s.stats.add (.ofResults results) } := by
  unfold discardBatch at h
  by_cases hstaged : s.writer.closed.map Committable.intoDiscard = []
  · simp only [hstaged, if_true] at h
    obtain ⟨rfl, rfl⟩ := Task.ends_done.mp h
    exact ⟨[], by simp [hstaged], rfl⟩
  · simp only [hstaged, if_false, commit, Task.ends_bind] at h
    obtain ⟨_, _, ⟨report, _, hcommit, h₁⟩, h⟩ := h
    obtain ⟨rfl, rfl⟩ := Task.ends_done.mp h₁
    obtain ⟨rfl, rfl⟩ := Task.ends_done.mp h
    obtain ⟨results, hresults, rfl⟩ := phases_commitBatch.mp hcommit
    exact ⟨results, hresults, rfl⟩

/-- A checkpoint closes the writer. If that fails the batch is given up; otherwise the committables
of earlier batches and of this one are finished, and those that failed are handed back, unless the
program stops. -/
theorem phases_checkpoint_ending {ending : Ending}
    (h : s.checkpoint.Ends replies store ending store') :
    ∃ w closed store₁, (s.writer.close .commit).Ends replies store (w, closed) store₁ ∧
      ((∃ e s₁, closed = .error e ∧ ending = .ok (s₁, .error (.write e)) ∧
          ({ s with inBatch := 0, writer := w } : Sink).discardBatch.Ends replies store₁ s₁
            store') ∨
        closed = .ok () ∧ ∃ results,
          ((s.retries ++ w.closed).mapM Committable.finish).Ends replies store₁ results store' ∧
          let report := CommitReport.ofResults results
          ending = report.intoRetries.map fun again ↦
            ({ s with
              inBatch := 0
              writer := w.drain
              retries := again
              stats := { s.stats.add report with
                batches := s.stats.batches +
                  if report.isSuccess ∧ s.retries ++ w.closed ≠ [] then 1 else 0 } },
              if report.isSuccess then .ok ()
              else .error (.batchFailed (s.stats.batches + 1) report.failed.length))) := by
  simp only [checkpoint, Task.ends_bind] at h
  obtain ⟨⟨w, closed⟩, store₁, hclose, h⟩ := h
  refine ⟨w, closed, store₁, hclose, ?_⟩
  cases closed with
  | error e =>
    simp only [Task.ends_bind] at h
    obtain ⟨s₁, store₂, hdiscard, h⟩ := h
    obtain ⟨rfl, rfl⟩ := Task.ends_done.mp h
    exact .inl ⟨e, s₁, rfl, rfl, hdiscard⟩
  | ok _ =>
    refine .inr ⟨rfl, ?_⟩
    by_cases hempty : s.retries ++ w.closed = []
    · simp only [hempty, if_true] at h
      obtain ⟨rfl, rfl⟩ := Task.ends_done.mp h
      refine ⟨[], by simp [hempty], ?_⟩
      simp only [hempty]
      rfl
    · simp only [hempty, if_false, commit, Task.ends_bind] at h
      obtain ⟨_, _, ⟨report, _, hcommit, h₁⟩, h⟩ := h
      obtain ⟨rfl, rfl⟩ := Task.ends_done.mp h₁
      obtain ⟨results, hresults, rfl⟩ := phases_commitBatch.mp hcommit
      by_cases hsuccess : (CommitReport.ofResults results).isSuccess = true
      · simp only [hsuccess, if_true] at h
        obtain ⟨rfl, rfl⟩ := Task.ends_done.mp h
        have hretries : (CommitReport.ofResults results).intoRetries = .ok [] :=
          CommitReport.intoRetries_eq_ok.mpr (by simp [List.isEmpty_iff.mp hsuccess])
        refine ⟨results, hresults, ?_⟩
        simp [hsuccess, hempty, hretries, SinkStats.add, Except.map]
      · simp only [hsuccess] at h
        obtain ⟨rfl, rfl⟩ := Task.ends_done.mp h
        refine ⟨results, hresults, ?_⟩
        simp [hsuccess, SinkStats.add]

theorem phases_checkpoint (h : s.checkpoint.Ends replies store (.ok (s', result)) store') :
    ∃ w closed store₁, (s.writer.close .commit).Ends replies store (w, closed) store₁ ∧
      ((∃ e, closed = .error e ∧ result = .error (.write e) ∧
          ({ s with inBatch := 0, writer := w } : Sink).discardBatch.Ends replies store₁ s'
            store') ∨
        closed = .ok () ∧ ∃ results again,
          ((s.retries ++ w.closed).mapM Committable.finish).Ends replies store₁ results store' ∧
          let report := CommitReport.ofResults results
          report.intoRetries = .ok again ∧
          result = (if report.isSuccess then .ok ()
            else .error (.batchFailed (s.stats.batches + 1) report.failed.length)) ∧
          s' = { s with
            inBatch := 0
            writer := w.drain
            retries := again
            stats := { s.stats.add report with
              batches := s.stats.batches +
                if report.isSuccess ∧ s.retries ++ w.closed ≠ [] then 1 else 0 } }) := by
  obtain ⟨w, closed, store₁, hclose, ⟨e, s₁, rfl, hending, hdiscard⟩ |
    ⟨rfl, results, hresults, hending⟩⟩ := phases_checkpoint_ending h
  · obtain ⟨rfl, rfl⟩ := Prod.mk.inj (Except.ok.inj hending)
    exact ⟨w, _, store₁, hclose, .inl ⟨e, rfl, rfl, hdiscard⟩⟩
  · obtain ⟨again, hagain, hs⟩ := Except.map_eq_ok.mp hending.symm
    obtain ⟨rfl, rfl⟩ := Prod.mk.inj hs
    exact ⟨w, _, store₁, hclose, .inr ⟨rfl, results, again, hresults, hagain, rfl, rfl⟩⟩

/-- An abort closes the writer and gives the batch up. If closing went well, the committables of
earlier batches are finished, and those that failed are handed back, unless the program stops. -/
theorem phases_abort_ending {ending : Ending} (h : s.abort.Ends replies store ending store') :
    ∃ w closed store₁ s₁ store₂, (s.writer.close .recovery).Ends replies store (w, closed) store₁ ∧
      ({ s with inBatch := 0, writer := w } : Sink).discardBatch.Ends replies store₁ s₁ store₂ ∧
      ((∃ e, closed = .error e ∧ ending = .ok (s₁, .error (.write e)) ∧ store' = store₂) ∨
        closed = .ok () ∧ ∃ results,
          (s.retries.mapM Committable.finish).Ends replies store₂ results store' ∧
          ending = (CommitReport.ofResults results).intoRetries.map fun again ↦
            ({ s₁ with retries := again, stats := s₁.stats.add (.ofResults results) }, .ok ())) := by
  simp only [abort, Task.ends_bind] at h
  obtain ⟨⟨w, closed⟩, store₁, hclose, s₁, store₂, hdiscard, h⟩ := h
  refine ⟨w, closed, store₁, s₁, store₂, hclose, hdiscard, ?_⟩
  obtain ⟨results, -, hs₁⟩ := phases_discardBatch hdiscard
  have hretries : s₁.retries = s.retries := by rw [hs₁]
  cases closed with
  | error e =>
    obtain ⟨rfl, rfl⟩ := Task.ends_done.mp h
    exact .inl ⟨e, rfl, rfl, rfl⟩
  | ok _ =>
    refine .inr ⟨rfl, ?_⟩
    by_cases hempty : s₁.retries = []
    · simp only [hempty, if_true] at h
      obtain ⟨rfl, rfl⟩ := Task.ends_done.mp h
      refine ⟨[], by simp [← hretries, hempty], ?_⟩
      obtain ⟨layout, writer, concurrency, batchSize, inBatch, retries, stats⟩ := s₁
      obtain rfl : retries = [] := hempty
      rfl
    · simp only [hempty, if_false, commit, Task.ends_bind] at h
      obtain ⟨_, _, ⟨report, _, hcommit, h₁⟩, h⟩ := h
      obtain ⟨rfl, rfl⟩ := Task.ends_done.mp h₁
      obtain ⟨rfl, rfl⟩ := Task.ends_done.mp h
      obtain ⟨results, hresults, rfl⟩ := phases_commitBatch.mp hcommit
      exact ⟨results, hretries ▸ hresults, rfl⟩

theorem phases_abort (h : s.abort.Ends replies store (.ok (s', result)) store') :
    ∃ w closed store₁ s₁ store₂, (s.writer.close .recovery).Ends replies store (w, closed) store₁ ∧
      ({ s with inBatch := 0, writer := w } : Sink).discardBatch.Ends replies store₁ s₁ store₂ ∧
      ((∃ e, closed = .error e ∧ result = .error (.write e) ∧ s' = s₁ ∧ store' = store₂) ∨
        closed = .ok () ∧ result = .ok () ∧ ∃ results again,
          (s.retries.mapM Committable.finish).Ends replies store₂ results store' ∧
          (CommitReport.ofResults results).intoRetries = .ok again ∧
          s' = { s₁ with retries := again, stats := s₁.stats.add (.ofResults results) }) := by
  obtain ⟨w, closed, store₁, s₁, store₂, hclose, hdiscard, ⟨e, rfl, hending, rfl⟩ |
    ⟨rfl, results, hresults, hending⟩⟩ := phases_abort_ending h
  · obtain ⟨rfl, rfl⟩ := Prod.mk.inj (Except.ok.inj hending)
    exact ⟨w, _, store₁, _, _, hclose, hdiscard, .inl ⟨e, rfl, rfl, rfl, rfl⟩⟩
  · obtain ⟨again, hagain, hs⟩ := Except.map_eq_ok.mp hending.symm
    obtain ⟨rfl, rfl⟩ := Prod.mk.inj hs
    exact ⟨w, _, store₁, s₁, store₂, hclose, hdiscard,
      .inr ⟨rfl, rfl, results, again, hresults, hagain, rfl⟩⟩

/-- What every boundary leaves of a sink: nothing is in hand any more, and no place was handed out.
-/
structure Bounded (s s' : Sink) : Prop where
  layout : s'.layout = s.layout
  allocator : s'.writer.allocator = s.writer.allocator
  opened : s'.writer.opened = []
  closed : s'.writer.closed = []
  batchSize : s'.batchSize = s.batchSize
  inBatch : s'.inBatch = 0
  records : s'.stats.records = s.stats.records

theorem bounded_checkpoint (h : s.checkpoint.Ends replies store (.ok (s', result)) store') :
    s.Bounded s' := by
  obtain ⟨w, closed, store₁, hclose, hphases⟩ := phases_checkpoint h
  obtain ⟨cs, error, -, -, hopened, -, hallocator, -⟩ := Writer.hands_close hclose
  rcases hphases with ⟨e, -, -, hdiscard⟩ | ⟨-, results, again, -, -, -, rfl⟩
  · obtain ⟨results, -, rfl⟩ := phases_discardBatch hdiscard
    constructor <;> simp [hallocator, hopened, SinkStats.add]
  · constructor <;> simp [hallocator, hopened, SinkStats.add]

theorem bounded_abort (h : s.abort.Ends replies store (.ok (s', result)) store') :
    s.Bounded s' := by
  obtain ⟨w, closed, store₁, s₁, store₂, hclose, hdiscard, hphases⟩ := phases_abort h
  obtain ⟨cs, error, -, -, hopened, -, hallocator, -⟩ := Writer.hands_close hclose
  obtain ⟨results, -, rfl⟩ := phases_discardBatch hdiscard
  rcases hphases with ⟨e, -, -, rfl, -⟩ | ⟨-, -, results, again, -, -, rfl⟩
  · constructor <;> simp [hallocator, hopened, SinkStats.add]
  · constructor <;> simp [hallocator, hopened, SinkStats.add]

/-- A write does what its writer does. If the record is taken and the batch is full, a checkpoint
follows. -/
theorem phases_write_ending {record : Json} {ending : Ending}
    (h : (s.write record).Ends replies store ending store') :
    ∃ w written store₁, (s.writer.write s.layout record).Ends replies store (w, written) store₁ ∧
      ((∃ e, written = .error e ∧ ending = .ok ({ s with writer := w }, .error (.write e)) ∧
          store' = store₁) ∨
        written = .ok () ∧
          let s₁ : Sink := { s with
            writer := w
            inBatch := s.inBatch + 1
            stats := { s.stats with records := s.stats.records + 1 } }
          (s.batchSize ≤ s.inBatch + 1 ∧ s₁.checkpoint.Ends replies store₁ ending store' ∨
            s.inBatch + 1 < s.batchSize ∧ ending = .ok (s₁, .ok ()) ∧ store' = store₁)) := by
  simp only [write, Task.ends_bind] at h
  obtain ⟨⟨w, written⟩, store₁, hwrite, h⟩ := h
  refine ⟨w, written, store₁, hwrite, ?_⟩
  cases written with
  | error e =>
    obtain ⟨rfl, rfl⟩ := Task.ends_done.mp h
    exact .inl ⟨e, rfl, rfl, rfl⟩
  | ok _ =>
    refine .inr ⟨rfl, ?_⟩
    by_cases hfull : s.batchSize ≤ s.inBatch + 1
    · simp only [hfull, if_true] at h
      exact .inl ⟨hfull, h⟩
    · simp only [hfull, if_false] at h
      obtain ⟨rfl, rfl⟩ := Task.ends_done.mp h
      exact .inr ⟨Nat.lt_of_not_le hfull, rfl, rfl⟩

theorem phases_write {record : Json}
    (h : (s.write record).Ends replies store (.ok (s', result)) store') :
    ∃ w written store₁, (s.writer.write s.layout record).Ends replies store (w, written) store₁ ∧
      ((∃ e, written = .error e ∧ result = .error (.write e) ∧ s' = { s with writer := w } ∧
          store' = store₁) ∨
        written = .ok () ∧
          let s₁ : Sink := { s with
            writer := w
            inBatch := s.inBatch + 1
            stats := { s.stats with records := s.stats.records + 1 } }
          (s.batchSize ≤ s.inBatch + 1 ∧
              s₁.checkpoint.Ends replies store₁ (.ok (s', result)) store' ∨
            s.inBatch + 1 < s.batchSize ∧ s' = s₁ ∧ store' = store₁ ∧ result = .ok ())) := by
  obtain ⟨w, written, store₁, hwrite, hphases⟩ := phases_write_ending h
  refine ⟨w, written, store₁, hwrite, ?_⟩
  rcases hphases with ⟨e, rfl, hending, rfl⟩ | ⟨rfl, ⟨hfull, hcheckpoint⟩ | ⟨hroom, hending, rfl⟩⟩
  · obtain ⟨rfl, rfl⟩ := Prod.mk.inj (Except.ok.inj hending)
    exact .inl ⟨e, rfl, rfl, rfl, rfl⟩
  · exact .inr ⟨rfl, .inl ⟨hfull, hcheckpoint⟩⟩
  · obtain ⟨rfl, rfl⟩ := Prod.mk.inj (Except.ok.inj hending)
    exact .inr ⟨rfl, .inr ⟨hroom, rfl, rfl, rfl⟩⟩

/-! ## Calls -/

/-- Something that is asked of a sink. -/
inductive Call where
  | write (record : Json)
  | checkpoint
  | abort

/-- Carry out a call. -/
def call {m : Type → Type} [Monad m] [MonadLiftT Task m] [Committing m] (s : Sink) :
    Call → m Ending
  | .write record => s.write record
  | .checkpoint => s.checkpoint
  | .abort => s.abort

/-- The records that a call brings. -/
def Call.records : Call → List Json
  | .write record => [record]
  | .checkpoint | .abort => []

/-- The sink lays out its records as the desk says, and so does its writer. -/
structure At (d : Desk Json) (s : Sink) : Prop where
  layout : s.layout = d.layout
  writer : s.writer.At d

variable {d : Desk Json} {record : Json}

theorem At.discardBatch (hat : s.At d) (h : s.discardBatch.Ends replies store s' store') :
    s'.At d := by
  obtain ⟨results, -, rfl⟩ := phases_discardBatch h
  exact ⟨hat.layout, hat.writer.drain⟩

theorem At.checkpoint (hat : s.At d)
    (h : s.checkpoint.Ends replies store (.ok (s', result)) store') : s'.At d := by
  obtain ⟨w, closed, store₁, hclose, hphases⟩ := phases_checkpoint h
  have hw := hat.writer.close hclose
  rcases hphases with ⟨e, -, -, hdiscard⟩ | ⟨-, results, again, -, -, -, rfl⟩
  · exact At.discardBatch (s := { s with inBatch := 0, writer := w }) ⟨hat.layout, hw⟩ hdiscard
  · exact ⟨hat.layout, hw.drain⟩

theorem At.abort (hat : s.At d) (h : s.abort.Ends replies store (.ok (s', result)) store') :
    s'.At d := by
  obtain ⟨w, closed, store₁, s₁, store₂, hclose, hdiscard, hphases⟩ := phases_abort h
  have hs₁ := At.discardBatch (s := { s with inBatch := 0, writer := w })
    ⟨hat.layout, hat.writer.close hclose⟩ hdiscard
  rcases hphases with ⟨e, -, -, rfl, -⟩ | ⟨-, -, results, again, -, -, rfl⟩
  · exact hs₁
  · exact ⟨hs₁.layout, hs₁.writer⟩

theorem At.write (hat : s.At d)
    (h : (s.write record).Ends replies store (.ok (s', result)) store') : s'.At d := by
  obtain ⟨w, written, store₁, hwrite, hphases⟩ := phases_write h
  have hs₁ : ∀ (inBatch : Nat) (stats : SinkStats),
      { s with writer := w, inBatch, stats : Sink }.At d :=
    fun _ _ ↦ ⟨hat.layout, hat.writer.write hwrite⟩
  rcases hphases with ⟨e, -, -, rfl, -⟩ | ⟨-, ⟨-, hcheckpoint⟩ | ⟨-, rfl, -, -⟩⟩
  · exact hs₁ _ _
  · exact (hs₁ _ _).checkpoint hcheckpoint
  · exact hs₁ _ _

/-- No call changes the layout, the strategy or the fixed partition of a sink. -/
theorem At.call (hat : s.At d) {c : Call}
    (h : (s.call c).Ends replies store (.ok (s', result)) store') : s'.At d := by
  cases c with
  | write record => exact hat.write h
  | checkpoint => exact hat.checkpoint h
  | abort => exact hat.abort h

end Sink

end TableSink
