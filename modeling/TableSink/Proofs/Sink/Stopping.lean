import TableSink.Proofs.Sink.Phases

/-!
# When the program stops

A boundary stops the program if a committable cannot be handed back, since its counter is at the
greatest number. Committables of the open batch were never handed back, and those that are kept once
for each boundary at most (`Sink.Attempts`). So it takes as many boundaries as there are numbers
before the program stops, whatever a store replies (`Sink.Attempts.call`).
-/

namespace TableSink

variable {σ : Type} {replies : Replying σ} {store store' : σ} {n : Nat}

/-- The committable was handed back at least once, and at most this many times. -/
def Committable.Attempted (n : Nat) (c : Committable) : Prop :=
  1 ≤ c.retries.toNat ∧ c.retries.toNat ≤ n

theorem Committable.Attempted.mono {n' : Nat} {c : Committable} (h : c.Attempted n) (hn : n ≤ n') :
    c.Attempted n' :=
  ⟨h.1, h.2.trans hn⟩

/-- A committable of a file that was just closed was never handed back. -/
theorem OpenFile.retries_of_close {f : OpenFile} {kind : CloseKind} {c : Committable}
    (h : (f.close kind).Ends replies store (.ok c) store') : c.retries = 0 := by
  obtain ⟨reply, store₁, -, h⟩ := Task.ends_ask_bind.mp h
  cases reply with
  | ok _ =>
    obtain rfl := Except.ok.inj (Task.ends_report_done.mp h).1
    rfl
  | error _ => cases (Task.ends_done.mp h).1

theorem Closing.retries_eq_zero {kind : CloseKind} {fs : List OpenFile} {cs : List Committable}
    {error : Option WriteError} (h : Closing replies kind fs store cs error store') :
    ∀ c ∈ cs, c.retries = 0 := by
  induction h with
  | nil => exact nofun
  | done hclose _ ih => exact List.forall_mem_cons.mpr ⟨OpenFile.retries_of_close hclose, ih⟩
  | lost _ _ ih => exact ih

namespace Writer

variable {w w' : Writer}

theorem retries_of_close {kind : CloseKind} {closed : Except WriteError Unit}
    (hw : ∀ c ∈ w.closed, c.retries = 0)
    (h : (w.close kind).Ends replies store (w', closed) store') :
    ∀ c ∈ w'.closed, c.retries = 0 := by
  obtain ⟨cs, error, hclosing, -, -, hclosed, -⟩ := hands_close h
  rw [hclosed]
  exact List.forall_mem_append.mpr ⟨hw, hclosing.retries_eq_zero⟩

theorem retries_of_write {ρ : Type} {layout : Layout ρ} {record : ρ}
    {written : Except WriteError Unit} (hw : ∀ c ∈ w.closed, c.retries = 0)
    (h : (w.write layout record).Ends replies store (w', written) store') :
    ∀ c ∈ w'.closed, c.retries = 0 := by
  cases hands_write h with
  | rejected _ hsame _ => exact hsame ▸ hw
  | blocked _ _ _ hclosing _ hclosed _ =>
    exact hclosed ▸ List.forall_mem_append.mpr ⟨hw, hclosing.retries_eq_zero⟩
  | turned _ hclosing _ hclosed =>
    exact hclosed ▸ List.forall_mem_append.mpr ⟨hw, hclosing.retries_eq_zero⟩
  | put _ _ _ hclosed _ => exact hclosed ▸ hw

end Writer

namespace Sink

variable {s s₁ : Sink} {ending : Ending}

/-- The committables that are kept were handed back so often at most, and those of the open batch
never. -/
structure Attempts (n : Nat) (s : Sink) : Prop where
  retries : ∀ c ∈ s.retries, c.Attempted n
  closed : ∀ c ∈ s.writer.closed, c.retries = 0

/-- So often at most the committables that are left were handed back; if the program has stopped,
there are no more numbers to count it. -/
def Ending.Attempts (n : Nat) : Ending → Prop
  | .ok (s, _) => s.Attempts n
  | .error _ => UInt32.size ≤ n

theorem Attempts.mono {n' : Nat} (h : s.Attempts n) (hn : n ≤ n') : s.Attempts n' :=
  ⟨fun c hc ↦ (h.retries c hc).mono hn, h.closed⟩

theorem attempts_new (config : Config) (run : String) : (new config run).Attempts 0 where
  retries := nofun
  closed := by
    cases hstrategy : config.strategy <;> simp [new, Writer.new, hstrategy, Writer.closed]

theorem Attempts.discardBatch (h : s.Attempts n)
    (hdiscard : s.discardBatch.Ends replies store s₁ store') : s₁.Attempts n := by
  obtain ⟨results, -, rfl⟩ := phases_discardBatch hdiscard
  exact ⟨h.retries, by simp⟩

/-- What cannot be finished is handed back, and counts one more attempt; or it cannot be counted,
and the program stops. -/
theorem attempts_of_finishEach {cs : List Committable}
    {results : List (Except FailedCommit Finish)} {build : List Committable → Sink}
    {result : Except SinkError Unit} (hcs : ∀ c ∈ cs, c.Attempted n ∨ c.retries = 0)
    (h : (cs.mapM Committable.finish).Ends replies store results store')
    (hbuild : ∀ again, (build again).retries = again ∧ (build again).writer.closed = []) :
    Ending.Attempts (n + 1)
      ((CommitReport.ofResults results).intoRetries.map fun again ↦ (build again, result)) := by
  have hbound : ∀ c ∈ cs, c.retries.toNat ≤ n := by
    intro c hc
    rcases hcs c hc with hattempted | hzero
    · exact hattempted.2
    · simp [hzero]
  cases hagain : (CommitReport.ofResults results).intoRetries with
  | error panic =>
    obtain ⟨f, hf, hgreatest⟩ := CommitReport.intoRetries_eq_error.mp hagain
    have hc := (CommitReport.sublist_failed h).subset (List.mem_map_of_mem hf)
    have hsize : UInt32.size ≤ n + 1 := hgreatest ▸ Nat.succ_le_succ (hbound _ hc)
    exact hsize
  | ok again =>
    refine ⟨fun c hc ↦ ?_, by simp [hbuild]⟩
    rw [(hbuild again).1] at hc
    obtain ⟨c, hmem, hroom, rfl⟩ := CommitReport.exists_of_mem_intoRetries h hagain hc
    rw [Committable.Attempted, Committable.toNat_retries_again hroom]
    exact ⟨Nat.le_add_left 1 _, Nat.succ_le_succ (hbound c hmem)⟩

theorem Attempts.checkpoint (h : s.Attempts n)
    (hc : s.checkpoint.Ends replies store ending store') : ending.Attempts (n + 1) := by
  obtain ⟨w, closed, store₁, hclose, hphases⟩ := phases_checkpoint_ending hc
  have hclosed := Writer.retries_of_close h.closed hclose
  rcases hphases with ⟨e, s₁, -, rfl, hdiscard⟩ | ⟨-, results, hresults, rfl⟩
  · have hgiven := Attempts.discardBatch (s := { s with inBatch := 0, writer := w })
      ⟨h.retries, hclosed⟩ hdiscard
    exact hgiven.mono (Nat.le_succ n)
  · refine attempts_of_finishEach (fun c hc ↦ ?_) hresults fun again ↦ ⟨rfl, by simp⟩
    exact (List.mem_append.mp hc).imp (h.retries c) (hclosed c)

theorem Attempts.abort (h : s.Attempts n) (hc : s.abort.Ends replies store ending store') :
    ending.Attempts (n + 1) := by
  obtain ⟨w, closed, store₁, s₁, store₂, hclose, hdiscard, hphases⟩ := phases_abort_ending hc
  have hgiven := Attempts.discardBatch (s := { s with inBatch := 0, writer := w })
    ⟨h.retries, Writer.retries_of_close h.closed hclose⟩ hdiscard
  rcases hphases with ⟨e, -, rfl, -⟩ | ⟨-, results, hresults, rfl⟩
  · exact hgiven.mono (Nat.le_succ n)
  · obtain ⟨_, -, rfl⟩ := phases_discardBatch hdiscard
    exact attempts_of_finishEach (fun c hc ↦ .inl (h.retries c hc)) hresults
      fun again ↦ ⟨rfl, by simp⟩

/-- A write hands nothing back unless it is a checkpoint as well. -/
theorem Attempts.put (h : s.Attempts n) {record : Json} {w : Writer}
    {written : Except WriteError Unit}
    (hw : (s.writer.write s.layout record).Ends replies store (w, written) store') (inBatch : Nat)
    (stats : SinkStats) : { s with writer := w, inBatch, stats : Sink }.Attempts n :=
  ⟨h.retries, Writer.retries_of_write h.closed hw⟩

theorem Attempts.write (h : s.Attempts n) {record : Json}
    (hc : (s.write record).Ends replies store ending store') : ending.Attempts (n + 1) := by
  obtain ⟨w, written, store₁, hw, ⟨e, -, rfl, -⟩ | ⟨-, ⟨-, hcheckpoint⟩ | ⟨-, rfl, -⟩⟩⟩ :=
    phases_write_ending hc
  · exact (h.put hw _ _).mono (Nat.le_succ n)
  · exact (h.put hw _ _).checkpoint hcheckpoint
  · exact (h.put hw _ _).mono (Nat.le_succ n)

/-- Every call counts one more attempt at most, and stops the program only when there are no more
numbers. -/
theorem Attempts.call (h : s.Attempts n) {c : Call}
    (hc : (s.call c).Ends replies store ending store') : ending.Attempts (n + 1) := by
  cases c with
  | write record => exact h.write hc
  | checkpoint => exact h.checkpoint hc
  | abort => exact h.abort hc

end Sink

end TableSink
