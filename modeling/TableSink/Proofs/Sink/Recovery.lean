import TableSink.Proofs.Sink.Accounts

/-!
# Recovery

Whatever has gone wrong so far, one checkpoint on which nothing goes wrong makes up for it. A file
that is kept was never touched, or its inspection or its rename failed, or the rename got no further
than the copy, or it was moved without notice; in each case it can still be finished
(`Books.ends_finishEach`), so no file is kept any more after the checkpoint
(`Sink.Keeps.ends_checkpoint_regular`).

A checkpoint is due when a sink is asked for one, and also when a record fills the batch
(`Sink.Due`).
-/

namespace TableSink

open MemoryStore (Replies)

variable {mishaps : Mishap → Prop} {init store store' : MemoryStore}

/-- Where nothing goes wrong, nothing happens that could not happen otherwise. -/
theorem MemoryStore.Replies.of_none {r : Request} {reply : r.Reply}
    (h : Replies Mishap.none r store reply store') : Replies mishaps r store reply store' := by
  cases h with
  | regular => exact .regular _ _
  | refused h _ => exact h.elim
  | unheard h _ => exact h.elim
  | halfway h _ _ => exact h.elim

theorem Task.Ends.of_none {α : Type} {t : Task α} {value : α}
    (h : t.Ends (Replies Mishap.none) store value store') :
    t.Ends (Replies mishaps) store value store' :=
  h.mono fun _ _ _ _ ↦ MemoryStore.Replies.of_none

/-- Files can be closed where nothing goes wrong. -/
theorem Closing.error_eq_none {kind : CloseKind} {fs : List OpenFile} {cs : List Committable}
    {error : Option WriteError}
    (h : Closing (Replies Mishap.none) kind fs store cs error store') : error = none := by
  induction h with
  | nil => rfl
  | done _ _ ih => exact ih
  | lost hclose _ _ =>
    rcases OpenFile.ends_close hclose with ⟨hresult, -⟩ | ⟨-, ⟨-, hm⟩ | ⟨-, hm⟩⟩
    · cases hresult
    · exact hm.elim
    · exact hm.elim

/-- All that is kept can be finished where nothing goes wrong. -/
theorem Books.Holds.isSuccess_of_regular {b : Books Json} {layout : Layout Json} {a : Allocator}
    {batch : List Committable} {results : List (Except FailedCommit Finish)}
    (h : b.Holds layout mishaps a init store)
    (hbatch : batch.map Committable.fresh = b.kept.map fun f ↦ f.committable layout a .commit)
    (hresults : (batch.mapM Committable.finish).Ends (Replies Mishap.none) store results store') :
    (CommitReport.ofResults results).isSuccess = true := by
  obtain ⟨done, failed, hsettles, -⟩ :=
    Books.ends_finishEach (fun _ ↦ False.elim) (List.nil_append _).symm hbatch h hresults
  refine hsettles.isSuccess_iff.mpr (by_contra fun hne ↦ ?_)
  obtain ⟨_, hm⟩ := hsettles.mishap hne
  exact hm

/-- A writer can be closed where nothing goes wrong. -/
theorem Writer.closed_of_regular {w w' : Writer} {kind : CloseKind}
    {closed : Except WriteError Unit}
    (h : (w.close kind).Ends (Replies Mishap.none) store (w', closed) store') :
    closed = .ok () := by
  obtain ⟨cs, error, hclosing, hclosed, -⟩ := hands_close h
  rw [hclosed, hclosing.error_eq_none]
  rfl

namespace Sink

variable {d : Desk Json} {b : Books Json} {s s' : Sink} {j : Journal}
variable {result : Except SinkError Unit}

/-- When the writer was closed, all that is kept and closed is finished where nothing goes wrong. -/
theorem Keeps.isSuccess_of_regular {w : Writer} {store₁ : MemoryStore}
    {results : List (Except FailedCommit Finish)} (hkeeps : s.Keeps d store b)
    (hclose : (s.writer.close .commit).Ends (Replies Mishap.none) store (w, .ok ()) store₁)
    (hresults : ((s.retries ++ w.closed).mapM Committable.finish).Ends (Replies Mishap.none) store₁
      results store') : (CommitReport.ofResults results).isSuccess = true := by
  obtain ⟨hholds, hbatch⟩ := hkeeps.kept_of_close hclose.of_none
  exact hholds.isSuccess_of_regular hbatch hresults

/-- A checkpoint on which nothing goes wrong neither fails nor stops the program. It shows all files
that were kept, and those of the batch. -/
theorem Keeps.ends_checkpoint_regular {ending : Ending} (hkeeps : s.Keeps d store b)
    (h : s.checkpoint.Ends (Replies Mishap.none) store ending store') :
    ∃ s', ending = .ok (s', .ok ()) ∧ Settled d b s (b.kept ++ b.batch) [] s' (.ok ()) ∧
      s'.Keeps d store' (b.settle (b.kept ++ b.batch) []) := by
  have hends : ∃ s', ending = .ok (s', .ok ()) := by
    obtain ⟨w, closed, store₁, hclose, hphases⟩ := phases_checkpoint_ending h
    obtain rfl := Writer.closed_of_regular hclose
    obtain ⟨_, _, herror, -⟩ | ⟨-, results, hresults, hending⟩ := hphases
    · cases herror
    have hsuccess := hkeeps.isSuccess_of_regular hclose hresults
    have hretries : (CommitReport.ofResults results).intoRetries = .ok [] :=
      CommitReport.intoRetries_eq_ok.mpr (by simp [List.isEmpty_iff.mp hsuccess])
    simp only [hretries, Except.map, hsuccess, if_true] at hending
    exact ⟨_, hending⟩
  obtain ⟨s', rfl⟩ := hends
  obtain ⟨-, -, ⟨done, failed, hsettled, hkeeps'⟩ | ⟨_, _, -, ⟨_, _, _, herror⟩, -⟩⟩ :=
    ends_checkpoint hkeeps h.of_none
  · obtain ⟨rfl, -⟩ | ⟨-, ⟨n, k, herror⟩, -⟩ := hsettled.result
    · obtain rfl := hsettled.done_eq rfl
      exact ⟨s', rfl, hsettled, hkeeps'⟩
    · cases herror
  · cases herror

variable {config : Config} {run : String} {replies : Replying MemoryStore}

/-- A checkpoint is due: the sink is asked for one, or a record that was taken has filled the batch.
-/
inductive Due (config : Config) (run : String) (replies : Replying MemoryStore)
    (init : MemoryStore) : Sink → MemoryStore → Journal → Prop
  | asked {s : Sink} {store : MemoryStore} {j : Journal}
    (h : Course config run replies init s store j) : Due config run replies init s store j
  | full {s : Sink} {store store' : MemoryStore} {j : Journal} {record : Json} {w : Writer}
    (h : Course config run replies init s store j)
    (hwrite : (s.writer.write s.layout record).Ends replies store (w, .ok ()) store')
    (hfull : s.batchSize ≤ s.inBatch + 1) :
    Due config run replies init
      { s with
        writer := w
        inBatch := s.inBatch + 1
        stats := { s.stats with records := s.stats.records + 1 } }
      store' ((j.take config record).upTo w.allocator)

/-- A write that ends a batch does so with a checkpoint that was due. -/
theorem Course.due_of_write {record : Json} (h : Course config run replies init s store j)
    (hwrite : (s.write record).Ends replies store (.ok (s', result)) store')
    (hbounds : j.boundaries < (j.after config s s' result (.write record)).boundaries) :
    ∃ s₁ store₁ j₁, Due config run replies init s₁ store₁ j₁ ∧
      s₁.checkpoint.Ends replies store₁ (.ok (s', result)) store' := by
  have htold := h.told
  obtain ⟨w, written, store₁, hw, ⟨e, -, -, -, -, hafter⟩ |
    ⟨rfl, s₁, j₁, rfl, rfl, ⟨hfull, hcheckpoint, -⟩ | ⟨-, -, -, -, hafter⟩⟩⟩ :=
    htold.journal_write hwrite
  · obtain ⟨books, hmiss⟩ := j.miss_eq result
    rw [hafter, hmiss] at hbounds
    exact absurd hbounds (Nat.lt_irrefl _)
  · rw [← htold.inBatch, ← htold.batchSize] at hfull
    exact ⟨_, store₁, _, .full h hw hfull, hcheckpoint⟩
  · rw [hafter] at hbounds
    exact absurd hbounds (Nat.lt_irrefl _)

/-- The figures agree with the journal whenever a checkpoint is due. -/
theorem Due.accounts (h : Due config run (Replies mishaps) init s store j) :
    j.current.last = s.writer.allocator ∧
      ∃ b, s.Accounts (config.desk run mishaps init) store b j := by
  cases h with
  | asked h => exact ⟨h.told.last, h.accounts⟩
  | full h hwrite _ =>
    obtain ⟨b, haccounts⟩ := h.accounts
    have hfirst := (h.mono fun _ _ _ _ ↦ Replies.fickle).apart.inHand.first_le
    obtain ⟨b₁, htaken⟩ := haccounts.take h.told.last hfirst hwrite
    exact ⟨rfl, b₁, htaken⟩

/-- The sink has the file open, or its bytes are at one of its places. -/
def Has (a : Allocator) (store : MemoryStore) (s : Sink) (f : Filed Json) : Prop :=
  f.openFile s.layout a ∈ s.writer.opened ∨
    store.get? (f.slot a).staging = some (f.bytes s.layout) ∨
    store.get? (f.slot a).target = some (f.bytes s.layout)

/-- No bytes are lost of files that were not given up. -/
theorem Keeps.has (hkeeps : s.Keeps d store b) {f : Filed Json}
    (hf : f ∈ b.shown ++ (b.kept ++ b.batch)) : s.Has d.base store f := by
  have hstands : ∀ status, f ∈ b.files status →
      f.Stands s.layout d.base d.mishaps d.init store status := by
    rw [hkeeps.layout]
    exact fun status ↦ hkeeps.tracks.stands
  simp only [Books.batch, List.mem_append] at hf
  rcases hf with hshown | hkept | hclosed | hopened
  · exact .inr (.inr (hstands .shown hshown).1)
  · rcases hstands .kept hkept with ⟨hstaging, -⟩ | ⟨-, -, htarget⟩
    · exact .inr (.inl hstaging)
    · exact .inr (.inr htarget)
  · exact .inr (.inl (hstands .closed hclosed).1)
  · refine .inl ?_
    rw [hkeeps.tracks.opened, hkeeps.layout]
    refine List.mem_map.mpr ⟨f, hopened, ?_⟩
    simp only [Filed.openFile, Filed.slot, hkeeps.tracks.base]

/-- Whatever has gone wrong so far, a checkpoint on which nothing goes wrong succeeds, and nothing
is kept any more. All files of all batches that were closed in good order, and of the batch that is
closed now, stand at their targets with their lines, which they had before, and nothing is left at
their staging places. Those that were not counted yet, which are those that were kept and those of
the batch that is closed now, are counted. The files of a batch have all its records, each of them
once, but for those in files that the grouped strategy has dropped while the batch was open. -/
theorem Due.recovers (h : Due config run (Replies mishaps) init s store j) :
    let a := config.allocator run
    let outcome := s.checkpoint.run MemoryStore.answer store
    ∃ s' counted kept, outcome.value = .ok (s', .ok ()) ∧ s'.retries = [] ∧
      (counted ++ kept).Perm (j.closed.flatMap Batch.files) ∧
      ((counted ++ (kept ++ j.current.files)).map Filed.key).Nodup ∧
      (∀ t ∈ j.closed ++ [j.current], t.Filled config.strategy) ∧
      s.retries.map Committable.fresh = kept.map (fun f ↦ f.committable s.layout a .commit) ∧
      s.stats.committed = counted.length ∧
      s'.stats.committed = s.stats.committed + (kept ++ j.current.files).length ∧
      ∀ f ∈ counted ++ (kept ++ j.current.files), s.Has a store f ∧
        outcome.state.get? (f.slot a).target = some (config.content f) ∧
        outcome.state.get? (f.slot a).staging = none := by
  intro a outcome
  obtain ⟨hlast, b, haccounts⟩ := h.accounts
  have hkeeps := haccounts.keeps
  have hends := s.checkpoint.ends_answer store
  obtain ⟨s', hvalue, hsettled, hkeeps'⟩ := hkeeps.ends_checkpoint_regular hends
  have hretries : s'.retries = [] := List.map_eq_nil_iff.mp hkeeps'.retries
  have hnodup := hkeeps'.tracks.holds.nodup_shown_kept
  simp only [Books.settle, List.append_nil] at hnodup
  have hfilled : ∀ t ∈ j.closed ++ [j.current], t.Filled config.strategy :=
    List.forall_mem_append.mpr ⟨haccounts.filled,
      List.forall_mem_singleton.mpr (haccounts.filled_current hlast)⟩
  rw [haccounts.opens.files_eq, hkeeps.layout]
  refine ⟨s', b.shown, b.kept, hvalue, hretries, haccounts.closed, hnodup, hfilled,
    hkeeps.retries_base, haccounts.committed, ?_, fun f hf ↦ ⟨hkeeps.has hf, ?_⟩⟩
  · rw [hsettled.stats]
  · have hshown : f ∈ (b.settle (b.kept ++ b.batch) []).files .shown := hf
    have hstands := hkeeps'.tracks.stands hshown
    simp only [Filed.Stands, Config.bytes_desk] at hstands
    exact hstands

/-- Four files of a batch are kept: the first is moved without notice, the second cannot be
inspected, the move of the third gets no further than the copy, and the fourth is moved while it is
reported that nothing was found, so that it is looked for at its target, in vain. After the next
checkpoint all of them are shown, with the file that is open by then. -/
theorem Due.recovers_after_mishaps :
    let config : Config := { table := "memory://table", strategy := .dynamic, columns := ["p"] }
    let slot (p : String) := (config.allocator "r").slot [("p", p)] 0
    ∃ s store j, Due config "r" (Replies fun _ ↦ True) .empty s store j ∧
      s.stats.committed = 0 ∧ s.retries.length = 4 ∧
      (store.get? (slot "a").staging = none ∧ store.get? (slot "b").target = none ∧
        store.get? (slot "c").staging = store.get? (slot "c").target ∧
        store.get? (slot "d").staging = none) ∧
      let outcome := s.checkpoint.run MemoryStore.answer store
      ∃ s', outcome.value = .ok (s', .ok ()) ∧ s'.retries = [] ∧ s'.stats.committed = 5 ∧
        ∀ p ∈ ["a", "b", "c", "d", "e"], ∃ f : Filed Json, f.spec = [("p", p)] ∧
          outcome.state.get? (f.slot (config.allocator "r")).target =
            some (config.content f) := by
  intro config slot
  let record (p : String) : Json := .object [("p", .string p)]
  let answer : (r : Request) → MemoryStore → r.Reply × MemoryStore
    | .rename source target, store =>
      match store.get? source with
      | none => MemoryStore.answer (.rename source target) store
      | some data =>
        if source = (slot "c").staging then (.error .failed, store.insert target data)
        else if source = (slot "d").staging then
          (.error .notFound, (MemoryStore.answer (.rename source target) store).2)
        else (.error .failed, (MemoryStore.answer (.rename source target) store).2)
    | .head path, store =>
      if path = (slot "b").staging ∨ path = (slot "d").target then (.error .failed, store)
      else MemoryStore.answer (.head path) store
    | r, store => MemoryStore.answer r store
  have hanswer : ∀ r s, Replies (fun _ ↦ True) r s (answer r s).1 (answer r s).2 := by
    intro r s
    cases r with
    | rename source target =>
      simp only [answer]
      split
      · exact .regular _ s
      · next data hsource =>
        split_ifs
        · exact .halfway trivial nofun hsource
        · exact .unheard trivial fun _ ↦ MemoryStore.lacks_rename source target s
        · exact .unheard trivial nofun
    | head path =>
      simp only [answer]
      split_ifs
      · exact .refused trivial nofun
      · exact .regular _ s
    | _ => exact .regular _ s
  have hstart : Course config "r" (Replies fun _ ↦ True) .empty (new config "r") .empty
      (.start (config.allocator "r")) :=
    .start (Task.ends_run answer hanswer (Sink.start config "r") .empty)
  obtain ⟨s, store, j, hcourse, ⟨hcounted, hkept⟩, hstore, hclosed, hcurrent⟩ :=
    hstart.exists_of_proceed answer hanswer
      [.write (record "a"), .write (record "b"), .write (record "c"), .write (record "d"),
        .checkpoint, .write (record "e")]
      (P := fun x ↦ (x.1.stats.committed = 0 ∧ x.1.retries.length = 4) ∧
        (x.2.1.get? (slot "a").staging = none ∧ x.2.1.get? (slot "b").target = none ∧
          x.2.1.get? (slot "c").staging = x.2.1.get? (slot "c").target ∧
          x.2.1.get? (slot "d").staging = none) ∧
        (x.2.2.closed.flatMap Batch.files).map Filed.spec =
          ["a", "b", "c", "d"].map (fun p ↦ [("p", p)]) ∧
        x.2.2.current.files.map Filed.spec = [[("p", "e")]]) (by decide +kernel)
  have hdue := Due.asked hcourse
  obtain ⟨s', counted, kept, hvalue, hretries, hperm, -, -, hfresh, hnone, hcommitted, hshown⟩ :=
    Due.recovers hdue
  refine ⟨s, store, j, hdue, hcounted, hkept, hstore, s', hvalue, hretries, ?_, fun p hp ↦ ?_⟩
  · have hlength : kept.length = 4 := by
      rw [← hkept, ← List.length_map (f := Committable.fresh), hfresh, List.length_map]
    have hopen : j.current.files.length = 1 := by
      simpa using congrArg List.length hcurrent
    rw [hcommitted, hcounted, List.length_append, hlength, hopen]
  · have hspec : [("p", p)] ∈
        ((j.closed.flatMap Batch.files) ++ j.current.files).map Filed.spec := by
      rw [List.map_append, hclosed, hcurrent]
      exact List.mem_map_of_mem (f := fun p ↦ [("p", p)]) hp
    obtain ⟨f, hf, hfp⟩ := List.mem_map.mp hspec
    rw [← (hperm.append_right _).mem_iff, List.append_assoc] at hf
    exact ⟨f, hfp, (hshown f hf).2.1⟩

end Sink

end TableSink
