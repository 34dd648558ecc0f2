import TableSink.Proofs.Sink.Paths
import TableSink.Proofs.Sink.Recovery

/-!
# Sinks whose commits overlap

Where a sink commits a batch, a few of its committables may be finished at a time. The files of a
batch, and those that are kept for it, have different places, and where nothing goes wrong none of
them fails. So it cannot be told from outside how the commits overlapped: every call refines the
call in which one commit comes after the other (`Sink.Keeps.refines_call`), whatever had gone wrong
before it (`Sink.Course.refines_call`).
-/

namespace TableSink

open MemoryStore (Replies)

variable {ρ : Type} {store store' : MemoryStore}

/-! ## Different places -/

/-- Committables of different files name different places. -/
theorem Filed.pairwise_places {layout : Layout ρ} {a : Allocator} {files : List (Filed ρ)}
    {kind : CloseKind} {batch : List Committable} (ha : a.InPlace)
    (hkeys : (files.map Filed.key).Nodup)
    (hbatch : batch.map Committable.fresh = files.map fun f ↦ f.committable layout a kind) :
    batch.Pairwise fun c d ↦ c.places.Disjoint d.places := by
  have hfiles : (files.map fun f ↦ f.committable layout a kind).Pairwise
      fun c d ↦ c.places.Disjoint d.places := by
    refine List.pairwise_map.mpr ((List.pairwise_map.mp hkeys).imp fun {f g} hne p hf hg ↦ ?_)
    obtain ⟨hss, hst, hts, htt⟩ := Books.places_ne ha hne
    rcases OpenFile.eq_place_of_mem ha (f := f.openFile layout a) rfl rfl hf with rfl | rfl
    · rcases OpenFile.eq_place_of_mem ha (f := g.openFile layout a) rfl rfl hg with h | h
      · exact hss h
      · exact hst h
    · rcases OpenFile.eq_place_of_mem ha (f := g.openFile layout a) rfl rfl hg with h | h
      · exact hts h
      · exact htt h
  rw [← hbatch, List.pairwise_map] at hfiles
  exact hfiles

/-! ## What is in hand -/

namespace Writer

variable {a : Allocator} {w : Writer}

theorem Holds.within_close (ha : a.InPlace) (h : w.Holds a) (kind : CloseKind) :
    (w.close kind).Within a.Places :=
  Task.within_of_keeps fun _ _ hclose ↦ (h.close ha hclose).2 trivial

theorem Holds.within_write (ha : a.InPlace) (h : w.Holds a) (layout : Layout Json)
    (record : Json) : (w.write layout record).Within a.Places :=
  Task.within_of_keeps fun _ _ hwrite ↦ (h.write ha hwrite).2 trivial

end Writer

namespace Sink

variable {d : Desk Json} {b : Books Json} {s : Sink}

/-- A writer that the books are about has nothing in hand but files of its allocator. -/
theorem Keeps.holds_writer (hkeeps : s.Keeps d store b) :
    s.writer.Holds s.writer.allocator where
  slot := rfl
  opened := by
    rw [hkeeps.tracks.opened]
    intro g hg
    obtain ⟨f, hf, rfl⟩ := List.mem_map.mp hg
    have hkey : (f.spec, f.sequence) ∈ b.keys :=
      List.mem_map.mpr ⟨(f, .opened), Books.mem_entries.mpr hf, rfl⟩
    exact ⟨f.spec, f.sequence, (hkeeps.tracks.holds.issued _ _).mp hkey, rfl⟩
  closed := by
    rw [hkeeps.tracks.closed]
    intro c hc
    obtain ⟨f, -, rfl⟩ := List.mem_map.mp hc
    have hplace : (f.openFile d.layout s.writer.allocator).In s.writer.allocator :=
      ⟨f.spec, f.sequence, rfl⟩
    exact hplace.committable hkeeps.tracks.holds.inPlace .commit

/-! ## Calls -/

/-- A commit of which nothing fails. -/
theorem refines_commit {batch : List Committable}
    (hplaces : batch.Pairwise fun c d ↦ c.places.Disjoint d.places)
    (hsuccess : ∀ results store', (batch.mapM Committable.finish).Ends (Replies Mishap.none) store
      results store' → (CommitReport.ofResults results).isSuccess = true) :
    Ways.Refines MemoryStore.Alike (s.commit batch) (s.commit batch) store := by
  refine Ways.Refines.bind (Ways.refines_commitBatch (by omega) hplaces ?_) fun _ _ _ ↦
    Ways.refines_pure _ _
  intro report store' hcommit
  obtain ⟨results, hresults, rfl⟩ := phases_commitBatch.mp hcommit
  exact hsuccess results store' hresults

/-- It makes no difference here whether everything can be removed: what cannot is not handed back.
-/
theorem refines_discardBatch
    (hplaces : (s.writer.closed.map Committable.intoDiscard).Pairwise
      fun c d ↦ c.places.Disjoint d.places) :
    Ways.Refines MemoryStore.Alike s.discardBatch s.discardBatch store := by
  unfold discardBatch
  dsimp only
  split
  · exact Ways.refines_pure _ _
  have hlimit : 0 < max s.concurrency 1 := by omega
  constructor
  · intro s₀ hs
    obtain ⟨report, left, hway⟩ := (Ways.exists_commitBatch hlimit hplaces hs).1
    exact ⟨_, left, _, left, ⟨report, left, hway, rfl, rfl⟩, rfl, rfl⟩
  · rintro s₀ hs _ left ⟨_, _, ⟨report, _, hway, rfl, rfl⟩, rfl, rfl⟩
    obtain ⟨report₀, store₁, hcommit, hleft, hcommitted, hdiscarded, -⟩ :=
      (Ways.exists_commitBatch hlimit hplaces hs).2 report left hway
    refine ⟨store₁, Task.ends_bind.mpr ⟨_, store₁,
      Task.ends_bind.mpr ⟨report₀, store₁, hcommit, .done⟩, ?_⟩, hleft⟩
    simp only [SinkStats.add, hcommitted, hdiscarded]
    exact .done

theorem Keeps.refines_checkpoint (hkeeps : s.Keeps d store b) :
    Ways.Refines MemoryStore.Alike s.checkpoint s.checkpoint store := by
  have ha := hkeeps.tracks.holds.inPlace
  refine (Ways.refines_lift (hkeeps.holds_writer.within_close ha .commit) store).bind ?_
  rintro ⟨w, closed⟩ store₁ hclose
  obtain rfl := Writer.closed_of_regular hclose
  obtain ⟨hholds, hbatch⟩ := hkeeps.kept_of_close hclose.of_none
  dsimp only
  split
  · exact Ways.refines_pure _ _
  · refine (refines_commit (Filed.pairwise_places ha hholds.nodup_kept hbatch) ?_).bind ?_
    · exact fun results store' hresults ↦ hkeeps.isSuccess_of_regular hclose hresults
    · rintro ⟨s₁, report⟩ store₂ -
      dsimp only
      split
      · exact Ways.refines_pure _ _
      · exact Ways.refines_pure _ _

theorem Keeps.refines_abort (hkeeps : s.Keeps d store b) :
    Ways.Refines MemoryStore.Alike s.abort s.abort store := by
  have ha := hkeeps.tracks.holds.inPlace
  refine (Ways.refines_lift (hkeeps.holds_writer.within_close ha .recovery) store).bind ?_
  rintro ⟨w, closed⟩ store₁ hclose
  obtain rfl := Writer.closed_of_regular hclose
  obtain ⟨done, lost, error, hcloses, -, -, -, -, hclosed⟩ :=
    Writer.ends_close hkeeps.at_desk hkeeps.tracks.opened hkeeps.tracks.holds hclose.of_none
  have hgiven := hkeeps.intoDiscard_of_close lost hclosed
  refine Ways.Refines.bind (refines_discardBatch ?_) ?_
  · have hbatch : (w.closed.map Committable.intoDiscard).map Committable.fresh =
        (b.close done lost).closed.map
          fun f ↦ f.committable d.layout s.writer.allocator .recovery := by
      rw [hgiven, List.map_map]
      rfl
    exact Filed.pairwise_places ha hcloses.holds.nodup_closed hbatch
  intro s₁ store₂ hdiscard
  obtain ⟨⟨discarded, rfl⟩, hholds⟩ := ends_discardBatch hgiven hcloses.holds hdiscard.of_none
  have hkeys := hkeeps.tracks.holds.nodup_kept
  dsimp only
  split
  · exact Ways.refines_pure _ _
  · refine (refines_commit (Filed.pairwise_places ha hkeys hkeeps.retries) ?_).bind fun _ _ _ ↦
      Ways.refines_pure _ _
    exact fun results store' hresults ↦ hholds.isSuccess_of_regular hkeeps.retries hresults

theorem Keeps.refines_write (hkeeps : s.Keeps d store b) (record : Json) :
    Ways.Refines MemoryStore.Alike (s.write record) (s.write record) store := by
  have ha := hkeeps.tracks.holds.inPlace
  refine (Ways.refines_lift (hkeeps.holds_writer.within_write ha s.layout record) store).bind ?_
  rintro ⟨w, written⟩ store₁ hwritten
  obtain ⟨b₁, -, hnext⟩ := hkeeps.wrote hwritten.of_none
  cases written with
  | error e => exact Ways.refines_pure _ _
  | ok _ =>
    dsimp only
    split
    · have hkeeps₁ := hnext { s with
        writer := w
        inBatch := s.inBatch + 1
        stats := { s.stats with records := s.stats.records + 1 } } rfl rfl rfl
      exact hkeeps₁.refines_checkpoint
    · exact Ways.refines_pure _ _

/-- However the commits overlap, a call on which nothing goes wrong is the call in which one commit
comes after the other. -/
theorem Keeps.refines_call (hkeeps : s.Keeps d store b) (c : Call) :
    Ways.Refines MemoryStore.Alike (s.call c) (s.call c) store := by
  cases c with
  | write record => exact hkeeps.refines_write record
  | checkpoint => exact hkeeps.refines_checkpoint
  | abort => exact hkeeps.refines_abort

variable {config : Config} {run : String} {mishaps : Mishap → Prop} {init : MemoryStore}
variable {j : Journal}

/-- So it is whatever has gone wrong before. -/
theorem Course.refines_call (h : Course config run (Replies mishaps) init s store j) (c : Call) :
    Ways.Refines MemoryStore.Alike (s.call c) (s.call c) store := by
  obtain ⟨b, haccounts⟩ := h.accounts
  exact haccounts.keeps.refines_call c

end Sink

end TableSink
