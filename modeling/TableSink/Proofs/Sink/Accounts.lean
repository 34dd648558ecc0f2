import TableSink.Proofs.Sink.Abandoned
import TableSink.Proofs.Sink.Stopping

/-!
# Every file is accounted for

What a sink counts and what it keeps for later is compared with its journal. The journal says which
records go to which file; each file of a batch that was closed in good order is counted as
published, and stands at its target with just these records, or it is kept, and then its bytes are
at one of its two places (`Sink.Course.counted_or_kept`).

`Books.Opens` is about the open batch alone: what the sink has in hand are the files of the journal.
`Batch.Filled` is about the journal alone: no record of a batch is missing from its files but those
in files that were dropped. `Sink.Accounts` is about all batches.
-/

namespace TableSink

open MemoryStore (Replies)
open Filed (recordsIn recordsIn_append)

variable {d : Desk Json} {b b' : Books Json} {store store' : MemoryStore} {s s' : Sink}
variable {t : Batch} {j : Journal} {result : Except SinkError Unit}

/-- The records of a batch are in its files, each of them in one: a file for each place that was
handed out for the batch. Only the grouped strategy drops files. -/
structure Batch.Filled (strategy : Strategy) (t : Batch) : Prop where
  has_iff : ∀ spec i, t.Has spec i ↔ (spec, i) ∈ (t.files ++ t.dropped).map Filed.key
  records : (recordsIn t.files ++ recordsIn t.dropped).Perm t.records
  none_dropped : strategy ≠ .grouped → t.dropped = []

/-! ## The open batch -/

/-- What the books say about the open batch is what the journal says. -/
structure Books.Opens (strategy : Strategy) (b : Books Json) (t : Batch) : Prop where
  earlier : ∀ f ∈ b.shown ++ b.kept ++ b.removed, f.sequence < t.first.count f.spec.bucket
  closed : b.closed = t.books.closed
  opened : b.opened = t.books.opened
  batch : ∀ f ∈ t.files, t.first.count f.spec.bucket ≤ f.sequence
  mem_dropped : ∀ f, f ∈ t.dropped ↔
    f ∈ b.dropped ∧ t.first.count f.spec.bucket ≤ f.sequence
  records : (recordsIn t.files ++ recordsIn t.dropped).Perm t.records
  none_dropped : strategy ≠ .grouped → t.dropped = []

namespace Books

variable {strategy : Strategy} {layout : Layout Json} {mishaps : Mishap → Prop}
variable {init : MemoryStore}

theorem mem_keys_iff {k : PartitionSpec × Nat} : k ∈ b.keys ↔ k ∈ b.batch.map Filed.key ∨
    k ∈ (b.shown ++ b.kept ++ b.removed).map Filed.key ∨ k ∈ b.dropped.map Filed.key := by
  simp only [keys_eq, batch, List.map_append, List.mem_append]
  tauto

theorem Opens.files_eq (h : b.Opens strategy t) : t.files = b.batch := by
  rw [Batch.files, Books.batch, Books.batch, h.closed, h.opened]

/-- A batch begins with nothing in hand. -/
theorem opens_start {a : Allocator} (hholds : b.Holds layout mishaps a init store)
    (hbatch : b.closed = [] ∧ b.opened = []) : b.Opens strategy (.start a) where
  earlier f hf := (hholds.issued _ _).mp
    (mem_keys_iff.mpr (.inr (.inl (List.mem_map_of_mem hf))))
  closed := hbatch.1
  opened := hbatch.2
  batch f hf := nomatch hf
  mem_dropped f := by
    refine iff_of_false (nomatch ·) fun ⟨hf, hle⟩ ↦ ?_
    have hissued := (hholds.issued _ _).mp (mem_keys_iff.mpr (.inr (.inr (List.mem_map_of_mem hf))))
    exact absurd hissued (Nat.not_lt.mpr hle)
  records := .nil
  none_dropped _ := rfl

/-- The files of the open batch are those of its places. -/
theorem Opens.filled (h : b.Opens strategy t) (hholds : b.Holds layout mishaps t.last init store) :
    t.Filled strategy where
  has_iff spec i := by
    rw [List.map_append, List.mem_append, h.files_eq]
    constructor
    · rintro ⟨hfirst, hlast⟩
      rcases mem_keys_iff.mp ((hholds.issued spec i).mpr hlast) with hmem | hmem | hmem
      · exact .inl hmem
      · obtain ⟨f, hf, hkey⟩ := List.mem_map.mp hmem
        obtain ⟨rfl, rfl⟩ := Prod.mk.inj hkey
        exact absurd (h.earlier f hf) (Nat.not_lt.mpr hfirst)
      · obtain ⟨f, hf, hkey⟩ := List.mem_map.mp hmem
        obtain ⟨rfl, rfl⟩ := Prod.mk.inj hkey
        exact .inr (List.mem_map_of_mem ((h.mem_dropped f).mpr ⟨hf, hfirst⟩))
    · rintro (hmem | hmem)
      · have hissued := (hholds.issued spec i).mp (mem_keys_iff.mpr (.inl hmem))
        obtain ⟨f, hf, hkey⟩ := List.mem_map.mp hmem
        obtain ⟨rfl, rfl⟩ := Prod.mk.inj hkey
        exact ⟨h.batch f (h.files_eq ▸ hf), hissued⟩
      · obtain ⟨f, hf, hkey⟩ := List.mem_map.mp hmem
        obtain ⟨rfl, rfl⟩ := Prod.mk.inj hkey
        obtain ⟨hdropped, hfirst⟩ := (h.mem_dropped f).mp hf
        exact ⟨hfirst, (hholds.issued _ _).mp
          (mem_keys_iff.mpr (.inr (.inr (List.mem_map_of_mem hdropped))))⟩
  records := h.records
  none_dropped := h.none_dropped

/-- A record goes to a file of the batch, or to a new one. -/
theorem mem_batch_add {spec : PartitionSpec} {sequence : Nat} {record : Json} {f : Filed Json}
    (hf : f ∈ (b.add spec sequence record).batch) :
    (∃ g ∈ b.batch, g.key = f.key) ∨ f = ⟨spec, sequence, [record]⟩ := by
  rw [batch, closed_add] at hf
  rcases List.mem_append.mp hf with hf | hf
  · exact .inl ⟨f, List.mem_append_left _ hf, rfl⟩
  · unfold add at hf
    split at hf
    · obtain ⟨g, hg, rfl⟩ := List.mem_map.mp hf
      refine .inl ⟨g, List.mem_append_right _ hg, ?_⟩
      split <;> rfl
    · rcases List.mem_append.mp hf with hf | hf
      · exact .inl ⟨f, List.mem_append_right _ hf, rfl⟩
      · exact .inr (List.mem_singleton.mp hf)

/-- Where a record goes depends on what is in hand, and on nothing else. -/
theorem add_turn_congr (hclosed : b.closed = b'.closed) (hopened : b.opened = b'.opened)
    (strategy : Strategy) (spec : PartitionSpec) (sequence : Nat) (record : Json) :
    ((b.turn strategy spec).add spec sequence record).closed =
        ((b'.turn strategy spec).add spec sequence record).closed ∧
      ((b.turn strategy spec).add spec sequence record).opened =
        ((b'.turn strategy spec).add spec sequence record).opened := by
  have hturn : (b.turn strategy spec).closed = (b'.turn strategy spec).closed ∧
      (b.turn strategy spec).opened = (b'.turn strategy spec).opened := by
    simp only [turn, hopened]
    split
    · exact ⟨by rw [close, close, hclosed], rfl⟩
    · exact ⟨hclosed, hopened⟩
  refine ⟨by rw [closed_add, closed_add, hturn.1], ?_⟩
  simp only [add, hturn.2]
  split
  · rfl
  · rfl

/-- A record that was taken. -/
theorem Opens.take {config : Config} {a : Allocator} {spec : PartitionSpec} {record : Json}
    (h : b.Opens config.strategy t) (hdistinct : (b.opened.map Filed.spec).Nodup)
    (hpartition : config.partition? record = some spec)
    (hfirst : t.first.count spec.bucket ≤ t.last.count spec.bucket) :
    ((b.turn config.strategy spec).add spec (t.last.count spec.bucket) record).Opens
      config.strategy { t.take config record with last := a } := by
  obtain ⟨hshown, hkept, hremoved⟩ :=
    (b.turn config.strategy spec).unmoved_add spec (t.last.count spec.bucket) record
  obtain ⟨hshown', hkept', hremoved'⟩ := b.unmoved_turn config.strategy spec
  have hbooks : (t.take config record).books =
      (t.books.turn config.strategy spec).add spec (t.last.count spec.bucket) record := by
    simp only [Batch.take, hpartition]
  have hdropped : (t.take config record).dropped = t.dropped := by
    rw [Batch.dropped, hbooks, dropped_add, dropped_turn]
    rfl
  obtain ⟨hclosed, hopened⟩ := add_turn_congr h.closed h.opened config.strategy spec
    (t.last.count spec.bucket) record
  rw [← hbooks] at hclosed hopened
  have hfiles : (t.take config record).files =
      ((b.turn config.strategy spec).add spec (t.last.count spec.bucket) record).batch := by
    rw [Batch.files, Books.batch, Books.batch, hclosed, hopened]
  refine ⟨?_, hclosed, hopened, fun f hf ↦ ?_, fun f ↦ ?_, ?_, fun hne ↦ ?_⟩
  · rw [hshown, hkept, hremoved, hshown', hkept', hremoved']
    exact h.earlier
  · have hf : f ∈ (t.take config record).files := hf
    rw [hfiles] at hf
    rcases mem_batch_add hf with ⟨g, hg, hkey⟩ | rfl
    · rw [batch_turn, ← h.files_eq] at hg
      obtain ⟨hspec, hnumber⟩ := Prod.mk.inj hkey
      rw [← hspec, ← hnumber]
      exact h.batch g hg
    · exact hfirst
  · rw [dropped_add, dropped_turn]
    exact (Iff.of_eq (congrArg (f ∈ ·) hdropped)).trans (h.mem_dropped f)
  · have hadd := perm_batch_add (distinct_turn hdistinct config.strategy spec) spec
      (t.last.count spec.bucket) record
    rw [batch_turn, ← hfiles, ← h.files_eq] at hadd
    have hperm : (recordsIn (t.take config record).files ++
        recordsIn (t.take config record).dropped).Perm (t.records ++ [record]) := by
      rw [hdropped]
      refine (hadd.append_right _).trans (List.Perm.trans ?_ (h.records.append_right [record]))
      rw [List.append_assoc, List.append_assoc]
      exact List.perm_append_comm.append_left _
    exact hperm
  · exact hdropped.trans (h.none_dropped hne)

/-- The open file could not be closed for a record of another partition. -/
theorem Opens.drop {a : Allocator} (h : b.Opens strategy t) (hgrouped : strategy = .grouped) :
    (b.close [] b.opened).Opens strategy { t.drop with last := a } where
  earlier := h.earlier
  closed := by
    change b.closed ++ [] = t.books.closed ++ []
    rw [h.closed]
  opened := rfl
  batch f hf := by
    refine h.batch f (List.mem_append_left _ ?_)
    simpa [Batch.files, Batch.drop, close, Books.batch] using hf
  mem_dropped f := by
    change f ∈ t.dropped ++ t.books.opened ↔ f ∈ b.dropped ++ b.opened ∧ _
    rw [List.mem_append, List.mem_append, h.mem_dropped, h.opened]
    constructor
    · rintro (⟨hf, hle⟩ | hf)
      · exact ⟨.inl hf, hle⟩
      · exact ⟨.inr hf, h.batch f (List.mem_append_right _ hf)⟩
    · rintro ⟨hf | hf, hle⟩
      · exact .inl ⟨hf, hle⟩
      · exact .inr hf
  records := by
    have hperm : (recordsIn (t.books.closed ++ [] ++ []) ++
        recordsIn (t.dropped ++ t.books.opened)).Perm t.records := by
      refine List.Perm.trans ?_ h.records
      simp only [Batch.files, Books.batch, List.append_nil, recordsIn_append, List.append_assoc]
      exact List.perm_append_comm.append_left _
    exact hperm
  none_dropped hne := absurd hgrouped hne

/-- Places were handed out, and nothing else was done. -/
theorem Opens.upTo (h : b.Opens strategy t) (a : Allocator) :
    b.Opens strategy { t with last := a } :=
  ⟨h.earlier, h.closed, h.opened, h.batch, h.mem_dropped, h.records, h.none_dropped⟩

end Books

/-! ## All batches -/

/-- The figures of a sink, and what it keeps for later, agree with its journal. -/
structure Sink.Accounts (d : Desk Json) (store : MemoryStore) (b : Books Json) (j : Journal)
    (s : Sink) : Prop where
  keeps : s.Keeps d store b
  opens : b.Opens d.strategy j.current
  filled : ∀ t ∈ j.closed, t.Filled d.strategy
  closed : (b.shown ++ b.kept).Perm (j.closed.flatMap Batch.files)
  removed : ∀ f ∈ b.removed, ∃ t ∈ j.abandoned, t.Has f.spec f.sequence
  committed : s.stats.committed = b.shown.length
  batches : s.stats.batches = j.committed
  attempts : s.Attempts j.boundaries

namespace Sink

theorem Keeps.retries_eq_nil_iff (h : s.Keeps d store b) : s.retries = [] ↔ b.kept = [] := by
  rw [← List.map_eq_nil_iff (f := Committable.fresh), h.retries, List.map_eq_nil_iff]

/-- What is kept, with the places of the desk. -/
theorem Keeps.retries_base (h : s.Keeps d store b) : s.retries.map Committable.fresh =
    b.kept.map fun f ↦ f.committable d.layout d.base .commit := by
  rw [h.retries]
  exact List.map_congr_left fun f _ ↦ f.committable_congr h.tracks.base .commit

/-- Each committable that is kept leads to the staging place of a kept file. -/
theorem Keeps.staging_retries (h : s.Keeps d store b) :
    (s.retries.map fun c ↦ c.token.staging) = b.kept.map fun f ↦ (f.slot d.base).staging.text := by
  have htokens := congrArg (List.map fun c ↦ c.token.staging) h.retries_base
  simp only [List.map_map, Function.comp_def, Filed.staging_committable] at htokens
  exact htokens

/-- Committables that are kept lead to different places. -/
theorem Keeps.nodup_retries (h : s.Keeps d store b) (ha : d.base.InPlace) :
    (s.retries.map fun c ↦ c.token.staging).Nodup := by
  have hstaging := ha.nodup_staging h.tracks.holds.nodup_kept
  rw [List.map_map] at hstaging
  rw [h.staging_retries]
  exact hstaging

theorem Accounts.filled_current (h : s.Accounts d store b j)
    (hlast : j.current.last = s.writer.allocator) : j.current.Filled d.strategy := by
  have hholds := h.keeps.tracks.holds
  rw [← hlast] at hholds
  exact h.opens.filled hholds

/-! ## What a call does -/

/-- Batches that were given up keep their removed files. -/
theorem Accounts.removed_abandon (h : s.Accounts d store b j)
    (hlast : j.current.last = s.writer.allocator) {done : List (Filed Json)}
    (hdone : done ⊆ b.opened) :
    ∀ f ∈ b.removed ++ (b.closed ++ done), ∃ t ∈ j.abandon.abandoned, t.Has f.spec f.sequence := by
  intro f hf
  rcases List.mem_append.mp hf with hf | hf
  · obtain ⟨t, ht, hhas⟩ := h.removed f hf
    exact ⟨t, List.mem_append_left _ ht, hhas⟩
  · have hbatch : f ∈ b.batch := (List.append_subset.mpr ⟨List.subset_append_left _ _,
      List.Subset.trans hdone (List.subset_append_right _ _)⟩) hf
    rw [← h.opens.files_eq] at hbatch
    exact ⟨j.current, List.mem_append_right _ (List.mem_singleton_self _),
      ((h.filled_current hlast).has_iff _ _).mpr
        (List.mem_map_of_mem (List.mem_append_left _ hbatch))⟩

/-- After a boundary the books are about no open batch. -/
theorem Bounded.opens_start (h : s.Bounded s') (hlast : j.current.last = s.writer.allocator)
    (hkeeps : s'.Keeps d store' b') (hbatch : b'.closed = [] ∧ b'.opened = []) :
    b'.Opens d.strategy (.start j.current.last) := by
  rw [hlast, ← h.allocator]
  exact Books.opens_start hkeeps.tracks.holds hbatch

/-- A batch that is given up in the books is given up in the journal. -/
theorem Accounts.abandon {done lost : List (Filed Json)} (h : s.Accounts d store b j)
    (hlast : j.current.last = s.writer.allocator) (hbounded : s.Bounded s')
    (habandoned : Abandoned d b s done lost s') (hkeeps : s'.Keeps d store' (b.abandon done lost))
    (hattempts : s'.Attempts (j.boundaries + 1)) :
    s'.Accounts d store' (b.abandon done lost) j.abandon := by
  obtain ⟨discarded, hstats⟩ := habandoned.stats
  have hdone : done ⊆ b.opened :=
    List.Subset.trans (List.subset_append_left _ _) habandoned.perm.subset
  refine ⟨hkeeps, hbounded.opens_start hlast hkeeps ⟨rfl, rfl⟩, h.filled, h.closed,
    h.removed_abandon hlast hdone, ?_, ?_, hattempts⟩
  · rw [hstats]
    exact h.committed
  · rw [hstats]
    exact h.batches

/-- A checkpoint closes the open batch of the journal, or gives it up. If it ends well, nothing is
kept. -/
theorem Accounts.checkpoint (h : s.Accounts d store b j)
    (hlast : j.current.last = s.writer.allocator)
    (hc : s.checkpoint.Ends (Replies d.mishaps) store (.ok (s', result)) store') :
    ∃ b', s'.Accounts d store' b' (j.boundary s.retries result) ∧
      (result = .ok () → b'.kept = []) := by
  have hbounded := bounded_checkpoint hc
  have hattempts : s'.Attempts (j.boundaries + 1) := h.attempts.checkpoint hc
  obtain ⟨-, -, ⟨done, failed, hsettled, hkeeps⟩ | ⟨done, lost, habandoned, ⟨f, -, e, rfl⟩, -,
    hkeeps⟩⟩ := ends_checkpoint h.keeps hc
  · have hopens := hbounded.opens_start hlast hkeeps ⟨rfl, rfl⟩
    have hfilled : ∀ t ∈ j.closed ++ [j.current], t.Filled d.strategy :=
      List.forall_mem_append.mpr
        ⟨h.filled, List.forall_mem_singleton.mpr (h.filled_current hlast)⟩
    have hclosed : ((b.settle done failed).shown ++ (b.settle done failed).kept).Perm
        ((j.closed ++ [j.current]).flatMap Batch.files) := by
      rw [List.flatMap_append, List.flatMap_singleton, h.opens.files_eq]
      simp only [Books.settle, List.append_assoc]
      refine (hsettled.perm.append_left _).trans ?_
      rw [← List.append_assoc]
      exact h.closed.append_right _
    have hcommitted : s'.stats.committed = (b.settle done failed).shown.length := by
      rw [hsettled.stats, Books.settle, List.length_append, h.committed]
    have hbatches : s'.stats.batches = j.committed + if failed = [] ∧ done ≠ [] then 1 else 0 := by
      rw [hsettled.stats, h.batches]
    refine ⟨b.settle done failed, ?_⟩
    rcases hsettled.result with ⟨hfailed, rfl⟩ | ⟨hfailed, ⟨n, k, rfl⟩, -⟩
    · refine ⟨⟨hkeeps, hopens, hfilled, hclosed, h.removed, hcommitted, ?_, hattempts⟩,
        fun _ ↦ hfailed⟩
      have hidle : s.retries = [] ∧ j.current.files.isEmpty = true ↔ done = [] := by
        rw [h.keeps.retries_eq_nil_iff, List.isEmpty_iff, h.opens.files_eq,
          hsettled.done_eq hfailed, List.append_eq_nil_iff]
      rw [hbatches]
      change _ = j.committed + _
      rw [if_congr hidle rfl rfl]
      by_cases hdone : done = []
      · simp [hdone]
      · simp [hdone, hfailed]
    · refine ⟨⟨hkeeps, hopens, hfilled, hclosed, h.removed, hcommitted, ?_, hattempts⟩,
        fun hok ↦ by cases hok⟩
      rw [hbatches, if_neg fun hok ↦ hfailed hok.1]
      rfl
  · exact ⟨_, h.abandon hlast hbounded habandoned hkeeps hattempts, fun hok ↦ by cases hok⟩

/-- An abort gives up the open batch of the journal. -/
theorem Accounts.abort (h : s.Accounts d store b j) (hlast : j.current.last = s.writer.allocator)
    (hc : s.abort.Ends (Replies d.mishaps) store (.ok (s', result)) store') :
    ∃ b', s'.Accounts d store' b' j.abandon := by
  have hbounded := bounded_abort hc
  have hattempts : s'.Attempts (j.boundaries + 1) := h.attempts.abort hc
  obtain ⟨-, -, ⟨shown, kept, hretried, -, hkeeps⟩ | ⟨done, lost, habandoned, -, -, hkeeps⟩⟩ :=
    ends_abort h.keeps hc
  · obtain ⟨discarded, hstats⟩ := hretried.stats
    refine ⟨_, hkeeps, hbounded.opens_start hlast hkeeps ⟨rfl, rfl⟩, h.filled, ?_,
      h.removed_abandon hlast (List.Subset.refl _), ?_, ?_, hattempts⟩
    · rw [List.append_assoc]
      exact (hretried.perm.append_left _).trans h.closed
    · rw [hstats, List.length_append, h.committed]
    · rw [hstats]
      exact h.batches
  · exact ⟨_, h.abandon hlast hbounded habandoned hkeeps hattempts⟩

/-- The figures do not change while records are taken. -/
theorem Accounts.put {b₁ : Books Json} {t : Batch} (h : s.Accounts d store b j)
    (hunmoved : b₁.shown = b.shown ∧ b₁.kept = b.kept ∧ b₁.removed = b.removed)
    (hkeeps : s'.Keeps d store' b₁) (hopens : b₁.Opens d.strategy t)
    (hattempts : s'.Attempts j.boundaries) (hcommitted : s'.stats.committed = s.stats.committed)
    (hbatches : s'.stats.batches = s.stats.batches) :
    s'.Accounts d store' b₁ { j with current := t } where
  keeps := hkeeps
  opens := hopens
  filled := h.filled
  closed := by
    rw [hunmoved.1, hunmoved.2.1]
    exact h.closed
  removed := by
    rw [hunmoved.2.2]
    exact h.removed
  committed := by
    rw [hcommitted, hunmoved.1]
    exact h.committed
  batches := hbatches.trans h.batches
  attempts := hattempts

variable {config : Config} {run : String} {mishaps : Mishap → Prop} {init : MemoryStore}

/-- A record that was taken, before it is looked whether the batch is full. -/
theorem Accounts.take {record : Json} {w : Writer}
    (h : s.Accounts (config.desk run mishaps init) store b j)
    (hlast : j.current.last = s.writer.allocator)
    (hfirst : ∀ bucket, j.current.first.count bucket ≤ s.writer.allocator.count bucket)
    (hw : (s.writer.write s.layout record).Ends (Replies mishaps) store (w, .ok ()) store') :
    ∃ b₁, Accounts (config.desk run mishaps init) store' b₁
        ((j.take config record).upTo w.allocator) { s with
          writer := w
          inBatch := s.inBatch + 1
          stats := { s.stats with records := s.stats.records + 1 } } := by
  obtain ⟨b₁, hwrote, hnext⟩ := h.keeps.wrote hw
  have hunmoved := hwrote.unmoved
  cases hwrote with
  | @put spec projected _ _ hplace hput =>
  cases hput with
  | added _ =>
    have hfirst := hfirst spec.bucket
    rw [← hlast] at hnext hunmoved hfirst
    have hopens := h.opens.take (a := w.allocator) h.keeps.tracks.distinct
      (Config.partition?_of_place hplace) hfirst
    exact ⟨_, h.put hunmoved (hnext _ rfl rfl rfl) hopens (h.attempts.put hw _ _) rfl rfl⟩

/-- Whether a record is taken or not, and whether it fills the batch or not. -/
theorem Accounts.write {record : Json} (h : s.Accounts (config.desk run mishaps init) store b j)
    (htold : s.Told config run j)
    (hfirst : ∀ bucket, j.current.first.count bucket ≤ s.writer.allocator.count bucket)
    (hc : (s.write record).Ends (Replies mishaps) store (.ok (s', result)) store') :
    ∃ b', s'.Accounts (config.desk run mishaps init) store' b'
        (j.after config s s' result (.write record)) ∧
      (result = .ok () → config.batchSize ≤ j.current.records.length + 1 → b'.kept = []) := by
  obtain ⟨w, written, store₁, hw, ⟨e, rfl, rfl, rfl, rfl, hafter⟩ |
    ⟨rfl, s₁, j₁, rfl, rfl, hend⟩⟩ := htold.journal_write hc
  · obtain ⟨b₁, hwrote, hnext⟩ := h.keeps.wrote hw
    have hunmoved := hwrote.unmoved
    have hattempts := h.attempts.put hw s.inBatch s.stats
    rw [hafter]
    refine ⟨b₁, ?_, nofun⟩
    cases hwrote with
    | rejected _ =>
      exact h.put hunmoved (hnext _ rfl rfl rfl) (h.opens.upTo w.allocator) hattempts rfl rfl
    | blocked _ hgrouped _ _ _ =>
      exact h.put hunmoved (hnext _ rfl rfl rfl) (h.opens.drop hgrouped) hattempts rfl rfl
    | put _ hput =>
      cases hput with
      | spoiled hfault =>
        have htotal : (config.desk run mishaps init).layout.encoder.Total := jsonLines_total
        rw [htotal] at hfault
        cases hfault
  · obtain ⟨b₁, htaken⟩ := h.take htold.last hfirst hw
    rcases hend with ⟨-, hcheckpoint, hafter⟩ | ⟨hroom, rfl, rfl, rfl, hafter⟩
    · rw [hafter]
      obtain ⟨b', haccounts, hkept⟩ := htaken.checkpoint rfl hcheckpoint
      exact ⟨b', haccounts, fun hok _ ↦ hkept hok⟩
    · rw [hafter]
      exact ⟨b₁, htaken, fun _ hfull ↦ absurd hroom (Nat.not_lt.mpr hfull)⟩

/-- A call does to the figures what it does to the journal. If it ends well and is a checkpoint,
nothing is kept. -/
theorem Accounts.call (h : s.Accounts (config.desk run mishaps init) store b j)
    (htold : s.Told config run j)
    (hfirst : ∀ bucket, j.current.first.count bucket ≤ s.writer.allocator.count bucket) (c : Call)
    (hc : (s.call c).Ends (Replies mishaps) store (.ok (s', result)) store') :
    ∃ b', s'.Accounts (config.desk run mishaps init) store' b' (j.after config s s' result c) ∧
      (result = .ok () → j.Closes config c → b'.kept = []) := by
  cases c with
  | write record => exact h.write htold hfirst hc
  | checkpoint =>
    rw [htold.journal_checkpoint hc]
    obtain ⟨b', haccounts, hkept⟩ := h.checkpoint htold.last hc
    exact ⟨b', haccounts, fun hok _ ↦ hkept hok⟩
  | abort =>
    rw [htold.journal_abort hc]
    obtain ⟨b', haccounts⟩ := h.abort htold.last hc
    exact ⟨b', haccounts, fun _ hcloses ↦ hcloses.elim⟩

/-- In every course, the figures agree with the journal. -/
theorem Course.accounts (h : Course config run (Replies mishaps) init s store j) :
    ∃ b, s.Accounts (config.desk run mishaps init) store b j := by
  induction h with
  | @start s₀ store₀ hstart =>
    obtain ⟨rfl, hresult | ⟨⟨e, he⟩, -⟩⟩ := ends_start hstart
    · obtain rfl := Except.ok.inj hresult
      have hkeeps := keeps_new config run mishaps store₀
      have hopens : ({} : Books Json).Opens config.strategy (.start (config.allocator run)) := by
        rw [← allocator_new]
        exact Books.opens_start hkeeps.tracks.holds ⟨rfl, rfl⟩
      exact ⟨{}, hkeeps, hopens, nofun, .nil, by simp, rfl, rfl, attempts_new config run⟩
    · cases he
  | call hcourse c hc ih =>
    obtain ⟨b, haccounts⟩ := ih
    have hfirst := (hcourse.mono fun _ _ _ _ ↦ Replies.fickle).apart.inHand.first_le
    obtain ⟨b', haccounts', -⟩ := haccounts.call hcourse.told hfirst c hc
    exact ⟨b', haccounts'⟩

/-- Whatever a sink was asked to do before and whatever went wrong, after every call each file of
the batches that were closed in good order is counted as published or kept for later, and none is
both: one that is counted stands at its target with the lines of its records, and nothing waits for
it; one that is kept has its bytes at exactly one of its two places, unless a rename got no further
than the copy, and a committable that was handed back. Nothing else is kept, and as many batches are
counted as there were checkpoints that ended well with something to commit. The files of a batch
have all its records, each of them once, but for those in files that the grouped strategy has
dropped while the batch was open. Until a committable was handed back as often as can be counted,
the program does not stop. -/
theorem Course.counted_or_kept (h : Course config run (Replies mishaps) init s store j) :
    let a := config.allocator run
    ∃ shown kept : List (Filed Json),
      (∀ t ∈ j.closed, t.Filled config.strategy) ∧
      (shown ++ kept).Perm (j.closed.flatMap Batch.files) ∧
      ((shown ++ kept).map Filed.key).Nodup ∧
      s.stats.committed = shown.length ∧
      (∀ f ∈ shown, store.get? (f.slot a).target = some (config.content f) ∧
        store.get? (f.slot a).staging = none) ∧
      s.retries.map Committable.fresh =
        kept.map (fun f ↦ f.committable (new config run).layout a .commit) ∧
      (s.retries.map fun c ↦ c.token.staging).Nodup ∧
      (∀ f ∈ kept,
        store.get? (f.slot a).staging = some (config.content f) ∧
            (store.get? (f.slot a).target = init.get? (f.slot a).target ∨
              mishaps .halfway ∧ store.get? (f.slot a).target = some (config.content f)) ∨
          mishaps .unheard ∧ store.get? (f.slot a).staging = none ∧
            store.get? (f.slot a).target = some (config.content f)) ∧
      (∀ c ∈ s.retries, c.Attempted j.boundaries) ∧
      s.stats.batches = j.committed ∧
      ∀ (c : Call) panic store', (s.call c).Ends (Replies mishaps) store (.error panic) store' →
        UInt32.size ≤ j.boundaries + 1 := by
  intro a
  obtain ⟨b, haccounts⟩ := h.accounts
  have hkeeps := haccounts.keeps
  have hstands : ∀ f status, f ∈ b.files status →
      f.Stands (config.desk run mishaps init).layout a mishaps init store status :=
    fun f status hf ↦ hkeeps.tracks.stands hf
  refine ⟨b.shown, b.kept, haccounts.filled, haccounts.closed, hkeeps.tracks.holds.nodup_shown_kept,
    haccounts.committed, fun f hf ↦ ?_, hkeeps.retries_base,
    hkeeps.nodup_retries (Allocator.inPlace_new _ _ _ _), fun f hf ↦ ?_, haccounts.attempts.retries,
    haccounts.batches, fun c panic store' hc ↦ haccounts.attempts.call hc⟩
  · simpa only [Filed.Stands, Config.bytes_desk] using hstands f .shown hf
  · simpa only [Filed.Stands, Config.bytes_desk] using hstands f .kept hf

/-- The file of the first record is dropped when a record of another partition comes. The files of
the other two are moved at the checkpoint, but the first of these moves is reported to have failed,
and the second to have found nothing. So it is looked for that one at its target, and it is counted;
the other one is kept, and stands at its target. -/
theorem Course.counted_or_kept_after_unheard_renames :
    let config : Config := { table := "memory://table", strategy := .grouped, columns := ["p"] }
    let a := config.allocator "r"
    ∃ s store j, Course config "r" (Replies fun _ ↦ True) .empty s store j ∧
      (∃ t ∈ j.closed, t.dropped.map Filed.spec = [[("p", "a")]] ∧
        t.files.map Filed.spec = [[("p", "b")], [("p", "c")]]) ∧
      store.get? (a.slot [("p", "a")] 0).target = none ∧
      s.stats.committed = 1 ∧
      (s.retries.map fun c ↦ c.token.staging) = [(a.slot [("p", "b")] 0).staging.text] ∧
      ∀ p ∈ ["b", "c"], ∃ f : Filed Json, f.spec = [("p", p)] ∧
        store.get? (f.slot a).target = some (config.content f) := by
  intro config a
  let record (p : String) : Json := .object [("p", .string p)]
  let answer : (r : Request) → MemoryStore → r.Reply × MemoryStore
    | .rename source target, store =>
      if store.get? source = none then MemoryStore.answer (.rename source target) store
      else if source = (a.slot [("p", "b")] 0).staging then
        (.error .failed, (MemoryStore.answer (.rename source target) store).2)
      else (.error .notFound, (MemoryStore.answer (.rename source target) store).2)
    | .put path data, store =>
      if path = (a.slot [("p", "a")] 0).staging then (.error .failed, store)
      else MemoryStore.answer (.put path data) store
    | r, store => MemoryStore.answer r store
  have hanswer : ∀ r s, Replies (fun _ ↦ True) r s (answer r s).1 (answer r s).2 := by
    intro r s
    cases r with
    | rename source target =>
      simp only [answer]
      split_ifs with hsource hfirst
      · exact .regular _ s
      · exact .unheard trivial nofun
      · exact .unheard trivial fun _ ↦ MemoryStore.lacks_rename source target s
    | put path data =>
      simp only [answer]
      split_ifs with hpath
      · exact .refused trivial nofun
      · exact .regular _ s
    | _ => exact .regular _ s
  have hstart : Course config "r" (Replies fun _ ↦ True) .empty (new config "r") .empty (.start a) :=
    .start (Task.ends_run answer hanswer (Sink.start config "r") .empty)
  obtain ⟨s, store, j, hcourse, ⟨t, ht, hdropped, hfiles⟩, hempty, hcommitted, hstaging⟩ :=
    hstart.exists_of_proceed answer hanswer
      [.write (record "a"), .write (record "b"), .write (record "b"), .write (record "c"),
        .checkpoint]
      (P := fun x ↦ (∃ t ∈ x.2.2.closed, t.dropped.map Filed.spec = [[("p", "a")]] ∧
          t.files.map Filed.spec = [[("p", "b")], [("p", "c")]]) ∧
        (x.2.1.get? (a.slot [("p", "a")] 0).target = none ∧
          x.2.1.get? (a.slot [("p", "b")] 0).staging = none) ∧
        x.1.stats.committed = 1 ∧
        (x.1.retries.map fun c ↦ c.token.staging) = [(a.slot [("p", "b")] 0).staging.text])
      (by decide +kernel)
  obtain ⟨shown, kept, -, hperm, -, -, hshown, hretries, -, hkept, -⟩ :=
    Course.counted_or_kept hcourse
  have hplace : ∀ f ∈ kept, (f.slot a).staging = (a.slot [("p", "b")] 0).staging := by
    intro f hf
    have htexts := congrArg (List.map fun c ↦ c.token.staging) hretries
    rw [List.map_map, List.map_map] at htexts
    have hmem := List.mem_map_of_mem (f := fun f : Filed Json ↦ (f.slot a).staging.text) hf
    have ha : a.InPlace := Allocator.inPlace_new _ _ _ _
    exact (ha.written_staging _ _).text_inj (ha.written_staging _ _)
      (List.mem_singleton.mp ((htexts.symm.trans hstaging) ▸ hmem))
  refine ⟨s, store, j, hcourse, ⟨t, ht, hdropped, hfiles⟩, hempty.1, hcommitted, hstaging,
    fun p hp ↦ ?_⟩
  have hspec : [("p", p)] ∈ t.files.map Filed.spec := by
    rw [hfiles]
    simpa using hp
  obtain ⟨f, hf, hfp⟩ := List.mem_map.mp hspec
  refine ⟨f, hfp, ?_⟩
  rcases List.mem_append.mp (hperm.mem_iff.mpr (List.mem_flatMap.mpr ⟨t, ht, hf⟩)) with hf | hf
  · exact (hshown f hf).1
  · rcases hkept f hf with ⟨hwaits, -⟩ | ⟨-, -, htarget⟩
    · rw [hplace f hf, hempty.2] at hwaits
      cases hwaits
    · exact htarget

end Sink

end TableSink
