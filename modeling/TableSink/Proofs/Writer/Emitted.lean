import TableSink.Proofs.Writer.Ends
import TableSink.Proofs.Writer.Order

/-!
# What a writer has emitted

A writer on its own, under any writes, closings and fetchings of its committables, on a store that
may refuse to put. What it has emitted are the committables that were fetched and those that wait to
be. Each of them is of a file of its own whose bytes are staged, and nothing else in the store has
changed (`Writer.Course.emitted_staged`).

A writer never looks at the committables that wait. So a write is looked at as if all of them had
been fetched before (`Writer.write_behind`), and what it closes comes behind those that waited
already.
-/

namespace TableSink

open MemoryStore (Replies)
open Filed (InOrder within recordsIn)

variable {ρ : Type} {layout : Layout ρ} {spec : PartitionSpec} {record : ρ}

/-! ## Committables that wait -/

/-- The writer with more committables that were not fetched, in front of its own. -/
def OneFile.behind (cs : List Committable) (w : OneFile) : OneFile :=
  { w with closed := cs ++ w.closed }

/-- The writer with more committables that were not fetched, in front of its own. -/
def ManyFiles.behind (cs : List Committable) (w : ManyFiles) : ManyFiles :=
  { w with closed := cs ++ w.closed }

/-- The writer with more committables that were not fetched, in front of its own. -/
def Writer.behind (cs : List Committable) : Writer → Writer
  | .single spec files => .single spec (files.behind cs)
  | .grouped files => .grouped (files.behind cs)
  | .dynamic files => .dynamic (files.behind cs)

namespace OneFile

variable (cs : List Committable) (w : OneFile)

theorem close_behind (kind : CloseKind) : (w.behind cs).close kind =
    w.close kind >>= fun outcome ↦ Task.done (outcome.1.behind cs, outcome.2) := by
  obtain ⟨allocator, current, closed⟩ := w
  cases current with
  | none => rfl
  | some f =>
    simp only [close, behind, Task.bind_assoc]
    apply bind_congr
    intro result
    cases result with
    | ok c => simp only [Task.pure_eq, Task.done_bind, List.append_assoc]
    | error e => rfl

theorem take_behind (spec : PartitionSpec) : (w.behind cs).take spec =
    w.take spec >>= fun outcome ↦ Task.done (outcome.1.behind cs, outcome.2) := by
  obtain ⟨allocator, current, closed⟩ := w
  cases current <;> rfl

theorem put_behind (encoder : Encoder ρ Json.Fault) (spec : PartitionSpec) (record : ρ) :
    (w.behind cs).put encoder spec record =
      w.put encoder spec record >>= fun outcome ↦ Task.done (outcome.1.behind cs, outcome.2) := by
  simp only [put, take_behind, Task.bind_assoc, Task.done_bind]
  apply bind_congr
  rintro ⟨w, f⟩
  apply bind_congr
  rintro ⟨f, _ | _⟩ <;> rfl

theorem writeFixed_behind (layout : Layout ρ) (spec : PartitionSpec) (record : ρ) :
    (w.behind cs).writeFixed layout spec record =
      w.writeFixed layout spec record >>= fun outcome ↦
        Task.done (outcome.1.behind cs, outcome.2) := by
  simp only [writeFixed]
  cases layout.computer.project record with
  | error e => rfl
  | ok projected => exact put_behind cs w layout.encoder spec projected

theorem writeClustered_behind (layout : Layout ρ) (record : ρ) :
    (w.behind cs).writeClustered layout record =
      w.writeClustered layout record >>= fun outcome ↦
        Task.done (outcome.1.behind cs, outcome.2) := by
  simp only [writeClustered]
  cases layout.computer.partition record with
  | error e => rfl
  | ok spec =>
  cases layout.computer.project record with
  | error e => rfl
  | ok projected =>
    have hcurrent : (w.behind cs).current = w.current := rfl
    simp only [hcurrent]
    split
    · simp only [close_behind, Task.bind_assoc, Task.done_bind]
      apply bind_congr
      rintro ⟨w, _ | _⟩
      · rfl
      · exact put_behind cs w layout.encoder spec projected
    · exact put_behind cs w layout.encoder spec projected

end OneFile

theorem ManyFiles.write_behind (cs : List Committable) (w : ManyFiles) (layout : Layout ρ)
    (record : ρ) : (w.behind cs).write layout record =
      w.write layout record >>= fun outcome ↦ Task.done (outcome.1.behind cs, outcome.2) := by
  simp only [write]
  cases layout.computer.partition record with
  | error e => rfl
  | ok spec =>
  cases layout.computer.project record with
  | error e => rfl
  | ok projected =>
    have hfile : (w.behind cs).file? spec.bucket = w.file? spec.bucket := rfl
    simp only [hfile]
    cases w.file? spec.bucket with
    | none =>
      simp only [Task.bind_assoc]
      apply bind_congr
      intro f
      apply bind_congr
      rintro ⟨f, _ | _⟩ <;> rfl
    | some f =>
      simp only [Task.bind_assoc]
      apply bind_congr
      rintro ⟨f, _ | _⟩ <;> rfl

namespace Writer

/-- What waits does not matter for a write, and goes on waiting. -/
theorem write_behind (cs : List Committable) (w : Writer) (layout : Layout ρ) (record : ρ) :
    (w.behind cs).write layout record =
      w.write layout record >>= fun outcome ↦ Task.done (outcome.1.behind cs, outcome.2) := by
  cases w with
  | single spec files =>
    simp only [behind, write, OneFile.writeFixed_behind, Task.bind_assoc]
    rfl
  | grouped files =>
    simp only [behind, write, OneFile.writeClustered_behind, Task.bind_assoc]
    rfl
  | dynamic files =>
    simp only [behind, write, ManyFiles.write_behind, Task.bind_assoc]
    rfl

@[simp] theorem opened_behind (cs : List Committable) (w : Writer) :
    (w.behind cs).opened = w.opened := by
  cases w <;> rfl

@[simp] theorem allocator_behind (cs : List Committable) (w : Writer) :
    (w.behind cs).allocator = w.allocator := by
  cases w <;> rfl

@[simp] theorem closed_behind (cs : List Committable) (w : Writer) :
    (w.behind cs).closed = cs ++ w.closed := by
  cases w <;> rfl

/-- To fetch committables and put them back changes nothing. -/
theorem behind_drain (w : Writer) : w.drain.behind w.closed = w := by
  cases w <;> simp [drain, behind, closed, OneFile.behind, ManyFiles.behind]

/-- A write does what it would do if nothing waited. -/
theorem ends_write_drain {replies : Replying MemoryStore} {s s' : MemoryStore} {w w' : Writer}
    {result : Except WriteError Unit} (h : (w.write layout record).Ends replies s (w', result) s') :
    ∃ w₁, w' = w₁.behind w.closed ∧
      (w.drain.write layout record).Ends replies s (w₁, result) s' := by
  have hwrite := write_behind w.closed w.drain layout record
  rw [behind_drain] at hwrite
  rw [hwrite] at h
  exact (Task.ends_wrap (behind w.closed)).mp h

theorem At.behind {d : Desk ρ} {w : Writer} (h : w.At d) (cs : List Committable) :
    (w.behind cs).At d := by
  cases w <;> exact ⟨h.strategy, h.fixed⟩

end Writer

/-- The record, if it was written. -/
def Writer.taken (record : ρ) : Except WriteError Unit → List ρ
  | .ok () => [record]
  | .error _ => []

/-! ## Books of emitted files -/

namespace Books

variable {d : Desk ρ} {b b' : Books ρ} {s s' : MemoryStore} {a : Allocator}
variable {opened : List OpenFile} {closed : List Committable} {records : List ρ}

/-- The closed files are emitted. -/
def emit (b : Books ρ) : Books ρ := { b with kept := b.kept ++ b.closed, closed := [] }

theorem Tracks.emit (h : b.Tracks d s a opened closed) : b.emit.Tracks d s a opened [] where
  holds := h.holds.keep
  base := h.base
  opened := h.opened
  closed := rfl
  proper f hf := h.proper f (List.mem_append_right _ hf)
  distinct := h.distinct

/-- Where requests are refused and nothing else, a file that is kept is staged, and its target is as
it was. -/
theorem Tracks.staged (h : b.Tracks d s a opened closed) (honly : ∀ m, d.mishaps m → m = .refusal)
    {f : Filed ρ} (hf : f ∈ b.kept) :
    s.get? (f.slot d.base).staging = some (f.bytes d.layout) ∧
      s.get? (f.slot d.base).target = d.init.get? (f.slot d.base).target := by
  have hkept : f ∈ b.files .kept := hf
  rcases h.stands hkept with ⟨hstaged, htarget | ⟨hm, -⟩⟩ | ⟨hm, -, -⟩
  · exact ⟨hstaged, htarget⟩
  · cases honly _ hm
  · cases honly _ hm

/-- Where nothing else is closed, published or removed, only staging places of files that are kept
have changed. -/
theorem Tracks.get?_eq (h : b.Tracks d s a opened closed)
    (hidle : b.shown = [] ∧ b.closed = [] ∧ b.removed = [])
    (honly : ∀ m, d.mishaps m → m = .refusal) {p : ObjectPath} (hp : ∀ f ∈ b.kept, p ≠ (f.slot d.base).staging) :
    s.get? p = d.init.get? p := by
  rcases h.frame_or_place p with hinit | ⟨f, status, hf, hplace⟩
  · exact hinit
  have hstands := h.stands hf
  cases status with
  | kept =>
    rcases hplace with rfl | rfl
    · exact absurd rfl (hp f hf)
    · exact (h.staged honly hf).2
  | opened =>
    rcases hplace with rfl | rfl
    · exact hstands.1
    · exact hstands.2
  | dropped =>
    rcases hplace with rfl | rfl
    · rcases hstands.1 with hinit | ⟨hm, -⟩
      · exact hinit
      · cases honly _ hm
    · exact hstands.2
  | shown => simp [files, hidle.1] at hf
  | closed => simp [files, hidle.2.1] at hf
  | removed => simp [files, hidle.2.2] at hf

/-- These are all files of a writer, the open ones last, and they hold the records that were written
in their order. -/
structure Ordered (d : Desk ρ) (b : Books ρ) (files : List (Filed ρ)) (records : List ρ) :
    Prop where
  inOrder : InOrder d files records
  split : ∃ before, files = before ++ b.opened ∧ before.Perm (b.kept ++ b.closed ++ b.dropped)

variable {files : List (Filed ρ)}

theorem Ordered.emit (h : b.Ordered d files records) : b.emit.Ordered d files records := by
  obtain ⟨before, hfiles, hperm⟩ := h.split
  refine ⟨h.inOrder, before, hfiles, ?_⟩
  rw [Books.emit, List.append_nil]
  exact hperm

/-- There are no other files where nothing was published or removed. -/
theorem Ordered.mem_keys_iff (h : b.Ordered d files records) (hidle : b.shown = [] ∧ b.removed = [])
    (k : PartitionSpec × Nat) : k ∈ b.keys ↔ k ∈ files.map Filed.key := by
  obtain ⟨before, rfl, hperm⟩ := h.split
  have hbefore := (hperm.map Filed.key).mem_iff (a := k)
  simp only [List.map_append, List.mem_append] at hbefore
  simp only [keys_eq, hidle.1, hidle.2, List.map_append, List.map_nil, List.mem_append,
    List.not_mem_nil, hbefore]
  tauto

/-- Open files that were closed or given up come before those that are still open. -/
theorem Ordered.settle (h : b.Ordered d files records) (hdistinct : (b.opened.map Filed.spec).Nodup)
    (done lost : List (Filed ρ)) (hopened : b.opened.Perm (done ++ lost ++ b'.opened))
    (hkept : b'.kept = b.kept) (hclosed : b'.closed = b.closed ++ done)
    (hdropped : b'.dropped = b.dropped ++ lost) : ∃ files', b'.Ordered d files' records := by
  classical
  obtain ⟨before, rfl, hperm⟩ := h.split
  refine ⟨_, h.inOrder.perm hopened hdistinct, before ++ (done ++ lost), ?_, ?_⟩
  · simp only [List.append_assoc]
  · rw [hkept, hclosed, hdropped]
    refine (hperm.append_right _).trans ?_
    rw [List.perm_iff_count]
    intro f
    simp only [List.count_append]
    omega

/-- A file that is closed before a record of another partition keeps its place. -/
theorem Ordered.turn (h : b.Ordered d files records) (strategy : Strategy) (spec : PartitionSpec) :
    (b.turn strategy spec).Ordered d files records := by
  classical
  obtain ⟨before, rfl, hperm⟩ := h.split
  refine ⟨h.inOrder, ?_⟩
  unfold Books.turn
  split
  · refine ⟨before ++ b.opened, (List.append_nil _).symm, (hperm.append_right _).trans ?_⟩
    rw [List.perm_iff_count]
    intro f
    simp only [Books.close, List.count_append, List.count_nil]
    omega
  · exact ⟨before, rfl, hperm⟩

/-- A record that is put comes last in its partition, or it spoils its file. -/
theorem Ordered.put {sequence : Nat} {projected : ρ} {result : Except WriteError Unit}
    (h : b.Ordered d files records) (hdistinct : (b.opened.map Filed.spec).Nodup)
    (hplace : d.layout.place d.fixed record = .ok (spec, projected))
    (hsequence : sequence = (within spec files).length)
    (hput : b.Put d spec sequence record projected b' result) :
    ∃ files', b'.Ordered d files' (records ++ Writer.taken record result) := by
  subst hsequence
  cases hput with
  | added _ =>
    obtain ⟨before, rfl, hperm⟩ := h.split
    by_cases hopen : ∃ f ∈ b.opened, f.spec = spec
    · rw [Books.add, if_pos hopen]
      exact ⟨_, h.inOrder.add hplace hdistinct hopen, before, rfl, hperm⟩
    · rw [Books.add, if_neg hopen]
      exact ⟨_, h.inOrder.concat hplace, before, List.append_assoc _ _ _, hperm⟩
  | spoiled _ =>
    rw [Writer.taken, List.append_nil]
    by_cases hopen : ∃ f ∈ b.opened, f.spec = spec
    · rw [Books.spoil, if_pos hopen]
      refine h.settle hdistinct [] (b.opened.filter (·.spec = spec)) ?_ rfl
        (List.append_nil _).symm rfl
      have hsplit := List.filter_append_perm (fun f : Filed ρ ↦ decide (f.spec = spec)) b.opened
      simpa only [List.nil_append, decide_not] using hsplit.symm
    · rw [Books.spoil, if_neg hopen]
      obtain ⟨before, rfl, hperm⟩ := h.split
      have hwaste := h.inOrder.waste spec
      rw [List.append_assoc] at hwaste
      -- The file is given up, so it has to come before the open ones, none of which is of its
      -- partition.
      refine ⟨_, hwaste.perm List.perm_append_comm ?_, _, (List.append_assoc _ _ _).symm, ?_⟩
      · exact Filed.nodup_map_concat hdistinct fun g hg hspec ↦ hopen ⟨g, hg, hspec⟩
      · rw [← List.append_assoc]
        exact hperm.append_right _

/-- Everything that a write may do keeps the records of each partition in order. -/
theorem Ordered.wrote {result : Except WriteError Unit} {init : MemoryStore}
    (h : b.Ordered d files records) (hidle : b.shown = [] ∧ b.removed = [])
    (hholds : b.Holds d.layout d.mishaps a init s) (hdistinct : (b.opened.map Filed.spec).Nodup)
    (hwrote : b.Wrote d a record b' result) :
    ∃ files', b'.Ordered d files' (records ++ Writer.taken record result) := by
  cases hwrote with
  | rejected _ =>
    rw [Writer.taken, List.append_nil]
    exact ⟨files, h⟩
  | blocked _ _ _ _ _ =>
    rw [Writer.taken, List.append_nil]
    exact h.settle hdistinct [] b.opened (by simp [Books.close]) rfl rfl rfl
  | @put spec _ _ _ hplace hput =>
    have hcount := count_eq_of_inOrder hholds (h.mem_keys_iff hidle) h.inOrder spec
    exact (h.turn d.strategy spec).put (distinct_turn hdistinct d.strategy spec) hplace hcount hput

end Books

/-! ## Every sequence of calls -/

/-- What the books say about the committables that a writer has emitted. -/
structure Writer.Emits (d : Desk ρ) (store : MemoryStore) (b : Books ρ) (files : List (Filed ρ))
    (emitted : List (Filed ρ × CloseKind)) (fetched : List Committable) (written : List ρ)
    (w : Writer) : Prop where
  at_desk : w.At d
  tracks : b.Tracks d store w.allocator w.opened []
  idle : b.shown = [] ∧ b.removed = []
  kept : b.kept = emitted.map Prod.fst
  proper : ∀ f ∈ b.kept, f.Proper d
  closed : fetched ++ w.closed = emitted.map fun e ↦ e.1.committable d.layout d.base e.2
  ordered : b.Ordered d files written

namespace Writer

variable {d : Desk ρ} {b b' : Books ρ} {store store' : MemoryStore} {files files' : List (Filed ρ)}
variable {emitted : List (Filed ρ × CloseKind)} {fetched closed : List Committable}
variable {written written' : List ρ} {w w' : Writer} {result : Except WriteError Unit}

/-- A call that closes files of its own kind emits just these. -/
theorem Emits.next (h : w.Emits d store b files emitted fetched written) (kind : CloseKind)
    (hat : w'.At d) (htracks : b'.Tracks d store' w'.allocator w'.opened closed)
    (hunmoved : b'.shown = b.shown ∧ b'.kept = b.kept ∧ b'.removed = b.removed)
    (hclosed : w'.closed = w.closed ++ b'.closed.map fun f ↦ f.committable d.layout d.base kind)
    (hordered : b'.Ordered d files' written') :
    w'.Emits d store' b'.emit files' (emitted ++ b'.closed.map fun f ↦ (f, kind)) fetched
      written' where
  at_desk := hat
  tracks := htracks.emit
  idle := ⟨hunmoved.1.trans h.idle.1, hunmoved.2.2.trans h.idle.2⟩
  kept := by
    rw [Books.emit, hunmoved.2.1, h.kept, List.map_append, List.map_map]
    exact congrArg _ (List.map_id' _).symm
  proper f hf := by
    rw [Books.emit, hunmoved.2.1, List.mem_append] at hf
    rcases hf with hf | hf
    · exact h.proper f hf
    · exact htracks.proper f (List.mem_append_left _ hf)
  closed := by
    rw [hclosed, ← List.append_assoc, h.closed, List.map_append, List.map_map]
    rfl
  ordered := hordered.emit

/-- A write emits the files that it closes first, to be published. -/
theorem Emits.write (h : w.Emits d store b files emitted fetched written)
    (hw : (w.write d.layout record).Ends (Replies d.mishaps) store (w', result) store') :
    ∃ b' files' emitted', w'.Emits d store' b' files' emitted' fetched
      (written ++ taken record result) := by
  obtain ⟨w₁, rfl, hdrained⟩ := ends_write_drain hw
  have hdrain : b.Tracks d store w.drain.allocator w.drain.opened w.drain.closed := by
    rw [allocator_drain, opened_drain, closed_drain]
    exact h.tracks
  obtain ⟨b', hwrote, htracks, hat, -⟩ := ends_write h.at_desk.drain hdrain hdrained
  obtain ⟨files', hordered⟩ := h.ordered.wrote h.idle hdrain.holds hdrain.distinct hwrote
  have hbehind : b'.Tracks d store' (w₁.behind w.closed).allocator (w₁.behind w.closed).opened
      w₁.closed := by
    rw [allocator_behind, opened_behind]
    exact htracks
  refine ⟨b'.emit, files', _, h.next .commit (hat.behind _) hbehind hwrote.unmoved ?_ hordered⟩
  rw [closed_behind, htracks.closed]
  congr 1
  exact List.map_congr_left fun f _ ↦ f.committable_congr htracks.base .commit

/-- Closing emits the open files that can be closed, in the way that was asked for. -/
theorem Emits.close {kind : CloseKind} (h : w.Emits d store b files emitted fetched written)
    (hw : (w.close kind).Ends (Replies d.mishaps) store (w', result) store') :
    ∃ b' files' emitted', w'.Emits d store' b' files' emitted' fetched written := by
  obtain ⟨done, lost, error, hcloses, -, hat, hallocator, hopened, hclosed⟩ :=
    ends_close h.at_desk h.tracks.opened h.tracks.holds hw
  have hnone : b.closed = [] := List.map_eq_nil_iff.mp h.tracks.closed.symm
  have htracks := h.tracks.of_closes hcloses
  rw [← hallocator, ← hopened] at htracks
  have hperm : b.opened.Perm (done ++ lost ++ (b.close done lost).opened) := by
    simpa [Books.close] using hcloses.perm.symm
  obtain ⟨files', hordered⟩ := h.ordered.settle h.tracks.distinct done lost hperm rfl rfl rfl
  refine ⟨_, files', _, h.next kind hat htracks ⟨rfl, rfl, rfl⟩ ?_ hordered⟩
  rw [hclosed, Books.close, hnone, List.nil_append]
  congr 1
  exact List.map_congr_left fun f _ ↦ f.committable_congr h.tracks.base kind

/-- Each committable is of a file of its own. -/
theorem Emits.nodup_keys (h : w.Emits d store b files emitted fetched written) :
    (emitted.map fun e ↦ e.1.key).Nodup := by
  have hkept := h.tracks.holds.nodup_kept
  rw [h.kept, List.map_map] at hkept
  exact hkept

/-- The file of a committable is staged, and its target is as it was. -/
theorem Emits.staged (h : w.Emits d store b files emitted fetched written)
    (honly : ∀ m, d.mishaps m → m = .refusal) {e : Filed ρ × CloseKind} (he : e ∈ emitted) :
    store.get? (e.1.slot d.base).staging = some (e.1.bytes d.layout) ∧
      store.get? (e.1.slot d.base).target = d.init.get? (e.1.slot d.base).target :=
  h.tracks.staged honly (h.kept ▸ List.mem_map_of_mem he)

/-- Only staging places of committables have changed. -/
theorem Emits.get?_eq (h : w.Emits d store b files emitted fetched written)
    (honly : ∀ m, d.mishaps m → m = .refusal) {p : ObjectPath}
    (hp : ∀ e ∈ emitted, p ≠ (e.1.slot d.base).staging) : store.get? p = d.init.get? p := by
  have hnone : b.closed = [] := List.map_eq_nil_iff.mp h.tracks.closed.symm
  refine h.tracks.get?_eq ⟨h.idle.1, hnone, h.idle.2⟩ honly fun f hf ↦ ?_
  rw [h.kept] at hf
  obtain ⟨e, he, rfl⟩ := List.mem_map.mp hf
  exact hp e he

/-- No two committables lead to the same staging place. -/
theorem Emits.nodup_staging (h : w.Emits d store b files emitted fetched written)
    (ha : d.base.InPlace) : ((fetched ++ w.closed).map fun c ↦ c.token.staging).Nodup := by
  have hstaging := ha.nodup_staging h.nodup_keys
  rw [List.map_map] at hstaging
  rw [h.closed, List.map_map]
  simp only [Function.comp_def, Filed.staging_committable]
  exact hstaging

/-- The files of committables are some of the files of the writer, each of them once. -/
theorem Emits.subperm (h : w.Emits d store b files emitted fetched written) :
    (emitted.map Prod.fst).Subperm files := by
  obtain ⟨before, rfl, hperm⟩ := h.ordered.split
  have hkept : b.kept.Subperm before := by
    refine List.Subperm.trans ?_ hperm.symm.subperm
    rw [List.append_assoc]
    exact (List.sublist_append_left _ _).subperm
  rw [← h.kept]
  exact hkept.trans (List.sublist_append_left before b.opened).subperm

end Writer

/-- What has become of a writer, its store, the committables that were fetched, and the records that
were written. -/
inductive Writer.Course (layout : Layout ρ) (replies : Replying MemoryStore) (init : MemoryStore)
    (w₀ : Writer) : Writer → MemoryStore → List Committable → List ρ → Prop
  | start : Course layout replies init w₀ w₀ init [] []
  | write {w w' : Writer} {store store' : MemoryStore} {fetched : List Committable}
    {written : List ρ} {result : Except WriteError Unit}
    (h : Course layout replies init w₀ w store fetched written) (record : ρ)
    (hw : (w.write layout record).Ends replies store (w', result) store') :
    Course layout replies init w₀ w' store' fetched (written ++ taken record result)
  | close {w w' : Writer} {store store' : MemoryStore} {fetched : List Committable}
    {written : List ρ} {result : Except WriteError Unit}
    (h : Course layout replies init w₀ w store fetched written) (kind : CloseKind)
    (hw : (w.close kind).Ends replies store (w', result) store') :
    Course layout replies init w₀ w' store' fetched written
  | drain {w : Writer} {store : MemoryStore} {fetched : List Committable} {written : List ρ}
    (h : Course layout replies init w₀ w store fetched written) :
    Course layout replies init w₀ w.drain store (fetched ++ w.closed) written

/-- The desk of a writer on its own, on a store that may refuse requests. -/
def Layout.desk (layout : Layout ρ) (strategy : Strategy) (fixed : PartitionSpec) (base : Allocator)
    (init : MemoryStore) : Desk ρ where
  layout
  strategy
  fixed := if strategy = .single then some fixed else none
  mishaps := (· = .refusal)
  base
  init

namespace Writer

variable {stagingDir run : String} {attempt : Attempt} {naming : FileNaming} {strategy : Strategy}
variable {fixed : PartitionSpec} {init store : MemoryStore} {w : Writer}
variable {fetched : List Committable} {written : List ρ}

/-- A write on a store whose replies are certain. -/
theorem Course.run_write {w₀ : Writer} {replies : Replying MemoryStore}
    (h : Course layout replies init w₀ w store fetched written)
    (answer : (r : Request) → MemoryStore → r.Reply × MemoryStore)
    (hanswer : ∀ r s, replies r s (answer r s).1 (answer r s).2) (record : ρ) :
    let outcome := (w.write layout record).run answer store
    Course layout replies init w₀ outcome.value.1 outcome.state fetched
      (written ++ taken record outcome.value.2) :=
  h.write record (Task.ends_run answer hanswer _ _)

/-- A closing on a store whose replies are certain. -/
theorem Course.run_close {w₀ : Writer} {replies : Replying MemoryStore}
    (h : Course layout replies init w₀ w store fetched written)
    (answer : (r : Request) → MemoryStore → r.Reply × MemoryStore)
    (hanswer : ∀ r s, replies r s (answer r s).1 (answer r s).2) (kind : CloseKind) :
    let outcome := (w.close kind).run answer store
    Course layout replies init w₀ outcome.value.1 outcome.state fetched written :=
  h.close kind (Task.ends_run answer hanswer _ _)

/-- A new writer has emitted nothing. -/
theorem emits_new : (new strategy (.new stagingDir attempt naming run) fixed).Emits
    (layout.desk strategy fixed (.new stagingDir attempt naming run) init) init {} [] [] [] [] where
  at_desk := by
    cases strategy <;> exact ⟨rfl, rfl⟩
  tracks := by
    have htracks := Books.tracks_empty
      (d := layout.desk strategy fixed (.new stagingDir attempt naming run) init) rfl
    cases strategy <;> exact htracks
  idle := ⟨rfl, rfl⟩
  kept := rfl
  proper := by simp
  closed := by cases strategy <;> rfl
  ordered := ⟨.nil _, [], rfl, .nil⟩

/-- In every course the books tell what was emitted. -/
theorem Course.emits (h : Course layout (Replies (· = .refusal)) init
      (new strategy (.new stagingDir attempt naming run) fixed) w store fetched written) :
    ∃ b files emitted, w.Emits
      (layout.desk strategy fixed (.new stagingDir attempt naming run) init) store b files emitted
      fetched written := by
  induction h with
  | start => exact ⟨{}, [], [], emits_new⟩
  | write h record hw ih =>
    obtain ⟨b, files, emitted, hemits⟩ := ih
    exact hemits.write hw
  | close h kind hw ih =>
    obtain ⟨b, files, emitted, hemits⟩ := ih
    exact hemits.close hw
  | drain h ih =>
    obtain ⟨b, files, emitted, hemits⟩ := ih
    refine ⟨b, files, emitted, hemits.at_desk.drain, ?_, hemits.idle, hemits.kept, hemits.proper,
      ?_, hemits.ordered⟩
    · rw [allocator_drain, opened_drain]
      exact hemits.tracks
    · rw [closed_drain, List.append_nil]
      exact hemits.closed

/-- Whatever a writer was asked to do, and whatever puts its store has refused: every committable
that it has emitted is of a file of its own, with records of one partition. The bytes of these
records are at the staging place, and the store has changed nowhere else. Together with files that
are still open or were given up, the files of each partition are numbered from zero on, and hold all
records of it that were written, each once and in order. -/
theorem Course.emitted_staged (h : Course layout (Replies (· = .refusal)) init
      (new strategy (.new stagingDir attempt naming run) fixed) w store fetched written) :
    let a := Allocator.new stagingDir attempt naming run
    let d := layout.desk strategy fixed a init
    ∃ (emitted : List (Filed ρ × CloseKind)) (files : List (Filed ρ)),
      fetched ++ w.closed = emitted.map (fun e ↦ e.1.committable layout a e.2) ∧
      (∀ e ∈ emitted, e.1.Proper d ∧
        store.get? (e.1.slot a).staging = some (e.1.bytes layout)) ∧
      (∀ p, (∀ e ∈ emitted, p ≠ (e.1.slot a).staging) → store.get? p = init.get? p) ∧
      ((fetched ++ w.closed).map fun c ↦ c.token.staging).Nodup ∧
      (emitted.map fun e ↦ (e.1.slot a).target.text).Nodup ∧
      (emitted.map Prod.fst).Subperm files ∧ InOrder d files written := by
  intro a d
  obtain ⟨b, files, emitted, hemits⟩ := h.emits
  have honly : ∀ m, d.mishaps m → m = .refusal := fun _ hm ↦ hm
  have htarget := a.nodup_target hemits.nodup_keys
  rw [List.map_map] at htarget
  exact ⟨emitted, files, hemits.closed,
    fun e he ↦ ⟨hemits.proper e.1 (hemits.kept ▸ List.mem_map_of_mem he),
      (hemits.staged honly he).1⟩,
    fun p hp ↦ hemits.get?_eq honly hp, hemits.nodup_staging (Allocator.inPlace_new _ _ _ _),
    htarget, hemits.subperm, hemits.ordered.inOrder⟩

/-- Records of three partitions one after the other. The file of the second one cannot be put, so
the third record is rejected; it comes again, and the writer is closed so that its file can only be
removed. The first file was fetched before. -/
theorem Course.emitted_staged_after_lost_file :
    let layout : Layout String := ⟨⟨fun r ↦ .ok [("p", r)], .ok⟩, fun r _ ↦ (r.toUTF8, .ok ())⟩
    let a := Allocator.new "_staging" ⟨0, 0⟩ {} "r"
    ∃ w store fetched written,
      Course layout (Replies (· = .refusal)) .empty (new .grouped a []) w store fetched written ∧
      written = ["a", "b", "a"] ∧
      (fetched ++ w.closed).map (fun c ↦ (c.token.staging, c.token.isPending)) =
        [((a.slot [("p", "a")] 0).staging.text, true),
          ((a.slot [("p", "a")] 1).staging.text, false)] ∧
      ∃ emitted : List (Filed String × CloseKind),
        fetched ++ w.closed = emitted.map (fun e ↦ e.1.committable layout a e.2) ∧
        (∀ e ∈ emitted, store.get? (e.1.slot a).staging = some (e.1.bytes layout)) ∧
        ∀ p, (∀ e ∈ emitted, p ≠ (e.1.slot a).staging) → store.get? p = none := by
  intro layout a
  let answer := MemoryStore.refusing fun r ↦ match r with
    | .put path _ => path = (a.slot [("p", "b")] 0).staging
    | _ => false
  have hanswer : ∀ r s, Replies (· = .refusal) r s (answer r s).1 (answer r s).2 :=
    MemoryStore.replies_refusing _
  have hstart : Course layout (Replies (· = .refusal)) .empty (new .grouped a []) _ _ _ _ := .start
  have hfetched := ((hstart.run_write answer hanswer "a").run_write answer hanswer "b").drain
  have hlost := hfetched.run_write answer hanswer "c"
  have hagain := hlost.run_write answer hanswer "a"
  obtain ⟨w, store, fetched, written, hcourse, hwritten, htokens⟩ : ∃ w store fetched written,
      Course layout (Replies (· = .refusal)) .empty (new .grouped a []) w store fetched written ∧
      written = ["a", "b", "a"] ∧
      (fetched ++ w.closed).map (fun c ↦ (c.token.staging, c.token.isPending)) =
        [((a.slot [("p", "a")] 0).staging.text, true),
          ((a.slot [("p", "a")] 1).staging.text, false)] := by
    refine ⟨_, _, _, _, hagain.run_close answer hanswer .recovery, ?_, ?_⟩
    · decide +kernel
    · decide +kernel
  obtain ⟨emitted, files, hclosed, hstaged, helse, -⟩ := Course.emitted_staged hcourse
  exact ⟨w, store, fetched, written, hcourse, hwritten, htokens, emitted, hclosed,
    fun e he ↦ (hstaged e he).2, helse⟩

end Writer

end TableSink
