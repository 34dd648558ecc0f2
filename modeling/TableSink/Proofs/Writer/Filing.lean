import TableSink.Proofs.Writer.Emitted

/-!
# How records are filed

Where no record is refused and no put fails, the files of a batch are a matter of the strategy and
of the partitions of its records only. `Filed.next` says for one record where it goes: to a file of
its partition among those that may still be open, and otherwise to a new one with the next number.
`Desk.filed` says it for all records of a batch, and a writer files them in just this way
(`Writer.Filing.writeBatches`). What is to be said about strategies can be said about `Desk.filed`.
-/

namespace TableSink

variable {ρ : Type} {d : Desk ρ} {past files : List (Filed ρ)} {records : List ρ}
variable {spec : PartitionSpec} {record projected : ρ}

open MemoryStore (Replies)
open Filed (InOrder within)

/-! ## One record after the other -/

namespace Filed

/-- The files of a batch that are still open: the last one if there is one at a time. -/
def openOf (strategy : Strategy) (files : List (Filed ρ)) : List (Filed ρ) :=
  if strategy = .grouped then files.getLast?.toList else files

/-- The files of a batch that were closed before its end. -/
def doneOf (strategy : Strategy) (files : List (Filed ρ)) : List (Filed ρ) :=
  if strategy = .grouped then files.dropLast else []

theorem doneOf_append_openOf (strategy : Strategy) (files : List (Filed ρ)) :
    doneOf strategy files ++ openOf strategy files = files := by
  by_cases h : strategy = .grouped
  · rw [doneOf, openOf, if_pos h, if_pos h]
    cases files using List.reverseRecOn with
    | nil => rfl
    | append_singleton fs f => simp
  · rw [doneOf, openOf, if_neg h, if_neg h, List.nil_append]

theorem openOf_concat (fs : List (Filed ρ)) (f : Filed ρ) :
    openOf .grouped (fs ++ [f]) = [f] := by
  simp [openOf]

theorem doneOf_concat (fs : List (Filed ρ)) (f : Filed ρ) :
    doneOf .grouped (fs ++ [f]) = fs := by
  simp [doneOf]

/-- The files of a batch after one more record of a partition, `past` being those of the batches
before. -/
def next (strategy : Strategy) (past files : List (Filed ρ)) (spec : PartitionSpec) (record : ρ) :
    List (Filed ρ) :=
  if ∃ f ∈ openOf strategy files, f.spec = spec then
    doneOf strategy files ++
      (openOf strategy files).map fun f ↦ if f.spec = spec then f.add record else f
  else files ++ [⟨spec, (within spec (past ++ files)).length, [record]⟩]

/-- A record comes last in its partition. -/
theorem inOrder_next (h : InOrder d (past ++ files) records)
    (hplace : d.layout.place d.fixed record = .ok (spec, projected)) (strategy : Strategy)
    (hdistinct : ((openOf strategy files).map Filed.spec).Nodup) :
    InOrder d (past ++ next strategy past files spec record) (records ++ [record]) := by
  unfold next
  split
  · next hopen =>
    rw [← doneOf_append_openOf strategy files, ← List.append_assoc] at h
    rw [← List.append_assoc]
    exact h.add hplace hdistinct hopen
  · rw [← List.append_assoc]
    exact h.concat hplace

end Filed

open Filed (openOf doneOf doneOf_append_openOf next inOrder_next)

/-- The files of a batch after one more record. -/
def Desk.file (d : Desk ρ) (past files : List (Filed ρ)) (record : ρ) : List (Filed ρ) :=
  match d.layout.place d.fixed record with
  | .ok (spec, _) => next d.strategy past files spec record
  | .error _ => files

/-- The files of a batch, `past` being those of the batches before. -/
def Desk.filed (d : Desk ρ) (past : List (Filed ρ)) (records : List ρ) : List (Filed ρ) :=
  records.foldl (d.file past) []

/-- A record that has a place and can be encoded, whatever its file holds. -/
def Desk.Admits (d : Desk ρ) (record : ρ) : Prop :=
  ∃ spec projected, d.layout.place d.fixed record = .ok (spec, projected) ∧
    ∀ buffer, (d.layout.encoder projected buffer).2 = .ok ()

theorem Desk.file_of_place (h : d.layout.place d.fixed record = .ok (spec, projected)) :
    d.file past files record = next d.strategy past files spec record := by
  rw [file, h]

/-! ## What a writer does -/

/-- What the books say of a writer within a batch: the files of the batches before, and those of the
batch. -/
structure Writer.Filing (d : Desk ρ) (past files : List (Filed ρ)) (records : List ρ)
    (store : MemoryStore) (b : Books ρ) (w : Writer) : Prop where
  at_desk : w.At d
  tracks : b.Tracks d store w.allocator w.opened w.closed
  idle : b.shown = [] ∧ b.removed = [] ∧ b.dropped = []
  kept : b.kept = past
  closed : b.closed = doneOf d.strategy files
  opened : b.opened = openOf d.strategy files
  inOrder : InOrder d (past ++ files) records

namespace Writer

variable {store store' : MemoryStore} {b : Books ρ} {w w' : Writer}

theorem Filing.batch (h : w.Filing d past files records store b) : b.batch = files := by
  rw [Books.batch, h.closed, h.opened, doneOf_append_openOf]

theorem Filing.mem_keys_iff (h : w.Filing d past files records store b)
    (k : PartitionSpec × Nat) : k ∈ b.keys ↔ k ∈ (past ++ files).map Filed.key := by
  rw [← h.batch, ← h.kept, Books.keys_eq, h.idle.1, h.idle.2.1, h.idle.2.2, Books.batch]
  simp only [List.map_nil, List.nil_append, List.append_nil, List.map_append, List.append_assoc]

/-- The next number of a partition is the number of its files so far. -/
theorem Filing.count_eq (h : w.Filing d past files records store b) (spec : PartitionSpec) :
    w.allocator.count spec.bucket = (within spec (past ++ files)).length :=
  Books.count_eq_of_inOrder h.tracks.holds h.mem_keys_iff h.inOrder spec

/-- The books of a batch after one more record. -/
theorem Filing.turn_add (h : w.Filing d past files records store b) (spec : PartitionSpec)
    (record : ρ) :
    ((b.turn d.strategy spec).add spec (within spec (past ++ files)).length record).closed =
        doneOf d.strategy (next d.strategy past files spec record) ∧
      ((b.turn d.strategy spec).add spec (within spec (past ++ files)).length record).opened =
        openOf d.strategy (next d.strategy past files spec record) := by
  have hclosed := h.closed
  have hopened := h.opened
  by_cases hgrouped : d.strategy = .grouped
  · rw [hgrouped] at hclosed hopened ⊢
    cases files using List.reverseRecOn with
    | nil =>
      have hturn : b.turn .grouped spec = b := if_neg (by simp [hopened, openOf])
      rw [hturn, Books.closed_add, Books.add, if_neg (by simp [hopened, openOf])]
      simp [next, openOf, doneOf, hclosed, hopened]
    | append_singleton fs f =>
      rw [Filed.doneOf_concat] at hclosed
      rw [Filed.openOf_concat] at hopened
      by_cases hspec : f.spec = spec
      · have hturn : b.turn .grouped spec = b := if_neg (by simp [hopened, hspec])
        rw [hturn, Books.closed_add, Books.add, if_pos (by simp [hopened, hspec])]
        simp [next, Filed.openOf_concat, Filed.doneOf_concat, hclosed, hopened, hspec]
      · have hturn : b.turn .grouped spec = b.close b.opened [] :=
          if_pos ⟨rfl, by simp [hopened, hspec]⟩
        rw [hturn, Books.closed_add, Books.add, if_neg (by simp [Books.close])]
        simp only [next, Filed.openOf_concat, List.mem_singleton, exists_eq_left, if_neg hspec]
        rw [Filed.doneOf_concat]
        simp [Books.close, hclosed, hopened]
  · have hturn : b.turn d.strategy spec = b := if_neg fun hturn ↦ hgrouped hturn.1
    rw [openOf, if_neg hgrouped] at hopened
    rw [doneOf, if_neg hgrouped] at hclosed
    rw [hturn, Books.closed_add, doneOf, if_neg hgrouped, openOf, if_neg hgrouped, next, openOf,
      if_neg hgrouped, doneOf, if_neg hgrouped, Books.add, hopened]
    split
    · exact ⟨hclosed, rfl⟩
    · exact ⟨hclosed, rfl⟩

/-- A record that is admitted is filed, and nothing else happens. -/
theorem Filing.write (hcalm : d.Calm) (h : w.Filing d past files records store b)
    (hadmits : d.Admits record) {result : Except WriteError Unit}
    (hw : (w.write d.layout record).Ends (Replies d.mishaps) store (w', result) store') :
    result = .ok () ∧ ∃ b', w'.Filing d past (d.file past files record) (records ++ [record])
      store' b' := by
  obtain ⟨spec, projected, hplace, hencode⟩ := hadmits
  obtain ⟨b', hwrote, htracks, hat, -⟩ := ends_write h.at_desk h.tracks hw
  obtain ⟨hshown, hkept, hremoved⟩ := hwrote.unmoved
  cases hwrote with
  | rejected hrejected =>
    rw [hplace] at hrejected
    cases hrejected
  | blocked _ _ _ _ hm => exact absurd hm.choose_spec (hcalm _)
  | put hplace' hput =>
    rw [hplace] at hplace'
    cases hplace'
    cases hput with
    | spoiled hspoiled =>
      rw [hencode] at hspoiled
      cases hspoiled
    | added _ =>
      rw [h.count_eq] at htracks hshown hkept hremoved
      have hdistinct : ((openOf d.strategy files).map Filed.spec).Nodup :=
        h.opened ▸ h.tracks.distinct
      obtain ⟨hclosed, hopened⟩ := h.turn_add spec record
      rw [Desk.file_of_place hplace]
      refine ⟨rfl,
        (b.turn d.strategy spec).add spec (within spec (past ++ files)).length record, ?_⟩
      exact {
        at_desk := hat
        tracks := htracks
        idle := ⟨hshown.trans h.idle.1, hremoved.trans h.idle.2.1, by
          rw [Books.dropped_add, Books.dropped_turn]
          exact h.idle.2.2⟩
        kept := hkept.trans h.kept
        closed := hclosed
        opened := hopened
        inOrder := inOrder_next h.inOrder hplace d.strategy hdistinct }

/-! ## Batches -/

/-- Write records one after the other, up to the first error. -/
def writeAll (layout : Layout ρ) (w : Writer) : List ρ → Task (Writer × Except WriteError Unit)
  | [] => return (w, .ok ())
  | record :: records => do
    match ← w.write layout record with
    | (w, .ok ()) => w.writeAll layout records
    | (w, .error e) => return (w, .error e)

/-- Write a batch: all its records, then the writer is closed and its committables are fetched. -/
def writeBatch (layout : Layout ρ) (w : Writer) (records : List ρ) :
    Task (Writer × Except WriteError (List Committable)) := do
  match ← w.writeAll layout records with
  | (w, .error e) => return (w, .error e)
  | (w, .ok ()) =>
    match ← w.close .commit with
    | (w, .error e) => return (w, .error e)
    | (w, .ok ()) => return (w.drain, .ok w.closed)

/-- Write batches one after the other, up to the first error, with the committables of each. -/
def writeBatches (layout : Layout ρ) (w : Writer) :
    List (List ρ) → Task (Writer × Except WriteError (List (List Committable)))
  | [] => return (w, .ok [])
  | batch :: batches => do
    match ← w.writeBatch layout batch with
    | (w, .error e) => return (w, .error e)
    | (w, .ok committables) =>
      let (w, rest) ← w.writeBatches layout batches
      return (w, rest.map (committables :: ·))

theorem Filing.writeAll (hcalm : d.Calm) (h : w.Filing d past files records store b)
    {batch : List ρ} (hadmits : ∀ r ∈ batch, d.Admits r) {result : Except WriteError Unit}
    (hw : (w.writeAll d.layout batch).Ends (Replies d.mishaps) store (w', result) store') :
    result = .ok () ∧ ∃ b', w'.Filing d past (batch.foldl (d.file past) files) (records ++ batch)
      store' b' := by
  induction batch generalizing w store files records b with
  | nil =>
    obtain ⟨rfl, rfl, rfl⟩ := Task.ends_done_pair.mp hw
    rw [List.append_nil]
    exact ⟨rfl, b, h⟩
  | cons r batch ih =>
    obtain ⟨hfirst, hrest⟩ := List.forall_mem_cons.mp hadmits
    simp only [Writer.writeAll, Task.ends_bind] at hw
    obtain ⟨⟨w₁, written⟩, store₁, hwrite, hw⟩ := hw
    obtain ⟨rfl, b₁, h₁⟩ := h.write hcalm hfirst hwrite
    obtain ⟨rfl, b', h'⟩ := ih h₁ hrest hw
    rw [List.append_assoc, List.singleton_append] at h'
    exact ⟨rfl, b', h'⟩

/-- The files of a batch are closed in the order in which they were opened, and come to those of the
batches before. -/
theorem Filing.close (hcalm : d.Calm) (h : w.Filing d past files records store b)
    {result : Except WriteError Unit}
    (hw : (w.close .commit).Ends (Replies d.mishaps) store (w', result) store') :
    result = .ok () ∧ w'.closed = files.map (fun f ↦ f.committable d.layout d.base .commit) ∧
      ∃ b', w'.drain.Filing d (past ++ files) [] records store' b' := by
  obtain ⟨done, lost, error, hcloses, rfl, hat, hallocator, hopened, hclosed⟩ :=
    ends_close h.at_desk h.tracks.opened h.tracks.holds hw
  rcases hcloses.error with ⟨rfl, rfl⟩ | ⟨-, m, hm⟩
  · obtain rfl := hcloses.done_eq rfl
    have htracks := (h.tracks.of_closes hcloses).emit
    have hkept : (b.close b.opened []).emit.kept = past ++ files := by
      rw [← h.kept, ← h.batch]
      rfl
    refine ⟨rfl, ?_, (b.close b.opened []).emit, ?_⟩
    · rw [hclosed, h.tracks.closed, ← List.map_append, ← h.batch]
      exact List.map_congr_left fun f _ ↦ f.committable_congr h.tracks.base .commit
    · exact {
        at_desk := hat.drain
        tracks := by
          rw [allocator_drain, opened_drain, closed_drain, hallocator, hopened]
          exact htracks
        idle := ⟨h.idle.1, h.idle.2.1, by
          rw [Books.emit, Books.close, h.idle.2.2]
          rfl⟩
        kept := hkept
        closed := by simp [Books.emit, doneOf]
        opened := by simp [Books.emit, Books.close, openOf]
        inOrder := by
          rw [List.append_nil]
          exact h.inOrder }
  · exact absurd hm (hcalm m)

theorem Filing.writeBatch (hcalm : d.Calm) (h : w.Filing d past [] records store b)
    {batch : List ρ} (hadmits : ∀ r ∈ batch, d.Admits r)
    {result : Except WriteError (List Committable)}
    (hw : (w.writeBatch d.layout batch).Ends (Replies d.mishaps) store (w', result) store') :
    result = .ok ((d.filed past batch).map fun f ↦ f.committable d.layout d.base .commit) ∧
      ∃ b', w'.Filing d (past ++ d.filed past batch) [] (records ++ batch) store' b' := by
  simp only [Writer.writeBatch, Task.ends_bind] at hw
  obtain ⟨⟨w₁, written⟩, store₁, hall, hw⟩ := hw
  obtain ⟨rfl, b₁, h₁⟩ := h.writeAll hcalm hadmits hall
  simp only [Task.ends_bind] at hw
  obtain ⟨⟨w₂, closed⟩, store₂, hclose, hw⟩ := hw
  obtain ⟨rfl, hclosed, b₂, h₂⟩ := h₁.close hcalm hclose
  obtain ⟨rfl, rfl, rfl⟩ := Task.ends_done_pair.mp hw
  exact ⟨by rw [hclosed]; rfl, b₂, h₂⟩

end Writer

/-- The files of each batch, in the order of the batches. -/
def Desk.filedEach (d : Desk ρ) (past : List (Filed ρ)) : List (List ρ) → List (List (Filed ρ))
  | [] => []
  | batch :: batches => d.filed past batch :: d.filedEach (past ++ d.filed past batch) batches

theorem Desk.length_filedEach (d : Desk ρ) (past : List (Filed ρ)) (batches : List (List ρ)) :
    (d.filedEach past batches).length = batches.length := by
  induction batches generalizing past with
  | nil => rfl
  | cons batch batches ih => rw [filedEach, List.length_cons, List.length_cons, ih]

namespace Writer

variable {store store' : MemoryStore} {b : Books ρ} {w w' : Writer}

/-- Batches are filed as their records say, and nothing goes wrong. -/
theorem Filing.writeBatches (hcalm : d.Calm) (h : w.Filing d past [] records store b)
    {batches : List (List ρ)} (hadmits : ∀ batch ∈ batches, ∀ r ∈ batch, d.Admits r)
    {result : Except WriteError (List (List Committable))}
    (hw : (w.writeBatches d.layout batches).Ends (Replies d.mishaps) store (w', result) store') :
    result = .ok ((d.filedEach past batches).map fun files ↦
        files.map fun f ↦ f.committable d.layout d.base .commit) ∧
      ∃ b', w'.Filing d (past ++ (d.filedEach past batches).flatten) [] (records ++ batches.flatten)
        store' b' := by
  induction batches generalizing w store past records b result with
  | nil =>
    obtain ⟨rfl, rfl, rfl⟩ := Task.ends_done_pair.mp hw
    simp only [Desk.filedEach, List.flatten_nil, List.append_nil]
    exact ⟨rfl, b, h⟩
  | cons batch batches ih =>
    obtain ⟨hfirst, hrest⟩ := List.forall_mem_cons.mp hadmits
    simp only [Writer.writeBatches, Task.ends_bind] at hw
    obtain ⟨⟨w₁, committables⟩, store₁, hbatch, hw⟩ := hw
    obtain ⟨rfl, b₁, h₁⟩ := h.writeBatch hcalm hfirst hbatch
    simp only [Task.ends_bind] at hw
    obtain ⟨⟨w₂, rest⟩, store₂, hbatches, hw⟩ := hw
    obtain ⟨rfl, rfl, rfl⟩ := Task.ends_done_pair.mp hw
    obtain ⟨rfl, b', h'⟩ := ih h₁ hrest hbatches
    rw [List.append_assoc, List.append_assoc, ← List.flatten_cons, ← List.flatten_cons] at h'
    exact ⟨rfl, b', h'⟩

end Writer

end TableSink
