import TableSink.Proofs.Writer.Filing

/-!
# Two strategies, the same files

Records that come clustered by partition are filed in the same way whether one file is open at a
time or one for every partition (`Filed.next_eq_next`, `Desk.filed_eq_filed`). In any other order
the grouped strategy makes more files, but one after the other they hold what the one file of the
dynamic strategy holds (`Desk.recordsIn_filed`, `Desk.within_filed_eq_singleton`). These are facts
about `Desk.filed`; what they mean for writers, their committables and their stores is put together
in `Writer.strategies_agree`.
-/

namespace TableSink

variable {ρ : Type} {d : Desk ρ} {past files : List (Filed ρ)} {records batch : List ρ}
variable {spec : PartitionSpec} {record projected : ρ}

open MemoryStore (Replies)
open Filed (InOrder within recordsIn openOf doneOf next)

/-! ## The files of a batch -/

theorem Desk.filed_concat (d : Desk ρ) (past : List (Filed ρ)) (batch : List ρ) (record : ρ) :
    d.filed past (batch ++ [record]) = d.file past (d.filed past batch) record := by
  rw [filed, List.foldl_append]
  rfl

namespace Filed

/-- The files of a batch with a new one, if there is one. -/
theorem mem_next {strategy : Strategy} {f : Filed ρ}
    (hf : f ∈ next strategy past files spec record) : f.spec = spec ∨ f ∈ files := by
  unfold next at hf
  split at hf
  · rcases List.mem_append.mp hf with hf | hf
    · rw [← doneOf_append_openOf strategy files]
      exact .inr (List.mem_append_left _ hf)
    · obtain ⟨g, hg, rfl⟩ := List.mem_map.mp hf
      by_cases hspec : g.spec = spec
      · rw [if_pos hspec]
        exact .inl hspec
      · rw [if_neg hspec, ← doneOf_append_openOf strategy files]
        exact .inr (List.mem_append_right _ hg)
  · rcases List.mem_append.mp hf with hf | hf
    · exact .inr hf
    · rw [List.mem_singleton.mp hf]
      exact .inl rfl

/-- Where files stay open, there is one for a partition. -/
theorem nodup_next {strategy : Strategy} (hstrategy : strategy ≠ .grouped)
    (h : (files.map Filed.spec).Nodup) :
    ((next strategy past files spec record).map Filed.spec).Nodup := by
  unfold next
  rw [openOf, if_neg hstrategy, doneOf, if_neg hstrategy, List.nil_append]
  split
  · rw [List.map_map, Function.comp_def]
    simp only [spec_addTo]
    exact h
  · next hopen =>
    exact nodup_map_concat h fun g hg hspec ↦ hopen ⟨g, hg, hspec⟩

/-- One file at a time or one for every partition: it makes no difference for a record of the last
file, or of a partition that has no file yet. -/
theorem next_eq_next (hdistinct : (files.map Filed.spec).Nodup)
    (hturn : ∀ f ∈ files.getLast?, f.spec ≠ spec → ∀ g ∈ files, g.spec ≠ spec) :
    next .grouped past files spec record = next .dynamic past files spec record := by
  cases files using List.reverseRecOn with
  | nil => rfl
  | append_singleton fs f =>
    by_cases hspec : f.spec = spec
    · have hothers : ∀ g ∈ fs, g.spec ≠ spec := by
        intro g hg hgs
        rw [List.map_append, List.nodup_append] at hdistinct
        exact hdistinct.2.2 g.spec (List.mem_map_of_mem hg) f.spec (by simp) (hgs.trans hspec.symm)
      have hdynamic : openOf .dynamic (fs ++ [f]) = fs ++ [f] := rfl
      have hdone : doneOf .dynamic (fs ++ [f]) = [] := rfl
      rw [next, next, openOf_concat, doneOf_concat, hdynamic, hdone, if_pos (by simpa using hspec),
        if_pos ⟨f, by simp, hspec⟩, List.map_append, map_addTo_eq_self hothers, List.nil_append]
    · have hothers := hturn f (by simp) hspec
      rw [next, next, openOf_concat, if_neg (by simpa using hspec), if_neg]
      rintro ⟨g, hg, hgs⟩
      exact hothers g hg hgs

/-- The file of a record that comes is the last one, if there is one at a time. -/
theorem getLast?_next : ((next .grouped past files spec record).map Filed.spec).getLast? =
    some spec := by
  cases files using List.reverseRecOn with
  | nil => simp [next, openOf]
  | append_singleton fs f =>
    by_cases hspec : f.spec = spec
    · have hadd : (f.add record).spec = spec := hspec
      simp [next, openOf_concat, doneOf_concat, hspec, hadd]
    · simp [next, openOf_concat, hspec]

/-- What the files of a batch hold, if they come behind those of the batches before. -/
theorem InOrder.behind (h : InOrder d past records)
    (hall : InOrder d (past ++ files) (records ++ batch)) (spec : PartitionSpec) :
    recordsIn (within spec files) = batch.filter (d.Belongs spec) ∧
      (within spec files).map Filed.sequence =
        List.range' (within spec past).length (within spec files).length := by
  constructor
  · have hrecords := hall.records spec
    rw [within_append, recordsIn_append, List.filter_append, h.records] at hrecords
    exact List.append_cancel_left hrecords
  · have hsequences := hall.sequences spec
    rw [within_append, List.map_append, h.sequences, List.length_append, List.range_eq_range',
      List.range_eq_range', ← List.range'_append_1, Nat.zero_add] at hsequences
    exact List.append_cancel_left hsequences

end Filed

namespace Desk

/-- Where files stay open, a batch has one for a partition. -/
theorem nodup_filed (hstrategy : d.strategy ≠ .grouped) (past : List (Filed ρ)) (batch : List ρ) :
    ((d.filed past batch).map Filed.spec).Nodup := by
  induction batch using List.reverseRecOn with
  | nil => exact List.nodup_nil
  | append_singleton batch r ih =>
    rw [filed_concat, file]
    split
    · exact Filed.nodup_next hstrategy ih
    · exact ih

/-- Files that are open at the same time are of different partitions. -/
theorem nodup_openOf (d : Desk ρ) (past : List (Filed ρ)) (batch : List ρ) :
    ((openOf d.strategy (d.filed past batch)).map Filed.spec).Nodup := by
  by_cases hgrouped : d.strategy = .grouped
  · rw [openOf, if_pos hgrouped]
    cases (d.filed past batch).getLast? with
    | none => exact List.nodup_nil
    | some f => exact List.nodup_singleton _
  · rw [openOf, if_neg hgrouped]
    exact nodup_filed hgrouped past batch

/-- Every file of a batch has been opened for a record of its partition. -/
theorem exists_of_mem_filed {f : Filed ρ} (hf : f ∈ d.filed past batch) :
    ∃ r ∈ batch, d.Belongs f.spec r := by
  induction batch using List.reverseRecOn with
  | nil => exact absurd hf List.not_mem_nil
  | append_singleton batch r ih =>
    rw [filed_concat, file] at hf
    split at hf
    · next spec projected hplace =>
      rcases Filed.mem_next hf with hspec | hf
      · exact ⟨r, by simp, by simp [Filed.belongs_of_place hplace, hspec]⟩
      · obtain ⟨x, hx, hbelongs⟩ := ih hf
        exact ⟨x, List.mem_append_left _ hx, hbelongs⟩
    · obtain ⟨x, hx, hbelongs⟩ := ih hf
      exact ⟨x, List.mem_append_left _ hx, hbelongs⟩

theorem inOrder_filed (h : InOrder d past records) (hadmits : ∀ r ∈ batch, d.Admits r) :
    InOrder d (past ++ d.filed past batch) (records ++ batch) := by
  induction batch using List.reverseRecOn with
  | nil =>
    rw [filed, List.foldl_nil, List.append_nil, List.append_nil]
    exact h
  | append_singleton batch r ih =>
    obtain ⟨spec, projected, hplace, -⟩ := hadmits r (by simp)
    have hbefore := ih fun x hx ↦ hadmits x (List.mem_append_left _ hx)
    rw [filed_concat, file_of_place hplace, ← List.append_assoc]
    exact Filed.inOrder_next hbefore hplace d.strategy (d.nodup_openOf past batch)

end Desk

/-! ## Clustered records -/

namespace Layout

variable {layout : Layout ρ} {strategy : Strategy} {base : Allocator} {init : MemoryStore}

/-- A record that has a partition and can be encoded, whatever its file holds. -/
def Accepts (layout : Layout ρ) (record : ρ) : Prop :=
  ∃ spec projected, layout.computer.partition record = .ok spec ∧
    layout.computer.project record = .ok projected ∧
    ∀ buffer, (layout.encoder projected buffer).2 = .ok ()

/-- No partition comes again after a record of another one. -/
def Clustered (layout : Layout ρ) (records : List ρ) : Prop :=
  ∀ x y z, [x, y, z].Sublist records →
    layout.computer.partition x = layout.computer.partition z →
      layout.computer.partition y = layout.computer.partition x

theorem Clustered.sublist {records' : List ρ} (h : layout.Clustered records)
    (hsub : records'.Sublist records) : layout.Clustered records' :=
  fun x y z hxyz ↦ h x y z (hxyz.trans hsub)

/-- The desk of a writer on its own, on a store where nothing goes wrong. -/
def calmDesk (layout : Layout ρ) (strategy : Strategy) (base : Allocator) (init : MemoryStore) :
    Desk ρ where
  layout
  strategy
  fixed := none
  mishaps := Mishap.none
  base
  init

theorem Accepts.admits (h : layout.Accepts record) (strategy : Strategy) (base : Allocator)
    (init : MemoryStore) : (layout.calmDesk strategy base init).Admits record := by
  obtain ⟨spec, projected, hpartition, hproject, hencode⟩ := h
  exact ⟨spec, projected, place_none.mpr ⟨hpartition, hproject⟩, hencode⟩

/-- An accepted record belongs where its partition says. -/
theorem Accepts.belongs_iff (h : layout.Accepts record) :
    (layout.calmDesk strategy base init).Belongs spec record ↔
      layout.computer.partition record = .ok spec := by
  obtain ⟨place, projected, hpartition, hproject, -⟩ := h
  have hplace : layout.place none record = .ok (place, projected) :=
    place_none.mpr ⟨hpartition, hproject⟩
  rw [Filed.belongs_of_place hplace, hpartition, decide_eq_true_iff, Except.ok.injEq]

end Layout

namespace Desk

variable {layout : Layout ρ} {base : Allocator} {init : MemoryStore}

/-- With one file at a time, the last file is the one of the last record. -/
theorem exists_of_getLast?_filed (hgrouped : d.strategy = .grouped)
    (hadmits : ∀ r ∈ batch, d.Admits r) {f : Filed ρ} (hf : f ∈ (d.filed past batch).getLast?) :
    ∃ before r, batch = before ++ [r] ∧ d.Belongs f.spec r := by
  cases batch using List.reverseRecOn with
  | nil => simp [filed] at hf
  | append_singleton batch r =>
    obtain ⟨spec, projected, hplace, -⟩ := hadmits r (by simp)
    refine ⟨batch, r, rfl, ?_⟩
    have hlast : ((next .grouped past (d.filed past batch) spec r).map Filed.spec).getLast? =
        some spec := Filed.getLast?_next
    rw [filed_concat, file_of_place hplace, hgrouped] at hf
    rw [List.getLast?_map, Option.mem_def.mp hf, Option.map_some, Option.some.injEq] at hlast
    rw [Filed.belongs_of_place hplace, hlast, decide_eq_true_iff]

/-- Clustered records are filed in the same way by both strategies. -/
theorem filed_eq_filed (haccept : ∀ r ∈ batch, layout.Accepts r) (h : layout.Clustered batch)
    (past : List (Filed ρ)) : (layout.calmDesk .grouped base init).filed past batch =
      (layout.calmDesk .dynamic base init).filed past batch := by
  induction batch using List.reverseRecOn with
  | nil => rfl
  | append_singleton batch r ih =>
    have hothers : ∀ x ∈ batch, layout.Accepts x :=
      fun x hx ↦ haccept x (List.mem_append_left _ hx)
    have hbefore := ih hothers (h.sublist (List.sublist_append_left _ _))
    obtain ⟨spec, projected, hpartition, hproject, -⟩ := haccept r (by simp)
    have hplace : layout.place none r = .ok (spec, projected) :=
      Layout.place_none.mpr ⟨hpartition, hproject⟩
    rw [filed_concat, filed_concat, file_of_place hplace, file_of_place hplace, hbefore]
    refine Filed.next_eq_next (nodup_filed (by simp [Layout.calmDesk]) past batch) ?_
    -- A file of the record's partition before a last file of another one would be of a record
    -- before a last record of another partition.
    intro f hf hne g hg hspec
    rw [← hbefore] at hf
    obtain ⟨before, y, rfl, hy⟩ := exists_of_getLast?_filed rfl
      (fun x hx ↦ (hothers x hx).admits .grouped base init) hf
    obtain ⟨x, hx, hxg⟩ := exists_of_mem_filed hg
    have hxr : layout.computer.partition x = .ok spec := hspec ▸ (hothers x hx).belongs_iff.mp hxg
    have hyf : layout.computer.partition y = .ok f.spec :=
      (hothers y (by simp)).belongs_iff.mp hy
    have hyx : layout.computer.partition y = layout.computer.partition x := by
      rcases List.mem_append.mp hx with hx | hx
      · have hsub : [x, y, r].Sublist (before ++ [y] ++ [r]) :=
          ((List.singleton_sublist.mpr hx).append (.refl [y])).append (.refl [r])
        exact h x y r hsub (hxr.trans hpartition.symm)
      · rw [List.mem_singleton.mp hx]
    rw [hyf, hxr, Except.ok.injEq] at hyx
    exact hne hyx

theorem filedEach_eq_filedEach (base : Allocator) (init : MemoryStore) {batches : List (List ρ)}
    (haccept : ∀ batch ∈ batches, ∀ r ∈ batch, layout.Accepts r)
    (h : ∀ batch ∈ batches, layout.Clustered batch) (past : List (Filed ρ)) :
    (layout.calmDesk .grouped base init).filedEach past batches =
      (layout.calmDesk .dynamic base init).filedEach past batches := by
  induction batches generalizing past with
  | nil => rfl
  | cons batch batches ih =>
    obtain ⟨hfirst, hrest⟩ := List.forall_mem_cons.mp haccept
    obtain ⟨hclustered, hclustereds⟩ := List.forall_mem_cons.mp h
    rw [filedEach, filedEach, filed_eq_filed hfirst hclustered, ih hrest hclustereds]

/-- Whatever batches come before, the files of a batch come behind files in order. -/
theorem exists_filedEach (h : InOrder d past records) {batches : List (List ρ)}
    (hadmits : ∀ batch ∈ batches, ∀ r ∈ batch, d.Admits r) {i : Nat}
    (hi : batches[i]? = some batch) : ∃ past' records', InOrder d past' records' ∧
      (d.filedEach past batches)[i]? = some (d.filed past' batch) := by
  induction batches generalizing past records i with
  | nil => simp at hi
  | cons first batches ih =>
    obtain ⟨hfirst, hrest⟩ := List.forall_mem_cons.mp hadmits
    cases i with
    | zero =>
      rw [List.getElem?_cons_zero, Option.some.injEq] at hi
      subst hi
      exact ⟨past, records, h, rfl⟩
    | succ i => exact ih (inOrder_filed h hfirst) hrest hi

end Desk

/-! ## The records of a partition -/

/-- The records of a partition, in order. -/
def Layout.ofPartition (layout : Layout ρ) (spec : PartitionSpec) (records : List ρ) : List ρ :=
  records.filter fun r ↦ layout.computer.partition r = .ok spec

namespace Desk

variable {layout : Layout ρ} {strategy : Strategy} {base : Allocator} {init : MemoryStore}

/-- One after the other, the files of a partition hold its records. -/
theorem recordsIn_filed (h : InOrder (layout.calmDesk strategy base init) past records)
    (haccept : ∀ r ∈ batch, layout.Accepts r) (spec : PartitionSpec) :
    recordsIn (within spec ((layout.calmDesk strategy base init).filed past batch)) =
      layout.ofPartition spec batch := by
  have hadmits : ∀ r ∈ batch, (layout.calmDesk strategy base init).Admits r :=
    fun r hr ↦ (haccept r hr).admits strategy base init
  rw [(h.behind (inOrder_filed h hadmits) spec).1, Layout.ofPartition]
  refine List.filter_congr fun r hr ↦ ?_
  rw [Bool.eq_iff_iff, (haccept r hr).belongs_iff, decide_eq_true_iff]

/-- A partition without records has no files. -/
theorem within_filed_eq_nil (haccept : ∀ r ∈ batch, layout.Accepts r)
    (hnone : layout.ofPartition spec batch = []) (past : List (Filed ρ)) :
    within spec ((layout.calmDesk strategy base init).filed past batch) = [] := by
  refine Filed.within_eq_nil fun f hf hspec ↦ ?_
  obtain ⟨r, hr, hbelongs⟩ := exists_of_mem_filed hf
  have hpartition : layout.computer.partition r = .ok spec :=
    hspec ▸ (haccept r hr).belongs_iff.mp hbelongs
  have hmem : r ∈ layout.ofPartition spec batch := List.mem_filter.mpr ⟨hr, by simpa⟩
  rw [hnone] at hmem
  exact absurd hmem List.not_mem_nil

/-- A partition with records has one file, if files stay open. -/
theorem within_filed_eq_singleton (h : InOrder (layout.calmDesk .dynamic base init) past records)
    (haccept : ∀ r ∈ batch, layout.Accepts r) (hsome : layout.ofPartition spec batch ≠ []) :
    ∃ f, within spec ((layout.calmDesk .dynamic base init).filed past batch) = [f] ∧
      f.records = layout.ofPartition spec batch := by
  have hrecords := recordsIn_filed h haccept spec
  have hne : within spec ((layout.calmDesk .dynamic base init).filed past batch) ≠ [] := by
    intro hnil
    rw [hnil, Filed.recordsIn_nil] at hrecords
    exact hsome hrecords.symm
  obtain ⟨f, hf⟩ := List.exists_mem_of_ne_nil _ hne
  obtain ⟨hmem, rfl⟩ := Filed.mem_within.mp hf
  have hone := Filed.within_of_nodup (nodup_filed (by simp [Layout.calmDesk]) past batch) hmem
  rw [hone] at hrecords
  exact ⟨f, hone, (List.append_nil _).symm.trans hrecords⟩

end Desk

/-! ## Committables -/

/-- The bytes that wait for a committable in a store. -/
def Committable.waiting? (c : Committable) (s : MemoryStore) : Option ByteArray :=
  match readPath c.token.staging with
  | .ok path => s.get? path
  | .error _ => none

namespace Filed

variable {layout : Layout ρ} {a : Allocator}

theorem waiting?_committable (ha : a.InPlace) (f : Filed ρ) (kind : CloseKind) (s : MemoryStore) :
    (f.committable layout a kind).waiting? s = s.get? (f.slot a).staging := by
  have hread := (ha.written_staging f.spec f.sequence).readPath_text
  rw [Committable.waiting?, staging_committable, slot, hread]

/-- The committables of a partition are those of its files. -/
theorem filter_committables (spec : PartitionSpec) (files : List (Filed ρ)) :
    (files.map fun f ↦ f.committable layout a .commit).filter (·.bucket = spec.bucket) =
      (within spec files).map fun f ↦ f.committable layout a .commit := by
  have hbucket : ∀ f : Filed ρ, (f.committable layout a .commit).bucket = spec.bucket ↔
      f.spec = spec := fun f ↦ PartitionSpec.bucket_injective.eq_iff
  simp only [within, List.filter_map, Function.comp_def, hbucket]

end Filed

/-- What two strategies make of the records of a partition in a batch, with the stores that they
leave: nothing where there are none; otherwise the second strategy has one file for them. If the
encoder does not look at what a file holds, that one holds what the files of the first strategy
hold, one after the other and in the order of their numbers. -/
structure Layout.SplitAgrees (layout : Layout ρ) (a : Allocator) (spec : PartitionSpec)
    (batch : List ρ) (s s' : MemoryStore) (parts wholes : List Committable) : Prop where
  of_none : layout.ofPartition spec batch = [] → parts = [] ∧ wholes = []
  of_some : layout.ofPartition spec batch ≠ [] →
    ∃ (first : Nat) (pieces : List ByteArray) (whole : Committable), wholes = [whole] ∧
      parts.map (·.token.staging) =
        (List.range' first parts.length).map (fun n ↦ (a.slot spec n).staging.text) ∧
      parts.map (·.waiting? s) = pieces.map some ∧
      whole.waiting? s' = some (layout.lines (layout.ofPartition spec batch)) ∧
      (layout.encoder.Oblivious → whole.waiting? s' = some (pieces.foldl (· ++ ·) .empty))

/-- The files of a partition in a batch agree, wherever they are among files in order. -/
theorem Desk.splitAgrees_filed {layout : Layout ρ} {a : Allocator} (ha : a.InPlace)
    {init s s' : MemoryStore} {past past' : List (Filed ρ)} {records records' : List ρ}
    (h : InOrder (layout.calmDesk .grouped a init) past records)
    (h' : InOrder (layout.calmDesk .dynamic a init) past' records')
    (haccept : ∀ r ∈ batch, layout.Accepts r)
    (hstaged : ∀ f ∈ (layout.calmDesk .grouped a init).filed past batch,
      s.get? (f.slot a).staging = some (f.bytes layout))
    (hstaged' : ∀ f ∈ (layout.calmDesk .dynamic a init).filed past' batch,
      s'.get? (f.slot a).staging = some (f.bytes layout)) (spec : PartitionSpec) :
    layout.SplitAgrees a spec batch s s'
      ((((layout.calmDesk .grouped a init).filed past batch).map
        fun f ↦ f.committable layout a .commit).filter (·.bucket = spec.bucket))
      ((((layout.calmDesk .dynamic a init).filed past' batch).map
        fun f ↦ f.committable layout a .commit).filter (·.bucket = spec.bucket)) := by
  rw [Filed.filter_committables, Filed.filter_committables]
  constructor
  · intro hnone
    rw [within_filed_eq_nil haccept hnone, within_filed_eq_nil haccept hnone]
    exact ⟨rfl, rfl⟩
  · intro hsome
    obtain ⟨whole, hwhole, hrecords⟩ := within_filed_eq_singleton h' haccept hsome
    have hmem : whole ∈ within spec ((layout.calmDesk .dynamic a init).filed past' batch) :=
      hwhole ▸ List.mem_singleton_self whole
    have hadmits : ∀ r ∈ batch, (layout.calmDesk .grouped a init).Admits r :=
      fun r hr ↦ (haccept r hr).admits .grouped a init
    have hsequences := (h.behind (inOrder_filed h hadmits) spec).2
    have hbytes : (whole.committable layout a .commit).waiting? s' =
        some (layout.lines (layout.ofPartition spec batch)) := by
      rw [Filed.waiting?_committable ha, hstaged' whole (Filed.mem_within.mp hmem).1, Filed.bytes,
        hrecords]
    refine ⟨(within spec past).length,
      (within spec ((layout.calmDesk .grouped a init).filed past batch)).map (Filed.bytes layout),
      whole.committable layout a .commit, ?_, ?_, ?_, hbytes, fun hencoder ↦ ?_⟩
    · rw [hwhole, List.map_singleton]
    · rw [List.length_map, ← hsequences, List.map_map, List.map_map]
      refine List.map_congr_left fun f hf ↦ ?_
      rw [Function.comp_apply, Filed.staging_committable, Filed.slot, (Filed.mem_within.mp hf).2]
      rfl
    · rw [List.map_map, List.map_map]
      refine List.map_congr_left fun f hf ↦ ?_
      rw [Function.comp_apply, Filed.waiting?_committable ha, hstaged f (Filed.mem_within.mp hf).1]
      rfl
    · rw [hbytes, Filed.foldl_bytes hencoder, recordsIn_filed h haccept]

namespace Writer

variable {stagingDir run : String} {attempt : Attempt} {naming : FileNaming} {strategy : Strategy}
variable {layout : Layout ρ} {s : MemoryStore}

theorem filing_new (hstrategy : strategy ≠ .single) (layout : Layout ρ) (s : MemoryStore) :
    (new strategy (.new stagingDir attempt naming run) []).Filing
      (layout.calmDesk strategy (.new stagingDir attempt naming run) s) [] [] [] s {} where
  at_desk := by
    cases strategy with
    | single => exact absurd rfl hstrategy
    | grouped | dynamic => exact ⟨rfl, rfl⟩
  tracks := by
    have htracks := Books.tracks_empty
      (d := layout.calmDesk strategy (.new stagingDir attempt naming run) s) rfl
    cases strategy <;> exact htracks
  idle := ⟨rfl, rfl, rfl⟩
  kept := rfl
  closed := by cases strategy <;> rfl
  opened := by cases strategy <;> rfl
  inOrder := .nil _

/-- A new writer is given batches on a store in memory. It is not unfolded where its results are
compared. -/
@[irreducible] def runBatches (layout : Layout ρ) (strategy : Strategy) (a : Allocator)
    (s : MemoryStore) (batches : List (List ρ)) :
    Task.Outcome MemoryStore (Writer × Except WriteError (List (List Committable))) :=
  ((new strategy a []).writeBatches layout batches).run MemoryStore.answer s

/-- A new writer that is given batches on a store where nothing goes wrong: its committables are
those of the files of each batch, their bytes are staged, and nothing else has changed. -/
theorem runBatches_filed (strategy : Strategy) (stagingDir : String) (attempt : Attempt)
    (naming : FileNaming) (run : String) (s : MemoryStore) (hstrategy : strategy ≠ .single)
    {batches : List (List ρ)}
    (haccept : ∀ batch ∈ batches, ∀ r ∈ batch, layout.Accepts r) :
    let a := Allocator.new stagingDir attempt naming run
    let files := (layout.calmDesk strategy a s).filedEach [] batches
    let outcome := runBatches layout strategy a s batches
    outcome.value.2 = .ok (files.map (·.map fun f ↦ f.committable layout a .commit)) ∧
      (∀ f ∈ files.flatten, outcome.state.get? (f.slot a).staging = some (f.bytes layout)) ∧
      ∀ p, (∀ f ∈ files.flatten, p ≠ (f.slot a).staging) → outcome.state.get? p = s.get? p := by
  intro a files outcome
  have hadmits : ∀ batch ∈ batches, ∀ r ∈ batch, (layout.calmDesk strategy a s).Admits r :=
    fun batch hbatch r hr ↦ (haccept batch hbatch r hr).admits strategy a s
  have hcalm : (layout.calmDesk strategy a s).Calm := fun _ hm ↦ hm
  have honly : ∀ m, (layout.calmDesk strategy a s).mishaps m → m = .refusal :=
    fun m hm ↦ absurd hm (hcalm m)
  have hends := Task.ends_answer ((new strategy a []).writeBatches layout batches) s
  rw [← runBatches] at hends
  obtain ⟨hvalue, b, hfiling⟩ := (filing_new hstrategy layout s).writeBatches hcalm hadmits hends
  rw [List.nil_append] at hfiling
  have hnone : b.closed = [] := by
    rw [hfiling.closed]
    cases strategy <;> rfl
  refine ⟨hvalue, ?_, ?_⟩
  · intro f hf
    exact (hfiling.tracks.staged honly (hfiling.kept ▸ hf)).1
  · intro p hp
    refine hfiling.tracks.get?_eq ⟨hfiling.idle.1, hnone, hfiling.idle.2.1⟩ honly fun f hf ↦ ?_
    exact hp f (hfiling.kept ▸ hf)

/-- Two writers that start alike and get the same batches: one has one file open at a time, the
other one for every partition. Both take all records. If every batch is clustered, they give the
same committables and leave the same store. In any case the files of each partition agree, batch by
batch, and where the encoder does not look at what a file holds, they hold the same bytes. -/
theorem strategies_agree (layout : Layout ρ) (stagingDir : String) (attempt : Attempt)
    (naming : FileNaming) (run : String) (s : MemoryStore) (batches : List (List ρ))
    (haccept : ∀ batch ∈ batches, ∀ r ∈ batch, layout.Accepts r) :
    let a := Allocator.new stagingDir attempt naming run
    let grouped := runBatches layout .grouped a s batches
    let dynamic := runBatches layout .dynamic a s batches
    ∃ gs ds, grouped.value.2 = .ok gs ∧ dynamic.value.2 = .ok ds ∧
      gs.length = batches.length ∧ ds.length = batches.length ∧
      ((∀ batch ∈ batches, layout.Clustered batch) →
        gs = ds ∧ ∀ p, grouped.state.get? p = dynamic.state.get? p) ∧
      ∀ (i : Nat) (batch : List ρ) (g d : List Committable), batches[i]? = some batch →
        gs[i]? = some g → ds[i]? = some d → ∀ spec : PartitionSpec,
          layout.SplitAgrees a spec batch grouped.state dynamic.state
            (g.filter (·.bucket = spec.bucket)) (d.filter (·.bucket = spec.bucket)) := by
  intro a grouped dynamic
  obtain ⟨hgs, hgstaged, hgelse⟩ :=
    runBatches_filed .grouped stagingDir attempt naming run s nofun haccept
  obtain ⟨hds, hdstaged, hdelse⟩ :=
    runBatches_filed .dynamic stagingDir attempt naming run s nofun haccept
  refine ⟨_, _, hgs, hds, ?_, ?_, ?_, ?_⟩
  · rw [List.length_map, Desk.length_filedEach]
  · rw [List.length_map, Desk.length_filedEach]
  · intro hclustered
    have hsame := Desk.filedEach_eq_filedEach a s haccept hclustered []
    rw [← hsame] at hdstaged hdelse ⊢
    refine ⟨rfl, fun p ↦ ?_⟩
    by_cases hp : ∀ f ∈ ((layout.calmDesk .grouped a s).filedEach [] batches).flatten,
        p ≠ (f.slot a).staging
    · exact (hgelse p hp).trans (hdelse p hp).symm
    · push Not at hp
      obtain ⟨f, hf, rfl⟩ := hp
      exact (hgstaged f hf).trans (hdstaged f hf).symm
  · intro i batch g d hi hg hd spec
    obtain ⟨past, records, hinOrder, hfiled⟩ := Desk.exists_filedEach (.nil _)
      (fun batch hbatch r hr ↦ (haccept batch hbatch r hr).admits .grouped a s) hi
    obtain ⟨past', records', hinOrder', hfiled'⟩ := Desk.exists_filedEach (.nil _)
      (fun batch hbatch r hr ↦ (haccept batch hbatch r hr).admits .dynamic a s) hi
    rw [List.getElem?_map, hfiled, Option.map_some, Option.some.injEq] at hg
    rw [List.getElem?_map, hfiled', Option.map_some, Option.some.injEq] at hd
    subst hg hd
    exact Desk.splitAgrees_filed (Allocator.inPlace_new _ _ _ _) hinOrder hinOrder'
      (haccept batch (List.mem_of_getElem? hi))
      (fun f hf ↦ hgstaged f (List.mem_flatten.mpr ⟨_, List.mem_of_getElem? hfiled, hf⟩))
      (fun f hf ↦ hdstaged f (List.mem_flatten.mpr ⟨_, List.mem_of_getElem? hfiled', hf⟩)) spec

/-- Two clustered batches, of which the second comes back to a partition of the first, and a batch
in which a partition comes back. -/
theorem strategies_agree_on_returning_partition :
    let layout : Layout String := ⟨⟨fun r ↦ .ok [("p", r)], .ok⟩, fun r _ ↦ (r.toUTF8, .ok ())⟩
    let a := Allocator.new "_staging" ⟨0, 0⟩ {} "r"
    let clustered := [["a", "a", "b"], ["b", "a"]]
    let unclustered := [["a", "b", "a"]]
    (∃ cs, (runBatches layout .grouped a .empty clustered).value.2 = .ok cs ∧
        (runBatches layout .dynamic a .empty clustered).value.2 = .ok cs ∧
        cs.map List.length = [2, 2] ∧
        ∀ p, (runBatches layout .grouped a .empty clustered).state.get? p =
          (runBatches layout .dynamic a .empty clustered).state.get? p) ∧
      ∃ gs ds, (runBatches layout .grouped a .empty unclustered).value.2 = .ok gs ∧
        (runBatches layout .dynamic a .empty unclustered).value.2 = .ok ds ∧
        gs.map List.length = [3] ∧ ds.map List.length = [2] ∧
        ∀ g d, gs[0]? = some g → ds[0]? = some d → ∀ spec : PartitionSpec,
          layout.SplitAgrees a spec ["a", "b", "a"]
            (runBatches layout .grouped a .empty unclustered).state
            (runBatches layout .dynamic a .empty unclustered).state
            (g.filter (·.bucket = spec.bucket)) (d.filter (·.bucket = spec.bucket)) := by
  intro layout a clustered unclustered
  have haccept : ∀ r, layout.Accepts r := fun r ↦ ⟨[("p", r)], r, rfl, rfl, fun _ ↦ rfl⟩
  constructor
  · have hclustered : ∀ batch ∈ clustered, layout.Clustered batch := by
      intro batch hbatch x y z hsub
      rcases List.mem_pair.mp hbatch with rfl | rfl
      · obtain ⟨rfl, rfl, rfl⟩ : x = "a" ∧ y = "a" ∧ z = "b" := by
          simpa using hsub.eq_of_length rfl
        exact fun _ ↦ rfl
      · exact absurd hsub.length_le (by simp)
    have hcounts : (runBatches layout .grouped a .empty clustered).value.2.map
        (·.map List.length) = .ok [2, 2] := by decide +kernel
    obtain ⟨gs, ds, hgs, hds, -, -, hsame, -⟩ := strategies_agree layout "_staging" ⟨0, 0⟩ {} "r"
      .empty clustered fun _ _ r _ ↦ haccept r
    obtain ⟨rfl, hstores⟩ := hsame hclustered
    rw [hgs] at hcounts
    exact ⟨gs, hgs, hds, Except.ok.inj hcounts, hstores⟩
  · have hgcounts : (runBatches layout .grouped a .empty unclustered).value.2.map
        (·.map List.length) = .ok [3] := by decide +kernel
    have hdcounts : (runBatches layout .dynamic a .empty unclustered).value.2.map
        (·.map List.length) = .ok [2] := by decide +kernel
    obtain ⟨gs, ds, hgs, hds, -, -, -, hsplit⟩ := strategies_agree layout "_staging" ⟨0, 0⟩ {} "r"
      .empty unclustered fun _ _ r _ ↦ haccept r
    rw [hgs] at hgcounts
    rw [hds] at hdcounts
    exact ⟨gs, ds, hgs, hds, Except.ok.inj hgcounts, Except.ok.inj hdcounts,
      fun g d hg hd spec ↦ hsplit 0 _ g d rfl hg hd spec⟩

/-- The strategies need not agree where the encoder looks at what the file holds: here it begins
every file with a sign of its own. Nor need they where it fails on a record: the file that the
record was for is given up, and that is not the same file for both. -/
theorem strategies_differ :
    let a := Allocator.new "_staging" ⟨0, 0⟩ {} "r"
    let waiting (s : MemoryStore) (cs : List Committable) :=
      (cs.filter (·.bucket = "p=a")).map (·.waiting? s)
    let header : Layout String := ⟨⟨fun r ↦ .ok [("p", r)], .ok⟩, fun r buffer ↦
      (((if buffer.isEmpty then "#" else "") ++ r).toUTF8, .ok ())⟩
    let grouped := runBatches header .grouped a .empty [["a", "b", "a"]]
    let dynamic := runBatches header .dynamic a .empty [["a", "b", "a"]]
    let partly : Layout String := ⟨⟨fun r ↦ .ok [("p", (r.take 1).toString)], .ok⟩, fun r _ ↦
      (r.toUTF8, if r = "a2" then .error .mismatch else .ok ())⟩
    let closed (strategy : Strategy) := (do
      let (w, _) ← (new strategy a []).writeEach partly ["a1", "b1", "a2"]
      let (w, _) ← w.close .commit
      return w.closed : Task (List Committable)).run MemoryStore.answer .empty
    ((∀ r, header.Accepts r) ∧
      grouped.value.2.map (·.map (waiting grouped.state)) =
        .ok [[some "#a".toUTF8, some "#a".toUTF8]] ∧
      dynamic.value.2.map (·.map (waiting dynamic.state)) = .ok [[some "#aa".toUTF8]]) ∧
      waiting (closed .grouped).state (closed .grouped).value = [some "a1".toUTF8] ∧
      waiting (closed .dynamic).state (closed .dynamic).value = [] := by
  intro a waiting header grouped dynamic partly closed
  refine ⟨⟨fun r ↦ ⟨[("p", r)], r, rfl, rfl, fun _ ↦ rfl⟩, ?_, ?_⟩, ?_, ?_⟩
  · decide +kernel
  · decide +kernel
  · decide +kernel
  · decide +kernel

end Writer

end TableSink
