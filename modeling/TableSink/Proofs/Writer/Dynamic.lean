import TableSink.Proofs.Writer.Pieces
import TableSink.Proofs.Writer.Registry

/-!
# A batch of a dynamic writer

What a writer with a file for every partition makes of records since a boundary, when any of them
may have no place or not be encoded. A file that is open holds the survivors of its partition
(`Layout.survivors`), and a record is encoded behind them. A record that cannot be encoded takes the
open file of its partition away, so the next one begins another file, with the next number.

`ManyFiles.Serves` says so of the open files and of the numbers that were handed out. Every write
keeps it, whichever of the five things it does (`Serves.wrote`), hence a whole batch does
(`Writer.serves_writeEach`), and closing gives one committable for every file that is left.
-/

namespace TableSink

variable {σ ρ : Type} {layout : Layout ρ} {spec : PartitionSpec} {record projected : ρ}

namespace ManyFiles

/-- The open files are those that the records since a boundary call for. Files were asked for in
these partitions before (`history`) and after the boundary (`begun`), whatever became of them. -/
structure Serves (layout : Layout ρ) (base : Allocator) (history : List PartitionSpec)
    (told : List (ρ × Bool)) (a : Allocator) (files : List (Filed ρ)) (begun : List PartitionSpec) :
    Prop where
  encodes : layout.Told layout.survivors told
  allocator : a = base.after (history ++ begun)
  holds : ∀ f ∈ files, f.records = layout.survivors f.spec told
  open_iff : ∀ spec, (∃ f ∈ files, f.spec = spec) ↔ layout.survivors spec told ≠ []
  sequence : ∀ f ∈ files, f.sequence + 1 = (history ++ begun).count f.spec
  pieces : ∀ spec, begun.count spec = (layout.pieces spec told).length
  order : files.Pairwise fun f g ↦
    (layout.since g.spec told).length < (layout.since f.spec told).length

namespace Serves

variable {base a : Allocator} {history begun : List PartitionSpec} {told : List (ρ × Bool)}
variable {files : List (Filed ρ)} {written : Bool}

/-- Before the first record. -/
theorem nil (layout : Layout ρ) (base : Allocator) (history : List PartitionSpec) :
    Serves layout base history [] (base.after history) [] [] where
  encodes := layout.told_nil _
  allocator := by rw [List.append_nil]
  holds := by simp
  open_iff := by simp [Layout.survivors, Layout.recordsOf]
  sequence := by simp
  pieces := by simp [Layout.pieces, Layout.recordsOf]
  order := .nil

section Parts

variable (h : Serves layout base history told a files begun)
include h

/-- Files that go on stay in the order in which they were opened. -/
theorem order_concat {kept : List (Filed ρ)} (hkept : kept.Sublist files)
    (hgoes : ∀ f ∈ kept, layout.partition? record ≠ some f.spec ∨ written = true) :
    kept.Pairwise fun f g ↦ (layout.since g.spec (told ++ [(record, written)])).length <
      (layout.since f.spec (told ++ [(record, written)])).length := by
  have hsince : ∀ f ∈ kept, layout.since f.spec (told ++ [(record, written)]) =
      layout.since f.spec told ++ [(record, written)] := fun f hf ↦
    Layout.since_concat ((h.open_iff _).mp ⟨f, hkept.subset hf, rfl⟩) (hgoes f hf)
  refine (h.order.sublist hkept).imp_of_mem fun {f g} hf hg hlt ↦ ?_
  rw [hsince f hf, hsince g hg]
  simpa using hlt

/-- The number that the next file of a partition gets. -/
theorem count_eq (hbase : ∀ bucket, base.count bucket = 0) (spec : PartitionSpec) :
    a.count spec.bucket = (history ++ begun).count spec := by
  rw [h.allocator, Allocator.count_after, hbase, Nat.zero_add]

theorem survivors_eq_nil (hnone : ∀ f ∈ files, f.spec ≠ spec) :
    layout.survivors spec told = [] := by
  by_contra hsome
  obtain ⟨f, hf, hspec⟩ := (h.open_iff spec).mpr hsome
  exact hnone f hf hspec

/-- What is held of a partition are its survivors. -/
theorem held_eq (hdistinct : (files.map Filed.spec).Nodup) (spec : PartitionSpec) :
    Filed.held files spec = layout.survivors spec told := by
  by_cases hopen : ∃ f ∈ files, f.spec = spec
  · obtain ⟨f, hf, rfl⟩ := hopen
    rw [Filed.held_of_mem hdistinct hf, h.holds f hf]
  · have hnone : ∀ f ∈ files, f.spec ≠ spec := by simpa using hopen
    rw [Filed.held_of_forall_ne hnone, h.survivors_eq_nil hnone]

theorem allocator_concat (spec : PartitionSpec) :
    a.bump spec.bucket = base.after (history ++ (begun ++ [spec])) := by
  rw [← List.append_assoc, Allocator.after_concat, h.allocator]

/-- Other partitions do not notice that a file is begun. -/
theorem sequence_concat {f : Filed ρ} (hf : f ∈ files) (hspec : f.spec ≠ spec) :
    f.sequence + 1 = (history ++ (begun ++ [spec])).count f.spec := by
  rw [← List.append_assoc, List.count_append, List.count_singleton,
    if_neg (by simpa using Ne.symm hspec), h.sequence f hf, Nat.add_zero]

/-- A record of a partition with an open file begins no piece. -/
theorem pieces_of_open (hrecord : layout.partition? record = some spec)
    (hopen : ∃ f ∈ files, f.spec = spec) (spec' : PartitionSpec) :
    begun.count spec' = (layout.pieces spec' (told ++ [(record, written)])).length := by
  rw [h.pieces]
  by_cases hspec : spec' = spec
  · subst hspec
    rw [Layout.length_pieces_concat hrecord, if_neg ((h.open_iff spec').mp hopen), Nat.add_zero]
  · rw [Layout.pieces_concat_of_ne (Layout.partition?_ne hrecord hspec)]

/-- A record of a partition without one begins a piece. -/
theorem pieces_of_new (hrecord : layout.partition? record = some spec)
    (hnone : ∀ f ∈ files, f.spec ≠ spec) (spec' : PartitionSpec) :
    (begun ++ [spec]).count spec' = (layout.pieces spec' (told ++ [(record, written)])).length := by
  rw [List.count_append, h.pieces]
  by_cases hspec : spec' = spec
  · subst hspec
    rw [List.count_singleton_self, Layout.length_pieces_concat hrecord,
      if_pos (h.survivors_eq_nil hnone)]
  · rw [List.count_singleton, if_neg (by simpa using Ne.symm hspec),
      Layout.pieces_concat_of_ne (Layout.partition?_ne hrecord hspec), Nat.add_zero]

end Parts

/-- The record has no place. -/
theorem rejected (h : Serves layout base history told a files begun)
    (hencodes : layout.Told layout.survivors (told ++ [(record, false)]))
    (hrecord : layout.partition? record = none) :
    Serves layout base history (told ++ [(record, false)]) a files begun := by
  have hne : ∀ spec, layout.partition? record ≠ some spec := by simp [hrecord]
  refine ⟨hencodes, h.allocator, fun f hf ↦ ?_, fun spec ↦ ?_, h.sequence, fun spec ↦ ?_,
    h.order_concat (List.Sublist.refl _) fun f _ ↦ .inl (hne f.spec)⟩
  · rw [Layout.survivors_concat_of_ne (hne _), h.holds f hf]
  · rw [Layout.survivors_concat_of_ne (hne _), h.open_iff]
  · rw [Layout.pieces_concat_of_ne (hne _), h.pieces]

/-- The record goes to the open file of its partition. -/
theorem added (h : Serves layout base history told a files begun)
    (hencodes : layout.Told layout.survivors (told ++ [(record, true)]))
    (hrecord : layout.partition? record = some spec) (hopen : ∃ f ∈ files, f.spec = spec) :
    Serves layout base history (told ++ [(record, true)]) a
      (files.map fun f ↦ if f.spec = spec then f.add record else f) begun := by
  refine ⟨hencodes, h.allocator, fun f' hf' ↦ ?_, fun spec' ↦ ?_, fun f' hf' ↦ ?_,
    h.pieces_of_open hrecord hopen, ?_⟩
  · obtain ⟨f, hf, rfl⟩ := List.mem_map.mp hf'
    rw [Filed.spec_addTo]
    by_cases hspec : f.spec = spec
    · rw [if_pos hspec, hspec, Layout.survivors_concat_of_written hrecord, ← hspec,
        ← h.holds f hf]
      rfl
    · rw [if_neg hspec, Layout.survivors_concat_of_ne (Layout.partition?_ne hrecord hspec),
        h.holds f hf]
  · have hsame : (∃ f ∈ files.map fun f ↦ if f.spec = spec then f.add record else f,
        f.spec = spec') ↔ ∃ f ∈ files, f.spec = spec' := by simp [Filed.spec_addTo]
    rw [hsame]
    by_cases hspec : spec' = spec
    · subst hspec
      rw [Layout.survivors_concat_of_written hrecord]
      simpa using hopen
    · rw [Layout.survivors_concat_of_ne (Layout.partition?_ne hrecord hspec), h.open_iff]
  · obtain ⟨f, hf, rfl⟩ := List.mem_map.mp hf'
    rw [Filed.spec_addTo, Filed.sequence_addTo, h.sequence f hf]
  · simp only [List.pairwise_map, Filed.spec_addTo]
    exact h.order_concat (List.Sublist.refl _) fun _ _ ↦ .inr rfl

/-- The record goes to a new file. -/
theorem started (h : Serves layout base history told a files begun)
    (hbase : ∀ bucket, base.count bucket = 0)
    (hencodes : layout.Told layout.survivors (told ++ [(record, true)]))
    (hrecord : layout.partition? record = some spec) (hnone : ∀ f ∈ files, f.spec ≠ spec) :
    Serves layout base history (told ++ [(record, true)]) (a.bump spec.bucket)
      (files ++ [⟨spec, a.count spec.bucket, [record]⟩]) (begun ++ [spec]) := by
  have hnil := h.survivors_eq_nil hnone
  refine ⟨hencodes, h.allocator_concat spec, fun f hf ↦ ?_, fun spec' ↦ ?_, fun f hf ↦ ?_,
    h.pieces_of_new hrecord hnone, ?_⟩
  · rcases List.mem_append.mp hf with hf | hf
    · rw [Layout.survivors_concat_of_ne (Layout.partition?_ne hrecord (hnone f hf)), h.holds f hf]
    · obtain rfl := List.mem_singleton.mp hf
      rw [Layout.survivors_concat_of_written hrecord, hnil]
      rfl
  · by_cases hspec : spec' = spec
    · subst hspec
      simp [Layout.survivors_concat_of_written hrecord]
    · rw [Layout.survivors_concat_of_ne (Layout.partition?_ne hrecord hspec), ← h.open_iff]
      simp [Ne.symm hspec]
  · rcases List.mem_append.mp hf with hf | hf
    · exact h.sequence_concat hf (hnone f hf)
    · obtain rfl := List.mem_singleton.mp hf
      rw [← List.append_assoc, List.count_append, List.count_singleton_self, h.count_eq hbase]
  · refine List.pairwise_append.mpr
      ⟨h.order_concat (List.Sublist.refl _) fun _ _ ↦ .inr rfl, by simp, ?_⟩
    intro f hf g hg
    obtain rfl := List.mem_singleton.mp hg
    have hsome := (h.open_iff _).mp ⟨f, hf, rfl⟩
    have hlong : 0 < (layout.since f.spec told).length :=
      List.length_pos_iff.mpr (mt Layout.since_eq_nil_iff.mp hsome)
    rw [Layout.since_concat hsome (.inr rfl), Layout.since_concat_of_written hrecord,
      Layout.since_eq_nil_iff.mpr hnil]
    simpa using hlong

/-- The open file of the partition is given up. -/
theorem spoiled (h : Serves layout base history told a files begun)
    (hencodes : layout.Told layout.survivors (told ++ [(record, false)]))
    (hrecord : layout.partition? record = some spec) (hopen : ∃ f ∈ files, f.spec = spec) :
    Serves layout base history (told ++ [(record, false)]) a (files.filter (·.spec ≠ spec))
      begun := by
  have hkept : ∀ f ∈ files.filter (·.spec ≠ spec), f ∈ files ∧ f.spec ≠ spec := by simp
  refine ⟨hencodes, h.allocator, fun f hf ↦ ?_, fun spec' ↦ ?_,
    fun f hf ↦ h.sequence f (hkept f hf).1, h.pieces_of_open hrecord hopen,
    h.order_concat List.filter_sublist fun f hf ↦
      .inl (Layout.partition?_ne hrecord (hkept f hf).2)⟩
  · obtain ⟨hf, hspec⟩ := hkept f hf
    rw [Layout.survivors_concat_of_ne (Layout.partition?_ne hrecord hspec), h.holds f hf]
  · by_cases hspec : spec' = spec
    · subst hspec
      simp [Layout.survivors_concat_of_not_written hrecord]
    · rw [Layout.survivors_concat_of_ne (Layout.partition?_ne hrecord hspec), ← h.open_iff]
      refine exists_congr fun f ↦ and_congr_left fun hf ↦ ?_
      simp [hf, hspec]

/-- A new file is given up at once. -/
theorem wasted (h : Serves layout base history told a files begun)
    (hencodes : layout.Told layout.survivors (told ++ [(record, false)]))
    (hrecord : layout.partition? record = some spec) (hnone : ∀ f ∈ files, f.spec ≠ spec) :
    Serves layout base history (told ++ [(record, false)]) (a.bump spec.bucket) files
      (begun ++ [spec]) := by
  refine ⟨hencodes, h.allocator_concat spec, fun f hf ↦ ?_, fun spec' ↦ ?_,
    fun f hf ↦ h.sequence_concat hf (hnone f hf), h.pieces_of_new hrecord hnone,
    h.order_concat (List.Sublist.refl _) fun f hf ↦
      .inl (Layout.partition?_ne hrecord (hnone f hf))⟩
  · rw [Layout.survivors_concat_of_ne (Layout.partition?_ne hrecord (hnone f hf)), h.holds f hf]
  · by_cases hspec : spec' = spec
    · subst hspec
      rw [Layout.survivors_concat_of_not_written hrecord, h.open_iff, h.survivors_eq_nil hnone]
    · rw [Layout.survivors_concat_of_ne (Layout.partition?_ne hrecord hspec), h.open_iff]

/-- Whatever a write does, the open files are those that the records call for. -/
theorem wrote (h : Serves layout base history told a files begun)
    (hdistinct : (files.map Filed.spec).Nodup) (hbase : ∀ bucket, base.count bucket = 0)
    {files' : List (Filed ρ)} {a' : Allocator} {result : Except WriteError Unit}
    (hwrote : Wrote layout a files record files' a' result) :
    ∃ begun', Serves layout base history (told ++ [(record, result.isOk)]) a' files' begun' := by
  have hencoded : ∀ {spec : PartitionSpec} {projected : ρ},
      layout.place none record = .ok (spec, projected) →
      (layout.encoder projected (layout.lines (Filed.held files spec))).2 = .ok () →
      layout.Told layout.survivors (told ++ [(record, true)]) := by
    intro spec projected hplace hencode
    rw [h.held_eq hdistinct] at hencode
    exact h.encodes.concat (iff_of_true rfl ⟨spec, projected, hplace, hencode⟩)
  have hfaulty : ∀ {spec : PartitionSpec} {projected : ρ} {fault : Json.Fault},
      layout.place none record = .ok (spec, projected) →
      (layout.encoder projected (layout.lines (Filed.held files spec))).2 = .error fault →
      layout.Told layout.survivors (told ++ [(record, false)]) := by
    intro spec projected fault hplace hencode
    rw [h.held_eq hdistinct] at hencode
    exact h.encodes.concat
      (iff_of_false Bool.false_ne_true (Layout.not_encodes_of_error hplace hencode))
  cases hwrote with
  | rejected hplace =>
    exact ⟨begun, h.rejected (h.encodes.concat
      (iff_of_false Bool.false_ne_true (Layout.not_encodes_of_rejected hplace)))
      (Layout.partition?_of_rejected hplace)⟩
  | added hplace hencode hopen =>
    exact ⟨begun, h.added (hencoded hplace hencode) (Layout.partition?_of_place hplace) hopen⟩
  | started hplace hencode hnone =>
    exact ⟨_, h.started hbase (hencoded hplace hencode) (Layout.partition?_of_place hplace) hnone⟩
  | spoiled hplace hencode hopen =>
    exact ⟨begun, h.spoiled (hfaulty hplace hencode) (Layout.partition?_of_place hplace) hopen⟩
  | wasted hplace hencode hnone =>
    exact ⟨_, h.wasted (hfaulty hplace hencode) (Layout.partition?_of_place hplace) hnone⟩

end Serves

end ManyFiles

namespace Writer

variable {answer : (r : Request) → σ → r.Reply × σ} {get? : σ → ObjectPath → Option ByteArray}

/-- Writing records since a boundary asks nothing of a store. What is open then is what the records
call for. -/
theorem serves_writeEach (answer : (r : Request) → σ → r.Reply × σ) (layout : Layout ρ)
    {base : Allocator} (hbase : ∀ bucket, base.count bucket = 0) (history : List PartitionSpec)
    (closed : List Committable) (records : List ρ) (s : σ) :
    let writing := (dynamic ⟨base.after history, [], closed⟩).writeEach layout records
    let written := writing.run answer s
    written.state = s ∧ written.value.2.length = records.length ∧
      ∃ m files begun, written.value.1 = .dynamic m ∧ m.closed = closed ∧ m.Holds layout files ∧
        ManyFiles.Serves layout base history (records.zip (written.value.2.map Except.isOk))
          m.allocator files begun := by
  let replies : Replying σ := fun r s reply s' ↦ (reply, s') = answer r s
  have hanswer : ∀ r s, replies r s (answer r s).1 (answer r s).2 := fun _ _ ↦ rfl
  let inv (told : List (ρ × Bool)) (w : Writer) (s' : σ) : Prop := s' = s ∧
    ∃ m files begun, w = .dynamic m ∧ m.closed = closed ∧ m.Holds layout files ∧
      ManyFiles.Serves layout base history told m.allocator files begun
  have hstart : inv [] (.dynamic ⟨base.after history, [], closed⟩) s :=
    ⟨rfl, _, [], [], rfl, rfl, ⟨rfl, List.nodup_nil⟩, .nil layout base history⟩
  have hgood : ∀ x ∈ ((dynamic ⟨base.after history, [], closed⟩).writeEach layout
      records).exchanges answer s, True := fun _ _ ↦ trivial
  have hstep : ∀ told record w s', inv told w s' →
      (∀ x ∈ (w.write layout record).exchanges answer s', True) →
      let after := (w.write layout record).run answer s'
      inv (told ++ [(record, after.value.2.isOk)]) after.value.1 after.state := by
    rintro told record _ s' ⟨hstate, m, files, begun, rfl, hclosed, hm, hserves⟩ - after
    have hends := Task.ends_run answer hanswer ((dynamic m).write layout record) s'
    obtain ⟨m', hm', hwrite⟩ := (Task.ends_wrap Writer.dynamic).mp hends
    obtain ⟨hstate', hclosed', files', hholds', hwrote⟩ := hm.write hwrite
    obtain ⟨begun', hserves'⟩ := hserves.wrote hm.distinct hbase hwrote
    exact ⟨hstate'.trans hstate, m', files', begun', hm', hclosed'.trans hclosed, hholds',
      hserves'⟩
  obtain ⟨hlength, hstate, hserves⟩ := writeEach_induction hstep hstart hgood
  exact ⟨hstate, hlength, hserves⟩

/-- Records are written since a boundary, and then the writer is closed, where all files can be put.
A write succeeds if its record has a place and can be encoded behind the survivors of its partition.
The partitions with survivors have one open file each, and get one committable each, in the order in
which these files were opened. A file holds the survivors of its partition. Its number is how often
a file of the partition was begun before, ever since the first one; since the boundary that happened
once for each piece. -/
theorem survivors_staged (layout : Layout ρ) (stagingDir run : String) (attempt : Attempt)
    (naming : FileNaming) (history : List PartitionSpec) (closed : List Committable)
    (records : List ρ) (hput : PutsWhole answer get?) (s : σ) :
    let base := Allocator.new stagingDir attempt naming run
    let writing := (dynamic ⟨base.after history, [], closed⟩).writeEach layout records
    let written := writing.run answer s
    let closing := written.value.1.close .commit
    let after := closing.run answer written.state
    let told := records.zip (written.value.2.map Except.isOk)
    (∀ x ∈ closing.exchanges answer written.state, x.1.succeeded x.2 = true) →
    ∃ (files : List (Filed ρ)) (begun : List PartitionSpec),
      written.value.2.length = records.length ∧ layout.Told layout.survivors told ∧
      written.value.1.opened = files.map (Filed.openFile layout base) ∧
      after.value = (.dynamic ⟨base.after (history ++ begun), [],
        closed ++ files.map fun f ↦ f.committable layout base .commit⟩, .ok ()) ∧
      (files.map Filed.spec).Nodup ∧
      (∀ spec, (∃ f ∈ files, f.spec = spec) ↔ layout.survivors spec told ≠ []) ∧
      (∀ f ∈ files, f.records = layout.survivors f.spec told) ∧
      (files.Pairwise fun f g ↦
        (layout.since g.spec told).length < (layout.since f.spec told).length) ∧
      (∀ f ∈ files, f.sequence + 1 = (history ++ begun).count f.spec) ∧
      (∀ spec, begun.count spec = (layout.pieces spec told).length) ∧
      (∀ f ∈ files, get? after.state (f.slot base).staging = some (f.bytes layout)) ∧
      ∀ q, (∀ f ∈ files, q ≠ (f.slot base).staging) → get? after.state q = get? s q := by
  intro base writing written closing after told hok
  have hbase : ∀ bucket, base.count bucket = 0 := fun _ ↦ rfl
  obtain ⟨hstate, hlength, m, files, begun, hwritten, rfl, hm, hserves⟩ :=
    serves_writeEach answer layout hbase history closed records s
  have hslot : m.allocator.slot = base.slot := by rw [hserves.allocator, Allocator.slot_after]
  have hopened : m.opened = files.map (Filed.openFile layout base) := by
    rw [hm.opened]
    exact List.map_congr_left fun f _ ↦ by simp only [Filed.openFile, Filed.slot, hslot]
  have hclosing : closing = (dynamic m).close .commit := congrArg (·.close .commit) hwritten
  obtain ⟨tries, htried, htries, hexchanges, hvalue⟩ :=
    run_close_dynamic answer .commit m written.state
  rw [← hclosing] at htries hexchanges hvalue
  -- All puts went well, so every file was staged.
  have hall : ∀ t ∈ tries, t.2 = .ok () := fun t ht ↦
    t.succeeded_exchange.mp (hok _ (hexchanges ▸ List.mem_map_of_mem ht))
  have hdistinct : (tries.map fun t ↦ t.1.slot.staging).Nodup := by
    have hnodup := hm.nodup_staging
    rwa [← htried, List.map_map] at hnodup
  have htried' : tries.map Prod.fst = files.map (Filed.openFile layout base) :=
    htried.trans hopened
  refine ⟨files, begun, hlength, hserves.encodes, ?_, ?_, hm.distinct, hserves.open_iff,
    hserves.holds, hserves.order, hserves.sequence, hserves.pieces, fun f hf ↦ ?_, fun q hq ↦ ?_⟩
  · rw [hwritten]
    exact hopened
  · rw [show after.value = _ from hvalue, Try.filterMap_committable? .commit hall, htried',
      List.map_map, Try.findSome?_error?_eq_none.mpr hall, hserves.allocator]
    rfl
  · obtain ⟨t, ht, hfile⟩ := List.mem_map.mp (htried' ▸ List.mem_map_of_mem hf)
    have hstaged := htries.staged hput hdistinct ht (hall t ht)
    rwa [hfile] at hstaged
  · rw [show get? after.state q = get? written.state q from htries.get?_eq hput fun t ht _ ↦ ?_,
      hstate]
    obtain ⟨f, hf, hfile⟩ := List.mem_map.mp (htried' ▸ List.mem_map_of_mem ht)
    rw [← hfile]
    exact hq f hf

/-- The encoder puts a mark at the beginning of each file. There are records of three partitions,
and one without a place. Two cannot be encoded: one spoils the open file of its partition, and the
other one a new file. Two files of the first partition, and a committable, are from before the
boundary. -/
theorem survivors_staged_after_spoiled_files :
    let layout : Layout String := ⟨⟨fun r ↦ if r = "?" then .error (.notAnObject "string") else
      .ok [("p", String.ofList (r.toList.take 1))], .ok⟩,
      fun r buffer ↦ (((if buffer.size = 0 then "#" else "") ++ r).toUTF8,
        if '!' ∈ r.toList then .error .mismatch else .ok ())⟩
    let history : List PartitionSpec := [[("p", "a")], [("p", "a")]]
    let closed : List Committable := [{ bucket := "p=a", token := .inProgress ⟨"x", 0⟩ }]
    let records := ["a1", "b1", "a2!", "b2", "?", "c1!", "a3", "c2"]
    let base := Allocator.new "_staging" ⟨0, 0⟩ {} "r"
    let written := ((dynamic ⟨base.after history, [], closed⟩).writeEach layout records).run
      MemoryStore.answer .empty
    let closing := written.value.1.close .commit
    let after := closing.run MemoryStore.answer written.state
    let told := records.zip (written.value.2.map Except.isOk)
    (∀ x ∈ closing.exchanges MemoryStore.answer written.state, x.1.succeeded x.2 = true) ∧
      written.value.1.opened.map (fun f ↦ (f.slot.bucket, f.slot.sequence, f.records)) =
        [("p=b", 0, 2), ("p=a", 3, 1), ("p=c", 1, 1)] ∧
      after.state.get? (base.slot [("p", "b")] 0).staging = some "#b1b2".toUTF8 ∧
      ∃ (files : List (Filed String)) (begun : List PartitionSpec),
        after.value = (.dynamic ⟨base.after (history ++ begun), [],
          closed ++ files.map fun f ↦ f.committable layout base .commit⟩, .ok ()) ∧
        (∀ f ∈ files, f.records = layout.survivors f.spec told) ∧
        ∀ f ∈ files, after.state.get? (f.slot base).staging = some (f.bytes layout) := by
  intro layout history closed records
  obtain ⟨files, begun, -, -, -, hafter, -, -, hrecords, -, -, -, hstaged, -⟩ :=
    survivors_staged layout "_staging" "r" ⟨0, 0⟩ {} history closed records
      MemoryStore.putsWhole_answer .empty (by decide +kernel)
  exact ⟨by decide +kernel, by decide +kernel, by decide +kernel, files, begun, hafter, hrecords,
    hstaged⟩

end Writer

end TableSink
