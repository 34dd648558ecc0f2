import TableSink.Proofs.Path.Slot
import TableSink.Proofs.Writer.Calls

/-!
# Buckets and partitions

The columns and values of a partition are written down twice, as one text (the bucket) and directory
by directory, and in the second case they are escaped once more. Both tell the partition, and they
agree: the bucket taken as a path leads to the same directories (`PartitionSpec.segments_ofText`).

Open files are found by their buckets (`ManyFiles.file?_write`) and files are numbered by them, so
two records have their file, the numbers and the directories in common if they are of one partition,
and none of these otherwise.
-/

namespace TableSink

variable {σ ρ : Type} {layout : Layout ρ} {spec : PartitionSpec} {record projected : ρ}

namespace PartitionSpec

/-- The bucket as a path leads to the directories of the partition. -/
theorem segments_ofText (spec : PartitionSpec) : (ObjectPath.ofText spec.bucket).segments =
    spec.map fun entry ↦ ObjectPath.segment (directory entry) := by
  cases spec with
  | nil => rfl
  | cons entry rest =>
    have hpieces : Text.split '/' (bucket (entry :: rest)).toList =
        (entry :: rest).map fun entry ↦ (directory entry).toList := by
      rw [bucket, String.toList_ofList, Text.split_join (by simp)]
      intro piece hpiece
      obtain ⟨entry', -, rfl⟩ := List.mem_map.mp hpiece
      exact slash_notMem_directory entry'
    have hne : ∀ piece ∈ (entry :: rest).map fun entry ↦ (directory entry).toList,
        decide (piece ≠ []) = true := by
      intro piece hpiece
      obtain ⟨entry', -, rfl⟩ := List.mem_map.mp hpiece
      simpa using directory_ne_empty entry'
    rw [ObjectPath.ofText, hpieces, List.filter_eq_self.mpr hne, List.map_map]
    rfl

theorem bucket_eq_empty_iff : spec.bucket = "" ↔ spec = [] :=
  bucket_injective.eq_iff (b := [])

end PartitionSpec

/-! ## Directories -/

namespace Allocator

variable (a : Allocator) (spec spec' : PartitionSpec) (i j : Nat)

theorem dropLast_staging : (a.slot spec i).staging.segments.dropLast =
    (spec.nest a.taskDir).segments := by
  rw [segments_slot_staging, List.dropLast_concat, segments_nest]

theorem dropLast_target : (a.slot spec i).target.segments.dropLast =
    (spec.nest .root).segments := by
  rw [segments_slot_target, List.dropLast_concat, segments_nest]
  rfl

end Allocator

/-- The directories that a partition leads to tell it. -/
theorem PartitionSpec.segments_nest_inj {spec spec' : PartitionSpec} {base : ObjectPath} :
    (spec.nest base).segments = (spec'.nest base).segments ↔ spec = spec' := by
  rw [segments_nest, segments_nest, List.append_cancel_left_eq]
  exact Allocator.directories_injective.eq_iff

/-! ## Open files -/

namespace ManyFiles

variable {w : ManyFiles} {f : OpenFile}

theorem bucket_of_file? {bucket : String} (h : w.file? bucket = some f) :
    f.slot.bucket = bucket := by
  simpa using List.find?_some h

/-- A file takes the place of the one with the same bucket, if there is one. -/
theorem file?_keep (w : ManyFiles) (f : OpenFile) (bucket : String) : (w.keep f).file? bucket =
    if bucket = f.slot.bucket then (w.file? bucket).map fun _ ↦ f else w.file? bucket := by
  have hbucket : (fun g : OpenFile ↦ decide (g.slot.bucket = bucket)) ∘
      (fun g ↦ if g.slot.bucket = f.slot.bucket then f else g) =
        fun g ↦ decide (g.slot.bucket = bucket) := by
    funext g
    by_cases hg : g.slot.bucket = f.slot.bucket
    · simp [hg]
    · simp [hg]
  rw [file?, keep, List.find?_map, hbucket, ← file?]
  cases hfile : w.file? bucket with
  | none => simp
  | some g =>
    rw [Option.map_some, Option.map_some, bucket_of_file? hfile]
    split <;> rfl

/-- What the open file of a partition holds, if there is one. -/
def buffer (w : ManyFiles) (bucket : String) : ByteArray :=
  ((w.file? bucket).map OpenFile.buffer).getD .empty

/-- A record that is written is in the file of its partition, behind those that were there, and no
other file has changed. -/
theorem file?_write (w : ManyFiles) (hplace : layout.place none record = .ok (spec, projected))
    (hencode : (layout.encoder projected (w.buffer spec.bucket)).2 = .ok ())
    (answer : (r : Request) → σ → r.Reply × σ) (s : σ) (bucket : String) :
    let w' := ((w.write layout record).run answer s).value.1
    w'.file? bucket = if bucket = spec.bucket then
      some (OpenFile.append ((w.file? bucket).getD
        ⟨w.allocator.slot spec (w.allocator.count spec.bucket), .empty, 0⟩)
        (layout.encoder projected (w.buffer bucket))).1
      else w.file? bucket := by
  intro w'
  cases hfile : w.file? spec.bucket with
  | some f =>
    have hbuffer : w.buffer spec.bucket = f.buffer := by rw [buffer, hfile]; rfl
    rw [hbuffer] at hencode
    have hw' : w' = w.keep (f.append (layout.encoder projected f.buffer)).1 :=
      congrArg (fun t ↦ (t.run answer s).value.1) (write_of_open hplace hfile hencode)
    rw [hw', file?_keep, OpenFile.slot_append, bucket_of_file? hfile]
    by_cases hbucket : bucket = spec.bucket
    · rw [if_pos hbucket, if_pos hbucket, hbucket, hfile, hbuffer]
      rfl
    · rw [if_neg hbucket, if_neg hbucket]
  | none =>
    let f : OpenFile := ⟨w.allocator.slot spec (w.allocator.count spec.bucket), .empty, 0⟩
    have hbuffer : w.buffer spec.bucket = .empty := by rw [buffer, hfile]; rfl
    rw [hbuffer] at hencode
    have hopened : w'.opened = w.opened ++ [(f.append (layout.encoder projected .empty)).1] :=
      congrArg (fun t ↦ (t.run answer s).value.1.opened) (write_of_new hplace hfile hencode)
    have hslot : (f.append (layout.encoder projected .empty)).1.slot.bucket = spec.bucket :=
      congrArg Slot.bucket (f.slot_append _)
    rw [file?, hopened, List.find?_append, ← file?]
    by_cases hbucket : bucket = spec.bucket
    · rw [if_pos hbucket, hbucket, hfile, hbuffer]
      simp [hslot, f]
    · rw [if_neg hbucket]
      simp [hslot, Ne.symm hbucket]

end ManyFiles

namespace PartitionSpec

/-- The bucket tells the partition, and the directories below any path are those of the bucket taken
as a path. So two partitions have directories for staging and for published files in common, and
the numbers of their files, only if they are the same. The same goes for open files: of two records
that are written one after the other, the second one goes to the file of the first one if they are
of one partition, and leaves it as it was otherwise. -/
theorem bucket_identifies (spec spec' : PartitionSpec) :
    (spec.bucket = spec'.bucket ↔ spec = spec') ∧ Function.Injective escapeName ∧
    (spec.bucket = "" ↔ spec = []) ∧
    (∀ base : ObjectPath, (spec.nest base).segments =
      base.segments ++ (ObjectPath.ofText spec.bucket).segments) ∧
    (∀ (a : Allocator) (i j : Nat),
      ((a.slot spec i).staging.segments.dropLast = (a.slot spec' j).staging.segments.dropLast ↔
        spec = spec') ∧
      ((a.slot spec i).target.segments.dropLast = (a.slot spec' j).target.segments.dropLast ↔
        spec = spec') ∧
      ((a.allocate spec).2.count spec'.bucket = a.count spec'.bucket + 1 ↔ spec = spec')) ∧
    ∀ {ρ : Type} (layout : Layout ρ) (record record' projected projected' : ρ),
      layout.place none record = .ok (spec, projected) →
      layout.place none record' = .ok (spec', projected') →
      ∀ {σ : Type} (answer : (r : Request) → σ → r.Reply × σ) (w : ManyFiles) (s : σ),
        let w₁ := ((w.write layout record).run answer s).value.1
        let w₂ := ((w₁.write layout record').run answer s).value.1
        (layout.encoder projected (w.buffer spec.bucket)).2 = .ok () →
        (layout.encoder projected' (w₁.buffer spec'.bucket)).2 = .ok () →
        ∃ f, w₁.file? spec.bucket = some f ∧
          (w₂.file? spec'.bucket = some (f.append (layout.encoder projected' f.buffer)).1 ↔
            spec = spec') ∧
          (w₂.file? spec.bucket = some f ↔ spec ≠ spec') := by
  refine ⟨bucket_injective.eq_iff, escapeName_injective, bucket_eq_empty_iff, fun base ↦ ?_,
    fun a i j ↦ ⟨?_, ?_, ?_⟩, ?_⟩
  · rw [segments_nest, segments_ofText]
  · rw [a.dropLast_staging, a.dropLast_staging, segments_nest_inj]
  · rw [a.dropLast_target, a.dropLast_target, segments_nest_inj]
  · rw [Allocator.allocate, a.count_bump]
    by_cases hspec : spec = spec'
    · subst hspec
      simp
    · simp [bucket_injective.ne (Ne.symm hspec), hspec]
  · intro ρ layout record record' projected projected' hplace hplace' σ answer w s w₁ w₂ hencode
      hencode'
    have hfirst := w.file?_write hplace hencode answer s spec.bucket
    have hsecond := w₁.file?_write hplace' hencode' answer s
    rw [if_pos rfl] at hfirst
    obtain ⟨f, hf⟩ : ∃ f, w₁.file? spec.bucket = some f := ⟨_, hfirst⟩
    have hbuffer : w₁.buffer spec.bucket = f.buffer := by rw [ManyFiles.buffer, hf]; rfl
    have hshared : spec = spec' →
        w₂.file? spec.bucket = some (f.append (layout.encoder projected' f.buffer)).1 := by
      rintro rfl
      rw [hsecond, if_pos rfl, hf, hbuffer]
      rfl
    refine ⟨f, hf, ⟨fun h ↦ ?_, fun h ↦ h ▸ hshared h⟩, fun h hspec ↦ ?_, fun hspec ↦ ?_⟩
    · have hbucket := ManyFiles.bucket_of_file? h
      rw [f.slot_append, ManyFiles.bucket_of_file? hf] at hbucket
      exact bucket_injective hbucket
    · -- The file would hold one more record.
      have hrecords := congrArg (Option.map OpenFile.records) ((hshared hspec).symm.trans h)
      subst hspec
      rw [hbuffer] at hencode'
      simp [OpenFile.append, hencode'] at hrecords
    · rw [hsecond, if_neg (bucket_injective.ne hspec), hf]

/-- Two partitions whose columns and values would be the same without escaping. -/
theorem bucket_identifies_separators :
    let spec (two : Bool) : PartitionSpec :=
      if two then [("ä", "b"), ("c", "d")] else [("ä", "b/c=d")]
    let layout : Layout Bool := ⟨⟨fun r ↦ .ok (spec r), .ok⟩,
      fun r _ ↦ ((toString r).toUTF8, .ok ())⟩
    let w : ManyFiles := { allocator := .new "_staging" ⟨0, 0⟩ {} "r" }
    let w₁ := ((w.write layout false).run MemoryStore.answer .empty).value.1
    let w₂ := ((w₁.write layout true).run MemoryStore.answer .empty).value.1
    (spec false).bucket = "ä=b%2Fc%3Dd" ∧ (spec true).bucket = "ä=b/c=d" ∧
      spec false ≠ spec true ∧
      ∃ f, w₁.file? (spec false).bucket = some f ∧ w₂.file? (spec false).bucket = some f := by
  intro spec layout w
  have hspec : spec false ≠ spec true := by decide
  obtain ⟨-, -, -, -, -, hopen⟩ := bucket_identifies (spec false) (spec true)
  obtain ⟨f, hf, -, hleft⟩ :=
    hopen layout false true false true rfl rfl MemoryStore.answer w .empty rfl rfl
  exact ⟨by decide +kernel, by decide +kernel, hspec, f, hf, hleft.mpr hspec⟩

end PartitionSpec

end TableSink
