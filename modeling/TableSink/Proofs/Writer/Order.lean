import Mathlib.Data.List.Induction
import TableSink.Proofs.Writer.Track

/-!
# Records in order

What is published has to hold the records of each partition in the order in which they came.
`Filed.InOrder` says so of a list of files: those of a partition are numbered from zero on, and one
after the other they hold just its records. Every record that is taken keeps it
(`Books.inOrder_add`), whatever the strategy: an open file is the last one of its partition, so a
record that is added to it comes last.
-/

namespace TableSink

variable {ρ : Type}

/-- Whether a record belongs to a partition. -/
def Desk.Belongs (d : Desk ρ) (spec : PartitionSpec) (record : ρ) : Bool :=
  match d.layout.place d.fixed record with
  | .ok (place, _) => place = spec
  | .error _ => false

namespace Filed

/-- The records of some files. -/
def recordsIn (fs : List (Filed ρ)) : List ρ := fs.flatMap Filed.records

/-- The files of a partition. -/
def within (spec : PartitionSpec) (fs : List (Filed ρ)) : List (Filed ρ) :=
  fs.filter fun f ↦ f.spec = spec

/-- The files of each partition are numbered in order, and hold its records in order. -/
structure InOrder (d : Desk ρ) (fs : List (Filed ρ)) (records : List ρ) : Prop where
  sequences : ∀ spec, (within spec fs).map Filed.sequence = List.range (within spec fs).length
  records : ∀ spec, recordsIn (within spec fs) = records.filter (d.Belongs spec)

variable {d : Desk ρ} {fs : List (Filed ρ)} {records : List ρ} {spec : PartitionSpec}
variable {record projected : ρ}

@[simp] theorem recordsIn_nil : recordsIn ([] : List (Filed ρ)) = [] := rfl

@[simp] theorem recordsIn_append (fs gs : List (Filed ρ)) :
    recordsIn (fs ++ gs) = recordsIn fs ++ recordsIn gs := List.flatMap_append

@[simp] theorem within_append (spec : PartitionSpec) (fs gs : List (Filed ρ)) :
    within spec (fs ++ gs) = within spec fs ++ within spec gs := List.filter_append ..

theorem within_eq_nil (h : ∀ f ∈ fs, f.spec ≠ spec) : within spec fs = [] :=
  List.filter_eq_nil_iff.mpr fun f hf ↦ by simpa using h f hf

theorem mem_within {f : Filed ρ} : f ∈ within spec fs ↔ f ∈ fs ∧ f.spec = spec := by
  simp [within]

/-- There is a file for every number up to the number of files. -/
theorem InOrder.mem_keys_iff (h : InOrder d fs records) (spec : PartitionSpec) (i : Nat) :
    (spec, i) ∈ fs.map key ↔ i < (within spec fs).length := by
  rw [← List.mem_range, ← h.sequences]
  simp only [List.mem_map, mem_within, key, Prod.mk.injEq]
  constructor
  · rintro ⟨f, hf, hspec, hsequence⟩
    exact ⟨f, ⟨hf, hspec⟩, hsequence⟩
  · rintro ⟨f, ⟨hf, hspec⟩, hsequence⟩
    exact ⟨f, hf, hspec, hsequence⟩

theorem InOrder.nil (d : Desk ρ) : InOrder d [] [] := ⟨fun _ ↦ rfl, fun _ ↦ rfl⟩

theorem belongs_of_place (h : d.layout.place d.fixed record = .ok (spec, projected))
    (other : PartitionSpec) : d.Belongs other record = decide (spec = other) := by
  simp [Desk.Belongs, h]

/-- Only the records of its own partition move when a record comes. -/
theorem filter_belongs_concat (h : d.layout.place d.fixed record = .ok (spec, projected))
    (records : List ρ) (other : PartitionSpec) : (records ++ [record]).filter (d.Belongs other) =
      records.filter (d.Belongs other) ++ if spec = other then [record] else [] := by
  rw [List.filter_append]
  congr 1
  by_cases hspec : spec = other
  · simp [belongs_of_place h, hspec]
  · simp [belongs_of_place h, hspec]

/-- A new file gets the next number of its partition. -/
theorem InOrder.sequences_concat (h : InOrder d fs records) (spec : PartitionSpec)
    (added : List ρ) (other : PartitionSpec) :
    (within other (fs ++ [⟨spec, (within spec fs).length, added⟩])).map Filed.sequence =
      List.range (within other (fs ++ [⟨spec, (within spec fs).length, added⟩])).length := by
  by_cases hspec : spec = other
  · subst hspec
    have hlast : within spec [⟨spec, (within spec fs).length, added⟩] =
        [⟨spec, (within spec fs).length, added⟩] := by simp [within]
    rw [within_append, hlast, List.map_append, h.sequences, List.length_append,
      List.length_singleton, List.range_succ]
    rfl
  · have hlast : within other [⟨spec, (within spec fs).length, added⟩] = [] :=
      within_eq_nil (by simpa using hspec)
    rw [within_append, hlast, List.append_nil]
    exact h.sequences other

/-- A new file for a record. -/
theorem InOrder.concat (h : InOrder d fs records)
    (hplace : d.layout.place d.fixed record = .ok (spec, projected)) :
    InOrder d (fs ++ [⟨spec, (within spec fs).length, [record]⟩]) (records ++ [record]) := by
  constructor
  · exact h.sequences_concat spec [record]
  · intro other
    rw [filter_belongs_concat hplace, within_append, recordsIn_append, h.records]
    congr 1
    by_cases hspec : spec = other
    · simp [within, recordsIn, hspec]
    · simp [within, recordsIn, hspec]

/-- A new file without records. -/
theorem InOrder.waste (h : InOrder d fs records) (spec : PartitionSpec) :
    InOrder d (fs ++ [⟨spec, (within spec fs).length, []⟩]) records := by
  constructor
  · exact h.sequences_concat spec []
  · intro other
    have hnone : recordsIn (within other [(⟨spec, (within spec fs).length, []⟩ : Filed ρ)]) =
        [] := by
      by_cases hspec : spec = other
      · simp [within, recordsIn, hspec]
      · simp [within, hspec]
    rw [within_append, recordsIn_append, hnone, List.append_nil]
    exact h.records other

theorem spec_addTo (spec : PartitionSpec) (record : ρ) (f : Filed ρ) :
    (if f.spec = spec then f.add record else f).spec = f.spec := by
  split
  · rfl
  · rfl

theorem sequence_addTo (spec : PartitionSpec) (record : ρ) (f : Filed ρ) :
    (if f.spec = spec then f.add record else f).sequence = f.sequence := by
  split
  · rfl
  · rfl

theorem within_addTo (spec other : PartitionSpec) (record : ρ) (fs : List (Filed ρ)) :
    within other (fs.map fun f ↦ if f.spec = spec then f.add record else f) =
      (within other fs).map fun f ↦ if f.spec = spec then f.add record else f := by
  simp only [within, List.filter_map, Function.comp_def, spec_addTo]

/-- The open file of a partition, among open files of different partitions. -/
theorem within_of_nodup (hdistinct : (fs.map Filed.spec).Nodup) {f : Filed ρ} (hf : f ∈ fs) :
    within f.spec fs = [f] := by
  induction fs with
  | nil => cases hf
  | cons g fs ih =>
    rw [List.map_cons, List.nodup_cons] at hdistinct
    rcases List.mem_cons.mp hf with rfl | hf
    · have hothers : within f.spec fs = [] := within_eq_nil fun g hg hgf ↦
        hdistinct.1 (List.mem_map.mpr ⟨g, hg, hgf⟩)
      rw [within, List.filter_cons_of_pos (by simp), ← within, hothers]
    · have hne : g.spec ≠ f.spec := fun he ↦ hdistinct.1 (List.mem_map.mpr ⟨f, hf, he.symm⟩)
      rw [within, List.filter_cons_of_neg (by simpa using hne), ← within]
      exact ih hdistinct.2 hf

/-- Files of different partitions may come in any order. -/
theorem InOrder.perm {done gs : List (Filed ρ)} (h : InOrder d (done ++ fs) records)
    (hperm : fs.Perm gs) (hdistinct : (fs.map Filed.spec).Nodup) :
    InOrder d (done ++ gs) records := by
  have hwithin : ∀ spec, within spec (done ++ gs) = within spec (done ++ fs) := by
    intro spec
    rw [within_append, within_append]
    congr 1
    by_cases hspec : ∃ f ∈ fs, f.spec = spec
    · obtain ⟨f, hf, rfl⟩ := hspec
      have hdistinct' := (hperm.map Filed.spec).nodup_iff.mp hdistinct
      rw [within_of_nodup hdistinct hf, within_of_nodup hdistinct' (hperm.subset hf)]
    · have hnone : ∀ f ∈ fs, f.spec ≠ spec := fun f hf hfs ↦ hspec ⟨f, hf, hfs⟩
      rw [within_eq_nil hnone, within_eq_nil fun f hf ↦ hnone f (hperm.mem_iff.mpr hf)]
  constructor
  · intro spec
    rw [hwithin]
    exact h.sequences spec
  · intro spec
    rw [hwithin]
    exact h.records spec

theorem map_addTo_eq_self (h : ∀ f ∈ fs, f.spec ≠ spec) :
    (fs.map fun f ↦ if f.spec = spec then f.add record else f) = fs := by
  have hsame : ∀ f ∈ fs, (if f.spec = spec then f.add record else f) = f :=
    fun f hf ↦ if_neg (h f hf)
  rw [List.map_congr_left hsame, List.map_id']

/-- Among files of different partitions, one gets the record. -/
theorem perm_addTo (hdistinct : (fs.map Filed.spec).Nodup) (hopen : ∃ f ∈ fs, f.spec = spec) :
    (recordsIn (fs.map fun f ↦ if f.spec = spec then f.add record else f)).Perm
      (recordsIn fs ++ [record]) := by
  induction fs with
  | nil => simp at hopen
  | cons f fs ih =>
    rw [List.map_cons, List.nodup_cons] at hdistinct
    by_cases hf : f.spec = spec
    · have hothers : ∀ g ∈ fs, g.spec ≠ spec := fun g hg hgs ↦
        hdistinct.1 (List.mem_map.mpr ⟨g, hg, hgs.trans hf.symm⟩)
      rw [List.map_cons, if_pos hf, map_addTo_eq_self hothers]
      simp only [recordsIn, List.flatMap_cons, add, List.append_assoc]
      exact List.perm_append_comm.append_left _
    · have hrest : ∃ g ∈ fs, g.spec = spec := by
        obtain ⟨g, hg, hgs⟩ := hopen
        rcases List.mem_cons.mp hg with rfl | hg
        · exact absurd hgs hf
        · exact ⟨g, hg, hgs⟩
      rw [List.map_cons, if_neg hf]
      simp only [recordsIn, List.flatMap_cons, List.append_assoc] at ih ⊢
      exact (ih hdistinct.2 hrest).append_left _

/-- A record for the open file of its partition. -/
theorem InOrder.add {done opened : List (Filed ρ)} (h : InOrder d (done ++ opened) records)
    (hplace : d.layout.place d.fixed record = .ok (spec, projected))
    (hdistinct : (opened.map Filed.spec).Nodup) (hopen : ∃ f ∈ opened, f.spec = spec) :
    InOrder d (done ++ opened.map fun f ↦ if f.spec = spec then f.add record else f)
      (records ++ [record]) := by
  obtain ⟨f, hf, rfl⟩ := hopen
  constructor
  · intro other
    have hsequences := h.sequences other
    rw [within_append, List.map_append, List.length_append] at hsequences ⊢
    rw [within_addTo, List.map_map, List.length_map]
    simpa only [Function.comp_def, sequence_addTo] using hsequences
  · intro other
    have hrecords := h.records other
    rw [within_append, recordsIn_append] at hrecords ⊢
    rw [filter_belongs_concat hplace, ← hrecords, within_addTo, List.append_assoc]
    congr 1
    by_cases hspec : f.spec = other
    · subst hspec
      simp [within_of_nodup hdistinct hf, recordsIn, Filed.add]
    · rw [map_addTo_eq_self fun g hg ↦ (mem_within.mp hg).2 ▸ Ne.symm hspec, if_neg hspec,
        List.append_nil]

/-- One after the other, files hold the lines of their records, if the encoder does not look at what
a file holds. -/
theorem foldl_bytes {layout : Layout ρ} (h : layout.encoder.Oblivious) (fs : List (Filed ρ)) :
    (fs.map (bytes layout)).foldl (· ++ ·) .empty = layout.lines (recordsIn fs) := by
  induction fs using List.reverseRecOn with
  | nil => rfl
  | append_singleton fs f ih =>
    have hone : recordsIn [f] = f.records := List.append_nil _
    rw [List.map_append, List.foldl_append, ih, recordsIn_append, Layout.lines_append h, hone]
    rfl

/-- The places of files are those of all numbers up to the number of files. -/
theorem InOrder.mem_targets_iff (h : InOrder d fs records) (a : Allocator) (p : ObjectPath) :
    p ∈ (fs.map fun f ↦ (f.slot a).target) ↔
      ∃ spec, ∃ i < (within spec fs).length, p = (a.slot spec i).target := by
  constructor
  · intro hp
    obtain ⟨f, hf, rfl⟩ := List.mem_map.mp hp
    exact ⟨f.spec, f.sequence, (h.mem_keys_iff _ _).mp (List.mem_map_of_mem hf), rfl⟩
  · rintro ⟨spec, i, hi, rfl⟩
    obtain ⟨f, hf, hkey⟩ := List.mem_map.mp ((h.mem_keys_iff _ _).mpr hi)
    obtain ⟨rfl, rfl⟩ := Prod.mk.inj hkey
    exact List.mem_map_of_mem hf

/-- A store that has the files of a partition has its records, file by file. -/
theorem InOrder.foldl_targets (h : InOrder d fs records) {layout : Layout ρ}
    (hencoder : layout.encoder.Oblivious) {a : Allocator} {s : MemoryStore}
    (hget : ∀ f ∈ fs, s.get? (f.slot a).target = some (f.bytes layout)) (spec : PartitionSpec) :
    ((List.range (within spec fs).length).map fun i ↦
      (s.get? (a.slot spec i).target).getD .empty).foldl (· ++ ·) .empty =
        layout.lines (records.filter (d.Belongs spec)) := by
  have hbytes : ∀ f ∈ within spec fs,
      (s.get? (a.slot spec f.sequence).target).getD .empty = f.bytes layout := by
    intro f hf
    obtain ⟨hmem, rfl⟩ := mem_within.mp hf
    have hf := hget f hmem
    rw [slot] at hf
    rw [hf, Option.getD_some]
  rw [← h.sequences, List.map_map, Function.comp_def, List.map_congr_left hbytes,
    foldl_bytes hencoder, h.records]

end Filed

namespace Books

open Filed (InOrder recordsIn recordsIn_append within)

variable {d : Desk ρ} {b : Books ρ} {records : List ρ} {spec : PartitionSpec}
variable {record projected : ρ}

/-- The files of the open batch. -/
def batch (b : Books ρ) : List (Filed ρ) := b.closed ++ b.opened

/-- The open files of a partition change, but no others come or go. -/
theorem batch_turn (b : Books ρ) (strategy : Strategy) (spec : PartitionSpec) :
    (b.turn strategy spec).batch = b.batch := by
  unfold turn
  split
  · simp [batch, close]
  · rfl

theorem distinct_turn (h : (b.opened.map Filed.spec).Nodup) (strategy : Strategy)
    (spec : PartitionSpec) : ((b.turn strategy spec).opened.map Filed.spec).Nodup := by
  unfold turn
  split
  · exact List.nodup_nil
  · exact h

/-- A record that is added is in an open file. -/
theorem perm_opened_add (hdistinct : (b.opened.map Filed.spec).Nodup) (spec : PartitionSpec)
    (sequence : Nat) (record : ρ) :
    (recordsIn (b.add spec sequence record).opened).Perm (recordsIn b.opened ++ [record]) := by
  unfold add
  split
  · next hopen => exact Filed.perm_addTo hdistinct hopen
  · rw [recordsIn_append]
    rfl

theorem perm_batch_add (hdistinct : (b.opened.map Filed.spec).Nodup) (spec : PartitionSpec)
    (sequence : Nat) (record : ρ) :
    (recordsIn (b.add spec sequence record).batch).Perm (recordsIn b.batch ++ [record]) := by
  rw [batch, batch, closed_add, recordsIn_append, recordsIn_append, List.append_assoc]
  exact (perm_opened_add hdistinct spec sequence record).append_left _

/-- The number of the next file of a partition is the number of its files. -/
theorem count_eq_of_inOrder {layout : Layout ρ} {mishaps : Mishap → Prop} {a : Allocator}
    {init s : MemoryStore} {fs : List (Filed ρ)} (hholds : b.Holds layout mishaps a init s)
    (hkeys : ∀ k, k ∈ b.keys ↔ k ∈ fs.map Filed.key) (h : InOrder d fs records)
    (spec : PartitionSpec) : a.count spec.bucket = (within spec fs).length := by
  apply eq_of_forall_lt_iff
  intro i
  rw [← hholds.issued, hkeys, h.mem_keys_iff]

/-- A record that is added is the last one of its partition. -/
theorem inOrder_add {done : List (Filed ρ)} {sequence : Nat}
    (h : InOrder d (done ++ b.batch) records)
    (hplace : d.layout.place d.fixed record = .ok (spec, projected))
    (hdistinct : (b.opened.map Filed.spec).Nodup)
    (hsequence : sequence = (within spec (done ++ b.batch)).length) :
    InOrder d (done ++ (b.add spec sequence record).batch) (records ++ [record]) := by
  rw [batch, ← List.append_assoc] at h hsequence
  rw [batch, closed_add, ← List.append_assoc]
  unfold add
  by_cases hopen : ∃ f ∈ b.opened, f.spec = spec
  · rw [if_pos hopen]
    exact h.add hplace hdistinct hopen
  · rw [if_neg hopen, ← List.append_assoc, hsequence]
    exact h.concat hplace

end Books

end TableSink
