import TableSink.Proofs.Commit.Finish
import TableSink.Proofs.Writer.Books
import TableSink.Proofs.Writer.Hands

/-!
# What a writer does to the books

All three strategies do the same thing to the books, up to when a file is closed: a record that has
a place is added to the open file of its partition, or to a new one (`Books.add`), and the grouped
strategy closes the open file first if it belongs to another partition (`Books.turn`).
`Books.Wrote` lists everything that a write may do, `Writer.ends_write` says that nothing else
happens, and `Writer.ends_close` does the same for closing.
-/

namespace TableSink

variable {ρ : Type}

open MemoryStore (Replies Updated Moved)

/-- What stays the same over the life of a writer. -/
structure Desk (ρ : Type) where
  layout : Layout ρ
  strategy : Strategy
  /-- The partition of all records, where there is just one. -/
  fixed : Option PartitionSpec
  mishaps : Mishap → Prop
  /-- What first handed out places. -/
  base : Allocator
  /-- The store before the first file. -/
  init : MemoryStore

/-- Nothing goes wrong. -/
def Desk.Calm (d : Desk ρ) : Prop := ∀ m, ¬ d.mishaps m

namespace Filed

/-- The file with one more record. -/
def add (f : Filed ρ) (record : ρ) : Filed ρ := { f with records := f.records ++ [record] }

/-- The file has records, and all of them belong there. -/
def Proper (d : Desk ρ) (f : Filed ρ) : Prop :=
  f.records ≠ [] ∧ ∀ r ∈ f.records, ∃ projected, d.layout.place d.fixed r = .ok (f.spec, projected)

variable {d : Desk ρ} {f : Filed ρ} {record projected : ρ}

theorem proper_add (hf : ∀ r ∈ f.records, ∃ p, d.layout.place d.fixed r = .ok (f.spec, p))
    (h : d.layout.place d.fixed record = .ok (f.spec, projected)) : (f.add record).Proper d := by
  refine ⟨by simp [add], fun r hr ↦ ?_⟩
  rcases List.mem_append.mp hr with hr | hr
  · exact hf r hr
  · rw [List.mem_singleton.mp hr]
    exact ⟨projected, h⟩

/-- The open file of a partition with one more record. -/
theorem append_openFile (layout : Layout ρ) (a : Allocator)
    (hproject : layout.computer.project record = .ok projected)
    (hencode : (layout.encoder projected (f.bytes layout)).2 = .ok ()) :
    (f.openFile layout a).append (layout.encoder projected (f.openFile layout a).buffer) =
      ((f.add record).openFile layout a, .ok ()) := by
  have hline : layout.line record (f.bytes layout) =
      (layout.encoder projected (f.bytes layout)).1 := by simp [Layout.line, hproject]
  have hbytes : (f.add record).bytes layout =
      f.bytes layout ++ (layout.encoder projected (f.bytes layout)).1 := by
    rw [bytes, add, Layout.lines_concat, ← hline, bytes]
  have hlength : (f.add record).records.length = f.records.length + 1 := by simp [add]
  simp only [OpenFile.append, openFile, hencode, hbytes, hlength]
  rfl

/-- A new file with its first record. -/
theorem append_new (layout : Layout ρ) (a : Allocator) (spec : PartitionSpec) (sequence : Nat)
    (hproject : layout.computer.project record = .ok projected)
    (hencode : (layout.encoder projected .empty).2 = .ok ()) :
    (OpenFile.append ⟨a.slot spec sequence, .empty, 0⟩ (layout.encoder projected .empty)).1 =
      Filed.openFile layout a ⟨spec, sequence, [record]⟩ :=
  congrArg Prod.fst (Filed.append_openFile (f := ⟨spec, sequence, []⟩) layout a hproject hencode)

/-- The records of the open file of a partition, if there is one. -/
def held (files : List (Filed ρ)) (spec : PartitionSpec) : List ρ :=
  ((files.find? (·.spec = spec)).map Filed.records).getD []

theorem held_of_mem {files : List (Filed ρ)} (hdistinct : (files.map Filed.spec).Nodup)
    (hf : f ∈ files) : held files f.spec = f.records := by
  obtain ⟨g, hg⟩ : ∃ g, files.find? (·.spec = f.spec) = some g := by
    rw [← Option.isSome_iff_exists, List.find?_isSome]
    exact ⟨f, hf, by simp⟩
  have hspec : g.spec = f.spec := by simpa using List.find?_some hg
  obtain rfl := List.inj_on_of_nodup_map hdistinct (List.mem_of_find?_eq_some hg) hf hspec
  rw [held, hg, Option.map_some, Option.getD_some]

theorem held_of_forall_ne {files : List (Filed ρ)} {spec : PartitionSpec}
    (h : ∀ f ∈ files, f.spec ≠ spec) : held files spec = [] := by
  have hnone : files.find? (·.spec = spec) = none := by simpa using h
  rw [held, hnone, Option.map_none, Option.getD_none]

end Filed

namespace Books

/-- A record is added to the open file of its partition, or to a new one with this number. -/
def add (b : Books ρ) (spec : PartitionSpec) (sequence : Nat) (record : ρ) : Books ρ :=
  if ∃ f ∈ b.opened, f.spec = spec then
    { b with opened := b.opened.map fun f ↦ if f.spec = spec then f.add record else f }
  else { b with opened := b.opened ++ [⟨spec, sequence, [record]⟩] }

/-- The open file of a partition is given up, or a new one with this number. -/
def spoil (b : Books ρ) (spec : PartitionSpec) (sequence : Nat) : Books ρ :=
  if ∃ f ∈ b.opened, f.spec = spec then
    { b with
      opened := b.opened.filter (·.spec ≠ spec)
      dropped := b.dropped ++ b.opened.filter (·.spec = spec) }
  else { b with dropped := b.dropped ++ [⟨spec, sequence, []⟩] }

/-- Open files are closed, and the others given up. -/
def close (b : Books ρ) (done lost : List (Filed ρ)) : Books ρ :=
  { b with opened := [], closed := b.closed ++ done, dropped := b.dropped ++ lost }

/-- Before a record of a partition: the grouped strategy has closed the file of another one. -/
def turn (b : Books ρ) (strategy : Strategy) (spec : PartitionSpec) : Books ρ :=
  if strategy = .grouped ∧ ∃ f ∈ b.opened, f.spec ≠ spec then b.close b.opened [] else b

section Unmoved

variable (b : Books ρ) (strategy : Strategy) (spec : PartitionSpec) (sequence : Nat) (record : ρ)

theorem unmoved_add : (b.add spec sequence record).shown = b.shown ∧
    (b.add spec sequence record).kept = b.kept ∧
    (b.add spec sequence record).removed = b.removed := by
  unfold add
  split
  · exact ⟨rfl, rfl, rfl⟩
  · exact ⟨rfl, rfl, rfl⟩

theorem unmoved_spoil : (b.spoil spec sequence).shown = b.shown ∧
    (b.spoil spec sequence).kept = b.kept ∧ (b.spoil spec sequence).removed = b.removed := by
  unfold spoil
  split
  · exact ⟨rfl, rfl, rfl⟩
  · exact ⟨rfl, rfl, rfl⟩

theorem unmoved_turn : (b.turn strategy spec).shown = b.shown ∧
    (b.turn strategy spec).kept = b.kept ∧ (b.turn strategy spec).removed = b.removed := by
  unfold turn
  split
  · exact ⟨rfl, rfl, rfl⟩
  · exact ⟨rfl, rfl, rfl⟩

@[simp] theorem closed_add : (b.add spec sequence record).closed = b.closed := by
  unfold add
  split
  · rfl
  · rfl

@[simp] theorem dropped_add : (b.add spec sequence record).dropped = b.dropped := by
  unfold add
  split
  · rfl
  · rfl

@[simp] theorem dropped_turn : (b.turn strategy spec).dropped = b.dropped := by
  unfold turn
  split
  · exact List.append_nil _
  · rfl

end Unmoved

/-- The books tell what a writer has in hand. -/
structure Tracks (d : Desk ρ) (s : MemoryStore) (b : Books ρ) (a : Allocator)
    (opened : List OpenFile) (closed : List Committable) : Prop where
  holds : b.Holds d.layout d.mishaps a d.init s
  base : a.slot = d.base.slot
  opened : opened = b.opened.map (Filed.openFile d.layout a)
  closed : closed = b.closed.map fun f ↦ f.committable d.layout a .commit
  proper : ∀ f ∈ b.closed ++ b.opened, f.Proper d
  distinct : (b.opened.map Filed.spec).Nodup

variable {d : Desk ρ} {s s' : MemoryStore} {b : Books ρ} {a : Allocator} {opened : List OpenFile}
variable {closed : List Committable} {spec : PartitionSpec} {record projected : ρ}

/-- Nothing was filed yet. -/
theorem tracks_empty {stagingDir run : String} {attempt : Attempt} {naming : FileNaming}
    (hbase : d.base = .new stagingDir attempt naming run) :
    ({} : Books ρ).Tracks d d.init d.base [] [] where
  holds := hbase ▸ holds_empty stagingDir attempt naming run d.init
  base := rfl
  opened := rfl
  closed := rfl
  proper _ hf := absurd hf List.not_mem_nil
  distinct := List.nodup_nil

/-- What the store shows of a file, at the places of the desk. -/
theorem Tracks.stands (h : b.Tracks d s a opened closed) {f : Filed ρ} {status : Status}
    (hf : f ∈ b.files status) : f.Stands d.layout d.base d.mishaps d.init s status :=
  (f.stands_congr h.base).mp (h.holds.stands (f, status) (mem_entries.mpr hf))

/-- Only places of files have changed. -/
theorem Tracks.frame_or_place (h : b.Tracks d s a opened closed) (p : ObjectPath) :
    s.get? p = d.init.get? p ∨ ∃ f status, f ∈ b.files status ∧
      (p = (f.slot d.base).staging ∨ p = (f.slot d.base).target) := by
  by_cases hforeign : b.Foreign a p
  · exact .inl (h.holds.frame p hforeign)
  · obtain ⟨f, status, hf, hplace⟩ := exists_of_not_foreign hforeign
    rw [Filed.slot, h.base] at hplace
    exact .inr ⟨f, status, hf, hplace⟩

/-- A record for an open file. -/
theorem Tracks.add_of_exists (h : b.Tracks d s a opened closed)
    (hplace : d.layout.place d.fixed record = .ok (spec, projected))
    (hopen : ∃ f ∈ b.opened, f.spec = spec) (sequence : Nat) :
    (b.add spec sequence record).Tracks d s a
      ((b.add spec sequence record).opened.map (Filed.openFile d.layout a)) closed := by
  have hadd : b.add spec sequence record = { b with
      opened := b.opened.map fun f ↦ if f.spec = spec then f.add record else f } := if_pos hopen
  have hkey : ∀ f : Filed ρ, (if f.spec = spec then f.add record else f).key = f.key := by
    intro f
    split <;> rfl
  have hspec : ∀ f : Filed ρ, (if f.spec = spec then f.add record else f).spec = f.spec := by
    intro f
    split <;> rfl
  rw [hadd]
  refine ⟨h.holds.of_stands ?_ ?_, h.base, rfl, h.closed, ?_, ?_⟩
  · simp [keys, entries, Function.comp_def, hkey]
  · rintro ⟨f, status⟩ he
    rw [mem_entries] at he
    cases status with
    | opened =>
      obtain ⟨g, hg, rfl⟩ := List.mem_map.mp he
      have hg := h.holds.stands (g, .opened) (mem_entries.mpr hg)
      by_cases hgs : g.spec = spec
      · simpa [hgs, Filed.Stands, Filed.slot, Filed.add] using hg
      · simpa [hgs] using hg
    | shown => exact h.holds.stands (f, .shown) (mem_entries.mpr he)
    | kept => exact h.holds.stands (f, .kept) (mem_entries.mpr he)
    | closed => exact h.holds.stands (f, .closed) (mem_entries.mpr he)
    | removed => exact h.holds.stands (f, .removed) (mem_entries.mpr he)
    | dropped => exact h.holds.stands (f, .dropped) (mem_entries.mpr he)
  · intro f hf
    rcases List.mem_append.mp hf with hf | hf
    · exact h.proper f (List.mem_append_left _ hf)
    · obtain ⟨g, hg, rfl⟩ := List.mem_map.mp hf
      have hproper := h.proper g (List.mem_append_right _ hg)
      by_cases hgs : g.spec = spec
      · rw [if_pos hgs]
        exact Filed.proper_add hproper.2 (hgs ▸ hplace)
      · rw [if_neg hgs]
        exact hproper
  · simpa [Function.comp_def, hspec] using h.distinct

/-- A record for a new file. -/
theorem Tracks.add_of_not_exists (h : b.Tracks d s a opened closed)
    (hplace : d.layout.place d.fixed record = .ok (spec, projected))
    (hopen : ¬ ∃ f ∈ b.opened, f.spec = spec) :
    (b.add spec (a.count spec.bucket) record).Tracks d s (a.bump spec.bucket)
      ((b.add spec (a.count spec.bucket) record).opened.map (Filed.openFile d.layout a))
      closed := by
  have hadd : b.add spec (a.count spec.bucket) record = { b with
      opened := b.opened ++ [⟨spec, a.count spec.bucket, [record]⟩] } := if_neg hopen
  rw [hadd]
  refine ⟨h.holds.issue ⟨spec, a.count spec.bucket, [record]⟩ (.inl rfl) rfl ?_, h.base, rfl,
    h.closed, ?_, ?_⟩
  · simpa [setFiles] using perm_entries
      { b with opened := b.opened ++ [⟨spec, a.count spec.bucket, [record]⟩] } .opened rfl
  · intro f hf
    rcases List.mem_append.mp hf with hf | hf
    · exact h.proper f (List.mem_append_left _ hf)
    · rcases List.mem_append.mp hf with hf | hf
      · exact h.proper f (List.mem_append_right _ hf)
      · rw [List.mem_singleton.mp hf]
        exact Filed.proper_add (f := ⟨spec, _, []⟩) (by simp) hplace
  · exact Filed.nodup_map_concat h.distinct fun g hg hspec ↦ hopen ⟨g, hg, hspec⟩

/-- An open file is spoiled by a record. -/
theorem Tracks.spoil_of_exists (h : b.Tracks d s a opened closed)
    (hopen : ∃ f ∈ b.opened, f.spec = spec) (sequence : Nat) :
    (b.spoil spec sequence).Tracks d s a
      ((b.spoil spec sequence).opened.map (Filed.openFile d.layout a)) closed := by
  have hspoil : b.spoil spec sequence = { b with
      opened := b.opened.filter (·.spec ≠ spec)
      dropped := b.dropped ++ b.opened.filter (·.spec = spec) } := if_pos hopen
  have hsub : (b.opened.filter (·.spec ≠ spec)).Sublist b.opened := List.filter_sublist
  rw [hspoil]
  refine ⟨h.holds.of_stands ?_ ?_, h.base, rfl, h.closed, ?_, ?_⟩
  · rw [keys_eq, keys_eq, List.perm_iff_count]
    intro k
    have hsplit := ((List.filter_append_perm (fun f : Filed ρ ↦ decide (f.spec = spec))
      b.opened).map Filed.key).count_eq k
    simp only [List.map_append, List.count_append, decide_not] at hsplit ⊢
    omega
  · rintro ⟨f, status⟩ he
    rw [mem_entries] at he
    cases status with
    | dropped =>
      rcases List.mem_append.mp he with he | he
      · exact h.holds.stands (f, .dropped) (mem_entries.mpr he)
      · have hopened := h.holds.stands (f, .opened) (mem_entries.mpr (List.mem_of_mem_filter he))
        exact ⟨.inl hopened.1, hopened.2⟩
    | opened => exact h.holds.stands (f, .opened) (mem_entries.mpr (List.mem_of_mem_filter he))
    | shown => exact h.holds.stands (f, .shown) (mem_entries.mpr he)
    | kept => exact h.holds.stands (f, .kept) (mem_entries.mpr he)
    | closed => exact h.holds.stands (f, .closed) (mem_entries.mpr he)
    | removed => exact h.holds.stands (f, .removed) (mem_entries.mpr he)
  · intro f hf
    exact h.proper f (((List.Sublist.refl _).append hsub).subset hf)
  · exact h.distinct.sublist (hsub.map _)

/-- A new file is spoiled by its first record. -/
theorem Tracks.spoil_of_not_exists (h : b.Tracks d s a opened closed)
    (hopen : ¬ ∃ f ∈ b.opened, f.spec = spec) :
    (b.spoil spec (a.count spec.bucket)).Tracks d s (a.bump spec.bucket) opened closed := by
  have hspoil : b.spoil spec (a.count spec.bucket) = { b with
      dropped := b.dropped ++ [⟨spec, a.count spec.bucket, []⟩] } := if_neg hopen
  rw [hspoil]
  refine ⟨h.holds.issue ⟨spec, a.count spec.bucket, []⟩ (.inr rfl) rfl ?_, h.base, h.opened,
    h.closed, h.proper, h.distinct⟩
  simpa [setFiles] using perm_entries
    { b with dropped := b.dropped ++ [⟨spec, a.count spec.bucket, []⟩] } .dropped rfl

end Books

end TableSink
