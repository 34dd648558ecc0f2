import Mathlib.Data.List.Perm.Basic
import Mathlib.Data.List.Count
import Mathlib.Data.List.Induction
import Mathlib.Data.List.Nodup
import Mathlib.Order.Basic
import Mathlib.Order.Nat
import TableSink.Proofs.Path.Slot
import TableSink.Proofs.Storage.Mishap
import TableSink.Writer.Basic

/-!
# Books about files

A sink only knows where its files are. What is to be said about it is about the records in them, so
the proofs keep books: every file for which a place was ever handed out, with its records, in the
list of those with the same *status*.

`Books.Holds` says that the books are right about a store. It is one statement for each file about
its own two places (`Filed.Stands`), and no two files have a place in common. Hence a step that
changes the status of one file, and the store at its two places only, keeps the books right:
`Books.Holds.move` is all that is ever needed, next to `Books.Holds.issue` for new files.
-/

namespace TableSink

variable {ρ : Type}

/-- What an encoder writes does not depend on what the file holds already. -/
def Encoder.Oblivious {ε : Type} (encoder : Encoder ρ ε) : Prop :=
  ∀ record buffer, encoder record buffer = encoder record .empty

theorem jsonLines_oblivious : Encoder.Oblivious jsonLines := fun _ _ ↦ rfl

namespace Layout

variable (layout : Layout ρ)

/-- What a record adds to a file that holds some bytes. -/
def line (record : ρ) (buffer : ByteArray) : ByteArray :=
  match layout.computer.project record with
  | .ok projected => (layout.encoder projected buffer).1
  | .error _ => .empty

/-- The bytes of a file with these records, each of them written behind those before. -/
def lines (records : List ρ) : ByteArray :=
  records.foldl (fun buffer record ↦ buffer ++ layout.line record buffer) .empty

theorem lines_concat (records : List ρ) (record : ρ) : layout.lines (records ++ [record]) =
    layout.lines records ++ layout.line record (layout.lines records) := by
  simp [lines]

variable {layout}

theorem line_eq (h : layout.encoder.Oblivious) (record : ρ) (buffer : ByteArray) :
    layout.line record buffer = layout.line record .empty := by
  unfold line
  split
  · rw [h]
  · rfl

/-- Where the encoder does not look at the file, records may as well be written to two files. -/
theorem lines_append (h : layout.encoder.Oblivious) (xs ys : List ρ) :
    layout.lines (xs ++ ys) = layout.lines xs ++ layout.lines ys := by
  induction ys using List.reverseRecOn with
  | nil => simp [lines]
  | append_singleton ys y ih =>
    rw [← List.append_assoc, lines_concat, lines_concat, line_eq h, line_eq h y (layout.lines ys),
      ih, ByteArray.append_assoc]

end Layout

/-! ## Files -/

/-- A file with the records that were written to it, in order. -/
structure Filed (ρ : Type) where
  spec : PartitionSpec
  sequence : Nat
  records : List ρ

/-- What has become of a file. -/
inductive Status where
  /-- It was published. -/
  | shown
  /-- It was closed in good order, and is to be published at a later boundary. -/
  | kept
  /-- It was closed, and belongs to the open batch. -/
  | closed
  | opened
  /-- It was closed and given up. -/
  | removed
  /-- It was given up before it could be closed. -/
  | dropped
deriving DecidableEq

namespace Filed

variable (layout : Layout ρ) (a : Allocator) (f : Filed ρ)

/-- What tells a file from all others. -/
def key : PartitionSpec × Nat := (f.spec, f.sequence)

/-- The two places of the file. -/
def slot : Slot := a.slot f.spec f.sequence

/-- The bytes of the file. -/
def bytes : ByteArray := layout.lines f.records

/-- The file while records are written to it. -/
def openFile : OpenFile := ⟨f.slot a, f.bytes layout, f.records.length⟩

/-- The committable of the file once it is closed. -/
def committable (kind : CloseKind) : Committable where
  bucket := f.spec.bucket
  token := (f.openFile layout a).token kind

/-- What a store shows of a file, compared with the store before the first one. -/
def Stands (mishaps : Mishap → Prop) (init s : MemoryStore) : Status → Prop
  | .shown => s.get? (f.slot a).target = some (f.bytes layout) ∧ s.get? (f.slot a).staging = none
  | .kept =>
    s.get? (f.slot a).staging = some (f.bytes layout) ∧
        (s.get? (f.slot a).target = init.get? (f.slot a).target ∨
          mishaps .halfway ∧ s.get? (f.slot a).target = some (f.bytes layout)) ∨
      mishaps .unheard ∧ s.get? (f.slot a).staging = none ∧
        s.get? (f.slot a).target = some (f.bytes layout)
  | .closed =>
    s.get? (f.slot a).staging = some (f.bytes layout) ∧
      s.get? (f.slot a).target = init.get? (f.slot a).target
  | .opened =>
    s.get? (f.slot a).staging = init.get? (f.slot a).staging ∧
      s.get? (f.slot a).target = init.get? (f.slot a).target
  | .removed =>
    (s.get? (f.slot a).staging = none ∨ ∃ m, mishaps m) ∧
      s.get? (f.slot a).target = init.get? (f.slot a).target
  | .dropped =>
    (s.get? (f.slot a).staging = init.get? (f.slot a).staging ∨
        mishaps .unheard ∧ s.get? (f.slot a).staging = some (f.bytes layout)) ∧
      s.get? (f.slot a).target = init.get? (f.slot a).target

variable {layout a}

/-- Only the places that are handed out matter for a committable. -/
theorem committable_congr {a' : Allocator} (h : a.slot = a'.slot) (kind : CloseKind) :
    f.committable layout a kind = f.committable layout a' kind := by
  simp only [committable, openFile, slot, h]

/-- The token of a closed file leads to its staging place, whatever it was closed for. -/
theorem staging_committable (kind : CloseKind) :
    (f.committable layout a kind).token.staging = (f.slot a).staging.text := by
  cases kind <;> rfl

/-- Only the places that are handed out matter for what a store shows. -/
theorem stands_congr {a' : Allocator} (h : a.slot = a'.slot) {mishaps : Mishap → Prop}
    {init s : MemoryStore} {status : Status} :
    f.Stands layout a mishaps init s status ↔ f.Stands layout a' mishaps init s status := by
  cases status <;> simp only [Stands, slot, h]

theorem target_ne_staging (ha : a.InPlace) : (f.slot a).target ≠ (f.slot a).staging :=
  (ha.staging_ne_target a _ _ _ _).symm

variable {f}

/-- Only the two places of the file matter. -/
theorem Stands.congr {mishaps : Mishap → Prop} {init s s' : MemoryStore} {status : Status}
    (hstaging : s'.get? (f.slot a).staging = s.get? (f.slot a).staging)
    (htarget : s'.get? (f.slot a).target = s.get? (f.slot a).target)
    (h : f.Stands layout a mishaps init s status) : f.Stands layout a mishaps init s' status := by
  cases status <;> simpa only [Stands, hstaging, htarget] using h

/-- One more file, which differs from all others in what is told of it. -/
theorem nodup_map_concat {κ : Type} {tell : Filed ρ → κ} {files : List (Filed ρ)}
    (h : (files.map tell).Nodup) (hf : ∀ g ∈ files, tell g ≠ tell f) :
    ((files ++ [f]).map tell).Nodup := by
  rw [List.map_append, List.map_singleton, ← List.concat_eq_append]
  refine h.concat fun hmem ↦ ?_
  obtain ⟨g, hg, htell⟩ := List.mem_map.mp hmem
  exact hf g hg htell

end Filed

/-- All files for which a place was handed out, by their status. -/
structure Books (ρ : Type) where
  shown : List (Filed ρ) := []
  kept : List (Filed ρ) := []
  closed : List (Filed ρ) := []
  opened : List (Filed ρ) := []
  removed : List (Filed ρ) := []
  dropped : List (Filed ρ) := []

namespace Books

/-- All files with their status. -/
def entries (b : Books ρ) : List (Filed ρ × Status) :=
  b.shown.map (·, .shown) ++ b.kept.map (·, .kept) ++ b.closed.map (·, .closed) ++
    b.opened.map (·, .opened) ++ b.removed.map (·, .removed) ++ b.dropped.map (·, .dropped)

/-- The files with a status. -/
def files (b : Books ρ) : Status → List (Filed ρ)
  | .shown => b.shown
  | .kept => b.kept
  | .closed => b.closed
  | .opened => b.opened
  | .removed => b.removed
  | .dropped => b.dropped

/-- The books with other files of one status. -/
def setFiles (b : Books ρ) : Status → List (Filed ρ) → Books ρ
  | .shown, fs => { b with shown := fs }
  | .kept, fs => { b with kept := fs }
  | .closed, fs => { b with closed := fs }
  | .opened, fs => { b with opened := fs }
  | .removed, fs => { b with removed := fs }
  | .dropped, fs => { b with dropped := fs }

theorem mem_entries {b : Books ρ} {f : Filed ρ} {status : Status} :
    (f, status) ∈ b.entries ↔ f ∈ b.files status := by
  cases status <;> simp [entries, files]

/-- A file may be looked at on its own, wherever it stands among those of its status. -/
theorem perm_entries (b : Books ρ) (status : Status) {before after : List (Filed ρ)} {f : Filed ρ}
    (h : b.files status = before ++ f :: after) :
    b.entries.Perm ((f, status) :: (b.setFiles status (before ++ after)).entries) := by
  classical
  rw [List.perm_iff_count]
  intro e
  cases status <;> simp only [files] at h <;>
    simp only [entries, setFiles, h, List.map_append, List.map_cons, List.count_append,
      List.count_cons] <;> omega

/-- The keys of all files. -/
def keys (b : Books ρ) : List (PartitionSpec × Nat) := b.entries.map fun e ↦ e.1.key

theorem keys_eq (b : Books ρ) : b.keys = b.shown.map Filed.key ++ b.kept.map Filed.key ++
    b.closed.map Filed.key ++ b.opened.map Filed.key ++ b.removed.map Filed.key ++
    b.dropped.map Filed.key := by
  simp [keys, entries, Function.comp_def]

/-- The path is no place of a file. -/
def Foreign (b : Books ρ) (a : Allocator) (p : ObjectPath) : Prop :=
  ∀ k ∈ b.keys, p ≠ (a.slot k.1 k.2).staging ∧ p ≠ (a.slot k.1 k.2).target

/-- A path that is not foreign is a place of some file. -/
theorem exists_of_not_foreign {b : Books ρ} {a : Allocator} {p : ObjectPath}
    (h : ¬ b.Foreign a p) : ∃ f status, f ∈ b.files status ∧
      (p = (f.slot a).staging ∨ p = (f.slot a).target) := by
  simp only [Foreign, not_forall, not_and_or, not_not] at h
  obtain ⟨k, hk, hp⟩ := h
  obtain ⟨⟨f, status⟩, he, rfl⟩ := List.mem_map.mp hk
  exact ⟨f, status, mem_entries.mp he, hp⟩

/-- The books are right about a store: places were handed out in order and once, each file is as
its status says, and everything else is as it was at first. -/
structure Holds (layout : Layout ρ) (mishaps : Mishap → Prop) (a : Allocator)
    (init s : MemoryStore) (b : Books ρ) : Prop where
  inPlace : a.InPlace
  nodup : b.keys.Nodup
  issued : ∀ spec i, (spec, i) ∈ b.keys ↔ i < a.count spec.bucket
  stands : ∀ e ∈ b.entries, e.1.Stands layout a mishaps init s e.2
  frame : ∀ p, b.Foreign a p → s.get? p = init.get? p

variable {layout : Layout ρ} {mishaps : Mishap → Prop} {a : Allocator} {init s s' : MemoryStore}
variable {b b' : Books ρ}

/-- Nothing was written yet. -/
theorem holds_empty (stagingDir : String) (attempt : Attempt) (naming : FileNaming) (run : String)
    (s : MemoryStore) :
    ({} : Books ρ).Holds layout mishaps (.new stagingDir attempt naming run) s s where
  inPlace := Allocator.inPlace_new stagingDir attempt naming run
  nodup := List.nodup_nil
  issued spec i := by simp [keys, entries, Allocator.new, Allocator.count]
  stands e he := by simp [entries] at he
  frame _ _ := rfl

/-- Places of different files are different. -/
theorem places_ne (ha : a.InPlace) {f g : Filed ρ} (h : f.key ≠ g.key) :
    (f.slot a).staging ≠ (g.slot a).staging ∧ (f.slot a).staging ≠ (g.slot a).target ∧
      (f.slot a).target ≠ (g.slot a).staging ∧ (f.slot a).target ≠ (g.slot a).target := by
  refine ⟨fun he ↦ h ?_, ha.staging_ne_target a _ _ _ _,
    (ha.staging_ne_target a _ _ _ _).symm, fun he ↦ h ?_⟩
  · obtain ⟨hspec, hsequence⟩ := Allocator.slot_staging_inj he
    exact Prod.ext hspec hsequence
  · obtain ⟨hspec, hsequence⟩ := Allocator.slot_target_inj he
    exact Prod.ext hspec hsequence

/-- Places of a new file are no places of other files. -/
theorem foreign_of_not_mem (ha : a.InPlace) {f : Filed ρ} (hf : f.key ∉ b.keys) :
    b.Foreign a (f.slot a).staging ∧ b.Foreign a (f.slot a).target := by
  have hne : ∀ k ∈ b.keys, f.key ≠ Filed.key (⟨k.1, k.2, []⟩ : Filed ρ) := by
    rintro k hk he
    exact hf (he ▸ hk)
  constructor
  · intro k hk
    obtain ⟨hss, hst, -, -⟩ := places_ne ha (hne k hk)
    exact ⟨hss, hst⟩
  · intro k hk
    obtain ⟨-, -, hts, htt⟩ := places_ne ha (hne k hk)
    exact ⟨hts, htt⟩

/-- One file changes its status, and the store changes at its places only. -/
theorem Holds.move (h : b.Holds layout mishaps a init s) {f : Filed ρ} (old new : Status)
    {rest : List (Filed ρ × Status)} (hb : b.entries.Perm ((f, old) :: rest))
    (hb' : b'.entries.Perm ((f, new) :: rest))
    (helse : ∀ p, p ≠ (f.slot a).staging → p ≠ (f.slot a).target → s'.get? p = s.get? p)
    (hnew : f.Stands layout a mishaps init s' new) : b'.Holds layout mishaps a init s' := by
  have hkeys : b'.keys.Perm b.keys := by
    refine (hb'.map _).trans (List.Perm.trans ?_ (hb.map _).symm)
    exact List.Perm.rfl
  have hnodup : ((f, old) :: rest).map (fun e ↦ e.1.key) |>.Nodup :=
    (hb.map _).nodup_iff.mp h.nodup
  refine ⟨h.inPlace, hkeys.nodup_iff.mpr h.nodup,
    fun spec i ↦ hkeys.mem_iff.trans (h.issued spec i), fun e he ↦ ?_, fun p hp ↦ ?_⟩
  · rcases List.mem_cons.mp (hb'.mem_iff.mp he) with rfl | he
    · exact hnew
    · have hne : e.1.key ≠ f.key := by
        rintro heq
        rw [List.map_cons, List.nodup_cons] at hnodup
        exact hnodup.1 (List.mem_map.mpr ⟨e, he, heq⟩)
      obtain ⟨hss, hst, hts, htt⟩ := places_ne h.inPlace hne
      exact (h.stands e (hb.mem_iff.mpr (List.mem_cons_of_mem _ he))).congr
        (helse _ hss hst) (helse _ hts htt)
  · have hforeign : b.Foreign a p := fun k hk ↦ hp k (hkeys.mem_iff.mpr hk)
    have hf := hforeign f.key
      (List.mem_map.mpr ⟨(f, old), hb.mem_iff.mpr List.mem_cons_self, rfl⟩)
    rw [helse p hf.1 hf.2, h.frame p hforeign]

/-- A place for a new file of a partition. Nothing has been there yet. -/
theorem Holds.issue (h : b.Holds layout mishaps a init s) (f : Filed ρ) {status : Status}
    (hstatus : status = .opened ∨ status = .dropped)
    (hf : f.sequence = a.count f.spec.bucket) (hb' : b'.entries.Perm ((f, status) :: b.entries)) :
    b'.Holds layout mishaps (a.bump f.spec.bucket) init s := by
  have hnew : f.key ∉ b.keys := by
    rw [Filed.key, h.issued, hf]
    exact Nat.lt_irrefl _
  have hkeys : b'.keys.Perm (f.key :: b.keys) := hb'.map _
  refine ⟨h.inPlace, ?_, fun spec i ↦ ?_, fun e he ↦ ?_, fun p hp ↦ ?_⟩
  · exact hkeys.nodup_iff.mpr (List.nodup_cons.mpr ⟨hnew, h.nodup⟩)
  · rw [hkeys.mem_iff, List.mem_cons, h.issued, Allocator.count_bump, Filed.key, hf,
      Prod.mk.injEq]
    by_cases hspec : spec = f.spec
    · subst hspec
      simp only [true_and, if_true]
      omega
    · simp [hspec, mt (fun he ↦ PartitionSpec.bucket_injective he) hspec]
  · rcases List.mem_cons.mp (hb'.mem_iff.mp he) with rfl | he
    · have hplaces := foreign_of_not_mem h.inPlace hnew
      rcases hstatus with rfl | rfl
      · exact ⟨h.frame _ hplaces.1, h.frame _ hplaces.2⟩
      · exact ⟨.inl (h.frame _ hplaces.1), h.frame _ hplaces.2⟩
    · exact h.stands e he
  · exact h.frame p fun k hk ↦ hp k (hkeys.mem_iff.mpr (List.mem_cons_of_mem _ hk))

/-- Files may change their records and their status as long as they stand as the books say. -/
theorem Holds.of_stands (h : b.Holds layout mishaps a init s) (hkeys : b'.keys.Perm b.keys)
    (hstands : ∀ e ∈ b'.entries, e.1.Stands layout a mishaps init s e.2) :
    b'.Holds layout mishaps a init s where
  inPlace := h.inPlace
  nodup := hkeys.nodup_iff.mpr h.nodup
  issued spec i := hkeys.mem_iff.trans (h.issued spec i)
  stands := hstands
  frame p hp := h.frame p fun k hk ↦ hp k (hkeys.mem_iff.mpr hk)

/-- The same files have the same numbers. -/
theorem Holds.count_eq {a' : Allocator} (h : b.Holds layout mishaps a init s)
    (h' : b'.Holds layout mishaps a' init s') (hkeys : b'.keys.Perm b.keys) (spec : PartitionSpec) :
    a'.count spec.bucket = a.count spec.bucket := by
  apply eq_of_forall_lt_iff
  intro i
  rw [← h.issued, ← h'.issued, hkeys.mem_iff]

/-! ## What a store shows -/

/-- No file is kept twice, and none that was published. -/
theorem Holds.nodup_shown_kept (h : b.Holds layout mishaps a init s) :
    ((b.shown ++ b.kept).map Filed.key).Nodup := by
  have hnodup := h.nodup
  rw [keys_eq] at hnodup
  rw [List.map_append]
  exact hnodup.of_append_left.of_append_left.of_append_left.of_append_left

theorem Holds.nodup_kept (h : b.Holds layout mishaps a init s) : (b.kept.map Filed.key).Nodup := by
  have hnodup := h.nodup_shown_kept
  rw [List.map_append] at hnodup
  exact hnodup.of_append_right

/-- No file was closed twice for the open batch. -/
theorem Holds.nodup_closed (h : b.Holds layout mishaps a init s) :
    (b.closed.map Filed.key).Nodup := by
  have hnodup := h.nodup
  rw [keys_eq] at hnodup
  exact hnodup.of_append_left.of_append_left.of_append_left.of_append_right

/-- Published files are at different places. -/
theorem Holds.nodup_target (h : b.Holds layout mishaps a init s) :
    (b.shown.map fun f ↦ (f.slot a).target).Nodup := by
  have hshown : (b.shown.map Filed.key).Nodup := by
    have hnodup := h.nodup
    simp only [keys_eq, List.append_assoc] at hnodup
    exact (List.nodup_append.mp hnodup).1
  have hkeys : b.shown.map (fun f ↦ (f.slot a).target) =
      (b.shown.map Filed.key).map fun k ↦ (a.slot k.1 k.2).target := by
    rw [List.map_map]
    rfl
  rw [hkeys]
  refine List.Nodup.map (fun k k' he ↦ ?_) hshown
  obtain ⟨hspec, hsequence⟩ := Allocator.slot_target_inj he
  exact Prod.ext hspec hsequence

/-- Where no file waits, only published files make a difference. -/
theorem Holds.get?_of_not_shown (h : b.Holds layout mishaps a init s) {p : ObjectPath}
    (hstaging : ∀ k ∈ b.keys, p ≠ (a.slot k.1 k.2).staging)
    (hp : ∀ f ∈ b.shown ++ b.kept, p ≠ (f.slot a).target) : s.get? p = init.get? p := by
  by_cases hforeign : b.Foreign a p
  · exact h.frame p hforeign
  · simp only [Foreign, not_forall, not_and_or, not_not] at hforeign
    obtain ⟨k, hk, hplace | hplace⟩ := hforeign
    · exact absurd hplace (hstaging k hk)
    · obtain ⟨⟨f, status⟩, he, rfl⟩ := List.mem_map.mp hk
      have hstands := h.stands _ he
      rw [mem_entries] at he
      rw [hplace]
      cases status with
      | shown => exact absurd hplace (hp f (List.mem_append_left _ he))
      | kept => exact absurd hplace (hp f (List.mem_append_right _ he))
      | closed => exact hstands.2
      | opened => exact hstands.2
      | removed => exact hstands.2
      | dropped => exact hstands.2

/-- Nobody has anything in hand. -/
structure Idle (b : Books ρ) : Prop where
  kept : b.kept = []
  closed : b.closed = []
  opened : b.opened = []
  dropped : b.dropped = []

/-- Where nothing goes wrong, nothing waits in the end. -/
theorem Holds.staging_eq_none (h : b.Holds layout Mishap.none a init s) (hidle : b.Idle)
    {spec : PartitionSpec} {i : Nat} (hi : i < a.count spec.bucket) :
    s.get? (a.slot spec i).staging = none := by
  obtain ⟨⟨f, status⟩, he, hkey⟩ := List.mem_map.mp ((h.issued spec i).mpr hi)
  obtain ⟨rfl, rfl⟩ := Prod.mk.inj hkey
  have hstands := h.stands _ he
  rw [mem_entries] at he
  cases status with
  | shown => exact hstands.2
  | removed => exact hstands.1.elim id fun ⟨_, hm⟩ ↦ hm.elim
  | kept => simp [files, hidle.kept] at he
  | closed => simp [files, hidle.closed] at he
  | opened => simp [files, hidle.opened] at he
  | dropped => simp [files, hidle.dropped] at he

/-! ## What becomes of a file

Every step of a file through its life, with what it does to the books and to the store. -/

section Steps

open MemoryStore (Updated Moved)

variable {f : Filed ρ} {fs before : List (Filed ρ)}

/-- The first open file is closed. -/
theorem Holds.stage (h : b.Holds layout mishaps a init s) (hb : b.opened = f :: fs)
    (hs : Updated s (f.slot a).staging (some (f.bytes layout)) s') :
    { b with opened := fs, closed := b.closed ++ [f] }.Holds layout mishaps a init s' := by
  have hbefore : b.files .opened = [] ++ f :: fs := hb
  have hopened := h.stands (f, .opened) (mem_entries.mpr (by simp [hbefore]))
  refine h.move .opened .closed (perm_entries b _ hbefore) ?_ (fun p hp _ ↦ ?_) ⟨?_, ?_⟩
  · simpa [setFiles] using
      perm_entries { b with opened := fs, closed := b.closed ++ [f] } .closed rfl
  · rw [hs, if_neg hp]
  · rw [hs, if_pos rfl]
  · rw [hs, if_neg (f.target_ne_staging h.inPlace), hopened.2]

/-- The first open file is given up before it is closed, or its bytes were put after all. -/
theorem Holds.drop (h : b.Holds layout mishaps a init s) (hb : b.opened = f :: fs)
    (hs : s' = s ∨ Updated s (f.slot a).staging (some (f.bytes layout)) s' ∧ mishaps .unheard) :
    { b with opened := fs, dropped := b.dropped ++ [f] }.Holds layout mishaps a init s' := by
  have hbefore : b.files .opened = [] ++ f :: fs := hb
  have hopened := h.stands (f, .opened) (mem_entries.mpr (by simp [hbefore]))
  have hafter := perm_entries { b with opened := fs, dropped := b.dropped ++ [f] } .dropped rfl
  refine h.move .opened .dropped (perm_entries b _ hbefore) (by simpa [setFiles] using hafter)
    (fun p hp _ ↦ ?_) ?_
  · rcases hs with rfl | ⟨hs, -⟩
    · rfl
    · rw [hs, if_neg hp]
  · rcases hs with rfl | ⟨hs, hm⟩
    · exact ⟨.inl hopened.1, hopened.2⟩
    · refine ⟨.inr ⟨hm, by rw [hs, if_pos rfl]⟩, ?_⟩
      rw [hs, if_neg (f.target_ne_staging h.inPlace), hopened.2]

/-- A file that is kept is moved to its target, and nobody hears about it. -/
theorem Holds.unheard (h : b.Holds layout mishaps a init s) (hb : b.kept = before ++ f :: fs)
    (hm : mishaps .unheard)
    (hs : Moved s (f.slot a).staging (f.slot a).target (f.bytes layout) s') :
    b.Holds layout mishaps a init s' := by
  have hbefore : b.files .kept = before ++ f :: fs := hb
  refine h.move .kept .kept (perm_entries b _ hbefore) (perm_entries b _ hbefore)
    (fun p hp hp' ↦ ?_) (.inr ⟨hm, ?_, ?_⟩)
  · rw [hs, if_neg hp, if_neg hp']
  · rw [hs, if_pos rfl]
  · rw [hs, if_neg (f.target_ne_staging h.inPlace), if_pos rfl]

/-- A file that waits is copied to its target, and still waits. -/
theorem Holds.halfway (h : b.Holds layout mishaps a init s) (hb : b.kept = before ++ f :: fs)
    (hm : mishaps .halfway) (hwaits : s.get? (f.slot a).staging = some (f.bytes layout))
    (hs : Updated s (f.slot a).target (some (f.bytes layout)) s') :
    b.Holds layout mishaps a init s' := by
  have hbefore : b.files .kept = before ++ f :: fs := hb
  refine h.move .kept .kept (perm_entries b _ hbefore) (perm_entries b _ hbefore)
    (fun p _ hp ↦ ?_) (.inl ⟨?_, .inr ⟨hm, ?_⟩⟩)
  · rw [hs, if_neg hp]
  · rw [hs, if_neg (f.target_ne_staging h.inPlace).symm, hwaits]
  · rw [hs, if_pos rfl]

/-- A file that is kept was published. -/
theorem Holds.publish (h : b.Holds layout mishaps a init s) (hb : b.kept = before ++ f :: fs)
    (helse : ∀ p, p ≠ (f.slot a).staging → p ≠ (f.slot a).target → s'.get? p = s.get? p)
    (hstaging : s'.get? (f.slot a).staging = none)
    (htarget : s'.get? (f.slot a).target = some (f.bytes layout)) :
    { b with kept := before ++ fs, shown := b.shown ++ [f] }.Holds layout mishaps a init s' := by
  have hbefore : b.files .kept = before ++ f :: fs := hb
  refine h.move .kept .shown (perm_entries b _ hbefore) ?_ helse ⟨htarget, hstaging⟩
  simpa [setFiles] using
    perm_entries { b with kept := before ++ fs, shown := b.shown ++ [f] } .shown rfl

/-- The closed files are to be published at a boundary. -/
theorem Holds.keep (h : b.Holds layout mishaps a init s) :
    { b with kept := b.kept ++ b.closed, closed := [] }.Holds layout mishaps a init s := by
  refine h.of_stands ?_ ?_
  · simp [keys_eq]
  · rintro ⟨f, status⟩ he
    rw [mem_entries] at he
    cases status with
    | kept =>
      rcases List.mem_append.mp he with he | he
      · exact h.stands (f, .kept) (mem_entries.mpr he)
      · have hclosed := h.stands (f, .closed) (mem_entries.mpr he)
        exact .inl ⟨hclosed.1, .inl hclosed.2⟩
    | closed => exact absurd he List.not_mem_nil
    | shown => exact h.stands (f, .shown) (mem_entries.mpr he)
    | opened => exact h.stands (f, .opened) (mem_entries.mpr he)
    | removed => exact h.stands (f, .removed) (mem_entries.mpr he)
    | dropped => exact h.stands (f, .dropped) (mem_entries.mpr he)

/-- The first closed file is removed, or it is left behind. -/
theorem Holds.remove (h : b.Holds layout mishaps a init s) (hb : b.closed = f :: fs)
    (hs : Updated s (f.slot a).staging none s' ∨ s' = s ∧ ∃ m, mishaps m) :
    { b with closed := fs, removed := b.removed ++ [f] }.Holds layout mishaps a init s' := by
  have hbefore : b.files .closed = [] ++ f :: fs := hb
  have hclosed := h.stands (f, .closed) (mem_entries.mpr (by simp [hbefore]))
  have hafter := perm_entries { b with closed := fs, removed := b.removed ++ [f] } .removed rfl
  refine h.move .closed .removed (perm_entries b _ hbefore) (by simpa [setFiles] using hafter)
    (fun p hp _ ↦ ?_) ?_
  · rcases hs with hs | ⟨rfl, -⟩
    · rw [hs, if_neg hp]
    · rfl
  · rcases hs with hs | ⟨rfl, hm⟩
    · refine ⟨.inl (by rw [hs, if_pos rfl]), ?_⟩
      rw [hs, if_neg (f.target_ne_staging h.inPlace), hclosed.2]
    · exact ⟨.inr hm, hclosed.2⟩

end Steps

end Books

end TableSink
