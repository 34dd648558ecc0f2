import TableSink.Proofs.Writer.Calls
import TableSink.Proofs.Writer.Pieces

/-!
# A batch of a grouped writer

What a writer with one open file makes of records since a boundary, when any of them may have no
place or not be encoded. Every run of records (`Layout.runs`) has a file of its own. Such a file
ends in one of three ways: a record that cannot be encoded takes it away, a record of another
partition has it staged, or the boundary does.

`Layout.Groups` says which files there are for the runs, and with which numbers. `OneFile.Serves`
says where they are: those that are over were staged if they are intact, and the one that goes on is
open. Writing keeps it, as long as all files can be put (`OneFile.Serving.write`), and the boundary
leaves no file open (`OneFile.Serving.close`). In these files there stands beside each record
whether it was written, and `Filed.untold` leaves that out.
-/

namespace TableSink

variable {σ ρ : Type} {layout : Layout ρ} {spec : PartitionSpec} {record projected : ρ}
variable {written : Bool}

namespace Filed

/-- The file does not end in a record that could not be encoded. -/
def intact (f : Filed (ρ × Bool)) : Bool := f.records.getLast?.any Prod.snd

theorem intact_add (f : Filed (ρ × Bool)) (record : ρ) (written : Bool) :
    (f.add (record, written)).intact = written := by
  simp [intact, add]

/-- The file without what is told of its records. -/
def untold (f : Filed (ρ × Bool)) : Filed ρ := ⟨f.spec, f.sequence, f.records.map Prod.fst⟩

theorem untold_add (f : Filed (ρ × Bool)) (record : ρ) (written : Bool) :
    (f.add (record, written)).untold = f.untold.add record := by
  simp [untold, add]

theorem held_singleton (f : Filed ρ) (spec : PartitionSpec) :
    held [f] spec = if f.spec = spec then f.records else [] := by
  by_cases hspec : f.spec = spec
  · rw [if_pos hspec, ← hspec]
    exact held_of_mem (List.nodup_singleton f.spec) (List.mem_singleton_self f)
  · rw [if_neg hspec]
    exact held_of_forall_ne (by simpa using hspec)

/-- Files that were asked for one after the other, after others in the partitions of `history`: the
number of a file is that of the files of its partition before it. -/
def Numbered (history : List PartitionSpec) (files : List (Filed ρ)) : Prop :=
  ∀ i f, files[i]? = some f →
    f.sequence = (history ++ (files.take i).map Filed.spec).count f.spec

variable {history : List PartitionSpec} {files : List (Filed ρ)} {f : Filed ρ}

theorem numbered_concat : Numbered history (files ++ [f]) ↔
    Numbered history files ∧ f.sequence = (history ++ files.map Filed.spec).count f.spec := by
  constructor
  · refine fun h ↦ ⟨fun i g hg ↦ ?_, by simpa using h files.length f (by simp)⟩
    obtain ⟨hi, -⟩ := List.getElem?_eq_some_iff.mp hg
    have hg' := h i g (by rwa [List.getElem?_append_left hi])
    rwa [List.take_append_of_le_length hi.le] at hg'
  · rintro ⟨hfiles, hf⟩ i g hg
    rcases Nat.lt_or_ge i files.length with hi | hi
    · rw [List.getElem?_append_left hi] at hg
      rw [List.take_append_of_le_length hi.le]
      exact hfiles i g hg
    · rw [List.getElem?_append_right hi, List.getElem?_singleton] at hg
      obtain ⟨hi', rfl⟩ : i = files.length ∧ f = g := by
        split at hg
        · exact ⟨by omega, Option.some.inj hg⟩
        · cases hg
      rw [hi', List.take_left]
      exact hf

theorem Numbered.lt (h : Numbered history files) :
    ∀ f ∈ files, f.sequence < (history ++ files.map Filed.spec).count f.spec := by
  induction files using List.reverseRecOn with
  | nil => simp
  | append_singleton files g ih =>
    obtain ⟨hfiles, hg⟩ := numbered_concat.mp h
    intro f hf
    rw [List.map_append, ← List.append_assoc, List.count_append]
    rcases List.mem_append.mp hf with hf | hf
    · exact Nat.lt_of_lt_of_le (ih hfiles f hf) (Nat.le_add_right _ _)
    · obtain rfl := List.mem_singleton.mp hf
      simp [hg]

/-- No two files have the same partition and number. -/
theorem Numbered.nodup_keys (h : Numbered history files) : (files.map key).Nodup := by
  induction files using List.reverseRecOn with
  | nil => exact List.nodup_nil
  | append_singleton files g ih =>
    obtain ⟨hfiles, hg⟩ := numbered_concat.mp h
    refine nodup_map_concat (ih hfiles) fun f hf hkey ↦ ?_
    obtain ⟨hspec, hsequence⟩ := Prod.mk.inj hkey
    have hlt := hfiles.lt f hf
    rw [hspec, hsequence, hg] at hlt
    exact Nat.lt_irrefl _ hlt

end Filed

namespace Layout

/-- These are the files for the runs of some records, with the numbers that come after those of the
files that were asked for before. -/
structure Groups (layout : Layout ρ) (history : List PartitionSpec) (told : List (ρ × Bool))
    (files : List (Filed (ρ × Bool))) : Prop where
  runs : files.map Filed.records = layout.runs told
  partition : ∀ f ∈ files, ∀ t ∈ f.records, layout.partition? t.1 = some f.spec
  numbered : Filed.Numbered history files

namespace Groups

variable {history : List PartitionSpec} {told : List (ρ × Bool)}
variable {files : List (Filed (ρ × Bool))} {f : Filed (ρ × Bool)}

theorem nil (layout : Layout ρ) (history : List PartitionSpec) : layout.Groups history [] [] where
  runs := by simp [Layout.runs, Layout.placed]
  partition := by simp
  numbered := by simp [Filed.Numbered]

/-- The record has no place. -/
theorem rejected (h : layout.Groups history told files)
    (hrecord : layout.partition? record = none) (written : Bool) :
    layout.Groups history (told ++ [(record, written)]) files :=
  ⟨h.runs.trans (runs_concat_of_rejected hrecord told written).symm, h.partition, h.numbered⟩

/-- The last run goes on. -/
theorem same (h : layout.Groups history told (files ++ [f])) (hintact : f.intact = true)
    (hrecord : layout.partition? record = some f.spec) (written : Bool) :
    layout.Groups history (told ++ [(record, written)]) (files ++ [f.add (record, written)]) := by
  have hf : ∀ t ∈ f.records, layout.partition? t.1 = some f.spec := h.partition f (by simp)
  obtain ⟨hfiles, hnumber⟩ := Filed.numbered_concat.mp h.numbered
  refine ⟨?_, fun g hg t ht ↦ ?_, Filed.numbered_concat.mpr ⟨hfiles, hnumber⟩⟩
  · have hruns := h.runs
    rw [List.map_append, List.map_singleton] at hruns ⊢
    refine (runs_concat_of_same hruns.symm hrecord (fun last hlast ↦
      ⟨?_, hf last (List.mem_of_mem_getLast? hlast)⟩) written).symm
    simpa [Filed.intact, Option.mem_def.mp hlast] using hintact
  · rcases List.mem_append.mp hg with hg | hg
    · exact h.partition g (List.mem_append_left _ hg) t ht
    · obtain rfl := List.mem_singleton.mp hg
      rcases List.mem_append.mp ht with ht | ht
      · exact hf t ht
      · rw [List.mem_singleton.mp ht, hrecord]
        rfl

/-- A run is begun. -/
theorem other (h : layout.Groups history told files)
    (hlast : ∀ f ∈ files.getLast?, f.intact = true → f.spec ≠ spec)
    (hrecord : layout.partition? record = some spec) (written : Bool) :
    layout.Groups history (told ++ [(record, written)])
      (files ++ [⟨spec, (history ++ files.map Filed.spec).count spec, [(record, written)]⟩]) := by
  refine ⟨?_, fun g hg t ht ↦ ?_, Filed.numbered_concat.mpr ⟨h.numbered, rfl⟩⟩
  · rw [List.map_append, List.map_singleton, h.runs]
    refine (runs_concat_of_other hrecord (fun run hrun last hl hwritten ↦ ?_) written).symm
    rw [← h.runs, List.getLast?_map] at hrun
    obtain ⟨f, hf, rfl⟩ := Option.map_eq_some_iff.mp hrun
    have hintact : f.intact = true := by simpa [Filed.intact, Option.mem_def.mp hl]
    rw [h.partition f (List.mem_of_mem_getLast? hf) last (List.mem_of_mem_getLast? hl)]
    simpa using hlast f hf hintact
  · rcases List.mem_append.mp hg with hg | hg
    · exact h.partition g hg t ht
    · obtain rfl := List.mem_singleton.mp hg
      rw [List.mem_singleton.mp ht, hrecord]

end Groups

end Layout

namespace OneFile

/-- The files of a batch are where they should be: those that are over and intact were staged, and
the one that goes on is open. The batch began with these committables and this store. -/
structure Serves (layout : Layout ρ) (base : Allocator) (history : List PartitionSpec)
    (before : List Committable) (get? : σ → ObjectPath → Option ByteArray) (init : σ)
    (told : List (ρ × Bool)) (w : OneFile) (s : σ) (past : List (Filed (ρ × Bool)))
    (now : Option (Filed (ρ × Bool))) : Prop where
  groups : layout.Groups history told (past ++ now.toList)
  allocator : w.allocator = base.after (history ++ (past ++ now.toList).map Filed.spec)
  current : w.current = now.map fun f ↦ f.untold.openFile layout base
  closed : w.closed = before ++ (past.filter Filed.intact).map fun f ↦
    f.untold.committable layout base .commit
  staged : ∀ f ∈ past, f.intact = true →
    get? s (f.slot base).staging = some (f.untold.bytes layout)
  frame : ∀ q, (∀ f ∈ past, f.intact = true → q ≠ (f.slot base).staging) → get? s q = get? init q
  intact : ∀ f ∈ now, f.intact = true

namespace Serves

variable {base : Allocator} {history : List PartitionSpec} {before : List Committable}
variable {get? : σ → ObjectPath → Option ByteArray} {init s : σ} {told : List (ρ × Bool)}
variable {w : OneFile} {past : List (Filed (ρ × Bool))} {now : Option (Filed (ρ × Bool))}
variable {f : Filed (ρ × Bool)}

/-- The open file is staged. -/
theorem turn (h : Serves layout base history before get? init told w s past (some f))
    {answer : (r : Request) → σ → r.Reply × σ} (hput : PutsWhole answer get?)
    (hok : (answer (.put (f.slot base).staging (f.untold.bytes layout)) s).1 = .ok ()) :
    Serves layout base history before get? init told
      { w with current := none, closed := w.closed ++ [f.untold.committable layout base .commit] }
      (answer (.put (f.slot base).staging (f.untold.bytes layout)) s).2 (past ++ [f]) none := by
  have hf : f.intact = true := h.intact f rfl
  have hstored := hput.stored _ _ _ hok
  have hother : ∀ g ∈ past, (g.slot base).staging ≠ (f.slot base).staging := by
    intro g hg he
    have hnodup := h.groups.numbered.nodup_keys
    rw [Option.toList_some, List.map_append, List.nodup_append] at hnodup
    obtain ⟨hspec, hsequence⟩ := Allocator.slot_staging_inj he
    exact hnodup.2.2 _ (List.mem_map_of_mem hg) _ (List.mem_singleton.mpr rfl)
      (Prod.ext hspec hsequence)
  refine ⟨?_, ?_, rfl, ?_, fun g hg hintact ↦ ?_, fun q hq ↦ ?_, by simp⟩
  · simpa using h.groups
  · simpa using h.allocator
  · rw [List.filter_append, List.filter_cons_of_pos hf, List.filter_nil, List.map_append,
      ← List.append_assoc, ← h.closed]
    rfl
  · rcases List.mem_append.mp hg with hg | hg
    · rw [hstored, if_neg (hother g hg), h.staged g hg hintact]
    · obtain rfl := List.mem_singleton.mp hg
      rw [hstored, if_pos rfl]
  · obtain ⟨hpast, hlast⟩ := List.forall_mem_append.mp hq
    rw [hstored, if_neg (hlast f (by simp) hf), h.frame q hpast]

/-- A file goes on behind those that are over. -/
theorem went_on (h : Serves layout base history before get? init told w s past now)
    {told' : List (ρ × Bool)} (hgroups : layout.Groups history told' (past ++ [f]))
    (hf : f.intact = true) :
    Serves layout base history before get? init told'
      ⟨base.after (history ++ (past ++ [f]).map Filed.spec),
        some (f.untold.openFile layout base), w.closed⟩ s past (some f) :=
  ⟨hgroups, rfl, rfl, h.closed, h.staged, h.frame, by simpa using hf⟩

/-- A file is given up behind those that are over. -/
theorem spoiled (h : Serves layout base history before get? init told w s past now)
    {told' : List (ρ × Bool)} (hgroups : layout.Groups history told' (past ++ [f]))
    (hf : f.intact = false) :
    Serves layout base history before get? init told'
      ⟨base.after (history ++ (past ++ [f]).map Filed.spec), none, w.closed⟩ s (past ++ [f])
      none := by
  refine ⟨?_, ?_, rfl, ?_, fun g hg hintact ↦ ?_, fun q hq ↦ ?_, by simp⟩
  · simpa using hgroups
  · simp
  · rw [List.filter_append, List.filter_cons_of_neg (by simp [hf]), List.filter_nil,
      List.append_nil, h.closed]
  · rcases List.mem_append.mp hg with hg | hg
    · exact h.staged g hg hintact
    · rw [List.mem_singleton.mp hg, hf] at hintact
      cases hintact
  · exact h.frame q fun g hg ↦ hq g (List.mem_append_left _ hg)

end Serves

/-- Between two calls the last file is open, unless it was given up, and holds the records of the
run that goes on. -/
structure Rests (layout : Layout ρ) (told : List (ρ × Bool)) (past : List (Filed (ρ × Bool)))
    (now : Option (Filed (ρ × Bool))) : Prop where
  encodes : layout.Told layout.running told
  last : now = none → ∀ f ∈ past.getLast?, f.intact = false
  held : ∀ spec, layout.running spec told = Filed.held (now.toList.map Filed.untold) spec

/-- The files of a batch are where they should be, and no call is going on. -/
def Serving (layout : Layout ρ) (base : Allocator) (history : List PartitionSpec)
    (before : List Committable) (get? : σ → ObjectPath → Option ByteArray) (init : σ)
    (told : List (ρ × Bool)) (w : OneFile) (s : σ) : Prop :=
  ∃ past now, Serves layout base history before get? init told w s past now ∧
    Rests layout told past now

section Writing

variable {base : Allocator} {history : List PartitionSpec} {before : List Committable}
variable {get? : σ → ObjectPath → Option ByteArray} {init s : σ} {told : List (ρ × Bool)}
variable {w : OneFile} {past : List (Filed (ρ × Bool))} {now : Option (Filed (ρ × Bool))}
variable {f : Filed (ρ × Bool)} {answer : (r : Request) → σ → r.Reply × σ}

/-- A record was written to the file that goes on. -/
theorem Rests.of_written (htold : layout.Told layout.running told)
    (hplace : layout.place none record = .ok (f.spec, projected))
    (hrunning : layout.running f.spec told ++ [record] = f.untold.records)
    (hencode : (layout.encoder projected (layout.lines (layout.running f.spec told))).2 = .ok ()) :
    Rests layout (told ++ [(record, true)]) past (some f) where
  encodes := htold.concat (iff_of_true rfl ⟨f.spec, projected, hplace, hencode⟩)
  last := by simp
  held spec := by
    have hrecord := Layout.partition?_of_place hplace
    rw [Option.toList_some, List.map_singleton, Filed.held_singleton]
    by_cases hspec : f.untold.spec = spec
    · rw [if_pos hspec, ← hrunning, ← hspec]
      exact Layout.running_concat_of_written hrecord told
    · rw [if_neg hspec]
      exact Layout.running_concat_of_ne hrecord (fun _ he ↦ hspec he.symm) told

/-- A record could not be encoded, and its file is over. -/
theorem Rests.of_not_written (htold : layout.Told layout.running told)
    (hplace : layout.place none record = .ok (spec, projected)) {fault : Json.Fault}
    (hencode : (layout.encoder projected (layout.lines (layout.running spec told))).2 =
      .error fault) (hspoiled : f.intact = false) :
    Rests layout (told ++ [(record, false)]) (past ++ [f]) none where
  encodes := htold.concat
    (iff_of_false Bool.false_ne_true (Layout.not_encodes_of_error hplace hencode))
  last := by simpa using hspoiled
  held spec := Layout.running_concat_of_ne (Layout.partition?_of_place hplace) (by simp) told

/-- A record for the open file. -/
theorem Serves.put_same (h : Serves layout base history before get? init told w s past (some f))
    (hrests : Rests layout told past (some f))
    (hplace : layout.place none record = .ok (f.spec, projected)) :
    let outcome := (w.put layout.encoder f.spec projected).run answer s
    Serving layout base history before get? init (told ++ [(record, outcome.value.2.isOk)])
      outcome.value.1 outcome.state := by
  have hgroups := h.groups.same (h.intact f rfl) (Layout.partition?_of_place hplace)
  have hallocator : ∀ written, w.allocator =
      base.after (history ++ (past ++ [f.add (record, written)]).map Filed.spec) :=
    fun written ↦ h.allocator.trans (by simp [Filed.add])
  have hheld : layout.running f.spec told = f.untold.records :=
    (hrests.held f.spec).trans ((Filed.held_singleton f.untold f.spec).trans (if_pos rfl))
  have hcurrent : w.current = some (f.untold.openFile layout base) := h.current
  intro outcome
  cases hencode : (layout.encoder projected (f.untold.bytes layout)).2 with
  | ok _ =>
    have houtcome : outcome = _ := congrArg (Task.run answer · s) (put_of_open hcurrent hencode)
    have hserves := h.went_on (hgroups true) (f.intact_add record true)
    rw [f.untold.append_openFile layout base (Layout.project_of_place hplace) hencode] at houtcome
    rw [houtcome]
    rw [← hallocator, Filed.untold_add] at hserves
    refine ⟨past, some (f.add (record, true)), hserves, .of_written hrests.encodes hplace ?_ ?_⟩
    · rw [Filed.untold_add]
      exact congrArg (· ++ [record]) hheld
    · rw [Filed.bytes, ← hheld] at hencode
      exact hencode
  | error fault =>
    have houtcome : outcome = _ :=
      congrArg (Task.run answer · s) (put_of_open_error hcurrent hencode)
    have hspoiled := f.intact_add record false
    have hserves := h.spoiled (hgroups false) hspoiled
    rw [houtcome]
    rw [← hallocator] at hserves
    rw [Filed.bytes, ← hheld] at hencode
    exact ⟨_, none, hserves, .of_not_written hrests.encodes hplace hencode hspoiled⟩

/-- A record for a new file. -/
theorem Serves.put_new (h : Serves layout base history before get? init told w s past none)
    (htold : layout.Told layout.running told) (hnone : layout.running spec told = [])
    (hbase : ∀ bucket, base.count bucket = 0)
    (hlast : ∀ f ∈ past.getLast?, f.intact = true → f.spec ≠ spec)
    (hplace : layout.place none record = .ok (spec, projected)) :
    let outcome := (w.put layout.encoder spec projected).run answer s
    Serving layout base history before get? init (told ++ [(record, outcome.value.2.isOk)])
      outcome.value.1 outcome.state := by
  have hpast : past ++ (none : Option (Filed (ρ × Bool))).toList = past := List.append_nil past
  let f (written : Bool) : Filed (ρ × Bool) :=
    ⟨spec, (history ++ past.map Filed.spec).count spec, [(record, written)]⟩
  have hgroups : ∀ written, layout.Groups history (told ++ [(record, written)])
      (past ++ [f written]) :=
    (hpast ▸ h.groups).other hlast (Layout.partition?_of_place hplace)
  have hold : w.allocator = base.after (history ++ past.map Filed.spec) := hpast ▸ h.allocator
  have hcount : w.allocator.count spec.bucket =
      (history ++ past.map Filed.spec).count spec := by
    rw [hold, Allocator.count_after, hbase, Nat.zero_add]
  have hslot : w.allocator.slot = base.slot := by rw [hold, Allocator.slot_after]
  have hallocator : ∀ written, w.allocator.bump spec.bucket =
      base.after (history ++ (past ++ [f written]).map Filed.spec) := by
    intro written
    rw [List.map_append, ← List.append_assoc, hold]
    exact (Allocator.after_concat _ _ _).symm
  have hcurrent : w.current = none := h.current
  intro outcome
  cases hencode : (layout.encoder projected .empty).2 with
  | ok _ =>
    have houtcome : outcome = _ := congrArg (Task.run answer · s) (put_of_new hcurrent hencode)
    have hserves := h.went_on (hgroups true) rfl
    have hopened := Filed.append_new layout base spec ((history ++ past.map Filed.spec).count spec)
      (Layout.project_of_place hplace) hencode
    rw [hcount, hslot, hopened, hallocator true] at houtcome
    rw [houtcome]
    refine ⟨past, _, hserves, .of_written htold hplace ?_ ?_⟩
    · rw [show layout.running (f true).spec told = [] from hnone]
      rfl
    · rw [show layout.running (f true).spec told = [] from hnone]
      exact hencode
  | error fault =>
    have houtcome : outcome = _ :=
      congrArg (Task.run answer · s) (put_of_new_error hcurrent hencode)
    have hserves := h.spoiled (hgroups false) rfl
    rw [hallocator false] at houtcome
    rw [houtcome]
    have hfault : (layout.encoder projected (layout.lines (layout.running spec told))).2 =
        .error fault := by
      rw [hnone]
      exact hencode
    exact ⟨_, none, hserves, .of_not_written htold hplace hfault rfl⟩

/-- A record is written. If the file of another partition is closed for it, that has to succeed. -/
theorem Serving.write (h : Serving layout base history before get? init told w s)
    (hbase : ∀ bucket, base.count bucket = 0) (hput : PutsWhole answer get?) (record : ρ)
    (hok : ∀ x ∈ (w.writeClustered layout record).exchanges answer s,
      x.1.succeeded x.2 = true) :
    let outcome := (w.writeClustered layout record).run answer s
    Serving layout base history before get? init (told ++ [(record, outcome.value.2.isOk)])
      outcome.value.1 outcome.state := by
  obtain ⟨past, now, hserves, hrests⟩ := h
  cases hplace : layout.place none record with
  | error e =>
    rw [writeClustered_of_rejected hplace]
    have hrecord := Layout.partition?_of_rejected hplace
    have htold := hrests.encodes.concat
      (iff_of_false Bool.false_ne_true (Layout.not_encodes_of_rejected hplace))
    exact ⟨past, now, { hserves with groups := hserves.groups.rejected hrecord false },
      htold, hrests.last, fun spec ↦
        (Layout.running_concat_of_rejected hrecord told false).trans (hrests.held spec)⟩
  | ok placed =>
  obtain ⟨spec, projected⟩ := placed
  cases now with
  | none =>
    have hcurrent : w.current = none := hserves.current
    rw [writeClustered_of_same hplace (by simp [hcurrent])]
    refine hserves.put_new hrests.encodes (hrests.held spec) hbase (fun f hf hintact ↦ ?_) hplace
    rw [hrests.last rfl f hf] at hintact
    cases hintact
  | some f =>
    by_cases hspec : f.spec = spec
    · subst hspec
      have hcurrent : w.current = some (f.untold.openFile layout base) := hserves.current
      rw [writeClustered_of_same hplace
        (by simp [hcurrent, Filed.openFile, Filed.slot, Filed.untold])]
      exact hserves.put_same hrests hplace
    · have hcurrent : w.current = some (f.untold.openFile layout base) := hserves.current
      have hwrite := writeClustered_of_other hplace hcurrent
        (PartitionSpec.bucket_injective.ne hspec)
      have hnone : layout.running spec told = [] :=
        (hrests.held spec).trans ((Filed.held_singleton f.untold spec).trans (if_neg hspec))
      rw [hwrite, Task.exchanges_bind, exchanges_close hcurrent] at hok
      have hreply := (Try.succeeded_exchange _).mp (hok _ List.mem_cons_self)
      obtain ⟨hvalue, hstate⟩ := run_close_of_ok hcurrent .commit hreply
      have hturned := hserves.turn hput hreply
      rw [hwrite, Task.run_bind]
      simp only [hvalue, hstate]
      exact hturned.put_new hrests.encodes hnone hbase (by simpa using fun _ ↦ hspec) hplace

/-- The boundary ends the last run. If its file is open, it has to be staged. -/
theorem Serving.close (h : Serving layout base history before get? init told w s)
    (hput : PutsWhole answer get?)
    (hok : ∀ x ∈ (w.close .commit).exchanges answer s, x.1.succeeded x.2 = true) :
    let outcome := (w.close .commit).run answer s
    ∃ files, w.current.toList = (files.getLast?.toList.filter Filed.intact).map
        (fun f ↦ f.untold.openFile layout base) ∧ outcome.value.2 = .ok () ∧
      Serves layout base history before get? init told outcome.value.1 outcome.state files
        none := by
  obtain ⟨past, now, hserves, hrests⟩ := h
  cases now with
  | none =>
    have hcurrent : w.current = none := hserves.current
    have hclose : w.close .commit = .done (w, .ok ()) := by
      simp only [OneFile.close, hcurrent, Task.pure_eq]
    rw [hclose]
    refine ⟨past, ?_, rfl, hserves⟩
    cases hpast : past.getLast? with
    | none => simp [hcurrent]
    | some f => simp [hcurrent, hrests.last rfl f hpast]
  | some f =>
    have hcurrent : w.current = some (f.untold.openFile layout base) := hserves.current
    rw [exchanges_close hcurrent] at hok
    have hreply := (Try.succeeded_exchange _).mp (hok _ List.mem_cons_self)
    obtain ⟨hvalue, hstate⟩ := run_close_of_ok hcurrent .commit hreply
    simp only [hvalue, hstate]
    refine ⟨past ++ [f], ?_, trivial, hserves.turn hput hreply⟩
    simp [hcurrent, hserves.intact f rfl]

end Writing

end OneFile

namespace Writer

variable {answer : (r : Request) → σ → r.Reply × σ} {get? : σ → ObjectPath → Option ByteArray}

/-- What writing records since a boundary leaves, where all files can be put. -/
theorem serving_writeEach (layout : Layout ρ) {base : Allocator}
    (hbase : ∀ bucket, base.count bucket = 0) (history : List PartitionSpec)
    (before : List Committable) (records : List ρ) (hput : PutsWhole answer get?) (init : σ) :
    let writing := (grouped ⟨base.after history, none, before⟩).writeEach layout records
    let written := writing.run answer init
    (∀ x ∈ writing.exchanges answer init, x.1.succeeded x.2 = true) →
    written.value.2.length = records.length ∧
      ∃ w, written.value.1 = .grouped w ∧
        OneFile.Serving layout base history before get? init
          (records.zip (written.value.2.map Except.isOk)) w written.state := by
  let inv (told : List (ρ × Bool)) (w : Writer) (s : σ) : Prop := ∃ g, w = .grouped g ∧
    OneFile.Serving layout base history before get? init told g s
  have hstart : inv [] (grouped ⟨base.after history, none, before⟩) init :=
    ⟨_, rfl, [], none,
      ⟨.nil layout history, by simp, rfl, by simp, by simp, fun _ _ ↦ rfl, by simp⟩,
      layout.told_nil _, by simp, fun _ ↦ rfl⟩
  have hstep : ∀ told record w s, inv told w s →
      (∀ x ∈ (w.write layout record).exchanges answer s, x.1.succeeded x.2 = true) →
      let after := (w.write layout record).run answer s
      inv (told ++ [(record, after.value.2.isOk)]) after.value.1 after.state := by
    rintro told record _ s ⟨g, rfl, hserving⟩ hok
    simp only [write, Task.exchanges_bind, Task.pure_eq, Task.exchanges_done,
      List.append_nil] at hok
    have hserving' := hserving.write hbase hput record hok
    simp only [write, Task.run_bind, Task.pure_eq, Task.run_done]
    exact ⟨_, rfl, hserving'⟩
  intro writing written hok
  exact writeEach_induction hstep hstart hok

/-- Records are written since a boundary, and then the writer is closed, where all files can be put.
A write succeeds if its record has a place and can be encoded behind the records of the run that
goes on. Every run has a file, and gets a committable if it does not end in a record that could not
be encoded. A file holds the records of its run, and its number is how often a file of the partition
was begun before, ever since the first one. Only the file of the last run may be open. Records
without a place change nothing at all, and end no run. -/
theorem runs_staged (layout : Layout ρ) (stagingDir run : String) (attempt : Attempt)
    (naming : FileNaming) (history : List PartitionSpec) (before : List Committable)
    (records : List ρ) (hput : PutsWhole answer get?) (init : σ) :
    let base := Allocator.new stagingDir attempt naming run
    let writing := (grouped ⟨base.after history, none, before⟩).writeEach layout records
    let written := writing.run answer init
    let closing := written.value.1.close .commit
    let after := closing.run answer written.state
    let told := records.zip (written.value.2.map Except.isOk)
    (∀ x ∈ writing.exchanges answer init ++ closing.exchanges answer written.state,
      x.1.succeeded x.2 = true) →
    (∃ files : List (Filed (ρ × Bool)),
      written.value.2.length = records.length ∧ layout.Told layout.running told ∧
      written.value.1.opened = (files.getLast?.toList.filter Filed.intact).map
        (fun f ↦ f.untold.openFile layout base) ∧
      written.value.1.opened.length ≤ 1 ∧
      after.value = (.grouped ⟨base.after (history ++ files.map Filed.spec), none,
        before ++ (files.filter Filed.intact).map fun f ↦
          f.untold.committable layout base .commit⟩, .ok ()) ∧
      files.map Filed.records = layout.runs told ∧
      (∀ f ∈ files, ∀ t ∈ f.records, layout.partition? t.1 = some f.spec) ∧
      Filed.Numbered history files ∧
      (∀ f ∈ files, f.intact = true →
        get? after.state (f.slot base).staging = some (f.untold.bytes layout)) ∧
      ∀ q, (∀ f ∈ files, f.intact = true → q ≠ (f.slot base).staging) →
        get? after.state q = get? init q) ∧
    ∀ record e, layout.place none record = .error e →
      (∀ w, (grouped w).write layout record = .done (.grouped w, .error (.computation e))) ∧
      ∀ xs ys, layout.runs (xs ++ (record, false) :: ys) = layout.runs (xs ++ ys) := by
  intro base writing written closing after told hok
  have hbase : ∀ bucket, base.count bucket = 0 := fun _ ↦ rfl
  refine ⟨?_, fun record e hrecord ↦ ⟨fun w ↦ ?_, fun xs ys ↦ ?_⟩⟩
  · obtain ⟨hwriting, hclose⟩ := List.forall_mem_append.mp hok
    obtain ⟨hlength, w, hwritten, hserving⟩ :=
      serving_writeEach layout hbase history before records hput init hwriting
    have htold : layout.Told layout.running told := by
      obtain ⟨_, _, -, hrests⟩ := hserving
      exact hrests.encodes
    have hclosing : closing = w.close .commit >>= fun outcome ↦
        .done (.grouped outcome.1, outcome.2) := congrArg (·.close .commit) hwritten
    rw [hclosing, Task.exchanges_bind, List.forall_mem_append] at hclose
    obtain ⟨files, hopened, hresult, hserves⟩ := hserving.close hput hclose.1
    have hfiles : files ++ (none : Option (Filed (ρ × Bool))).toList = files :=
      List.append_nil files
    have hgroups : layout.Groups history told files := hfiles ▸ hserves.groups
    have hafter : after = _ := congrArg (Task.run answer · written.state) hclosing
    rw [Task.run_bind] at hafter
    rw [hafter, hwritten]
    refine ⟨files, hlength, htold, hopened, ?_, ?_, hgroups.runs, hgroups.partition,
      hgroups.numbered, hserves.staged, hserves.frame⟩
    · cases hw : w.current <;> simp [opened, hw]
    · generalize (w.close .commit).run answer written.state = outcome at hresult hserves
      obtain ⟨⟨⟨allocator, current, closed⟩, result⟩, s, events⟩ := outcome
      obtain rfl : result = .ok () := hresult
      obtain rfl : current = none := hserves.current
      obtain rfl := hserves.closed
      obtain rfl := hserves.allocator
      rw [hfiles]
      rfl
  · rw [write, OneFile.writeClustered_of_rejected hrecord]
    rfl
  · simp [Layout.runs, Layout.placed, Layout.partition?_of_rejected hrecord]

/-- The encoder puts a mark at the beginning of each file. There is a run with a record without a
place in the middle, a run that is cut because a record cannot be encoded, and one that is nothing
but such a record. There was a file of the first partition before. -/
theorem runs_staged_after_spoiled_files :
    let layout : Layout String := ⟨⟨fun r ↦ if r = "?" then .error (.notAnObject "string") else
      .ok [("p", String.ofList (r.toList.take 1))], .ok⟩,
      fun r buffer ↦ (((if buffer.size = 0 then "#" else "") ++ r).toUTF8,
        if '!' ∈ r.toList then .error .mismatch else .ok ())⟩
    let history : List PartitionSpec := [[("p", "a")]]
    let records := ["a1", "?", "a2", "b1", "b2!", "b3", "a3!", "c1"]
    let base := Allocator.new "_staging" ⟨0, 0⟩ {} "r"
    let writing := (grouped ⟨base.after history, none, []⟩).writeEach layout records
    let written := writing.run MemoryStore.answer .empty
    let closing := written.value.1.close .commit
    let after := closing.run MemoryStore.answer written.state
    let told := records.zip (written.value.2.map Except.isOk)
    (∀ x ∈ writing.exchanges MemoryStore.answer .empty ++
        closing.exchanges MemoryStore.answer written.state, x.1.succeeded x.2 = true) ∧
      (layout.runs told).map (List.map Prod.fst) =
        [["a1", "a2"], ["b1", "b2!"], ["b3"], ["a3!"], ["c1"]] ∧
      after.state.get? (base.slot [("p", "a")] 1).staging = some "#a1a2".toUTF8 ∧
      ∃ files : List (Filed (String × Bool)),
        after.value = (.grouped ⟨base.after (history ++ files.map Filed.spec), none,
          [] ++ (files.filter Filed.intact).map fun f ↦
            f.untold.committable layout base .commit⟩, .ok ()) ∧
        files.map Filed.records = layout.runs told ∧ Filed.Numbered history files := by
  intro layout history records
  obtain ⟨⟨files, -, -, -, -, hafter, hruns, -, hnumbered, -⟩, -⟩ :=
    runs_staged layout "_staging" "r" ⟨0, 0⟩ {} history [] records MemoryStore.putsWhole_answer
      .empty (by decide +kernel)
  exact ⟨by decide +kernel, by decide +kernel, by decide +kernel, files, hafter, hruns, hnumbered⟩

end Writer

end TableSink
