import TableSink.Proofs.Ingest.Whole
import TableSink.Proofs.Sink.Overlapping

/-!
# Runs whose commits overlap

In a world of stores in memory, the commits of a batch may overlap as far as the configuration lets
them (`World.overlapping`). A run on a table of such a world can be gone through, and whatever way
it goes, it comes to the same result as the run in which one commit comes after the other, and the
table shows the same (`Trace.ingest_any_order`).
-/

namespace TableSink

open MemoryStore (Replies)

/-- A world in which commits overlap. Only tables in memory can be worked on. -/
def World.overlapping : Surroundings (Ways MemoryStore) (Ways World) where
  openTable url := fun w table w' ↦ (w', table) = openTable url w
  fileContent path := fun w content w' ↦ content = w.disk.read path ∧ w' = w
  perform
    | .memory name, work => fun w a w' ↦
      ∃ s', work (w.store name) a s' ∧ w' = w.setStore name s'
    | .directory _, _ => fun _ _ _ ↦ False

/-- The world has this disk, and its store of a name shows the same as this one. -/
structure World.Shows (disk : Disk) (name : String) (w : World) (s : MemoryStore) : Prop where
  disk : w.disk = disk
  store : (w.store name).Alike s

namespace Sink

variable {d : Desk Json} {b : Books Json} {store store' : MemoryStore} {s s' : Sink}
variable {path : String}

/-- Starting a sink only looks at the table. -/
theorem refines_start (config : Config) (run : String) (store : MemoryStore) :
    Ways.Refines MemoryStore.Alike (liftM (start config run)) (start config run) store where
  possible s _ := ⟨_, _, (start config run).ends_answer s⟩
  ends := by
    intro s hs result s' hway
    have hstart := (start config run).ends_answer store
    obtain ⟨rfl, rfl | ⟨-, m, hm⟩⟩ := ends_start hway
    · obtain ⟨hstore, hstarted | ⟨-, m, hm⟩⟩ := ends_start hstart
      · rw [hstarted, hstore] at hstart
        exact ⟨store, hstart, hs⟩
      · exact hm.elim
    · exact hm.elim

/-- Feeding lines leaves a sink that there are books about. -/
theorem Keeps.exists_of_feedLines {number : Nat} {lines : List Line}
    {result : Except SinkError Unit} (hkeeps : s.Keeps d store b)
    (h : (s.feedLines path number lines).Ends (Replies d.mishaps) store (.ok (s', result)) store') :
    ∃ b', s'.Keeps d store' b' := by
  induction lines generalizing s store b number with
  | nil =>
    obtain ⟨hending, rfl⟩ := Task.ends_done.mp h
    cases hending
    exact ⟨b, hkeeps⟩
  | cons line lines ih =>
    cases line with
    | blank => exact ih hkeeps h
    | garbled | malformed _ =>
      obtain ⟨hending, rfl⟩ := Task.ends_done.mp h
      cases hending
      exact ⟨b, hkeeps⟩
    | record value =>
      obtain ⟨ending, store₁, hwrite, h⟩ := Task.ends_bind.mp h
      obtain panic | ⟨s₁, e | _⟩ := ending
      · cases (Task.ends_done.mp h).1
      · obtain ⟨hending, rfl⟩ := Task.ends_done.mp h
        cases hending
        exact hkeeps.exists_of_write hwrite
      · obtain ⟨b₁, hkeeps₁⟩ := hkeeps.exists_of_write hwrite
        exact ih hkeeps₁ h

theorem Keeps.refines_feedLines (hkeeps : s.Keeps d store b) (path : String) (number : Nat)
    (lines : List Line) : Ways.Refines MemoryStore.Alike (s.feedLines path number lines)
      (s.feedLines path number lines) store := by
  induction lines generalizing s store b number with
  | nil => exact Ways.refines_pure _ _
  | cons line lines ih =>
    cases line with
    | blank => exact ih hkeeps (number + 1)
    | garbled | malformed _ => exact Ways.refines_pure _ _
    | record value =>
      refine (hkeeps.refines_write value).bind ?_
      intro ending store₁ hwrite
      obtain panic | ⟨s₁, e | _⟩ := ending
      · exact Ways.refines_pure _ _
      · exact Ways.refines_pure _ _
      · obtain ⟨b₁, hkeeps₁⟩ := hkeeps.exists_of_write hwrite.of_none
        exact ih hkeeps₁ (number + 1)

theorem Keeps.refines_feedInput (hkeeps : s.Keeps d store b) (path : String)
    (content : Except FileFault ByteArray) : Ways.Refines MemoryStore.Alike
      (s.feedInput path content) (s.feedInput path content) store := by
  cases content with
  | error fault => exact Ways.refines_pure _ _
  | ok bytes => exact hkeeps.refines_feedLines path 1 _

theorem Keeps.exists_of_feedInput {content : Except FileFault ByteArray}
    {result : Except SinkError Unit} (hkeeps : s.Keeps d store b)
    (h : (s.feedInput path content).Ends (Replies d.mishaps) store (.ok (s', result)) store') :
    ∃ b', s'.Keeps d store' b' := by
  cases content with
  | error fault =>
    obtain ⟨hending, rfl⟩ := Task.ends_done.mp h
    cases hending
    exact ⟨b, hkeeps⟩
  | ok bytes => exact hkeeps.exists_of_feedLines h

theorem Keeps.exists_of_feedInputs {inputs : List (String × Except FileFault ByteArray)}
    {result : Except SinkError Unit} (hkeeps : s.Keeps d store b)
    (h : (s.feedInputs inputs).Ends (Replies d.mishaps) store (.ok (s', result)) store') :
    ∃ b', s'.Keeps d store' b' := by
  induction inputs generalizing s store b with
  | nil =>
    obtain ⟨hending, rfl⟩ := Task.ends_done.mp h
    cases hending
    exact ⟨b, hkeeps⟩
  | cons input inputs ih =>
    obtain ⟨ending, store₁, hinput, h⟩ := Task.ends_bind.mp h
    obtain panic | ⟨s₁, e | _⟩ := ending
    · cases (Task.ends_done.mp h).1
    · obtain ⟨hending, rfl⟩ := Task.ends_done.mp h
      cases hending
      exact hkeeps.exists_of_feedInput hinput
    · obtain ⟨b₁, hkeeps₁⟩ := hkeeps.exists_of_feedInput hinput
      exact ih hkeeps₁ h

theorem Keeps.refines_finishRun (hkeeps : s.Keeps d store b) (fed : Except SinkError Unit) :
    Ways.Refines MemoryStore.Alike (s.finishRun fed) (s.finishRun fed) store := by
  cases fed with
  | ok _ => exact hkeeps.refines_checkpoint.bind fun _ _ _ ↦ Ways.refines_pure _ _
  | error e => exact hkeeps.refines_abort.bind fun _ _ _ ↦ Ways.refines_pure _ _

end Sink

/-! ## In a world -/

namespace World

variable {disk : Disk} {name : String} {before : MemoryStore} {α : Type} {t : Task α}

/-- Work on a table in memory does to the world what it does to the store of the table. -/
theorem refines_perform {work : Ways MemoryStore α}
    (hwork : work.Refines MemoryStore.Alike t before) :
    Ways.Refines (Shows disk name) (overlapping.perform (.memory name) work) t before where
  possible w hw := by
    obtain ⟨a, s', hway⟩ := hwork.possible _ hw.store
    exact ⟨a, w.setStore name s', s', hway, rfl⟩
  ends := by
    rintro w hw a _ ⟨s', hway, rfl⟩
    obtain ⟨after, hends, hs'⟩ := hwork.ends _ hw.store a s' hway
    refine ⟨after, hends, by rw [disk_setStore, hw.disk], ?_⟩
    rw [store_setStore]
    exact hs'

/-- Reading a file leaves everything as it is. -/
theorem refines_fileContent {path : String} {f : Except FileFault ByteArray → Ways World α}
    (h : Ways.Refines (Shows disk name) (f (disk.read path)) t before) :
    Ways.Refines (Shows disk name) (overlapping.fileContent path >>= f) t before where
  possible w hw := by
    obtain ⟨a, w', hway⟩ := h.possible w hw
    exact ⟨a, w', _, w, ⟨rfl, rfl⟩, hw.disk ▸ hway⟩
  ends := by
    rintro w hw a w' ⟨_, _, ⟨rfl, rfl⟩, hway⟩
    rw [hw.disk] at hway
    exact h.ends _ hw a w' hway

/-- Opening a table in memory leaves everything as it is. -/
theorem refines_openTable {url : String} {f : Except StorageError Table → Ways World α}
    (hurl : Location.ofUrl? url = some (.memory name))
    (h : Ways.Refines (Shows disk name) (f (.ok ⟨(Location.memory name).url, .memory name⟩)) t
      before) :
    Ways.Refines (Shows disk name) (overlapping.openTable url >>= f) t before := by
  have hopen : ∀ w, openTable url w = (w, .ok ⟨(Location.memory name).url, .memory name⟩) := by
    intro w
    simp only [openTable, hurl]
  constructor
  · intro w hw
    obtain ⟨a, w', hway⟩ := h.possible w hw
    exact ⟨a, w', _, w, (hopen w).symm, hway⟩
  · rintro w hw a w' ⟨table, w₁, htable, hway⟩
    obtain ⟨rfl, rfl⟩ := Prod.mk.inj (htable.trans (hopen w))
    exact h.ends _ hw a w' hway

/-- Inputs are fed one after the other. -/
theorem refines_feed {d : Desk Json} {b : Books Json} {s : Sink} (hkeeps : s.Keeps d before b)
    (disk : Disk) (name : String) (paths : List String) :
    Ways.Refines (Shows disk name) (overlapping.feed (.memory name) s paths)
      (s.feedInputs (paths.map fun path ↦ (path, disk.read path))) before := by
  induction paths generalizing s before b with
  | nil => exact Ways.refines_pure _ _
  | cons path paths ih =>
    apply refines_fileContent
    refine (refines_perform (hkeeps.refines_feedInput path (disk.read path))).bind ?_
    intro ending fed hfed
    obtain panic | ⟨s₁, e | _⟩ := ending
    · exact Ways.refines_pure _ _
    · exact Ways.refines_pure _ _
    · obtain ⟨b₁, hkeeps₁⟩ := hkeeps.exists_of_feedInput hfed.of_none
      exact ih hkeeps₁

theorem refines_ingest {config : Config} (hurl : Location.ofUrl? config.table = some (.memory name))
    (run : String) (disk : Disk) (before : MemoryStore) (paths : List String) :
    Ways.Refines (Shows disk name) (overlapping.ingest config run paths)
      (Sink.ingest config run (paths.map fun path ↦ (path, disk.read path))) before := by
  apply refines_openTable hurl
  refine (refines_perform (Sink.refines_start config run before)).bind ?_
  intro started begun hstart
  obtain ⟨rfl, rfl | ⟨-, m, hm⟩⟩ := Sink.ends_start hstart
  · have hkeeps := Sink.keeps_new config run Mishap.none begun
    refine (refines_feed hkeeps disk name paths).bind ?_
    intro ending fed hfed
    obtain panic | ⟨s, result⟩ := ending
    · exact Ways.refines_pure _ _
    · obtain ⟨b, hkeeps'⟩ := hkeeps.exists_of_feedInputs hfed
      exact refines_perform (hkeeps'.refines_finishRun result)
  · exact hm.elim

end World

namespace Trace

variable {config : Config} {name : String}

/-- Whatever way the commits of a run overlap, it comes to the same result as the run in which one
commit comes after the other, and the table shows the same. -/
theorem ingest_any_order (hurl : Location.ofUrl? config.table = some (.memory name)) (run : String)
    (inputs : List String) (trace : Trace) :
    let work := World.overlapping.ingest config run inputs
    let outcome := surroundings.ingest config run inputs trace
    (∃ result w', work trace.world result w') ∧ ∀ result w', work trace.world result w' →
      result = outcome.1 ∧ (w'.store name).Alike (outcome.2.world.store name) := by
  intro work outcome
  have hrefines := World.refines_ingest hurl run trace.world.disk (trace.world.store name) inputs
  have hshows : World.Shows trace.world.disk name trace.world (trace.world.store name) :=
    ⟨rfl, fun _ ↦ rfl⟩
  have hdoes := ingest_memory hurl run inputs trace
  refine ⟨hrefines.possible _ hshows, fun result w' hway ↦ ?_⟩
  obtain ⟨store', hends, hw'⟩ := hrefines.ends _ hshows result w' hway
  obtain ⟨rfl, rfl⟩ := Task.run_of_ends hends
  refine ⟨hdoes.value.symm, fun p ↦ ?_⟩
  rw [hdoes.store]
  exact hw'.store p

end Trace

end TableSink
