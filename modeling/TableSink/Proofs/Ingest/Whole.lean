import TableSink.Ingest

/-!
# A run as one task

A run reads its inputs from a disk and makes its requests on a table of a world. If the table is a
store in memory, the requests touch neither the disk nor any other store. So the inputs may as well
be read in advance, and the run is one task on one store (`Trace.ingest_memory`).
-/

namespace TableSink

/-- Feed inputs that were read in advance to a sink, one after the other. -/
def Sink.feedInputs (s : Sink) :
    List (String × Except FileFault ByteArray) → Task Ending
  | [] => return .ok (s, .ok ())
  | (path, content) :: inputs => do
    match ← s.feedInput path content with
    | .ok (s, .ok ()) => s.feedInputs inputs
    | stopped => return stopped

/-- A run on inputs that were read in advance. -/
def Sink.ingest (config : Config) (run : String)
    (inputs : List (String × Except FileFault ByteArray)) :
    Task (Except Panic (Except SinkError SinkStats)) := do
  match ← start config run with
  | .error e => return .ok (.error e)
  | .ok sink =>
    match ← sink.feedInputs inputs with
    | .ok (sink, fed) => sink.finishRun fed
    | .error panic => return .error panic

/-- How many places for files of a partition a run hands out while it is fed. -/
def Config.handedOut (config : Config) (run : String) (before : MemoryStore)
    (inputs : List (String × Except FileFault ByteArray)) (spec : PartitionSpec) : Nat :=
  let fed := ((Sink.new config run).feedInputs inputs).run MemoryStore.answer before
  (fed.value.map fun (sink, _) ↦ sink.writer.allocator.count spec.bucket).toOption.getD 0

/-! ## One store of a world -/

namespace World

variable (w : World) (name : String) (s : MemoryStore)

@[simp] theorem store_setStore : (w.setStore name s).store name = s := by
  simp [store, setStore]

@[simp] theorem disk_setStore : (w.setStore name s).disk = w.disk := rfl

end World

/-- On a store in memory, a task does to the world what it does to the store. -/
theorem Task.run_memory {α : Type} (name : String) (t : Task α) (w : World) :
    (t.run (World.answer (.memory name)) w).value =
        (t.run MemoryStore.answer (w.store name)).value ∧
      (t.run (World.answer (.memory name)) w).state.store name =
        (t.run MemoryStore.answer (w.store name)).state ∧
      (t.run (World.answer (.memory name)) w).state.disk = w.disk := by
  induction t generalizing w with
  | done a => exact ⟨rfl, rfl, rfl⟩
  | emit e t ih => exact ih w
  | call r next ih =>
    have hnext := ih (MemoryStore.answer r (w.store name)).1
      (w.setStore name (MemoryStore.answer r (w.store name)).2)
    rw [World.store_setStore, World.disk_setStore] at hnext
    exact hnext

namespace Trace

variable {name : String}

/-- What an action on a trace gives and leaves behind is what a task gives and leaves behind on one
store of its world. -/
structure Does {α : Type} (name : String) (action : StateM Trace α) (t : Task α)
    (trace : Trace) : Prop where
  value : (action trace).1 = (t.run MemoryStore.answer (trace.world.store name)).value
  store : (action trace).2.world.store name =
    (t.run MemoryStore.answer (trace.world.store name)).state
  disk : (action trace).2.world.disk = trace.world.disk

theorem Does.pure {α : Type} (a : α) (trace : Trace) :
    Does name (Pure.pure a) (Task.done a) trace := ⟨rfl, rfl, rfl⟩

theorem Does.perform {α : Type} (t : Task α) (trace : Trace) :
    Does name (perform (.memory name) t) t trace := by
  obtain ⟨hvalue, hstore, hdisk⟩ := Task.run_memory name t trace.world
  exact ⟨hvalue, hstore, hdisk⟩

/-- One action after the other. -/
theorem Does.bind {α β : Type} {action : StateM Trace α} {t : Task α} {f : α → StateM Trace β}
    {g : α → Task β} {trace : Trace} (h : Does name action t trace)
    (hf : ∀ a trace', trace'.world.disk = trace.world.disk → Does name (f a) (g a) trace') :
    Does name (action >>= f) (t >>= g) trace := by
  have hrest := hf (action trace).1 (action trace).2 h.disk
  have haction : (action >>= f) trace = f (action trace).1 (action trace).2 := rfl
  constructor
  · rw [haction, hrest.value, Task.run_bind, h.store, h.value]
  · rw [haction, hrest.store, Task.run_bind, h.store, h.value]
  · rw [haction, hrest.disk, h.disk]

/-- Reading a file leaves everything as it is. -/
theorem Does.fileContent {α : Type} {path : String}
    {f : Except FileFault ByteArray → StateM Trace α} {t : Task α} {trace : Trace}
    (h : Does name (f (trace.world.disk.read path)) t trace) :
    Does name (Trace.fileContent path >>= f) t trace := ⟨h.value, h.store, h.disk⟩

/-- Reading a file when its turn has come is as good as having read it. -/
theorem Does.feed (s : Sink) (paths : List String) (trace : Trace) :
    Does name (surroundings.feed (.memory name) s paths)
      (s.feedInputs (paths.map fun path ↦ (path, trace.world.disk.read path))) trace := by
  induction paths generalizing s trace with
  | nil => exact .pure _ _
  | cons path paths ih =>
    apply Does.fileContent
    apply (Does.perform (s.feedInput path (trace.world.disk.read path)) trace).bind
    intro outcome trace' hdisk
    obtain _ | ⟨s', _ | _⟩ := outcome
    · exact .pure _ _
    · exact .pure _ _
    · rw [← hdisk]
      exact ih s' trace'

/-- Opening a table in memory leaves everything as it is. -/
theorem Does.openTable {α : Type} {url : String} {f : Except StorageError Table → StateM Trace α}
    {t : Task α} {trace : Trace} (hurl : Location.ofUrl? url = some (.memory name))
    (h : Does name (f (.ok ⟨(Location.memory name).url, .memory name⟩)) t trace) :
    Does name (Trace.openTable url >>= f) t trace := by
  have hopen : Trace.openTable url trace =
      (.ok ⟨(Location.memory name).url, .memory name⟩, trace) := by
    simp only [Trace.openTable, World.openTable, hurl]
  have haction : (Trace.openTable url >>= f) trace =
      f (.ok ⟨(Location.memory name).url, .memory name⟩) trace := by
    show f (Trace.openTable url trace).1 (Trace.openTable url trace).2 = _
    rw [hopen]
  constructor
  · rw [haction, h.value]
  · rw [haction, h.store]
  · rw [haction, h.disk]

/-- A run on a table in memory is one task on its store. -/
theorem ingest_memory {config : Config} (hurl : Location.ofUrl? config.table = some (.memory name))
    (run : String) (inputs : List String) (trace : Trace) :
    Does name (surroundings.ingest config run inputs)
      (Sink.ingest config run (inputs.map fun path ↦ (path, trace.world.disk.read path)))
      trace := by
  apply Does.openTable hurl
  apply (Does.perform (Sink.start config run) trace).bind
  intro started trace₁ hdisk₁
  cases started with
  | error e => exact .pure _ _
  | ok sink =>
    rw [← hdisk₁]
    apply (Does.feed sink inputs trace₁).bind
    intro ending trace₂ _
    obtain _ | ⟨sink', fed⟩ := ending
    · exact .pure _ _
    · exact .perform _ _

end Trace

end TableSink
