import TableSink.Proofs.Sink.Boundary

/-!
# The start of a sink

A configuration says at which desk its sink works. A new sink has empty books, and starting it only
looks at the table.
-/

namespace TableSink

open MemoryStore (Replies)

/-- Hands out the places of a run. -/
def Config.allocator (config : Config) (run : String) : Allocator :=
  .new config.stagingDir config.attempt config.naming run

/-- The desk of the sink of a configuration. -/
def Config.desk (config : Config) (run : String) (mishaps : Mishap → Prop) (init : MemoryStore) :
    Desk Json where
  layout := (Sink.new config run).layout
  strategy := config.strategy
  fixed := if config.strategy = .single then some config.fixedPartition else none
  mishaps
  base := config.allocator run
  init

variable {config : Config} {run : String} {mishaps : Mishap → Prop} {init : MemoryStore}

theorem Config.desk_fixed_of_single (h : config.strategy = .single) :
    (config.desk run mishaps init).fixed = some config.fixedPartition :=
  if_pos h

theorem Config.desk_fixed_of_many (h : config.strategy ≠ .single) :
    (config.desk run mishaps init).fixed = none :=
  if_neg h

/-- The books of a new sink are empty. -/
theorem Sink.keeps_new (config : Config) (run : String) (mishaps : Mishap → Prop)
    (init : MemoryStore) :
    (new config run).Keeps (config.desk run mishaps init) init {} where
  layout := rfl
  at_desk := by
    cases hs : config.strategy <;>
      exact ⟨by simp [new, Writer.new, hs, Config.desk, Writer.strategy],
        by simp [new, Writer.new, hs, Config.desk, Writer.fixed]⟩
  tracks := by
    have htracks : (({} : Books Json)).Tracks (config.desk run mishaps init) init
        (config.allocator run) [] [] := Books.tracks_empty rfl
    cases hs : config.strategy <;> simpa [new, Writer.new, hs, Writer.allocator, Writer.opened,
      Writer.closed, Config.allocator] using htracks
  retries := rfl

theorem Sink.at_new (config : Config) (run : String) (mishaps : Mishap → Prop)
    (init : MemoryStore) : (new config run).At (config.desk run mishaps init) :=
  ⟨rfl, (keeps_new config run mishaps init).at_desk⟩

/-- Starting a sink does nothing to the table, and fails only if the table cannot be listed. -/
theorem Sink.ends_start {result : Except SinkError Sink} {store : MemoryStore}
    (h : (start config run).Ends (Replies mishaps) init result store) :
    store = init ∧
      (result = .ok (new config run) ∨ (∃ e, result = .error e) ∧ ∃ m, mishaps m) := by
  simp only [start, Allocator.listStaged, Task.listBelow, Task.ends_bind] at h
  obtain ⟨listed, store₁, ⟨answer, store₂, hask, hlisted⟩, h⟩ := h
  obtain ⟨rfl, rfl⟩ := Task.ends_done.mp h
  obtain ⟨rfl, rfl⟩ := Task.ends_done.mp hlisted
  obtain ⟨reply, hreply, rfl⟩ := Task.ends_ask.mp hask
  obtain ⟨hstore, rfl | ⟨fault, rfl, hm⟩⟩ := hreply.list
  · exact ⟨hstore, .inl rfl⟩
  · exact ⟨hstore, .inr ⟨⟨_, rfl⟩, hm⟩⟩

end TableSink
