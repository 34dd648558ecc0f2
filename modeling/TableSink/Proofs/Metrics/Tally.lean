import TableSink.Proofs.Metrics.Figures
import TableSink.Proofs.Writer.Hands

/-!
# What a task adds to the figures

The tally of a task is what its events weigh, and how many of its puts were refused
(`Task.Tallies`). Two tasks in a row have both their tallies, so a function is looked at once, and
whoever calls it adds up. A writer opens and closes files: each file that was opened is staged, or
its put was refused, or it is still open (`Handles`).
-/

namespace TableSink

variable {σ ρ α β : Type} {answer : (r : Request) → σ → r.Reply × σ} {s s' : σ}

/-- Whether a store refused a put. -/
def Exchange.refusesPut (x : Exchange) : Bool :=
  x.1.operation = .put ∧ x.1.succeeded x.2 = false

/-- What is counted while a task runs. -/
@[ext]
structure Tally where
  /-- What its events weigh. -/
  entry : Entry → Nat
  /-- How many of its puts were refused. -/
  refused : Nat

namespace Tally

instance : Zero Tally := ⟨fun _ ↦ 0, 0⟩

instance : Add Tally := ⟨fun n m ↦ ⟨fun x ↦ n.entry x + m.entry x, n.refused + m.refused⟩⟩

/-- The tally of an event. -/
def ofEvent (e : Event) : Tally := ⟨e.weight, 0⟩

/-- The tally of a request with its reply. -/
def ofExchange (x : Exchange) : Tally := ⟨fun _ ↦ 0, if x.refusesPut then 1 else 0⟩

variable {n m : Tally} {x : Entry}

@[simp] theorem entry_zero : (0 : Tally).entry x = 0 := rfl

@[simp] theorem refused_zero : (0 : Tally).refused = 0 := rfl

@[simp] theorem entry_add : (n + m).entry x = n.entry x + m.entry x := rfl

@[simp] theorem refused_add : (n + m).refused = n.refused + m.refused := rfl

@[simp] theorem entry_ofEvent {e : Event} : (ofEvent e).entry x = e.weight x := rfl

@[simp] theorem refused_ofEvent {e : Event} : (ofEvent e).refused = 0 := rfl

@[simp] theorem entry_ofExchange {y : Exchange} : (ofExchange y).entry x = 0 := rfl

@[simp] theorem zero_add (n : Tally) : 0 + n = n :=
  Tally.ext (funext fun _ ↦ Nat.zero_add _) (Nat.zero_add _)

@[simp] theorem add_zero (n : Tally) : n + 0 = n := rfl

theorem add_assoc (n m k : Tally) : n + m + k = n + (m + k) :=
  Tally.ext (funext fun _ ↦ Nat.add_assoc _ _ _) (Nat.add_assoc _ _ _)

end Tally

namespace Task

/-- What is counted while a task runs. -/
def tally (answer : (r : Request) → σ → r.Reply × σ) (t : Task α) (s : σ) : Tally where
  entry x := ((t.run answer s).events.map fun e ↦ e.weight x).sum
  refused := ((t.exchanges answer s).filter Exchange.refusesPut).length

/-- Where the task ends from a state, with which value, and what was counted on the way. -/
structure Tallies (answer : (r : Request) → σ → r.Reply × σ) (t : Task α) (s : σ) (a : α) (s' : σ)
    (n : Tally) : Prop where
  value : (t.run answer s).value = a
  state : (t.run answer s).state = s'
  tally : t.tally answer s = n

variable {n : Tally} {a : α} {t : Task α}

theorem tallies_run (answer : (r : Request) → σ → r.Reply × σ) (t : Task α) (s : σ) :
    t.Tallies answer s (t.run answer s).value (t.run answer s).state (t.tally answer s) :=
  ⟨rfl, rfl, rfl⟩

theorem tallies_done {b : α} :
    (Task.done b).Tallies answer s a s' n ↔ a = b ∧ s' = s ∧ n = 0 :=
  ⟨fun h ↦ ⟨h.value.symm, h.state.symm, h.tally.symm⟩, fun ⟨ha, hs, hn⟩ ↦
    ⟨ha.symm, hs.symm, hn.symm⟩⟩

theorem tallies_done_pair {a b : α} {c d : β} :
    (Task.done (b, d)).Tallies answer s (a, c) s' n ↔ a = b ∧ c = d ∧ s' = s ∧ n = 0 := by
  rw [tallies_done, Prod.mk.injEq, and_assoc]

theorem tallies_emit {e : Event} :
    (Task.emit e t).Tallies answer s a s' n ↔
      ∃ m, t.Tallies answer s a s' m ∧ n = .ofEvent e + m := by
  have htally : (Task.emit e t).tally answer s = .ofEvent e + t.tally answer s :=
    Tally.ext (funext fun x ↦ rfl) (Nat.zero_add _).symm
  constructor
  · rintro ⟨hvalue, hstate, rfl⟩
    exact ⟨_, ⟨hvalue, hstate, rfl⟩, htally⟩
  · rintro ⟨m, ⟨hvalue, hstate, rfl⟩, rfl⟩
    exact ⟨hvalue, hstate, htally⟩

/-- Two tasks in a row have both their tallies. -/
theorem tallies_bind {f : α → Task β} {b : β} :
    (t >>= f).Tallies answer s b s' n ↔ ∃ a s₁ m k, t.Tallies answer s a s₁ m ∧
      (f a).Tallies answer s₁ b s' k ∧ n = m + k := by
  have htally : (t >>= f).tally answer s = t.tally answer s +
      (f (t.run answer s).value).tally answer (t.run answer s).state := by
    refine Tally.ext (funext fun x ↦ ?_) ?_
    · simp only [tally, run_bind, List.map_append, List.sum_append, Tally.entry_add]
    · simp only [tally, exchanges_bind, List.filter_append, List.length_append, Tally.refused_add]
  constructor
  · rintro ⟨hvalue, hstate, rfl⟩
    rw [run_bind] at hvalue hstate
    exact ⟨_, _, _, _, tallies_run answer t s, ⟨hvalue, hstate, rfl⟩, htally⟩
  · rintro ⟨_, _, _, _, ⟨rfl, rfl, rfl⟩, ⟨rfl, rfl, rfl⟩, rfl⟩
    exact ⟨by rw [run_bind], by rw [run_bind], htally⟩

/-- A question counts only if it is a put that is refused. -/
theorem tallies_ask {r : Request} {reply : Except StorageError r.Answer} :
    (ask r).Tallies answer s reply s' n ↔ reply = (answer r s).1.mapError .request ∧
      s' = (answer r s).2 ∧ n = .ofExchange ⟨r, (answer r s).1⟩ := by
  have htally : (ask r).tally answer s = .ofExchange ⟨r, (answer r s).1⟩ := by
    refine Tally.ext (funext fun x ↦ ?_) ?_
    · simp [tally, run_ask, Event.weight]
    · rw [tally, exchanges_ask, Tally.ofExchange, List.filter_singleton]
      cases Exchange.refusesPut ⟨r, (answer r s).1⟩ <;> rfl
  constructor
  · rintro ⟨rfl, rfl, rfl⟩
    exact ⟨rfl, rfl, htally⟩
  · rintro ⟨rfl, rfl, rfl⟩
    exact ⟨rfl, rfl, htally⟩

/-- A question other than a put does not count. -/
theorem tallies_ask_bind {r : Request} {f : Except StorageError r.Answer → Task α}
    (hr : r.operation ≠ .put) : (ask r >>= f).Tallies answer s a s' n ↔
      (f ((answer r s).1.mapError .request)).Tallies answer (answer r s).2 a s' n := by
  have hzero : Tally.ofExchange ⟨r, (answer r s).1⟩ = 0 := by
    cases r with
    | put => exact absurd rfl hr
    | _ => rfl
  constructor
  · intro h
    obtain ⟨_, _, _, k, hask, hnext, rfl⟩ := tallies_bind.mp h
    obtain ⟨rfl, rfl, rfl⟩ := tallies_ask.mp hask
    rwa [hzero, Tally.zero_add]
  · intro h
    refine tallies_bind.mpr ⟨_, _, _, n, tallies_ask.mpr ⟨rfl, rfl, rfl⟩, h, ?_⟩
    rw [hzero, Tally.zero_add]

end Task

/-- Whether an entry says how a committable has fared. -/
def Entry.isEnd : Entry → Bool
  | .committed _ | .discarded _ | .failed _ => true
  | .records | .opened | .staged _ => false

/-! ## Files of a writer -/

/-- Records were taken, and every file that was open or was opened is staged, was refused, or is
still open. -/
structure Handles (before after taken : Nat) (n : Tally) : Prop where
  records : n.entry .records = taken
  files : before + n.entry .opened =
    n.entry (.staged .commit) + n.entry (.staged .recovery) + n.refused + after
  ends : ∀ x, x.isEnd = true → n.entry x = 0

namespace Handles

variable {before after later taken more : Nat} {n m : Tally}

theorem refl (before : Nat) : Handles before before 0 0 :=
  ⟨rfl, by simp, fun _ _ ↦ rfl⟩

theorem trans (h : Handles before after taken n) (h' : Handles after later more m) :
    Handles before later (taken + more) (n + m) where
  records := congrArg₂ (· + ·) h.records h'.records
  files := by
    have hfiles := h.files
    have hfiles' := h'.files
    simp only [Tally.entry_add, Tally.refused_add]
    omega
  ends x hx := by rw [Tally.entry_add, h.ends x hx, h'.ends x hx]

/-- A record is taken by a file that is open. -/
theorem record (before : Nat) : Handles before before 1 (.ofEvent (.recordsWritten 1)) :=
  ⟨rfl, by simp [Event.weight], fun x hx ↦ by cases x <;> first | rfl | cases hx⟩

/-- A file is opened. -/
theorem opening (before : Nat) : Handles before (before + 1) 0 (.ofEvent .fileOpened) :=
  ⟨rfl, by simp [Event.weight], fun x hx ↦ by cases x <;> first | rfl | cases hx⟩

/-- A file is staged. -/
theorem staging (before bytes : Nat) (kind : CloseKind) :
    Handles (before + 1) before 0 (.ofEvent (.fileStaged bytes kind)) :=
  ⟨rfl, by cases kind <;> simp [Event.weight, Nat.add_comm], fun x hx ↦ by
    cases x <;> first | rfl | cases hx⟩

/-- How many files are open is said by the way. -/
theorem gauge (before count : Nat) : Handles before before 0 (.ofEvent (.openFiles count)) :=
  ⟨rfl, by simp [Event.weight], fun x _ ↦ by cases x <;> rfl⟩

end Handles

section Writing

variable {n : Tally} {kind : CloseKind}

/-- A file that is closed is staged, or its put was refused. -/
theorem OpenFile.tallies_close {f : OpenFile} {result : Except WriteError Committable}
    (h : (f.close kind).Tallies answer s result s' n) (others : Nat) :
    Handles (others + 1) others 0 n := by
  obtain ⟨_, _, _, _, hask, hnext, rfl⟩ := Task.tallies_bind.mp h
  obtain ⟨rfl, rfl, rfl⟩ := Task.tallies_ask.mp hask
  clear h
  generalize (answer (.put f.slot.staging f.buffer) s).1 = reply at hnext ⊢
  cases reply with
  | ok _ =>
    obtain ⟨m, hdone, rfl⟩ := Task.tallies_emit.mp hnext
    obtain ⟨-, -, rfl⟩ := Task.tallies_done.mp hdone
    have hput : Tally.ofExchange ⟨.put f.slot.staging f.buffer, .ok ()⟩ = 0 := rfl
    rw [hput, Tally.zero_add]
    exact Handles.staging others _ kind
  | error fault =>
    obtain ⟨-, -, rfl⟩ := Task.tallies_done.mp hnext
    have hput : Exchange.refusesPut ⟨.put f.slot.staging f.buffer, .error fault⟩ = true := rfl
    exact ⟨rfl, by simp [Tally.ofExchange, hput, Nat.add_comm], fun _ _ ↦ rfl⟩

theorem ManyFiles.tallies_closeEach {fs : List OpenFile}
    {closed : List Committable × Option WriteError}
    (h : (closeEach kind fs).Tallies answer s closed s' n) : Handles fs.length 0 0 n := by
  induction fs generalizing s s' closed n with
  | nil =>
    obtain ⟨-, -, rfl⟩ := Task.tallies_done.mp h
    exact .refl 0
  | cons f fs ih =>
    obtain ⟨result, _, m, _, hclose, hnext, rfl⟩ := Task.tallies_bind.mp h
    obtain ⟨⟨rest, error⟩, _, k, l, hrest, hdone, rfl⟩ := Task.tallies_bind.mp hnext
    obtain rfl : l = 0 := by
      cases result with
      | ok c => exact (Task.tallies_done.mp hdone).2.2
      | error e => exact (Task.tallies_done.mp hdone).2.2
    exact (OpenFile.tallies_close hclose fs.length).trans (ih hrest)

theorem OneFile.tallies_close {w w' : OneFile} {result : Except WriteError Unit}
    (h : (w.close kind).Tallies answer s (w', result) s' n) :
    Handles w.current.toList.length w'.current.toList.length 0 n := by
  rw [close] at h
  cases hcurrent : w.current with
  | none =>
    rw [hcurrent] at h
    obtain ⟨rfl, -, -, rfl⟩ := Task.tallies_done_pair.mp h
    rw [hcurrent]
    exact .refl 0
  | some f =>
    rw [hcurrent] at h
    obtain ⟨closed, _, m, l, hclose, hdone, rfl⟩ := Task.tallies_bind.mp h
    have hf := OpenFile.tallies_close hclose 0
    cases closed with
    | ok c =>
      obtain ⟨rfl, -, -, rfl⟩ := Task.tallies_done_pair.mp hdone
      exact hf
    | error e =>
      obtain ⟨rfl, -, -, rfl⟩ := Task.tallies_done_pair.mp hdone
      exact hf

/-- Closing a writer: each file that was open is staged, or its put was refused. -/
theorem Writer.tallies_close {w w' : Writer} {result : Except WriteError Unit}
    (h : (w.close kind).Tallies answer s (w', result) s' n) :
    Handles w.opened.length w'.opened.length 0 n := by
  cases w with
  | single spec files =>
    obtain ⟨⟨files', _⟩, _, m, l, hclose, hdone, rfl⟩ := Task.tallies_bind.mp h
    obtain ⟨rfl, -, -, rfl⟩ := Task.tallies_done_pair.mp hdone
    exact OneFile.tallies_close hclose
  | grouped files =>
    obtain ⟨⟨files', _⟩, _, m, l, hclose, hdone, rfl⟩ := Task.tallies_bind.mp h
    obtain ⟨rfl, -, -, rfl⟩ := Task.tallies_done_pair.mp hdone
    exact OneFile.tallies_close hclose
  | dynamic files =>
    obtain ⟨⟨files', _⟩, _, m, l, hclose, hdone, rfl⟩ := Task.tallies_bind.mp h
    obtain ⟨rfl, -, -, rfl⟩ := Task.tallies_done_pair.mp hdone
    obtain ⟨⟨closed, error⟩, _, k, l, heach, hreport, rfl⟩ := Task.tallies_bind.mp hclose
    obtain ⟨l, hdone, rfl⟩ := Task.tallies_emit.mp hreport
    obtain ⟨rfl, -, -, rfl⟩ := Task.tallies_done_pair.mp hdone
    exact (ManyFiles.tallies_closeEach heach).trans (.gauge 0 0)

variable {layout : Layout ρ} {spec : PartitionSpec} {record projected : ρ}
variable {result : Except WriteError Unit}

/-- A record that is written to the open file, or to a new one. -/
theorem OneFile.tallies_put {w w' : OneFile} (hencode : layout.encoder.Total)
    (h : (w.put layout.encoder spec projected).Tallies answer s (w', result) s' n) :
    result = .ok () ∧ Handles w.current.toList.length w'.current.toList.length 1 n := by
  cases hcurrent : w.current with
  | none =>
    rw [put_of_new hcurrent (hencode _ _)] at h
    obtain ⟨_, h₁, rfl⟩ := Task.tallies_emit.mp h
    obtain ⟨_, h₂, rfl⟩ := Task.tallies_emit.mp h₁
    obtain ⟨rfl, rfl, -, rfl⟩ := Task.tallies_done_pair.mp h₂
    exact ⟨rfl, (Handles.opening 0).trans (.record 1)⟩
  | some f =>
    rw [put_of_open hcurrent (hencode _ _)] at h
    obtain ⟨_, h₁, rfl⟩ := Task.tallies_emit.mp h
    obtain ⟨rfl, rfl, -, rfl⟩ := Task.tallies_done_pair.mp h₁
    exact ⟨rfl, .record 1⟩

theorem OneFile.tallies_writeClustered {w w' : OneFile}
    (hencode : layout.encoder.Total)
    (h : (w.writeClustered layout record).Tallies answer s (w', result) s' n) :
    Handles w.current.toList.length w'.current.toList.length (if result.isOk then 1 else 0) n := by
  cases hplace : layout.place none record with
  | error e =>
    rw [writeClustered_of_rejected hplace] at h
    obtain ⟨rfl, rfl, -, rfl⟩ := Task.tallies_done_pair.mp h
    exact .refl _
  | ok place =>
    obtain ⟨spec, projected⟩ := place
    by_cases hsame : ∀ f ∈ w.current, f.slot.bucket = spec.bucket
    · rw [writeClustered_of_same hplace hsame] at h
      obtain ⟨rfl, hput⟩ := tallies_put hencode h
      exact hput
    · simp only [not_forall] at hsame
      obtain ⟨f, hf, hother⟩ := hsame
      rw [writeClustered_of_other hplace hf hother] at h
      obtain ⟨⟨w₁, closed⟩, _, m, k, hclose, hnext, rfl⟩ := Task.tallies_bind.mp h
      have hclosed := tallies_close hclose
      cases closed with
      | ok _ =>
        obtain ⟨rfl, hput⟩ := tallies_put hencode hnext
        have hboth := hclosed.trans hput
        rwa [Nat.zero_add] at hboth
      | error e =>
        obtain ⟨rfl, rfl, -, rfl⟩ := Task.tallies_done_pair.mp hnext
        exact hclosed

theorem OneFile.tallies_writeFixed {w w' : OneFile}
    (hencode : layout.encoder.Total)
    (h : (w.writeFixed layout spec record).Tallies answer s (w', result) s' n) :
    Handles w.current.toList.length w'.current.toList.length (if result.isOk then 1 else 0) n := by
  cases hproject : layout.computer.project record with
  | error e =>
    rw [writeFixed_of_rejected hproject] at h
    obtain ⟨rfl, rfl, -, rfl⟩ := Task.tallies_done_pair.mp h
    exact .refl _
  | ok projected =>
    rw [writeFixed_of_project hproject] at h
    obtain ⟨rfl, hput⟩ := tallies_put hencode h
    exact hput

theorem ManyFiles.tallies_write {w w' : ManyFiles}
    (hencode : layout.encoder.Total)
    (h : (w.write layout record).Tallies answer s (w', result) s' n) :
    Handles w.opened.length w'.opened.length (if result.isOk then 1 else 0) n := by
  cases hplace : layout.place none record with
  | error e =>
    rw [write_of_rejected hplace] at h
    obtain ⟨rfl, rfl, -, rfl⟩ := Task.tallies_done_pair.mp h
    exact .refl _
  | ok place =>
    obtain ⟨spec, projected⟩ := place
    cases hfile : w.file? spec.bucket with
    | some f =>
      rw [write_of_open hplace hfile (hencode _ _)] at h
      obtain ⟨_, h₁, rfl⟩ := Task.tallies_emit.mp h
      obtain ⟨rfl, rfl, -, rfl⟩ := Task.tallies_done_pair.mp h₁
      rw [keep, List.length_map]
      exact .record _
    | none =>
      rw [write_of_new hplace hfile (hencode _ _)] at h
      obtain ⟨_, h₁, rfl⟩ := Task.tallies_emit.mp h
      obtain ⟨_, h₂, rfl⟩ := Task.tallies_emit.mp h₁
      obtain ⟨_, h₃, rfl⟩ := Task.tallies_emit.mp h₂
      obtain ⟨rfl, rfl, -, rfl⟩ := Task.tallies_done_pair.mp h₃
      rw [List.length_append, List.length_singleton]
      exact (Handles.opening _).trans ((Handles.record _).trans (.gauge _ (w.opened.length + 1)))

/-- A write counts a record just if it succeeds. -/
theorem Writer.tallies_write {w w' : Writer}
    (hencode : layout.encoder.Total)
    (h : (w.write layout record).Tallies answer s (w', result) s' n) :
    Handles w.opened.length w'.opened.length (if result.isOk then 1 else 0) n := by
  cases w with
  | single spec files =>
    obtain ⟨⟨files', _⟩, _, m, l, hwrite, hdone, rfl⟩ := Task.tallies_bind.mp h
    obtain ⟨rfl, rfl, -, rfl⟩ := Task.tallies_done_pair.mp hdone
    exact OneFile.tallies_writeFixed hencode hwrite
  | grouped files =>
    obtain ⟨⟨files', _⟩, _, m, l, hwrite, hdone, rfl⟩ := Task.tallies_bind.mp h
    obtain ⟨rfl, rfl, -, rfl⟩ := Task.tallies_done_pair.mp hdone
    exact OneFile.tallies_writeClustered hencode hwrite
  | dynamic files =>
    obtain ⟨⟨files', _⟩, _, m, l, hwrite, hdone, rfl⟩ := Task.tallies_bind.mp h
    obtain ⟨rfl, rfl, -, rfl⟩ := Task.tallies_done_pair.mp hdone
    exact ManyFiles.tallies_write hencode hwrite

end Writing

end TableSink
