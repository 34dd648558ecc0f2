import TableSink.Proofs.Commit.Counted
import TableSink.Proofs.Sink.Stopping
import TableSink.Proofs.Sink.Workers

/-!
# Figures of a sink

The figures are made up of events that are reported far below a sink: by files when they are opened
and closed, and by tokens when they are finished. A sink keeps figures of its own, added up from
what its writer and the reports on its batches return. The two agree, whatever a store replies
(`Sink.figures_agree`). Every call keeps the balance between them (`Sink.Balances`), and so does
every row of calls, as long as the program does not stop.
-/

namespace TableSink

variable {σ : Type} {answer : (r : Request) → σ → r.Reply × σ} {store store' : σ} {n m : Tally}

/-- A batch that was handed over to be finished, with the state of the store at that time. -/
abbrev Handed (σ : Type) := List Committable × σ

namespace Handed

/-- A batch is only handed over if there is something in it. -/
def list (batch : List Committable) (store : σ) : List (Handed σ) :=
  if batch = [] then [] else [(batch, store)]

/-- The report on a batch. -/
def report (answer : (r : Request) → σ → r.Reply × σ) (b : Handed σ) : CommitReport :=
  ((commitBatch b.1).run answer b.2).value

/-- How many of its files were found to be published before. -/
def shown (answer : (r : Request) → σ → r.Reply × σ) (b : Handed σ) : Nat :=
  shownBefore answer b.1 b.2

end Handed

namespace Sink

/-- What a checkpoint hands over: the batch, together with what is kept, or, if the batch cannot be
closed, what was staged for it. -/
def handedAtCheckpoint (answer : (r : Request) → σ → r.Reply × σ) (s : Sink) (store : σ) :
    List (Handed σ) :=
  let closing := (s.writer.close .commit).run answer store
  let staged := closing.value.1.closed
  match closing.value.2 with
  | .error _ => Handed.list (staged.map Committable.intoDiscard) closing.state
  | .ok () => Handed.list (s.retries ++ staged) closing.state

/-- What an abort hands over: what was staged for the batch, and then, if the batch could be closed,
what is kept. -/
def handedAtAbort (answer : (r : Request) → σ → r.Reply × σ) (s : Sink) (store : σ) :
    List (Handed σ) :=
  let closing := (s.writer.close .recovery).run answer store
  let staged := closing.value.1.closed.map Committable.intoDiscard
  Handed.list staged closing.state ++
    match closing.value.2 with
    | .error _ => []
    | .ok () => Handed.list s.retries ((commitBatch staged).run answer closing.state).state

/-- What a write hands over: nothing, unless it fills the batch. -/
def handedAtWrite (answer : (r : Request) → σ → r.Reply × σ) (s : Sink) (record : Json)
    (store : σ) : List (Handed σ) :=
  let writing := (s.writer.write s.layout record).run answer store
  match writing.value.2 with
  | .error _ => []
  | .ok () =>
    if s.batchSize ≤ s.inBatch + 1 then
      { s with writer := writing.value.1 }.handedAtCheckpoint answer writing.state
    else []

/-- What a call hands over. -/
def handed (answer : (r : Request) → σ → r.Reply × σ) (s : Sink) (store : σ) :
    Call → List (Handed σ)
  | .write record => s.handedAtWrite answer record store
  | .checkpoint => s.handedAtCheckpoint answer store
  | .abort => s.handedAtAbort answer store

/-- All batches that are handed over while calls are carried out. -/
def handedBy (answer : (r : Request) → σ → r.Reply × σ) :
    List Call → Except Panic Sink → σ → List (Handed σ)
  | [], _, _ | _ :: _, .error _, _ => []
  | c :: cs, .ok s, store =>
    let outcome := (s.call c).run answer store
    s.handed answer store c ++ handedBy answer cs outcome.value.sink outcome.state

/-- The figures that a sink keeps have changed as the tally says, with the reports on some batches.
-/
structure Balances (answer : (r : Request) → σ → r.Reply × σ) (s s' : Sink)
    (batches : List (Handed σ)) (n : Tally) : Prop where
  records : s.stats.records + n.entry .records = s'.stats.records
  files : s.writer.opened.length + n.entry .opened =
    n.entry (.staged .commit) + n.entry (.staged .recovery) + n.refused + s'.writer.opened.length
  committed : s.stats.committed + n.entry (.committed false) + n.entry (.committed true) +
    (batches.map (Handed.shown answer)).sum = s'.stats.committed
  discarded : s.stats.discarded + n.entry (.discarded false) + n.entry (.discarded true) =
    s'.stats.discarded
  failed : ∀ stage, n.entry (.failed stage) =
    (batches.flatMap fun b ↦ (b.report answer).failed).countP fun f ↦ f.stage = stage
  layout : s'.layout = s.layout

variable {s s' : Sink} {result : Except SinkError Unit}

namespace Balances

variable {s'' : Sink} {batches batches' : List (Handed σ)}

theorem refl (s : Sink) : Balances answer s s [] 0 :=
  ⟨rfl, by simp, rfl, rfl, fun _ ↦ rfl, rfl⟩

theorem trans (h : Balances answer s s' batches n) (h' : Balances answer s' s'' batches' m) :
    Balances answer s s'' (batches ++ batches') (n + m) where
  records := by rw [Tally.entry_add, ← h'.records, ← h.records, Nat.add_assoc]
  files := by
    have hfiles := h.files
    have hfiles' := h'.files
    simp only [Tally.entry_add, Tally.refused_add]
    omega
  committed := by
    have hcommitted := h.committed
    have hcommitted' := h'.committed
    simp only [Tally.entry_add, List.map_append, List.sum_append]
    omega
  discarded := by
    have hdiscarded := h.discarded
    have hdiscarded' := h'.discarded
    simp only [Tally.entry_add]
    omega
  failed stage := by
    rw [Tally.entry_add, h.failed, h'.failed, List.flatMap_append, List.countP_append]
  layout := h'.layout.trans h.layout

/-- What a writer does. -/
theorem of_handles {taken : Nat}
    (h : Handles s.writer.opened.length s'.writer.opened.length taken n)
    (hstats : s'.stats = { s.stats with records := s.stats.records + taken })
    (hlayout : s'.layout = s.layout) : Balances answer s s' [] n where
  records := by rw [h.records, hstats]
  files := h.files
  committed := by
    rw [h.ends _ rfl, h.ends _ rfl, hstats]
    rfl
  discarded := by
    rw [h.ends _ rfl, h.ends _ rfl, hstats]
    rfl
  failed stage := h.ends _ rfl
  layout := hlayout

/-- Nothing is done that counts. -/
theorem of_opened (hopened : s'.writer.opened = s.writer.opened) (hstats : s'.stats = s.stats)
    (hlayout : s'.layout = s.layout) : Balances answer s s' [] 0 := by
  have hhandles : Handles s.writer.opened.length s'.writer.opened.length 0 0 := by
    rw [hopened]
    exact .refl _
  exact of_handles hhandles hstats hlayout

/-- A batch is finished. -/
theorem of_commitBatch {batch : List Committable} {report : CommitReport} {batches : Nat}
    (h : (commitBatch batch).Tallies answer store report store' n)
    (hstats : s'.stats = { s.stats.add report with batches })
    (hopened : s'.writer.opened = s.writer.opened) (hlayout : s'.layout = s.layout) :
    Balances answer s s' [(batch, store)] n := by
  have hreported := tallies_commitBatch h
  have hreport : Handed.report answer (batch, store) = report := h.value
  constructor
  · rw [hreported.others _ rfl, hstats]
    rfl
  · rw [hreported.others _ rfl, hreported.others _ rfl, hreported.others _ rfl, hreported.refused,
      hopened]
    simp
  · have hcommitted := hreported.committed
    simp only [hstats, SinkStats.add, Handed.shown, List.map_cons, List.map_nil, List.sum_singleton]
    omega
  · have hdiscarded := hreported.discarded
    simp only [hstats, SinkStats.add]
    omega
  · intro stage
    rw [hreported.failed, List.flatMap_singleton, hreport]
  · exact hlayout

end Balances

/-! ## Calls -/

/-- Committing adds the report on a batch to the figures of the sink. -/
theorem tallies_commit {batch : List Committable} {report : CommitReport}
    (h : (s.commit batch).Tallies answer store (s', report) store' n) :
    (commitBatch batch).Tallies answer store report store' n ∧
      s' = { s with stats := s.stats.add report } := by
  obtain ⟨report', _, m, k, hbatch, hdone, rfl⟩ := Task.tallies_bind.mp h
  obtain ⟨rfl, rfl, rfl, rfl⟩ := Task.tallies_done_pair.mp hdone
  exact ⟨hbatch, rfl⟩

/-- Giving up a batch finishes what was staged for it. -/
theorem balances_discardBatch (h : s.discardBatch.Tallies answer store s' store' n) :
    let staged := s.writer.closed.map Committable.intoDiscard
    Balances answer s s' (Handed.list staged store) n ∧
      store' = ((commitBatch staged).run answer store).state ∧ s'.retries = s.retries := by
  intro staged
  rw [discardBatch] at h
  by_cases hstaged : staged = []
  · have hempty : s.writer.closed.map Committable.intoDiscard = [] := hstaged
    simp only [hempty, if_true] at h
    obtain ⟨rfl, rfl, rfl⟩ := Task.tallies_done.mp h
    rw [hstaged]
    exact ⟨.of_opened (Writer.opened_drain _) rfl rfl, rfl, rfl⟩
  · have hne : s.writer.closed.map Committable.intoDiscard ≠ [] := hstaged
    simp only [hne, if_false] at h
    obtain ⟨⟨s₁, report⟩, _, m, k, hcommit, hdone, rfl⟩ := Task.tallies_bind.mp h
    obtain ⟨hbatch, rfl⟩ := tallies_commit hcommit
    obtain ⟨rfl, rfl, rfl⟩ := Task.tallies_done.mp hdone
    rw [Handed.list, if_neg hstaged]
    exact ⟨.of_commitBatch hbatch rfl (Writer.opened_drain _) rfl, hbatch.state.symm, rfl⟩

theorem balances_checkpoint (h : s.checkpoint.Tallies answer store (.ok (s', result)) store' n) :
    Balances answer s s' (s.handedAtCheckpoint answer store) n := by
  obtain ⟨⟨w, closed⟩, store₁, m, k, hclose, hnext, rfl⟩ := Task.tallies_bind.mp h
  rw [Task.liftM_eq] at hclose
  -- The writer is closed first, and what was open is not any more.
  have hclosed : Balances answer s { s with inBatch := 0, writer := w } [] m :=
    .of_handles (Writer.tallies_close hclose) rfl rfl
  rw [handedAtCheckpoint, hclose.value, hclose.state]
  cases closed with
  | error e =>
    obtain ⟨s₁, store₂, k, l, hdiscard, hdone, rfl⟩ := Task.tallies_bind.mp hnext
    obtain ⟨hending, -, rfl⟩ := Task.tallies_done.mp hdone
    obtain ⟨rfl, rfl⟩ := Prod.mk.inj (Except.ok.inj hending)
    exact hclosed.trans (balances_discardBatch hdiscard).1
  | ok _ =>
    by_cases hempty : s.retries ++ w.closed = []
    · simp only [hempty, if_true] at hnext
      obtain ⟨hending, -, rfl⟩ := Task.tallies_done.mp hnext
      obtain ⟨rfl, rfl⟩ := Prod.mk.inj (Except.ok.inj hending)
      simp only [Handed.list, hempty, if_true]
      exact hclosed.trans (.of_opened (Writer.opened_drain _) rfl rfl)
    · simp only [hempty, if_false] at hnext
      obtain ⟨⟨s₁, report⟩, store₂, k, l, hcommit, hdone, rfl⟩ := Task.tallies_bind.mp hnext
      obtain ⟨hbatch, rfl⟩ := tallies_commit hcommit
      simp only [Handed.list, hempty, if_false]
      by_cases hsuccess : report.isSuccess = true
      · simp only [hsuccess, if_true] at hdone
        obtain ⟨hending, -, rfl⟩ := Task.tallies_done.mp hdone
        obtain ⟨rfl, rfl⟩ := Prod.mk.inj (Except.ok.inj hending)
        exact hclosed.trans (.of_commitBatch hbatch rfl (Writer.opened_drain _) rfl)
      · simp only [hsuccess] at hdone
        obtain ⟨hending, -, rfl⟩ := Task.tallies_done.mp hdone
        obtain ⟨again, -, hs⟩ := Except.map_eq_ok.mp hending.symm
        obtain ⟨rfl, rfl⟩ := Prod.mk.inj hs
        exact hclosed.trans (.of_commitBatch hbatch rfl (Writer.opened_drain _) rfl)

theorem balances_abort (h : s.abort.Tallies answer store (.ok (s', result)) store' n) :
    Balances answer s s' (s.handedAtAbort answer store) n := by
  obtain ⟨⟨w, closed⟩, store₁, m, k, hclose, hnext, rfl⟩ := Task.tallies_bind.mp h
  rw [Task.liftM_eq] at hclose
  obtain ⟨s₁, store₂, k, l, hdiscard, hrest, rfl⟩ := Task.tallies_bind.mp hnext
  have hclosed : Balances answer s { s with inBatch := 0, writer := w } [] m :=
    .of_handles (Writer.tallies_close hclose) rfl rfl
  obtain ⟨hdiscarded, hstore₂, hretries⟩ := balances_discardBatch hdiscard
  have hgiven := hclosed.trans hdiscarded
  rw [handedAtAbort, hclose.value, hclose.state, ← Tally.add_assoc]
  cases closed with
  | error e =>
    obtain ⟨hending, -, rfl⟩ := Task.tallies_done.mp hrest
    obtain ⟨rfl, rfl⟩ := Prod.mk.inj (Except.ok.inj hending)
    rw [List.append_nil]
    exact hgiven
  | ok _ =>
    refine hgiven.trans ?_
    rw [← hstore₂, ← hretries]
    by_cases hempty : s₁.retries = []
    · simp only [hempty, if_true] at hrest
      obtain ⟨hending, -, rfl⟩ := Task.tallies_done.mp hrest
      obtain ⟨rfl, rfl⟩ := Prod.mk.inj (Except.ok.inj hending)
      simp only [Handed.list, hempty, if_true]
      exact .refl _
    · simp only [hempty, if_false] at hrest
      obtain ⟨⟨s₂, report⟩, store₃, k, l, hcommit, hdone, rfl⟩ := Task.tallies_bind.mp hrest
      obtain ⟨hbatch, rfl⟩ := tallies_commit hcommit
      obtain ⟨hending, -, rfl⟩ := Task.tallies_done.mp hdone
      obtain ⟨again, -, hs⟩ := Except.map_eq_ok.mp hending.symm
      obtain ⟨rfl, rfl⟩ := Prod.mk.inj hs
      simp only [Handed.list, hempty, if_false]
      exact .of_commitBatch hbatch rfl rfl rfl

theorem balances_write {record : Json}
    (hencode : s.layout.encoder.Total)
    (h : (s.write record).Tallies answer store (.ok (s', result)) store' n) :
    Balances answer s s' (s.handedAtWrite answer record store) n := by
  obtain ⟨⟨w, written⟩, store₁, m, k, hwrite, hnext, rfl⟩ := Task.tallies_bind.mp h
  rw [Task.liftM_eq] at hwrite
  have hhandles := Writer.tallies_write hencode hwrite
  rw [handedAtWrite, hwrite.value, hwrite.state]
  cases written with
  | error e =>
    obtain ⟨hending, -, rfl⟩ := Task.tallies_done.mp hnext
    obtain ⟨rfl, rfl⟩ := Prod.mk.inj (Except.ok.inj hending)
    exact .of_handles hhandles rfl rfl
  | ok _ =>
    let taken : Sink := { s with
      writer := w
      inBatch := s.inBatch + 1
      stats := { s.stats with records := s.stats.records + 1 } }
    have htaken : Balances answer s taken [] m := .of_handles hhandles rfl rfl
    by_cases hfull : s.batchSize ≤ s.inBatch + 1
    · simp only [hfull, if_true] at hnext ⊢
      exact htaken.trans (balances_checkpoint hnext)
    · simp only [hfull, if_false] at hnext ⊢
      obtain ⟨hending, -, rfl⟩ := Task.tallies_done.mp hnext
      obtain ⟨rfl, rfl⟩ := Prod.mk.inj (Except.ok.inj hending)
      exact htaken

/-- Every call keeps the balance. -/
theorem balances_call (hencode : s.layout.encoder.Total) {c : Call}
    (h : (s.call c).Tallies answer store (.ok (s', result)) store' n) :
    Balances answer s s' (s.handed answer store c) n := by
  cases c with
  | write record => exact balances_write hencode h
  | checkpoint => exact balances_checkpoint h
  | abort => exact balances_abort h

/-- The sink after the last of some calls. -/
def lastOf (sink : Except Panic Sink) (endings : List Ending) : Except Panic Sink :=
  (endings.map Ending.sink).getLastD sink

theorem lastOf_cons (sink : Except Panic Sink) (ending : Ending) (endings : List Ending) :
    lastOf sink (ending :: endings) = lastOf ending.sink endings := by
  rw [lastOf, List.map_cons, List.getLastD_cons, lastOf]

/-- Every row of calls keeps the balance. -/
theorem balances_perform (hencode : s.layout.encoder.Total)
    {cs : List Call} {endings : List Ending}
    (h : (perform cs (.ok s)).Tallies answer store endings store' n)
    (hlast : lastOf (.ok s) endings = .ok s') :
    Balances answer s s' (handedBy answer cs (.ok s) store) n := by
  induction cs generalizing s store store' endings n with
  | nil =>
    obtain ⟨rfl, rfl, rfl⟩ := Task.tallies_done.mp h
    obtain rfl := Except.ok.inj hlast
    exact .refl _
  | cons c cs ih =>
    obtain ⟨ending, store₁, m, k, hcall, hnext, rfl⟩ := Task.tallies_bind.mp h
    obtain ⟨rest, store₂, k, l, hrest, hdone, rfl⟩ := Task.tallies_bind.mp hnext
    obtain ⟨rfl, -, rfl⟩ := Task.tallies_done.mp hdone
    rw [lastOf_cons] at hlast
    simp only [handedBy, hcall.value, hcall.state]
    cases ending with
    | error panic =>
      obtain ⟨rfl, -, -⟩ := Task.tallies_done.mp ((perform_error cs panic) ▸ hrest)
      cases hlast
    | ok outcome =>
      have hfirst := balances_call hencode hcall
      exact hfirst.trans (ih (hfirst.layout ▸ hencode) hrest hlast)

/-- A row of calls stops the program only if it is as long as there are numbers. -/
theorem Attempts.perform {replies : Replying σ} {attempts : Nat} (h : s.Attempts attempts)
    {cs : List Call} {endings : List Ending}
    (hp : (Sink.perform cs (.ok s)).Ends replies store endings store') {panic : Panic}
    (hlast : lastOf (.ok s) endings = .error panic) : UInt32.size ≤ attempts + cs.length := by
  induction cs generalizing s store store' endings attempts with
  | nil =>
    obtain ⟨rfl, rfl⟩ := Task.ends_done.mp hp
    cases hlast
  | cons c cs ih =>
    simp only [Sink.perform, Task.ends_bind] at hp
    obtain ⟨ending, store₁, hcall, rest, store₂, hrest, hp⟩ := hp
    obtain ⟨rfl, -⟩ := Task.ends_done.mp hp
    rw [lastOf_cons] at hlast
    have hending := h.call hcall
    cases ending with
    | error panic' =>
      have hsize : UInt32.size ≤ attempts + 1 := hending
      rw [List.length_cons]
      omega
    | ok outcome =>
      have hsize := ih hending hrest hlast
      rw [List.length_cons]
      omega

end Sink

/-- Every committable that failed did so at one of the stages. -/
theorem FailedCommit.length_eq_countP (failed : List FailedCommit) : failed.length =
    (failed.countP fun f ↦ f.stage = .recover) + (failed.countP fun f ↦ f.stage = .commit) +
      failed.countP fun f ↦ f.stage = .cleanup := by
  induction failed with
  | nil => rfl
  | cons f failed ih =>
    rw [List.length_cons, ih, List.countP_cons, List.countP_cons, List.countP_cons]
    cases f.stage <;> simp <;> omega

namespace Sink

variable {s : Sink}

/-- Starting a sink only looks at the table, which does not count. -/
theorem tallies_start {config : Config} {run : String} {started : Except SinkError Sink}
    (h : (start config run).Tallies answer store started store' n) :
    n = 0 ∧ ∀ s, started = .ok s → s = new config run := by
  obtain ⟨listed, _, m, k, hlisted, hdone, rfl⟩ := Task.tallies_bind.mp h
  obtain ⟨rfl, -, rfl⟩ := Task.tallies_done.mp hdone
  replace hlisted := (Task.tallies_ask_bind (by simp [Request.operation])).mp hlisted
  obtain ⟨rfl, -, rfl⟩ := Task.tallies_done.mp hlisted
  refine ⟨rfl, fun s hs ↦ ?_⟩
  cases hreply : (answer (.list (new config run).writer.allocator.taskDir) store).1 with
  | ok paths =>
    rw [hreply] at hs
    exact (Except.ok.inj hs).symm
  | error fault =>
    rw [hreply] at hs
    cases hs

/-- The figures agree with what has happened, however many calls a sink has carried out and whatever
a store has replied, as long as the program has not stopped; and that takes more calls than there
are numbers. They agree with the figures that the sink keeps, except for files that were published
before and are only in the latter. Failures at the three stages are those of the reports. And every
file that was opened is staged, was dropped since its put was refused, or is open. -/
theorem figures_agree (answer : (r : Request) → σ → r.Reply × σ) (config : Config) (run : String)
    (calls : List Call) (store : σ) {s : Sink}
    (hstart : ((start config run).run answer store).value = .ok s) :
    let begun := (start config run).run answer store
    let work := (perform calls (.ok s)).run answer begun.state
    let figure (name : String) (labels : List (String × String)) :=
      Metrics.figure (Metrics.series name labels) (begun.events ++ work.events)
    let batches := handedBy answer calls (.ok s) begun.state
    let failed := (batches.map (Handed.report answer)).map CommitReport.failed
    let exchanges := (perform calls (.ok s)).exchanges answer begun.state
    (∀ panic, lastOf (.ok s) work.value = .error panic → UInt32.size ≤ calls.length) ∧
    ∀ s', lastOf (.ok s) work.value = .ok s' →
      figure "snowdrift_records_written_total" [] = s'.stats.records ∧
      figure "snowdrift_files_discarded_total" [("outcome", "absent")] +
          figure "snowdrift_files_discarded_total" [("outcome", "deleted")] = s'.stats.discarded ∧
      (∀ stage : CommitStage, figure "snowdrift_commit_failures_total" [("stage", stage.label)] =
        failed.flatten.countP fun f ↦ f.stage = stage) ∧
      figure "snowdrift_commit_failures_total" [("stage", "recover")] +
          figure "snowdrift_commit_failures_total" [("stage", "commit")] +
          figure "snowdrift_commit_failures_total" [("stage", "cleanup")] =
        (failed.map List.length).sum ∧
      figure "snowdrift_files_committed_total" [("path", "live")] +
          figure "snowdrift_files_committed_total" [("path", "recovered")] +
          (batches.map (Handed.shown answer)).sum = s'.stats.committed ∧
      figure "snowdrift_files_opened_total" [] =
        figure "snowdrift_files_staged_total" [("kind", "commit")] +
          figure "snowdrift_files_staged_total" [("kind", "recovery")] +
          (exchanges.filter Exchange.refusesPut).length +
          s'.writer.opened.length := by
  intro begun work figure batches failed exchanges
  obtain ⟨hquiet, hnew⟩ := tallies_start (Task.tallies_run answer (start config run) store)
  obtain rfl := hnew s hstart
  have hencode : (new config run).layout.encoder.Total := jsonLines_total
  refine ⟨fun panic hlast ↦ ?_, fun s' hlast ↦ ?_⟩
  · have hwork : (perform calls (.ok (new config run))).Ends (fun _ _ _ _ ↦ True) begun.state
        work.value work.state := Task.ends_run answer (fun _ _ ↦ trivial) _ _
    have hsize := (attempts_new config run).perform hwork hlast
    rwa [Nat.zero_add] at hsize
  have hbalance := balances_perform hencode
    (Task.tallies_run answer (perform calls (.ok (new config run))) begun.state) hlast
  have hentry : ∀ x : Entry, Metrics.figure x.name (begun.events ++ work.events) =
      ((perform calls (.ok (new config run))).tally answer begun.state).entry x := by
    intro x
    have hbegun : (begun.events.map fun e ↦ e.weight x).sum = 0 := by
      have hzero := congrArg (fun n : Tally ↦ n.entry x) hquiet
      exact hzero
    rw [Metrics.figure_name, List.map_append, List.sum_append, hbegun, Nat.zero_add]
    rfl
  have hopened : (new config run).writer.opened.length = 0 := by
    cases hstrategy : config.strategy <;> simp [new, Writer.new, hstrategy, Writer.opened]
  have hfailed : ∀ stage, figure "snowdrift_commit_failures_total" [("stage", stage.label)] =
      failed.flatten.countP fun f ↦ f.stage = stage := by
    intro stage
    have hflatten : failed.flatten = batches.flatMap fun b ↦ (b.report answer).failed := by
      rw [List.flatMap_def]
      exact congrArg List.flatten List.map_map
    rw [hflatten]
    exact (hentry (.failed stage)).trans (hbalance.failed stage)
  refine ⟨?_, ?_, hfailed, ?_, ?_, ?_⟩
  · have hrecords := hbalance.records
    rw [← hentry .records] at hrecords
    exact (Nat.zero_add _).symm.trans hrecords
  · have hdiscarded := hbalance.discarded
    rw [← hentry (.discarded false), ← hentry (.discarded true)] at hdiscarded
    exact (congrArg (· + _) (Nat.zero_add _).symm).trans hdiscarded
  · rw [← List.length_flatten, FailedCommit.length_eq_countP failed.flatten, ← hfailed, ← hfailed,
      ← hfailed]
    rfl
  · have hcommitted := hbalance.committed
    rw [← hentry (.committed false), ← hentry (.committed true)] at hcommitted
    exact (congrArg (· + _ + _) (Nat.zero_add _).symm).trans hcommitted
  · have hfiles := hbalance.files
    rw [← hentry .opened, ← hentry (.staged .commit), ← hentry (.staged .recovery), hopened]
      at hfiles
    exact (Nat.zero_add _).symm.trans hfiles

/-- A store that refuses every rename. The file of the first record is staged, and cannot be
published at the checkpoint, nor at the abort that gives up the second record. -/
theorem figures_agree_refused :
    let config : Config := { table := "t", columns := ["p"], strategy := .dynamic }
    let answer := MemoryStore.refusing fun r ↦ r.operation == .rename
    let record : Json := .object [("p", .string "a")]
    let calls : List Call := [.write record, .checkpoint, .write record, .abort]
    let begun := (start config "r").run answer .empty
    let work := (perform calls (.ok (new config "r"))).run answer begun.state
    let figure (name : String) (labels : List (String × String)) :=
      Metrics.figure (Metrics.series name labels) (begun.events ++ work.events)
    begun.value = .ok (new config "r") ∧
      figure "snowdrift_records_written_total" [] = 2 ∧
      figure "snowdrift_commit_failures_total" [("stage", "commit")] = 2 ∧
      figure "snowdrift_files_discarded_total" [("outcome", "absent")] +
        figure "snowdrift_files_discarded_total" [("outcome", "deleted")] = 1 := by
  intro config answer record calls begun work figure
  have hstart : begun.value = .ok (new config "r") := rfl
  obtain ⟨s', hlast, hstats⟩ : ∃ s' ∈ (lastOf (.ok (new config "r")) work.value).toOption,
      s'.stats.records = 2 ∧ s'.stats.discarded = 1 := by decide +kernel
  obtain ⟨hrecords, hdiscarded, hfailed, -⟩ :=
    (figures_agree answer config "r" calls .empty hstart).2 s' (Except.mem_toOption.mp hlast)
  exact ⟨hstart, hrecords.trans hstats.1, (hfailed .commit).trans (by decide +kernel),
    hdiscarded.trans hstats.2⟩

end Sink

end TableSink
