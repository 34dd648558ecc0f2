import TableSink.Proofs.Sink.Accounts

/-!
# What a checkpoint publishes

When a checkpoint ends well, nothing is kept for later any more, so what shows are the files of the
journal: those of all batches that were closed in good order, each with its lines. They have the
records of these batches, each of them once, but for those in files that were dropped; and only
with the grouped strategy are there such files (`Sink.Course.published_of_ok`).

Which records there are is told by what the writes returned, and which of them were dropped as well
(`Journal.after`); so the records are missing of exactly those files that could not be staged when a
record of another partition came.
-/

namespace TableSink

open MemoryStore (Replies)
open Filed (recordsIn)

/-- What was taken and closed is in files, but for what was dropped. -/
theorem Batch.perm_of_filled {strategy : Strategy} {ts : List Batch}
    (h : ∀ t ∈ ts, t.Filled strategy) :
    (recordsIn (ts.flatMap Batch.files) ++ recordsIn (ts.flatMap Batch.dropped)).Perm
      (ts.flatMap Batch.records) := by
  induction ts with
  | nil => exact .nil
  | cons t ts ih =>
    obtain ⟨ht, hts⟩ := List.forall_mem_cons.mp h
    simp only [List.flatMap_cons, Filed.recordsIn_append]
    refine List.Perm.trans ?_ (ht.records.append (ih hts))
    rw [List.append_assoc, List.append_assoc, ← List.append_assoc _ (recordsIn t.dropped),
      ← List.append_assoc (recordsIn t.dropped)]
    exact (List.perm_append_comm.append_right _).append_left _

namespace Sink

variable {config : Config} {run : String} {mishaps : Mishap → Prop}
variable {init store store' : MemoryStore} {s s' : Sink} {j : Journal}

/-- A call that closes a batch in good order brings its records to those that were taken before. -/
theorem records_after {c : Call} (hcloses : j.Closes config c) :
    (j.after config s s' (.ok ()) c).closed.map Batch.records =
      j.closed.map Batch.records ++ [j.current.records ++ c.records] := by
  cases c with
  | write record =>
    have hfull : config.batchSize ≤ j.current.records.length + 1 := hcloses
    simp [Journal.after, Config.misses, Journal.take, Batch.take, Journal.upTo, hfull,
      Journal.boundary, Journal.close, Call.records]
  | checkpoint => simp [Journal.after, Journal.upTo, Journal.boundary, Journal.close, Call.records]
  | abort => exact hcloses.elim

/-- Whatever was asked of a sink before and whatever went wrong: when a call ends well that closes a
batch, the records that were taken since the last boundary are those of one more batch, and the
files of all closed batches show, each of them with its lines, and nothing else does. They have the
records of these batches, each of them once, except for the missing ones, which are those of the
files that were dropped when the partition changed. Only with the grouped strategy is anything
missing. -/
theorem Course.published_of_ok (h : Course config run (Replies mishaps) init s store j) (c : Call)
    (hc : (s.call c).Ends (Replies mishaps) store (.ok (s', .ok ())) store')
    (hcloses : j.Closes config c) :
    let a := config.allocator run
    let batches := (j.after config s s' (.ok ()) c).closed
    let files := batches.flatMap Batch.files
    let missing := recordsIn (batches.flatMap Batch.dropped)
    batches.map Batch.records =
        j.closed.map Batch.records ++ [j.current.records ++ c.records] ∧
      (files.map fun f ↦ (f.slot a).target).Nodup ∧
      (∀ f ∈ files, store'.get? (f.slot a).target = some (config.content f) ∧
        store'.get? (f.slot a).staging = none) ∧
      (∀ p : ObjectPath, p.isBelow a.taskDir = false → (∀ f ∈ files, p ≠ (f.slot a).target) →
        store'.get? p = init.get? p) ∧
      (recordsIn files ++ missing).Perm (batches.flatMap Batch.records) ∧
      ((recordsIn files).Perm (batches.flatMap Batch.records) ↔ missing = []) ∧
      (config.strategy ≠ .grouped → missing = []) := by
  intro a batches files missing
  obtain ⟨b, haccounts⟩ := h.accounts
  have hfirst := (h.mono fun _ _ _ _ ↦ Replies.fickle).apart.inHand.first_le
  obtain ⟨b', haccounts', hkept⟩ := haccounts.call h.told hfirst c hc
  have hnone : b'.kept = [] := hkept rfl hcloses
  have htracks := haccounts'.keeps.tracks
  have hslot : s'.writer.allocator.slot = a.slot := htracks.base
  have hplaces : ∀ f : Filed Json, f.slot s'.writer.allocator = f.slot a := fun f ↦ by
    rw [Filed.slot, Filed.slot, hslot]
  have hshown : b'.shown.Perm files := by
    have hclosed := haccounts'.closed
    rwa [hnone, List.append_nil] at hclosed
  have hperm := Batch.perm_of_filled haccounts'.filled
  refine ⟨records_after hcloses, ?_, fun f hf ↦ ?_, fun p hp hp' ↦ ?_, hperm,
    ⟨fun hall ↦ ?_, fun hmissing ↦ ?_⟩, fun hgrouped ↦ ?_⟩
  · have hnodup := htracks.holds.nodup_target
    simp only [hplaces] at hnodup
    exact (hshown.map _).nodup_iff.mp hnodup
  · have hmem : f ∈ b'.files .shown := hshown.mem_iff.mpr hf
    have hstands := htracks.stands hmem
    simp only [Filed.Stands, Config.bytes_desk] at hstands
    exact hstands
  · refine htracks.holds.get?_of_not_shown (fun k _ he ↦ ?_) fun f hf ↦ ?_
    · rw [he, hslot, a.staging_isBelow] at hp
      cases hp
    · rw [hnone, List.append_nil] at hf
      rw [hplaces]
      exact hp' f (hshown.mem_iff.mp hf)
  · have hsame : (recordsIn files ++ missing).Perm (recordsIn files ++ []) := by
      rw [List.append_nil]
      exact hperm.trans hall.symm
    exact List.perm_nil.mp ((List.perm_append_left_iff _).mp hsame)
  · rw [← List.append_nil (recordsIn files), ← hmissing]
    exact hperm
  · have hdropped : batches.flatMap Batch.dropped = [] :=
      List.flatMap_eq_nil_iff.mpr fun t ht ↦ (haccounts'.filled t ht).none_dropped hgrouped
    simp only [missing, hdropped]
    rfl

/-- The file of one record cannot be put when a record of another partition comes. The checkpoint
after that ends well, and the file of the other partition is the only one. -/
theorem Course.published_of_ok_after_drop :
    let config : Config := { table := "memory://table", strategy := .grouped, columns := ["p"] }
    let a := config.allocator "r"
    let record (p : String) : Json := .object [("p", .string p)]
    ∃ s store j s' store', Course config "r" (Replies (· = .refusal)) .empty s store j ∧
      (s.call .checkpoint).Ends (Replies (· = Mishap.refusal)) store (.ok (s', .ok ())) store' ∧
      j.current.records.map Json.text = [(record "a").text, (record "b").text] ∧
      ∃ f : Filed Json, f.spec = [("p", "b")] ∧ f.records.map Json.text = [(record "b").text] ∧
        store'.get? (f.slot a).target = some (config.content f) := by
  intro config a record
  let answer := MemoryStore.refusing fun r ↦ match r with
    | .put path _ => path = (a.slot [("p", "a")] 0).staging
    | _ => false
  have hanswer : ∀ r s, Replies (· = .refusal) r s (answer r s).1 (answer r s).2 :=
    MemoryStore.replies_refusing _
  have hstart : Course config "r" (Replies (· = .refusal)) .empty (new config "r") .empty
      (.start a) := .start (Task.ends_run answer hanswer (Sink.start config "r") .empty)
  obtain ⟨s, store, j, hcourse, ⟨hrecords, f, hf, hspec, hlines⟩, ⟨s', result⟩, hvalue, hok⟩ :=
    hstart.exists_of_proceed answer hanswer
      [.write (record "a"), .write (record "b"), .write (record "b")]
      (P := fun x ↦ (x.2.2.current.records.map Json.text =
            [(record "a").text, (record "b").text] ∧
          ∃ f ∈ x.2.2.current.files, f.spec = [("p", "b")] ∧
            f.records.map Json.text = [(record "b").text]) ∧
        ∃ ending ∈ ((x.1.call .checkpoint).run answer x.2.1).value.toOption,
          ending.2 = .ok ()) (by decide +kernel)
  obtain rfl : result = .ok () := hok
  have hcheckpoint := ends_of_mem_run answer hanswer hvalue
  obtain ⟨-, -, hshown, -⟩ := Course.published_of_ok hcourse .checkpoint hcheckpoint trivial
  have hclosed : f ∈ (j.after config s s' (.ok ()) .checkpoint).closed.flatMap Batch.files := by
    rw [hcourse.told.journal_checkpoint hcheckpoint]
    exact List.mem_flatMap.mpr
      ⟨j.current, List.mem_append_right _ (List.mem_singleton_self _), hf⟩
  exact ⟨s, store, j, s', _, hcourse, hcheckpoint, hrecords, f, hspec, hlines,
    (hshown f hclosed).1⟩

end Sink

end TableSink
