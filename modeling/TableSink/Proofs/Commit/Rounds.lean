import TableSink.Proofs.Commit.Durable
import TableSink.Proofs.Commit.Settle

/-!
# Committables that come back

What cannot be finished is handed back, and may be handed in again, round after round, on whatever
the store is like by then (`CommitReport.Rounds`). What comes back is what was handed in, but for
its counter, which says how many rounds there were (`CommitReport.Rounds.exists_kept`). The counter
has 32 bits, and a durable text may well hold the greatest number there is. A round that fails then
hands nothing back: the program stops (`CommitReport.Rounds.handed_back`).
-/

namespace TableSink

variable {σ : Type} {replies : Replying σ} {s s' : σ}

namespace Committable

variable {c : Committable} {n : Nat}

/-- The committable after it was handed back a number of times. -/
def handedBack (n : Nat) (c : Committable) : Committable :=
  { c with retries := c.retries + .ofNat n }

@[simp] theorem handedBack_zero : handedBack 0 = id :=
  funext fun c ↦ congrArg (Committable.mk c.bucket c.token) (UInt32.add_zero c.retries)

@[simp] theorem again_handedBack (n : Nat) (c : Committable) :
    (c.handedBack n).again = c.handedBack (n + 1) := by
  rw [again, handedBack, handedBack, UInt32.ofNat_add, ← UInt32.add_assoc]
  rfl

/-- As long as the number fits, the counter says how often that was. -/
theorem toNat_retries_handedBack (h : c.retries.toNat + n < UInt32.size) :
    (c.handedBack n).retries.toNat = c.retries.toNat + n := by
  rw [← Nat.mod_eq_of_lt h]
  simp [handedBack, UInt32.size]

end Committable

namespace CommitReport

/-- What is left of a batch after a number of rounds that all failed: in each of them, what has come
back so far is committed on a store in any state, and something comes back again. -/
inductive Rounds (replies : Replying σ) (batch : List Committable) :
    Nat → List Committable → Prop
  | start : Rounds replies batch 0 batch
  | round {n : Nat} {left left' : List Committable} {report : CommitReport} {s s' : σ}
    (h : Rounds replies batch n left) (hcommit : (commitBatch left).Ends replies s report s')
    (hfailed : report.isSuccess = false) (hback : report.intoRetries = .ok left') :
    Rounds replies batch (n + 1) left'

variable {batch left left' : List Committable} {n : Nat} {c : Committable} {report : CommitReport}

/-- A batch of one committable that fails: nothing else could have failed. -/
theorem failed_of_singleton (hcommit : (commitBatch [c]).Ends replies s report s')
    (hfailed : report.isSuccess = false) :
    report.failed.map FailedCommit.committable = [c] := by
  obtain ⟨results, hresults, rfl⟩ := phases_commitBatch.mp hcommit
  rcases List.sublist_singleton.mp (sublist_failed hresults) with hnil | hone
  · rw [List.map_eq_nil_iff] at hnil
    rw [isSuccess, hnil] at hfailed
    cases hfailed
  · exact hone

namespace Rounds

/-- What has come back are some committables of the batch in their order, handed back as often as
there were rounds. The counters of all of them had room for that. -/
theorem exists_kept (h : Rounds replies batch n left) : ∃ kept : List Committable,
    kept.Sublist batch ∧ (∀ c ∈ kept, c.retries.toNat + n < UInt32.size) ∧
      left = kept.map (Committable.handedBack n) := by
  induction h with
  | start =>
    exact ⟨batch, .refl batch, fun c _ ↦ c.retries.toNat_lt, by
      rw [Committable.handedBack_zero, List.map_id]⟩
  | @round n _ _ _ _ _ _ hcommit _ hback ih =>
    obtain ⟨kept, hkept, hfits, rfl⟩ := ih
    obtain ⟨results, hresults, rfl⟩ := phases_commitBatch.mp hcommit
    obtain ⟨kept', hkept', hfailed⟩ := List.sublist_map_iff.mp (sublist_failed hresults)
    obtain ⟨hroom, rfl⟩ := intoRetries_eq_ok.mp hback
    refine ⟨kept', hkept'.trans hkept, fun c hc ↦ ?_, ?_⟩
    · obtain ⟨f, hf, hcommittable⟩ := List.mem_map.mp (hfailed ▸ List.mem_map_of_mem hc)
      have hnext := hroom f hf
      rwa [hcommittable, Committable.toNat_retries_handedBack (hfits c (hkept'.subset hc))] at hnext
    · have hmap := congrArg (List.map Committable.again) hfailed
      rw [List.map_map, List.map_map] at hmap
      exact hmap.trans (List.map_congr_left fun c _ ↦ c.again_handedBack n)

/-- A round that has failed hands back something. -/
theorem ne_nil (h : Rounds replies batch n left) (hbatch : batch ≠ []) : left ≠ [] := by
  cases h with
  | start => exact hbatch
  | round _ _ hfailed hback =>
    intro hnil
    rw [(intoRetries_eq_ok.mp hback).2, List.map_eq_nil_iff] at hnil
    rw [isSuccess, hnil] at hfailed
    cases hfailed

/-- A committable that fails in every round comes back each time, for the same partition and with
the same token, and its counter says how often. The next round that fails does the same once more if
there is a greater number; just where there is none, the program stops and nothing comes back. -/
theorem handed_back (h : Rounds replies [c] n left) :
    ∃ c', left = [c'] ∧ c'.bucket = c.bucket ∧ c'.token = c.token ∧
      c'.retries.toNat = c.retries.toNat + n ∧
      ∀ {s s' : σ} {report : CommitReport}, (commitBatch left).Ends replies s report s' →
        report.isSuccess = false →
        (report.intoRetries = .error .overflow ↔ c.retries.toNat + n + 1 = UInt32.size) ∧
        (c.retries.toNat + n + 1 < UInt32.size → ∃ c'', report.intoRetries = .ok [c''] ∧
          c''.bucket = c.bucket ∧ c''.token = c.token ∧
          c''.retries.toNat = c.retries.toNat + n + 1) := by
  obtain ⟨kept, hkept, hfits, rfl⟩ := h.exists_kept
  have hne := h.ne_nil (List.cons_ne_nil c [])
  rcases List.sublist_singleton.mp hkept with rfl | rfl
  · exact absurd rfl hne
  have hcount := Committable.toNat_retries_handedBack (hfits c (List.mem_singleton_self c))
  refine ⟨c.handedBack n, rfl, rfl, rfl, hcount, fun hcommit hfailed ↦ ?_⟩
  obtain ⟨f, hf, hcommittable⟩ :=
    List.map_eq_singleton_iff.mp (failed_of_singleton hcommit hfailed)
  refine ⟨?_, fun hroom ↦ ⟨c.handedBack (n + 1), ?_, rfl, rfl,
    Committable.toNat_retries_handedBack hroom⟩⟩
  · rw [intoRetries_eq_error, hf]
    simp only [List.mem_singleton, exists_eq_left, hcommittable, hcount]
  · refine intoRetries_eq_ok.mpr ⟨?_, ?_⟩
    · rw [hf]
      simpa only [List.forall_mem_singleton, hcommittable, hcount] using hroom
    · rw [hf, List.map_singleton, hcommittable, Committable.again_handedBack]

/-- A durable text with the greatest counter. The file it stands for is nowhere, so the first round
fails, and the program stops. With a counter below that, it comes back once. -/
theorem handed_back_greatest :
    let c : Committable := ⟨"p=a", .pending ⟨"s/part-0", "p=a/part-0", 8, 1⟩, 4294967294⟩
    let replies : Replying MemoryStore := fun r s reply s' ↦ (reply, s') = MemoryStore.answer r s
    ∃ c', Committable.parse c.text = .ok c ∧ Rounds replies [c] 1 [c'] ∧
      Committable.parse c'.text = .ok c' ∧ c'.retries.toNat = 4294967295 ∧
      ((commitBatch [c']).run MemoryStore.answer .empty).value.intoRetries = .error .overflow := by
  intro c replies
  have hparse : ∀ retries, Committable.parse (Committable.text { c with retries }) =
      .ok { c with retries } := fun retries ↦ Committable.parse_text ⟨by decide, by decide⟩
  have hcommit : ∀ retries, (commitBatch [{ c with retries }]).Ends replies .empty _ _ :=
    fun retries ↦ Task.ends_run MemoryStore.answer (fun _ _ ↦ rfl) _ _
  have hround : Rounds replies [c] 1 [{ c with retries := 4294967295 }] :=
    .round .start (hcommit 4294967294) (by decide +kernel) (by decide +kernel)
  obtain ⟨c', hleft, -, -, hcount, hnext⟩ := handed_back hround
  obtain rfl := List.singleton_inj.mp hleft
  exact ⟨_, hparse _, hround, hparse _, hcount.trans (by decide),
    (hnext (hcommit 4294967295) (by decide +kernel)).1.mpr (by decide)⟩

end Rounds

end CommitReport

end TableSink
