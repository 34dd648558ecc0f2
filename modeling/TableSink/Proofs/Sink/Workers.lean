import TableSink.Proofs.Path.Allocation
import TableSink.Proofs.Sink.Paths

/-!
# Sinks side by side

Several workers write to one table, each with a sink of its own. Their sinks touch places of their
own allocators only, and allocators of different attempts have no place in common
(`Allocator.eq_of_places`). So nobody notices the others: every call does and returns what it does
without them, whether calls take turns (`Sink.interleave`) or overlap request by request, and
whichever of the workers crash on the way.
-/

namespace TableSink

variable {ι α : Type}

section OfWorker

variable [DecidableEq ι] {j k : ι} {x : α} {xs : List (ι × α)}

/-- What belongs to one worker, in order. -/
def ofWorker (k : ι) (xs : List (ι × α)) : List α := (xs.filter fun x ↦ x.1 = k).map Prod.snd

@[simp] theorem ofWorker_cons_self : ofWorker k ((k, x) :: xs) = x :: ofWorker k xs := by
  simp [ofWorker]

theorem ofWorker_cons_of_ne (h : j ≠ k) : ofWorker j ((k, x) :: xs) = ofWorker j xs := by
  simp [ofWorker, h.symm]

end OfWorker

/-- A place belongs to one attempt. -/
theorem Allocator.eq_of_places {stagingDir : String} {a b : Allocator} {p : ObjectPath}
    (ha : a.taskDir = a.attempt.dir stagingDir) (hb : b.taskDir = b.attempt.dir stagingDir)
    (hnaming : a.naming = b.naming) (hrun : a.run.toList.length = b.run.toList.length)
    (hpa : a.Places p) (hpb : b.Places p) : a.attempt = b.attempt := by
  obtain ⟨spec, i, rfl | rfl⟩ := hpa
  · obtain ⟨spec', j, h | h⟩ := hpb
    · exact (eq_of_staging_eq ha hb hnaming h).1
    · exact absurd h (InPlace.staging_ne_target ⟨stagingDir, ha⟩ b spec spec' i j)
  · obtain ⟨spec', j, h | h⟩ := hpb
    · exact absurd h.symm (InPlace.staging_ne_target ⟨stagingDir, hb⟩ a spec' spec j i)
    · exact (eq_of_target_eq hnaming hrun h).1

namespace Sink

/-! ## Many calls -/

/-- What is left of a sink after a call. -/
def Ending.sink (ending : Ending) : Except Panic Sink := ending.map Prod.fst

/-- Carry out calls one after the other, as long as the program does not stop: what each of them
ended with. -/
def perform : List Call → Except Panic Sink → Task (List Ending)
  | [], _ | _ :: _, .error _ => return []
  | c :: cs, .ok s => do
    let ending ← s.call c
    return ending :: (← perform cs ending.sink)

/-- Carry out calls on several sinks that take turns. A turn of a program that has stopped is passed
over. -/
def interleave [DecidableEq ι] : List (ι × Call) → (ι → Except Panic Sink) →
    Task (List (ι × Ending))
  | [], _ => return []
  | (k, c) :: turns, sinks =>
    match sinks k with
    | .error _ => interleave turns sinks
    | .ok s => do
      let ending ← s.call c
      return (k, ending) :: (← interleave turns (Function.update sinks k ending.sink))

@[simp] theorem perform_error (cs : List Call) (panic : Panic) :
    perform cs (.error panic) = .done [] := by
  cases cs <;> rfl

variable {a : Allocator} {sink : Except Panic Sink}

theorem Ending.Holds.of_sink {ending : Ending} (h : ending.Holds a) :
    ∀ s, ending.sink = .ok s → s.Holds a := by
  intro s hs
  obtain ⟨outcome, houtcome, rfl⟩ := Except.map_eq_ok.mp hs
  exact h outcome houtcome

theorem Holds.within_perform (ha : a.InPlace) (h : ∀ s, sink = .ok s → s.Holds a)
    (cs : List Call) : (perform cs sink).Within a.Places := by
  induction cs generalizing sink with
  | nil => exact Task.within_done
  | cons c cs ih =>
    cases sink with
    | error panic => exact Task.within_done
    | ok s =>
      refine ((h s rfl).within_call ha c).bind_of_ends fun ending hcall ↦ ?_
      exact (ih ((h s rfl).of_ends ha hcall).of_sink).bind fun endings ↦ Task.within_done

/-- Allocators of different attempts, with the same staging directory and naming, have no place in
common. -/
theorem separate_places {configs : ι → Config}
    (hdir : ∀ k k', (configs k).stagingDir = (configs k').stagingDir)
    (hnaming : ∀ k k', (configs k).naming = (configs k').naming)
    (hattempt : Function.Injective fun k ↦ (configs k).attempt) (milliseconds random : ι → Nat) :
    Pool.Separate fun k ↦
      ((configs k).allocator (RunName.ofParts (milliseconds k) (random k))).Places := by
  intro k k' q hk hk'
  have htaskDir : ∀ j run, ((configs j).allocator run).taskDir =
      (configs j).attempt.dir (configs k).stagingDir := by
    intro j run
    rw [hdir k j]
    rfl
  have hlength := (RunName.length_ofParts (milliseconds k) (random k)).trans
    (RunName.length_ofParts (milliseconds k') (random k')).symm
  exact hattempt
    (Allocator.eq_of_places (htaskDir k _) (htaskDir k' _) (hnaming k k') hlength hk hk')

variable [DecidableEq ι] {allocators : ι → Allocator}

/-- Sinks that take turns do what each of them does alone. -/
theorem run_interleave (hplace : ∀ k, (allocators k).InPlace)
    (hown : Pool.Separate fun k ↦ (allocators k).Places) {sinks : ι → Except Panic Sink}
    (hholds : ∀ k s, sinks k = .ok s → s.Holds (allocators k)) {store : MemoryStore}
    {alone : ι → MemoryStore}
    (halone : ∀ k, store.Agree (allocators k).Places (alone k)) (turns : List (ι × Call)) :
    (∀ k, ofWorker k ((interleave turns sinks).run MemoryStore.answer store).value =
        ((perform (ofWorker k turns) (sinks k)).run MemoryStore.answer (alone k)).value) ∧
      (∀ k, ((interleave turns sinks).run MemoryStore.answer store).state.Agree
        (allocators k).Places
        ((perform (ofWorker k turns) (sinks k)).run MemoryStore.answer (alone k)).state) ∧
      ∀ q, (∀ k, ¬ (allocators k).Places q) →
        ((interleave turns sinks).run MemoryStore.answer store).state.get? q = store.get? q := by
  induction turns generalizing sinks store alone with
  | nil => exact ⟨fun _ ↦ rfl, halone, fun _ _ ↦ rfl⟩
  | cons turn turns ih =>
    obtain ⟨k, c⟩ := turn
    cases hk : sinks k with
    | error panic =>
      -- The program has stopped, so its turn makes no difference to anybody.
      have hpassed : ∀ j, perform (ofWorker j ((k, c) :: turns)) (sinks j) =
          perform (ofWorker j turns) (sinks j) := by
        intro j
        by_cases hj : j = k
        · subst hj
          rw [hk, perform_error, perform_error]
        · rw [ofWorker_cons_of_ne hj]
      simp only [interleave, hk, hpassed]
      exact ih hholds halone
    | ok s =>
    have hwithin := (hholds k s hk).within_call (hplace k) c
    obtain ⟨hvalue, hstate, -⟩ := hwithin.run_congr (halone k)
    generalize hrun : (s.call c).run MemoryStore.answer store = outcome at hvalue hstate
    generalize hrun' : (s.call c).run MemoryStore.answer (alone k) = outcome' at hvalue hstate
    have hholds' : ∀ j s', Function.update sinks k outcome.value.sink j = .ok s' →
        s'.Holds (allocators j) := by
      intro j
      by_cases hj : j = k
      · subst hj
        have hends := (s.call c).ends_answer store
        rw [hrun] at hends
        simpa using ((hholds j s hk).of_ends (hplace j) hends).of_sink
      · simpa [hj] using hholds j
    have halone' : ∀ j, outcome.state.Agree (allocators j).Places
        (Function.update alone k outcome'.state j) := by
      intro j
      by_cases hj : j = k
      · subst hj
        simpa using hstate
      · have hframe : outcome.state.Agree (allocators j).Places store := fun q hq ↦
          hrun ▸ hwithin.run_frame fun hq' ↦ hj (hown j k q hq hq')
        simpa [hj] using hframe.trans (halone j)
    obtain ⟨hvalues, hstates, hrest⟩ := ih hholds' halone'
    simp only [interleave, hk, Task.run_bind, hrun, Task.pure_eq, Task.run_done]
    refine ⟨fun j ↦ ?_, fun j ↦ ?_, fun q hq ↦ ?_⟩
    · by_cases hj : j = k
      · subst hj
        have hvaluesj := hvalues j
        rw [Function.update_self, Function.update_self] at hvaluesj
        rw [ofWorker_cons_self, ofWorker_cons_self, hvaluesj]
        simp only [hk, perform, Task.run_bind, hrun', Task.pure_eq, Task.run_done, hvalue]
      · simpa [ofWorker_cons_of_ne hj, hj] using hvalues j
    · by_cases hj : j = k
      · subst hj
        have hstatesj := hstates j
        rw [Function.update_self, Function.update_self] at hstatesj
        rw [ofWorker_cons_self]
        simpa only [hk, perform, Task.run_bind, hrun', Task.pure_eq, Task.run_done, hvalue]
          using hstatesj
      · simpa [ofWorker_cons_of_ne hj, hj] using hstates j
    · exact (hrest q hq).trans (hrun ▸ hwithin.run_frame (hq k))

/-- Workers whose attempts differ do not notice each other, on any store, with any calls: whatever
they do and return is as it is alone, and the store ends up with the changes of all of them. It
makes no difference whether requests of different workers come in any order, with some workers
crashing on the way, or whether whole calls take turns. -/
theorem workers_apart (configs : ι → Config) (milliseconds random : ι → Nat) (store : MemoryStore)
    (hdir : ∀ k k', (configs k).stagingDir = (configs k').stagingDir)
    (hnaming : ∀ k k', (configs k).naming = (configs k').naming)
    (hattempt : Function.Injective fun k ↦ (configs k).attempt) :
    let sinks (k : ι) : Except Panic Sink :=
      .ok (new (configs k) (RunName.ofParts (milliseconds k) (random k)))
    let alone (k : ι) (calls : List Call) := (perform calls (sinks k)).run MemoryStore.answer store
    (∀ (calls : ι → List Call) (p : Pool ι fun _ ↦ List Ending),
      Pool.Reaches (fun _ _ ↦ False) ⟨store, fun k ↦ perform (calls k) (sinks k)⟩ p →
        (∀ k endings, p.tasks k = .done endings → endings = (alone k (calls k)).value) ∧
        ((∀ k, ∃ endings, p.tasks k = .done endings) →
          store.Combines (fun k ↦ (alone k (calls k)).state) p.store)) ∧
    ∀ turns : List (ι × Call),
      let together := (interleave turns sinks).run MemoryStore.answer store
      (∀ k, ofWorker k together.value = (alone k (ofWorker k turns)).value) ∧
        store.Combines (fun k ↦ (alone k (ofWorker k turns)).state) together.state := by
  intro sinks alone
  have hown := separate_places hdir hnaming hattempt milliseconds random
  have hplace : ∀ k,
      ((configs k).allocator (RunName.ofParts (milliseconds k) (random k))).InPlace :=
    fun k ↦ Allocator.inPlace_new _ _ _ _
  have hholds : ∀ k s, sinks k = .ok s → s.Holds
      ((configs k).allocator (RunName.ofParts (milliseconds k) (random k))) := by
    rintro k _ ⟨⟩
    exact holds_new _ _
  have hwithin := fun calls k ↦ Holds.within_perform (hplace k) (hholds k) calls
  constructor
  · intro calls p hp
    have hp := hp.alone hown fun k ↦ hwithin (calls k) k
    exact ⟨fun k endings hk ↦ hp.of_done hk, hp.combines fun k ↦ hwithin (calls k) k⟩
  · intro turns
    obtain ⟨hvalues, hstates, hrest⟩ := run_interleave hplace hown hholds
      (fun k ↦ MemoryStore.Agree.refl _ store) turns
    exact ⟨hvalues, .of_agree (fun k q hq ↦ (hwithin _ k).run_frame hq) hstates hrest⟩

/-- Two workers with the same digits in their numbers, one with clustered records and one with
records in any order, on an empty table. -/
theorem workers_apart_same_digits :
    let configs (k : Bool) : Config :=
      if k then { table := "t", columns := ["p"], strategy := .grouped, attempt := ⟨1, 23⟩ }
      else { table := "t", columns := ["p", "q"], strategy := .dynamic, attempt := ⟨12, 3⟩ }
    let sinks (k : Bool) : Except Panic Sink := .ok (new (configs k) (RunName.ofParts 0 0))
    (∀ k k', (configs k).stagingDir = (configs k').stagingDir) ∧
      (∀ k k', (configs k).naming = (configs k').naming) ∧
      (Function.Injective fun k ↦ (configs k).attempt) ∧
      ∀ turns k, ofWorker k ((interleave turns sinks).run MemoryStore.answer .empty).value =
        ((perform (ofWorker k turns) (sinks k)).run MemoryStore.answer .empty).value := by
  intro configs sinks
  have hdir : ∀ k k', (configs k).stagingDir = (configs k').stagingDir := by decide
  have hnaming : ∀ k k', (configs k).naming = (configs k').naming := by decide
  have hattempt : ∀ k k', (configs k).attempt = (configs k').attempt → k = k' := by decide
  have hapart := workers_apart configs (fun _ ↦ 0) (fun _ ↦ 0) .empty hdir hnaming
    fun k k' ↦ hattempt k k'
  exact ⟨hdir, hnaming, fun k k' ↦ hattempt k k', fun turns k ↦ (hapart.2 turns).1 k⟩

end Sink

end TableSink
