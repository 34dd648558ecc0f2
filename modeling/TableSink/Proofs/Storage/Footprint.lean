import TableSink.Proofs.Storage.Ends
import TableSink.Proofs.Storage.Pool

/-!
# Tasks with paths of their own

A *footprint* is a set of paths, and a task keeps *within* it if every request that it may ever make
is for those paths, whatever the replies were. Such a task does not notice what happens elsewhere
(`Task.Within.run_congr`) and changes nothing there (`Task.Within.run_frame`).

Tasks side by side whose footprints have no path in common therefore come to what each of them comes
to alone, in whatever order their requests are made. `Pool.Alone` is the invariant, and
`MemoryStore.Combines` says how the store is put together in the end.
-/

namespace TableSink

variable {α β σ ι : Type} {mine : ObjectPath → Prop}

namespace MemoryStore

/-- Two stores that hold the same at some paths. -/
def Agree (mine : ObjectPath → Prop) (s s' : MemoryStore) : Prop :=
  ∀ p, mine p → s.get? p = s'.get? p

variable {s s' s'' : MemoryStore}

theorem Agree.refl (mine : ObjectPath → Prop) (s : MemoryStore) : s.Agree mine s := fun _ _ ↦ rfl

theorem Agree.trans (h : s.Agree mine s') (h' : s'.Agree mine s'') : s.Agree mine s'' :=
  fun p hp ↦ (h p hp).trans (h' p hp)

end MemoryStore

open MemoryStore (Agree)

/-! ## Requests -/

/-- Everything that a request is about are these paths. A listing is about no single path. -/
def Request.Within (mine : ObjectPath → Prop) : Request → Prop
  | .get path | .head path | .put path _ | .delete path => mine path
  | .rename source target => mine source ∧ mine target
  | .list _ => False

namespace MemoryStore

variable {s s' : MemoryStore} {r : Request}

/-- Stores that agree on what a request is about give the same reply, and agree afterwards. -/
theorem Agree.answer (h : s.Agree mine s') (hr : r.Within mine) :
    (answer r s).1 = (answer r s').1 ∧ (answer r s).2.Agree mine (answer r s').2 := by
  cases r with
  | get path =>
    simp only [MemoryStore.answer, h path hr]
    cases s'.get? path <;> exact ⟨rfl, h⟩
  | head path =>
    simp only [MemoryStore.answer, h path hr]
    cases s'.get? path <;> exact ⟨rfl, h⟩
  | put path data =>
    refine ⟨rfl, fun p hp ↦ ?_⟩
    simp only [MemoryStore.answer, get?_insert, h p hp]
  | delete path =>
    refine ⟨rfl, fun p hp ↦ ?_⟩
    simp only [MemoryStore.answer, get?_erase, h p hp]
  | rename source target =>
    simp only [MemoryStore.answer, h source hr.1]
    cases s'.get? source with
    | none => exact ⟨rfl, h⟩
    | some data =>
      refine ⟨rfl, fun p hp ↦ ?_⟩
      simp only [get?_erase, get?_insert, h p hp]
  | list dir => exact hr.elim

/-- What a request is not about stays. -/
theorem get?_answer (hr : r.Within mine) {p : ObjectPath} (hp : ¬ mine p) :
    (answer r s).2.get? p = s.get? p := by
  have hne : ∀ {q}, mine q → p ≠ q := fun hq hpq ↦ hp (hpq ▸ hq)
  cases r with
  | get path =>
    simp only [answer]
    cases s.get? path <;> rfl
  | head path =>
    simp only [answer]
    cases s.get? path <;> rfl
  | put path data => rw [answer, get?_insert, if_neg (hne hr)]
  | delete path => rw [answer, get?_erase, if_neg (hne hr)]
  | rename source target =>
    simp only [answer]
    cases s.get? source with
    | none => rfl
    | some data => rw [get?_erase, get?_insert, if_neg (hne hr.1), if_neg (hne hr.2)]
  | list dir => exact hr.elim

end MemoryStore

/-! ## Tasks -/

namespace Task

/-- Every request of the task is about these paths, whatever is replied to those before it. -/
def Within (mine : ObjectPath → Prop) : Task α → Prop
  | .done _ => True
  | .emit _ t => t.Within mine
  | .call r next => r.Within mine ∧ ∀ reply, (next reply).Within mine

variable {t : Task α} {f : α → Task β} {r : Request} {s s' : MemoryStore}

@[simp] theorem within_done {a : α} : (Task.done a).Within mine := trivial

theorem Within.bind (ht : t.Within mine) (hf : ∀ a, (f a).Within mine) :
    (t >>= f).Within mine := by
  induction t with
  | done a => exact hf a
  | emit e t ih => exact ih ht
  | call r next ih => exact ⟨ht.1, fun reply ↦ ih reply (ht.2 reply)⟩

theorem Within.report_bind {e : Event} {f : Unit → Task α} (hf : (f ()).Within mine) :
    (report e >>= f).Within mine := hf

theorem Within.ask_bind {f : Except StorageError r.Answer → Task α} (hr : r.Within mine)
    (hf : ∀ answer, (f answer).Within mine) : (ask r >>= f).Within mine :=
  ⟨hr, fun reply ↦ hf (reply.mapError .request)⟩

theorem within_objectExists {path : ObjectPath} (hpath : mine path) :
    (objectExists path).Within mine := by
  refine Within.ask_bind hpath fun answer ↦ ?_
  cases answer <;> exact within_done

theorem Within.mapM {f : β → Task α} {xs : List β} (hf : ∀ x ∈ xs, (f x).Within mine) :
    (xs.mapM f).Within mine := by
  induction xs with
  | nil => exact within_done
  | cons x xs ih =>
    obtain ⟨hx, hxs⟩ := List.forall_mem_cons.mp hf
    rw [List.mapM_cons]
    exact hx.bind fun y ↦ (ih hxs).bind fun ys ↦ within_done

theorem Within.mono {mine' : ObjectPath → Prop} (h : t.Within mine)
    (hmine : ∀ p, mine p → mine' p) : t.Within mine' := by
  have hrequest : ∀ r : Request, r.Within mine → r.Within mine' := by
    rintro (path | path | path | path | ⟨source, target⟩ | dir) hr
    · exact hmine _ hr
    · exact hmine _ hr
    · exact hmine _ hr
    · exact hmine _ hr
    · exact ⟨hmine _ hr.1, hmine _ hr.2⟩
    · exact hr
  induction t with
  | done a => trivial
  | emit e t ih => exact ih h
  | call r next ih => exact ⟨hrequest r h.1, fun reply ↦ ih reply (h.2 reply)⟩

/-- What is left of a task after its next request or report, and the store by then. -/
def next? (answer : (r : Request) → σ → r.Reply × σ) : Task α → σ → Option (Task α × σ)
  | .done _, _ => none
  | .emit _ t, s => some (t, s)
  | .call r next, s => some (next (answer r s).1, (answer r s).2)

/-- How many requests and reports there are until the task is done. -/
def steps (answer : (r : Request) → σ → r.Reply × σ) : Task α → σ → Nat
  | .done _, _ => 0
  | .emit _ t, s => t.steps answer s + 1
  | .call r next, s => (next (answer r s).1).steps answer (answer r s).2 + 1

theorem next?_eq_none {answer : (r : Request) → σ → r.Reply × σ} {s : σ} :
    t.next? answer s = none ↔ ∃ a, t = .done a := by
  cases t <;> simp [next?]

/-- Going on with a task, step by step, is going through it. -/
theorem run_of_next? {answer : (r : Request) → σ → r.Reply × σ} {s s' : σ} {t' : Task α}
    (h : t.next? answer s = some (t', s')) :
    (t'.run answer s').value = (t.run answer s).value ∧
      (t'.run answer s').state = (t.run answer s).state ∧
      t'.steps answer s' + 1 = t.steps answer s := by
  cases t with
  | done a => cases h
  | emit e t =>
    obtain ⟨rfl, rfl⟩ := Prod.mk.inj (Option.some.inj h)
    exact ⟨rfl, rfl, rfl⟩
  | call r next =>
    obtain ⟨rfl, rfl⟩ := Prod.mk.inj (Option.some.inj h)
    exact ⟨rfl, rfl, rfl⟩

/-- A task goes on within its paths, and changes nothing elsewhere. -/
theorem Within.next? (ht : t.Within mine) {t' : Task α}
    (h : t.next? MemoryStore.answer s = some (t', s')) :
    t'.Within mine ∧ ∀ p, ¬ mine p → s'.get? p = s.get? p := by
  cases t with
  | done a => cases h
  | emit e t =>
    obtain ⟨rfl, rfl⟩ := Prod.mk.inj (Option.some.inj h)
    exact ⟨ht, fun _ _ ↦ rfl⟩
  | call r next =>
    obtain ⟨rfl, rfl⟩ := Prod.mk.inj (Option.some.inj h)
    exact ⟨ht.2 _, fun p hp ↦ MemoryStore.get?_answer ht.1 hp⟩

/-- A task does not notice what a store holds elsewhere. -/
theorem Within.run_congr (h : t.Within mine) (hs : s.Agree mine s') :
    (t.run MemoryStore.answer s).value = (t.run MemoryStore.answer s').value ∧
      (t.run MemoryStore.answer s).state.Agree mine (t.run MemoryStore.answer s').state ∧
      t.steps MemoryStore.answer s = t.steps MemoryStore.answer s' := by
  induction t generalizing s s' with
  | done a => exact ⟨rfl, hs, rfl⟩
  | emit e t ih =>
    obtain ⟨hvalue, hstate, hsteps⟩ := ih h hs
    exact ⟨hvalue, hstate, congrArg (· + 1) hsteps⟩
  | call r next ih =>
    obtain ⟨hreply, hnext⟩ := hs.answer h.1
    obtain ⟨hvalue, hstate, hsteps⟩ := ih _ (h.2 _) hnext
    rw [run_call, run_call, steps, steps, ← hreply]
    exact ⟨hvalue, hstate, congrArg (· + 1) hsteps⟩

/-- A task changes nothing elsewhere. -/
theorem Within.run_frame (h : t.Within mine) {p : ObjectPath} (hp : ¬ mine p) :
    (t.run MemoryStore.answer s).state.get? p = s.get? p := by
  induction t generalizing s with
  | done a => rfl
  | emit e t ih => exact ih h
  | call r next ih =>
    rw [run_call, ih _ (h.2 _), MemoryStore.get?_answer h.1 hp]

/-! ## Watching requests -/

/-- A store that may reply anything, and only watches whether all requests so far were about these
paths. -/
def Watches (mine : ObjectPath → Prop) : Replying Prop :=
  fun r kept _ kept' ↦ kept' = (kept ∧ r.Within mine)

variable {kept kept' : Prop}

/-- Nothing makes up for a request elsewhere. -/
theorem kept_of_ends {a : α} (h : t.Ends (Watches mine) kept a kept') (hkept : kept') : kept := by
  induction h with
  | done => exact hkept
  | emit _ ih => exact ih hkept
  | call hr _ ih =>
    obtain rfl := hr
    exact (ih hkept).1

/-- Every task may end, since a store may refuse everything. -/
theorem exists_ends (mine : ObjectPath → Prop) (kept : Prop) (t : Task α) :
    ∃ a kept', t.Ends (Watches mine) kept a kept' := by
  induction t generalizing kept with
  | done a => exact ⟨a, kept, .done⟩
  | emit e t ih =>
    obtain ⟨a, kept', h⟩ := ih kept
    exact ⟨a, kept', .emit h⟩
  | call r next ih =>
    obtain ⟨a, kept', h⟩ := ih (.error .failed) (kept ∧ r.Within mine)
    exact ⟨a, kept', .call rfl h⟩

/-- Who watches a task within its paths sees nothing else. -/
theorem Within.keeps (ht : t.Within mine) {a : α} (h : t.Ends (Watches mine) kept a kept')
    (hkept : kept) : kept' := by
  induction h with
  | done => exact hkept
  | emit _ ih => exact ih ht hkept
  | call hr _ ih =>
    obtain rfl := hr
    exact ih (ht.2 _) ⟨hkept, ht.1⟩

/-- Whatever a task may end with on some store, it may end with before the eyes of this one. -/
theorem Ends.watched {replies : Replying σ} {st st' : σ} {a : α} (h : t.Ends replies st a st')
    (mine : ObjectPath → Prop) (kept : Prop) : ∃ kept', t.Ends (Watches mine) kept a kept' := by
  induction h generalizing kept with
  | done => exact ⟨kept, .done⟩
  | emit _ ih =>
    obtain ⟨kept', h⟩ := ih kept
    exact ⟨kept', .emit h⟩
  | @call r _ _ _ _ _ _ _ _ ih =>
    obtain ⟨kept', h⟩ := ih (kept ∧ r.Within mine)
    exact ⟨kept', .call rfl h⟩

/-- The second of two tasks only has to do with what the first one may end with. -/
theorem Within.bind_of_ends (ht : t.Within mine)
    (hf : ∀ a, t.Ends (Watches mine) True a True → (f a).Within mine) :
    (t >>= f).Within mine := by
  induction t with
  | done a => exact hf a .done
  | emit e t ih => exact ih ht fun a h ↦ hf a (.emit h)
  | call r next ih =>
    have hkept : True = (True ∧ r.Within mine) := (eq_true ⟨trivial, ht.1⟩).symm
    exact ⟨ht.1, fun reply ↦ ih reply (ht.2 reply) fun a h ↦ hf a (.call hkept h)⟩

/-- A task within its paths is one of which nothing else is ever seen. -/
theorem within_of_keeps (h : ∀ a kept', t.Ends (Watches mine) True a kept' → kept') :
    t.Within mine := by
  induction t with
  | done a => exact within_done
  | emit e t ih => exact ih fun a kept' ht ↦ h a kept' (.emit ht)
  | call r next ih =>
    have hr : r.Within mine := by
      obtain ⟨a, kept', ht⟩ := (next (.error .failed)).exists_ends mine (True ∧ r.Within mine)
      exact (kept_of_ends ht (h a kept' (.call rfl ht))).2
    refine ⟨hr, fun reply ↦ ih reply fun a kept' ht ↦ h a kept' (.call ?_ ht)⟩
    exact (eq_true ⟨trivial, hr⟩).symm

end Task

/-! ## Changes put together -/

namespace MemoryStore

/-- The first store with everything that was changed in each of the others. -/
def Combines (s : MemoryStore) (alone : ι → MemoryStore) (s' : MemoryStore) : Prop :=
  ∀ p, (∀ i, (alone i).get? p ≠ s.get? p → s'.get? p = (alone i).get? p) ∧
    ((∀ i, (alone i).get? p = s.get? p) → s'.get? p = s.get? p)

variable {s s₁ s₂ : MemoryStore} {alone : ι → MemoryStore} {own : ι → ObjectPath → Prop}

/-- Changes that were made each at paths of its own are put together path by path. -/
theorem Combines.of_agree (hframe : ∀ i q, ¬ own i q → (alone i).get? q = s.get? q)
    (hown : ∀ i, s₁.Agree (own i) (alone i))
    (hrest : ∀ q, (∀ i, ¬ own i q) → s₁.get? q = s.get? q) : s.Combines alone s₁ := by
  intro q
  constructor
  · intro i hi
    exact hown i q (not_imp_comm.mp (hframe i q) hi)
  · intro hq
    by_cases hexists : ∃ i, own i q
    · obtain ⟨i, hi⟩ := hexists
      exact (hown i q hi).trans (hq i)
    · exact hrest q (not_exists.mp hexists)

/-- There is one way to put changes together. -/
theorem Combines.get?_eq (h₁ : s.Combines alone s₁) (h₂ : s.Combines alone s₂) (p : ObjectPath) :
    s₁.get? p = s₂.get? p := by
  by_cases hp : ∀ i, (alone i).get? p = s.get? p
  · rw [(h₁ p).2 hp, (h₂ p).2 hp]
  · obtain ⟨i, hi⟩ := not_forall.mp hp
    rw [(h₁ p).1 i hi, (h₂ p).1 i hi]

end MemoryStore

namespace Task

/-- Tasks with paths of their own, one after the other: each of them has the value and leaves the
paths as it does alone. -/
theorem run_mapM {f : β → Task α} {own : β → ObjectPath → Prop} {xs : List β} {s s' : MemoryStore}
    (hwithin : ∀ x ∈ xs, (f x).Within (own x))
    (hown : xs.Pairwise fun x y ↦ ∀ q, own x q → ¬ own y q)
    (hs : ∀ x ∈ xs, s'.Agree (own x) s) :
    ((xs.mapM f).run MemoryStore.answer s').value =
        xs.map (fun x ↦ ((f x).run MemoryStore.answer s).value) ∧
      (∀ x ∈ xs, ((xs.mapM f).run MemoryStore.answer s').state.Agree (own x)
        ((f x).run MemoryStore.answer s).state) ∧
      ∀ q, (∀ x ∈ xs, ¬ own x q) →
        ((xs.mapM f).run MemoryStore.answer s').state.get? q = s'.get? q := by
  induction xs generalizing s' with
  | nil => exact ⟨rfl, by simp, fun _ _ ↦ rfl⟩
  | cons x xs ih =>
    obtain ⟨hx, hxs⟩ := List.forall_mem_cons.mp hwithin
    obtain ⟨hfirst, hlater⟩ := List.pairwise_cons.mp hown
    obtain ⟨hsx, hsxs⟩ := List.forall_mem_cons.mp hs
    obtain ⟨hvalue, hstate, -⟩ := hx.run_congr hsx
    have hafter : ∀ y ∈ xs, ((f x).run MemoryStore.answer s').state.Agree (own y) s :=
      fun y hy q hq ↦ (hx.run_frame fun hq' ↦ hfirst y hy q hq' hq).trans (hsxs y hy q hq)
    obtain ⟨hvalues, hstates, hrest⟩ := ih hxs hlater hafter
    simp only [List.mapM_cons, run_bind, pure_eq, run_done]
    refine ⟨?_, List.forall_mem_cons.mpr ⟨fun q hq ↦ ?_, hstates⟩, fun q hq ↦ ?_⟩
    · simpa using ⟨hvalue, hvalues⟩
    · exact (hrest q fun y hy ↦ hfirst y hy q hq).trans (hstate q hq)
    · obtain ⟨hqx, hqxs⟩ := List.forall_mem_cons.mp hq
      exact (hrest q hqxs).trans (hx.run_frame hqx)

end Task

/-! ## Tasks side by side -/

namespace Pool

variable {γ : ι → Type} {own : ι → ObjectPath → Prop} {first : Pool ι γ} {p p' : Pool ι γ}

/-- No path belongs to two tasks. -/
def Separate (own : ι → ObjectPath → Prop) : Prop := ∀ i j q, own i q → own j q → i = j

/-- What is left of each task comes from here to what the whole task comes to alone, from the store
of the first pool. -/
structure Alone (own : ι → ObjectPath → Prop) (first p : Pool ι γ) : Prop where
  within (i : ι) : (p.tasks i).Within (own i)
  value (i : ι) : ((p.tasks i).run MemoryStore.answer p.store).value =
    ((first.tasks i).run MemoryStore.answer first.store).value
  state (i : ι) : ((p.tasks i).run MemoryStore.answer p.store).state.Agree (own i)
    ((first.tasks i).run MemoryStore.answer first.store).state
  rest (q : ObjectPath) (hq : ∀ i, ¬ own i q) : p.store.get? q = first.store.get? q

theorem Alone.refl (h : ∀ i, (first.tasks i).Within (own i)) : Alone own first first where
  within := h
  value _ := rfl
  state _ := Agree.refl _ _
  rest _ _ := rfl

/-- A task that is done has the value that it has alone. -/
theorem Alone.of_done (h : Alone own first p) {i : ι} {a : γ i} (ha : p.tasks i = .done a) :
    a = ((first.tasks i).run MemoryStore.answer first.store).value := by
  simpa [ha] using h.value i

/-- Where all tasks are done, the store has what each of them leaves alone, and nothing else. -/
theorem Alone.combines (h : Alone own first p) (hfirst : ∀ i, (first.tasks i).Within (own i))
    (hdone : ∀ i, ∃ a, p.tasks i = .done a) :
    first.store.Combines (fun i ↦ ((first.tasks i).run MemoryStore.answer first.store).state)
      p.store := by
  refine .of_agree (fun i q hq ↦ (hfirst i).run_frame hq) (fun i q hq ↦ ?_) h.rest
  obtain ⟨a, ha⟩ := hdone i
  simpa [ha] using h.state i q hq

variable [DecidableEq ι]

/-- The pool after the next request or report of one task. -/
def Turn (i : ι) (p p' : Pool ι γ) : Prop :=
  ∃ t s, (p.tasks i).next? MemoryStore.answer p.store = some (t, s) ∧
    p' = ⟨s, Function.update p.tasks i t⟩

/-- Where nobody outside the pool uses the store, a step is the turn of a task. -/
theorem step_iff_turn : Step (fun _ _ ↦ False) p p' ↔ ∃ i, Turn i p p' := by
  constructor
  · intro h
    cases h with
    | @emit i e t h => exact ⟨i, t, p.store, by rw [h, Task.next?], rfl⟩
    | @call i r next h => exact ⟨i, _, _, by rw [h, Task.next?], rfl⟩
    | outside h => exact h.elim
  · rintro ⟨i, t, s, h, rfl⟩
    cases ht : p.tasks i with
    | done a => rw [ht] at h; cases h
    | emit e t' =>
      rw [ht] at h
      obtain ⟨rfl, rfl⟩ := Prod.mk.inj (Option.some.inj h)
      exact .emit ht
    | call r next =>
      rw [ht] at h
      obtain ⟨rfl, rfl⟩ := Prod.mk.inj (Option.some.inj h)
      exact .call ht

/-- The turn of one task makes no difference to any of them, and it has one step less to go. -/
theorem Alone.turn (hown : Separate own) (h : Alone own first p) {i : ι} (hturn : Turn i p p') :
    Alone own first p' ∧
      (p'.tasks i).steps MemoryStore.answer p'.store + 1 =
        (p.tasks i).steps MemoryStore.answer p.store ∧
      ∀ j ≠ i, p'.tasks j = p.tasks j ∧ (p'.tasks j).steps MemoryStore.answer p'.store =
        (p.tasks j).steps MemoryStore.answer p.store := by
  obtain ⟨t, s, hnext, rfl⟩ := hturn
  obtain ⟨hwithin, hframe⟩ := (h.within i).next? hnext
  obtain ⟨hvalue, hstate, hsteps⟩ := Task.run_of_next? hnext
  have hothers : ∀ j ≠ i, ((p.tasks j).run MemoryStore.answer s).value =
        ((p.tasks j).run MemoryStore.answer p.store).value ∧
      ((p.tasks j).run MemoryStore.answer s).state.Agree (own j)
        ((p.tasks j).run MemoryStore.answer p.store).state ∧
      (p.tasks j).steps MemoryStore.answer s = (p.tasks j).steps MemoryStore.answer p.store :=
    fun j hj ↦ (h.within j).run_congr fun q hq ↦ hframe q fun hq' ↦ hj (hown j i q hq hq')
  refine ⟨?_, by simpa using hsteps, fun j hj ↦ ?_⟩
  · constructor
    · intro j
      by_cases hj : j = i
      · subst hj
        simpa using hwithin
      · simpa [hj] using h.within j
    · intro j
      by_cases hj : j = i
      · subst hj
        simpa [hvalue] using h.value j
      · simpa [hj, (hothers j hj).1] using h.value j
    · intro j
      by_cases hj : j = i
      · subst hj
        simpa [hstate] using h.state j
      · simpa [hj] using (hothers j hj).2.1.trans (h.state j)
    · intro q hq
      exact (hframe q (hq i)).trans (h.rest q hq)
  · simpa [hj] using (hothers j hj).2.2

/-- Tasks with paths of their own come to what they come to alone, in whatever order they go on. -/
theorem Reaches.alone (hown : Separate own) (hwithin : ∀ i, (first.tasks i).Within (own i))
    (hp : Reaches (fun _ _ ↦ False) first p) : Alone own first p := by
  induction hp with
  | refl => exact .refl hwithin
  | tail _ hstep ih =>
    obtain ⟨i, hturn⟩ := step_iff_turn.mp hstep
    exact (ih.turn hown hturn).1

end Pool

end TableSink
