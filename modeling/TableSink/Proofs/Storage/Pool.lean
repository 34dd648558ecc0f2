import Mathlib.Logic.Function.Basic
import Mathlib.Logic.Relation
import TableSink.Storage.Memory

/-!
# Tasks side by side

A pool is a store together with tasks that work on it at the same time. One request is carried out
at a time, and between two requests any other task may go on, or somebody outside the pool may use
the store. A task that is not scheduled any more was given up at that point, so every reachable pool
is also one in which any number of tasks have crashed.

The tasks of a pool keep to a common *rule* that says what anybody may do to the store.
`Task.Keeps` says that a task keeps to the rule if the others do, and `Pool.Reaches.keeps` that
nothing else can happen then.
-/

namespace TableSink

/-- What anybody may do to a store, in any number of steps. -/
structure Rule where
  allows : MemoryStore → MemoryStore → Prop
  refl (s : MemoryStore) : allows s s
  trans {s₁ s₂ s₃ : MemoryStore} : allows s₁ s₂ → allows s₂ s₃ → allows s₁ s₃

namespace Task

variable {α : Type}

/-- Nothing is left to do but to report, and the value is certain. -/
inductive Settles (a : α) : Task α → Prop
  | done : Settles a (.done a)
  | emit {e : Event} {t : Task α} (h : Settles a t) : Settles a (.emit e t)

variable (rule : Rule) (phase : MemoryStore → Prop) (credit : α) (post : MemoryStore → α → Prop)

/-- The task keeps to the rule from this store on, whatever others do by the rule in between: its
value is as `post` says, and if it is the one that ends the phase, its value is `credit`. -/
def Keeps : Task α → MemoryStore → Prop
  | .done a, s => ∀ s', rule.allows s s' → post s' a
  | .emit _ t, s => t.Keeps s
  | .call r next, s => ∀ s', rule.allows s s' →
      rule.allows s' (MemoryStore.answer r s').2 ∧
        (phase s' → ¬ phase (MemoryStore.answer r s').2 →
          (next (MemoryStore.answer r s').1).Settles credit) ∧
        (next (MemoryStore.answer r s').1).Keeps (MemoryStore.answer r s').2

variable {rule phase credit post}

@[simp] theorem settles_emit {a : α} {e : Event} {t : Task α} :
    (Task.emit e t).Settles a ↔ t.Settles a :=
  ⟨fun h ↦ by cases h; assumption, .emit⟩

@[simp] theorem settles_done {a b : α} : (Task.done b).Settles a ↔ b = a :=
  ⟨fun h ↦ by cases h; rfl, fun h ↦ h ▸ .done⟩

@[simp] theorem keeps_emit {e : Event} {t : Task α} {s : MemoryStore} :
    (Task.emit e t).Keeps rule phase credit post s ↔ t.Keeps rule phase credit post s := Iff.rfl

@[simp] theorem keeps_done {a : α} {s : MemoryStore} :
    (Task.done a).Keeps rule phase credit post s ↔ ∀ s', rule.allows s s' → post s' a := Iff.rfl

/-- A question comes down to its answer on whatever store others have left by then. -/
theorem keeps_ask_bind {r : Request} {f : Except StorageError r.Answer → Task α} {s : MemoryStore} :
    (Task.ask r >>= f).Keeps rule phase credit post s ↔ ∀ s', rule.allows s s' →
      rule.allows s' (MemoryStore.answer r s').2 ∧
        (phase s' → ¬ phase (MemoryStore.answer r s').2 →
          (f ((MemoryStore.answer r s').1.mapError .request)).Settles credit) ∧
        (f ((MemoryStore.answer r s').1.mapError .request)).Keeps rule phase credit post
          (MemoryStore.answer r s').2 := by
  have hask : (Task.ask r >>= f) = .call r fun reply ↦
      .emit (.request r.operation (r.succeeded reply)) (f (reply.mapError .request)) := rfl
  rw [hask]
  simp only [Keeps, settles_emit]

/-- What others do by the rule is no trouble. -/
theorem Keeps.of_allows {s s' : MemoryStore} (hs : rule.allows s s') {t : Task α}
    (h : t.Keeps rule phase credit post s) : t.Keeps rule phase credit post s' := by
  induction t with
  | done a => exact fun s'' h'' ↦ h s'' (rule.trans hs h'')
  | emit e t ih => exact ih h
  | call r next _ => exact fun s'' h'' ↦ h s'' (rule.trans hs h'')

end Task

/-- A store and the tasks that work on it. -/
structure Pool (ι : Type) (α : ι → Type) where
  store : MemoryStore
  tasks : (i : ι) → Task (α i)

namespace Pool

variable {ι : Type} {α : ι → Type}

/-- Every task keeps to the rule from now on. -/
def Keeps (rule : Rule) (phase : MemoryStore → Prop) (credit : (i : ι) → α i)
    (post : (i : ι) → MemoryStore → α i → Prop) (p : Pool ι α) : Prop :=
  ∀ i, (p.tasks i).Keeps rule phase (credit i) (post i) p.store

variable {rule : Rule} {phase : MemoryStore → Prop} {credit : (i : ι) → α i}
variable {post : (i : ι) → MemoryStore → α i → Prop}

/-- A task that is done meets its promise. -/
theorem Keeps.of_done {p : Pool ι α} (h : p.Keeps rule phase credit post) {i : ι} {a : α i}
    (ha : p.tasks i = .done a) : post i p.store a := by
  have hi := h i
  rw [ha] at hi
  exact hi p.store (rule.refl p.store)

variable [DecidableEq ι] {outside : MemoryStore → MemoryStore → Prop}

/-- What may happen next: a task reports, a task makes a request, or somebody outside the pool
changes the store. -/
inductive Step (outside : MemoryStore → MemoryStore → Prop) : Pool ι α → Pool ι α → Prop
  | emit {p : Pool ι α} {i : ι} {e : Event} {t : Task (α i)} (h : p.tasks i = .emit e t) :
    Step outside p { p with tasks := Function.update p.tasks i t }
  | call {p : Pool ι α} {i : ι} {r : Request} {next : r.Reply → Task (α i)}
    (h : p.tasks i = .call r next) :
    Step outside p ⟨(MemoryStore.answer r p.store).2,
      Function.update p.tasks i (next (MemoryStore.answer r p.store).1)⟩
  | outside {p : Pool ι α} {s : MemoryStore} (h : outside p.store s) :
    Step outside p { p with store := s }

/-- What may happen sooner or later. -/
abbrev Reaches (outside : MemoryStore → MemoryStore → Prop) : Pool ι α → Pool ι α → Prop :=
  Relation.ReflTransGen (Step outside)

/-- Every step keeps to the rule, and so do the tasks after it. -/
theorem Step.keeps (hout : ∀ s s', outside s s' → rule.allows s s') {p p' : Pool ι α}
    (hstep : Step outside p p') (h : p.Keeps rule phase credit post) :
    rule.allows p.store p'.store ∧ p'.Keeps rule phase credit post := by
  cases hstep with
  | @emit i e t hi =>
    refine ⟨rule.refl _, fun j ↦ ?_⟩
    by_cases hj : j = i
    · subst hj
      have hemit := h j
      rw [hi] at hemit
      simpa using hemit
    · simpa [hj] using h j
  | @call i r next hi =>
    have hcall := h i
    rw [hi] at hcall
    obtain ⟨hrule, -, hnext⟩ := hcall p.store (rule.refl _)
    refine ⟨hrule, fun j ↦ ?_⟩
    by_cases hj : j = i
    · subst hj
      simpa using hnext
    · simpa [hj] using (h j).of_allows hrule
  | outside hs => exact ⟨hout _ _ hs, fun j ↦ (h j).of_allows (hout _ _ hs)⟩

/-- Where every task keeps to the rule, nothing happens against it. -/
theorem Reaches.keeps (hout : ∀ s s', outside s s' → rule.allows s s') {p p' : Pool ι α}
    (hp : Reaches outside p p') (h : p.Keeps rule phase credit post) :
    rule.allows p.store p'.store ∧ p'.Keeps rule phase credit post := by
  induction hp with
  | refl => exact ⟨rule.refl _, h⟩
  | tail _ hstep ih =>
    obtain ⟨hrule, hkeeps⟩ := hstep.keeps hout ih.2
    exact ⟨rule.trans ih.1 hrule, hkeeps⟩

/-- A task may go on alone until it is done. -/
theorem reaches_run (outside : MemoryStore → MemoryStore → Prop) (p : Pool ι α) (i : ι) :
    Reaches outside p ⟨((p.tasks i).run MemoryStore.answer p.store).state,
      Function.update p.tasks i (.done ((p.tasks i).run MemoryStore.answer p.store).value)⟩ := by
  generalize ht : p.tasks i = t
  induction t generalizing p with
  | done a =>
    rw [Task.run_done, ← ht, Function.update_eq_self]
  | emit e t ih =>
    refine .head (Step.emit ht) ?_
    simpa using ih { p with tasks := Function.update p.tasks i t } (Function.update_self ..)
  | call r next ih =>
    refine .head (Step.call ht) ?_
    simpa using ih (MemoryStore.answer r p.store).1 ⟨(MemoryStore.answer r p.store).2,
      Function.update p.tasks i (next (MemoryStore.answer r p.store).1)⟩ (Function.update_self ..)

/-- A task that is settled stays so. -/
theorem Step.settles {p p' : Pool ι α} (hstep : Step outside p p') {i : ι} {a : α i}
    (h : (p.tasks i).Settles a) : (p'.tasks i).Settles a := by
  cases hstep with
  | @emit j e t hj =>
    by_cases hi : i = j
    · subst hi
      rw [hj] at h
      cases h with
      | emit h => simpa using h
    · simpa [hi] using h
  | @call j r next hj =>
    by_cases hi : i = j
    · subst hi
      rw [hj] at h
      cases h
    · simpa [hi] using h
  | outside _ => exact h

/-- A phase that nobody outside the pool ends goes on until some task has ended it. -/
theorem Reaches.phase_or_settles (hout : ∀ s s', outside s s' → rule.allows s s')
    (hquiet : ∀ s s', outside s s' → phase s → phase s') {p p' : Pool ι α}
    (hp : Reaches outside p p') (h : p.Keeps rule phase credit post) (hphase : phase p.store) :
    phase p'.store ∨ ∃ i, (p'.tasks i).Settles (credit i) := by
  induction hp with
  | refl => exact .inl hphase
  | @tail q q' hq hstep ih =>
    rcases ih with hgoes | ⟨i, hi⟩
    · cases hstep with
      | emit _ => exact .inl hgoes
      | outside hs => exact .inl (hquiet _ _ hs hgoes)
      | @call i r next hi =>
        have hcall := (Reaches.keeps hout hq h).2 i
        rw [hi] at hcall
        obtain ⟨-, hends, -⟩ := hcall q.store (rule.refl _)
        by_cases hnext : phase (MemoryStore.answer r q.store).2
        · exact .inl hnext
        · exact .inr ⟨i, by simpa using hends hgoes hnext⟩
    · exact .inr ⟨i, hstep.settles hi⟩

end Pool

end TableSink
