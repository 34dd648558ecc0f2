import TableSink.Metrics.Event
import TableSink.Storage.Fault

/-!
# Tasks on a store

A task is work that asks a store for things: a tree whose nodes are the requests, with one branch
for every possible reply. What a store replies is not fixed here. The same task runs on a store in
memory, on a directory, on one that fails now and then, or one request at a time beside other
tasks; `Task.run` and `Task.runIn` are the two ways to go through one from start to end.
-/

namespace TableSink

/-- Something asked of a store. -/
inductive Request where
  /-- The bytes of an object. -/
  | get (path : ObjectPath)
  /-- The length of an object. -/
  | head (path : ObjectPath)
  /-- Store an object, replacing one that is there. -/
  | put (path : ObjectPath) (data : ByteArray)
  /-- Remove an object. -/
  | delete (path : ObjectPath)
  /-- Give an object another path, replacing one that is there. -/
  | rename (source target : ObjectPath)
  /-- The paths below a path. -/
  | list (dir : ObjectPath)

namespace Request

/-- What a request that succeeds gives. -/
abbrev Answer : Request → Type
  | .get _ => ByteArray
  | .head _ => Nat
  | .put _ _ | .delete _ | .rename _ _ => Unit
  | .list _ => List ObjectPath

/-- What a store replies to a request. -/
abbrev Reply (r : Request) : Type := Except StoreFault r.Answer

/-- The kind of a request. -/
def operation : Request → Operation
  | .get _ => .get
  | .head _ => .head
  | .put _ _ => .put
  | .delete _ => .delete
  | .rename _ _ => .rename
  | .list _ => .list

/-- Whether a reply counts as success. That an object is missing is an answer to the question for
its length, and a failure of any other request. -/
def succeeded : (r : Request) → r.Reply → Bool
  | .head _, .error fault => fault == .notFound
  | _, .error _ => false
  | _, .ok _ => true

end Request

/-- Work on a store that ends with a value. -/
inductive Task (α : Type) where
  /-- Nothing is left to do. -/
  | done (value : α)
  /-- Report an event and go on. -/
  | emit (event : Event) (next : Task α)
  /-- Ask for something and go on with the reply. -/
  | call (request : Request) (next : request.Reply → Task α)

namespace Task

variable {α β : Type}

/-- One task after the other. -/
def bind : Task α → (α → Task β) → Task β
  | .done a, f => f a
  | .emit e t, f => .emit e (t.bind f)
  | .call r t, f => .call r fun reply ↦ (t reply).bind f

instance : Monad Task where
  pure := .done
  bind := bind

@[simp] theorem pure_eq (a : α) : (pure a : Task α) = .done a := rfl

@[simp] theorem done_bind (a : α) (f : α → Task β) : (Task.done a >>= f) = f a := rfl

@[simp] theorem emit_bind (e : Event) (t : Task α) (f : α → Task β) :
    (Task.emit e t >>= f) = .emit e (t >>= f) := rfl

@[simp] theorem call_bind (r : Request) (t : r.Reply → Task α) (f : α → Task β) :
    (Task.call r t >>= f) = .call r fun reply ↦ t reply >>= f := rfl

theorem bind_done (t : Task α) : (t >>= Task.done) = t := by
  induction t with
  | done a => rfl
  | emit e t ih => simp [ih]
  | call r t ih => simp [ih]

theorem bind_assoc {γ : Type} (t : Task α) (f : α → Task β) (g : β → Task γ) :
    (t >>= f >>= g) = t >>= fun a ↦ f a >>= g := by
  induction t with
  | done a => rfl
  | emit e t ih => simp [ih]
  | call r t ih => simp [ih]

instance : LawfulMonad Task :=
  LawfulMonad.mk' Task (fun t ↦ bind_done t) (fun _ _ ↦ rfl) bind_assoc

/-- Where work consists of tasks, a task is the work itself. -/
@[simp] theorem liftM_eq (t : Task α) : (liftM t : Task α) = t := rfl

/-- Report an event. -/
def report (e : Event) : Task Unit := .emit e (.done ())

/-- Make a request. How it went is reported. -/
def request (r : Request) : Task r.Reply :=
  .call r fun reply ↦ .emit (.request r.operation (r.succeeded reply)) (.done reply)

/-! ## Requests as questions of the library -/

/-- Make a request, with its failure as an error. -/
def ask (r : Request) : Task (Except StorageError r.Answer) :=
  (request r).bind fun reply ↦ .done (reply.mapError .request)

/-- Whether there is an object at a path. -/
def objectExists (path : ObjectPath) : Task (Except StorageError Bool) := do
  match ← ask (.head path) with
  | .ok _ => return .ok true
  | .error e => return if e.isNotFound then .ok false else .error e

/-- The paths below a path, in the order of their texts. -/
def listBelow (dir : ObjectPath) : Task (Except StorageError (List ObjectPath)) := do
  return (← ask (.list dir)).map fun paths ↦ paths.mergeSort fun p q ↦ decide (p.text ≤ q.text)

/-! ## Going through a task -/

/-- What is left when a task is done: its value, the state of the store, and the events in order. -/
structure Outcome (σ α : Type) where
  value : α
  state : σ
  events : List Event

/-- Go through a task on a store whose state the replies may change. -/
def run {σ : Type} (answer : (r : Request) → σ → r.Reply × σ) : Task α → σ → Outcome σ α
  | .done a, s => ⟨a, s, []⟩
  | .emit e t, s =>
    let rest := t.run answer s
    { rest with events := e :: rest.events }
  | .call r t, s =>
    let reply := answer r s
    (t reply.1).run answer reply.2

/-- Go through a task where replies and reports are actions. -/
def runIn {m : Type → Type} [Monad m] (answer : (r : Request) → m r.Reply)
    (report : Event → m Unit) : Task α → m α
  | .done a => pure a
  | .emit e t => do
    report e
    t.runIn answer report
  | .call r t => do
    (t (← answer r)).runIn answer report

section run

variable {σ : Type} (answer : (r : Request) → σ → r.Reply × σ)

@[simp] theorem run_done (a : α) (s : σ) : (Task.done a).run answer s = ⟨a, s, []⟩ := rfl

@[simp] theorem run_emit (e : Event) (t : Task α) (s : σ) :
    (Task.emit e t).run answer s =
      { t.run answer s with events := e :: (t.run answer s).events } := rfl

@[simp] theorem run_call (r : Request) (t : r.Reply → Task α) (s : σ) :
    (Task.call r t).run answer s = (t (answer r s).1).run answer (answer r s).2 := rfl

/-- A task after another one starts where the other one ended. -/
theorem run_bind (t : Task α) (f : α → Task β) (s : σ) :
    (t >>= f).run answer s =
      let first := t.run answer s
      let second := (f first.value).run answer first.state
      { second with events := first.events ++ second.events } := by
  induction t generalizing s with
  | done a => simp
  | emit e t ih => simp [ih]
  | call r t ih => simp [ih]

end run

end Task

end TableSink
