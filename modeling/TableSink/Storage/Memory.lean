import TableSink.Storage.Task

/-!
# Stores in memory

A store in memory maps paths to bytes. `get?` is the view of it: what each operation does is said by
what `get?` gives afterwards.
-/

namespace TableSink

/-- Objects under their paths. -/
structure MemoryStore where
  /-- The objects, the one stored last in front; no path twice. -/
  objects : List (ObjectPath × ByteArray)

namespace MemoryStore

/-- A store without objects. -/
def empty : MemoryStore := ⟨[]⟩

instance : Inhabited MemoryStore := ⟨empty⟩

/-- The object at a path. -/
def get? (s : MemoryStore) (path : ObjectPath) : Option ByteArray :=
  (s.objects.find? fun o ↦ o.1 = path).map Prod.snd

/-- The store without the object at a path. -/
def erase (s : MemoryStore) (path : ObjectPath) : MemoryStore :=
  ⟨s.objects.filter fun o ↦ o.1 ≠ path⟩

/-- The store with an object at a path. -/
def insert (s : MemoryStore) (path : ObjectPath) (data : ByteArray) : MemoryStore :=
  ⟨(path, data) :: (s.erase path).objects⟩

/-- The paths below a path. -/
def below (s : MemoryStore) (dir : ObjectPath) : List ObjectPath :=
  (s.objects.map Prod.fst).filter (·.isBelow dir)

@[simp] theorem get?_empty (p : ObjectPath) : empty.get? p = none := rfl

theorem get?_erase (s : MemoryStore) (p q : ObjectPath) :
    (s.erase p).get? q = if q = p then none else s.get? q := by
  obtain ⟨objects⟩ := s
  simp only [get?, erase]
  induction objects with
  | nil => simp
  | cons o os ih =>
    by_cases hp : o.1 = p <;> by_cases hq : o.1 = q <;> simp_all

theorem get?_insert (s : MemoryStore) (p q : ObjectPath) (data : ByteArray) :
    (s.insert p data).get? q = if q = p then some data else s.get? q := by
  by_cases h : p = q
  · simp [h, insert, get?]
  · have := s.get?_erase p q
    simp_all [insert, get?, Ne.symm h]

/-- What a store in memory replies. Removing what is not there succeeds. An object that is given its
own path is gone afterwards, since it is copied first and removed then. -/
def answer : (r : Request) → MemoryStore → r.Reply × MemoryStore
  | .get path, s =>
    match s.get? path with
    | some data => (.ok data, s)
    | none => (.error .notFound, s)
  | .head path, s =>
    match s.get? path with
    | some data => (.ok data.size, s)
    | none => (.error .notFound, s)
  | .put path data, s => (.ok (), s.insert path data)
  | .delete path, s => (.ok (), s.erase path)
  | .rename source target, s =>
    match s.get? source with
    | some data => (.ok (), (s.insert target data).erase source)
    | none => (.error .notFound, s)
  | .list dir, s => (.ok (s.below dir), s)

end MemoryStore

end TableSink
