import TableSink.Proofs.Json.RoundTrip

/-!
# Records that were written are read back

Records are read member by member, so the reader is cut here into what it does with one member and
what it does behind it (`readFields_succ`). From this come two kinds of facts. A record that was
written is read back if each of its values is (`readRecord_render`). And two readers of the same
text get through it side by side if their fields do (`readRecord_follows`), so what one of them has
read can be seen in a plainer reading of the text.
-/

namespace TableSink.Json

variable {α β γ : Type} {cs rest : List Char}

/-! ## What a reader has gone through -/

theorem bind_eq_ok {x : Except Fault α} {f : α → Except Fault β} {b : β} :
    (x >>= f) = .ok b ↔ ∃ a, x = .ok a ∧ f a = .ok b := by
  cases x with
  | error fault =>
    constructor
    · intro h
      cases h
    · rintro ⟨a, h, -⟩
      cases h
  | ok a =>
    constructor
    · intro h
      exact ⟨a, rfl, h⟩
    · rintro ⟨a', h, hb⟩
      obtain rfl := Except.ok.inj h
      exact hb

theorem map_eq_ok {x : Except Fault α} {f : α → β} {b : β} :
    x.map f = .ok b ↔ ∃ a, x = .ok a ∧ f a = b := by
  cases x with
  | error fault =>
    constructor
    · intro h
      cases h
    · rintro ⟨a, h, -⟩
      cases h
  | ok a =>
    constructor
    · intro h
      exact ⟨a, rfl, Except.ok.inj h⟩
    · rintro ⟨a', h, rfl⟩
      obtain rfl := Except.ok.inj h
      rfl

/-- A whole text is read if only spaces are left. -/
theorem readAll_eq_ok {read : Reader α} {text : String} {a : α} :
    readAll read text = .ok a ↔
      ∃ rest, read text.toList = .ok (a, rest) ∧ skipSpace rest = [] := by
  rw [readAll, bind_eq_ok]
  constructor
  · rintro ⟨⟨a', rest⟩, hread, h⟩
    by_cases hrest : skipSpace rest = []
    · simp only [if_pos hrest] at h
      cases h
      exact ⟨rest, hread, hrest⟩
    · simp only [if_neg hrest] at h
      cases h
  · rintro ⟨rest, hread, hrest⟩
    refine ⟨(a, rest), hread, ?_⟩
    simp only [if_pos hrest]
    rfl

/-! ## Members of a record -/

/-- What is read of a member behind its name. -/
def readMember (fields : List (Field β)) (seen : List String) (record : β) (name : String) :
    Reader (List String × β) := fun cs ↦
  match fields.find? (·.name = name) with
  | some field =>
    if seen.contains name then .error .mismatch else do
      let (change, cs) ← field.read (← readColon cs)
      return ((name :: seen, change record), cs)
  | none => do
    let (_, cs) ← passValue (← readColon cs)
    return ((seen, record), cs)

/-- What is read behind a member. -/
def readFieldsBehind (fields : List (Field β)) (fuel : Nat) (seen : List String) (record : β) :
    Reader β := fun cs ↦
  match skipSpace cs with
  | ',' :: cs => readFields fields fuel seen record cs
  | '\x7d' :: cs =>
    if anyRequired (fields.filter fun f ↦ !seen.contains f.name) then throw .mismatch
    else return (record, cs)
  | [] => throw .truncated
  | _ => throw .malformed

theorem readFields_succ (fields : List (Field β)) (fuel : Nat) (seen : List String) (record : β)
    (cs : List Char) : readFields fields (fuel + 1) seen record cs = (do
      let (name, cs) ← readName .kept cs
      let ((seen, record), cs) ← readMember fields seen record name cs
      readFieldsBehind fields fuel seen record cs) := by
  rw [readFields]
  cases readName .kept cs with
  | error _ => rfl
  | ok r =>
    obtain ⟨name, cs⟩ := r
    simp only [ok_bind, readMember]
    cases fields.find? (·.name = name) with
    | none =>
      cases readColon cs with
      | error _ => rfl
      | ok cs =>
        simp only [ok_bind]
        cases passValue cs with
        | error _ => rfl
        | ok r => rfl
    | some field =>
      cases seen.contains name with
      | true => rfl
      | false =>
        cases readColon cs with
        | error _ => rfl
        | ok cs =>
          simp only [ok_bind]
          cases field.read cs with
          | error _ => rfl
          | ok r => rfl

/-! ## Two readers side by side -/

/-- A field that takes what another one takes. The relation between what the two records hold may
depend on the names that were used up. -/
structure Field.Follows (R : List String → β → γ → Prop) (f : Field β) (g : Field γ) : Prop where
  name_eq : g.name = f.name
  required_eq : g.required = f.required
  exists_read {cs rest : List Char} {change : β → β} : f.read cs = .ok (change, rest) →
    ∃ change', g.read cs = .ok (change', rest) ∧
      ∀ {seen b c}, R seen b c → R (f.name :: seen) (change b) (change' c)

variable {R : List String → β → γ → Prop} {fs : List (Field β)} {gs : List (Field γ)}

theorem find?_follows (h : List.Forall₂ (Field.Follows R) fs gs) (name : String) :
    Option.Rel (Field.Follows R) (fs.find? (·.name = name)) (gs.find? (·.name = name)) := by
  induction h with
  | nil => exact .none
  | @cons f g fs gs hfield _ ih =>
    by_cases hname : f.name = name
    · rw [List.find?_cons_of_pos (by simpa using hname),
        List.find?_cons_of_pos (by simpa [hfield.name_eq] using hname)]
      exact .some hfield
    · rw [List.find?_cons_of_neg (by simpa using hname),
        List.find?_cons_of_neg (by simpa [hfield.name_eq] using hname)]
      exact ih

theorem anyRequired_filter_follows (h : List.Forall₂ (Field.Follows R) fs gs)
    (seen : List String) : anyRequired (gs.filter fun f ↦ !seen.contains f.name) =
      anyRequired (fs.filter fun f ↦ !seen.contains f.name) := by
  induction h with
  | nil => rfl
  | @cons f g fs gs hfield _ ih =>
    simp only [anyRequired] at ih ⊢
    rw [List.filter_cons, List.filter_cons, hfield.name_eq]
    split
    · rw [List.any_cons, List.any_cons, hfield.required_eq, ih]
    · exact ih

theorem anyRequired_follows (h : List.Forall₂ (Field.Follows R) fs gs) :
    anyRequired gs = anyRequired fs := by
  induction h with
  | nil => rfl
  | cons hfield _ ih =>
    simp only [anyRequired] at ih ⊢
    rw [List.any_cons, List.any_cons, hfield.required_eq, ih]

theorem readMember_follows (h : List.Forall₂ (Field.Follows R) fs gs) {seen seen' : List String}
    {b b' : β} {c : γ} {name : String} (hR : R seen b c)
    (hread : readMember fs seen b name cs = .ok ((seen', b'), rest)) :
    ∃ c', readMember gs seen c name cs = .ok ((seen', c'), rest) ∧ R seen' b' c' := by
  have hfind := find?_follows h name
  rw [readMember] at hread
  cases hf : fs.find? (·.name = name) with
  | none =>
    rw [hf] at hfind hread
    cases hg : gs.find? (·.name = name) with
    | some g => rw [hg] at hfind; cases hfind
    | none =>
      obtain ⟨cs₁, hcolon, hread⟩ := bind_eq_ok.mp hread
      obtain ⟨⟨_, cs₂⟩, hpass, hread⟩ := bind_eq_ok.mp hread
      cases hread
      refine ⟨c, ?_, hR⟩
      simp only [readMember, hg, hcolon, hpass, ok_bind]
      rfl
  | some f =>
    rw [hf] at hfind hread
    cases hg : gs.find? (·.name = name) with
    | none => rw [hg] at hfind; cases hfind
    | some g =>
      rw [hg] at hfind
      cases hfind with
      | some hfield =>
        have hname : f.name = name := by simpa using List.find?_some hf
        cases hseen : seen.contains name with
        | true =>
          simp only [hseen, if_true] at hread
          cases hread
        | false =>
          simp only [hseen] at hread
          obtain ⟨cs₁, hcolon, hread⟩ := bind_eq_ok.mp hread
          obtain ⟨⟨change, cs₂⟩, hvalue, hread⟩ := bind_eq_ok.mp hread
          cases hread
          obtain ⟨change', hvalue', hstep⟩ := hfield.exists_read hvalue
          refine ⟨change' c, ?_, hname ▸ hstep hR⟩
          simp only [readMember, hg, hseen, hcolon, hvalue', ok_bind]
          rfl

theorem readFields_follows (h : List.Forall₂ (Field.Follows R) fs gs) {fuel : Nat}
    {seen : List String} {b b' : β} {c : γ} (hR : R seen b c)
    (hread : readFields fs fuel seen b cs = .ok (b', rest)) :
    ∃ seen' c', readFields gs fuel seen c cs = .ok (c', rest) ∧ R seen' b' c' ∧
      ∀ f ∈ fs, f.required = true → f.name ∈ seen' := by
  induction fuel generalizing seen b c cs with
  | zero => cases hread
  | succ fuel ih =>
    rw [readFields_succ] at hread
    obtain ⟨⟨name, cs₁⟩, hname, hread⟩ := bind_eq_ok.mp hread
    obtain ⟨⟨⟨seen₁, b₁⟩, cs₂⟩, hmember, hread⟩ := bind_eq_ok.mp hread
    obtain ⟨c₁, hmember', hR₁⟩ := readMember_follows h hR hmember
    simp only [readFieldsBehind] at hread
    simp only [readFields_succ, readFieldsBehind, hname, hmember', ok_bind]
    split at hread
    · next cs₃ hcs =>
      obtain ⟨seen', c', hrest, hR', hrequired⟩ := ih hR₁ hread
      exact ⟨seen', c', hrest, hR', hrequired⟩
    · next cs₃ hcs =>
      rw [anyRequired_filter_follows h]
      split at hread
      · cases hread
      · next hnone =>
        cases hread
        refine ⟨seen₁, c₁, if_neg hnone, hR₁, ?_⟩
        intro f hf hrequired
        by_contra hmem
        refine hnone (List.any_eq_true.mpr ⟨f, List.mem_filter.mpr ⟨hf, ?_⟩, hrequired⟩)
        simpa using hmem
    · cases hread
    · cases hread

theorem readElements_follows (h : List.Forall₂ (Field.Follows R) fs gs) {first : Bool}
    {seen : List String} {b b' : β} {c : γ} (hR : R seen b c)
    (hread : readElements fs first b cs = .ok (b', rest)) :
    ∃ seen' c', readElements gs first c cs = .ok (c', rest) ∧ R seen' b' c' ∧ seen ⊆ seen' ∧
      ∀ f ∈ fs, f.required = true → f.name ∈ seen' := by
  induction h generalizing first seen b c cs with
  | nil =>
    rw [readElements] at hread ⊢
    split at hread
    · next hcs =>
      cases hread
      exact ⟨seen, c, rfl, hR, List.Subset.refl seen, fun f hf ↦ nomatch hf⟩
    · cases hread
    · cases hread
  | @cons f g fs gs hfield hfields ih =>
    -- The value at the front and what is behind it, wherever the front is.
    have hnext : ∀ {cs}, (do
        let (change, cs) ← f.read cs
        readElements fs false (change b) cs) = .ok (b', rest) →
        ∃ seen' c', (do
          let (change, cs) ← g.read cs
          readElements gs false (change c) cs) = .ok (c', rest) ∧ R seen' b' c' ∧ seen ⊆ seen' ∧
          ∀ f' ∈ f :: fs, f'.required = true → f'.name ∈ seen' := by
      intro cs h
      obtain ⟨⟨change, cs₁⟩, hvalue, h⟩ := bind_eq_ok.mp h
      obtain ⟨change', hvalue', hstep⟩ := hfield.exists_read hvalue
      obtain ⟨seen', c', hrest, hR', hsubset, hrequired⟩ := ih (hstep hR) h
      obtain ⟨hname, hsubset⟩ := List.cons_subset.mp hsubset
      refine ⟨seen', c', bind_eq_ok.mpr ⟨_, hvalue', hrest⟩, hR', hsubset, ?_⟩
      exact List.forall_mem_cons.mpr ⟨fun _ ↦ hname, hrequired⟩
    have hany := anyRequired_follows (.cons hfield hfields)
    rw [readElements] at hread ⊢
    split at hread
    · next cs₁ hcs =>
      split at hread
      · cases hread
      · next hnone =>
        cases hread
        refine ⟨seen, c, ?_, hR, List.Subset.refl seen, ?_⟩
        · simp only [hany, if_neg hnone]
        · intro f' hf' hrequired
          exact absurd (List.any_eq_true.mpr ⟨f', hf', hrequired⟩) hnone
    · cases hread
    · next d cs₁ hcs hd =>
      split at hread
      · next hfirst =>
        simp only [if_pos hfirst]
        exact hnext hread
      · next hfirst =>
        simp only [if_neg hfirst]
        split at hread
        · next hcomma =>
          simp only [if_pos hcomma]
          exact hnext hread
        · cases hread

/-- Where one reader gets through a text, one whose fields follow does, and what the two have read
is related. Every field that has to be there was used. -/
theorem readRecord_follows (h : List.Forall₂ (Field.Follows R) fs gs) {b b' : β} {c : γ}
    (hR : R [] b c) (hread : readRecord fs b cs = .ok (b', rest)) :
    ∃ seen c', readRecord gs c cs = .ok (c', rest) ∧ R seen b' c' ∧
      ∀ f ∈ fs, f.required = true → f.name ∈ seen := by
  have hany := anyRequired_follows h
  rw [readRecord] at hread ⊢
  split at hread
  · next cs₁ hcs =>
    obtain ⟨seen, c', hread', hR', -, hrequired⟩ := readElements_follows h hR hread
    exact ⟨seen, c', hread', hR', hrequired⟩
  · next cs₁ hcs =>
    split at hread
    · next cs₂ hcs₂ =>
      split at hread
      · cases hread
      · next hnone =>
        cases hread
        refine ⟨[], c, ?_, hR, ?_⟩
        · simp only [hany, if_neg hnone]
        · intro f hf hrequired
          exact absurd (List.any_eq_true.mpr ⟨f, hf, hrequired⟩) hnone
    · exact readFields_follows h hR hread
  · cases hread

/-! ## Written records -/

/-- A field that reads a written value, whatever follows it in the record. -/
def Field.Takes (f : Field β) (value : Json) (change : β → β) : Prop :=
  ∀ {rest : List Char}, Stops rest → f.read (value.render ++ rest) = .ok (change, rest)

/-- Members that the fields of a record take one after the other, from the names that are used up
and what the record holds in front of them to those behind them. -/
inductive Taken (fields : List (Field β)) :
    List (String × Json) → List String → β → List String → β → Prop
  | nil {seen : List String} {b : β} : Taken fields [] seen b seen b
  | cons {name : String} {value : Json} {members : List (String × Json)} {field : Field β}
    {change : β → β} {seen seen' : List String} {b b' : β}
    (hfind : fields.find? (·.name = name) = some field) (hseen : name ∉ seen)
    (hvalue : field.Takes value change)
    (hrest : Taken fields members (name :: seen) (change b) seen' b') :
    Taken fields ((name, value) :: members) seen b seen' b'

theorem readFields_render {fields : List (Field β)} {members : List (String × Json)}
    {seen seen' : List String} {b b' : β} (h : Taken fields members seen b seen' b')
    (hne : members ≠ []) {fuel : Nat} (hfuel : members.length ≤ fuel)
    (hrequired : anyRequired (fields.filter fun f ↦ !seen'.contains f.name) = false) :
    readFields fields fuel seen b (renderMembers members ++ '\x7d' :: rest) = .ok (b', rest) := by
  induction h generalizing fuel with
  | nil => exact absurd rfl hne
  | @cons name value members field change seen seen' b b' hfind hseen hvalue hrest ih =>
    cases fuel with
    | zero => cases hfuel
    | succ fuel =>
      have hmember : ∀ {cs}, Stops cs → readMember fields seen b name (':' :: (value.render ++ cs)) =
          .ok ((name :: seen, change b), cs) := by
        intro cs hcs
        have hcontains : seen.contains name = false := by simpa using hseen
        simp only [readMember, hfind, hcontains, readColon_cons, hvalue hcs, ok_bind]
        rfl
      cases members with
      | nil =>
        cases hrest
        rw [renderMembers_singleton, readFields_succ, readName_stringText, ok_bind]
        simp only [hmember (stops_cons (.inr (.inr rfl))), ok_bind, readFieldsBehind,
          skipSpace_brace, hrequired]
        rfl
      | cons next members =>
        rw [renderMembers_cons, readFields_succ, readName_stringText, ok_bind]
        simp only [hmember (stops_cons (.inl rfl)), ok_bind, readFieldsBehind,
          skipSpace_comma]
        exact ih (List.cons_ne_nil _ _) (Nat.le_of_succ_le_succ hfuel) hrequired

theorem readRecord_members (fields : List (Field β)) (b : β) (cs : List Char) :
    readRecord fields b ('\x7b' :: '\x22' :: cs) =
      readFields fields (cs.length + 2) [] b ('\x22' :: cs) := by
  rw [readRecord, skipSpace_cons rfl]
  simp only [skipSpace_quote]
  rfl

/-- A written record is read as this record. -/
theorem readRecord_render {fields : List (Field β)} {members : List (String × Json)}
    {seen : List String} {b b' : β} (h : Taken fields members [] b seen b') (hne : members ≠ [])
    (hrequired : anyRequired (fields.filter fun f ↦ !seen.contains f.name) = false) :
    readRecord fields b ((Json.object members).render ++ rest) = .ok (b', rest) := by
  obtain ⟨m, members, rfl⟩ := List.exists_cons_of_ne_nil hne
  obtain ⟨cs, hcs⟩ := exists_renderMembers m members
  have hread : readFields fields ((cs ++ '\x7d' :: rest).length + 2) [] b
      (renderMembers (m :: members) ++ '\x7d' :: rest) = .ok (b', rest) :=
    readFields_render h hne (length_members_le hcs rest) hrequired
  rw [hcs, List.cons_append] at hread
  rw [render, hcs]
  simp only [List.cons_append, List.append_assoc, List.nil_append]
  rw [readRecord_members, hread]

end TableSink.Json
