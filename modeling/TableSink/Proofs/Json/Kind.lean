import TableSink.Proofs.Json.Record

/-!
# Records that name their kind

A record of one of several kinds has a member for the word of its kind beside its other members, or
is an array with the word in front. Written, it is read back (`readTagged_render`). In the other
direction, whatever a reader of such records takes is a value like any other, and the word of its
kind can be seen in it (`value_of_readTagged`): so no text is taken for a kind that it does not
name.
-/

namespace TableSink.Json

variable {α : Type} {tag : String} {meaning : String → Option α} {depth : Nat}
variable {cs rest : List Char}

/-! ## Members, one of which gives the kind -/

/-- What is read of a member behind its name, where one of the members gives the kind. -/
def readTaggedMember (tag : String) (meaning : String → Option α) (depth : Nat) (kind : Option α)
    (name : String) : Reader (Option α × List (String × Json)) := fun cs ↦
  if name = tag then
    if kind.isSome then .error .mismatch else do
      let (word, cs) ← readText (← readColon cs)
      match meaning word with
      | some k => return ((some k, []), cs)
      | none => throw .mismatch
  else do
    let (value, cs) ← readValue .kept depth (← readColon cs)
    return ((kind, [(name, value)]), cs)

/-- What is read behind a member, where one of the members gives the kind. -/
def readTaggedBehind (tag : String) (meaning : String → Option α) (depth fuel : Nat)
    (kind : Option α) (own : List (String × Json)) : Reader (Option α × List (String × Json)) :=
  fun cs ↦
  match skipSpace cs with
  | ',' :: cs => do
    let ((kind, others), cs) ← readTaggedMembers tag meaning depth fuel kind cs
    return ((kind, own ++ others), cs)
  | '\x7d' :: cs => return ((kind, own), cs)
  | [] => throw .truncated
  | _ => throw .malformed

theorem readTaggedMembers_succ (tag : String) (meaning : String → Option α) (depth fuel : Nat)
    (kind : Option α) (cs : List Char) : readTaggedMembers tag meaning depth (fuel + 1) kind cs = (do
      let (name, cs) ← readName .kept cs
      let ((kind, own), cs) ← readTaggedMember tag meaning depth kind name cs
      readTaggedBehind tag meaning depth fuel kind own cs) := by
  rw [readTaggedMembers]
  cases readName .kept cs with
  | error _ => rfl
  | ok r =>
    obtain ⟨name, cs⟩ := r
    simp only [ok_bind, readTaggedMember]
    by_cases hname : name = tag
    · simp only [if_pos hname]
      cases kind.isSome with
      | true => rfl
      | false =>
        cases readColon cs with
        | error _ => rfl
        | ok cs =>
          simp only [ok_bind]
          cases readText cs with
          | error _ => rfl
          | ok r =>
            obtain ⟨word, cs⟩ := r
            simp only [ok_bind]
            cases meaning word with
            | none => rfl
            | some k => rfl
    · simp only [if_neg hname]
      cases readColon cs with
      | error _ => rfl
      | ok cs =>
        simp only [ok_bind]
        cases readValue .kept depth cs with
        | error _ => rfl
        | ok r => rfl

/-- Members that do not give the kind are kept as they are. -/
theorem readTaggedMembers_render {members : List (String × Json)} (hne : members ≠ [])
    (htag : ∀ m ∈ members, m.1 ≠ tag) (hfit : FitMembers depth members) {fuel : Nat}
    (hfuel : members.length ≤ fuel) (kind : Option α) :
    readTaggedMembers tag meaning depth fuel kind (renderMembers members ++ '\x7d' :: rest) =
      .ok ((kind, members), rest) := by
  induction members generalizing fuel with
  | nil => exact absurd rfl hne
  | cons m members ih =>
    obtain ⟨name, value⟩ := m
    cases fuel with
    | zero => cases hfuel
    | succ fuel =>
      have hname : name ≠ tag := htag (name, value) List.mem_cons_self
      have hmember : ∀ {cs}, Stops cs → readTaggedMember tag meaning depth kind name
          (':' :: (value.render ++ cs)) = .ok ((kind, [(name, value)]), cs) := by
        intro cs hcs
        simp only [readTaggedMember, if_neg hname, readColon_cons, ok_bind,
          readValue_render value hfit.1 hcs]
        rfl
      cases members with
      | nil =>
        rw [renderMembers_singleton, readTaggedMembers_succ, readName_stringText, ok_bind]
        simp only [hmember (stops_cons (.inr (.inr rfl))), ok_bind, readTaggedBehind,
          skipSpace_brace]
        rfl
      | cons next members =>
        have hrest := ih (List.cons_ne_nil _ _) (fun m hm ↦ htag m (List.mem_cons_of_mem _ hm))
          hfit.2 (Nat.le_of_succ_le_succ hfuel)
        rw [renderMembers_cons, readTaggedMembers_succ, readName_stringText, ok_bind]
        simp only [hmember (stops_cons (.inl rfl)), ok_bind, readTaggedBehind,
          skipSpace_comma, hrest]
        rfl

/-- The member that gives the kind. -/
theorem readTaggedMember_tag {word : String} {k : α} (hword : meaning word = some k) :
    readTaggedMember tag meaning depth none tag (':' :: (stringText word ++ cs)) =
      .ok ((some k, []), cs) := by
  simp only [readTaggedMember, if_true, readColon_cons, readText_stringText, hword, ok_bind]
  rfl

theorem readTagged_members (cs : List Char) :
    readTagged tag meaning depth ('\x7b' :: '\x22' :: cs) = (do
      match ← readTaggedMembers tag meaning depth (cs.length + 2) none ('\x22' :: cs) with
      | ((some kind, values), cs) => return ((kind, .members values), cs)
      | ((none, _), _) => throw .mismatch) := by
  rw [readTagged, skipSpace_cons rfl]
  simp only [skipSpace_quote]
  rfl

/-- A written record of one of several kinds is read as this record. -/
theorem readTagged_render {word : String} {k : α} (hword : meaning word = some k)
    {members : List (String × Json)} (hne : members ≠ []) (htag : ∀ m ∈ members, m.1 ≠ tag)
    (hfit : FitMembers depth members) :
    readTagged tag meaning depth ((Json.object ((tag, .string word) :: members)).render ++ rest) =
      .ok ((k, .members members), rest) := by
  obtain ⟨next, others, rfl⟩ := List.exists_cons_of_ne_nil hne
  obtain ⟨cs, hcs⟩ := exists_renderMembers (tag, .string word) (next :: others)
  have hread : readTaggedMembers tag meaning depth ((cs ++ '\x7d' :: rest).length + 2) none
      (renderMembers ((tag, .string word) :: next :: others) ++ '\x7d' :: rest) =
        .ok ((some k, next :: others), rest) := by
    have hrest : readTaggedMembers tag meaning depth ((cs ++ '\x7d' :: rest).length + 1) (some k)
        (renderMembers (next :: others) ++ '\x7d' :: rest) = .ok ((some k, next :: others), rest) :=
      readTaggedMembers_render hne htag hfit
        (Nat.le_of_succ_le_succ (length_members_le hcs rest)) (some k)
    rw [renderMembers_cons, readTaggedMembers_succ, readName_stringText, ok_bind]
    simp only [render, readTaggedMember_tag hword, ok_bind, readTaggedBehind,
      skipSpace_comma, hrest]
    rfl
  rw [hcs, List.cons_append] at hread
  rw [render, hcs]
  simp only [List.cons_append, List.append_assoc, List.nil_append]
  rw [readTagged_members, hread]
  rfl

/-! ## The kind of a value -/

/-- The word that a value names its kind with: the member `tag` of an object, or the first item of
an array. -/
def tag? (tag : String) : Json → Option String
  | .object members => (members.lookup tag).bind fun
    | .string word => some word
    | _ => none
  | .array (.string word :: _) => some word
  | _ => none

theorem readValue_of_readText {word : String} (m : Nat) (h : readText cs = .ok (word, rest)) :
    readValue .kept m cs = .ok (.string word, rest) := by
  rw [readText] at h
  split at h
  · next cs₁ hcs =>
    cases m with
    | zero =>
      rw [readValue, hcs]
      exact map_eq_ok.mpr ⟨(word, rest), h, rfl⟩
    | succ m =>
      rw [readValue, hcs]
      exact map_eq_ok.mpr ⟨(word, rest), h, rfl⟩
  · cases h

/-- What members say of a kind: they leave one that is known, and name one that is found. -/
structure GivesKind (tag : String) (meaning : String → Option α) (kind kind' : Option α)
    (members : List (String × Json)) : Prop where
  known : kind ≠ none → kind' = kind
  found : kind = none → ∀ k, kind' = some k →
    ∃ word, meaning word = some k ∧ members.lookup tag = some (.string word)

theorem GivesKind.nil (kind : Option α) : GivesKind tag meaning kind kind [] where
  known _ := rfl
  found hnone k hk := by
    rw [hnone] at hk
    cases hk

theorem GivesKind.other {kind kind' : Option α} {members : List (String × Json)} {name : String}
    (hname : name ≠ tag) (value : Json) (h : GivesKind tag meaning kind kind' members) :
    GivesKind tag meaning kind kind' ((name, value) :: members) where
  known := h.known
  found hnone k hk := by
    obtain ⟨word, hword, hlookup⟩ := h.found hnone k hk
    refine ⟨word, hword, ?_⟩
    rw [List.lookup_cons, beq_false_of_ne hname.symm]
    exact hlookup

theorem GivesKind.word {kind' : Option α} {members : List (String × Json)} {word : String} {k : α}
    (hword : meaning word = some k) (h : GivesKind tag meaning (some k) kind' members) :
    GivesKind tag meaning none kind' ((tag, .string word) :: members) where
  known hne := absurd rfl hne
  found _ k' hk' := by
    obtain rfl := Option.some.inj ((h.known (Option.some_ne_none k)).symm.trans hk')
    exact ⟨word, hword, List.lookup_cons_self⟩

/-- A member is one of a value, whether it gives the kind or not. -/
theorem value_of_readTaggedMember {name : String} {kind kind₁ : Option α}
    {own : List (String × Json)}
    (h : readTaggedMember tag meaning depth kind name cs = .ok ((kind₁, own), rest)) :
    ∃ cs₁ value, readColon cs = .ok cs₁ ∧ readValue .kept depth cs₁ = .ok (value, rest) ∧
      ∀ {kind' members}, GivesKind tag meaning kind₁ kind' members →
        GivesKind tag meaning kind kind' ((name, value) :: members) := by
  rw [readTaggedMember] at h
  split at h
  · next hname =>
    subst hname
    cases kind with
    | some k => cases h
    | none =>
      obtain ⟨cs₁, hcolon, h⟩ := bind_eq_ok.mp h
      obtain ⟨⟨word, cs₂⟩, htext, h⟩ := bind_eq_ok.mp h
      cases hword : meaning word with
      | none =>
        simp only [hword] at h
        cases h
      | some k =>
        simp only [hword] at h
        cases h
        exact ⟨cs₁, .string word, hcolon, readValue_of_readText depth htext, .word hword⟩
  · next hname =>
    obtain ⟨cs₁, hcolon, h⟩ := bind_eq_ok.mp h
    obtain ⟨⟨value, cs₂⟩, hvalue, h⟩ := bind_eq_ok.mp h
    cases h
    exact ⟨cs₁, value, hcolon, hvalue, .other hname value⟩

/-- Members that give a kind are members of a value that names it. -/
theorem readMembers_of_readTaggedMembers {fuel : Nat} {kind kind' : Option α}
    {others : List (String × Json)}
    (h : readTaggedMembers tag meaning depth fuel kind cs = .ok ((kind', others), rest)) :
    ∃ members, readMembers .kept (readValue .kept depth) fuel cs = .ok (members, rest) ∧
      GivesKind tag meaning kind kind' members := by
  induction fuel generalizing kind kind' others cs with
  | zero => cases h
  | succ fuel ih =>
    rw [readTaggedMembers_succ] at h
    obtain ⟨⟨name, cs₁⟩, hname, h⟩ := bind_eq_ok.mp h
    obtain ⟨⟨⟨kind₁, own⟩, cs₂⟩, hmember, h⟩ := bind_eq_ok.mp h
    obtain ⟨cs₃, value, hcolon, hvalue, hgives⟩ := value_of_readTaggedMember hmember
    simp only [readTaggedBehind] at h
    split at h
    · next cs₄ hcs =>
      obtain ⟨⟨⟨kind₂, others₂⟩, cs₅⟩, hrest, h⟩ := bind_eq_ok.mp h
      cases h
      obtain ⟨members, hmembers, hgives'⟩ := ih hrest
      refine ⟨(name, value) :: members, ?_, hgives hgives'⟩
      simp only [readMembers, hname, hcolon, hvalue, hcs, hmembers, ok_bind]
      rfl
    · next cs₄ hcs =>
      cases h
      refine ⟨[(name, value)], ?_, hgives (.nil _)⟩
      simp only [readMembers, hname, hcolon, hvalue, hcs, ok_bind]
      rfl
    · cases h
    · cases h

/-! ### Arrays that name their kind

An array is read with as many steps as its text is long, counted from its first item or from its
second one. More steps than needed do no harm. -/

theorem length_skipSpace (cs : List Char) : (skipSpace cs).length ≤ cs.length :=
  (List.dropWhile_suffix isSpace).length_le

theorem length_stringBody {m : Manner} {skip : Nat} {body : List Char}
    (h : stringBody m skip cs = .ok (body, rest)) : rest.length < cs.length := by
  induction cs generalizing skip body with
  | nil => cases skip <;> cases h
  | cons c cs ih =>
    cases skip with
    | succ skip => exact Nat.lt_succ_of_lt (ih h)
    | zero =>
      rw [stringBody] at h
      split at h
      · cases h
        exact Nat.lt_succ_self _
      split at h
      · obtain ⟨⟨meant, taken⟩, hescape, h⟩ := bind_eq_ok.mp h
        obtain ⟨⟨body', rest'⟩, hbody, h⟩ := bind_eq_ok.mp h
        cases h
        exact Nat.lt_succ_of_lt (ih hbody)
      split at h
      · cases h
      · obtain ⟨⟨body', rest'⟩, hbody, h⟩ := bind_eq_ok.mp h
        cases h
        exact Nat.lt_succ_of_lt (ih hbody)

theorem length_readText {word : String} (h : readText cs = .ok (word, rest)) :
    rest.length < cs.length := by
  rw [readText] at h
  split at h
  · next cs₁ hcs =>
    obtain ⟨⟨body, rest'⟩, hbody, h⟩ := map_eq_ok.mp h
    cases h
    have hlength := length_skipSpace cs
    rw [hcs, List.length_cons] at hlength
    exact (length_stringBody hbody).trans_le (Nat.le_of_succ_le hlength)
  · cases h

theorem readItems_mono {item : Reader α} {fuel fuel' : Nat} {items : List α}
    (h : readItems item fuel cs = .ok (items, rest)) (hfuel : fuel ≤ fuel') :
    readItems item fuel' cs = .ok (items, rest) := by
  induction fuel generalizing fuel' cs items with
  | zero => cases h
  | succ fuel ih =>
    obtain ⟨fuel', rfl⟩ := Nat.exists_eq_add_of_le' (Nat.one_le_of_lt hfuel)
    rw [readItems] at h ⊢
    obtain ⟨⟨first, cs₁⟩, hfirst, h⟩ := bind_eq_ok.mp h
    refine bind_eq_ok.mpr ⟨_, hfirst, ?_⟩
    simp only at h ⊢
    split at h
    · next cs₂ hcs =>
      obtain ⟨⟨others, cs₃⟩, hothers, h⟩ := bind_eq_ok.mp h
      cases h
      exact bind_eq_ok.mpr ⟨_, ih hothers (Nat.le_of_succ_le_succ hfuel), rfl⟩
    · exact h
    · cases h
    · cases h

theorem readValue_array {m : Manner} {cs₁ : List Char} {items : List Json}
    (hcs : skipSpace cs = '[' :: cs₁) (hcs₁ : ∀ cs₂, skipSpace cs₁ ≠ ']' :: cs₂)
    (h : readItems (readValue m depth) ((skipSpace cs₁).length + 1) (skipSpace cs₁) =
      .ok (items, rest)) : readValue m (depth + 1) cs = .ok (.array items, rest) := by
  rw [readValue, hcs]
  simp only
  rw [h, ok_map]

theorem readValue_object {m : Manner} {cs₁ : List Char} {members : List (String × Json)}
    (hcs : skipSpace cs = '\x7b' :: cs₁) (hcs₁ : ∀ cs₂, skipSpace cs₁ ≠ '\x7d' :: cs₂)
    (h : readMembers m (readValue m depth) ((skipSpace cs₁).length + 1) (skipSpace cs₁) =
      .ok (members, rest)) : readValue m (depth + 1) cs = .ok (.object members, rest) := by
  rw [readValue, hcs]
  simp only
  rw [h, ok_map]

/-- What gives a kind is a value that names it. -/
theorem value_of_readTagged {k : α} {content : Content}
    (h : readTagged tag meaning depth cs = .ok ((k, content), rest)) :
    ∃ v word, readValue .kept (depth + 1) cs = .ok (v, rest) ∧ v.tag? tag = some word ∧
      meaning word = some k := by
  rw [readTagged] at h
  split at h
  · next cs₁ hcs =>
    split at h
    · cases h
    · next hcs₁ =>
      obtain ⟨⟨word, cs₂⟩, htext, h⟩ := bind_eq_ok.mp h
      obtain ⟨k', hk', h⟩ := bind_eq_ok.mp h
      have hlength := length_readText htext
      have hfirst := readValue_of_readText depth htext
      have hword : meaning word = some k' := by
        cases hmeaning : meaning word with
        | none =>
          rw [hmeaning] at hk'
          cases hk'
        | some k₁ =>
          rw [hmeaning] at hk'
          cases hk'
          rfl
      simp only at h
      split at h
      · next cs₃ hcs₂ =>
        cases h
        refine ⟨.array [.string word], word, readValue_array hcs hcs₁ ?_, rfl, hword⟩
        rw [readItems, hfirst, ok_bind]
        simp only [hcs₂]
        rfl
      · next cs₃ hcs₂ =>
        obtain ⟨⟨values, cs₄⟩, hvalues, h⟩ := bind_eq_ok.mp h
        cases h
        have hfuel : cs₃.length + 1 ≤ (skipSpace cs₁).length := by
          have hskip := length_skipSpace cs₂
          rw [hcs₂, List.length_cons] at hskip
          omega
        refine ⟨.array (.string word :: values), word, readValue_array hcs hcs₁ ?_, rfl, hword⟩
        rw [readItems, hfirst, ok_bind]
        simp only [hcs₂, readItems_mono hvalues hfuel, ok_bind]
        rfl
      · cases h
      · cases h
  · next cs₁ hcs =>
    split at h
    · cases h
    · next hcs₁ =>
      obtain ⟨⟨⟨kind, others⟩, cs₂⟩, htagged, h⟩ := bind_eq_ok.mp h
      cases kind with
      | none => cases h
      | some k' =>
        cases h
        obtain ⟨members, hmembers, hgives⟩ := readMembers_of_readTaggedMembers htagged
        obtain ⟨word, hword, hlookup⟩ := hgives.found rfl k rfl
        refine ⟨.object members, word, readValue_object hcs hcs₁ hmembers, ?_, hword⟩
        rw [tag?, hlookup]
        rfl
  · cases h

end TableSink.Json
