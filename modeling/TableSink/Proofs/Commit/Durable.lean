import TableSink.Commit.Batch
import TableSink.Proofs.Json.Kind

/-!
# Committables as text

A committable is kept as text between closing and committing. What is said here is that nothing gets
lost on the way: a written committable is read back as it was (`Committable.parse_text`), and no
text is read as a token of a kind that it does not name (`Token.tag_of_parse`,
`Committable.tag_of_parse`). For the latter the text is read a second time, as a value like any
other, and looked at for the word of its kind.
-/

namespace TableSink

open Json (readAll readText readNatural readValue readRecord Stops Taken)

variable {cs rest : List Char}

/-! ## Numbers -/

theorem fits64_ofNat {n : Nat} (h : n < UInt64.size) : Json.Fits64 n := by
  constructor
  · omega
  · omega

/-- A written natural number is read as this number, if it is below the bound. -/
theorem readNatural_integerText {n bound : Nat} (hn : n < bound) (hbound : bound ≤ UInt64.size)
    (h : Stops rest) : readNatural bound (Json.integerText n ++ rest) = .ok (n, rest) := by
  obtain ⟨c, cs, hcs, hc⟩ := Json.exists_integerText n
  have hread := Json.readNumber_integerText (fits64_ofNat (hn.trans_le hbound)) h
  have hstart : c = '-' ∨ Json.isDigit c = true := by simpa [Json.startsNumber] using hc
  rw [hcs, List.cons_append] at hread ⊢
  rw [readNatural, Json.skipSpace_cons (Json.isSpace_of_startsNumber hc)]
  simp only [if_pos hstart, hread, Json.ok_bind]
  exact if_pos hn

/-- A natural number is a value. -/
theorem value_of_readNatural {n bound : Nat} (depth : Nat)
    (h : readNatural bound cs = .ok (n, rest)) : ∃ v, readValue .kept depth cs = .ok (v, rest) := by
  rw [readNatural] at h
  split at h
  · next c cs₁ hcs =>
    split at h
    · next hc =>
      have hstart : Json.startsNumber c = true := by simpa [Json.startsNumber] using hc
      obtain ⟨⟨number, cs₂⟩, hnumber, h⟩ := Json.bind_eq_ok.mp h
      have hrest : cs₂ = rest := by
        split at h
        · next n' cs₃ heq =>
          split at h
          · cases h
            exact (Prod.mk.inj heq).2
          · cases h
        · cases h
      subst hrest
      refine ⟨.number number, ?_⟩
      rw [← Json.readValue_skipSpace, hcs, Json.readValue_number .kept depth hstart, hnumber,
        Json.ok_map]
    · cases h
  · cases h

/-! ## Written tokens -/

namespace Token

/-- The kind of a token. -/
def kind : Token → Kind
  | .pending _ => .pending
  | .inProgress _ => .inProgress

/-- The word in a token for its kind. -/
def Kind.word : Kind → String
  | .pending => "pending"
  | .inProgress => "in_progress"

/-- What a token holds beside the word for its kind. -/
def members : Token → List (String × Json)
  | .pending t => [("staging_path", .string t.staging), ("target_path", .string t.target),
      ("size", .number (.integer t.size)), ("record_count", .number (.integer t.records))]
  | .inProgress t => [("staging_path", .string t.staging), ("size", .number (.integer t.size))]

theorem toJson_eq (t : Token) :
    t.toJson = .object (("type", .string t.kind.word) :: t.members) := by
  cases t with
  | pending t => rfl
  | inProgress t => rfl

theorem Kind.ofWord_eq_some {word : String} {k : Kind} :
    Kind.ofWord word = some k ↔ word = k.word := by
  constructor
  · intro h
    rw [ofWord.eq_def] at h
    split at h
    · cases h
      rfl
    · cases h
      rfl
    · cases h
  · rintro rfl
    cases k with
    | pending => rfl
    | inProgress => rfl

/-- Whether the numbers of a token have at most 64 bits. -/
def Fits : Token → Prop
  | .pending t => t.size < UInt64.size ∧ t.records < UInt64.size
  | .inProgress t => t.size < UInt64.size

variable {t : Token}

theorem fitMembers_members (h : t.Fits) (depth : Nat) : Json.FitMembers depth t.members := by
  cases t with
  | pending t => simp [members, Json.FitMembers, Json.Fits, fits64_ofNat h.1, fits64_ofNat h.2]
  | inProgress t => simp [members, Json.FitMembers, Json.Fits, fits64_ofNat h]

theorem quantity?_ofNat {n : Nat} (h : n < UInt64.size) :
    quantity? (.number (.integer n)) = some n :=
  if_pos h

/-- The token is there in its members. -/
theorem ofContent?_members (h : t.Fits) : ofContent? t.kind (.members t.members) = some t := by
  cases t with
  | pending t =>
    have hvalues : (Json.Content.members (pending t).members).values?
        ["staging_path", "target_path", "size", "record_count"] = some [.string t.staging,
          .string t.target, .number (.integer t.size), .number (.integer t.records)] := by
      simp [Json.Content.values?, members, List.lookup_cons]
    simp only [kind, ofContent?, hvalues, quantity?_ofNat h.1, quantity?_ofNat h.2,
      Option.bind_eq_bind, Option.bind_some]
    rfl
  | inProgress t =>
    have hvalues : (Json.Content.members (inProgress t).members).values?
        ["staging_path", "size"] = some [.string t.staging, .number (.integer t.size)] := by
      simp [Json.Content.values?, members, List.lookup_cons]
    have hsize : t.size < UInt64.size := h
    simp only [kind, ofContent?, hvalues, quantity?_ofNat hsize, Option.bind_eq_bind,
      Option.bind_some]
    rfl

theorem read_render (h : t.Fits) (depth : Nat) :
    read depth (t.toJson.render ++ rest) = .ok (t, rest) := by
  have hne : t.members ≠ [] := by cases t <;> exact List.cons_ne_nil _ _
  have htag : ∀ m ∈ t.members, m.1 ≠ "type" := by cases t <;> simp [members]
  have hword : Kind.ofWord t.kind.word = some t.kind := Kind.ofWord_eq_some.mpr rfl
  rw [toJson_eq, read, Json.readTagged_render hword hne htag (fitMembers_members h depth),
    Json.ok_bind]
  simp only [ofContent?_members h]
  rfl

/-! ## The kind of a token -/

/-- The word that a text names a kind with, whatever else it holds. -/
def tag? (text : String) : Option String :=
  (readAll (readValue .kept Json.depthLimit) text).toOption.bind (Json.tag? "type")

theorem kind_of_ofContent? {k : Kind} {content : Json.Content} (h : ofContent? k content = some t) :
    t.kind = k := by
  cases k with
  | pending =>
    simp only [ofContent?, Option.bind_eq_bind, Option.bind_eq_some_iff] at h
    obtain ⟨values, -, h⟩ := h
    split at h
    · simp only [Option.bind_eq_some_iff] at h
      obtain ⟨size, -, records, -, h⟩ := h
      cases h
      rfl
    · cases h
  | inProgress =>
    simp only [ofContent?, Option.bind_eq_bind, Option.bind_eq_some_iff] at h
    obtain ⟨values, -, h⟩ := h
    split at h
    · simp only [Option.bind_eq_some_iff] at h
      obtain ⟨size, -, h⟩ := h
      cases h
      rfl
    · cases h

/-- What is read as a token is a value that names its kind. -/
theorem value_of_read {depth : Nat} (h : read depth cs = .ok (t, rest)) :
    ∃ v, readValue .kept (depth + 1) cs = .ok (v, rest) ∧ v.tag? "type" = some t.kind.word := by
  obtain ⟨⟨⟨k, content⟩, cs₁⟩, htagged, h⟩ := Json.bind_eq_ok.mp h
  cases hcontent : ofContent? k content with
  | none =>
    simp only [hcontent] at h
    cases h
  | some token =>
    simp only [hcontent] at h
    cases h
    obtain ⟨v, word, hvalue, htag, hword⟩ := Json.value_of_readTagged htagged
    rw [Kind.ofWord_eq_some.mp hword, ← kind_of_ofContent? hcontent] at htag
    exact ⟨v, hvalue, htag⟩

/-- A text that is read as a token names the kind of this token. -/
theorem tag_of_parse {text : String} (h : parse text = .ok t) : tag? text = some t.kind.word := by
  obtain ⟨rest, hread, hend⟩ := Json.readAll_eq_ok.mp h
  obtain ⟨v, hvalue, htag⟩ := value_of_read hread
  have hall : readAll (readValue .kept Json.depthLimit) text = .ok v :=
    Json.readAll_eq_ok.mpr ⟨rest, hvalue, hend⟩
  rw [tag?, hall]
  exact htag

end Token

/-! ## Written committables -/

namespace Committable

variable {c : Committable}

/-- Each member of a written committable is taken by a field. -/
theorem exists_takes_bucket (s : String) : ∃ f, fields.find? (·.name = "bucket_id") = some f ∧
    f.Takes (.string s) fun c ↦ { c with bucket := s } := by
  refine ⟨_, rfl, ?_⟩
  intro rest _
  exact Json.map_eq_ok.mpr ⟨_, Json.readText_stringText s rest, rfl⟩

theorem exists_takes_token {t : Token} (h : t.Fits) :
    ∃ f, fields.find? (·.name = "recoverable") = some f ∧
      f.Takes t.toJson fun c ↦ { c with token := t } := by
  refine ⟨_, rfl, ?_⟩
  intro rest _
  exact Json.map_eq_ok.mpr ⟨_, Token.read_render h _, rfl⟩

theorem exists_takes_retries (n : UInt32) : ∃ f, fields.find? (·.name = "retries") = some f ∧
    f.Takes (.number (.integer n.toNat)) fun c ↦ { c with retries := n } := by
  refine ⟨_, rfl, ?_⟩
  intro rest hrest
  refine Json.map_eq_ok.mpr ⟨_, readNatural_integerText n.toNat_lt (by decide) hrest, ?_⟩
  rw [UInt32.ofNat_toNat]

theorem taken_fields (h : c.token.Fits) (start : Committable) :
    Taken fields [("bucket_id", .string c.bucket), ("recoverable", c.token.toJson),
      ("retries", .number (.integer c.retries.toNat))] [] start
      ["retries", "recoverable", "bucket_id"] c := by
  obtain ⟨_, hbucket, htakes⟩ := exists_takes_bucket c.bucket
  refine .cons hbucket (by decide) htakes ?_
  obtain ⟨_, htoken, htakes⟩ := exists_takes_token h
  refine .cons htoken (by decide) htakes ?_
  obtain ⟨_, hretries, htakes⟩ := exists_takes_retries c.retries
  exact .cons hretries (by decide) htakes .nil

/-- A written committable is read back as it was. -/
theorem parse_text (h : c.token.Fits) : parse c.text = .ok c := by
  have hread : read (c.toJson.render ++ []) = .ok (c, []) :=
    Json.readRecord_render (taken_fields h _) (List.cons_ne_nil _ _) (by decide)
  rw [List.append_nil] at hread
  refine Json.readAll_eq_ok.mpr ⟨[], ?_, rfl⟩
  rw [text, Json.text, String.toList_ofList]
  exact hread

/-! ## The kind of a committable -/

/-- A field of any shape that does not matter. -/
def otherField (name : String) (required : Bool) : Json.Field Json :=
  ⟨name, required, fun cs ↦ (readValue .kept (Json.depthLimit - 1) cs).map fun r ↦ (id, r.2)⟩

/-- The member in the place of the token, of any shape. -/
def tokenField : Json.Field Json :=
  ⟨"recoverable", true, fun cs ↦
    (readValue .kept (Json.depthLimit - 1) cs).map fun r ↦ (fun _ ↦ r.1, r.2)⟩

/-- Reads what stands in the place of the token. -/
def readTokenValue : Json.Reader Json :=
  readRecord [otherField "bucket_id" true, tokenField, otherField "retries" false] .null

/-- The word that a text names the kind of a token with, whatever else it holds. -/
def tag? (text : String) : Option String :=
  (readAll readTokenValue text).toOption.bind (Json.tag? "type")

/-- Once there was a token, what stands in its place names the kind of it. -/
def NamesKind (seen : List String) (c : Committable) (v : Json) : Prop :=
  "recoverable" ∈ seen → v.tag? "type" = some c.token.kind.word

theorem follows_fields : List.Forall₂ (Json.Field.Follows NamesKind) fields
    [otherField "bucket_id" true, tokenField, otherField "retries" false] := by
  refine .cons ⟨rfl, rfl, ?_⟩ (.cons ⟨rfl, rfl, ?_⟩ (.cons ⟨rfl, rfl, ?_⟩ .nil))
  · intro cs change rest h
    obtain ⟨⟨s, cs₁⟩, htext, h⟩ := Json.map_eq_ok.mp h
    cases h
    refine ⟨id, Json.map_eq_ok.mpr ⟨_, Json.readValue_of_readText _ htext, rfl⟩, ?_⟩
    intro seen c v hnames hmem
    exact hnames (List.mem_of_ne_of_mem (by decide) hmem)
  · intro cs change rest h
    obtain ⟨⟨t, cs₁⟩, hread, h⟩ := Json.map_eq_ok.mp h
    cases h
    obtain ⟨v, hvalue, htag⟩ := Token.value_of_read hread
    refine ⟨fun _ ↦ v, Json.map_eq_ok.mpr ⟨_, hvalue, rfl⟩, ?_⟩
    intro seen c v' _ _
    exact htag
  · intro cs change rest h
    obtain ⟨⟨n, cs₁⟩, hread, h⟩ := Json.map_eq_ok.mp h
    cases h
    obtain ⟨v, hvalue⟩ := value_of_readNatural (Json.depthLimit - 1) hread
    refine ⟨id, Json.map_eq_ok.mpr ⟨_, hvalue, rfl⟩, ?_⟩
    intro seen c v' hnames hmem
    exact hnames (List.mem_of_ne_of_mem (by decide) hmem)

/-- A text that is read as a committable names the kind of its token. -/
theorem tag_of_parse {text : String} (h : parse text = .ok c) :
    tag? text = some c.token.kind.word := by
  obtain ⟨rest, hread, hend⟩ := Json.readAll_eq_ok.mp h
  have hstart : NamesKind [] ⟨"", .inProgress ⟨"", 0⟩, 0⟩ .null := fun hmem ↦ nomatch hmem
  obtain ⟨seen, v, hvalue, hnames, hrequired⟩ :=
    Json.readRecord_follows follows_fields hstart hread
  have hall : readAll readTokenValue text = .ok v := Json.readAll_eq_ok.mpr ⟨rest, hvalue, hend⟩
  rw [tag?, hall]
  exact hnames (hrequired _ (.tail _ (.head _)) rfl)

/-- Committables survive as text: what is read back is what was written, so it has the same outcome
and the same effect on any store; and what is read, from any text, is of the kind that the text
names. -/
theorem survives_text (c : Committable) (h : c.token.Fits) :
    parse c.text = .ok c ∧
      (∀ c', parse c.text = .ok c' → ∀ {σ : Type} (answer : (r : Request) → σ → r.Reply × σ) (s : σ),
        (commitBatch [c']).run answer s = (commitBatch [c]).run answer s) ∧
      (∀ text c', parse text = .ok c' →
        tag? text = some "pending" ∧ c'.token.isPending = true ∨
          tag? text = some "in_progress" ∧ c'.token.isPending = false) ∧
      ∀ text t, Token.parse text = .ok t →
        Token.tag? text = some "pending" ∧ t.isPending = true ∨
          Token.tag? text = some "in_progress" ∧ t.isPending = false := by
  have hparse := parse_text h
  refine ⟨hparse, ?_, ?_, ?_⟩
  · intro c' hc' σ answer s
    obtain rfl := Except.ok.inj (hparse.symm.trans hc')
    rfl
  · intro text c' hc'
    have htag := tag_of_parse hc'
    cases htoken : c'.token with
    | pending t =>
      rw [htoken] at htag
      exact .inl ⟨htag, rfl⟩
    | inProgress t =>
      rw [htoken] at htag
      exact .inr ⟨htag, rfl⟩
  · intro text t ht
    have htag := Token.tag_of_parse ht
    cases t with
    | pending t => exact .inl ⟨htag, rfl⟩
    | inProgress t => exact .inr ⟨htag, rfl⟩

/-- Quotes, backslashes and control characters in every text, and the greatest numbers there are. -/
theorem survives_text_greatest :
    let t : PendingToken := ⟨"s/\"\\\n", "t/\x00é", UInt64.size - 1, UInt64.size - 1⟩
    let c : Committable := ⟨"d=\"\\\t\x1f", .pending t, 4294967295⟩
    c.token.Fits ∧ parse c.text = .ok c ∧ tag? c.text = some "pending" := by
  intro t c
  have hfits : c.token.Fits := ⟨by decide, by decide⟩
  obtain ⟨hparse, -, htag, -⟩ := survives_text c hfits
  refine ⟨hfits, hparse, ?_⟩
  rcases htag c.text c hparse with ⟨htag, -⟩ | ⟨-, hpending⟩
  · exact htag
  · cases hpending

end Committable

end TableSink
