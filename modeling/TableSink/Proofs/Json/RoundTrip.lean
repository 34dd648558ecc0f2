import Mathlib.Data.List.DropRight
import Mathlib.Data.Nat.Digits.Defs
import TableSink.Json.Decoder
import TableSink.Json.Printer

/-!
# Values that were written are read back

The reader works on the front of a text, so each lemma here is about the written form of something
with an arbitrary rest behind it: the reader takes the written form, all of it, and leaves the rest.
Only a number needs to know what comes next, since a digit would make it another number (`Stops`).
Put together they say so of every value without floating point numbers that nests no deeper than
the reader goes (`Json.readValue_render`).
-/

namespace TableSink.Json

variable {c : Char} {cs rest : List Char}

/-- What a reader got is what the next one goes on with. -/
@[simp] theorem ok_bind {α β : Type} (a : α) (f : α → Except Fault β) : (Except.ok a >>= f) = f a :=
  rfl

@[simp] theorem ok_map {α β : Type} (a : α) (f : α → β) :
    (Except.ok a : Except Fault α).map f = .ok (f a) := rfl

/-! ## Spaces -/

theorem skipSpace_cons (h : isSpace c = false) : skipSpace (c :: cs) = c :: cs := by
  rw [skipSpace, List.dropWhile_cons_of_neg (by simp [h])]

theorem skipSpace_comma (cs : List Char) : skipSpace (',' :: cs) = ',' :: cs := skipSpace_cons rfl

theorem skipSpace_brace (cs : List Char) : skipSpace ('\x7d' :: cs) = '\x7d' :: cs :=
  skipSpace_cons rfl

theorem skipSpace_quote (cs : List Char) : skipSpace ('\x22' :: cs) = '\x22' :: cs :=
  skipSpace_cons rfl

theorem readColon_cons (cs : List Char) : readColon (':' :: cs) = .ok cs := by
  rw [readColon, skipSpace_cons rfl]
  rfl

/-! ## Strings -/

/-- Only four characters are looked at. -/
theorem hexDigits_append {four : List Char} (h : four.length = 4) :
    hexDigits (four ++ rest) = hexDigits four := by
  rw [hexDigits, hexDigits, List.take_left' h, List.take_of_length_le h.le]

theorem hexDigits_control :
    ∀ n < 0x20, hexDigits ['0', '0', lowerHexDigit (n / 16), lowerHexDigit (n % 16)] = .ok n := by
  decide +kernel

/-- The long form of a control character, behind the backslash. -/
theorem escape_control {n : Nat} (h : n < 0x20) :
    escape .kept ('u' :: '0' :: '0' :: lowerHexDigit (n / 16) :: lowerHexDigit (n % 16) :: rest) =
      .ok (Char.ofNat n, 5) := by
  have hfour : hexDigits (['0', '0', lowerHexDigit (n / 16), lowerHexDigit (n % 16)] ++ rest) =
      .ok n := by rw [hexDigits_append rfl, hexDigits_control n h]
  simp only [List.cons_append, List.nil_append] at hfour
  have hlow : ¬ (0xdc00 ≤ n ∧ n ≤ 0xdfff) := by omega
  have hplane : n < 0xd800 ∨ 0xdbff < n := by omega
  rw [escape, unicodeEscape, hfour, ok_bind, if_neg hlow, if_pos hplane]
  rfl

/-- A written character is read as this character. -/
theorem stringBody_escapeChar (c : Char) (tail : List Char) :
    stringBody .kept 0 (escapeChar c ++ tail) =
      (stringBody .kept 0 tail).map fun r ↦ (c :: r.1, r.2) := by
  rw [escapeChar]
  split
  · next hc =>
    subst hc
    rfl
  split
  · next hc =>
    subst hc
    rfl
  split
  · next hquote hslash hc =>
    rw [List.singleton_append, stringBody, if_neg hquote, if_neg hslash, if_neg (by omega)]
    rfl
  next hquote hslash hc =>
  have hcode : ∀ d : Char, c.toNat = d.toNat → c = d := fun d hd ↦ Char.toNat_inj.mp hd
  split
  · next h => rw [hcode '\x08' h]; rfl
  · next h => rw [hcode '\x09' h]; rfl
  · next h => rw [hcode '\x0a' h]; rfl
  · next h => rw [hcode '\x0c' h]; rfl
  · next h => rw [hcode '\x0d' h]; rfl
  · rw [List.cons_append, stringBody, if_neg (by decide), if_pos rfl]
    simp only [List.cons_append, List.nil_append]
    rw [escape_control (by omega), Char.ofNat_toNat]
    rfl

/-- The characters of a written string are read up to its closing quote. -/
theorem stringBody_flatMap (s rest : List Char) :
    stringBody .kept 0 (s.flatMap escapeChar ++ '\x22' :: rest) = .ok (s, rest) := by
  induction s with
  | nil => rfl
  | cons c s ih => rw [List.flatMap_cons, List.append_assoc, stringBody_escapeChar, ih, ok_map]

theorem stringText_append (s : String) (rest : List Char) :
    stringText s ++ rest = '\x22' :: (s.toList.flatMap escapeChar ++ '\x22' :: rest) := by
  simp [stringText]

theorem readString_flatMap (s : String) (rest : List Char) :
    readString .kept (s.toList.flatMap escapeChar ++ '\x22' :: rest) = .ok (s, rest) := by
  rw [readString, stringBody_flatMap, ok_map, String.ofList_toList]

theorem readText_stringText (s : String) (rest : List Char) :
    readText (stringText s ++ rest) = .ok (s, rest) := by
  rw [stringText_append, readText, skipSpace_cons rfl]
  exact readString_flatMap s rest

theorem readName_stringText (s : String) (rest : List Char) :
    readName .kept (stringText s ++ rest) = .ok (s, rest) := by
  rw [stringText_append, readName, skipSpace_cons rfl]
  exact readString_flatMap s rest

/-! ## Numbers -/

/-- Nothing that would go on with a number. -/
def Stops (rest : List Char) : Prop :=
  ∀ c ∈ rest.head?, isDigit c = false ∧ c ≠ '.' ∧ c ≠ 'e' ∧ c ≠ 'E'

theorem stops_cons (h : c = ',' ∨ c = ']' ∨ c = '\x7d') : Stops (c :: cs) := by
  intro d hd
  obtain rfl := Option.mem_some.mp hd
  rcases h with rfl | rfl | rfl
  · decide
  · decide
  · decide

theorem takeWhile_isDigit (h : Stops rest) : rest.takeWhile isDigit = [] := by
  cases rest with
  | nil => rfl
  | cons c cs => rw [List.takeWhile_cons_of_neg (by simp [(h c rfl).1])]

theorem isDigit_of_mem {n : Nat} (h : c ∈ Text.decimalDigits n) : isDigit c = true :=
  Nat.isDigit_of_mem_toDigits (by decide) (by decide) h

theorem ofDecimalDigits_decimalDigits (n : Nat) :
    Text.ofDecimalDigits (Text.decimalDigits n) = n := by
  have h := Nat.ofDigitChars_ten_toDigits (n := n)
  rw [Nat.ofDigitChars_eq_foldl] at h
  simp only [Text.ofDecimalDigits, Nat.mul_comm _ 10]
  exact h

/-- Only zero begins with a zero. -/
theorem head?_decimalDigits {n : Nat} (h : n ≠ 0) : (Text.decimalDigits n).head? ≠ some '0' := by
  induction n using Nat.strong_induction_on with
  | _ n ih =>
    rw [Text.decimalDigits, Nat.toDigits_eq_if (by decide)]
    split
    · next hn =>
      have hdigit : ∀ m < 10, m ≠ 0 → m.digitChar ≠ '0' := by decide
      simpa using hdigit n hn h
    · next hn =>
      obtain ⟨c, cs, hcs⟩ := List.exists_cons_of_ne_nil
        (Nat.toDigits_ne_nil (n := n / 10) (b := 10))
      have hrec := ih (n / 10) (by omega) (by omega)
      rw [Text.decimalDigits, hcs] at hrec
      rw [hcs]
      exact hrec

/-- The digits of a number are taken as a whole. -/
theorem wholeDigits_decimalDigits (n : Nat) (h : Stops rest) :
    wholeDigits .kept (Text.decimalDigits n ++ rest) = .ok (Text.decimalDigits n, rest) := by
  by_cases hn : n = 0
  · subst hn
    have hhead : rest.head?.any isDigit = false := by
      cases rest with
      | nil => rfl
      | cons c cs => exact (h c rfl).1
    rw [show Text.decimalDigits 0 = ['0'] from rfl, List.singleton_append, wholeDigits, hhead]
    rfl
  · have hne : Text.decimalDigits n ≠ [] := Nat.toDigits_ne_nil
    have htake : (Text.decimalDigits n ++ rest).takeWhile isDigit = Text.decimalDigits n := by
      rw [List.takeWhile_append_of_pos fun c hc ↦ isDigit_of_mem hc, takeWhile_isDigit h,
        List.append_nil]
    rw [wholeDigits]
    · simp only [htake, if_neg hne, List.drop_left]
    · intro cs hcs
      obtain ⟨d, ds, hds⟩ := List.exists_cons_of_ne_nil hne
      rw [hds] at hcs
      obtain ⟨rfl, -⟩ := List.cons.inj hcs
      exact head?_decimalDigits hn (by rw [hds, List.head?_cons])

theorem fractionDigits_of_stops (h : Stops rest) :
    fractionDigits .kept rest = .ok (none, rest) := by
  rw [fractionDigits]
  intro cs hcs
  subst hcs
  exact (h '.' rfl).2.1 rfl

theorem exponent_of_stops (h : Stops rest) : exponent .kept rest = .ok (none, rest) := by
  cases rest with
  | nil => rfl
  | cons c cs =>
    have hc := h c rfl
    simp only [exponent, if_neg (not_or.mpr hc.2.2)]

theorem numberOfParts_nat {n : Nat} (h : n < UInt64.size) :
    numberOfParts false (Text.decimalDigits n) none none = some (.integer n) := by
  simp [numberOfParts, ofDecimalDigits_decimalDigits, h]

theorem numberOfParts_neg {n : Nat} (hn : n ≠ 0) (h : n ≤ UInt64.size / 2) :
    numberOfParts true (Text.decimalDigits n) none none = some (.integer (-n)) := by
  simp [numberOfParts, ofDecimalDigits_decimalDigits, hn, h]

/-- The integers of at most 64 bits, signed or not. -/
def Fits64 (n : Int) : Prop := -(UInt64.size / 2 : Nat) ≤ n ∧ n < UInt64.size

/-- What a written integer begins with. -/
def startsNumber (c : Char) : Bool := c == '-' || isDigit c

theorem isSpace_of_startsNumber (h : startsNumber c = true) : isSpace c = false := by
  cases hspace : isSpace c with
  | false => rfl
  | true =>
    have hblank : ((c = ' ' ∨ c = '\t') ∨ c = '\n') ∨ c = '\r' := by simpa [isSpace] using hspace
    rcases hblank with ((rfl | rfl) | rfl) | rfl <;> cases h

theorem exists_decimalDigits (n : Nat) :
    ∃ c cs, Text.decimalDigits n = c :: cs ∧ isDigit c = true := by
  obtain ⟨c, cs, hcs⟩ := List.exists_cons_of_ne_nil (Nat.toDigits_ne_nil (n := n) (b := 10))
  have hmem : c ∈ Text.decimalDigits n := by
    rw [Text.decimalDigits, hcs]
    exact List.mem_cons_self
  exact ⟨c, cs, hcs, isDigit_of_mem hmem⟩

theorem exists_integerText (n : Int) : ∃ c cs, integerText n = c :: cs ∧ startsNumber c = true := by
  by_cases hneg : n < 0
  · rw [integerText, if_pos hneg]
    exact ⟨'-', _, rfl, rfl⟩
  · obtain ⟨c, cs, hcs, hc⟩ := exists_decimalDigits n.natAbs
    rw [integerText, if_neg hneg, hcs]
    exact ⟨c, cs, rfl, by rw [startsNumber, hc, Bool.or_true]⟩

/-- A written integer is read as this integer, if nothing goes on with it. -/
theorem readNumber_integerText {n : Int} (hn : Fits64 n) (h : Stops rest) :
    readNumber .kept (integerText n ++ rest) = .ok (.integer n, rest) := by
  obtain ⟨hlow, hhigh⟩ := hn
  by_cases hneg : n < 0
  · have hnat : n.natAbs ≠ 0 ∧ n.natAbs ≤ UInt64.size / 2 := by omega
    rw [integerText, if_pos hneg, List.singleton_append, List.cons_append, readNumber.eq_1]
    simp only [wholeDigits_decimalDigits _ h, fractionDigits_of_stops h, exponent_of_stops h,
      ok_bind, numberOfParts_neg hnat.1 hnat.2, Int.ofNat_natAbs_of_nonpos hneg.le, Int.neg_neg]
    rfl
  · have hnat : n.natAbs < UInt64.size := by omega
    rw [integerText, if_neg hneg, List.nil_append, readNumber.eq_2]
    · simp only [wholeDigits_decimalDigits _ h, fractionDigits_of_stops h, exponent_of_stops h,
        ok_bind, numberOfParts_nat hnat, Int.natAbs_of_nonneg (not_lt.mp hneg)]
      rfl
    · intro cs hcs
      obtain ⟨d, ds, hds, hd⟩ := exists_decimalDigits n.natAbs
      rw [hds] at hcs
      obtain ⟨rfl, -⟩ := List.cons.inj hcs
      cases hd

/-! ## Values -/

theorem readScalar_number (m : Manner) (hc : startsNumber c = true) :
    readScalar m (c :: cs) = (readNumber m (c :: cs)).map fun r ↦ (.number r.1, r.2) := by
  have hnumber : c = '-' ∨ isDigit c = true := by simpa [startsNumber] using hc
  rw [readScalar, if_pos hnumber]
  all_goals
    rintro rfl
    cases hc

mutual
/-- Whether a value is one that the reader takes at a depth: it nests no deeper, and its numbers are
integers of at most 64 bits. -/
def Fits : (depth : Nat) → Json → Prop
  | _, .null => True
  | _, .boolean _ => True
  | _, .number (.integer n) => Fits64 n
  | _, .number (.real _) => False
  | _, .string _ => True
  | 0, .array _ => False
  | depth + 1, .array items => FitItems depth items
  | 0, .object _ => False
  | depth + 1, .object members => FitMembers depth members

/-- `Fits` for every item. -/
def FitItems : (depth : Nat) → List Json → Prop
  | _, [] => True
  | depth, item :: items => Fits depth item ∧ FitItems depth items

/-- `Fits` for the value of every member. -/
def FitMembers : (depth : Nat) → List (String × Json) → Prop
  | _, [] => True
  | depth, (_, value) :: members => Fits depth value ∧ FitMembers depth members
end

/-- A written value begins with neither a space nor the end of an array. -/
theorem exists_render {depth : Nat} {v : Json} (h : v.Fits depth) :
    ∃ c cs, v.render = c :: cs ∧ isSpace c = false ∧ c ≠ ']' := by
  cases v with
  | null => exact ⟨'n', _, rfl, rfl, by decide⟩
  | boolean b =>
    cases b with
    | false => exact ⟨'f', _, rfl, rfl, by decide⟩
    | true => exact ⟨'t', _, rfl, rfl, by decide⟩
  | number n =>
    cases n with
    | real x => simp [Fits] at h
    | integer n =>
      obtain ⟨c, cs, hcs, hc⟩ := exists_integerText n
      refine ⟨c, cs, by rw [render, Number.render, hcs], isSpace_of_startsNumber hc, ?_⟩
      rintro rfl
      cases hc
  | string s => exact ⟨'\x22', _, rfl, rfl, by decide⟩
  | array items => exact ⟨'[', _, rfl, rfl, by decide⟩
  | object members => exact ⟨'\x7b', _, rfl, rfl, by decide⟩

theorem exists_renderItems {depth : Nat} {item : Json} (items : List Json)
    (h : item.Fits depth) : ∃ c cs, renderItems (item :: items) = c :: cs ∧
      isSpace c = false ∧ c ≠ ']' := by
  obtain ⟨c, cs, hcs, hspace, hc⟩ := exists_render h
  cases items with
  | nil => exact ⟨c, cs, by rw [renderItems, hcs], hspace, hc⟩
  | cons next items => exact ⟨c, _, by rw [renderItems, hcs, List.cons_append], hspace, hc⟩

theorem exists_renderMembers (m : String × Json) (members : List (String × Json)) :
    ∃ cs, renderMembers (m :: members) = '\x22' :: cs := by
  cases members with
  | nil => exact ⟨_, rfl⟩
  | cons next members => exact ⟨_, rfl⟩

/-- The last member, and what is behind it. -/
theorem renderMembers_singleton (name : String) (value : Json) (rest : List Char) :
    renderMembers [(name, value)] ++ rest = stringText name ++ ':' :: (value.render ++ rest) := by
  rw [renderMembers, List.append_assoc, List.cons_append]

/-- A member in front of others. -/
theorem renderMembers_cons (name : String) (value : Json) (next : String × Json)
    (members : List (String × Json)) (rest : List Char) :
    renderMembers ((name, value) :: next :: members) ++ rest = stringText name ++
      ':' :: (value.render ++ ',' :: (renderMembers (next :: members) ++ rest)) := by
  rw [renderMembers, List.append_assoc, List.append_assoc, List.cons_append, List.cons_append]

/-- Every item takes a character and every comma another one. -/
theorem length_renderItems {depth : Nat} {items : List Json} (h : FitItems depth items) :
    items.length ≤ (renderItems items).length + 1 := by
  induction items with
  | nil => simp
  | cons item items ih =>
    obtain ⟨c, cs, hcs, -⟩ := exists_render h.1
    cases items with
    | nil => simp
    | cons next items =>
      have hrest := ih h.2
      rw [renderItems, hcs]
      simp only [List.length_cons, List.length_append] at hrest ⊢
      omega

theorem length_renderMembers (members : List (String × Json)) :
    members.length ≤ (renderMembers members).length + 1 := by
  induction members with
  | nil => simp
  | cons m members ih =>
    cases members with
    | nil => simp
    | cons next members =>
      rw [renderMembers]
      simp only [List.length_cons, List.length_append] at ih ⊢
      omega

/-- Every member takes a character of the text. -/
theorem length_members_le {m : String × Json} {members : List (String × Json)}
    (h : renderMembers (m :: members) = '\x22' :: cs) (rest : List Char) :
    (m :: members).length ≤ (cs ++ '\x7d' :: rest).length + 2 := by
  have hlength := length_renderMembers (m :: members)
  rw [h] at hlength
  simp only [List.length_cons, List.length_append] at hlength ⊢
  omega

theorem readValue_scalar (m : Manner) (depth : Nat) (hspace : isSpace c = false) (harray : c ≠ '[')
    (hobject : c ≠ '\x7b') : readValue m depth (c :: cs) = readScalar m (c :: cs) := by
  cases depth with
  | zero =>
    rw [readValue, skipSpace_cons hspace]
    split
    · next h => exact absurd (List.cons.inj h).1 harray
    · next h => exact absurd (List.cons.inj h).1 hobject
    · rfl
  | succ depth =>
    rw [readValue, skipSpace_cons hspace]
    split
    · next h => exact absurd (List.cons.inj h).1 harray
    · next h => exact absurd (List.cons.inj h).1 hobject
    · rfl

theorem readValue_number (m : Manner) (depth : Nat) (hc : startsNumber c = true) :
    readValue m depth (c :: cs) = (readNumber m (c :: cs)).map fun r ↦ (.number r.1, r.2) := by
  have harray : c ≠ '[' := by
    rintro rfl
    cases hc
  have hobject : c ≠ '\x7b' := by
    rintro rfl
    cases hc
  rw [readValue_scalar m depth (isSpace_of_startsNumber hc) harray hobject, readScalar_number m hc]

/-- Spaces in front of a value do not matter. -/
theorem readValue_skipSpace (m : Manner) (depth : Nat) (cs : List Char) :
    readValue m depth (skipSpace cs) = readValue m depth cs := by
  have hskip : skipSpace (skipSpace cs) = skipSpace cs := List.dropWhile_idempotent _ _
  cases depth with
  | zero => rw [readValue, readValue, hskip]
  | succ depth => rw [readValue, readValue, hskip]

/-- An array with something in it. -/
theorem readValue_items (m : Manner) (depth : Nat) (hspace : isSpace c = false) (hc : c ≠ ']') :
    readValue m (depth + 1) ('[' :: c :: cs) =
      (readItems (readValue m depth) (cs.length + 2) (c :: cs)).map fun r ↦ (.array r.1, r.2) := by
  rw [readValue, skipSpace_cons rfl]
  simp only [skipSpace_cons hspace]
  split
  · next h => exact absurd (List.cons.inj h).1 hc
  · rfl

/-- An object with something in it. -/
theorem readValue_members (m : Manner) (depth : Nat) :
    readValue m (depth + 1) ('\x7b' :: '\x22' :: cs) =
      (readMembers m (readValue m depth) (cs.length + 2) ('\x22' :: cs)).map fun r ↦
        (.object r.1, r.2) := by
  rw [readValue, skipSpace_cons rfl]
  simp only [skipSpace_quote]
  rfl

mutual
/-- A written value is read as this value, if nothing goes on with it. -/
theorem readValue_render : ∀ {depth : Nat} (v : Json), v.Fits depth → ∀ {rest : List Char},
    Stops rest → readValue .kept depth (v.render ++ rest) = .ok (v, rest)
  | _, .null, _, _, _ => readValue_scalar .kept _ rfl (by decide) (by decide)
  | _, .boolean true, _, _, _ => readValue_scalar .kept _ rfl (by decide) (by decide)
  | _, .boolean false, _, _, _ => readValue_scalar .kept _ rfl (by decide) (by decide)
  | depth, .number (.integer n), h, rest, hrest => by
    obtain ⟨c, cs, hcs, hc⟩ := exists_integerText n
    have hread := readNumber_integerText (n := n) (by simpa [Fits] using h) hrest
    rw [render, Number.render]
    rw [hcs, List.cons_append] at hread ⊢
    rw [readValue_number .kept depth hc, hread, ok_map]
  | depth, .string s, _, rest, _ => by
    rw [render, stringText_append, readValue_scalar .kept depth rfl (by decide) (by decide),
      readScalar, readString_flatMap, ok_map]
  | depth + 1, .array [], _, rest, _ => rfl
  | depth + 1, .array (item :: items), h, rest, _ => by
    have hfit : FitItems depth (item :: items) := by simpa [Fits] using h
    obtain ⟨c, cs, hcs, hspace, hc⟩ := exists_renderItems items hfit.1
    have hfuel : (item :: items).length ≤ (cs ++ ']' :: rest).length + 2 := by
      have hlength := length_renderItems hfit
      rw [hcs] at hlength
      simp only [List.length_cons, List.length_append] at hlength ⊢
      omega
    have hread : readItems (readValue .kept depth) ((cs ++ ']' :: rest).length + 2)
        (renderItems (item :: items) ++ ']' :: rest) = .ok (item :: items, rest) :=
      readItems_render (item :: items) (List.cons_ne_nil _ _) hfit hfuel
    rw [hcs, List.cons_append] at hread
    rw [render, hcs]
    simp only [List.cons_append, List.append_assoc, List.nil_append]
    rw [readValue_items .kept depth hspace hc, hread, ok_map]
  | depth + 1, .object [], _, rest, _ => rfl
  | depth + 1, .object (m :: members), h, rest, _ => by
    have hfit : FitMembers depth (m :: members) := by simpa [Fits] using h
    obtain ⟨cs, hcs⟩ := exists_renderMembers m members
    have hread : readMembers .kept (readValue .kept depth) ((cs ++ '\x7d' :: rest).length + 2)
        (renderMembers (m :: members) ++ '\x7d' :: rest) = .ok (m :: members, rest) :=
      readMembers_render (m :: members) (List.cons_ne_nil _ _) hfit (length_members_le hcs rest)
    rw [hcs, List.cons_append] at hread
    rw [render, hcs]
    simp only [List.cons_append, List.append_assoc, List.nil_append]
    rw [readValue_members, hread, ok_map]

theorem readItems_render : ∀ {depth fuel : Nat} (items : List Json), items ≠ [] →
    FitItems depth items → items.length ≤ fuel → ∀ {rest : List Char},
      readItems (readValue .kept depth) fuel (renderItems items ++ ']' :: rest) = .ok (items, rest)
  | _, 0, _, hne, _, hfuel, _ =>
    absurd (List.length_eq_zero_iff.mp (Nat.le_zero.mp hfuel)) hne
  | depth, fuel + 1, [item], _, h, _, rest => by
    rw [renderItems, readItems, readValue_render item h.1 (stops_cons (.inr (.inl rfl))), ok_bind]
    rfl
  | depth, fuel + 1, item :: next :: items, _, h, hfuel, rest => by
    have hrest : readItems (readValue .kept depth) fuel
        (renderItems (next :: items) ++ ']' :: rest) = .ok (next :: items, rest) :=
      readItems_render (next :: items) (List.cons_ne_nil _ _) h.2 (Nat.le_of_succ_le_succ hfuel)
    rw [renderItems, List.append_assoc, List.cons_append, readItems,
      readValue_render item h.1 (stops_cons (.inl rfl)), ok_bind]
    simp only [skipSpace_comma, hrest, ok_bind]
    rfl

theorem readMembers_render : ∀ {depth fuel : Nat} (members : List (String × Json)), members ≠ [] →
    FitMembers depth members → members.length ≤ fuel → ∀ {rest : List Char},
      readMembers .kept (readValue .kept depth) fuel (renderMembers members ++ '\x7d' :: rest) =
        .ok (members, rest)
  | _, 0, _, hne, _, hfuel, _ =>
    absurd (List.length_eq_zero_iff.mp (Nat.le_zero.mp hfuel)) hne
  | depth, fuel + 1, [(name, value)], _, h, _, rest => by
    rw [renderMembers_singleton, readMembers, readName_stringText, ok_bind]
    simp only [readColon_cons, ok_bind]
    rw [readValue_render value h.1 (stops_cons (.inr (.inr rfl))), ok_bind]
    rfl
  | depth, fuel + 1, (name, value) :: next :: members, _, h, hfuel, rest => by
    have hrest : readMembers .kept (readValue .kept depth) fuel
        (renderMembers (next :: members) ++ '\x7d' :: rest) = .ok (next :: members, rest) :=
      readMembers_render (next :: members) (List.cons_ne_nil _ _) h.2
        (Nat.le_of_succ_le_succ hfuel)
    rw [renderMembers_cons, readMembers, readName_stringText, ok_bind]
    simp only [readColon_cons, ok_bind]
    rw [readValue_render value h.1 (stops_cons (.inl rfl)), ok_bind]
    simp only [skipSpace_comma, hrest, ok_bind]
    rfl
end

end TableSink.Json
