import TableSink.Proofs.Ingest.Lines
import TableSink.Proofs.Json.RoundTrip

/-!
# Lines hold what was written

Nothing but line feeds is between the records of a file. A written value has no character below the
space (`Json.le_of_mem_render`), and so no byte below it either. That is all that it takes: the
bytes of a file come apart into the lines that went in, however they are split, none of them loses a
carriage return at its end, and each is read back as its record (`Line.ofInput_of_bytes`).
-/

namespace TableSink

/-! ## What is written has no control characters -/

namespace Json

theorem le_of_isDigit {c : Char} (h : isDigit c = true) : 0x20 ≤ c.toNat := by
  simp only [isDigit, Bool.and_eq_true, decide_eq_true_eq, Char.le_def, UInt32.le_iff_toNat_le] at h
  exact Nat.le_trans (by decide) h.1

theorem le_of_mem_decimalDigits (n : Nat) : ∀ c ∈ Text.decimalDigits n, 0x20 ≤ c.toNat :=
  fun _ hc ↦ le_of_isDigit (isDigit_of_mem hc)

theorem le_of_mem_integerText (n : Int) : ∀ c ∈ integerText n, 0x20 ≤ c.toNat := by
  rw [integerText]
  refine List.forall_mem_append.mpr ⟨?_, le_of_mem_decimalDigits _⟩
  split
  · simp
  · simp

theorem le_of_mem_plainText {digits : List Char} (h : ∀ c ∈ digits, 0x20 ≤ c.toNat) (k : Int) :
    ∀ c ∈ plainText digits k, 0x20 ≤ c.toNat := by
  have hzeros : ∀ n, ∀ c ∈ List.replicate n '0', 0x20 ≤ c.toNat := by
    intro n c hc
    rw [List.eq_of_mem_replicate hc]
    decide
  simp only [plainText]
  split_ifs
  · exact List.forall_mem_append.mpr ⟨List.forall_mem_append.mpr ⟨h, hzeros _⟩, by simp⟩
  · refine List.forall_mem_append.mpr ⟨fun c hc ↦ h c (List.mem_of_mem_take hc), ?_⟩
    exact List.forall_mem_cons.mpr ⟨by decide, fun c hc ↦ h c (List.mem_of_mem_drop hc)⟩
  · exact List.forall_mem_append.mpr ⟨List.forall_mem_append.mpr ⟨by simp, hzeros _⟩, h⟩

theorem le_of_mem_exponentText {plus digits : List Char} (hplus : ∀ c ∈ plus, 0x20 ≤ c.toNat)
    (h : ∀ c ∈ digits, 0x20 ≤ c.toNat) (k : Int) :
    ∀ c ∈ exponentText plus digits k, 0x20 ≤ c.toNat := by
  have hsign : ∀ p : Int, ∀ c ∈ (if p < 0 then ['-'] else plus), 0x20 ≤ c.toNat := by
    intro p
    split
    · simp
    · exact hplus
  simp only [exponentText]
  refine List.forall_mem_append.mpr ⟨List.forall_mem_append.mpr ⟨?_, ?_⟩,
    le_of_mem_decimalDigits _⟩
  · split
    · exact h
    · exact h
    · obtain ⟨hd, hds⟩ := List.forall_mem_cons.mp h
      exact List.forall_mem_cons.mpr ⟨hd, List.forall_mem_cons.mpr ⟨by decide, hds⟩⟩
  · exact List.forall_mem_cons.mpr ⟨by decide, hsign _⟩

theorem le_of_mem_realText (x : Binary64) : ∀ c ∈ realText x, 0x20 ≤ c.toNat := by
  have hsign : ∀ c ∈ (if x.negative then ['-'] else []), 0x20 ≤ c.toNat := by
    split
    · simp
    · simp
  simp only [realText]
  generalize (if x.negative then ['-'] else []) = sign at hsign ⊢
  split_ifs
  · exact List.forall_mem_append.mpr ⟨hsign, by simp⟩
  · exact List.forall_mem_append.mpr ⟨hsign, le_of_mem_plainText (le_of_mem_decimalDigits _) _⟩
  · exact List.forall_mem_append.mpr
      ⟨hsign, le_of_mem_exponentText (by simp [numberFormat]) (le_of_mem_decimalDigits _) _⟩

theorem le_lowerHexDigit : ∀ n < 0x20, 0x20 ≤ (lowerHexDigit n).toNat := by
  decide

theorem le_of_mem_escapeChar (c : Char) : ∀ d ∈ escapeChar c, 0x20 ≤ d.toNat := by
  rw [escapeChar]
  split_ifs with hquote hslash hc
  · simp
  · simp
  · simpa using hc
  · split
    · simp
    · simp
    · simp
    · simp
    · simp
    · have hhigh := le_lowerHexDigit (c.toNat / 16) (by omega)
      have hlow := le_lowerHexDigit (c.toNat % 16) (by omega)
      simp [hhigh, hlow]

theorem le_of_mem_stringText (s : String) : ∀ c ∈ stringText s, 0x20 ≤ c.toNat := by
  rw [stringText]
  intro c hc
  simp only [List.cons_append, List.mem_cons, List.mem_append, List.mem_flatMap,
    List.not_mem_nil, or_false] at hc
  rcases hc with rfl | ⟨d, -, hc⟩ | rfl
  · decide
  · exact le_of_mem_escapeChar d c hc
  · decide

mutual
/-- No character of a written value is below the space, whatever is in its strings. -/
theorem le_of_mem_render : ∀ (v : Json), ∀ c ∈ v.render, 0x20 ≤ c.toNat
  | .null => by simp [render]
  | .boolean true => by simp [render]
  | .boolean false => by simp [render]
  | .number (.integer n) => le_of_mem_integerText n
  | .number (.real x) => le_of_mem_realText x
  | .string s => le_of_mem_stringText s
  | .array items => by
    rw [render]
    exact List.forall_mem_append.mpr
      ⟨List.forall_mem_cons.mpr ⟨by decide, le_of_mem_renderItems items⟩, by simp⟩
  | .object members => by
    rw [render]
    exact List.forall_mem_append.mpr
      ⟨List.forall_mem_cons.mpr ⟨by decide, le_of_mem_renderMembers members⟩, by simp⟩

theorem le_of_mem_renderItems : ∀ (items : List Json), ∀ c ∈ renderItems items, 0x20 ≤ c.toNat
  | [] => by simp [renderItems]
  | [item] => by
    rw [renderItems]
    exact le_of_mem_render item
  | item :: next :: items => by
    rw [renderItems]
    exact List.forall_mem_append.mpr ⟨le_of_mem_render item,
      List.forall_mem_cons.mpr ⟨by decide, le_of_mem_renderItems (next :: items)⟩⟩

theorem le_of_mem_renderMembers : ∀ (members : List (String × Json)),
    ∀ c ∈ renderMembers members, 0x20 ≤ c.toNat
  | [] => by simp [renderMembers]
  | [(name, value)] => by
    rw [renderMembers]
    exact List.forall_mem_append.mpr ⟨le_of_mem_stringText name,
      List.forall_mem_cons.mpr ⟨by decide, le_of_mem_render value⟩⟩
  | (name, value) :: next :: members => by
    rw [renderMembers]
    refine List.forall_mem_append.mpr ⟨List.forall_mem_append.mpr ⟨le_of_mem_stringText name,
      List.forall_mem_cons.mpr ⟨by decide, le_of_mem_render value⟩⟩, ?_⟩
    exact List.forall_mem_cons.mpr ⟨by decide, le_of_mem_renderMembers (next :: members)⟩
end

theorem isBlank_of_startsNumber {c : Char} (h : startsNumber c = true) :
    Text.isBlank c = false := by
  have hcode : c.toNat = 0x2d ∨ 0x30 ≤ c.toNat ∧ c.toNat ≤ 0x39 := by
    simp only [startsNumber, isDigit, Bool.or_eq_true, beq_iff_eq, Bool.and_eq_true,
      decide_eq_true_eq, Char.le_def, UInt32.le_iff_toNat_le] at h
    rcases h with rfl | h
    · exact .inl rfl
    · exact .inr h
  simp only [Text.isBlank, Text.blankRanges, List.any_cons, List.any_nil, Bool.or_false,
    Bool.or_eq_false_iff, Bool.and_eq_false_iff, decide_eq_false_iff_not]
  omega

/-- The first character of a written value shows. -/
theorem exists_isBlank_eq_false {depth : Nat} {v : Json} (h : v.Fits depth) :
    ∃ c ∈ v.render, Text.isBlank c = false := by
  cases v with
  | null => exact ⟨'n', by decide, by decide⟩
  | boolean b =>
    cases b with
    | false => exact ⟨'f', by decide, by decide⟩
    | true => exact ⟨'t', by decide, by decide⟩
  | number n =>
    cases n with
    | real x => simp [Fits] at h
    | integer n =>
      obtain ⟨c, cs, hcs, hc⟩ := exists_integerText n
      refine ⟨c, ?_, isBlank_of_startsNumber hc⟩
      rw [render, Number.render, hcs]
      exact List.mem_cons_self
  | string s => exact ⟨'\x22', List.mem_cons_self, by decide⟩
  | array items => exact ⟨'[', List.mem_cons_self, by decide⟩
  | object members => exact ⟨'\x7b', List.mem_cons_self, by decide⟩

theorem allBlank_text {depth : Nat} {v : Json} (h : v.Fits depth) :
    Text.allBlank v.text = false := by
  obtain ⟨c, hc, hblank⟩ := exists_isBlank_eq_false h
  rw [Text.allBlank, text, String.toList_ofList, List.all_eq_false]
  exact ⟨c, hc, by simp [hblank]⟩

/-- The text of a value is read as this value, with the members of its objects sorted. -/
theorem parse_text {v : Json} (h : v.Fits depthLimit) : parse v.text = .ok v.canonical := by
  have hread : readValue .kept depthLimit (v.render ++ []) = .ok (v, []) :=
    readValue_render v h (fun _ hc ↦ nomatch hc)
  rw [List.append_nil] at hread
  rw [parse, readAll, text, String.toList_ofList, hread]
  rfl

end Json

/-! ## Bytes -/

namespace Text

/-- No byte of a character is below the space if the character is not. -/
theorem le_of_mem_utf8EncodeChar {c : Char} (hc : 0x20 ≤ c.toNat) :
    ∀ b ∈ String.utf8EncodeChar c, 0x20 ≤ b.toNat := by
  have hcode : 0x20 ≤ c.val.toNat := hc
  rw [String.utf8EncodeChar]
  split_ifs
  all_goals
    simp only [List.forall_mem_cons, UInt8.toNat_ofNat', List.not_mem_nil, false_imp_iff,
      implies_true, and_true]
    omega

/-- The bytes of a text are those of its characters. -/
theorem bytes_toUTF8 (s : String) :
    s.toUTF8.data.toList = s.toList.flatMap String.utf8EncodeChar := by
  have hbytes : s.toUTF8 = s.toList.utf8Encode := String.utf8Encode_toList.symm
  rw [hbytes, List.utf8Encode, List.data_toByteArray]

/-- Lines that were ended by line feeds are found again. -/
theorem linesFrom_flatMap {lines : List (List UInt8)}
    (h : ∀ line ∈ lines, ∀ b ∈ line, b ≠ lineFeed ∧ b ≠ carriageReturn) :
    linesFrom [] (lines.flatMap (· ++ [lineFeed])) = lines := by
  induction lines with
  | nil => rfl
  | cons line lines ih =>
    obtain ⟨hline, hlines⟩ := List.forall_mem_cons.mp h
    rw [List.flatMap_cons, List.append_assoc, List.singleton_append,
      linesFrom_append fun hmem ↦ (hline _ hmem).1 rfl, ih hlines, List.reverse_nil,
      List.nil_append, dropReturn_of_ne fun hlast ↦ (hline _ (List.mem_of_getLast? hlast)).2 rfl]

/-- There are as many line feeds as lines. -/
theorem count_flatMap {lines : List (List UInt8)} (h : ∀ line ∈ lines, lineFeed ∉ line) :
    (lines.flatMap (· ++ [lineFeed])).count lineFeed = lines.length := by
  induction lines with
  | nil => rfl
  | cons line lines ih =>
    obtain ⟨hline, hlines⟩ := List.forall_mem_cons.mp h
    rw [List.flatMap_cons, List.count_append, List.count_append, ih hlines,
      List.count_eq_zero_of_not_mem hline, List.count_singleton_self, List.length_cons]
    omega

/-- Split at line feeds, lines that were ended by them are followed by an empty rest. -/
theorem splitOn_flatMap {lines : List (List UInt8)} (h : ∀ line ∈ lines, lineFeed ∉ line) :
    (lines.flatMap (· ++ [lineFeed])).splitOn lineFeed = lines ++ [[]] := by
  induction lines with
  | nil => rfl
  | cons line lines ih =>
    obtain ⟨hline, hlines⟩ := List.forall_mem_cons.mp h
    rw [List.flatMap_cons, List.append_assoc, List.singleton_append,
      List.splitOn_append_cons_self_of_not_mem hline, ih hlines, List.cons_append]

end Text

/-! ## Files of lines -/

/-- The bytes of a value on its line, without the end of the line. -/
def Json.lineBytes (v : Json) : List UInt8 := v.text.toUTF8.data.toList

/-- Neither end of a line is among the bytes of a value. -/
theorem Json.ne_of_mem_lineBytes (v : Json) :
    ∀ b ∈ v.lineBytes, b ≠ Text.lineFeed ∧ b ≠ Text.carriageReturn := by
  intro b hb
  rw [lineBytes, Text.bytes_toUTF8, text, String.toList_ofList] at hb
  obtain ⟨c, hc, hb⟩ := List.mem_flatMap.mp hb
  have hle := Text.le_of_mem_utf8EncodeChar (v.le_of_mem_render c hc) b hb
  constructor
  · rintro rfl
    exact absurd hle (by decide)
  · rintro rfl
    exact absurd hle (by decide)

/-- The encoder ends the line. -/
theorem bytes_jsonLines (v : Json) (buffer : ByteArray) :
    (jsonLines v buffer).1.data.toList = v.lineBytes ++ [Text.lineFeed] := by
  have htext : (jsonLines v buffer).1 = (v.text ++ "\n").toUTF8 := rfl
  rw [htext, Text.bytes_toUTF8, String.toList_append, List.flatMap_append, ← Text.bytes_toUTF8]
  rfl

theorem Json.lineFeed_notMem (vs : List Json) :
    ∀ line ∈ vs.map Json.lineBytes, Text.lineFeed ∉ line :=
  List.forall_mem_map.mpr fun v _ hmem ↦ (v.ne_of_mem_lineBytes _ hmem).1 rfl

/-- A line with a value is read as its record. -/
theorem Line.ofBytes_lineBytes {v : Json} (h : v.Fits Json.depthLimit) :
    ofBytes ⟨v.lineBytes.toArray⟩ = .record v.canonical := by
  have hbytes : (⟨v.lineBytes.toArray⟩ : ByteArray) = v.text.toUTF8 := rfl
  rw [hbytes, ofBytes]
  simp only [Text.fromUTF8?_toUTF8, Json.allBlank_text h, Json.parse_text h]
  rfl

/-- An input that holds values, a line each, is read as their records. -/
theorem Line.ofInput_of_bytes {vs : List Json} (hvs : ∀ v ∈ vs, v.Fits Json.depthLimit)
    {bytes : ByteArray}
    (hbytes : bytes.data.toList = (vs.map Json.lineBytes).flatMap (· ++ [Text.lineFeed])) :
    ofInput bytes = vs.map fun v ↦ .record v.canonical := by
  have hlines : Text.linesFrom [] bytes.data.toList = vs.map Json.lineBytes := by
    rw [hbytes]
    exact Text.linesFrom_flatMap (List.forall_mem_map.mpr fun v _ ↦ v.ne_of_mem_lineBytes)
  rw [ofInput, Text.byteLines, hlines, List.map_map, List.map_map]
  exact List.map_congr_left fun v hv ↦ ofBytes_lineBytes (hvs v hv)

/-- Values whose objects have their members sorted already are read as they are. -/
theorem Line.map_record_canonical {vs : List Json} (hvs : ∀ v ∈ vs, v.canonical = v) :
    (vs.map fun v ↦ Line.record v.canonical) = vs.map .record :=
  List.map_congr_left fun v hv ↦ congrArg Line.record (hvs v hv)

namespace OpenFile

/-- Append records one after the other, up to the first that cannot be encoded. -/
def appendAll {ρ ε : Type} (encoder : Encoder ρ ε) (f : OpenFile) : List ρ → Except ε OpenFile
  | [] => .ok f
  | record :: records =>
    match f.append (encoder record f.buffer) with
    | (f, .ok ()) => f.appendAll encoder records
    | (_, .error e) => .error e

/-- Every value gets its line. -/
theorem appendAll_jsonLines (f : OpenFile) (vs : List Json) :
    ∃ file, f.appendAll jsonLines vs = .ok file ∧ file.records = f.records + vs.length ∧
      file.buffer.data.toList = f.buffer.data.toList ++
        (vs.map Json.lineBytes).flatMap (· ++ [Text.lineFeed]) := by
  induction vs generalizing f with
  | nil => exact ⟨f, rfl, rfl, by simp⟩
  | cons v vs ih =>
    obtain ⟨file, hfile, hrecords, hbytes⟩ := ih (f.append (jsonLines v f.buffer)).1
    refine ⟨file, hfile, ?_, ?_⟩
    · rw [hrecords, List.length_cons, Nat.add_comm vs.length, ← Nat.add_assoc]
      rfl
    · have hbuffer : (f.append (jsonLines v f.buffer)).1.buffer =
          f.buffer ++ (jsonLines v f.buffer).1 := rfl
      rw [hbytes, hbuffer, ByteArray.toList_data_append, bytes_jsonLines, List.map_cons,
        List.flatMap_cons, List.append_assoc]

end OpenFile

end TableSink
