import TableSink.Text.Unprintable

/-!
# Quoted texts

A text between quotes as it is shown to a reader: a few characters are escaped by a letter, all
others that do not show by the number of their code point.
-/

namespace TableSink.Text

/-- The letters for characters that are escaped by a letter. -/
def quoteLetters : List (Char × Char) :=
  [('\x00', '0'), ('\t', 't'), ('\r', 'r'), ('\n', 'n'), ('\x22', '\x22'), ('\\', '\\')]

/-- A character as it stands between quotes. -/
def quoteChar (c : Char) : List Char :=
  match quoteLetters.lookup c with
  | some letter => ['\\', letter]
  | none =>
    if isUnprintable c then "\\u\x7b".toList ++ Nat.toDigits 16 c.toNat ++ ['\x7d'] else [c]

/-- A text between quotes. -/
def quote (s : String) : String :=
  String.ofList ('\x22' :: s.toList.flatMap quoteChar ++ ['\x22'])

/-- Texts between quotes, in brackets. -/
def quoteList (texts : List String) : String :=
  "[" ++ ", ".intercalate (texts.map quote) ++ "]"

example : quote "a\u0301\"" = "\"a\\u\x7b301\x7d\\\"\"" := by decide +kernel

end TableSink.Text
