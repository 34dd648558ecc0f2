/-!
# Names of runs

A run is named by a number of 128 bits: the time at which it began, and random bits that tell runs
of one moment apart. Names that begin later are greater as texts, too.
-/

namespace TableSink.RunName

/-- The hexadecimal digits of a number, exactly `count` of them. -/
def hexDigits (count n : Nat) : List Char :=
  (List.range count).reverse.map fun i ↦ Nat.digitChar ((n >>> (4 * i)) % 16)

/-- The name of a run that began at a time in milliseconds. The digits for the version of the layout
and for its variant are fixed, so 74 of the random bits count. -/
def ofParts (milliseconds random : Nat) : String :=
  let parts := [hexDigits 8 (milliseconds >>> 16), hexDigits 4 milliseconds,
    '7' :: hexDigits 3 random, hexDigits 4 (0x8000 + (random >>> 12) % 0x4000),
    hexDigits 12 (random >>> 26)]
  "-".intercalate (parts.map String.ofList)

example : ofParts 0x0123456789ab 0xfff = "01234567-89ab-7fff-8000-000000000000" := by decide +kernel

end TableSink.RunName
