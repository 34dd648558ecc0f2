import TableSink.Config.Setting

/-!
# Loading a configuration

A configuration text is filled in, read and checked, in this order. The first of these steps that
fails ends it.
-/

namespace TableSink.Config

/-- The valid configuration that a text holds. References to variables are filled in if their values
can be looked up, and stay as they are otherwise. -/
def load (lookup : Option (String → Option String)) (text : String) :
    Except ConfigError Config := do
  let text ← match lookup with
    | some lookup => (interpolate lookup text).mapError .unresolved
    | none => .ok text
  match ofYaml? text with
  | some config => config.validate
  | none => throw .malformed

/-- The valid configuration in a file with the given content. -/
def loadFile (lookup : Option (String → Option String)) (content : Except FileFault ByteArray) :
    Except ConfigError Config := do
  let bytes ← content.mapError .unreadable
  match String.fromUTF8? bytes with
  | some text => load lookup text
  | none => throw (.unreadable .invalidData)

end TableSink.Config
