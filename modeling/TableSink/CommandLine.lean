import TableSink.Config.Load
import TableSink.Ingest
import TableSink.Text.Message
import TableSink.Text.Quoted

/-!
# The command line

What the arguments of a call ask for, and how that is done. Arguments are read from left to right,
and the first one that settles the matter does so: a question for help or for the version, or a
misuse.

Doing it is left open to the surroundings, as feeding inputs to a sink is.
-/

namespace TableSink

/-! ## Arguments -/

/-- What a call asks for. -/
inductive Job where
  /-- Only look whether the configuration in a file is valid. -/
  | check (config : String)
  /-- Write inputs to the table of the configuration in a file. -/
  | ingest (config : String) (inputs : List String)
deriving DecidableEq, Repr

/-- Why a call asks for no job. -/
inductive Refusal where
  /-- The call asks how to use the program. -/
  | help
  /-- The call asks for the version of the program. -/
  | version
  /-- The arguments are not understood. -/
  | misuse
deriving DecidableEq, Repr

/-- The exit code of a call that asks for no job. -/
def Refusal.exitCode : Refusal → UInt32
  | .help | .version => 0
  | .misuse => 2

/-- What the arguments of a call say. -/
structure Arguments where
  config : Option String := none
  dryRun : Bool := false
  /-- The inputs in order. -/
  inputs : List String := []
deriving DecidableEq, Repr

namespace Arguments

/-- The arguments with a configuration, which can be given once. -/
def setConfig (path : String) (a : Arguments) : Except Refusal Arguments :=
  if path = "" ∨ a.config.isSome then .error .misuse else .ok { a with config := some path }

/-- The arguments with one more input. -/
def addInput (path : String) (a : Arguments) : Except Refusal Arguments :=
  if path = "" then .error .misuse else .ok { a with inputs := a.inputs ++ [path] }

/-- The arguments with the option for a dry run, which can be given once. -/
def setDryRun (a : Arguments) : Except Refusal Arguments :=
  if a.dryRun then .error .misuse else .ok { a with dryRun := true }

/-- An option behind two dashes. The other result says whether its value is still to come. -/
def readLong (name : List Char) (a : Arguments) : Except Refusal (Arguments × Bool) :=
  match String.ofList (name.takeWhile (· ≠ '=')), name.dropWhile (· ≠ '=') with
  | "config", [] => .ok (a, true)
  | "config", _ :: value => (a.setConfig (String.ofList value)).map (·, false)
  | "dry-run", [] => a.setDryRun.map (·, false)
  | "help", [] => .error .help
  | "version", [] => .error .version
  | _, _ => .error .misuse

/-- Options behind one dash. The other result says whether a value is still to come. -/
def readShort (letters : List Char) (a : Arguments) : Except Refusal (Arguments × Bool) :=
  match letters with
  | ['c'] => .ok (a, true)
  | 'c' :: '=' :: value | 'c' :: value => (a.setConfig (String.ofList value)).map (·, false)
  | 'h' :: _ => .error .help
  | 'V' :: _ => .error .version
  | _ => .error .misuse

/-- Whether an argument is no value but an option, or the mark behind the last option. -/
def isOption (arg : String) : Bool := arg.toList.head? == some '-' && arg != "-"

/-- Read arguments. If a value is awaited, the first one has to be it. -/
def readFrom (awaited : Bool) : List String → Arguments → Except Refusal Arguments
  | [], a => if awaited then .error .misuse else .ok a
  | arg :: args, a =>
    if awaited then
      if isOption arg then .error .misuse else a.setConfig arg >>= readFrom false args
    else if arg = "--" then args.foldlM (fun a path ↦ a.addInput path) a
    else match arg.toList with
      | '-' :: '-' :: name => do
        let (a, awaited) ← a.readLong name
        readFrom awaited args a
      | '-' :: letter :: letters => do
        let (a, awaited) ← a.readShort (letter :: letters)
        readFrom awaited args a
      | _ => a.addInput arg >>= readFrom false args

/-- The variable that names the configuration when no argument does. -/
def configVariable : String := "SNOWDRIFT_CONFIG"

/-- What arguments ask for, given the value of that variable. Without a dry run there has to be an
input. -/
def job (preset : Option String) (args : List String) : Except Refusal Job := do
  let a ← readFrom false args {}
  let a ← match a.config, preset with
    | none, some path => a.setConfig path
    | _, _ => .ok a
  match a.config with
  | none => throw .misuse
  | some config =>
    if a.dryRun then return .check config
    else if a.inputs = [] then throw .misuse
    else return .ingest config a.inputs

end Arguments

/-! ## Messages -/

/-- The messages about a configuration that was found valid. -/
def Config.messages (c : Config) : List String :=
  ["Dry run mode - validating configuration",
    "Table: " ++ c.table,
    "Strategy: " ++ c.strategy.name,
    "Partition columns: " ++ Text.quoteList c.columns,
    "Attempt: " ++ c.attempt.name,
    "Configuration is valid"]

/-- The messages about a run that succeeded. -/
def SinkStats.messages (s : SinkStats) : List String :=
  ["Sink completed successfully",
    "  Records written: " ++ toString s.records,
    "  Batches committed: " ++ toString s.batches,
    "  Files committed: " ++ toString s.committed,
    "  Files discarded: " ++ toString s.discarded]

/-! ## Jobs -/

/-- Surroundings with variables and a reader of messages. One commit comes after the other. -/
structure Shell (m : Type → Type) extends Surroundings Task m where
  /-- The value of a variable. -/
  lookup : String → m (Option String)
  /-- Show a message as it is. -/
  announce : String → m Unit

/-- Show a text as a message. -/
def Shell.say {m : Type → Type} (shell : Shell m) (text : String) : m Unit :=
  shell.announce (Text.message text)

namespace Job

variable {m : Type → Type} [Monad m]

/-- The file that holds the configuration. -/
def config : Job → String
  | .check config | .ingest config _ => config

/-- Do a job with a configuration that was loaded. -/
def carryOutWith (shell : Shell m) (run : String) (config : Config) :
    Job → m (Except Panic (Except SinkError Unit))
  | .check _ => do
    config.messages.forM shell.say
    return .ok (.ok ())
  | .ingest _ inputs => do
    match ← shell.ingest config run inputs with
    | .ok (.ok stats) =>
      stats.messages.forM shell.say
      return .ok (.ok ())
    | .ok (.error e) => return .ok (.error e)
    | .error panic => return .error panic

/-- The variables that the text in a file refers to. -/
def references (content : Except FileFault ByteArray) : List String :=
  ((content.toOption.bind String.fromUTF8?).map Template.names).getD []

/-- Do a job. -/
def carryOut (shell : Shell m) (run : String) (job : Job) :
    m (Except Panic (Except SinkError Unit)) := do
  shell.say "snowdrift starting"
  let content ← shell.fileContent job.config
  let values ← (references content).mapM fun name ↦ return (name, ← shell.lookup name)
  match Config.loadFile (some fun name ↦ (values.lookup name).join) content with
  | .error e => return .ok (.error (.config e))
  | .ok config => job.carryOutWith shell run config

/-- The exit code of a job with this result. -/
def exitCode : Except Panic (Except SinkError Unit) → UInt32
  | .ok (.ok ()) => 0
  | .ok (.error _) => 1
  | .error _ => 101

end Job

end TableSink
