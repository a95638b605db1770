import Reckon.CommandLine.Options
import Reckon.Config.Reader

/-!
# Running a command line

`Options.evaluate` does what a command line asks for: it takes the settings of the file, if one is
named, or else the standard ones, puts the bindings of the command line over them in their order,
and evaluates the expression. Errors are reported in this order: the file, the form of each
binding, the names of the registers, the expression. `respond` is the whole answer to a command
line.
-/

set_option autoImplicit false

namespace Reckon

/-- The binding that a text of the form `NAME=VALUE` stands for. The name ends at the first equals
sign; blanks around the name and the value do not count. -/
def Binding.ofText (text : String) : Except Error Binding :=
  match text.toList.dropWhile (· != '=') with
  | [] => .error (.invalidBinding text)
  | _ :: value =>
    match Word.read? (Text.trim value) with
    | none => .error (.invalidBinding text)
    | some w =>
      .ok (String.ofList (Text.trim (text.toList.takeWhile (· != '='))), w)

/-- Files by their names. -/
abbrev Files := String → Except FileFault ByteArray

namespace Options

/-- Adds the binding that a text stands for. -/
def addSymbol (c : Config) (text : String) : Except Error Config := do
  let (name, value) ← Binding.ofText text
  .ok { c with symbols := c.symbols.insert name value }

/-- The settings that the options leave of those of the file. -/
def overlay (o : Options) (base : Config) : Except Error Config := do
  let c ← o.symbols.foldlM addSymbol base
  .ok (if o.complete then { c with mode := .complete } else c)

/-- The settings of a command line. -/
def settings (o : Options) (files : Files) : Except Error Config := do
  let base ← match o.config with
    | some path => Config.ofFile path (files path)
    | none => .ok .standard
  o.overlay base

/-- What the expression evaluates to under given settings. -/
def evaluateWith (o : Options) (c : Config) : Except Error Evaluation := do
  let evaluator ← c.evaluator
  evaluator.evaluate (o.expression.getD demonstration)

/-- The evaluation that a command line asks for. -/
def evaluate (o : Options) (files : Files) : Except Error Evaluation := do
  o.evaluateWith (← o.settings files)

end Options

/-! ## Answers -/

/-- What a run leaves: its exit code and what it writes. -/
structure Report where
  code : UInt8
  output : String := ""
  error : String := ""
deriving DecidableEq

/-- The name and the version of the program. -/
def versionText : String := "regcalc 0.1.0"

def usageText : String := "Usage: regcalc [OPTIONS] [EXPRESSION]"

/-- The answer to a request for help. -/
def helpText : String :=
  usageText ++ "\n\nArguments:\n  [EXPRESSION]  Expression to evaluate [default: \"" ++
  demonstration ++ "\"]\n\nOptions:\n" ++
  "  -c, --config <CONFIG>      Path to a JSON config file\n" ++
  "  -s, --symbol <NAME=VALUE>  Extra register binding, NAME=VALUE (repeatable)\n" ++
  "      --complete             Reject input that is not fully consumed\n" ++
  "  -v, --verbose              Enable debug logging\n" ++
  "  -h, --help                 Print help\n" ++
  "  -V, --version              Print version"

/-- The report of a command line that does not ask for an evaluation. -/
def Options.Stop.report : Options.Stop → Report
  | version => { code := 0, output := versionText ++ "\n" }
  | help => { code := 0, output := helpText ++ "\n" }
  | usage fault =>
    { code := 2, error := "error: " ++ fault.message ++ "\n\n" ++ usageText ++
        "\n\nFor more information, try '--help'.\n" }

/-- The report of an evaluation. -/
def Report.ofResult : Except Error Evaluation → Report
  | .ok e => { code := 0, output := e.text ++ "\n" }
  | .error e => { code := 1, error := "Error: " ++ e.message ++ "\n" }

/-- The answer to a command line, when the files are as given. -/
def respond (files : Files) (arguments : List String) : Report :=
  match Options.read arguments with
  | .ok options => .ofResult (options.evaluate files)
  | .error stop => stop.report

end Reckon
