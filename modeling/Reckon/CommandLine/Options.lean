/-!
# Options of the command line

`Options.read` makes `Options` of the arguments of a command line. Arguments are read from left to
right, and the first one that asks for the version, asks for help or breaks a rule decides. Short
flags may be combined in one argument; the value of an option is the rest of its argument, without
one equals sign, or else the next argument, which must not look like an option. After `--` every
argument stands for itself.
-/

set_option autoImplicit false

namespace Reckon

/-- The expression that is evaluated when none is given. -/
def demonstration : String := "(1 + 2) * 3 * ((4 + 50 + ONEX) * (TWO + ONE))"

/-- What a command line asks for. -/
structure Options where
  expression : Option String := none
  config : Option String := none
  /-- Texts of bindings, in the order in which they were given. -/
  symbols : List String := []
  complete : Bool := false
  verbose : Bool := false
deriving DecidableEq

namespace Options

/-- The options that have a value. -/
inductive Key where
  | config
  | symbol
deriving DecidableEq

/-- The options that have none. -/
inductive Flag where
  | complete
  | verbose
  | version
  | help
deriving DecidableEq

/-- How an option is named in messages. -/
def Key.text : Key → String
  | config => "--config <CONFIG>"
  | symbol => "--symbol <NAME=VALUE>"

/-- How a flag is named in messages. -/
def Flag.text : Flag → String
  | complete => "--complete"
  | verbose => "--verbose"
  | version => "--version"
  | help => "--help"

/-- A rule that a command line breaks. -/
inductive UsageFault where
  | unexpected (argument : String)
  | unexpectedValue (flag : Flag) (value : String)
  | missingValue (key : Key)
  | repeated (option : String)
deriving DecidableEq

def UsageFault.message : UsageFault → String
  | unexpected argument => "unexpected argument '" ++ argument ++ "' found"
  | unexpectedValue flag value =>
    "unexpected value '" ++ value ++ "' for '" ++ flag.text ++ "' found; no more were expected"
  | missingValue key => "a value is required for '" ++ key.text ++ "' but none was supplied"
  | repeated option => "the argument '" ++ option ++ "' cannot be used multiple times"

/-- Why a command line does not ask for an evaluation. -/
inductive Stop where
  | version
  | help
  | usage (fault : UsageFault)
deriving DecidableEq

/-! ## Single arguments -/

/-- What an argument says about one option. -/
inductive Item where
  | flag (flag : Flag)
  | option (key : Key) (value : String)
  /-- The value is the next argument. -/
  | pending (key : Key)
  | fault (fault : UsageFault)
deriving DecidableEq

/-- An option with the rest of its argument. -/
def attached (key : Key) : List Char → Item
  | [] => .pending key
  | '=' :: value => .option key (String.ofList value)
  | value => .option key (String.ofList value)

/-- Flags after a single dash. -/
def shortItems : List Char → List Item
  | [] => []
  | 'v' :: more => .flag .verbose :: shortItems more
  | 'V' :: more => .flag .version :: shortItems more
  | 'h' :: more => .flag .help :: shortItems more
  | 'c' :: value => [attached .config value]
  | 's' :: value => [attached .symbol value]
  | c :: _ => [.fault (.unexpected (String.ofList ['-', c]))]

/-- An option after two dashes, with what follows its name: nothing, or an equals sign and a
value. -/
def longItem (name rest : List Char) : Item :=
  let flag (f : Flag) : Item :=
    match rest with
    | [] => .flag f
    | _ :: value => .fault (.unexpectedValue f (String.ofList value))
  match String.ofList name with
  | "config" => attached .config rest
  | "symbol" => attached .symbol rest
  | "complete" => flag .complete
  | "verbose" => flag .verbose
  | "version" => flag .version
  | "help" => flag .help
  | name => .fault (.unexpected ("--" ++ name))

/-- The kinds of arguments. -/
inductive Argument where
  | positional
  | separator
  | options (items : List Item)
deriving DecidableEq

/-- The kind of an argument. A lone dash stands for itself. -/
def Argument.ofText (argument : String) : Argument :=
  match argument.toList with
  | ['-', '-'] => separator
  | '-' :: '-' :: text =>
    options [longItem (text.takeWhile (· != '=')) (text.dropWhile (· != '='))]
  | ['-'] => positional
  | '-' :: flags => options (shortItems flags)
  | _ => positional

/-! ## Command lines -/

/-- Sets the expression, which can be given only once. -/
def setExpression (o : Options) (text : String) : Except Stop Options :=
  match o.expression with
  | none => .ok { o with expression := some text }
  | some _ => .error (.usage (.unexpected text))

/-- Sets an option that has a value. The file can be given only once and has a name. -/
def setOption (o : Options) (key : Key) (value : String) : Except Stop Options :=
  match key with
  | .symbol => .ok { o with symbols := o.symbols ++ [value] }
  | .config =>
    if o.config.isSome then .error (.usage (.repeated key.text))
    else if value = "" then .error (.usage (.missingValue key))
    else .ok { o with config := some value }

/-- Sets a flag, which can be given only once. -/
def setFlag (o : Options) (flag : Flag) : Except Stop Options :=
  match flag with
  | .version => .error .version
  | .help => .error .help
  | .complete =>
    if o.complete then .error (.usage (.repeated flag.text)) else .ok { o with complete := true }
  | .verbose =>
    if o.verbose then .error (.usage (.repeated flag.text)) else .ok { o with verbose := true }

/-- Takes the items of one argument; an option whose value is still to come is given back. -/
def setItems (o : Options) : List Item → Except Stop (Options × Option Key)
  | [] => .ok (o, none)
  | .flag f :: more => do setItems (← o.setFlag f) more
  | .option key value :: more => do setItems (← o.setOption key value) more
  | .pending key :: _ => .ok (o, some key)
  | .fault f :: _ => .error (.usage f)

/-- Takes all arguments. -/
def readFrom (o : Options) : List String → Except Stop Options
  | [] => .ok o
  | argument :: rest =>
    match Argument.ofText argument with
    | .positional => do readFrom (← o.setExpression argument) rest
    | .separator => rest.foldlM setExpression o
    | .options items => do
      match ← o.setItems items, rest with
      | (o, none), rest => readFrom o rest
      | (_, some key), [] => .error (.usage (.missingValue key))
      | (o, some key), value :: rest =>
        if Argument.ofText value = .positional then do readFrom (← o.setOption key value) rest
        else .error (.usage (.missingValue key))

/-- The options of a command line. -/
def read (arguments : List String) : Except Stop Options := readFrom {} arguments

end Options

end Reckon
