import Reckon.Grammar

/-!
# Evaluation

An `Evaluator` has registers and a mode. `Evaluator.evaluate` reads an expression from the
beginning of a text; in complete mode nothing may be left after it. A `Config` has the settings
that an evaluator is made of.
-/

set_option autoImplicit false

namespace Reckon

/-! ## Modes and results -/

/-- Whether text may be left after an expression. -/
inductive Mode where
  /-- Text that is left is part of the result. -/
  | lenient
  /-- Text that is left is an error. -/
  | complete
deriving DecidableEq

/-- The name of a mode in settings. -/
def Mode.text : Mode → String
  | lenient => "partial"
  | complete => "complete"

/-- A value and the text that was left. -/
structure Evaluation where
  value : Word
  remainder : String
deriving DecidableEq

namespace Evaluation

/-- Nothing was left. -/
def isComplete (e : Evaluation) : Bool := e.remainder.isEmpty

/-- The line that reports an evaluation. -/
def text (e : Evaluation) : String :=
  "Value=" ++ toString e.value ++ " unparsed=" ++ e.remainder

end Evaluation

/-! ## Evaluators -/

structure Evaluator where
  registers : Registers := .standard
  mode : Mode := .lenient

namespace Evaluator

/-- What the grammar makes of a text, whatever the mode. -/
def parse (e : Evaluator) (source : String) : Outcome Word :=
  Grammar.parse e.registers (Grammar.expression e.registers) source.toList

/-- The value of a text, or why it has none. -/
def evaluate (e : Evaluator) (source : String) : Except Error Evaluation :=
  match e.parse source with
  | .failed => .error .noMatch
  | .matched value rest =>
    if e.mode = .complete ∧ rest ≠ [] then .error (.trailingInput value (String.ofList rest))
    else .ok ⟨value, String.ofList rest⟩

end Evaluator

/-! ## Settings -/

/-- Which registers there are and which mode is in use. The names are not checked until an
evaluator is made of the settings. -/
structure Config where
  symbols : Bindings := Registers.standardBindings
  mode : Mode := .lenient
deriving DecidableEq

namespace Config

/-- The standard registers, in lenient mode. -/
def standard : Config := {}

/-- The registers of the settings; the least name that is no register name is the error. -/
def registers (c : Config) : Except Error Registers := Registers.ofBindings c.symbols

/-- The evaluator for the settings. -/
def evaluator (c : Config) : Except Error Evaluator := do
  .ok ⟨← c.registers, c.mode⟩

end Config

end Reckon
