import Reckon.Text.Quoted
import Reckon.Word

/-!
# Outcomes and errors

What a parser makes of a text: it `failed`, or it `matched` a beginning of the text, which gives a
value and the rest of the text. As a collection, seen through `toList`, an outcome has at most one
element. An `Error` is what can go wrong between a request and its value, with a message for each
case.
-/

set_option autoImplicit false

namespace Reckon

/-! ## Outcomes -/

/-- Failure, or a value and the text after what was matched. -/
inductive Outcome (α : Type) where
  | failed
  | matched (value : α) (rest : List Char)
deriving BEq, DecidableEq, Repr

namespace Outcome

variable {α β : Type}

/-- The outcome with the given match, if there is one. -/
def ofOption : Option (α × List Char) → Outcome α
  | none => failed
  | some (value, rest) => matched value rest

/-- The match, if there is one. -/
def first? : Outcome α → Option (α × List Char)
  | failed => none
  | matched value rest => some (value, rest)

/-- All matches. -/
def toList : Outcome α → List (α × List Char)
  | failed => []
  | matched value rest => [(value, rest)]

/-- How many matches there are. -/
def size (o : Outcome α) : Nat := o.toList.length

def isEmpty : Outcome α → Bool
  | failed => true
  | matched _ _ => false

/-- Changes the value and keeps the rest. -/
def map (f : α → β) : Outcome α → Outcome β
  | failed => failed
  | matched value rest => matched (f value) rest

/-- Set notation: the value, written by `text`, and the quoted rest, in a pair between braces. -/
def render (text : α → List Char) : Outcome α → List Char
  | failed => ['\x7b', '\x7d']
  | matched value rest =>
    ['\x7b', '('] ++ text value ++ [',', ' '] ++ Text.quote rest ++ [')', '\x7d']

theorem size_le_one (o : Outcome α) : o.size ≤ 1 := by
  cases o <;> simp [size, toList]

end Outcome

/-! ## Errors -/

/-- Why a request has no value. -/
inductive Error where
  /-- The text does not begin with an expression. -/
  | noMatch
  /-- An expression was read, but text is left where none may be. -/
  | trailingInput (value : Word) (remainder : String)
  /-- A register cannot have this name. -/
  | invalidName (name : String)
  /-- The text does not have the form of a binding. -/
  | invalidBinding (text : String)
  /-- The settings could not be read. -/
  | config (detail : String)
deriving DecidableEq

/-- The message for an error; texts that come from outside are quoted. -/
def Error.message : Error → String
  | noMatch => "No match: the expression grammar did not match the input"
  | trailingInput value remainder =>
    "Trailing input after value " ++ toString value ++ ": " ++ Text.quoted remainder
  | invalidName name =>
    "Invalid symbol name: " ++ Text.quoted name ++ " (expected one or more uppercase letters)"
  | invalidBinding text =>
    "Invalid symbol binding: " ++ Text.quoted text ++ " (expected NAME=VALUE)"
  | config detail => "Config error: " ++ detail

end Reckon
