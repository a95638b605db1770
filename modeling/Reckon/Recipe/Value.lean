import Reckon.Outcome
import Reckon.Word

/-!
# Values of recipes

A recipe (`Reckon.Recipe.Basic`) describes a parser whose values all have one type, `Value`.
Values have a text, the characters they are made of, a size, and a form for display, `render`.
-/

set_option autoImplicit false

namespace Reckon

inductive Value where
  | char (c : Char)
  | text (s : List Char)
  | int (n : Word)
  | list (items : List Value)
  | pair (first second : Value)
  | some (value : Value)
  | none
deriving BEq

namespace Value

/-! ## Text -/

mutual

/-- The characters that a value is made of, in order. -/
def toText : Value → List Char
  | char c => [c]
  | text s => s
  | int n => n.text
  | list items => toTexts items
  | pair v w => toText v ++ toText w
  | some v => toText v
  | none => []

/-- The texts of some values, one after the other. -/
def toTexts : List Value → List Char
  | [] => []
  | v :: vs => toText v ++ toTexts vs

end

/-! ## Size -/

/-- How much a value counts: a digit its value and another character one, a text its length, a
word itself, a list its length, a pair two. -/
def size : Value → Word
  | char c => if c.isDigit then .clamp (Numeral.digitValue c) else 1
  | text s => .clamp s.length
  | int n => n
  | list items => .clamp items.length
  | pair _ _ => 2
  | some _ => 1
  | none => 0

/-! ## Display -/

/-- Texts with a comma and a space between each two. -/
def separated : List (List Char) → List Char := List.intercalate [',', ' ']

mutual

/-- The form of a value for display. -/
def render : Value → List Char
  | char c => Text.quoteChar c
  | text s => Text.quote s
  | int n => n.text
  | list items => '[' :: separated (renderAll items) ++ [']']
  | pair v w => '(' :: separated [render v, render w] ++ [')']
  | some v => "Some(".toList ++ render v ++ [')']
  | none => "None".toList

def renderAll : List Value → List (List Char)
  | [] => []
  | v :: vs => render v :: renderAll vs

end

end Value

/-! ## Changes -/

/-- The functions on values that a recipe can name. -/
inductive Change where
  | same
  | toText
  | size
  | some
  /-- A pair of the value and itself. -/
  | double
  /-- Exchanges the parts of a pair. -/
  | swap
  /-- Reverses a list. -/
  | reverse
  | const (value : Value)

/-- What a change makes of a value; `swap` and `reverse` leave values of other forms alone. -/
def Change.apply : Change → Value → Value
  | same, v => v
  | toText, v => .text v.toText
  | size, v => .int v.size
  | some, v => .some v
  | double, v => .pair v v
  | swap, .pair v w => .pair w v
  | swap, v => v
  | reverse, .list items => .list items.reverse
  | reverse, v => v
  | const w, _ => w

end Reckon
