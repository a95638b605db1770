import Reckon.Evaluator

/-!
# Writing settings

`Config.toText` is the JSON form of settings: one object without white space, first the registers
in ascending order of their names and then the mode. `Json.quote` writes a text as a JSON string:
quotes, backslashes and control characters are escaped, and all other characters stand for
themselves.
-/

set_option autoImplicit false

namespace Reckon

/-! ## Strings -/

namespace Json

/-- A character as it is written inside a string. -/
def escapeChar (c : Char) : List Char :=
  match c with
  | '\x22' => ['\\', '\x22']
  | '\\' => ['\\', '\\']
  | '\x08' => ['\\', 'b']
  | '\t' => ['\\', 't']
  | '\n' => ['\\', 'n']
  | '\x0c' => ['\\', 'f']
  | '\r' => ['\\', 'r']
  | c =>
    if c.toNat < 0x20 then
      ['\\', 'u', '0', '0', Text.hexDigit (c.toNat / 16), Text.hexDigit (c.toNat % 16)]
    else [c]

/-- A text as a string. -/
def quote (s : List Char) : List Char := '\x22' :: s.flatMap escapeChar ++ ['\x22']

end Json

/-! ## Settings -/

namespace Config

/-- A name and its value, as a member of an object. -/
def writeBinding (b : Binding) : List Char := Json.quote b.1.toList ++ ':' :: b.2.text

/-- Texts with a comma between each two. -/
def commaSeparated : List (List Char) → List Char := List.intercalate [',']

/-- The JSON form of settings. -/
def write (c : Config) : List Char :=
  '\x7b' :: Json.quote "symbols".toList ++ [':', '\x7b'] ++
    commaSeparated (c.symbols.toList.map writeBinding) ++ ['\x7d', ','] ++
    Json.quote "mode".toList ++ ':' :: Json.quote c.mode.text.toList ++ ['\x7d']

/-- The JSON form of settings, as a string. -/
def toText (c : Config) : String := String.ofList c.write

end Config

end Reckon
