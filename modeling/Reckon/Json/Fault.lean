import Reckon.Binary64.Shortest
import Reckon.Text.Quoted

/-!
# Faults in JSON texts

Why a JSON text could not be read: a break of the syntax, or a value of another kind than the
reader asked for. `Fault.message` says it in words.
-/

set_option autoImplicit false

namespace Reckon.Json

/-- A number as it is written: integers as long as they fit in 64 bits, others approximately. -/
inductive Number where
  | natural (n : Nat)
  /-- The integer `-n`, for positive `n`. -/
  | negative (n : Nat)
  | float (negative : Bool) (x : Binary64)
deriving DecidableEq

/-- A value that was found where another kind of value is needed. -/
inductive Found where
  | null
  | bool (b : Bool)
  | number (n : Number)
  | string (s : List Char)
  | array
  | object
deriving DecidableEq

/-- The kinds of values that a reader of settings asks for. -/
inductive Kind where
  | settings
  | map
  | word
  | unit
deriving DecidableEq

/-- What the text ended inside of. -/
inductive Place where
  | value
  | string
  | array
  | object
deriving DecidableEq

inductive Fault where
  | endInside (place : Place)
  | expectedWord
  | expectedValue
  | expectedColon
  | expectedCommaOrBracket
  | expectedCommaOrBrace
  | keyNotString
  | trailingComma
  | trailingCharacters
  | invalidNumber
  | numberOutOfRange
  | invalidEscape
  | controlCharacter
  /-- The first of two surrogates is not followed by an escape. -/
  | unpairedSurrogate
  /-- A surrogate where none may be. -/
  | loneSurrogate
  /-- A string that is not encoded in UTF-8. -/
  | invalidEncoding
  | wrongKind (found : Found) (expected : Kind)
  /-- An integer that is too large for a word. -/
  | tooLarge (n : Nat)
  | duplicateField (name : String)
  | unknownMode (name : List Char)
deriving DecidableEq

/-- The name of a place. -/
def Place.text : Place → String
  | value => "a value"
  | string => "a string"
  | array => "a list"
  | object => "an object"

/-- The name of a kind. -/
def Kind.text : Kind → String
  | settings => "struct CalcConfig"
  | map => "a map"
  | word => "i64"
  | unit => "unit"

/-- A text between grave accents. -/
def ticked (s : String) : String := "`" ++ s ++ "`"

/-- A found value, by its kind and, if it is short, its content. -/
def Found.text : Found → String
  | null => "null"
  | bool b => "boolean " ++ ticked (if b then "true" else "false")
  | number (.natural n) => "integer " ++ ticked (String.ofList (Numeral.ofNat n))
  | number (.negative n) => "integer " ++ ticked (String.ofList ('-' :: Numeral.ofNat n))
  | number (.float negative x) =>
    "floating point " ++ ticked (String.ofList (if negative then '-' :: x.text else x.text))
  | string s => "string " ++ String.ofList (Text.quote s)
  | array => "sequence"
  | object => "map"

/-- The message for a fault. -/
def Fault.message : Fault → String
  | endInside place => "EOF while parsing " ++ place.text
  | expectedWord => "expected ident"
  | expectedValue => "expected value"
  | expectedColon => "expected `:`"
  | expectedCommaOrBracket => "expected `,` or `]`"
  | expectedCommaOrBrace => "expected `,` or `\x7d`"
  | keyNotString => "key must be a string"
  | trailingComma => "trailing comma"
  | trailingCharacters => "trailing characters"
  | invalidNumber => "invalid number"
  | numberOutOfRange => "number out of range"
  | invalidEscape => "invalid escape"
  | controlCharacter =>
    "control character (\\u0000-\\u001F) found while parsing a string"
  | unpairedSurrogate => "unexpected end of hex escape"
  | loneSurrogate => "lone leading surrogate in hex escape"
  | invalidEncoding => "invalid unicode code point"
  | wrongKind found expected => "invalid type: " ++ found.text ++ ", expected " ++ expected.text
  | tooLarge n =>
    "invalid value: integer " ++ ticked (String.ofList (Numeral.ofNat n)) ++ ", expected " ++
      Kind.word.text
  | duplicateField name => "duplicate field " ++ ticked name
  | unknownMode name =>
    "unknown variant " ++ ticked (String.ofList name) ++ ", expected `partial` or `complete`"

end Reckon.Json
