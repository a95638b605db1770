import Reckon.Grammar
import Reckon.Recipe.Value

/-!
# Recipes

A `Recipe` describes a parser without functions: character classes, changes of values and
continuations are taken from fixed vocabularies, and rules are called by name. `Recipe.parser` is
the parser that it describes, and `Recipe.parse` reads a text with it, given the recipes of the
named rules. Recipes can also use the parsers of the expression grammar.
-/

set_option autoImplicit false

namespace Reckon

/-- The character classes that a recipe can name. -/
inductive CharClass where
  | digit
  | nameChar
  | blank
  | any
  | never
  | oneOf (chars : List Char)
  | noneOf (chars : List Char)
  /-- From `first` to `last`, by code point. -/
  | range (first last : Char)

def CharClass.holds : CharClass → Char → Bool
  | digit, c => c.isDigit
  | nameChar, c => isNameChar c
  | blank, c => Text.isBlank c
  | any, _ => true
  | never, _ => false
  | oneOf chars, c => chars.contains c
  | noneOf chars, c => !chars.contains c
  | range first last, c => first ≤ c && c ≤ last

mutual

inductive Recipe where
  | item
  | satisfies (chars : CharClass)
  | unit (value : Value)
  | failure
  | character (c : Char)
  | literal (text : List Char)
  | blank
  | blanks
  | choice (first second : Recipe)
  | bind (parser : Recipe) (next : Continuation)
  | map (parser : Recipe) (change : Change)
  | many (parser : Recipe)
  | many1 (parser : Recipe)
  | optional (parser : Recipe)
  | token (parser : Recipe)
  | pair (first second : Recipe)
  | preceded (first second : Recipe)
  | terminated (first second : Recipe)
  | between (left parser right : Recipe)
  | ofOption (value : Value)
  | call (rule : String)
  | digit
  | naturalNumber
  | registerName
  | atom
  | term
  | expression

/-- What comes after a value. -/
inductive Continuation where
  /-- The value itself. -/
  | unit
  | failure
  /-- The text of the value, once more. -/
  | again
  /-- The value inside an optional value; a failure for `none`. -/
  | ofOption
  /-- The sum of two words. -/
  | add
  /-- The product of two words. -/
  | mul
  /-- A text as often as the size of the value says, at most a thousand times. -/
  | times (text : List Char)
  /-- A parser that does not depend on the value. -/
  | parser (next : Recipe)
  /-- A parser that does not depend on the value; both values are kept. -/
  | pairWith (next : Recipe)

end

namespace Recipe

/-- The rules that a recipe can call: named recipes, and the rules of the expression grammar. -/
inductive Rule : Type → Type where
  | named (name : String) : Rule Value
  | expression : Rule Word
  | term : Rule Word

/-- A rule of the expression grammar, as a rule that a recipe can call. -/
def Rule.ofGrammar : {α : Type} → Grammar.Rule α → Rule α
  | _, .expression => expression
  | _, .term => term

/-- A parser that reads the given text. -/
def literalText (text : List Char) : Parser Rule Value := .map (.literal text) .text

/-- The value inside an optional value; a value of another form counts as present. -/
def present : Value → Option Value
  | .none => none
  | .some v => some v
  | v => some v

/-- The two words of a pair, combined. -/
def combine (f : Word → Word → Option Word) : Value → Option Value
  | .pair (.int a) (.int b) => (f a b).map .int
  | _ => none

/-- An optional value as a value. -/
def ofOptional : Option Value → Value
  | none => .none
  | some v => .some v

/-- A parser of the expression grammar. -/
def grammarWord (p : Parser Grammar.Rule Word) : Parser Rule Value :=
  .map (p.rename .ofGrammar) .int

variable (registers : Registers)

mutual

/-- The parser that a recipe describes. -/
def parser : Recipe → Parser Rule Value
  | item => .map .item .char
  | satisfies chars => .map (.satisfies chars.holds) .char
  | unit value => .unit value
  | failure => .failure
  | character c => .map (.character c) .char
  | literal text => literalText text
  | blank => .map .blank .char
  | blanks => .map .blanks fun cs => .list (cs.map .char)
  | choice p q => .choice (parser p) (parser q)
  | bind p next => .bind (parser p) (after next)
  | map p change => .map (parser p) change.apply
  | many p => .map (.many (parser p)) .list
  | many1 p => .map (.many1 (parser p)) .list
  | optional p => .map (.optional (parser p)) ofOptional
  | token p => .token (parser p)
  | pair p q => .map (.pair (parser p) (parser q)) fun vw => .pair vw.1 vw.2
  | preceded p q => .preceded (parser p) (parser q)
  | terminated p q => .terminated (parser p) (parser q)
  | between l p r => .between (parser l) (parser p) (parser r)
  | ofOption value => .ofOption (present value)
  | call rule => .call (.named rule)
  | digit => .map Grammar.digit .char
  | naturalNumber => .map Grammar.naturalNumber .int
  | registerName => .map (Grammar.registerName registers) .int
  | atom => grammarWord (Grammar.atom registers)
  | term => grammarWord (Grammar.term registers)
  | expression => grammarWord (Grammar.expression registers)

/-- The parser that a continuation chooses for a value. -/
def after : Continuation → Value → Parser Rule Value
  | .unit, v => .unit v
  | .failure, _ => .failure
  | .again, v => literalText v.toText
  | .ofOption, v => .ofOption (present v)
  | .add, v => .ofOption (combine Word.add? v)
  | .mul, v => .ofOption (combine Word.mul? v)
  | .times text, v =>
    literalText (List.replicate (min v.size.val 1000).toNat text).flatten
  | .parser p, _ => parser p
  | .pairWith p, v => .map (parser p) (.pair v)

end

/-- What each rule says; a name without a recipe matches nothing. -/
def rules (definitions : List (String × Recipe)) : Parser.Rules Rule
  | _, .named name =>
    match definitions.lookup name with
    | some recipe => parser registers recipe
    | none => .failure
  | _, .expression => (Grammar.expression registers).rename .ofGrammar
  | _, .term => (Grammar.term registers).rename .ofGrammar

/-- What a recipe makes of a text. Calls may nest so deep that every rule is called at every place
of the text; a run that needs more would repeat itself for ever, and counts as a failure. -/
def parse (definitions : List (String × Recipe)) (recipe : Recipe) (s : List Char) :
    Outcome Value :=
  let depth := (definitions.length + 2) * (s.length + 1)
  (Parser.run (rules registers definitions) depth (parser registers recipe) s).getD .failed

end Recipe

end Reckon
