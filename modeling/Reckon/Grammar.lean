import Reckon.Parser.Denotation
import Reckon.Registers

/-!
# The grammar of expressions

    expression = term "+" expression | term
    term       = atom "*" term | atom
    atom       = "(" expression ")" | natural number | register name

with blanks allowed before and after every token. The value of an expression is computed as it is
read. Operators associate to the right, and an operation whose result is not a word does not
match: then the left operand alone is what was read. The same holds where the right operand is
missing. `parse` reads with one of these parsers.
-/

set_option autoImplicit false

namespace Reckon.Grammar

/-- The rules that call themselves. -/
inductive Rule : Type → Type where
  | expression : Rule Word
  | term : Rule Word

section
variable {ρ : Type → Type}

/-- One ASCII digit. -/
def digit : Parser ρ Char := .satisfies Char.isDigit

/-- All digits up to the next other character, read as a number that must be a word. -/
def naturalNumber : Parser ρ Word :=
  .bind (.many1 digit) fun digits => .ofOption (Word.ofNat? (Numeral.toNat digits))

/-- All uppercase letters up to the next other character, which must be the name of a register. -/
def registerName (registers : Registers) : Parser ρ Word :=
  .bind (.many1 (.satisfies isNameChar)) fun letters =>
    .ofOption (registers.get? (String.ofList letters))

end

/-- A character as a token of its own. -/
def mark (c : Char) : Parser Rule Char := .token (.character c)

/-- An expression in parentheses. -/
def parenthesized : Parser Rule Word := .between (mark '(') (.call .expression) (mark ')')

/-- An operand. -/
def atom (registers : Registers) : Parser Rule Word :=
  .choice (.choice parenthesized (.token naturalNumber)) (.token (registerName registers))

/-- A left operand, an operator and what `right` says, combined; or else `left` alone. -/
def operation (left : Parser Rule Word) (operator : Char) (right : Rule Word)
    (combine : Word → Word → Option Word) : Parser Rule Word :=
  .choice
    (.bind (.pair (.terminated left (mark operator)) (.call right)) fun operands =>
      .ofOption (combine operands.1 operands.2))
    left

/-- Factors and their product. -/
def term (registers : Registers) : Parser Rule Word :=
  operation (atom registers) '*' .term Word.mul?

/-- Terms and their sum. -/
def expression (registers : Registers) : Parser Rule Word :=
  operation (term registers) '+' .expression Word.add?

/-- What each rule says. -/
def rules (registers : Registers) : Parser.Rules Rule
  | _, .expression => expression registers
  | _, .term => term registers

/-- What a parser of the grammar makes of a text. Calls nest no deeper than the text is long, so
that no run is cut off. -/
def parse {α : Type} (registers : Registers) (p : Parser Rule α) (s : List Char) : Outcome α :=
  (Parser.run (rules registers) s.length p s).getD .failed

end Reckon.Grammar
