import Reckon.Text.CharacterClass

/-!
# Parsers

A parser is data: `Parser ρ α` describes how to match a beginning of a text and make a value of
type `α` of it. `ρ β` are the names of the rules with values of type `β` that it may call, so a
grammar whose rules call each other is a finite object. What a parser does is its denotation
(`Reckon.Parser.Denotation`).

`item`, `unit`, `failure`, `choice`, `bind`, `many` and `many1` are primitive; the other
constructors say in one step what could be said with these. `character`, `blank`, `blanks` and
`ofOption` are abbreviations.
-/

set_option autoImplicit false

namespace Reckon

inductive Parser (ρ : Type → Type) : Type → Type 1 where
  /-- Any one character. -/
  | item : Parser ρ Char
  /-- One character of a class. -/
  | satisfies (holds : Char → Bool) : Parser ρ Char
  /-- Nothing is read, and the value is given. -/
  | unit {α : Type} (value : α) : Parser ρ α
  /-- No text matches. -/
  | failure {α : Type} : Parser ρ α
  /-- Exactly the given characters, which are also the value. -/
  | literal (text : List Char) : Parser ρ (List Char)
  /-- What `first` makes of the text, or else what `second` does; a match of `first` stands, even
  if what comes after it fails. -/
  | choice {α : Type} (first second : Parser ρ α) : Parser ρ α
  /-- First `parser`, then the parser that `next` chooses for its value. -/
  | bind {α β : Type} (parser : Parser ρ α) (next : α → Parser ρ β) : Parser ρ β
  /-- The value is changed by `f`. -/
  | map {α β : Type} (parser : Parser ρ α) (f : α → β) : Parser ρ β
  /-- As often as possible, also not at all. -/
  | many {α : Type} (parser : Parser ρ α) : Parser ρ (List α)
  /-- As often as possible, and at least once. -/
  | many1 {α : Type} (parser : Parser ρ α) : Parser ρ (List α)
  /-- Once or not at all. -/
  | optional {α : Type} (parser : Parser ρ α) : Parser ρ (Option α)
  /-- Blanks are dropped before and after. -/
  | token {α : Type} (parser : Parser ρ α) : Parser ρ α
  /-- Both, one after the other. -/
  | pair {α β : Type} (first : Parser ρ α) (second : Parser ρ β) : Parser ρ (α × β)
  /-- Both, one after the other; the value is that of `second`. -/
  | preceded {α β : Type} (first : Parser ρ α) (second : Parser ρ β) : Parser ρ β
  /-- Both, one after the other; the value is that of `first`. -/
  | terminated {α β : Type} (first : Parser ρ α) (second : Parser ρ β) : Parser ρ α
  /-- All three; the value is that of the middle one. -/
  | between {α β γ : Type} (left : Parser ρ α) (parser : Parser ρ β) (right : Parser ρ γ) :
      Parser ρ β
  /-- What the rule says. -/
  | call {α : Type} (rule : ρ α) : Parser ρ α

namespace Parser

variable {ρ σ : Type → Type} {α : Type}

/-- One given character. -/
def character (c : Char) : Parser ρ Char := satisfies (· == c)

/-- One blank. -/
def blank : Parser ρ Char := satisfies Text.isBlank

/-- All blanks up to the next other character. -/
def blanks : Parser ρ (List Char) := many blank

/-- The value, if there is one, or else a failure. -/
def ofOption : Option α → Parser ρ α
  | some value => unit value
  | none => failure

/-- The same parser over other names of rules. -/
def rename (f : ∀ {β : Type}, ρ β → σ β) : {α : Type} → Parser ρ α → Parser σ α
  | _, item => item
  | _, satisfies holds => satisfies holds
  | _, unit value => unit value
  | _, failure => failure
  | _, literal text => literal text
  | _, choice p q => choice (rename f p) (rename f q)
  | _, bind p next => bind (rename f p) fun v => rename f (next v)
  | _, map p g => map (rename f p) g
  | _, many p => many (rename f p)
  | _, many1 p => many1 (rename f p)
  | _, optional p => optional (rename f p)
  | _, token p => token (rename f p)
  | _, pair p q => pair (rename f p) (rename f q)
  | _, preceded p q => preceded (rename f p) (rename f q)
  | _, terminated p q => terminated (rename f p) (rename f q)
  | _, between l p r => between (rename f l) (rename f p) (rename f r)
  | _, call rule => call (f rule)
termination_by structural _ p => p

end Parser

end Reckon
