import Reckon.Outcome
import Reckon.Parser.Basic

/-!
# What parsers do

`denote` gives a parser its meaning: a function from texts to outcomes, for a given meaning of the
rules. A set of rules gives its own meaning to rules by unrolling: `unroll rules n` allows calls to
nest `n` deep, and a run that needs more is cut off, which is neither a match nor a failure. So
`run rules n p s` is `none` when `n` is too small, and otherwise the outcome of `p` on `s`.

Every parser that runs others in sequence is built from `andThen`.
-/

set_option autoImplicit false

namespace Reckon

/-- What a run gives: an outcome, or `none` if it was cut off. -/
abbrev Attempt (α : Type) := Option (Outcome α)

namespace Attempt

variable {α β : Type}

/-- Goes on after a match, with its value and the rest of the text. -/
def andThen (first : Attempt α) (next : α → List Char → Attempt β) : Attempt β :=
  match first with
  | none => none
  | some .failed => some .failed
  | some (.matched value rest) => next value rest

/-- Tries again after a failure. -/
def orElse (first : Attempt α) (second : Unit → Attempt α) : Attempt α :=
  match first with
  | some .failed => second ()
  | _ => first

end Attempt

namespace Parser

variable {ρ : Type → Type} {α β : Type}

/-! ## Repetition -/

/-- Runs `p` until it fails or does not shorten the text, and adds its values to those already
`seen`, the last of them first. The value of the one run that did not shorten the text is kept. -/
def collect (p : List Char → Attempt α) (seen : List α) (s : List Char) : Attempt (List α) :=
  match p s with
  | none => none
  | some .failed => some (.matched seen.reverse s)
  | some (.matched value rest) =>
    if rest.length < s.length then collect p (value :: seen) rest
    else some (.matched (value :: seen).reverse s)
termination_by s.length

/-- Runs `p` as often as possible. -/
def repeated (p : List Char → Attempt α) (s : List Char) : Attempt (List α) := collect p [] s

/-- Runs `p` as often as possible, but fails if it fails at the start. -/
def repeated1 (p : List Char → Attempt α) (s : List Char) : Attempt (List α) :=
  (p s).andThen fun value rest =>
    if rest.length < s.length then collect p [value] rest else some (.matched [value] rest)

/-- The values already seen stand before those that are still read. -/
theorem collect_eq (p : List Char → Attempt α) (seen : List α) (s : List Char) :
    collect p seen s =
      (repeated p s).andThen fun values rest => some (.matched (seen.reverse ++ values) rest) := by
  suffices h : ∀ more, collect p (more ++ seen) s =
      (collect p more s).andThen fun values rest =>
        some (.matched (seen.reverse ++ values) rest) from h []
  intro more
  fun_induction collect p more s with
  | case1 more s h => rw [collect]; simp [h, Attempt.andThen]
  | case2 more s h => rw [collect]; simp [h, Attempt.andThen]
  | case3 more s value rest h lt ih =>
    rw [collect]; simp only [h, if_pos lt]; exact ih
  | case4 more s value rest h lt => rw [collect]; simp [h, if_neg lt, Attempt.andThen]

/-- `repeated` reads one value and repeats. -/
theorem repeated_eq (p : List Char → Attempt α) (s : List Char) :
    repeated p s =
      match p s with
      | none => none
      | some .failed => some (.matched [] s)
      | some (.matched value rest) =>
        if rest.length < s.length then
          (repeated p rest).andThen fun values last => some (.matched (value :: values) last)
        else some (.matched [value] s) := by
  rw [repeated, collect]
  split <;> simp [collect_eq p [_]]

/-- `repeated1` reads one value and repeats. -/
theorem repeated1_eq (p : List Char → Attempt α) (s : List Char) :
    repeated1 p s =
      (p s).andThen fun value rest =>
        if rest.length < s.length then
          (repeated p rest).andThen fun values last => some (.matched (value :: values) last)
        else some (.matched [value] rest) := by
  rw [repeated1]
  simp [collect_eq p [_]]

/-! ## Single characters and texts -/

/-- Reads one character of a class. -/
def readChar (holds : Char → Bool) : List Char → Outcome Char
  | c :: rest => if holds c then .matched c rest else .failed
  | [] => .failed

/-- The rest of `s` after `text`, if `s` begins with it. -/
def stripText : (text s : List Char) → Option (List Char)
  | [], s => some s
  | c :: text, d :: s => if d = c then stripText text s else none
  | _ :: _, [] => none

/-! ## Meaning -/

/-- What a parser makes of a text, when `rule` says so for the rules that it calls. -/
def denote (rule : ∀ {β : Type}, ρ β → List Char → Attempt β) :
    {α : Type} → Parser ρ α → List Char → Attempt α
  | _, item, s => some (readChar (fun _ => true) s)
  | _, satisfies holds, s => some (readChar holds s)
  | _, unit value, s => some (.matched value s)
  | _, failure, _ => some .failed
  | _, literal text, s =>
    some (.ofOption ((stripText text s).map fun rest => (text, rest)))
  | _, choice p q, s => (denote rule p s).orElse fun _ => denote rule q s
  | _, bind p next, s => (denote rule p s).andThen fun v => denote rule (next v)
  | _, map p f, s => (denote rule p s).map (Outcome.map f)
  | _, many p, s => repeated (denote rule p) s
  | _, many1 p, s => repeated1 (denote rule p) s
  | _, optional p, s =>
    ((denote rule p s).andThen fun v rest => some (.matched (some v) rest)).orElse
      fun _ => some (.matched none s)
  | _, token p, s =>
    (denote rule p (Text.skipBlanks s)).andThen fun v rest =>
      some (.matched v (Text.skipBlanks rest))
  | _, pair p q, s =>
    (denote rule p s).andThen fun v rest =>
      (denote rule q rest).andThen fun w last => some (.matched (v, w) last)
  | _, preceded p q, s => (denote rule p s).andThen fun _ => denote rule q
  | _, terminated p q, s =>
    (denote rule p s).andThen fun v rest =>
      (denote rule q rest).andThen fun _ last => some (.matched v last)
  | _, between l p r, s =>
    (denote rule l s).andThen fun _ rest =>
      (denote rule p rest).andThen fun v rest =>
        (denote rule r rest).andThen fun _ last => some (.matched v last)
  | _, call r, s => rule r s
termination_by structural _ p => p

/-- What each rule says. -/
abbrev Rules (ρ : Type → Type) := ∀ {α : Type}, ρ α → Parser ρ α

/-- The meaning of the rules when calls nest at most `depth` deep. -/
def unroll (rules : Rules ρ) : (depth : Nat) → {α : Type} → ρ α → List Char → Attempt α
  | 0, _, _, _ => none
  | depth + 1, _, r, s => denote (unroll rules depth) (rules r) s

/-- What a parser makes of a text when calls nest at most `depth` deep. -/
def run (rules : Rules ρ) (depth : Nat) (p : Parser ρ α) (s : List Char) : Attempt α :=
  denote (unroll rules depth) p s

end Parser

end Reckon
