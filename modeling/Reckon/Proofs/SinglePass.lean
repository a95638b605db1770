import Reckon.Proofs.Reading

/-!
# The grammar reads in a single pass

The grammar reads a left operand, and reads it again when no right operand can be combined with
it. What it makes of a text is what the single pass makes of it, on every level: the value, the
rest and the failures are the same (`parse_eq_singlePass`).

* `denote_level`: a parser of the grammar does what `read` says, if the rules that it calls do so
  on all shorter texts.
* `run_level`: by induction on the depth of calls, a run that may nest as deep as the text is long
  is not cut off.
-/

set_option autoImplicit false

namespace Reckon

namespace SinglePass

/-! ## Meaning of the rules -/

section
variable {registers : Registers} {rule : ∀ {β : Type}, Grammar.Rule β → List Char → Attempt β}
  {s : List Char}

open Reckon.Grammar Reckon.Parser

/-- An operation whose left operand leaves no blanks in front does what `continued` says. If the
right operand cannot be had or combined, the left one is read again, with the same outcome. -/
theorem denote_operation {left : Parser Rule Word} {op : Operator}
    {right : List Char → Outcome Word} {o : Outcome Word} (hleft : denote rule left s = some o)
    (ho : ∀ v rest, o = .matched v rest → rest.length < s.length ∧ Text.Trimmed rest)
    (hright : ∀ t, t.length < s.length → rule op.rule t = some (right t)) :
    denote rule (operation left op.mark op.rule op.combine) s = some (continued op right o) := by
  rcases o with _ | ⟨v, rest⟩
  · simp only [operation, denote, hleft, Attempt.andThen, Attempt.orElse, continued]
  · obtain ⟨hlt, htrim⟩ := ho v rest rfl
    have hmark := denote_mark rule op.mark rest
    rw [Text.skipBlanks_of_trimmed htrim] at hmark
    simp only [operation, denote, hleft, Attempt.andThen, hmark, continued]
    cases ha : Text.after? op.mark rest with
    | none => rfl
    | some t =>
      have ht := hright t (Nat.lt_trans (Text.length_after? ha) hlt)
      simp only [Option.map_some, Outcome.ofOption, ht]
      cases right t with
      | failed => rfl
      | matched w last =>
        simp only
        cases op.combine v w <;> rfl

theorem denote_token_lexeme {holds : Char → Bool} (value? : List Char → Option Word) {c : Char}
    {rest : List Char} (hs : Text.skipBlanks s = c :: rest) (hc : holds c = true) :
    denote rule (.token (.bind (.many1 (.satisfies holds)) fun cs => .ofOption (value? cs))) s =
      some (ofRun (value? (c :: rest.takeWhile holds)) (rest.dropWhile holds)) := by
  rw [denote, hs, denote_lexeme rule value? hc]
  cases value? (c :: rest.takeWhile holds) <;> rfl

theorem denote_token_lexeme_failed {holds : Char → Bool} (value? : List Char → Option Word)
    (h : ∀ c ∈ (Text.skipBlanks s).head?, holds c = false) :
    denote rule (.token (.bind (.many1 (.satisfies holds)) fun cs => .ofOption (value? cs))) s =
      some .failed := by
  rw [denote, denote_lexeme_failed rule value? h]
  rfl

theorem denote_parenthesized_failed (h : ∀ c ∈ (Text.skipBlanks s).head?, c ≠ '(') :
    denote rule parenthesized s = some .failed := by
  have hmark : Text.after? '(' (Text.skipBlanks s) = none := by
    cases hs : Text.skipBlanks s with
    | nil => rfl
    | cons c rest => exact if_neg (h c (by rw [hs]; rfl))
  simp only [parenthesized, denote, denote_mark, hmark, Option.map_none, Outcome.ofOption,
    Attempt.andThen]

variable (hrule : ∀ op t, t.length < s.length →
  rule op.rule t = some (read registers (.chain op) t))
include hrule

theorem denote_parenthesized {rest : List Char} (hs : Text.skipBlanks s = '(' :: rest) :
    denote rule parenthesized s = some (closed (read registers .expression rest)) := by
  have hmark : Text.after? '(' (Text.skipBlanks s) = some (Text.skipBlanks rest) := by
    rw [hs]; rfl
  have hcall := hrule .plus (Text.skipBlanks rest)
    (Nat.lt_of_le_of_lt (Text.length_skipBlanks_le rest) (Text.length_lt_of_skipBlanks hs))
  rw [read_skipBlanks] at hcall
  simp only [parenthesized, denote, denote_mark, hmark, Option.map_some, Outcome.ofOption,
    Attempt.andThen]
  rw [show rule Rule.expression (Text.skipBlanks rest) = _ from hcall]
  cases hr : read registers (.chain .plus) rest with
  | failed => rfl
  | matched v last =>
    simp only [Text.skipBlanks_of_trimmed (read_trimmed hr), closed]
    cases Text.after? ')' last <;> rfl

theorem denote_atom :
    denote rule (Level.atom.parser registers) s = some (read registers .atom s) := by
  have hatom : denote rule (Level.atom.parser registers) s =
      ((denote rule parenthesized s).orElse fun _ => denote rule (.token naturalNumber) s).orElse
        fun _ => denote rule (.token (registerName registers)) s := rfl
  -- each alternative fails on a first character that is not its own
  have hnumber : (∀ c ∈ (Text.skipBlanks s).head?, c.isDigit = false) →
      denote rule (.token naturalNumber) s = some .failed := denote_token_lexeme_failed _
  have hname : (∀ c ∈ (Text.skipBlanks s).head?, isNameChar c = false) →
      denote rule (.token (registerName registers)) s = some .failed :=
    denote_token_lexeme_failed _
  rw [hatom]
  cases hs : Text.skipBlanks s with
  | nil =>
    rw [hs] at hnumber hname
    rw [denote_parenthesized_failed (by rw [hs]; simp), hnumber (by simp), hname (by simp),
      read_atom_nil hs]
    rfl
  | cons c rest =>
    simp only [hs, List.head?_cons, Option.mem_some_iff, forall_eq'] at hnumber hname
    by_cases hp : c = '('
    · subst hp
      rw [denote_parenthesized hrule hs, hnumber (classes_of_mark (by decide)).2.1,
        hname (classes_of_mark (by decide)).2.2, read_atom_parenthesis hs]
      cases closed (read registers .expression rest) <;> rfl
    rw [denote_parenthesized_failed (by rw [hs]; simpa using hp)]
    by_cases hd : c.isDigit = true
    · rw [show denote rule (.token naturalNumber) s = _ from denote_token_lexeme _ hs hd,
        hname (isNameChar_of_isDigit hd), read_atom_digit hs hd]
      cases ofRun _ _ <;> rfl
    have hd : c.isDigit = false := Bool.eq_false_iff.2 hd
    rw [hnumber hd]
    by_cases hn : isNameChar c = true
    · rw [show denote rule (.token (registerName registers)) s = _ from
        denote_token_lexeme _ hs hn, read_atom_name hs hn]
      rfl
    · have hn : isNameChar c = false := Bool.eq_false_iff.2 hn
      rw [hname hn, read_atom_other hs hp hd hn]
      rfl

theorem denote_chain (op : Operator)
    (h : denote rule (op.operand.parser registers) s = some (read registers op.operand s)) :
    denote rule ((Level.chain op).parser registers) s = some (read registers (.chain op) s) := by
  rw [Level.parser_chain, read_chain]
  exact denote_operation h (fun v rest hr => ⟨read_shorter hr, read_trimmed hr⟩) (hrule op)

/-- A parser of the grammar does what `read` says, if the rules do so on shorter texts. -/
theorem denote_level (l : Level) :
    denote rule (l.parser registers) s = some (read registers l s) := by
  have ha := denote_atom hrule
  have ht := denote_chain hrule .times ha
  rcases l with _ | _ | _
  · exact ha
  · exact denote_chain hrule .plus ht
  · exact ht

end

section
variable {registers : Registers}

open Reckon.Grammar Reckon.Parser

theorem unroll_rule {depth : Nat} {s : List Char} (h : s.length < depth) (op : Operator) :
    unroll (rules registers) depth op.rule s = some (read registers (.chain op) s) := by
  induction depth generalizing op s with
  | zero => exact absurd h (Nat.not_lt_zero _)
  | succ depth ih =>
    have hrules : rules registers op.rule = (Level.chain op).parser registers := by
      cases op <;> rfl
    rw [unroll, hrules]
    exact denote_level (fun op t ht => ih (Nat.lt_of_lt_of_le ht (Nat.le_of_lt_succ h)) op) _

/-- A run is never cut off if calls may nest as deep as the text is long. -/
theorem run_level {depth : Nat} {s : List Char} (h : s.length ≤ depth) (l : Level) :
    run (rules registers) depth (l.parser registers) s = some (read registers l s) :=
  denote_level (fun op _ ht => unroll_rule (Nat.lt_of_lt_of_le ht h) op) l

theorem parse_level (l : Level) (s : List Char) :
    Grammar.parse registers (l.parser registers) s = read registers l s := by
  rw [Grammar.parse, run_level (Nat.le_refl _)]
  rfl

/-- The grammar and the single pass agree on every text. No run that may nest as deep as the text
is long is cut off. -/
theorem parse_eq_singlePass (registers : Registers) (s : List Char) :
    Grammar.parse registers (Grammar.expression registers) s =
        outcome (SinglePass.expression registers s) ∧
      Grammar.parse registers (Grammar.term registers) s =
        outcome (SinglePass.term registers s) ∧
      Grammar.parse registers (Grammar.atom registers) s =
        outcome (SinglePass.atom registers s) ∧
      ∀ (l : Level) (more : Nat),
        run (rules registers) (s.length + more) (l.parser registers) s =
          some (Grammar.parse registers (l.parser registers) s) := by
  refine ⟨parse_level .expression s, parse_level .term s, parse_level .atom s, fun l more => ?_⟩
  rw [parse_level]
  exact run_level (Nat.le_add_right _ _) l

end

end SinglePass

end Reckon
