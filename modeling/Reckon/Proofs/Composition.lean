import Reckon.Proofs.Evaluation

/-!
# Texts put together

What is read of a text to its end is read of it in parentheses, too, and nothing behind the closing
one has an influence on that (`read_enclose`). So the values of two texts are the operands of what is
made of both by an operator (`read_operation`). If the result is no word, the right operand has been
read, and is left.

Main result: `Grammar.parse_composed`.
-/

set_option autoImplicit false

namespace Reckon

open Text (skipBlanks after?)

/-- A text in parentheses. -/
def enclose (s : List Char) : List Char := '(' :: (s ++ [')'])

theorem enclose_append (s rest : List Char) : enclose s ++ rest = '(' :: (s ++ (')' :: rest)) := by
  rw [enclose, List.cons_append, List.append_assoc]
  rfl

/-- As many closing parentheses behind a text as opening ones in front of it. -/
theorem replicate_enclose (n : Nat) (s : List Char) :
    List.replicate (n + 1) '(' ++ s ++ List.replicate (n + 1) ')' =
      enclose (List.replicate n '(' ++ s ++ List.replicate n ')') := by
  rw [List.replicate_succ, List.replicate_succ', enclose]
  simp only [List.cons_append, List.append_assoc]

namespace SinglePass

variable {registers : Registers} {s t rest last : List Char} {v w : Word}

/-- A text that is read to its end is read as an operand between parentheses, whatever comes behind
them. -/
theorem read_enclose (h : read registers .expression s = .matched v []) (rest : List Char) :
    read registers .atom (enclose s ++ rest) = .matched v (skipBlanks rest) := by
  have hinner : read registers .expression (s ++ (')' :: rest)) = .matched v (')' :: rest) :=
    read_append h (Level.ends_close _ rest)
  have hopen : skipBlanks (enclose s ++ rest) = '(' :: (s ++ (')' :: rest)) := by
    rw [enclose_append]
    exact Text.skipBlanks_cons (by decide) _
  rw [read_atom_parenthesis hopen, hinner]
  rfl

/-- A chain that does not go on is its operand. -/
theorem read_chain_of_operand (op : Operator) (h : read registers op.operand s = .matched v rest)
    (hrest : after? op.mark rest = none) : read registers (.chain op) s = .matched v rest := by
  rw [read_chain, h, continued_of_not_operator hrest]

section
variable (h : read registers .expression s = .matched v [])
include h

theorem read_enclose_all (l : Level) : read registers l (enclose s) = .matched v [] := by
  have hatom := read_enclose h []
  rw [List.append_nil] at hatom
  have hterm : read registers .term (enclose s) = .matched v [] :=
    read_chain_of_operand .times hatom rfl
  rcases l with _ | _ | _
  · exact hatom
  · exact read_chain_of_operand .plus hterm rfl
  · exact hterm

/-- The operand of a chain in parentheses, in front of the operator. -/
theorem read_enclose_operator (op : Operator) (rest : List Char) :
    read registers op.operand (enclose s ++ op.mark :: rest) = .matched v (op.mark :: rest) :=
  read_append (read_enclose_all h op.operand) (Level.ends_operator op rest)

end

/-- Two operands that are read to their ends, with the operator between them. -/
theorem read_operation {op : Operator}
    (hs : read registers op.operand (s ++ op.mark :: t) = .matched v (op.mark :: t))
    (ht : read registers (.chain op) t = .matched w last) :
    read registers (.chain op) (s ++ op.mark :: t) =
      match op.combine v w with
      | none => .matched v (op.mark :: t)
      | some u => .matched u last := by
  have hafter : after? op.mark (op.mark :: t) = some (skipBlanks t) := if_pos rfl
  rw [read_chain, hs]
  cases hu : op.combine v w with
  | none => simp only [continued, hafter, read_skipBlanks, ht, hu]
  | some u => simp only [continued, hafter, read_skipBlanks, ht, hu]

/-- An operation on two texts in parentheses, as an expression. -/
theorem read_composed (hs : read registers .expression s = .matched v [])
    (ht : read registers .expression t = .matched w []) (op : Operator) :
    read registers .expression (enclose s ++ op.mark :: enclose t) =
      match op.combine v w with
      | none => .matched v (op.mark :: enclose t)
      | some u => .matched u [] := by
  have hchain := read_operation (read_enclose_operator hs op (enclose t))
    (read_enclose_all ht (.chain op))
  cases op with
  | plus => exact hchain
  | times =>
    -- no plus sign comes behind a product, whether it was a word or not
    cases hu : Operator.times.combine v w with
    | none =>
      rw [hu] at hchain
      exact read_chain_of_operand .plus hchain rfl
    | some u =>
      rw [hu] at hchain
      exact read_chain_of_operand .plus hchain rfl

theorem read_replicate (h : read registers .expression s = .matched v []) (n : Nat) :
    read registers .expression (List.replicate n '(' ++ s ++ List.replicate n ')') =
      .matched v [] := by
  induction n with
  | zero => simpa using h
  | succ n ih =>
    rw [replicate_enclose]
    exact read_enclose_all ih .expression

end SinglePass

namespace Grammar

open SinglePass

/-- The values of two texts that are read to their ends are the operands of an operation on both, in
parentheses. If its result is a word, that is the value, and nothing is left; if not, the left value
is, and the operator is left with all that comes behind it. More parentheses around a text change
nothing. -/
theorem parse_composed {registers : Registers} {s t : List Char} {v w : Word}
    (hs : parse registers (expression registers) s = .matched v [])
    (ht : parse registers (expression registers) t = .matched w []) :
    (∀ op : Operator,
      (∀ u : Word, u.val = op.exact v.val w.val →
        parse registers (expression registers) (enclose s ++ op.mark :: enclose t) =
          .matched u []) ∧
      ((¬ ∃ u : Word, u.val = op.exact v.val w.val) →
        parse registers (expression registers) (enclose s ++ op.mark :: enclose t) =
          .matched v (op.mark :: enclose t))) ∧
    ∀ n : Nat, parse registers (expression registers)
      (List.replicate n '(' ++ s ++ List.replicate n ')') = .matched v [] := by
  have hread : ∀ s, parse registers (expression registers) s = read registers .expression s :=
    parse_level .expression
  rw [hread] at hs ht
  refine ⟨fun op => ?_, fun n => (hread _).trans (read_replicate hs n)⟩
  rw [hread, read_composed hs ht op]
  constructor
  · intro u hu
    rw [Operator.combine_eq_some.2 hu]
  · intro hnone
    cases hu : op.combine v w with
    | none => rfl
    | some u => exact absurd ⟨u, Operator.combine_eq_some.1 hu⟩ hnone

/-- The product is a word, and the sum is not. -/
theorem parse_composed_greatest :
    let parse := Grammar.parse .standard (expression .standard)
    parse "(9223372036854775807)*( ONE*1 )".toList = .matched 9223372036854775807 [] ∧
      parse "(9223372036854775807)+( ONE*1 )".toList =
        .matched 9223372036854775807 "+( ONE*1 )".toList ∧
      parse "(((9223372036854775807)))".toList = .matched 9223372036854775807 [] := by
  intro parse
  have hs : parse "9223372036854775807".toList = .matched 9223372036854775807 [] := by
    decide +kernel
  have ht : parse " ONE*1 ".toList = .matched 1 [] := by decide +kernel
  obtain ⟨hop, hnested⟩ := parse_composed hs ht
  refine ⟨(hop .times).1 _ (by decide +kernel), (hop .plus).2 ?_, hnested 3⟩
  rintro ⟨u, hu⟩
  have hle := u.le_greatest
  rw [hu] at hle
  exact absurd hle (by decide +kernel)

end Grammar

end Reckon
