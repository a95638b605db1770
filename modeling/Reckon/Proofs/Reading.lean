import Reckon.Proofs.Lexeme

/-!
# Reading a text by levels

The rules of the grammar as operands (`Level.atom`) and chains of operands with one operator
between them (`Level.chain`). Terms and expressions differ in the operator alone, so they share
their lemmas.

`SinglePass.expression`, `SinglePass.term` and `SinglePass.atom` evaluate the beginning of a text
and read nothing twice: an operand is kept as it is when it cannot be combined with what comes next.
`read_atom` and `read_chain` say what each level reads, in terms of the levels that it is made of;
`Level.induct` is the induction that goes with them.
-/

set_option autoImplicit false

namespace Reckon

/-! ## Operators and levels -/

inductive Operator where
  | plus
  | times
deriving DecidableEq

/-- The rules of the grammar. -/
inductive Level where
  | atom
  /-- Operands with an operator between each two. -/
  | chain (op : Operator)
deriving DecidableEq

namespace Operator

def mark : Operator → Char
  | plus => '+'
  | times => '*'

/-- The value of an operation, if it is a word. -/
def combine : Operator → Word → Word → Option Word
  | plus => Word.add?
  | times => Word.mul?

/-- What the operator stands between. -/
def operand : Operator → Level
  | plus => .chain .times
  | times => .atom

/-- The rule that reads the right operand. -/
def rule : Operator → Grammar.Rule Word
  | plus => .expression
  | times => .term

end Operator

namespace Level

@[match_pattern] abbrev expression : Level := .chain .plus

@[match_pattern] abbrev term : Level := .chain .times

/-- The parser of the grammar for a level. -/
def parser (registers : Registers) : Level → Parser Grammar.Rule Word
  | expression => Grammar.expression registers
  | term => Grammar.term registers
  | atom => Grammar.atom registers

theorem parser_chain (registers : Registers) (op : Operator) :
    (chain op).parser registers =
      Grammar.operation (op.operand.parser registers) op.mark op.rule op.combine := by
  cases op <;> rfl

/-- An atom calls expressions on shorter texts only; a chain reads its operand on the same text
and the rest of the chain on a shorter one. -/
theorem induct {P : Level → List Char → Prop}
    (hatom : ∀ s, (∀ t, t.length < s.length → P expression t) → P atom s)
    (hchain : ∀ op s, P op.operand s → (∀ t, t.length < s.length → P (chain op) t) →
      P (chain op) s)
    (l : Level) (s : List Char) : P l s := by
  suffices h : ∀ n (s : List Char), s.length = n → ∀ l, P l s from h _ s rfl l
  intro n
  induction n using Nat.strongRecOn with
  | ind n ih =>
    rintro s rfl
    have shorter : ∀ l t, t.length < s.length → P l t := fun l t ht => ih _ ht t rfl l
    -- on one text, atoms come before terms and terms before expressions
    have ha : P atom s := hatom s (shorter expression)
    have ht : P term s := hchain .times s ha (shorter term)
    have he : P expression s := hchain .plus s ht (shorter expression)
    rintro (_ | _ | _)
    · exact ha
    · exact he
    · exact ht

end Level

namespace SinglePass

/-! ## Readings -/

/-- What was read of `s`: a value and the rest, from which the blanks in front are gone. -/
structure Reading (s : List Char) where
  value : Word
  rest : List Char
  shorter : rest.length < s.length
  trimmed : Text.Trimmed rest

namespace Reading

variable {s t : List Char}

/-- A value, if there is one, and what comes after the blanks. -/
def ofRun (value? : Option Word) (rest : List Char) (h : rest.length < s.length) :
    Option (Reading s) :=
  value?.map fun v =>
    ⟨v, Text.skipBlanks rest, Nat.lt_of_le_of_lt (Text.length_skipBlanks_le rest) h,
      Text.trimmed_skipBlanks rest⟩

/-- `left` and what `right` reads behind the operator, combined; or `left` alone, if the operator
does not come next, nothing is read behind it or the result is no word. -/
def extend (left : Reading s) (op : Operator)
    (right : (t : List Char) → t.length < s.length → Option (Reading t)) : Reading s :=
  match h : Text.after? op.mark left.rest with
  | none => left
  | some t =>
    have ht : t.length < s.length := Nat.lt_trans (Text.length_after? h) left.shorter
    match right t ht with
    | none => left
    | some r =>
      match op.combine left.value r.value with
      | none => left
      | some v => ⟨v, r.rest, Nat.lt_trans r.shorter ht, r.trimmed⟩

/-- `inner` and a closing parenthesis behind it. -/
def close (inner : Reading t) (h : t.length < s.length) : Option (Reading s) :=
  match hr : Text.after? ')' inner.rest with
  | none => none
  | some last =>
    some ⟨inner.value, last,
      Nat.lt_trans (Nat.lt_trans (Text.length_after? hr) inner.shorter) h,
      Text.trimmed_after? hr⟩

end Reading

theorem length_dropWhile_lt {s rest : List Char} (h : rest.length < s.length)
    (holds : Char → Bool) : (rest.dropWhile holds).length < s.length :=
  Nat.lt_of_le_of_lt (List.dropWhile_sublist holds).length_le h

/-! ## The three levels -/

section
variable (registers : Registers)

mutual

/-- A term, and the sum of it and the expression behind a plus sign if there is one. -/
def expression (s : List Char) : Option (Reading s) :=
  match term s with
  | none => none
  | some left => some (left.extend .plus fun t _ => expression t)
termination_by 3 * s.length + 2

/-- An atom, and the product of it and the term behind an asterisk if there is one. -/
def term (s : List Char) : Option (Reading s) :=
  match atom s with
  | none => none
  | some left => some (left.extend .times fun t _ => term t)
termination_by 3 * s.length + 1

/-- The first character after the blanks says what comes: an expression in parentheses, a number
or the name of a register. -/
def atom (s : List Char) : Option (Reading s) :=
  match h : Text.skipBlanks s with
  | [] => none
  | c :: rest =>
    have hs : rest.length < s.length := Text.length_lt_of_skipBlanks h
    if c = '(' then
      match expression rest with
      | none => none
      | some inner => inner.close hs
    else if c.isDigit then
      Reading.ofRun (Word.ofNat? (Numeral.toNat (c :: rest.takeWhile Char.isDigit)))
        (rest.dropWhile Char.isDigit) (length_dropWhile_lt hs _)
    else if isNameChar c then
      Reading.ofRun (registers.get? (String.ofList (c :: rest.takeWhile isNameChar)))
        (rest.dropWhile isNameChar) (length_dropWhile_lt hs _)
    else none
termination_by 3 * s.length

end

end

/-- A reading as an outcome. -/
def outcome {s : List Char} : Option (Reading s) → Outcome Word
  | none => .failed
  | some r => .matched r.value r.rest

/-- What a level reads of a text. -/
def read (registers : Registers) : Level → List Char → Outcome Word
  | .expression, s => outcome (expression registers s)
  | .term, s => outcome (term registers s)
  | .atom, s => outcome (atom registers s)

/-! ## What a level reads, from the levels below -/

section
variable (registers : Registers)

theorem read_shorter {registers : Registers} {l : Level} {s rest : List Char} {v : Word}
    (h : read registers l s = .matched v rest) : rest.length < s.length := by
  have key : ∀ r : Option (Reading s), outcome r = .matched v rest → rest.length < s.length := by
    rintro (_ | r) ⟨⟩
    exact r.shorter
  rcases l with _ | _ | _ <;> exact key _ h

theorem read_trimmed {registers : Registers} {l : Level} {s rest : List Char} {v : Word}
    (h : read registers l s = .matched v rest) : Text.Trimmed rest := by
  have key : ∀ r : Option (Reading s), outcome r = .matched v rest → Text.Trimmed rest := by
    rintro (_ | r) ⟨⟩
    exact r.trimmed
  rcases l with _ | _ | _ <;> exact key _ h

/-- `left`, continued by the operator and what `right` reads behind it. -/
def continued (op : Operator) (right : List Char → Outcome Word) : Outcome Word → Outcome Word
  | .failed => .failed
  | .matched v rest =>
    match Text.after? op.mark rest with
    | none => .matched v rest
    | some t =>
      match right t with
      | .failed => .matched v rest
      | .matched w last =>
        match op.combine v w with
        | none => .matched v rest
        | some u => .matched u last

/-- `inner`, closed by a parenthesis. -/
def closed : Outcome Word → Outcome Word
  | .failed => .failed
  | .matched v rest => .ofOption ((Text.after? ')' rest).map fun t => (v, t))

/-- The value of a run, if there is one, and the text after the blanks. -/
def ofRun (value? : Option Word) (rest : List Char) : Outcome Word :=
  .ofOption (value?.map fun v => (v, Text.skipBlanks rest))

theorem outcome_ofRun {s : List Char} (value? : Option Word) (rest : List Char)
    (h : rest.length < s.length) : outcome (Reading.ofRun (s := s) value? rest h) =
      ofRun value? rest := by
  cases value? <;> rfl

theorem outcome_extend {s : List Char} (left : Reading s) (op : Operator)
    (right : (t : List Char) → Option (Reading t)) :
    outcome (some (left.extend op fun t _ => right t)) =
      continued op (fun t => outcome (right t)) (.matched left.value left.rest) := by
  simp only [Reading.extend, continued]
  split
  · rename_i h
    simp only [h, outcome]
  · rename_i t h
    simp only [h]
    cases right t with
    | none => rfl
    | some r =>
      simp only [outcome]
      cases op.combine left.value r.value <;> rfl

theorem outcome_close {s t : List Char} (inner : Reading t) (h : t.length < s.length) :
    outcome (inner.close h) = closed (.matched inner.value inner.rest) := by
  simp only [Reading.close, closed]
  split
  · rename_i hr
    rw [hr]; rfl
  · rename_i last hr
    simp only [hr]; rfl

/-- A chain is its operand, continued by the operator and the rest of the chain. -/
theorem read_chain (op : Operator) (s : List Char) :
    read registers (.chain op) s =
      continued op (read registers (.chain op)) (read registers op.operand s) := by
  cases op with
  | plus =>
    simp only [read, Operator.operand]
    rw [expression]
    cases term registers s with
    | none => rfl
    | some left => exact outcome_extend left .plus (expression registers)
  | times =>
    simp only [read, Operator.operand]
    rw [term]
    cases atom registers s with
    | none => rfl
    | some left => exact outcome_extend left .times (term registers)

/-- The first character after the blanks decides what an atom is. -/
theorem read_atom (s : List Char) :
    read registers .atom s =
      match Text.skipBlanks s with
      | [] => .failed
      | c :: rest =>
        if c = '(' then closed (read registers .expression rest)
        else if c.isDigit then
          ofRun (Word.ofNat? (Numeral.toNat (c :: rest.takeWhile Char.isDigit)))
            (rest.dropWhile Char.isDigit)
        else if isNameChar c then
          ofRun (registers.get? (String.ofList (c :: rest.takeWhile isNameChar)))
            (rest.dropWhile isNameChar)
        else .failed := by
  simp only [read]
  rw [atom]
  split
  · rename_i h; rw [h]; rfl
  · rename_i c rest h
    simp only [h]
    split
    · cases expression registers rest with
      | none => rfl
      | some inner => exact outcome_close inner _
    · split
      · exact outcome_ofRun _ _ _
      · split
        · exact outcome_ofRun _ _ _
        · rfl

section
variable {registers} {s rest : List Char} {c : Char}

theorem read_atom_nil (hs : Text.skipBlanks s = []) : read registers .atom s = .failed := by
  rw [read_atom, hs]

theorem read_atom_parenthesis (hs : Text.skipBlanks s = '(' :: rest) :
    read registers .atom s = closed (read registers .expression rest) := by
  rw [read_atom, hs]
  rfl

theorem read_atom_digit (hs : Text.skipBlanks s = c :: rest) (hd : c.isDigit = true) :
    read registers .atom s =
      ofRun (Word.ofNat? (Numeral.toNat (c :: rest.takeWhile Char.isDigit)))
        (rest.dropWhile Char.isDigit) := by
  rw [read_atom, hs]
  simp only [if_neg (ne_parenthesis_of_isDigit hd), if_pos hd]

theorem read_atom_name (hs : Text.skipBlanks s = c :: rest) (hn : isNameChar c = true) :
    read registers .atom s =
      ofRun (registers.get? (String.ofList (c :: rest.takeWhile isNameChar)))
        (rest.dropWhile isNameChar) := by
  have hd : ¬ c.isDigit = true := Bool.eq_false_iff.1 (isDigit_of_isNameChar hn)
  rw [read_atom, hs]
  simp only [if_neg (ne_parenthesis_of_isNameChar hn), if_neg hd, if_pos hn]

theorem read_atom_other (hs : Text.skipBlanks s = c :: rest) (hp : c ≠ '(')
    (hd : c.isDigit = false) (hn : isNameChar c = false) : read registers .atom s = .failed := by
  rw [read_atom, hs]
  simp [hp, hd, hn]

end

/-- Blanks in front of a text make no difference. -/
theorem read_skipBlanks (l : Level) (s : List Char) :
    read registers l (Text.skipBlanks s) = read registers l s := by
  have ha : read registers .atom (Text.skipBlanks s) = read registers .atom s := by
    rw [read_atom, read_atom, Text.skipBlanks_skipBlanks]
  have ht : read registers .term (Text.skipBlanks s) = read registers .term s := by
    rw [read_chain, read_chain]
    exact congrArg _ ha
  rcases l with _ | _ | _
  · exact ha
  · rw [read_chain, read_chain]
    exact congrArg _ ht
  · exact ht

end

end SinglePass

end Reckon
