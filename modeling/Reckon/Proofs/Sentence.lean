import Reckon.Proofs.Reading

/-!
# Sentences

What the grammar says, without a parser: a `Tree` is a derivation, and `Tree.Written t s` states
that `s` is the text of `t`, with any blanks before and after every token. `Tree.value?` computes
with words, from right to left as the tree is, and has no value if an operation or a number leaves
their range; `Tree.integer?` computes with integers. `integer?_of_value?`: the value, where there is one,
is the exact one.

The grammar is unambiguous (`Written.unique`): a text has at most one derivation. The proof
compares two derivations of texts that may go on, where `Level.Ends` says which texts a level does
not go on with.
-/

set_option autoImplicit false

namespace Reckon

/-- Characters of one class, and at least one. -/
structure IsRun (holds : Char → Bool) (s : List Char) : Prop where
  ne_nil : s ≠ []
  all : ∀ c ∈ s, holds c = true

theorem isRun_iff {holds : Char → Bool} {s : List Char} :
    IsRun holds s ↔ s ≠ [] ∧ s.all holds = true := by
  rw [List.all_eq_true]
  exact ⟨fun h => ⟨h.ne_nil, h.all⟩, fun h => ⟨h.1, h.2⟩⟩

instance (holds : Char → Bool) (s : List Char) : Decidable (IsRun holds s) :=
  decidable_of_iff _ isRun_iff.symm

theorem IsRun.exists_cons {holds : Char → Bool} {s : List Char} (h : IsRun holds s) :
    ∃ c t, s = c :: t ∧ holds c = true ∧ ∀ d ∈ t, holds d = true := by
  obtain ⟨hne, hall⟩ := h
  cases s with
  | nil => exact absurd rfl hne
  | cons c t => exact ⟨c, t, rfl, List.forall_mem_cons.1 hall⟩

theorem isRun_takeWhile {holds : Char → Bool} {c : Char} (hc : holds c = true) (s : List Char) :
    IsRun holds (c :: s.takeWhile holds) :=
  ⟨List.cons_ne_nil _ _, List.forall_mem_cons.2 ⟨hc, List.all_eq_true.1 List.all_takeWhile⟩⟩

/-- The derivations of a level. An expression is a chain of terms, a term a chain of atoms. -/
inductive Tree : Level → Type where
  /-- An operand, the operator, and the rest of the chain. -/
  | operation (op : Operator) (left : Tree op.operand) (right : Tree (.chain op)) :
      Tree (.chain op)
  | operand (op : Operator) (t : Tree op.operand) : Tree (.chain op)
  | parenthesized (inner : Tree .expression) : Tree .atom
  | number (digits : List Char) (run : IsRun Char.isDigit digits) : Tree .atom
  | register (letters : List Char) (run : IsRun isNameChar letters) : Tree .atom

/-- The exact value of an operation. -/
def Operator.exact : Operator → Int → Int → Int
  | plus => (· + ·)
  | times => (· * ·)

theorem Operator.combine_eq_some {op : Operator} {v w u : Word} :
    op.combine v w = some u ↔ u.val = op.exact v.val w.val := by
  cases op <;> exact Word.ofInt?_eq_some

namespace Tree

/-! ## Values -/

section
variable (registers : Registers)

/-- The value of a derivation, if all numbers and the values of all its parts are words and all
registers are bound. -/
def value? : {l : Level} → Tree l → Option Word
  | _, operation op left right =>
    (value? left).bind fun v => (value? right).bind fun w => op.combine v w
  | _, operand _ t => value? t
  | _, parenthesized inner => value? inner
  | _, number digits _ => Word.ofNat? (Numeral.toNat digits)
  | _, register letters _ => registers.get? (String.ofList letters)

/-- The value of a derivation in the integers, if all registers are bound. -/
def integer? : {l : Level} → Tree l → Option Int
  | _, operation op left right =>
    (integer? left).bind fun v => (integer? right).map fun w => op.exact v w
  | _, operand _ t => integer? t
  | _, parenthesized inner => integer? inner
  | _, number digits _ => some (Numeral.toNat digits)
  | _, register letters _ => (registers.get? (String.ofList letters)).map Word.val

end

/-- No value is wrapped or cut off. -/
theorem integer?_of_value? {registers : Registers} {l : Level} {t : Tree l} {v : Word}
    (h : t.value? registers = some v) : t.integer? registers = some v.val := by
  induction t generalizing v with
  | operation op left right ihl ihr =>
    simp only [value?, Option.bind_eq_some_iff] at h
    obtain ⟨a, ha, b, hb, hv⟩ := h
    rw [integer?, ihl ha, ihr hb, Operator.combine_eq_some.1 hv]
    rfl
  | operand op t ih => exact ih h
  | parenthesized inner ih => exact ih h
  | number digits run => exact congrArg some (Word.ofInt?_eq_some.1 h).symm
  | register letters run =>
    rw [integer?, show registers.get? (String.ofList letters) = some v from h]
    rfl

end Tree

/-! ## Texts -/

/-- `t` with any blanks before and after it. -/
def Padded (t s : List Char) : Prop :=
  ∃ w w', Text.AllBlank w ∧ Text.AllBlank w' ∧ s = w ++ t ++ w'

/-- The text of a derivation: its tokens in order, each with any blanks around it. -/
inductive Tree.Written : {l : Level} → Tree l → List Char → Prop
  | operation {op : Operator} {left : Tree op.operand} {right : Tree (.chain op)}
      {a b c : List Char} (hl : Written left a) (hop : Padded [op.mark] b)
      (hr : Written right c) : Written (.operation op left right) (a ++ b ++ c)
  | operand {op : Operator} {t : Tree op.operand} {a : List Char} (h : Written t a) :
      Written (.operand op t) a
  | parenthesized {inner : Tree .expression} {a b c : List Char} (ho : Padded ['('] a)
      (h : Written inner b) (hc : Padded [')'] c) : Written (.parenthesized inner) (a ++ b ++ c)
  | number {digits : List Char} {run : IsRun Char.isDigit digits} {a : List Char}
      (h : Padded digits a) : Written (.number digits run) a
  | register {letters : List Char} {run : IsRun isNameChar letters} {a : List Char}
      (h : Padded letters a) : Written (.register letters run) a

/-- What comes first in a token is what comes first after the blanks. -/
theorem Padded.skipBlanks {c : Char} {t a : List Char} (h : Padded (c :: t) a)
    (hc : Text.isBlank c = false) (rest : List Char) :
    ∃ w, Text.AllBlank w ∧ Text.skipBlanks (a ++ rest) = c :: (t ++ (w ++ rest)) := by
  obtain ⟨w, w', hw, hw', rfl⟩ := h
  refine ⟨w', hw', ?_⟩
  rw [List.append_assoc, List.append_assoc, Text.skipBlanks_append hw]
  simp [Text.skipBlanks, hc]

/-! ## What may follow -/

namespace Level

/-- The operators of a level and of the levels below. -/
def operators : Level → List Operator
  | atom => []
  | term => [.times]
  | expression => [.times, .plus]

theorem mem_operators (op : Operator) : op ∈ (chain op).operators := by
  cases op <;> decide

theorem operators_operand_subset (op : Operator) : op.operand.operators ⊆ (chain op).operators := by
  cases op <;> decide

/-- Neither the last run of a text of this level nor a chain can go on with `s`. -/
def Ends (l : Level) (s : List Char) : Prop :=
  ∀ c ∈ s.head?, Text.isBlank c = false ∧ c.isDigit = false ∧ isNameChar c = false ∧
    ∀ op ∈ l.operators, c ≠ op.mark

theorem ends_nil (l : Level) : l.Ends [] := fun _ h => nomatch h

theorem ends_mark {l : Level} {c : Char} (hc : c ∈ ['(', ')', '+', '*'])
    (hop : ∀ op ∈ l.operators, c ≠ op.mark) (s : List Char) : l.Ends (c :: s) := by
  rintro _ ⟨⟩
  obtain ⟨h1, h2, h3⟩ := classes_of_mark hc
  exact ⟨h1, h2, h3, hop⟩

theorem ends_close (l : Level) (s : List Char) : l.Ends (')' :: s) :=
  ends_mark (by decide) (by rcases l with _ | _ | _ <;> decide) s

theorem Ends.trimmed {l : Level} {s : List Char} (h : l.Ends s) : Text.Trimmed s :=
  fun c hc => (h c hc).1

/-- The operand of a chain ends where the operator comes next. -/
theorem ends_operator (op : Operator) (s : List Char) : op.operand.Ends (op.mark :: s) :=
  ends_mark (by cases op <;> decide) (by cases op <;> decide) s

theorem Ends.operand {op : Operator} {s : List Char} (h : (chain op).Ends s) :
    op.operand.Ends s := by
  intro c hc
  obtain ⟨h1, h2, h3, h4⟩ := h c hc
  exact ⟨h1, h2, h3, fun op' hop' => h4 op' (operators_operand_subset op hop')⟩

theorem not_ends_operator (op : Operator) (s : List Char) : ¬ (chain op).Ends (op.mark :: s) :=
  fun h => (h op.mark rfl).2.2.2 op (mem_operators op) rfl

theorem Ends.not_operator {op : Operator} {s : List Char} (h : (chain op).Ends s) :
    Text.after? op.mark s = none := by
  cases s with
  | nil => rfl
  | cons c s =>
    refine if_neg ?_
    rintro rfl
    exact not_ends_operator op s h

/-- What ends a level after some blanks ends a run at once. -/
theorem Ends.head {l : Level} {s : List Char} (h : l.Ends (Text.skipBlanks s)) :
    ∀ c ∈ s.head?, c.isDigit = false ∧ isNameChar c = false := by
  intro c hc
  cases hb : Text.isBlank c with
  | true => exact ⟨Text.isDigit_of_isBlank hb, isNameChar_of_isBlank hb⟩
  | false =>
    -- no blanks are skipped, so `h` is about `s` itself
    have htrim : Text.Trimmed s := fun d hd => by
      rw [Option.mem_unique hd hc]
      exact hb
    rw [Text.skipBlanks_of_trimmed htrim] at h
    exact ⟨(h c hc).2.1, (h c hc).2.2.1⟩

end Level

/-- No run of the class goes on with `s`, whatever blanks come first. -/
def RunEnds (holds : Char → Bool) (s : List Char) : Prop :=
  ∀ x, Text.skipBlanks x = Text.skipBlanks s → ∀ c ∈ x.head?, holds c = false

/-- A run as the first token, and where it ends. -/
theorem Padded.run {holds : Char → Bool} {cs a rest : List Char} (h : Padded cs a)
    (hrun : IsRun holds cs) (hb : ∀ {c}, holds c = true → Text.isBlank c = false)
    (hends : RunEnds holds rest) : ∃ c t x, cs = c :: t ∧ holds c = true ∧
      Text.skipBlanks (a ++ rest) = c :: (t ++ x) ∧ (t ++ x).takeWhile holds = t ∧
      (t ++ x).dropWhile holds = x ∧ Text.skipBlanks x = Text.skipBlanks rest := by
  obtain ⟨c, t, rfl, hc, ht⟩ := hrun.exists_cons
  obtain ⟨w, hw, hs⟩ := h.skipBlanks (hb hc) rest
  have hx := Text.skipBlanks_append hw rest
  obtain ⟨htake, hdrop⟩ := takeWhile_run ht (hends _ hx)
  exact ⟨c, t, w ++ rest, rfl, hc, hs, htake, hdrop, hx⟩

section
variable {l : Level} {rest : List Char} (h : l.Ends (Text.skipBlanks rest))
include h

theorem Level.Ends.digits : RunEnds Char.isDigit rest :=
  fun _ hx c hc => (Level.Ends.head (hx ▸ h) c hc).1

theorem Level.Ends.letters : RunEnds isNameChar rest :=
  fun _ hx c hc => (Level.Ends.head (hx ▸ h) c hc).2

end

/-- An operator as the first token: it ends the operand in front of it. -/
theorem Padded.operator {op : Operator} {a : List Char} (h : Padded [op.mark] a)
    (s : List Char) : ∃ w, Text.AllBlank w ∧ Text.skipBlanks (a ++ s) = op.mark :: (w ++ s) ∧
      op.operand.Ends (Text.skipBlanks (a ++ s)) := by
  obtain ⟨w, hw, ha⟩ := h.skipBlanks (by cases op <;> decide) s
  refine ⟨w, hw, ha, ?_⟩
  rw [ha]
  exact Level.ends_operator op _

theorem Padded.ends_close {a : List Char} (h : Padded [')'] a) {l : Level} (s : List Char) :
    l.Ends (Text.skipBlanks (a ++ s)) := by
  obtain ⟨w, -, ha⟩ := h.skipBlanks (by decide) s
  rw [ha]
  exact Level.ends_close l _

/-! ## Unambiguity -/

section
variable {a a' rest rest' : List Char}

theorem Padded.mark_cancel {c : Char} (h : Padded [c] a) (h' : Padded [c] a')
    (hc : Text.isBlank c = false)
    (e : Text.skipBlanks (a ++ rest) = Text.skipBlanks (a' ++ rest')) :
    Text.skipBlanks rest = Text.skipBlanks rest' := by
  obtain ⟨w, hw, ha⟩ := h.skipBlanks hc rest
  obtain ⟨w', hw', ha'⟩ := h'.skipBlanks hc rest'
  rw [ha, ha'] at e
  have e := congrArg Text.skipBlanks (List.cons.inj e).2
  simpa only [List.nil_append, Text.skipBlanks_append hw, Text.skipBlanks_append hw'] using e

/-- The same text begins with the same run of a class. -/
theorem Padded.run_unique {holds : Char → Bool} {cs cs' : List Char} (h : Padded cs a)
    (h' : Padded cs' a') (hrun : IsRun holds cs) (hrun' : IsRun holds cs')
    (hb : ∀ {c}, holds c = true → Text.isBlank c = false)
    (hr : RunEnds holds rest) (hr' : RunEnds holds rest')
    (e : Text.skipBlanks (a ++ rest) = Text.skipBlanks (a' ++ rest')) :
    cs = cs' ∧ Text.skipBlanks rest = Text.skipBlanks rest' := by
  obtain ⟨c, t, x, rfl, -, hs, htake, hdrop, hx⟩ := h.run hrun hb hr
  obtain ⟨c', t', x', rfl, -, hs', htake', hdrop', hx'⟩ := h'.run hrun' hb hr'
  rw [hs, hs'] at e
  obtain ⟨hc, ht⟩ := List.cons.inj e
  rw [ht, htake'] at htake
  rw [ht, hdrop'] at hdrop
  subst hc htake hdrop
  exact ⟨rfl, hx.symm.trans hx'⟩

end

/-- The three forms of an atom. -/
inductive Shape where
  | parenthesized
  | number
  | register

/-- The form of the atoms that start with a character. -/
def Shape.of (c : Char) : Shape :=
  if c = '(' then parenthesized else if c.isDigit then number else register

namespace Tree

def shape : Tree .atom → Shape
  | parenthesized _ => .parenthesized
  | number _ _ => .number
  | register _ _ => .register

theorem Written.shape_eq {t : Tree .atom} {a : List Char} (h : t.Written a) (rest : List Char) :
    ∃ c x, Text.skipBlanks (a ++ rest) = c :: x ∧ t.shape = .of c := by
  cases h with
  | @parenthesized inner a b c ho h hc =>
    obtain ⟨w, -, hs⟩ := ho.skipBlanks (by decide) (b ++ (c ++ rest))
    rw [List.append_assoc, List.append_assoc]
    exact ⟨_, _, hs, rfl⟩
  | @number digits run a h =>
    obtain ⟨d, u, rfl, hd, -⟩ := run.exists_cons
    obtain ⟨w, -, hs⟩ := h.skipBlanks (Text.isBlank_of_isDigit hd) rest
    refine ⟨_, _, hs, ?_⟩
    rw [shape, Shape.of, if_neg (ne_parenthesis_of_isDigit hd), if_pos hd]
  | @register letters run a h =>
    obtain ⟨d, u, rfl, hn, -⟩ := run.exists_cons
    obtain ⟨w, -, hs⟩ := h.skipBlanks (isBlank_of_isNameChar hn) rest
    have hd : ¬ d.isDigit = true := Bool.eq_false_iff.1 (isDigit_of_isNameChar hn)
    refine ⟨_, _, hs, ?_⟩
    rw [shape, Shape.of, if_neg (ne_parenthesis_of_isNameChar hn), if_neg hd]

theorem Written.shape_unique {t t' : Tree .atom} {a a' rest rest' : List Char} (h : t.Written a)
    (h' : t'.Written a') (e : Text.skipBlanks (a ++ rest) = Text.skipBlanks (a' ++ rest')) :
    t.shape = t'.shape := by
  obtain ⟨c, x, hs, ht⟩ := h.shape_eq rest
  obtain ⟨c', x', hs', ht'⟩ := h'.shape_eq rest'
  rw [ht, ht', (List.cons.inj (hs.symm.trans (e.trans hs'))).1]

/-- Two derivations of a level are the same, and so is what comes after their texts, if the texts
go on in a way that ends the level. -/
theorem Written.unique_of_ends {l : Level} {t t' : Tree l} {a a' rest rest' : List Char}
    (h : t.Written a) (h' : t'.Written a') (hr : l.Ends (Text.skipBlanks rest))
    (hr' : l.Ends (Text.skipBlanks rest'))
    (e : Text.skipBlanks (a ++ rest) = Text.skipBlanks (a' ++ rest')) :
    t = t' ∧ Text.skipBlanks rest = Text.skipBlanks rest' := by
  induction h generalizing a' rest rest' with
  | @operation op left right a b c hl hop hright ihl ihr =>
    obtain ⟨w, -, hb, hend⟩ := hop.operator (c ++ rest)
    simp only [List.append_assoc] at e
    cases h' with
    | @operation _ left' right' a' b' c' hl' hop' hright' =>
      obtain ⟨w', -, hb', hend'⟩ := hop'.operator (c' ++ rest')
      simp only [List.append_assoc] at e
      obtain ⟨rfl, e⟩ := ihl hl' hend hend' e
      have e := hop.mark_cancel hop' (by cases op <;> decide) e
      obtain ⟨rfl, e⟩ := ihr hright' hr hr' e
      exact ⟨rfl, e⟩
    | operand h' =>
      -- the operator would come next after the operand alone
      obtain ⟨-, e⟩ := ihl h' hend hr'.operand e
      rw [← e, hb] at hr'
      exact absurd hr' (Level.not_ends_operator op _)
  | @operand op t a ht ih =>
    cases h' with
    | @operation _ left' right' a' b' c' hl' hop' hright' =>
      obtain ⟨w', -, hb', hend'⟩ := hop'.operator (c' ++ rest')
      simp only [List.append_assoc] at e
      obtain ⟨-, e⟩ := ih hl' hr.operand hend' e
      rw [e, hb'] at hr
      exact absurd hr (Level.not_ends_operator op _)
    | operand h' =>
      obtain ⟨rfl, e⟩ := ih h' hr.operand hr'.operand e
      exact ⟨rfl, e⟩
  | @parenthesized inner a b c ho h hc ih =>
    -- the other derivation is of the same form, as it starts with the same character
    have hshape := (Written.parenthesized ho h hc).shape_unique h' e
    cases h' with
    | @parenthesized inner' a' b' c' ho' h' hc' =>
      simp only [List.append_assoc] at e
      have e := ho.mark_cancel ho' (by decide) e
      obtain ⟨rfl, e⟩ := ih h' (hc.ends_close rest) (hc'.ends_close rest') e
      exact ⟨rfl, hc.mark_cancel hc' (by decide) e⟩
    | number h' => cases hshape
    | register h' => cases hshape
  | @number digits run a h =>
    have ht : Written (.number digits run) a := .number h
    have hshape := ht.shape_unique h' e
    cases h' with
    | parenthesized ho' h' hc' => cases hshape
    | @number _ run' _ h' =>
      obtain ⟨rfl, e⟩ := h.run_unique h' run run' Text.isBlank_of_isDigit hr.digits hr'.digits e
      exact ⟨rfl, e⟩
    | register h' => cases hshape
  | @register letters run a h =>
    have ht : Written (.register letters run) a := .register h
    have hshape := ht.shape_unique h' e
    cases h' with
    | parenthesized ho' h' hc' => cases hshape
    | number h' => cases hshape
    | @register _ run' _ h' =>
      obtain ⟨rfl, e⟩ := h.run_unique h' run run' isBlank_of_isNameChar hr.letters hr'.letters e
      exact ⟨rfl, e⟩

/-- A text has at most one derivation. -/
theorem Written.unique {l : Level} {t t' : Tree l} {a : List Char} (h : t.Written a)
    (h' : t'.Written a) : t = t' := by
  have hnil : l.Ends (Text.skipBlanks []) := l.ends_nil
  exact (h.unique_of_ends h' hnil hnil rfl).1

end Tree

end Reckon
