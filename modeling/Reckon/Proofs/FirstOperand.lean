import Reckon.Proofs.Boundary
import Reckon.Proofs.Descent
import Reckon.Proofs.Evaluation

/-!
# Texts that nothing is read of

Reading fails exactly where there is no operand to begin with. `Grammar.NoOperand` says what that
means, in terms of the text and, for a parenthesis, of what is read behind it. It is a matter of the
atom alone (`read_atom_eq_failed_iff`): the levels above fail where the atom does
(`read_eq_failed_iff`), since an operation that cannot be finished falls back to its left operand.

The alternatives of an atom start with different characters, so that on any text at most one of them
matches, and their order makes no difference (`parse_eq_foldl`, `foldl_orElse_of_perm`).

Main result: `Evaluator.noMatch_iff_noOperand`.
-/

set_option autoImplicit false

namespace Reckon

open Reckon.Parser Reckon.SinglePass
open Text (skipBlanks after?)

/-! ## Why there is no operand -/

theorem Text.after?_eq_none {c : Char} {s : List Char} : after? c s = none ↔ s.head? ≠ some c := by
  cases s with
  | nil => simp [after?]
  | cons d s => simp [after?]

/-- The text does not begin with an operand. -/
inductive Grammar.NoOperand (registers : Registers) (s : List Char) : Prop
  /-- There are only blanks. -/
  | nothing (h : skipBlanks s = [])
  /-- No operand starts with the first character. -/
  | other {c : Char} {t : List Char} (h : skipBlanks s = c :: t) (hp : c ≠ '(')
      (hd : c.isDigit = false) (hn : isNameChar c = false)
  /-- The number is no word. -/
  | number {digits t : List Char} (h : skipBlanks s = digits ++ t)
      (hrun : IsMaximalRun Char.isDigit [] digits t)
      (big : 9223372036854775807 < Numeral.toNat digits)
  /-- No register has the name. -/
  | register {letters t : List Char} (h : skipBlanks s = letters ++ t)
      (hrun : IsMaximalRun isNameChar [] letters t)
      (unbound : registers.get? (String.ofList letters) = none)
  /-- Nothing is read behind the parenthesis. -/
  | empty {t : List Char} (h : skipBlanks s = '(' :: t)
      (hread : Grammar.parse registers (Grammar.expression registers) t = .failed)
  /-- What is read behind the parenthesis is not followed by a closing one. -/
  | unclosed {t rest : List Char} {v : Word} (h : skipBlanks s = '(' :: t)
      (hread : Grammar.parse registers (Grammar.expression registers) t = .matched v rest)
      (hrest : rest.head? ≠ some ')')

section
variable {registers : Registers} {s : List Char}

open Grammar (NoOperand)

/-- A run that comes first, with its value if it has one. -/
theorem skipBlanks_eq_run {holds : Char → Bool} {run t : List Char} (h : skipBlanks s = run ++ t)
    (hrun : IsMaximalRun holds [] run t) : ∃ c u, run = c :: u ∧ holds c = true ∧
      skipBlanks s = c :: (u ++ t) ∧ (u ++ t).takeWhile holds = u ∧
      (u ++ t).dropWhile holds = t := by
  obtain ⟨c, u, rfl, hc, hu⟩ := hrun.run.exists_cons
  obtain ⟨htake, hdrop⟩ := takeWhile_run hu hrun.right
  exact ⟨c, u, rfl, hc, h, htake, hdrop⟩

theorem read_of_noOperand (h : NoOperand registers s) : read registers .atom s = .failed := by
  cases h with
  | nothing h => exact read_atom_nil h
  | other h hp hd hn => exact read_atom_other h hp hd hn
  | number h hrun big =>
    obtain ⟨c, u, rfl, hc, hs, htake, hdrop⟩ := skipBlanks_eq_run h hrun
    have hnone : Word.ofNat? (Numeral.toNat (c :: u)) = none :=
      Word.ofInt?_eq_none.2 (.inr (by omega))
    rw [read_atom_digit hs hc, htake, hnone]
    rfl
  | register h hrun unbound =>
    obtain ⟨c, u, rfl, hc, hs, htake, hdrop⟩ := skipBlanks_eq_run h hrun
    rw [read_atom_name hs hc, htake, unbound]
    rfl
  | empty h hread =>
    have hread : read registers .expression _ = .failed :=
      (parse_level .expression _).symm.trans hread
    rw [read_atom_parenthesis h, hread]
    rfl
  | unclosed h hread hrest =>
    have hread : read registers .expression _ = .matched _ _ :=
      (parse_level .expression _).symm.trans hread
    rw [read_atom_parenthesis h, hread, closed, Text.after?_eq_none.2 hrest]
    rfl

theorem noOperand_of_read (h : read registers .atom s = .failed) : NoOperand registers s := by
  cases hs : skipBlanks s with
  | nil => exact .nothing hs
  | cons c t =>
    by_cases hp : c = '('
    · subst hp
      rw [read_atom_parenthesis hs] at h
      cases hr : read registers .expression t with
      | failed => exact .empty hs ((parse_level .expression t).trans hr)
      | matched v rest =>
        refine .unclosed hs ((parse_level .expression t).trans hr) (Text.after?_eq_none.1 ?_)
        rw [hr, closed] at h
        cases ha : after? ')' rest with
        | none => rfl
        | some last => rw [ha] at h; cases h
    by_cases hd : c.isDigit = true
    · rw [read_atom_digit hs hd] at h
      refine .number (t := t.dropWhile Char.isDigit) ?_ (isMaximalRun_takeWhile hd t) ?_
      · rw [hs, List.cons_append, List.takeWhile_append_dropWhile]
      · cases hv : Word.ofNat? (Numeral.toNat (c :: t.takeWhile Char.isDigit)) with
        | some v => rw [hv] at h; cases h
        | none =>
          have hv := Word.ofInt?_eq_none.1 hv
          omega
    by_cases hn : isNameChar c = true
    · rw [read_atom_name hs hn] at h
      refine .register (t := t.dropWhile isNameChar) ?_ (isMaximalRun_takeWhile hn t) ?_
      · rw [hs, List.cons_append, List.takeWhile_append_dropWhile]
      · cases hv : registers.get? (String.ofList (c :: t.takeWhile isNameChar)) with
        | some v => rw [hv] at h; cases h
        | none => rfl
    · exact .other hs hp (Bool.eq_false_iff.2 hd) (Bool.eq_false_iff.2 hn)

theorem read_atom_eq_failed_iff : read registers .atom s = .failed ↔ NoOperand registers s :=
  ⟨noOperand_of_read, read_of_noOperand⟩

/-! ## The levels above the atom -/

/-- An operation that cannot be finished falls back to its left operand. -/
theorem continued_eq_failed_iff {op : Operator} {right : List Char → Outcome Word}
    {o : Outcome Word} : continued op right o = .failed ↔ o = .failed := by
  cases o with
  | failed => exact ⟨id, id⟩
  | matched v rest =>
    cases ha : after? op.mark rest with
    | none => simp [continued, ha]
    | some t =>
      cases hr : right t with
      | failed => simp [continued, ha, hr]
      | matched w last => cases hu : op.combine v w <;> simp [continued, ha, hr, hu]

theorem read_eq_failed_iff (l : Level) : read registers l s = .failed ↔ NoOperand registers s := by
  have hterm : read registers .term s = .failed ↔ NoOperand registers s := by
    rw [read_chain, continued_eq_failed_iff]
    exact read_atom_eq_failed_iff
  rcases l with _ | _ | _
  · exact read_atom_eq_failed_iff
  · rw [read_chain, continued_eq_failed_iff]
    exact hterm
  · exact hterm

end

/-! ## Alternatives -/

namespace Outcome

variable {α : Type}

/-- The first one, if it matches, or else the second one. -/
def orElse : Outcome α → Outcome α → Outcome α
  | failed, o => o
  | o, _ => o

theorem orElse_failed (o : Outcome α) : o.orElse failed = o := by
  cases o <;> rfl

/-- At most one of the two is a match. -/
def Exclusive (o o' : Outcome α) : Prop := o = failed ∨ o' = failed

instance : Std.Symm (Exclusive (α := α)) := ⟨fun _ _ => Or.symm⟩

theorem orElse_right_comm {o o' : Outcome α} (h : Exclusive o o') (z : Outcome α) :
    (z.orElse o).orElse o' = (z.orElse o').orElse o := by
  obtain rfl | rfl := h
  · rw [orElse_failed, orElse_failed]
  · rw [orElse_failed, orElse_failed]

/-- Where at most one of some outcomes is a match, their order makes no difference. -/
theorem foldl_orElse_of_perm {os os' : List (Outcome α)} (h : os.Perm os')
    (hos : os.Pairwise Exclusive) : os.foldl orElse failed = os'.foldl orElse failed := by
  refine h.foldl_eq' (fun o ho o' ho' => ?_) failed
  by_cases heq : o = o'
  · subst heq
    exact fun _ => rfl
  · exact orElse_right_comm (hos.forall ho ho' heq)

end Outcome

namespace Grammar

section
variable {registers : Registers} {s : List Char}

/-- What an atom chooses from. -/
def alternatives (registers : Registers) : List (Parser Rule Word) :=
  [parenthesized, .token naturalNumber, .token (registerName registers)]

theorem descends_alternative {p : Parser Rule Word} (hp : p ∈ alternatives registers) :
    Descends (rules registers) p := by
  intro depth s β r t h
  have hinner : Throughout (unroll (rules registers) depth) ⟨p, s⟩ (Inner s 1) := by
    simp only [alternatives, List.mem_cons, List.not_mem_nil, or_false] at hp
    obtain rfl | rfl | rfl := hp
    · exact throughout_parenthesized Nat.one_pos
    · exact throughout_inner_plain Nat.one_pos plain_number s
    · exact throughout_inner_plain Nat.one_pos (plain_name registers) s
  exact (hinner _ h).shorter r t rfl

/-- A choice between three alternatives, in any order, gives the first match. -/
theorem parse_eq_foldl {p q r : Parser Rule Word} (hp : p ∈ alternatives registers)
    (hq : q ∈ alternatives registers) (hr : r ∈ alternatives registers) :
    parse registers (.choice (.choice p q) r) s =
      ([p, q, r].map fun x => parse registers x s).foldl .orElse .failed := by
  have hrun : ∀ x ∈ alternatives registers,
      denote (unroll (rules registers) s.length) x s = some (parse registers x s) := fun x hx =>
    run_eq_parse (descends_alternative hx) (Nat.le_refl _)
  rw [parse, run]
  simp only [denote, hrun p hp, hrun q hq, hrun r hr, List.map_cons, List.map_nil,
    List.foldl_cons, List.foldl_nil]
  cases parse registers p s <;> cases parse registers q s <;> rfl

theorem parse_parenthesized_eq_failed (h : ∀ c ∈ (skipBlanks s).head?, c ≠ '(') :
    parse registers parenthesized s = .failed := by
  rw [parse, run, denote_parenthesized_failed h]
  rfl

theorem parse_lexeme_eq_failed {holds : Char → Bool} (value? : List Char → Option Word)
    (h : ∀ c ∈ (skipBlanks s).head?, holds c = false) :
    parse registers
      (.token (.bind (.many1 (.satisfies holds)) fun cs => .ofOption (value? cs))) s = .failed := by
  rw [parse, run, denote_token_lexeme_failed value? h]
  rfl

/-- The first character after the blanks leaves one alternative at most. -/
theorem pairwise_alternatives (registers : Registers) (s : List Char) :
    (alternatives registers).Pairwise fun p q =>
      (parse registers p s).Exclusive (parse registers q s) := by
  have hnumber : (∀ c ∈ (skipBlanks s).head?, c.isDigit = false) →
      parse registers (.token naturalNumber) s = .failed := parse_lexeme_eq_failed _
  have hname : (∀ c ∈ (skipBlanks s).head?, isNameChar c = false) →
      parse registers (.token (registerName registers)) s = .failed := parse_lexeme_eq_failed _
  have hopen : (skipBlanks s).head? = some '(' ∨ parse registers parenthesized s = .failed := by
    by_cases h : (skipBlanks s).head? = some '('
    · exact .inl h
    · refine .inr (parse_parenthesized_eq_failed ?_)
      rintro c hc rfl
      exact h hc
  have hmark := classes_of_mark (c := '(') (by decide)
  simp only [alternatives, List.pairwise_cons, List.mem_cons, List.not_mem_nil, or_false,
    forall_eq_or_imp, forall_eq]
  refine ⟨⟨?_, ?_⟩, ?_, by simp⟩
  · refine hopen.symm.imp_right fun h => hnumber ?_
    rw [h]
    rintro _ ⟨⟩
    exact hmark.2.1
  · refine hopen.symm.imp_right fun h => hname ?_
    rw [h]
    rintro _ ⟨⟩
    exact hmark.2.2
  · cases hs : (skipBlanks s).head? with
    | none => exact .inl (hnumber (by simp [hs]))
    | some c =>
      cases hd : c.isDigit with
      | false => exact .inl (hnumber (by simpa [hs] using hd))
      | true => exact .inr (hname (by simpa [hs] using isNameChar_of_isDigit hd))

theorem parse_choice_of_perm {p q r : Parser Rule Word}
    (h : [p, q, r].Perm (alternatives registers)) :
    parse registers (.choice (.choice p q) r) s = parse registers (atom registers) s := by
  have hmem : ∀ x ∈ [p, q, r], x ∈ alternatives registers := fun x hx => h.subset hx
  have hatom : parse registers (atom registers) s =
      ((alternatives registers).map fun x => parse registers x s).foldl .orElse .failed :=
    parse_eq_foldl (by simp [alternatives]) (by simp [alternatives]) (by simp [alternatives])
  rw [hatom, parse_eq_foldl (hmem p (by simp)) (hmem q (by simp)) (hmem r (by simp))]
  refine (Outcome.foldl_orElse_of_perm (h.map _).symm ?_).symm
  exact List.pairwise_map.2 (pairwise_alternatives registers s)

end

end Grammar

/-! ## Evaluation -/

namespace Evaluator

open Grammar

theorem evaluate_eq_noMatch_iff {e : Evaluator} {source : String} :
    e.evaluate source = .error .noMatch ↔ e.parse source = .failed := by
  unfold evaluate
  cases e.parse source with
  | failed => simp
  | matched v rest =>
    simp only [reduceCtorEq, iff_false]
    split <;> simp

/-- An operand is read, whatever comes behind the operator that follows it. -/
theorem read_operand_operator {registers : Registers} {a : List Char} {v : Word}
    (h : read registers .atom a = .matched v []) (op : Operator) (t : List Char) :
    read registers .atom (a ++ op.mark :: t) = .matched v (op.mark :: t) := by
  refine read_append h ?_
  have hends : op.operand.Ends (op.mark :: t) := Level.ends_operator op t
  cases op with
  | plus => exact hends.operand
  | times => exact hends

/-- A text has no match, on any level and in either mode, if and only if it does not begin with an
operand. The alternatives of an operand exclude each other. Behind an operand and an operator
anything may come: an operand that is missing, malformed or too large. -/
theorem noMatch_iff_noOperand (registers : Registers) (source : String) :
    (∀ l : Level, Grammar.parse registers (l.parser registers) source.toList = .failed ↔
      NoOperand registers source.toList) ∧
    (∀ mode, ({ registers, mode } : Evaluator).evaluate source = .error .noMatch ↔
      NoOperand registers source.toList) ∧
    ((alternatives registers).Pairwise fun p q =>
      (Grammar.parse registers p source.toList).Exclusive
        (Grammar.parse registers q source.toList)) ∧
    (∀ p q r, [p, q, r].Perm (alternatives registers) →
      Grammar.parse registers (.choice (.choice p q) r) source.toList =
        Grammar.parse registers (atom registers) source.toList) ∧
    ∀ v, Grammar.parse registers (atom registers) source.toList = .matched v [] →
      ∀ (op : Operator) (tail : String) (mode : Mode),
        ({ registers, mode } : Evaluator).evaluate (source.push op.mark ++ tail) ≠
          .error .noMatch := by
  have hlevel : ∀ (l : Level) (s : List Char),
      Grammar.parse registers (l.parser registers) s = .failed ↔ NoOperand registers s := by
    intro l s
    rw [parse_level]
    exact read_eq_failed_iff l
  have hmode : ∀ (mode : Mode) (source : String),
      ({ registers, mode } : Evaluator).evaluate source = .error .noMatch ↔
        NoOperand registers source.toList := fun mode source =>
    evaluate_eq_noMatch_iff.trans (hlevel .expression source.toList)
  refine ⟨fun l => hlevel l _, fun mode => hmode mode source, pairwise_alternatives _ _,
    fun p q r => parse_choice_of_perm, fun v hv op tail mode hfail => ?_⟩
  have hoperand := read_operand_operator ((parse_level .atom _).symm.trans hv) op tail.toList
  have hno : read registers .atom (source.push op.mark ++ tail).toList = .failed :=
    read_atom_eq_failed_iff.2 ((hmode mode _).1 hfail)
  rw [String.toList_append, String.toList_push, List.append_assoc, List.singleton_append,
    hoperand] at hno
  cases hno

/-- Inside the parentheses the sum falls back to `1`, and is not followed by a closing one. Without
parentheses the same fallback is no failure. -/
theorem noMatch_iff_noOperand_unclosed :
    let parse {α : Type} (p : Parser Rule α) := Grammar.parse .standard p "(1+*2)".toList
    NoOperand .standard "(1+*2)".toList ∧
      ({} : Evaluator).evaluate "(1+*2)" = .error .noMatch ∧
      parse (.choice (.choice (.token (registerName .standard)) (.token naturalNumber))
        parenthesized) = parse (atom .standard) ∧
      ({} : Evaluator).evaluate ("1".push '+' ++ "*2") ≠ .error .noMatch := by
  intro parse
  obtain ⟨-, hmode, -, horder, -⟩ := noMatch_iff_noOperand .standard "(1+*2)"
  obtain ⟨-, -, -, -, hbehind⟩ := noMatch_iff_noOperand .standard "1"
  have hread : Grammar.parse .standard (expression .standard) "1+*2)".toList =
      .matched 1 "+*2)".toList := by decide +kernel
  have hno : NoOperand .standard "(1+*2)".toList :=
    .unclosed (t := "1+*2)".toList) (by decide +kernel) hread (by decide)
  have hperm : [.token (registerName .standard), .token naturalNumber, parenthesized].Perm
      (alternatives .standard) := List.reverse_perm (alternatives .standard)
  have hone : Grammar.parse .standard (atom .standard) "1".toList = .matched 1 [] := by
    decide +kernel
  exact ⟨hno, (hmode .lenient).2 hno, horder _ _ _ hperm, hbehind 1 hone .plus "*2" .lenient⟩

end Evaluator

end Reckon
