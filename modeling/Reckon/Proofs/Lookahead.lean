import Reckon.Proofs.Evaluation

/-!
# How far reading looks ahead

Reading stops at a character that cannot continue what was read, and does not look behind it. Where
an operation falls back to its left operand, the operator is left, and what comes behind it has been
looked at. So if something else than an operator is left, no operation fell back on the way, not in
parentheses either, where a fallback leaves no room for the closing one (`read_append_of_stops`, by
induction on the level and the text). Then any text may come behind the rest.

If nothing is left, reading went on to the end of the text; the text that comes behind it must not
continue it (`read_append`).

Main result: `Grammar.parse_append_behind`.
-/

set_option autoImplicit false

namespace Reckon

open Text (skipBlanks after?)

/-! ## Characters that stop a level -/

/-- A character comes first that is no operator of the level. -/
def Level.Stops (l : Level) (s : List Char) : Prop :=
  ∃ c t, s = c :: t ∧ ∀ op ∈ l.operators, c ≠ op.mark

namespace Level

theorem Stops.ne_nil {l : Level} {s : List Char} (h : l.Stops s) : s ≠ [] := by
  obtain ⟨c, t, rfl, -⟩ := h
  exact List.cons_ne_nil c t

theorem stops_close (l : Level) (s : List Char) : l.Stops (')' :: s) :=
  ⟨')', s, rfl, by rcases l with _ | _ | _ <;> decide⟩

/-- The operand of a chain stops at the operator. -/
theorem stops_operator (op : Operator) (s : List Char) : op.operand.Stops (op.mark :: s) :=
  ⟨op.mark, s, rfl, by cases op <;> decide⟩

theorem Stops.operand {op : Operator} {s : List Char} (h : (chain op).Stops s) :
    op.operand.Stops s := by
  obtain ⟨c, t, rfl, hc⟩ := h
  exact ⟨c, t, rfl, fun op' hop' => hc op' (operators_operand_subset op hop')⟩

theorem Stops.not_operator {op : Operator} {s : List Char} (h : (chain op).Stops s)
    (t : List Char) : after? op.mark (s ++ t) = none := by
  obtain ⟨c, s, rfl, hc⟩ := h
  exact if_neg (hc op (mem_operators op))

end Level

/-! ## Texts that go on -/

theorem Text.after?_append {c : Char} {s t : List Char} (h : after? c s = some t) (ht : t ≠ [])
    (z : List Char) : after? c (s ++ z) = some (t ++ z) := by
  obtain ⟨rest, rfl, rfl⟩ := Text.after?_eq_some h
  rw [List.cons_append, after?, if_pos rfl, Text.skipBlanks_append_of_ne_nil ht]

/-- A run that does not reach the end of the text is the same if the text goes on. -/
theorem takeWhile_append_of_skipBlanks {holds : Char → Bool} {s : List Char}
    (h : skipBlanks (s.dropWhile holds) ≠ []) (t : List Char) :
    (s ++ t).takeWhile holds = s.takeWhile holds ∧
      skipBlanks ((s ++ t).dropWhile holds) = skipBlanks (s.dropWhile holds) ++ t := by
  have hdrop : s.dropWhile holds ≠ [] := by
    intro hnil
    rw [hnil] at h
    exact h rfl
  have htake : (s.takeWhile holds).length ≠ s.length := by
    intro hlen
    have hsum := congrArg List.length (List.takeWhile_append_dropWhile (p := holds) (l := s))
    rw [List.length_append, hlen] at hsum
    exact hdrop (List.eq_nil_of_length_eq_zero (by omega))
  constructor
  · rw [List.takeWhile_append, if_neg htake]
  · rw [List.dropWhile_append, if_neg (by simpa using hdrop), Text.skipBlanks_append_of_ne_nil h]

/-! ## Reading -/

namespace SinglePass

variable {registers : Registers}

/-- A run that does not reach the end of the text, with its value and what comes after the blanks. -/
theorem ofRun_append {holds : Char → Bool} {value? : Option Word} {s rest : List Char} {v : Word}
    (h : ofRun value? (s.dropWhile holds) = .matched v rest) (hrest : rest ≠ []) (t : List Char) :
    (s ++ t).takeWhile holds = s.takeWhile holds ∧
      ofRun value? ((s ++ t).dropWhile holds) = .matched v (rest ++ t) := by
  obtain ⟨rfl, rfl⟩ := ofRun_eq_matched h
  obtain ⟨htake, hdrop⟩ := takeWhile_append_of_skipBlanks hrest t
  refine ⟨htake, ?_⟩
  rw [← hdrop]
  rfl

/-- What was read in front of a character that stops the level is read alike, and leaves that
character, whatever comes behind it. -/
theorem read_append_of_stops {l : Level} {s rest : List Char} {v : Word}
    (h : read registers l s = .matched v rest) (hrest : l.Stops rest) (t : List Char) :
    read registers l (s ++ t) = .matched v (rest ++ t) := by
  induction l, s using Level.induct generalizing v rest with
  | hatom s ih =>
    cases hs : skipBlanks s with
    | nil => rw [read_atom_nil hs] at h; cases h
    | cons c x =>
      have hst : skipBlanks (s ++ t) = c :: (x ++ t) := by
        rw [Text.skipBlanks_append_of_ne_nil (by simp [hs]), hs, List.cons_append]
      by_cases hp : c = '('
      · subst hp
        rw [read_atom_parenthesis hs] at h
        obtain ⟨y, hy, hclose⟩ := closed_eq_matched h
        obtain ⟨z, rfl, -⟩ := Text.after?_eq_some hclose
        -- the expression was left in front of the closing parenthesis, so it stopped there
        have hinner := ih x (Text.length_lt_of_skipBlanks hs) hy (Level.stops_close _ z)
        rw [read_atom_parenthesis hst, hinner, closed, Text.after?_append hclose hrest.ne_nil]
        rfl
      by_cases hd : c.isDigit = true
      · rw [read_atom_digit hs hd] at h
        obtain ⟨htake, hrun⟩ := ofRun_append h hrest.ne_nil t
        rw [read_atom_digit hst hd, htake]
        exact hrun
      by_cases hn : isNameChar c = true
      · rw [read_atom_name hs hn] at h
        obtain ⟨htake, hrun⟩ := ofRun_append h hrest.ne_nil t
        rw [read_atom_name hst hn, htake]
        exact hrun
      · rw [read_atom_other hs hp (Bool.eq_false_iff.2 hd) (Bool.eq_false_iff.2 hn)] at h
        cases h
  | hchain op s ihl ihr =>
    rw [read_chain] at h
    rw [read_chain]
    rcases continued_eq_matched h with h | ⟨a, x, y, w, hx, hy, hw, hv⟩
    -- the operator does not come behind the operand, so it was not tried and taken back
    · rw [ihl h hrest.operand]
      exact continued_of_not_operator (hrest.not_operator t)
    · obtain ⟨z, rfl, -⟩ := Text.after?_eq_some hy
      have hlt : y.length < s.length := Nat.lt_trans (Text.length_after? hy) (read_shorter hx)
      have hne : y ≠ [] := by
        rintro rfl
        exact Nat.not_lt_zero _ (read_shorter hw)
      rw [ihl hx (Level.stops_operator op z)]
      exact continued_operation (Text.after?_append hy hne t) (ihr y hlt hw hrest) hv

end SinglePass

/-! ## Parsing -/

namespace Grammar

open SinglePass

/-- If a character is left that is no operator, any text may come behind it. If nothing is left, any
text may that does not continue what was read: it starts with no blank, digit, letter of a name or
operator. The value stays the same, and all of the text that comes behind is left. -/
theorem parse_append_behind {registers : Registers} {l : Level} {s rest : List Char} {v : Word}
    (h : parse registers (l.parser registers) s = .matched v rest) (t : List Char) :
    (l.Stops rest → parse registers (l.parser registers) (s ++ t) = .matched v (rest ++ t)) ∧
    (rest = [] → l.Ends t → parse registers (l.parser registers) (s ++ t) = .matched v t) := by
  rw [parse_level] at h
  rw [parse_level]
  refine ⟨fun hrest => read_append_of_stops h hrest t, fun hnil ht => ?_⟩
  subst hnil
  exact read_append h ht

/-- The digit that is left behind the blank goes on, and so does the text behind a parenthesis that
was never opened. -/
theorem parse_append_behind_digit :
    let parse := Grammar.parse .standard (Level.expression.parser .standard)
    (parse "2*(1+ONE) 3".toList = .matched 4 "3".toList ∧
      parse ("2*(1+ONE) 3".toList ++ "4+5".toList) = .matched 4 ("3".toList ++ "4+5".toList)) ∧
    (parse "TWO*3 ".toList = .matched 6 [] ∧
      parse ("TWO*3 ".toList ++ ")+1".toList) = .matched 6 ")+1".toList) := by
  intro parse
  have hdigit : parse "2*(1+ONE) 3".toList = .matched 4 "3".toList := by decide +kernel
  have hall : parse "TWO*3 ".toList = .matched 6 [] := by decide +kernel
  have hstops : Level.expression.Stops "3".toList := ⟨'3', [], rfl, by decide⟩
  obtain ⟨hbehind, -⟩ := parse_append_behind hdigit "4+5".toList
  obtain ⟨-, hend⟩ := parse_append_behind hall ")+1".toList
  exact ⟨⟨hdigit, hbehind hstops⟩, hall, hend rfl (Level.ends_close _ _)⟩

end Grammar

end Reckon
