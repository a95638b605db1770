import Reckon.Evaluator
import Reckon.Proofs.Sentence
import Reckon.Proofs.SinglePass

/-!
# What evaluation accepts

The single pass and the derivations say the same. What is read of a text has a derivation, and the
value is the value of the derivation (`exists_written_of_read`), whichever operations fell back to
their left operand on the way. Conversely a text that has a derivation with a value is read to its
end, if what comes behind it does not continue it (`read_written`). Together, a text is read with
nothing left exactly if it has a derivation with a value (`read_all_iff`).

Main results: `parse_sentence`, what is read of any text; and `evaluate_complete`, which texts
evaluate when nothing may be left.
-/

set_option autoImplicit false

namespace Reckon

namespace SinglePass

variable {registers : Registers}

/-! ## Continuations -/

section
variable {op : Operator} {right : List Char → Outcome Word} {v w u : Word}
  {rest last t : List Char}

theorem continued_of_not_operator (h : Text.after? op.mark rest = none) :
    continued op right (.matched v rest) = .matched v rest := by
  simp only [continued, h]

theorem continued_operation (h : Text.after? op.mark rest = some t)
    (hr : right t = .matched w last) (hu : op.combine v w = some u) :
    continued op right (.matched v rest) = .matched u last := by
  simp only [continued, h, hr, hu]

/-- A chain is an operand alone or an operation. -/
theorem continued_eq_matched {o : Outcome Word} (h : continued op right o = .matched u last) :
    o = .matched u last ∨ ∃ v rest t w, o = .matched v rest ∧
      Text.after? op.mark rest = some t ∧ right t = .matched w last ∧
      op.combine v w = some u := by
  cases o with
  | failed => cases h
  | matched v rest =>
    simp only [continued] at h
    split at h
    · exact .inl h
    · rename_i t ht
      split at h
      · exact .inl h
      · rename_i w last' hr
        split at h
        · exact .inl h
        · rename_i u' hu
          cases h
          exact .inr ⟨v, rest, t, w, rfl, ht, hr, hu⟩

theorem closed_eq_matched {o : Outcome Word} (h : closed o = .matched v last) :
    ∃ rest, o = .matched v rest ∧ Text.after? ')' rest = some last := by
  cases o with
  | failed => cases h
  | matched v' rest =>
    simp only [closed] at h
    cases ha : Text.after? ')' rest with
    | none => rw [ha] at h; cases h
    | some t =>
      rw [ha] at h
      cases h
      exact ⟨rest, rfl, ha⟩

theorem ofRun_eq_matched {value? : Option Word} (h : ofRun value? rest = .matched v last) :
    value? = some v ∧ last = Text.skipBlanks rest := by
  cases value? with
  | none => cases h
  | some v' => cases h; exact ⟨rfl, rfl⟩

end

/-! ## What is read has a derivation -/

/-- A token at the beginning of a text, with the blanks on both sides of it. -/
theorem padded_of_skipBlanks {s t rest : List Char} (h : Text.skipBlanks s = t ++ rest) :
    ∃ a, Padded t a ∧ s = a ++ Text.skipBlanks rest := by
  obtain ⟨w, hw, hs⟩ := Text.exists_blanks_append s
  obtain ⟨w', hw', hr⟩ := Text.exists_blanks_append rest
  refine ⟨w ++ t ++ w', ⟨w, w', hw, hw', rfl⟩, ?_⟩
  rw [hs, h, List.append_assoc, List.append_assoc, ← hr]

theorem padded_of_after? {c : Char} {s t : List Char} (h : Text.after? c s = some t) :
    ∃ a, Padded [c] a ∧ s = a ++ t := by
  obtain ⟨rest, rfl, rfl⟩ := Text.after?_eq_some h
  obtain ⟨w, hw, hr⟩ := Text.exists_blanks_append rest
  exact ⟨[c] ++ w, ⟨[], w, Text.allBlank_nil, hw, rfl⟩, by rw [List.append_assoc, ← hr]; rfl⟩

/-- A run at the beginning of a text, up to where it ends. -/
theorem padded_takeWhile {holds : Char → Bool} {c : Char} {s rest : List Char}
    (hs : Text.skipBlanks s = c :: rest) (hc : holds c = true) :
    IsRun holds (c :: rest.takeWhile holds) ∧
      ∃ a, Padded (c :: rest.takeWhile holds) a ∧
        s = a ++ Text.skipBlanks (rest.dropWhile holds) := by
  refine ⟨isRun_takeWhile hc rest, padded_of_skipBlanks ?_⟩
  rw [hs, List.cons_append, List.takeWhile_append_dropWhile]

/-- What was read of a text has a derivation with the value that was read. -/
theorem exists_written_of_read {l : Level} {s rest : List Char} {v : Word}
    (h : read registers l s = .matched v rest) :
    ∃ (a : List Char) (t : Tree l), s = a ++ rest ∧ t.Written a ∧ t.value? registers = some v := by
  revert v rest
  induction l, s using Level.induct with
  | hatom s ih =>
    intro rest v h
    cases hs : Text.skipBlanks s with
    | nil => rw [read_atom_nil hs] at h; cases h
    | cons c x =>
      by_cases hp : c = '('
      · subst hp
        rw [read_atom_parenthesis hs] at h
        obtain ⟨y, hy, hclose⟩ := closed_eq_matched h
        obtain ⟨b, t, rfl, ht, hv⟩ := ih x (Text.length_lt_of_skipBlanks hs) hy
        obtain ⟨z, hz, rfl⟩ := padded_of_after? hclose
        obtain ⟨w, hw, hblank⟩ := Text.exists_blanks_append s
        refine ⟨w ++ ['('] ++ b ++ z, .parenthesized t, ?_,
          .parenthesized ⟨w, [], hw, Text.allBlank_nil, by simp⟩ ht hz, hv⟩
        rw [hblank, hs]
        simp
      by_cases hd : c.isDigit = true
      · rw [read_atom_digit hs hd] at h
        obtain ⟨hv, rfl⟩ := ofRun_eq_matched h
        obtain ⟨hrun, a, ha, rfl⟩ := padded_takeWhile hs hd
        exact ⟨a, .number _ hrun, rfl, .number ha, hv⟩
      by_cases hn : isNameChar c = true
      · rw [read_atom_name hs hn] at h
        obtain ⟨hv, rfl⟩ := ofRun_eq_matched h
        obtain ⟨hrun, a, ha, rfl⟩ := padded_takeWhile hs hn
        exact ⟨a, .register _ hrun, rfl, .register ha, hv⟩
      · rw [read_atom_other hs hp (Bool.eq_false_iff.2 hd) (Bool.eq_false_iff.2 hn)] at h
        cases h
  | hchain op s ihl ihr =>
    intro rest v h
    rw [read_chain] at h
    rcases continued_eq_matched h with h | ⟨x, y, z, w, hx, hy, hz, hu⟩
    -- the operand alone, whether no operator came next or the operation fell back to it
    · obtain ⟨a, t, hs, ht, hv⟩ := ihl h
      exact ⟨a, .operand op t, hs, .operand ht, hv⟩
    · have hlt : z.length < s.length := Nat.lt_trans (Text.length_after? hy) (read_shorter hx)
      obtain ⟨a, left, rfl, hl, hvl⟩ := ihl hx
      obtain ⟨b, hb, rfl⟩ := padded_of_after? hy
      obtain ⟨c, right, rfl, hr, hvr⟩ := ihr z hlt hz
      refine ⟨a ++ b ++ c, .operation op left right, by simp only [List.append_assoc],
        .operation hl hb hr, ?_⟩
      rw [Tree.value?, hvl, hvr]
      exact hu

/-! ## What has a derivation is read -/

/-- A derivation with a value is read to its end, if what comes behind its text does not go on
with it. -/
theorem read_written {l : Level} {t : Tree l} {a rest : List Char} {v : Word} (h : t.Written a)
    (hv : t.value? registers = some v) (hr : l.Ends (Text.skipBlanks rest)) :
    read registers l (a ++ rest) = .matched v (Text.skipBlanks rest) := by
  induction h generalizing rest v with
  | @operation op left right a b c hl hop hright ihl ihr =>
    simp only [Tree.value?, Option.bind_eq_some_iff] at hv
    obtain ⟨x, hx, y, hy, hxy⟩ := hv
    obtain ⟨w, hw, hb, hend⟩ := hop.operator (c ++ rest)
    rw [read_chain, List.append_assoc, List.append_assoc, ihl hx hend, hb]
    refine continued_operation (t := Text.skipBlanks (c ++ rest)) ?_ ?_ hxy
    -- the blanks between the operator and the right operand may belong to either
    · rw [Text.after?, if_pos rfl, Text.skipBlanks_append hw]
    · rw [read_skipBlanks, ihr hy hr]
  | @operand op t a h ih =>
    rw [read_chain, ih hv hr.operand]
    exact continued_of_not_operator hr.not_operator
  | @parenthesized inner a b c ho h hc ih =>
    obtain ⟨w, hw, ha⟩ := ho.skipBlanks (by decide) (b ++ (c ++ rest))
    obtain ⟨u, hu, hclose⟩ := hc.skipBlanks (by decide) rest
    have hinner : read registers .expression (w ++ (b ++ (c ++ rest))) =
        .matched v (Text.skipBlanks (c ++ rest)) := by
      rw [← read_skipBlanks, Text.skipBlanks_append hw, read_skipBlanks, ih hv (hc.ends_close rest)]
    rw [List.append_assoc, List.append_assoc, read_atom_parenthesis ha, List.nil_append, hinner,
      hclose]
    simp only [closed, Text.after?, List.nil_append, Text.skipBlanks_append hu]
    rfl
  | @number digits run a h =>
    obtain ⟨d, s, x, rfl, hd, hs, htake, hdrop, hx⟩ := h.run run Text.isBlank_of_isDigit hr.digits
    rw [read_atom_digit hs hd, htake, hdrop, ← hx,
      show Word.ofNat? (Numeral.toNat (d :: s)) = some v from hv]
    rfl
  | @register letters run a h =>
    obtain ⟨d, s, x, rfl, hd, hs, htake, hdrop, hx⟩ := h.run run isBlank_of_isNameChar hr.letters
    rw [read_atom_name hs hd, htake, hdrop, ← hx,
      show registers.get? (String.ofList (d :: s)) = some v from hv]
    rfl

/-- Nothing is left exactly if the whole text has a derivation with a value. -/
theorem read_all_iff {l : Level} {s : List Char} {v : Word} :
    read registers l s = .matched v [] ↔
      ∃ t : Tree l, t.Written s ∧ t.value? registers = some v := by
  constructor
  · intro h
    obtain ⟨a, t, hs, ht, hv⟩ := exists_written_of_read h
    rw [List.append_nil] at hs
    exact ⟨t, hs ▸ ht, hv⟩
  · rintro ⟨t, ht, hv⟩
    have hnil : l.Ends (Text.skipBlanks []) := l.ends_nil
    have h := read_written ht hv hnil
    rwa [List.append_nil] at h

/-- A text that is read to its end is read alike in front of what does not continue it. -/
theorem read_append {l : Level} {s rest : List Char} {v : Word}
    (h : read registers l s = .matched v []) (hrest : l.Ends rest) :
    read registers l (s ++ rest) = .matched v rest := by
  obtain ⟨t, ht, hv⟩ := read_all_iff.1 h
  have hskip : Text.skipBlanks rest = rest := Text.skipBlanks_of_trimmed hrest.trimmed
  rw [← hskip] at hrest
  rw [read_written ht hv hrest, hskip]

end SinglePass

/-! ## Any text -/

open SinglePass

/-- Whatever operations fell back to their left operand: the value that is read of a text is the
exact value of a sentence, the one that was taken from the text. No blank is left in front of the
rest, and without the rest the same is read. -/
theorem Grammar.parse_sentence {registers : Registers} {l : Level} {s rest : List Char} {v : Word}
    (h : Grammar.parse registers (l.parser registers) s = .matched v rest) :
    ∃ consumed, consumed ≠ [] ∧ s = consumed ++ rest ∧ Text.Trimmed rest ∧
      (∃ t : Tree l, t.Written consumed ∧ t.integer? registers = some v.val) ∧
      Grammar.parse registers (l.parser registers) consumed = .matched v [] := by
  rw [parse_level] at h
  obtain ⟨a, t, rfl, ht, hv⟩ := exists_written_of_read h
  refine ⟨a, ?_, rfl, read_trimmed h, ⟨t, ht, Tree.integer?_of_value? hv⟩, ?_⟩
  · rintro rfl
    exact Nat.lt_irrefl _ (read_shorter h)
  · rw [parse_level]
    exact read_all_iff.2 ⟨t, ht, hv⟩

/-- The sum is no word, so the left operand alone was read. -/
theorem Grammar.parse_sentence_overflow :
    Grammar.parse .standard (Level.expression.parser .standard)
        "2 * 3 + 9223372036854775807 x".toList =
      .matched 6 "+ 9223372036854775807 x".toList ∧
    Text.Trimmed "+ 9223372036854775807 x".toList ∧
    (∃ t : Tree .expression, t.Written "2 * 3 ".toList ∧ t.integer? .standard = some 6) ∧
    Grammar.parse .standard (Level.expression.parser .standard) "2 * 3 ".toList =
      .matched 6 [] := by
  have h : Grammar.parse .standard (Level.expression.parser .standard)
      "2 * 3 + 9223372036854775807 x".toList =
        .matched 6 "+ 9223372036854775807 x".toList := by decide +kernel
  obtain ⟨consumed, -, hs, htrim, ht, hp⟩ := Grammar.parse_sentence h
  obtain rfl : "2 * 3 ".toList = consumed :=
    List.append_cancel_right (Eq.trans (by decide +kernel) hs)
  exact ⟨h, htrim, ht, hp⟩

/-! ## Complete texts -/

namespace Evaluator

section
variable {e : Evaluator} {source : String}

theorem parse_all_iff {v : Word} : e.parse source = .matched v [] ↔
    ∃ t : Tree .expression, t.Written source.toList ∧ t.value? e.registers = some v := by
  rw [← read_all_iff, ← parse_level]
  rfl

theorem evaluate_eq_ok_iff (hm : e.mode = .complete) {v : Word} {rest : String} :
    e.evaluate source = .ok ⟨v, rest⟩ ↔ rest = "" ∧ e.parse source = .matched v [] := by
  unfold evaluate
  cases e.parse source with
  | failed => simp
  | matched w last => cases last <;> simp [hm, and_comm, eq_comm]

/-- What a text that is not read to its end is refused for. -/
theorem evaluate_eq_error (hm : e.mode = .complete) (h : ¬ ∃ v, e.parse source = .matched v []) :
    e.evaluate source = .error .noMatch ∨
      ∃ v rest, rest ≠ "" ∧ e.evaluate source = .error (.trailingInput v rest) := by
  unfold evaluate
  cases hp : e.parse source with
  | failed => exact .inl rfl
  | matched w last =>
    cases last with
    | nil => exact absurd ⟨w, hp⟩ h
    | cons c last => exact .inr ⟨w, String.ofList (c :: last), by simp, by simp [hm]⟩

end

/-- If nothing may be left, the texts with a value are those that have a derivation with that value.
No text has two derivations, and a text without a value is an error. -/
theorem evaluate_complete (registers : Registers) (source : String) :
    let e : Evaluator := { registers, mode := .complete }
    (∀ v rest, e.evaluate source = .ok ⟨v, rest⟩ ↔
      rest = "" ∧ ∃ t : Tree .expression,
        t.Written source.toList ∧ t.value? registers = some v) ∧
    (∀ t t' : Tree .expression, t.Written source.toList → t'.Written source.toList → t = t') ∧
    ((∃ (v : Word) (t : Tree .expression),
        t.Written source.toList ∧ t.value? registers = some v) ∨
      e.evaluate source = .error .noMatch ∨
      ∃ v rest, rest ≠ "" ∧ e.evaluate source = .error (.trailingInput v rest)) := by
  intro e
  refine ⟨fun v rest => ?_, fun t t' h h' => h.unique h', ?_⟩
  · rw [evaluate_eq_ok_iff rfl, parse_all_iff]
  · by_cases h : ∃ v, e.parse source = .matched v []
    · obtain ⟨v, hv⟩ := h
      exact .inl ⟨v, parse_all_iff.1 hv⟩
    · exact .inr (evaluate_eq_error rfl h)

theorem evaluate_complete_product :
    ({ mode := .complete } : Evaluator).evaluate " 2*( TWO+3 )" = .ok ⟨10, ""⟩ ∧
    ∃ t : Tree .expression, t.Written " 2*( TWO+3 )".toList ∧ t.value? .standard = some 10 ∧
      ∀ t' : Tree .expression, t'.Written " 2*( TWO+3 )".toList → t' = t := by
  obtain ⟨hvalue, hunique, -⟩ := evaluate_complete .standard " 2*( TWO+3 )"
  have h : ({ mode := .complete } : Evaluator).evaluate " 2*( TWO+3 )" = .ok ⟨10, ""⟩ :=
    (evaluate_eq_ok_iff rfl).2 ⟨rfl, by decide +kernel⟩
  obtain ⟨-, t, ht, hv⟩ := (hvalue 10 "").1 h
  exact ⟨h, t, ht, hv, fun t' ht' => hunique t' t ht' ht⟩

end Evaluator

end Reckon
