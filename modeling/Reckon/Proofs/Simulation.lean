import Reckon.Proofs.SinglePass

/-!
# Two texts read side by side

`Simulation r r' R` lists what a relation `R` between texts has to be kept by: blanks that are
skipped, marks that are taken, and atoms that do not start with a parenthesis. Then two texts that
`R` relates are read alike on every level, the one with the registers `r` and the other with `r'`:
both fail, or both give the same value and leave texts that `R` relates (`Simulation.read`).
Whatever a fallback gives back is related again, so that nothing has to be known about where a
reading turned back.
-/

set_option autoImplicit false

namespace Reckon

/-- Both fail, or both match with the same value and leave texts that `R` relates. -/
inductive Outcome.Rel {α : Type} (R : List Char → List Char → Prop) : Outcome α → Outcome α → Prop
  | failed : Rel R .failed .failed
  | matched (v : α) {rest rest' : List Char} (h : R rest rest') :
      Rel R (.matched v rest) (.matched v rest')

namespace Outcome.Rel

variable {α : Type} {R : List Char → List Char → Prop} {o o' : Outcome α}

theorem failed_iff (h : Rel R o o') : o = .failed ↔ o' = .failed := by
  cases h <;> simp

theorem exists_matched {v : α} {rest : List Char} (h : Rel R o o') (ho : o = .matched v rest) :
    ∃ rest', R rest rest' ∧ o' = .matched v rest' := by
  cases h with
  | failed => cases ho
  | matched w h =>
    cases ho
    exact ⟨_, h, rfl⟩

/-- If `R` relates a text to itself only, the outcomes are the same. -/
theorem eq (h : Rel R o o') (hR : ∀ s s', R s s' → s = s') : o = o' := by
  cases h with
  | failed => rfl
  | matched v h => rw [hR _ _ h]

end Outcome.Rel

namespace SinglePass

open Text (Trimmed skipBlanks after?)

/-- Related texts go on being related as they are read, with the registers `r` and `r'`. -/
structure Simulation (r r' : Registers) (R : List Char → List Char → Prop) : Prop where
  blanks {s s' : List Char} (h : R s s') : R (skipBlanks s) (skipBlanks s')
  /-- What can come after an operand comes next in both texts or in neither. -/
  mark {s s' : List Char} (h : R s s') (hs : Trimmed s) (hs' : Trimmed s') {c : Char}
    (hc : c ∈ [')', '+', '*']) : Option.Rel R (after? c s) (after? c s')
  atom {s s' : List Char} (h : R s s') (hs : Trimmed s) (hs' : Trimmed s') :
    (∃ t t', s = '(' :: t ∧ s' = '(' :: t' ∧ R t t') ∨
      Outcome.Rel R (read r .atom s) (read r' .atom s')

section
variable {r r' : Registers} {R : List Char → List Char → Prop} {c : Char} {t t' : List Char}

theorem rel_ofRun (value? : Option Word) (h : R (skipBlanks t) (skipBlanks t')) :
    Outcome.Rel R (ofRun value? t) (ofRun value? t') := by
  cases value? with
  | none => exact .failed
  | some v => exact .matched v h

/-- Atoms that start with the same character: what comes behind a parenthesis has to be related, and
the runs have to be the same with related texts behind them. -/
theorem rel_atom_cons (hb : Text.isBlank c = false) (hp : c = '(' → R t t')
    (hd : c.isDigit = true → t.takeWhile Char.isDigit = t'.takeWhile Char.isDigit ∧
      R (skipBlanks (t.dropWhile Char.isDigit)) (skipBlanks (t'.dropWhile Char.isDigit)))
    (hn : isNameChar c = true →
      r.get? (String.ofList (c :: t.takeWhile isNameChar)) =
          r'.get? (String.ofList (c :: t'.takeWhile isNameChar)) ∧
        R (skipBlanks (t.dropWhile isNameChar)) (skipBlanks (t'.dropWhile isNameChar))) :
    (∃ u u', c :: t = '(' :: u ∧ c :: t' = '(' :: u' ∧ R u u') ∨
      Outcome.Rel R (read r .atom (c :: t)) (read r' .atom (c :: t')) := by
  have hs : ∀ u, skipBlanks (c :: u) = c :: u := Text.skipBlanks_cons hb
  by_cases hc : c = '('
  · exact .inl ⟨t, t', by rw [hc], by rw [hc], hp hc⟩
  refine .inr ?_
  by_cases hdigit : c.isDigit = true
  · obtain ⟨htake, hdrop⟩ := hd hdigit
    rw [read_atom_digit (hs t) hdigit, read_atom_digit (hs t') hdigit, htake]
    exact rel_ofRun _ hdrop
  by_cases hname : isNameChar c = true
  · obtain ⟨hget, hdrop⟩ := hn hname
    rw [read_atom_name (hs t) hname, read_atom_name (hs t') hname, hget]
    exact rel_ofRun _ hdrop
  · rw [read_atom_other (hs t) hc (Bool.eq_false_iff.2 hdigit) (Bool.eq_false_iff.2 hname),
      read_atom_other (hs t') hc (Bool.eq_false_iff.2 hdigit) (Bool.eq_false_iff.2 hname)]
    exact .failed

end

namespace Simulation

section
variable {r r' : Registers} {R : List Char → List Char → Prop} (h : Simulation r r' R)
include h

section
variable {o o' : Outcome Word} (ho : Outcome.Rel R o o')
  (htrim : ∀ v rest, o = .matched v rest → Trimmed rest)
  (htrim' : ∀ v rest, o' = .matched v rest → Trimmed rest)
include ho htrim htrim'

/-- Parentheses are closed in both texts or in neither. -/
theorem closed : Outcome.Rel R (closed o) (closed o') := by
  cases ho with
  | failed => exact .failed
  | @matched v rest rest' hrest =>
    have hmark : Option.Rel R (after? ')' rest) (after? ')' rest') :=
      h.mark hrest (htrim v rest rfl) (htrim' v rest' rfl) (by decide)
    simp only [SinglePass.closed]
    generalize after? ')' rest = t at hmark
    generalize after? ')' rest' = t' at hmark
    cases hmark with
    | none => exact .failed
    | some ht => exact .matched v ht

/-- If an operation falls back to its left operand, it does so in both texts. -/
theorem continued {op : Operator} {right right' : List Char → Outcome Word}
    (hright : ∀ v rest t t', o = .matched v rest → after? op.mark rest = some t → R t t' →
      Outcome.Rel R (right t) (right' t')) :
    Outcome.Rel R (continued op right o) (continued op right' o') := by
  cases ho with
  | failed => exact .failed
  | @matched v rest rest' hrest =>
    have hmark : Option.Rel R (after? op.mark rest) (after? op.mark rest') :=
      h.mark hrest (htrim v rest rfl) (htrim' v rest' rfl) (by cases op <;> decide)
    simp only [SinglePass.continued]
    -- every fallback gives back the operand, and the texts behind it are related by `hrest`
    generalize ha : after? op.mark rest = t at hmark
    generalize after? op.mark rest' = t' at hmark
    cases hmark with
    | none => exact .matched v hrest
    | @some t t' ht =>
      have hlast := hright v rest t t' rfl ha ht
      simp only
      generalize right t = m at hlast
      generalize right' t' = m' at hlast
      cases hlast with
      | failed => exact .matched v hrest
      | matched w hlast =>
        simp only
        cases op.combine v w with
        | none => exact .matched v hrest
        | some u => exact .matched u hlast

end

/-- Related texts are read alike. -/
theorem read (l : Level) {s s' : List Char} (hs : R s s') :
    Outcome.Rel R (read r l s) (read r' l s') := by
  induction l, s using Level.induct generalizing s' with
  | hatom s ih =>
    -- what `h` says of atoms is about texts that start with no blank
    rw [← read_skipBlanks, ← read_skipBlanks r']
    rcases h.atom (h.blanks hs) (Text.trimmed_skipBlanks s) (Text.trimmed_skipBlanks s')
      with ⟨t, t', ht, ht', htt⟩ | hatom
    · rw [read_skipBlanks, read_skipBlanks, read_atom_parenthesis ht, read_atom_parenthesis ht']
      exact h.closed (ih t (Text.length_lt_of_skipBlanks ht) htt) (fun _ _ => read_trimmed)
        fun _ _ => read_trimmed
    · exact hatom
  | hchain op s ihl ihr =>
    rw [read_chain, read_chain]
    refine h.continued (ihl hs) (fun _ _ => read_trimmed) (fun _ _ => read_trimmed) ?_
    intro v rest t t' hread ha ht
    -- only the first text has to get shorter: the induction is for all texts related to it
    exact ihr t (Nat.lt_trans (Text.length_after? ha) (read_shorter hread)) ht

theorem parse (l : Level) {s s' : List Char} (hs : R s s') :
    Outcome.Rel R (Grammar.parse r (l.parser r) s) (Grammar.parse r' (l.parser r') s') := by
  rw [parse_level, parse_level]
  exact h.read l hs

end

end Simulation

end SinglePass

end Reckon
