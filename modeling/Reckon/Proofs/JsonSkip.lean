import Reckon.Json.Skip
import Reckon.Proofs.JsonScan

/-!
# Passing over values

A value that is not used is passed over to its end, whatever it holds and however deep it nests
(`skipValue_wellFormed`). The machine does not recurse into a value but keeps the brackets that are
open, so the induction on the value says what becomes of any list of open brackets, and, inside a
bracket, of all values up to the end of the bracket (`Skips`).
-/

set_option autoImplicit false

namespace Reckon.Json

open Text (Piece)

/-! ## Strings and numbers -/

theorem skipString_plain {c : Char} (hc : Plain c) (rest : List Piece) :
    skipString (.char c :: rest) = skipString rest := by
  have hcontrol : isControl c = false := decide_eq_false (Nat.not_lt.2 hc.le)
  have hquote := hc.ne_quote
  have hbackslash := hc.ne_backslash
  rw [skipString] <;> simp_all

theorem skipString_short {e c : Char} (h : (e, c) ∈ shortEscapes) (rest : List Piece) :
    skipString (.char '\\' :: .char e :: rest) = skipString rest := by
  obtain ⟨hu, hc⟩ := simpleEscape_shortEscapes _ h
  rw [skipString]
  · simp [Piece.char?, hc]
  · simpa using hu

theorem skipString_numeric {x : List Char} {n : Nat} (h : Hex x n) (rest : List Piece) :
    skipString (.char '\\' :: .char 'u' :: (Piece.ofText x ++ rest)) = skipString rest := by
  rw [skipString]
  split
  · rename_i hs
    rw [fourHex_hex h] at hs
    cases hs
  · rename_i hs
    rw [fourHex_hex h] at hs
    cases hs
    rfl

/-- A string whose text is not used is passed over. -/
theorem skipString_stringForm {s : List Char} (h : StringForm s) (rest : List Piece) :
    skipString (Piece.ofText s ++ .char '\x22' :: rest) = .ok rest := by
  induction h with
  | nil =>
    show skipString (.char '\x22' :: rest) = _
    rw [skipString]
  | plain hc h ih => rw [Piece.ofText_cons, List.cons_append, skipString_plain hc, ih]
  | short he h ih =>
    simp only [Piece.ofText_cons, List.cons_append]
    rw [skipString_short he, ih]
  | numeric hx h ih =>
    simp only [Piece.ofText_cons, Piece.ofText_append, List.cons_append, List.append_assoc]
    rw [skipString_numeric hx, ih]

/-- A number that is not used is passed over, whatever it denotes. -/
theorem skipNumber_written {l : Literal} {s : List Char} {rest : List Piece} (h : l.Written s)
    (hrest : EndsNumber rest) : skipNumber (Piece.ofText s ++ rest) = .ok rest := by
  unfold skipNumber
  cases h with
  | positive hl h =>
    have hliteral := scanLiteral_unsigned h hrest false .invalidNumber
    obtain ⟨d, t, rfl, hd⟩ := h.exists_cons
    split
    · rename_i heq
      cases heq
      cases hd
    · simp only [hliteral]
      rfl
  | negative hl h =>
    simp only [Piece.ofText_cons, List.cons_append]
    rw [scanLiteral_unsigned h hrest]
    rfl

/-! ## Values without parts -/

/-- A value begins with a character that is neither white space nor the end of a list. -/
theorem WellFormed.exists_cons {v : List Char} (h : WellFormed .value v) :
    ∃ c t, v = c :: t ∧ isSpace (.char c) = false ∧ c ≠ ']' := by
  cases h with
  | word h =>
    simp only [words, List.mem_cons, List.not_mem_nil, or_false] at h
    rcases h with rfl | rfl | rfl <;> exact ⟨_, _, rfl, rfl, by decide⟩
  | number h =>
    obtain ⟨c, t, rfl, hc, hspace⟩ := h.exists_cons
    refine ⟨c, t, rfl, hspace, ?_⟩
    rintro rfl
    rcases hc with hc | hc <;> cases hc
  | string h => exact ⟨_, _, rfl, rfl, by decide⟩
  | @empty b w hw | @filled b s h => cases b <;> exact ⟨_, _, rfl, rfl, by decide⟩

theorem skipKey_itemKey {b : Bracket} {k : List Char} (h : ItemKey b k) (rest : List Piece) :
    skipKey b (Piece.ofText k ++ rest) = .ok rest := by
  cases h with
  | square => rfl
  | curly hs hk =>
    obtain ⟨w, w', hw, hw', rfl⟩ := hk
    have hstring := skipString_stringForm hs (Piece.ofText w' ++ .char ':' :: rest)
    simp only [inQuotes, Piece.ofText_append, Piece.ofText_cons, Piece.ofText_nil, List.append_assoc,
      List.cons_append, List.nil_append, skipKey, skipSpace_space hw]
    rw [skipSpace_cons rfl]
    simp only [hstring, Except.bind, colon_space hw']

theorem skipSimple_written {l : Literal} {s : List Char} {rest : List Piece} (h : l.Written s)
    (hrest : EndsNumber rest) : skipSimple (Piece.ofText s ++ rest) = .ok (none, rest) := by
  have hnumber := skipNumber_written h hrest
  obtain ⟨c, t, rfl, hc, hspace⟩ := h.exists_cons
  rw [Piece.ofText_cons, List.cons_append] at hnumber ⊢
  unfold skipSimple
  rw [skipSpace_cons hspace]
  split
  case h_8 =>
    rename_i heq
    cases heq
    rw [if_pos (by simpa [isDigit] using hc), hnumber]
    rfl
  all_goals
    rename_i heq
    cases heq
  all_goals rcases hc with hc | hc <;> cases hc

theorem skipSimple_word {s : List Char} (h : s ∈ words) (rest : List Piece) :
    skipSimple (Piece.ofText s ++ rest) = .ok (none, rest) := by
  simp only [words, List.mem_cons, List.not_mem_nil, or_false] at h
  rcases h with rfl | rfl | rfl <;> rfl

theorem skipSimple_string {s : List Char} (h : StringForm s) (rest : List Piece) :
    skipSimple (Piece.ofText (inQuotes s) ++ rest) = .ok (none, rest) := by
  have hstring := skipString_stringForm h rest
  simp [inQuotes, skipSimple, skipSpace_cons, isSpace, hstring, Except.map]

theorem skipSimple_opening (b : Bracket) (rest : List Piece) :
    skipSimple (.char b.opening :: rest) = .ok (some b, rest) := by
  cases b <;> rfl

theorem skipSimple_space {w : List Char} (hw : Space w) (s : List Piece) :
    skipSimple (Piece.ofText w ++ s) = skipSimple s := by
  rw [skipSimple, skipSpace_space hw, skipSimple]

/-! One step of the machine that keeps the list of open brackets. -/

section
variable {opened : List Bracket} {b : Bracket} {s s' rest : List Piece}

theorem skipOpen_simple (h : skipSimple s = .ok (none, rest)) :
    skipOpen opened s = closeAll opened rest := by
  rw [skipOpen]
  split <;> rename_i hs <;> rw [h] at hs <;> cases hs
  rfl

theorem skipOpen_empty (h : skipSimple s = .ok (some b, s'))
    (hfirst : skipFirst b s' = .ok (false, rest)) : skipOpen opened s = closeAll opened rest := by
  rw [skipOpen]
  split <;> rename_i hs <;> rw [h] at hs <;> cases hs
  split <;> rename_i hs <;> rw [hfirst] at hs <;> cases hs
  rfl

theorem skipOpen_filled (h : skipSimple s = .ok (some b, s'))
    (hfirst : skipFirst b s' = .ok (true, rest)) :
    skipOpen opened s = skipOpen (b :: opened) rest := by
  rw [skipOpen]
  split <;> rename_i hs <;> rw [h] at hs <;> cases hs
  split <;> rename_i hs <;> rw [hfirst] at hs <;> cases hs
  rfl

theorem closeAll_more (h : skipNext b s = .ok (true, rest)) :
    closeAll (b :: opened) s = skipOpen (b :: opened) rest := by
  rw [closeAll]
  split <;> rename_i hs <;> rw [h] at hs <;> cases hs
  rfl

theorem closeAll_last (h : skipNext b s = .ok (false, rest)) :
    closeAll (b :: opened) s = closeAll opened rest := by
  rw [closeAll]
  split <;> rename_i hs <;> rw [h] at hs <;> cases hs
  rfl

end

section
variable {b : Bracket} {w : List Char} (hw : Space w) (rest : List Piece)
include hw

theorem skipFirst_close :
    skipFirst b (Piece.ofText w ++ .char b.close :: rest) = .ok (false, rest) := by
  cases b <;> simp [skipFirst, skipSpace_space_cons hw, isSpace, Bracket.close]

theorem skipNext_close :
    skipNext b (Piece.ofText w ++ .char b.close :: rest) = .ok (false, rest) := by
  cases b <;> simp [skipNext, skipSpace_space_cons hw, isSpace, Bracket.close]

theorem skipNext_comma {inside : List Piece} (h : skipKey b rest = .ok inside) :
    skipNext b (Piece.ofText w ++ .char ',' :: rest) = .ok (true, inside) := by
  simp [skipNext, skipSpace_space_cons hw, isSpace, h, Except.map]

end

theorem skipFirst_of_skipKey {b : Bracket} {s t inside : List Piece} {p : Piece}
    (h : skipKey b s = .ok inside) (hs : skipSpace s = p :: t) (hp : p ≠ .char b.close) :
    skipFirst b s = .ok (true, inside) := by
  simp [skipFirst, hs, hp, h, Except.map]

/-- The values inside a bracket do not begin with its end. -/
theorem WellFormed.skipSpace_items {b : Bracket} {s : List Char} (h : WellFormed (.items b) s)
    (rest : List Piece) :
    ∃ p t, skipSpace (Piece.ofText s ++ rest) = p :: t ∧ p ≠ .char b.close := by
  have hitem : ∀ {k v s' : List Char} (rest : List Piece), ItemKey b k → WellFormed .value v →
      Spaced v s' →
      ∃ p t, skipSpace (Piece.ofText k ++ (Piece.ofText s' ++ rest)) = p :: t ∧
        p ≠ .char b.close := by
    intro k v s' rest hk hv hs
    cases hk with
    | square =>
      obtain ⟨w, w', hw, -, rfl⟩ := hs
      obtain ⟨c, t, rfl, hspace, hc⟩ := hv.exists_cons
      simp only [Piece.ofText_nil, List.nil_append, Piece.ofText_append, Piece.ofText_cons,
        List.append_assoc, List.cons_append, skipSpace_space_cons hw hspace]
      exact ⟨_, _, rfl, by simpa [Bracket.close] using hc⟩
    | curly h hk =>
      obtain ⟨w, w', hw, -, rfl⟩ := hk
      simp only [inQuotes, Piece.ofText_append, Piece.ofText_cons, List.append_assoc,
        List.cons_append, skipSpace_space hw]
      rw [skipSpace_cons rfl]
      exact ⟨_, _, rfl, by decide⟩
  cases h with
  | last hk hv hs =>
    simpa using hitem rest hk hv hs
  | more hk hv hs ht =>
    simpa using hitem _ hk hv hs

/-- What the machine does with a text of a category, whatever comes after it: it passes over a value,
and over the values inside a bracket up to the end of the bracket. -/
def Skips : Category → List Char → Prop
  | .value, v => ∀ (opened : List Bracket) (w : List Char) (rest : List Piece), Space w →
      EndsNumber rest →
      skipOpen opened (Piece.ofText w ++ (Piece.ofText v ++ rest)) = closeAll opened rest
  | .items b, s => ∀ (opened : List Bracket) (rest : List Piece),
      ∃ inside, skipKey b (Piece.ofText s ++ .char b.close :: rest) = .ok inside ∧
        skipOpen (b :: opened) inside = closeAll opened rest

theorem skips_wellFormed {category : Category} {s : List Char} (h : WellFormed category s) :
    Skips category s := by
  induction h with
  | word h =>
    intro opened w rest hw hrest
    exact skipOpen_simple (by rw [skipSimple_space hw, skipSimple_word h])
  | number h =>
    intro opened w rest hw hrest
    exact skipOpen_simple (by rw [skipSimple_space hw, skipSimple_written h hrest])
  | string h =>
    intro opened w rest hw hrest
    exact skipOpen_simple (by rw [skipSimple_space hw, skipSimple_string h])
  | @empty b w' hw' =>
    intro opened w rest hw hrest
    simp only [Piece.ofText_cons, Piece.ofText_append, Piece.ofText_nil, List.cons_append,
      List.append_assoc, List.nil_append]
    refine skipOpen_empty (b := b) ?_ (skipFirst_close hw' rest)
    rw [skipSimple_space hw, skipSimple_opening]
  | @filled b s h ih =>
    intro opened w rest hw hrest
    obtain ⟨inside, hinside, hskip⟩ := ih opened rest
    obtain ⟨p, t, hspace, hp⟩ := h.skipSpace_items (.char b.close :: rest)
    simp only [Piece.ofText_cons, Piece.ofText_append, Piece.ofText_nil, List.cons_append,
      List.append_assoc, List.nil_append]
    rw [skipOpen_filled (b := b) _ (skipFirst_of_skipKey hinside hspace hp), hskip]
    rw [skipSimple_space hw, skipSimple_opening]
  | @last b k v s hk hv hs ih =>
    intro opened rest
    obtain ⟨w, w', hw, hw', rfl⟩ := hs
    have hend := (endsNumber_close b rest).space hw'
    simp only [Piece.ofText_append, List.append_assoc]
    refine ⟨_, skipKey_itemKey hk _, ?_⟩
    rw [ih (b :: opened) w _ hw hend, closeAll_last (skipNext_close hw' rest)]
  | @more b k v s t hk hv hs ht ih iht =>
    intro opened rest
    obtain ⟨w, w', hw, hw', rfl⟩ := hs
    obtain ⟨inside, hinside, hskip⟩ := iht opened rest
    have hend := (endsNumber_comma (Piece.ofText t ++ .char b.close :: rest)).space hw'
    simp only [Piece.ofText_append, Piece.ofText_cons, List.append_assoc, List.cons_append]
    refine ⟨_, skipKey_itemKey hk _, ?_⟩
    rw [ih (b :: opened) w _ hw hend, closeAll_more (skipNext_comma hw' _ hinside), hskip]

/-- A value of any kind, with white space before it, is passed over to its end. -/
theorem skipValue_wellFormed {w v : List Char} {rest : List Piece} (hw : Space w)
    (hv : WellFormed .value v) (hrest : EndsNumber rest) :
    skipValue (Piece.ofText w ++ (Piece.ofText v ++ rest)) = .ok rest := by
  rw [skipValue, skips_wellFormed hv [] w rest hw hrest, closeAll]

end Reckon.Json
