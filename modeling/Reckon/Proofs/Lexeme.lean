import Reckon.Grammar

/-!
# Characters and lexemes

The classes of characters that the grammar tells apart have no character in common
(`isNameChar_of_isBlank`, `isDigit_of_isBlank`, `isNameChar_of_isDigit`), so the first character
after the blanks decides what a lexeme can be. A run of characters of one class is read to its end
(`denote_lexeme`, `Grammar.parse_lexeme`), and a mark takes the blanks on both sides of it
(`denote_mark`).
-/

set_option autoImplicit false

namespace Reckon

namespace Text

/-! ## Classes without common characters -/

/-- If no code point of `s` is in `t`, no character is in both. -/
theorem CodePoints.contains_eq_false {s t : CodePoints}
    (h : ∀ r ∈ s, ∀ n ∈ List.range' r.first (r.last + 1 - r.first),
      (List.any t fun q => q.contains n) = false) {c : Char} (hc : s.contains c = true) :
    t.contains c = false := by
  obtain ⟨r, hr, hc⟩ := List.any_eq_true.1 hc
  refine h r hr c.toNat ?_
  simp only [Run.contains, Bool.and_eq_true, decide_eq_true_eq] at hc
  rw [List.mem_range'_1]
  omega

theorem isUppercase_of_isBlank {c : Char} (h : isBlank c = true) : isUppercase c = false :=
  CodePoints.contains_eq_false (by decide +kernel) h

theorem contains_of_isDigit {c : Char} (h : c.isDigit = true) :
    CodePoints.contains [.span 0x30 0x39] c = true := by
  refine List.any_eq_true.2 ⟨.span 0x30 0x39, List.mem_cons_self, ?_⟩
  simp only [Char.isDigit, Bool.and_eq_true, decide_eq_true_eq] at h
  have low : 48 ≤ c.toNat := UInt32.le_iff_toNat_le.1 h.1
  have high : c.toNat ≤ 57 := UInt32.le_iff_toNat_le.1 h.2
  simp [Run.contains, Run.span, low, high, Nat.mod_one]

theorem isUppercase_of_isDigit {c : Char} (h : c.isDigit = true) : isUppercase c = false :=
  CodePoints.contains_eq_false (by decide +kernel) (contains_of_isDigit h)

theorem isBlank_of_isDigit {c : Char} (h : c.isDigit = true) : isBlank c = false :=
  CodePoints.contains_eq_false (by decide +kernel) (contains_of_isDigit h)

theorem isDigit_of_isBlank {c : Char} (h : isBlank c = true) : c.isDigit = false := by
  cases hd : c.isDigit with
  | false => rfl
  | true => rw [isBlank_of_isDigit hd] at h; cases h

/-! ## Blanks in front of a text -/

/-- No blank comes first. -/
def Trimmed (s : List Char) : Prop := ∀ c ∈ s.head?, isBlank c = false

/-- Dropping a run stops where a character of another class, or none, comes next. -/
theorem head?_dropWhile (holds : Char → Bool) (s : List Char) :
    ∀ c ∈ (s.dropWhile holds).head?, holds c = false := by
  intro c hc
  have h := List.head?_dropWhile_not holds s
  rw [show (s.dropWhile holds).head? = some c from hc] at h
  exact h

theorem trimmed_skipBlanks (s : List Char) : Trimmed (skipBlanks s) := head?_dropWhile isBlank s

theorem skipBlanks_cons {c : Char} (h : isBlank c = false) (s : List Char) :
    skipBlanks (c :: s) = c :: s :=
  List.dropWhile_cons_of_neg (by rw [h]; exact Bool.false_ne_true)

theorem skipBlanks_of_trimmed {s : List Char} (h : Trimmed s) : skipBlanks s = s := by
  cases s with
  | nil => rfl
  | cons c s => exact skipBlanks_cons (h c rfl) s

theorem skipBlanks_skipBlanks (s : List Char) : skipBlanks (skipBlanks s) = skipBlanks s :=
  skipBlanks_of_trimmed (trimmed_skipBlanks s)

theorem length_skipBlanks_le (s : List Char) : (skipBlanks s).length ≤ s.length :=
  (List.dropWhile_sublist _).length_le

theorem length_lt_of_skipBlanks {c : Char} {s rest : List Char} (h : skipBlanks s = c :: rest) :
    rest.length < s.length := by
  have hle := length_skipBlanks_le s
  rw [h] at hle
  exact hle

def AllBlank (w : List Char) : Prop := ∀ c ∈ w, isBlank c = true

instance (w : List Char) : Decidable (AllBlank w) :=
  decidable_of_iff (w.all isBlank = true) List.all_eq_true

theorem allBlank_nil : AllBlank [] := fun _ h => nomatch h

theorem skipBlanks_append {w : List Char} (h : AllBlank w) (s : List Char) :
    skipBlanks (w ++ s) = skipBlanks s := List.dropWhile_append_of_pos h

/-- Blanks are skipped alike if more text comes behind what is left. -/
theorem skipBlanks_append_of_ne_nil {s : List Char} (h : skipBlanks s ≠ []) (t : List Char) :
    skipBlanks (s ++ t) = skipBlanks s ++ t := by
  rw [skipBlanks, List.dropWhile_append, if_neg (by simpa [skipBlanks] using h)]
  rfl

/-- A text is the blanks in front of it and the rest. -/
theorem exists_blanks_append (s : List Char) : ∃ w, AllBlank w ∧ s = w ++ skipBlanks s :=
  ⟨s.takeWhile isBlank, List.all_eq_true.1 List.all_takeWhile,
    List.takeWhile_append_dropWhile.symm⟩

/-- The text after `c` and the blanks behind it, if `c` comes first. -/
def after? (c : Char) : List Char → Option (List Char)
  | [] => none
  | d :: rest => if d = c then some (skipBlanks rest) else none

theorem after?_eq_some {c : Char} {s t : List Char} (h : after? c s = some t) :
    ∃ rest, s = c :: rest ∧ t = skipBlanks rest := by
  cases s with
  | nil => cases h
  | cons d rest =>
    rw [after?] at h
    split at h
    · rename_i hd
      cases h
      exact ⟨rest, by rw [hd], rfl⟩
    · cases h

theorem length_after? {c : Char} {s t : List Char} (h : after? c s = some t) :
    t.length < s.length := by
  obtain ⟨rest, rfl, rfl⟩ := after?_eq_some h
  exact Nat.lt_succ_of_le (length_skipBlanks_le rest)

theorem trimmed_after? {c : Char} {s t : List Char} (h : after? c s = some t) : Trimmed t := by
  obtain ⟨rest, -, rfl⟩ := after?_eq_some h
  exact trimmed_skipBlanks rest

end Text

theorem isNameChar_of_isBlank {c : Char} (h : Text.isBlank c = true) : isNameChar c = false :=
  Text.isUppercase_of_isBlank h

theorem isNameChar_of_isDigit {c : Char} (h : c.isDigit = true) : isNameChar c = false :=
  Text.isUppercase_of_isDigit h

/-- The marks of the grammar are in none of the classes. -/
theorem classes_of_mark {c : Char} (h : c ∈ ['(', ')', '+', '*']) :
    Text.isBlank c = false ∧ c.isDigit = false ∧ isNameChar c = false := by
  simp only [List.mem_cons, List.not_mem_nil, or_false] at h
  rcases h with rfl | rfl | rfl | rfl <;> decide +kernel

theorem isBlank_of_isNameChar {c : Char} (h : isNameChar c = true) : Text.isBlank c = false := by
  cases hb : Text.isBlank c with
  | false => rfl
  | true => rw [isNameChar_of_isBlank hb] at h; cases h

theorem isDigit_of_isNameChar {c : Char} (h : isNameChar c = true) : c.isDigit = false := by
  cases hd : c.isDigit with
  | false => rfl
  | true => rw [isNameChar_of_isDigit hd] at h; cases h

theorem ne_parenthesis_of_isDigit {c : Char} (h : c.isDigit = true) : c ≠ '(' := by
  rintro rfl
  cases h

theorem ne_parenthesis_of_isNameChar {c : Char} (h : isNameChar c = true) : c ≠ '(' := by
  rintro rfl
  rw [(classes_of_mark (by decide)).2.2] at h
  cases h

/-! ## Runs -/

/-- A run ends where a character of another class, or none, comes next. -/
theorem takeWhile_run {α : Type} {holds : α → Bool} {run rest : List α}
    (hrun : ∀ c ∈ run, holds c = true) (hrest : ∀ c ∈ rest.head?, holds c = false) :
    (run ++ rest).takeWhile holds = run ∧ (run ++ rest).dropWhile holds = rest := by
  rw [List.takeWhile_append_of_pos hrun, List.dropWhile_append_of_pos hrun]
  cases rest with
  | nil => simp
  | cons c rest => simp [hrest c rfl]

/-! ## Lexemes -/

namespace Parser

variable {ρ : Type → Type} (rule : ∀ {β : Type}, ρ β → List Char → Attempt β)

/-- Reading characters of a class one after the other takes the longest run of them. -/
theorem repeated_readChar (holds : Char → Bool) (s : List Char) :
    repeated (fun s => some (readChar holds s)) s =
      some (.matched (s.takeWhile holds) (s.dropWhile holds)) := by
  induction s with
  | nil => rw [repeated_eq]; rfl
  | cons c s ih =>
    rw [repeated_eq, readChar]
    by_cases hc : holds c = true
    · simp [hc, ih, Attempt.andThen]
    · simp [hc]

theorem repeated1_readChar {holds : Char → Bool} {c : Char} (h : holds c = true)
    (s : List Char) :
    repeated1 (fun s => some (readChar holds s)) (c :: s) =
      some (.matched (c :: s.takeWhile holds) (s.dropWhile holds)) := by
  have hlt : s.length < (c :: s).length := Nat.lt_succ_self _
  rw [repeated1_eq, readChar, if_pos h]
  simp only [Attempt.andThen, if_pos hlt, repeated_readChar]

/-- The value of a run of characters, and what comes after the run. -/
theorem denote_lexeme {holds : Char → Bool} (value? : List Char → Option Word) {c : Char}
    (h : holds c = true) (s : List Char) :
    denote rule (.bind (.many1 (.satisfies holds)) fun cs => .ofOption (value? cs)) (c :: s) =
      some (.ofOption
        ((value? (c :: s.takeWhile holds)).map fun v => (v, s.dropWhile holds))) := by
  simp only [denote, repeated1_readChar h, Attempt.andThen]
  cases value? (c :: s.takeWhile holds) <;> rfl

/-- A lexeme does not start with a character of another class. -/
theorem denote_lexeme_failed {holds : Char → Bool} (value? : List Char → Option Word)
    {s : List Char} (h : ∀ c ∈ s.head?, holds c = false) :
    denote rule (.bind (.many1 (.satisfies holds)) fun cs => .ofOption (value? cs)) s =
      some .failed := by
  have hread : readChar holds s = .failed := by
    cases s with
    | nil => rfl
    | cons c s => rw [readChar, h c rfl]; rfl
  simp only [denote, repeated1_eq, hread, Attempt.andThen]

end Parser

namespace Grammar

variable (rule : ∀ {β : Type}, Rule β → List Char → Attempt β)

/-- A mark takes the blanks on both sides of it. -/
theorem denote_mark (c : Char) (s : List Char) :
    Parser.denote rule (mark c) s =
      some (.ofOption ((Text.after? c (Text.skipBlanks s)).map fun t => (c, t))) := by
  simp only [mark, Parser.character, Parser.denote]
  cases Text.skipBlanks s with
  | nil => rfl
  | cons d rest =>
    by_cases hd : d = c
    · subst hd
      simp [Parser.readChar, Text.after?, Attempt.andThen, Outcome.ofOption]
    · simp [Parser.readChar, Text.after?, Attempt.andThen, Outcome.ofOption, hd]

/-- A lexeme is the whole run of its class at the beginning of a text, if there is one and it has
a value. -/
theorem parse_lexeme (registers : Registers) {holds : Char → Bool}
    (value? : List Char → Option Word) (s : List Char) :
    parse registers (.bind (.many1 (.satisfies holds)) fun cs => .ofOption (value? cs)) s =
      if s.takeWhile holds = [] then .failed
      else .ofOption ((value? (s.takeWhile holds)).map fun v => (v, s.dropWhile holds)) := by
  rw [parse, Parser.run]
  cases s with
  | nil => rfl
  | cons c s =>
    by_cases hc : holds c = true
    · rw [Parser.denote_lexeme _ value? hc]
      simp [hc]
    · have hfail : ∀ d ∈ (c :: s).head?, holds d = false := by simpa using hc
      rw [Parser.denote_lexeme_failed _ _ hfail]
      simp [hc]

end Grammar

end Reckon
