import Reckon.Json.Item
import Reckon.Proofs.JsonGrammar

/-!
# Scanning texts of the grammar

The scanners read what the grammar describes, to its end and no further, whatever comes after it:

* white space is passed over (`skipSpace_space`);
* a string gives the text that it stands for (`string_stringText`);
* a number gives what its literal denotes (`number_written`), if nothing follows that would make it
  another number (`EndsNumber`).
-/

set_option autoImplicit false

namespace Reckon

open Text (Piece)

namespace Json

/-! ## White space -/

theorem isSpace_char {c : Char} : isSpace (.char c) = true ↔ c ∈ [' ', '\t', '\n', '\r'] := by
  simp [isSpace, or_assoc]

theorem isSpace_of_isDigit {c : Char} (h : c.isDigit = true) : isSpace (.char c) = false := by
  apply Bool.eq_false_iff.2
  intro hs
  have hmem := isSpace_char.1 hs
  simp only [List.mem_cons, List.not_mem_nil, or_false] at hmem
  rcases hmem with rfl | rfl | rfl | rfl <;> cases h

theorem skipSpace_cons {p : Piece} (h : isSpace p = false) (s : List Piece) :
    skipSpace (p :: s) = p :: s :=
  List.dropWhile_cons_of_neg (by rw [h]; exact Bool.false_ne_true)

theorem skipSpace_space {w : List Char} (hw : Space w) (rest : List Piece) :
    skipSpace (Piece.ofText w ++ rest) = skipSpace rest := by
  refine List.dropWhile_append_of_pos fun p hp => ?_
  obtain ⟨c, hc, rfl⟩ := List.mem_map.1 hp
  exact isSpace_char.2 (hw c hc)

theorem skipSpace_eq_nil {w : List Char} (hw : Space w) : skipSpace (Piece.ofText w) = [] := by
  have hnil := skipSpace_space hw []
  rw [List.append_nil] at hnil
  exact hnil

theorem skipSpace_space_cons {w : List Char} {p : Piece} (hw : Space w) (hp : isSpace p = false)
    (rest : List Piece) : skipSpace (Piece.ofText w ++ p :: rest) = p :: rest := by
  rw [skipSpace_space hw, skipSpace_cons hp]

/-! ## Strings -/

theorem HexDigit.hexValue {c : Char} {n : Nat} (h : HexDigit c n) : hexValue c = some n := by
  have hvalue : ∀ n < 16, "0123456789abcdef".toList[n]?.bind Json.hexValue = some n ∧
      "0123456789ABCDEF".toList[n]?.bind Json.hexValue = some n := by
    decide
  rcases h with h | h
  · obtain ⟨hn, -⟩ := List.getElem?_eq_some_iff.1 h
    have hdigit := (hvalue n hn).1
    rw [h] at hdigit
    exact hdigit
  · obtain ⟨hn, -⟩ := List.getElem?_eq_some_iff.1 h
    have hdigit := (hvalue n hn).2
    rw [h] at hdigit
    exact hdigit

theorem fourHex_hex {x : List Char} {n : Nat} (h : Hex x n) (rest : List Piece) :
    fourHex (Piece.ofText x ++ rest) = .ok (n, rest) := by
  cases h with
  | mk ha hb hc hd =>
    simp [fourHex, hexNumber, Piece.char?, ha.hexValue, hb.hexValue, hc.hexValue, hd.hexValue]
    omega

theorem simpleEscape_shortEscapes :
    ∀ p ∈ shortEscapes, p.1 ≠ 'u' ∧ simpleEscape p.1 = some p.2 := by
  decide

theorem escape_short {e c : Char} (h : (e, c) ∈ shortEscapes) (rest : List Piece) :
    escape (.char e :: rest) = .ok (c, rest) := by
  obtain ⟨hu, hc⟩ := simpleEscape_shortEscapes _ h
  unfold escape
  split
  · rename_i heq; cases heq
  · rename_i heq; cases heq; exact absurd rfl hu
  · rename_i heq; cases heq; simp [Piece.char?, hc]

/-- The number of a character is no surrogate. -/
theorem not_surrogate (c : Char) :
    isLowSurrogate c.toNat = false ∧ isHighSurrogate c.toNat = false := by
  have hvalid : c.toNat < 0xd800 ∨ 0xdfff < c.toNat ∧ c.toNat < 0x110000 := c.valid
  simp [isLowSurrogate, isHighSurrogate]
  omega

theorem escape_numeric {x : List Char} {c : Char} (h : Hex x c.toNat) (rest : List Piece) :
    escape (.char 'u' :: (Piece.ofText x ++ rest)) = .ok (c, rest) := by
  obtain ⟨hlow, hhigh⟩ := not_surrogate c
  show numericEscape (Piece.ofText x ++ rest) = _
  rw [numericEscape, fourHex_hex h]
  simp [hlow, hhigh, bind, Except.bind]

theorem escape_pair {x y : List Char} {n m : Nat} {c : Char} (hx : Hex x n) (hy : Hex y m)
    (hn : 0xd800 ≤ n ∧ n ≤ 0xdbff) (hm : 0xdc00 ≤ m ∧ m ≤ 0xdfff)
    (hc : c.toNat = 0x10000 + (n - 0xd800) * 0x400 + (m - 0xdc00)) (rest : List Piece) :
    escape (.char 'u' :: (Piece.ofText x ++
        .char '\\' :: .char 'u' :: (Piece.ofText y ++ rest))) = .ok (c, rest) := by
  have hnlow : isLowSurrogate n = false := by simp [isLowSurrogate]; omega
  have hnhigh : isHighSurrogate n = true := by simp [isHighSurrogate, hn]
  have hmlow : isLowSurrogate m = true := by simp [isLowSurrogate, hm]
  show numericEscape _ = _
  rw [numericEscape, fourHex_hex hx]
  simp [hnlow, hnhigh, hmlow, fourHex_hex hy, ← hc, bind, Except.bind]

theorem stringBody_plain {c : Char} (hc : Plain c) (seen rest : List Piece) :
    stringBody seen (.char c :: rest) = stringBody (.char c :: seen) rest := by
  have hcontrol : isControl c = false := decide_eq_false (Nat.not_lt.2 hc.le)
  rw [stringBody]
  · simp [hcontrol]
  · simpa using hc.ne_quote
  · simpa using hc.ne_backslash

theorem stringBody_escape {s rest : List Piece} {c : Char} (h : escape s = .ok (c, rest))
    (seen : List Piece) :
    stringBody seen (.char '\\' :: s) = stringBody (.char c :: seen) rest := by
  rw [stringBody]
  split
  · rename_i hs
    rw [h] at hs
    cases hs
  · rename_i hs
    rw [h] at hs
    cases hs
    rfl

theorem stringBody_stringText {s t : List Char} (h : StringText s t) (seen rest : List Piece) :
    stringBody seen (Piece.ofText s ++ .char '\x22' :: rest) =
      .ok (seen.reverse ++ Piece.ofText t, rest) := by
  induction h generalizing seen with
  | nil =>
    show stringBody seen (.char '\x22' :: rest) = _
    rw [stringBody, Piece.ofText_nil, List.append_nil]
  | plain hc h ih =>
    rw [Piece.ofText_cons, List.cons_append, stringBody_plain hc, ih]
    simp
  | short he h ih =>
    simp only [Piece.ofText_cons, List.cons_append]
    rw [stringBody_escape (escape_short he _), ih]
    simp
  | numeric hx hc h ih =>
    rw [← hc] at hx
    simp only [Piece.ofText_cons, Piece.ofText_append, List.cons_append, List.append_assoc]
    rw [stringBody_escape (escape_numeric hx _), ih]
    simp
  | pair hx hy hn hm hc h ih =>
    have hescape := escape_pair hx hy hn hm hc
    simp only [Piece.ofText_cons, Piece.ofText_append, List.cons_append, List.append_assoc]
    rw [stringBody_escape (hescape _), ih]
    simp

/-- A string, after its first quote, is read as the text that it stands for. -/
theorem string_stringText {s t : List Char} (h : StringText s t) (rest : List Piece) :
    string (Piece.ofText s ++ .char '\x22' :: rest) = .ok (t, rest) := by
  simp [string, stringBody_stringText h, bind, Except.bind, Piece.mapM_char?_ofText]

/-! ## Numbers -/

/-- Nothing that would go on with a number comes next. -/
def EndsNumber (rest : List Piece) : Prop :=
  ∀ p ∈ rest.head?, isDigit p = false ∧ p ≠ .char '.' ∧ p ≠ .char 'e' ∧ p ≠ .char 'E'

theorem endsNumber_cons {c : Char} {rest : List Piece} (hdigit : c.isDigit = false)
    (hc : c ≠ '.' ∧ c ≠ 'e' ∧ c ≠ 'E') : EndsNumber (.char c :: rest) := by
  intro p hp
  cases hp
  simpa [isDigit, hdigit] using hc

/-- White space ends a number. -/
theorem EndsNumber.space {w : List Char} {rest : List Piece} (h : EndsNumber rest) (hw : Space w) :
    EndsNumber (Piece.ofText w ++ rest) := by
  cases w with
  | nil => exact h
  | cons c w =>
    have hc := hw c List.mem_cons_self
    simp only [List.mem_cons, List.not_mem_nil, or_false] at hc
    rcases hc with rfl | rfl | rfl | rfl <;> exact endsNumber_cons rfl (by decide)

theorem endsNumber_close (b : Bracket) (rest : List Piece) :
    EndsNumber (.char b.close :: rest) := by
  cases b <;> exact endsNumber_cons rfl (by decide)

theorem endsNumber_comma (rest : List Piece) : EndsNumber (.char ',' :: rest) :=
  endsNumber_cons rfl (by decide)

theorem scanDigits_ofText {f : Fault} {ds : List Char} {rest : List Piece}
    (hds : IsRun Char.isDigit ds) (hrest : ∀ p ∈ rest.head?, isDigit p = false) :
    scanDigits f (Piece.ofText ds ++ rest) = .ok (ds, rest) := by
  have hall : ∀ p ∈ Piece.ofText ds, isDigit p = true := by
    intro p hp
    obtain ⟨c, hc, rfl⟩ := List.mem_map.1 hp
    exact hds.all c hc
  obtain ⟨htake, hdrop⟩ := takeWhile_run hall hrest
  obtain ⟨d, t, rfl, hd, -⟩ := hds.exists_cons
  have hfirst : isDigit (.char d) = true := hd
  unfold scanDigits
  rw [htake, hdrop, Piece.filterMap_char?_ofText]
  simp [hfirst]

theorem scanWhole_ofText {f : Fault} {ds : List Char} {rest : List Piece} (h : Literal.Whole ds)
    (hrest : ∀ p ∈ rest.head?, isDigit p = false) :
    scanWhole f (Piece.ofText ds ++ rest) = .ok (ds, rest) := by
  unfold scanWhole
  rw [scanDigits_ofText h.run hrest]
  split
  · rename_i hs
    cases hs
    exact absurd (h.zero rfl) (by simp)
  · rfl

theorem scanFraction_ofText {f : Fault} {ds s : List Char} {rest : List Piece}
    (h : Literal.Fraction ds s)
    (hrest : ∀ p ∈ rest.head?, isDigit p = false ∧ p ≠ .char '.') :
    scanFraction f (Piece.ofText s ++ rest) = .ok (ds, rest) := by
  cases h with
  | absent =>
    rw [Piece.ofText_nil, List.nil_append]
    unfold scanFraction
    split
    · exact absurd rfl (hrest _ rfl).2
    · rfl
  | present h => exact scanDigits_ofText h fun p hp => (hrest p hp).1

/-- A sign, or the first digit where there is none. -/
theorem scanSign_digit {ds : List Char} (h : IsRun Char.isDigit ds) (rest : List Piece) :
    scanSign (Piece.ofText ds ++ rest) = (false, Piece.ofText ds ++ rest) := by
  obtain ⟨d, t, rfl, hd, -⟩ := h.exists_cons
  unfold scanSign
  split
  · rename_i heq
    cases heq
    cases hd
  · rename_i heq
    cases heq
    cases hd
  · rfl

theorem scanPower_ofText {f : Fault} {power : Option (Bool × List Char)} {s : List Char}
    {rest : List Piece} (h : Literal.Power power s) (hrest : EndsNumber rest) :
    scanPower f (Piece.ofText s ++ rest) = .ok (power, rest) := by
  have hdigit : ∀ p ∈ rest.head?, isDigit p = false := fun p hp => (hrest p hp).1
  cases h with
  | absent =>
    rw [Piece.ofText_nil, List.nil_append]
    unfold scanPower
    split
    · exact absurd rfl (hrest _ rfl).2.2.1
    · exact absurd rfl (hrest _ rfl).2.2.2
    · rfl
  | unsigned he h =>
    rcases he with rfl | rfl <;>
      simp [scanPower, scanSign_digit h, scanDigits_ofText h hdigit, Except.map]
  | plus he h | minus he h =>
    rcases he with rfl | rfl <;>
      simp [scanPower, scanSign, scanDigits_ofText h hdigit, Except.map]

theorem head_fraction {ds s : List Char} {rest : List Piece} (h : Literal.Fraction ds s)
    (hrest : ∀ p ∈ rest.head?, isDigit p = false) :
    ∀ p ∈ (Piece.ofText s ++ rest).head?, isDigit p = false := by
  cases h with
  | absent => exact hrest
  | present h =>
    intro p hp
    cases hp
    rfl

theorem head_power {power : Option (Bool × List Char)} {s : List Char} {rest : List Piece}
    (h : Literal.Power power s) (hrest : EndsNumber rest) :
    ∀ p ∈ (Piece.ofText s ++ rest).head?, isDigit p = false ∧ p ≠ .char '.' := by
  intro p hp
  cases h with
  | absent => exact ⟨(hrest p hp).1, (hrest p hp).2.1⟩
  | unsigned he h | plus he h | minus he h =>
    cases hp
    rcases he with rfl | rfl <;> decide

theorem scanLiteral_unsigned {l : Literal} {s : List Char} {rest : List Piece} (h : l.Unsigned s)
    (hrest : EndsNumber rest) (negative : Bool) (f : Fault) :
    scanLiteral negative f (Piece.ofText s ++ rest) =
      .ok ({ l with negative := negative }, rest) := by
  cases h with
  | mk hw hf hp =>
    have hpower := head_power hp hrest
    have hfraction := head_fraction hf fun p hp => (hpower p hp).1
    simp only [Piece.ofText_append, List.append_assoc, scanLiteral, scanWhole_ofText hw hfraction,
      scanFraction_ofText hf hpower, scanPower_ofText hp hrest, bind, Except.bind]

/-- A number without its sign begins with a digit. -/
theorem Literal.Unsigned.exists_cons {l : Literal} {s : List Char} (h : l.Unsigned s) :
    ∃ d t, s = d :: t ∧ d.isDigit = true := by
  cases h with
  | mk hw hf hp =>
    obtain ⟨d, t, hds, hd, -⟩ := hw.run.exists_cons
    exact ⟨d, t ++ _, by rw [hds]; rfl, hd⟩

theorem Literal.Written.exists_cons {l : Literal} {s : List Char} (h : l.Written s) :
    ∃ c t, s = c :: t ∧ (c = '-' ∨ c.isDigit = true) ∧ isSpace (.char c) = false := by
  cases h with
  | positive hl h =>
    obtain ⟨d, t, hs, hd⟩ := h.exists_cons
    exact ⟨d, t, hs, .inr hd, isSpace_of_isDigit hd⟩
  | negative hl h => exact ⟨'-', _, rfl, .inl rfl, rfl⟩

/-- A number is read as what its literal denotes. -/
theorem number_written {l : Literal} {s : List Char} {rest : List Piece} (h : l.Written s)
    (hrest : EndsNumber rest) :
    number (Piece.ofText s ++ rest) = l.number.map (·, rest) := by
  have hmap : (do .ok (← l.number, rest) : Except Fault (Number × List Piece)) =
      l.number.map (·, rest) := by
    cases l.number <;> rfl
  unfold number
  cases h with
  | positive hl h =>
    have hliteral := scanLiteral_unsigned h hrest l.negative (.endInside .value)
    obtain ⟨d, t, rfl, hd⟩ := h.exists_cons
    rw [hl] at hliteral
    split
    · rename_i heq
      cases heq
      cases hd
    · rw [hliteral, ← hl]
      exact hmap
  | negative hl h =>
    have hliteral := scanLiteral_unsigned h hrest l.negative (.endInside .value)
    rw [hl] at hliteral
    simp only [Piece.ofText_cons, List.cons_append]
    rw [hliteral, ← hl]
    exact hmap

/-! ## Punctuation -/

section
variable {w : List Char} (hw : Space w) (rest : List Piece)
include hw

theorem colon_space : colon (Piece.ofText w ++ .char ':' :: rest) = .ok rest := by
  simp [colon, skipSpace_space_cons hw, isSpace]

theorem firstKey_quote : firstKey (Piece.ofText w ++ .char '\x22' :: rest) = .ok (true, rest) := by
  simp [firstKey, skipSpace_space_cons hw, isSpace]

theorem firstKey_brace : firstKey (Piece.ofText w ++ .char '\x7d' :: rest) = .ok (false, rest) := by
  simp [firstKey, skipSpace_space_cons hw, isSpace]

theorem nextKey_brace : nextKey (Piece.ofText w ++ .char '\x7d' :: rest) = .ok (false, rest) := by
  simp [nextKey, skipSpace_space_cons hw, isSpace]

theorem nextKey_comma {w' : List Char} (hw' : Space w') :
    nextKey (Piece.ofText w ++ .char ',' :: (Piece.ofText w' ++ .char '\x22' :: rest)) =
      .ok (true, rest) := by
  simp [nextKey, skipSpace_space_cons hw, skipSpace_space_cons hw', isSpace]

end

end Json

end Reckon
