import Reckon.Json.Fault
import Reckon.Text.Utf8

/-!
# Scanning JSON

The smallest parts of JSON: white space, words, strings and punctuation. Each scanner takes the
pieces of the text that are left and gives a value and the pieces after it, or the first fault.
`length_…` lemmas say that a scanner shortens what is left.
-/

set_option autoImplicit false

namespace Reckon.Json

open Text (Piece)

/-- What a scanner gives: a value and what is left, or a fault. -/
abbrev Scan (α : Type) := Except Fault (α × List Piece)

/-- A sequence of two scanners succeeds if both do. -/
theorem bind_eq_ok {α β : Type} {x : Except Fault α} {f : α → Except Fault β} {b : β} :
    (x >>= f) = .ok b ↔ ∃ a, x = .ok a ∧ f a = .ok b := by
  cases x <;> simp [bind, Except.bind]

/-! ## White space -/

/-- The white space of JSON: space, tab, line feed and carriage return. -/
def isSpace : Piece → Bool
  | .char c => c == ' ' || c == '\t' || c == '\n' || c == '\r'
  | .stray _ => false

/-- The pieces from the first one that is no white space. -/
def skipSpace (s : List Piece) : List Piece := s.dropWhile isSpace

theorem length_skipSpace (s : List Piece) : (skipSpace s).length ≤ s.length :=
  (List.dropWhile_suffix isSpace).length_le

/-! ## Words -/

/-- The rest of a word of which the first letter has been read. -/
def word : List Char → List Piece → Except Fault (List Piece)
  | [], s => .ok s
  | _ :: _, [] => .error (.endInside .value)
  | c :: cs, p :: s => if p = .char c then word cs s else .error .expectedWord

theorem length_word {cs : List Char} {s rest : List Piece} (h : word cs s = .ok rest) :
    rest.length ≤ s.length := by
  fun_induction word cs s with
  | case1 s => cases h; exact Nat.le_refl _
  | case2 => cases h
  | case3 c cs s ih => have := ih h; simp only [List.length_cons]; omega
  | case4 => cases h

/-! ## Escapes -/

/-- The value of a hexadecimal digit, in either case. -/
def hexValue (c : Char) : Option Nat :=
  if c.isDigit then some (c.toNat - 48)
  else if 'a' ≤ c ∧ c ≤ 'f' then some (c.toNat - 87)
  else if 'A' ≤ c ∧ c ≤ 'F' then some (c.toNat - 55)
  else none

/-- The number that hexadecimal digits denote. -/
def hexNumber (digits : List Piece) : Option Nat :=
  digits.foldlM (fun n p => (p.char?.bind hexValue).map (16 * n + ·)) 0

/-- Four hexadecimal digits. The text has to have four more bytes. -/
def fourHex (s : List Piece) : Scan Nat :=
  match hexNumber (s.take 4) with
  | some n => if 4 ≤ s.length then .ok (n, s.drop 4) else .error (.endInside .string)
  | none =>
    if 4 ≤ Piece.widths s then .error .invalidEscape
    else .error (.endInside .string)

theorem length_fourHex {s rest : List Piece} {n : Nat} (h : fourHex s = .ok (n, rest)) :
    rest.length < s.length := by
  unfold fourHex at h
  split at h
  · split at h
    · cases h; simp only [List.length_drop]; omega
    · cases h
  · split at h <;> cases h

/-- The characters that a backslash and one more character stand for. -/
def simpleEscape : Char → Option Char
  | '\x22' => some '\x22'
  | '\\' => some '\\'
  | '/' => some '/'
  | 'b' => some '\x08'
  | 'f' => some '\x0c'
  | 'n' => some '\n'
  | 'r' => some '\r'
  | 't' => some '\t'
  | _ => none

/-- Is the number the first of two surrogates? -/
def isHighSurrogate (n : Nat) : Bool := 0xd800 ≤ n && n ≤ 0xdbff

/-- Is the number the second of two surrogates? -/
def isLowSurrogate (n : Nat) : Bool := 0xdc00 ≤ n && n ≤ 0xdfff

/-- The character of a numeric escape, of which `\u` has been read. Characters beyond the first
plane are written as two escapes. -/
def numericEscape (s : List Piece) : Except Fault (Char × List Piece) := do
  let (n, s) ← fourHex s
  if isLowSurrogate n then .error .loneSurrogate
  else if isHighSurrogate n then
    match s with
    | [] | [.char '\\'] => .error (.endInside .string)
    | .char '\\' :: .char 'u' :: s => do
      let (m, s) ← fourHex s
      if isLowSurrogate m then
        .ok (Char.ofNat (0x10000 + (n - 0xd800) * 0x400 + (m - 0xdc00)), s)
      else .error .loneSurrogate
    | _ => .error .unpairedSurrogate
  else .ok (Char.ofNat n, s)

/-- The character of an escape, of which the backslash has been read. -/
def escape (s : List Piece) : Scan Char :=
  match s with
  | [] => .error (.endInside .string)
  | .char 'u' :: s => numericEscape s
  | p :: s =>
    match p.char?.bind simpleEscape with
    | some c => .ok (c, s)
    | none => .error .invalidEscape

theorem length_numericEscape {s rest : List Piece} {c : Char}
    (h : numericEscape s = .ok (c, rest)) : rest.length < s.length := by
  obtain ⟨⟨n, s'⟩, h1, h⟩ := bind_eq_ok.1 h
  have lt := length_fourHex h1
  simp only at h
  split at h
  · cases h
  · split at h
    · split at h
      · cases h
      · cases h
      · obtain ⟨⟨m, s''⟩, h2, h⟩ := bind_eq_ok.1 h
        have lt2 := length_fourHex h2
        simp only at h
        split at h
        · simp only [Except.ok.injEq, Prod.mk.injEq] at h
          obtain ⟨-, rfl⟩ := h
          simp at lt; omega
        · cases h
      · cases h
    · simp only [Except.ok.injEq, Prod.mk.injEq] at h
      obtain ⟨-, rfl⟩ := h
      exact lt

theorem length_escape {s rest : List Piece} {c : Char} (h : escape s = .ok (c, rest)) :
    rest.length < s.length := by
  unfold escape at h
  split at h
  · cases h
  · have := length_numericEscape h; simp only [List.length_cons]; omega
  · split at h
    · cases h; simp
    · cases h

/-! ## Strings -/

/-- Characters that a string may not contain as they are. -/
def isControl (c : Char) : Bool := c.toNat < 0x20

/-- The content of a string up to the quote that ends it, after what has been `seen` of it, the
last piece first. -/
def stringBody (seen : List Piece) (s : List Piece) : Scan (List Piece) :=
  match s with
  | [] => .error (.endInside .string)
  | .char '\x22' :: rest => .ok (seen.reverse, rest)
  | .char '\\' :: s =>
    match _h : escape s with
    | .error fault => .error fault
    | .ok (c, rest) => stringBody (.char c :: seen) rest
  | .char c :: rest =>
    if isControl c then .error .controlCharacter else stringBody (.char c :: seen) rest
  | .stray b :: rest => stringBody (.stray b :: seen) rest
termination_by s.length
decreasing_by
  · have := length_escape _h; simp only [List.length_cons]; omega
  · simp
  · simp

/-- A string of which the first quote has been read. -/
def string (s : List Piece) : Except Fault (List Char × List Piece) := do
  let (pieces, rest) ← stringBody [] s
  match pieces.mapM Piece.char? with
  | some text => .ok (text, rest)
  | none => .error .invalidEncoding

theorem length_stringBody {seen s rest text : List Piece}
    (h : stringBody seen s = .ok (text, rest)) : rest.length < s.length := by
  fun_induction stringBody seen s with
  | case1 => cases h
  | case2 => cases h; simp
  | case3 => cases h
  | case4 seen s c s' h' ih =>
    have := ih h; have := length_escape h'; simp only [List.length_cons]; omega
  | case5 => cases h
  | case6 seen c s h1 h2 h3 ih => have := ih h; simp only [List.length_cons]; omega
  | case7 seen b s ih => have := ih h; simp only [List.length_cons]; omega

theorem length_string {s rest : List Piece} {text : List Char}
    (h : string s = .ok (text, rest)) : rest.length < s.length := by
  obtain ⟨⟨pieces, s'⟩, h1, h⟩ := bind_eq_ok.1 h
  have lt := length_stringBody h1
  simp only at h
  split at h
  · cases h; exact lt
  · cases h

/-! ## Lists and objects -/

/-- A list or an object. -/
inductive Bracket where
  | square
  | curly
deriving DecidableEq

namespace Bracket

/-- The character that ends it. -/
def close : Bracket → Char
  | square => ']'
  | curly => '\x7d'

def place : Bracket → Place
  | square => .array
  | curly => .object

/-- What is missing where neither a comma nor the end stands. -/
def expectedComma : Bracket → Fault
  | square => .expectedCommaOrBracket
  | curly => .expectedCommaOrBrace

end Bracket

/-- The colon between a key and its value. -/
def colon (s : List Piece) : Except Fault (List Piece) :=
  match skipSpace s with
  | [] => .error (.endInside .object)
  | .char ':' :: s => .ok s
  | _ => .error .expectedColon

theorem length_colon {s rest : List Piece} (h : colon s = .ok rest) :
    rest.length < s.length := by
  have le := length_skipSpace s
  unfold colon at h
  split at h
  · cases h
  · rename_i h1; cases h; rw [h1] at le; simp at le; omega
  · cases h

end Reckon.Json
