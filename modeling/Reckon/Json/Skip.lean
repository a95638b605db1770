import Reckon.Json.Number

/-!
# Values that are not used

`skipValue` passes over a value of any kind. It checks the syntax and keeps nothing: numbers may
be of any size, surrogates need not be paired, and the encoding of strings is not looked at. The
lists and objects that are open are kept in a list, so that values may nest to any depth.
-/

set_option autoImplicit false

namespace Reckon.Json

open Text (Piece)

/-- The rest of a string of which the first quote has been read. -/
def skipString (s : List Piece) : Except Fault (List Piece) :=
  match s with
  | [] => .error (.endInside .string)
  | .char '\x22' :: rest => .ok rest
  | [.char '\\'] => .error (.endInside .string)
  | .char '\\' :: .char 'u' :: s =>
    match _h : fourHex s with
    | .error fault => .error fault
    | .ok (_, rest) => skipString rest
  | .char '\\' :: p :: rest =>
    if (p.char?.bind simpleEscape).isSome then skipString rest else .error .invalidEscape
  | .char c :: rest => if isControl c then .error .controlCharacter else skipString rest
  | .stray _ :: rest => skipString rest
termination_by s.length
decreasing_by
  · have := length_fourHex _h; simp only [List.length_cons]; omega
  · simp only [List.length_cons]; omega
  · simp
  · simp

/-- A number, from its sign or first digit. -/
def skipNumber (s : List Piece) : Except Fault (List Piece) :=
  let digits := match s with
    | .char '-' :: s => s
    | _ => s
  (scanLiteral false .invalidNumber digits).map Prod.snd

/-- A value without parts, or the bracket that opens a list or an object. -/
def skipSimple (s : List Piece) : Scan (Option Bracket) :=
  match skipSpace s with
  | [] => .error (.endInside .value)
  | .char 'n' :: s => (word ['u', 'l', 'l'] s).map (none, ·)
  | .char 't' :: s => (word ['r', 'u', 'e'] s).map (none, ·)
  | .char 'f' :: s => (word ['a', 'l', 's', 'e'] s).map (none, ·)
  | .char '\x22' :: s => (skipString s).map (none, ·)
  | .char '[' :: s => .ok (some .square, s)
  | .char '\x7b' :: s => .ok (some .curly, s)
  | p :: s =>
    if p = .char '-' ∨ isDigit p then (skipNumber (p :: s)).map (none, ·)
    else .error .expectedValue

/-- What stands before a value inside a bracket: nothing in a list, a key and a colon in an
object. -/
def skipKey (b : Bracket) (s : List Piece) : Except Fault (List Piece) :=
  match b with
  | .square => .ok s
  | .curly =>
    match skipSpace s with
    | [] => .error (.endInside .object)
    | .char '\x22' :: s => (skipString s).bind colon
    | _ => .error .keyNotString

/-- After an opening bracket: does a value follow? -/
def skipFirst (b : Bracket) (s : List Piece) : Scan Bool :=
  match skipSpace s with
  | [] => .error (.endInside b.place)
  | p :: rest => if p = .char b.close then .ok (false, rest) else (skipKey b s).map (true, ·)

/-- After a value inside a bracket: does another one follow? -/
def skipNext (b : Bracket) (s : List Piece) : Scan Bool :=
  match skipSpace s with
  | [] => .error (.endInside b.place)
  | p :: rest =>
    if p = .char ',' then (skipKey b rest).map (true, ·)
    else if p = .char b.close then .ok (false, rest)
    else .error b.expectedComma

/-! ## Lengths -/

theorem length_skipString {s rest : List Piece} (h : skipString s = .ok rest) :
    rest.length < s.length := by
  fun_induction skipString s with
  | case1 => cases h
  | case2 => cases h; simp
  | case3 => cases h
  | case4 => cases h
  | case5 s n r h' ih =>
    have := ih h; have := length_fourHex h'; simp only [List.length_cons]; omega
  | case6 p s _ _ ih => have := ih h; simp only [List.length_cons]; omega
  | case7 => cases h
  | case8 => cases h
  | case9 c s _ _ _ _ _ ih => have := ih h; simp only [List.length_cons]; omega
  | case10 b s ih => have := ih h; simp only [List.length_cons]; omega

theorem length_skipNumber {s rest : List Piece} (h : skipNumber s = .ok rest) :
    rest.length < s.length := by
  unfold skipNumber at h
  have aux : ∀ {t : List Piece},
      (scanLiteral false .invalidNumber t).map Prod.snd = .ok rest → rest.length < t.length := by
    intro t h
    cases h1 : scanLiteral false .invalidNumber t with
    | error => rw [h1] at h; cases h
    | ok r => rw [h1] at h; cases h; exact length_scanLiteral h1
  split at h
  · have := aux h; simp only [List.length_cons]; omega
  · exact aux h

theorem length_map_pair {α : Type} {a b : α} {x : Except Fault (List Piece)}
    {rest : List Piece} {n : Nat} (h : x.map (a, ·) = .ok (b, rest))
    (hx : ∀ r, x = .ok r → r.length < n) : rest.length < n := by
  cases x with
  | error => cases h
  | ok r => cases h; exact hx _ rfl

theorem length_skipSimple {s rest : List Piece} {b : Option Bracket}
    (h : skipSimple s = .ok (b, rest)) : rest.length < s.length := by
  have le := length_skipSpace s
  unfold skipSimple at h
  split at h
  · cases h
  · rename_i hs; rw [hs, List.length_cons] at le
    exact length_map_pair h fun r hr => by have := length_word hr; omega
  · rename_i hs; rw [hs, List.length_cons] at le
    exact length_map_pair h fun r hr => by have := length_word hr; omega
  · rename_i hs; rw [hs, List.length_cons] at le
    exact length_map_pair h fun r hr => by have := length_word hr; omega
  · rename_i hs; rw [hs, List.length_cons] at le
    exact length_map_pair h fun r hr => by have := length_skipString hr; omega
  · rename_i hs; rw [hs, List.length_cons] at le; cases h; omega
  · rename_i hs; rw [hs, List.length_cons] at le; cases h; omega
  · rename_i hs; rw [hs, List.length_cons] at le
    split at h
    · exact length_map_pair h fun r hr => by have := length_skipNumber hr; simp at this; omega
    · cases h

theorem length_skipKey {b : Bracket} {s rest : List Piece} (h : skipKey b s = .ok rest) :
    rest.length ≤ s.length := by
  cases b with
  | square => cases h; exact Nat.le_refl _
  | curly =>
    have le := length_skipSpace s
    simp only [skipKey] at h
    split at h
    · cases h
    · rename_i t hs
      rw [hs, List.length_cons] at le
      cases h1 : skipString t with
      | error => rw [h1] at h; cases h
      | ok r =>
        have := length_skipString h1
        rw [h1] at h
        have := length_colon h
        omega
    · cases h

theorem length_skipFirst {b : Bracket} {s rest : List Piece} {more : Bool}
    (h : skipFirst b s = .ok (more, rest)) : rest.length ≤ s.length := by
  have le := length_skipSpace s
  unfold skipFirst at h
  split at h
  · cases h
  · rename_i hs
    rw [hs, List.length_cons] at le
    split at h
    · cases h; omega
    · exact Nat.le_of_lt_succ (length_map_pair h fun r hr =>
        Nat.lt_succ_of_le (length_skipKey hr))

theorem length_skipNext {b : Bracket} {s rest : List Piece} {more : Bool}
    (h : skipNext b s = .ok (more, rest)) : rest.length < s.length := by
  have le := length_skipSpace s
  unfold skipNext at h
  split at h
  · cases h
  · rename_i hs
    rw [hs, List.length_cons] at le
    split at h
    · exact length_map_pair h fun r hr => by have := length_skipKey hr; omega
    · split at h
      · cases h; omega
      · cases h

/-! ## Values -/

mutual

/-- A value, and then what is left of the brackets that are open around it, the inner ones
first. -/
def skipOpen (opened : List Bracket) (s : List Piece) : Except Fault (List Piece) :=
  match _h : skipSimple s with
  | .error fault => .error fault
  | .ok (none, rest) => closeAll opened rest
  | .ok (some b, inside) =>
    match _h' : skipFirst b inside with
    | .error fault => .error fault
    | .ok (true, rest) => skipOpen (b :: opened) rest
    | .ok (false, rest) => closeAll opened rest
termination_by s.length
decreasing_by
  · have := length_skipSimple _h; omega
  · have := length_skipSimple _h; have := length_skipFirst _h'; omega
  · have := length_skipSimple _h; have := length_skipFirst _h'; omega

/-- What is left of the brackets that are open, after a value in the innermost one. -/
def closeAll (opened : List Bracket) (s : List Piece) : Except Fault (List Piece) :=
  match opened with
  | [] => .ok s
  | b :: outer =>
    match _h : skipNext b s with
    | .error fault => .error fault
    | .ok (true, rest) => skipOpen (b :: outer) rest
    | .ok (false, rest) => closeAll outer rest
termination_by s.length
decreasing_by
  · have := length_skipNext _h; omega
  · have := length_skipNext _h; omega

end

/-- A value of any kind. -/
def skipValue (s : List Piece) : Except Fault (List Piece) := skipOpen [] s

mutual

theorem length_skipOpen {opened : List Bracket} {s rest : List Piece}
    (h : skipOpen opened s = .ok rest) : rest.length < s.length := by
  unfold skipOpen at h
  split at h
  · cases h
  · rename_i h1
    have := length_skipSimple h1; have := length_closeAll h; omega
  · rename_i h1
    have := length_skipSimple h1
    split at h
    · cases h
    · rename_i h2
      have := length_skipFirst h2; have := length_skipOpen h; omega
    · rename_i h2
      have := length_skipFirst h2; have := length_closeAll h; omega
termination_by s.length
decreasing_by all_goals omega

theorem length_closeAll {opened : List Bracket} {s rest : List Piece}
    (h : closeAll opened s = .ok rest) : rest.length ≤ s.length := by
  unfold closeAll at h
  split at h
  · cases h; exact Nat.le_refl _
  · split at h
    · cases h
    · rename_i h1
      have := length_skipNext h1; have := length_skipOpen h; omega
    · rename_i h1
      have := length_skipNext h1; have := length_closeAll h; omega
termination_by s.length
decreasing_by all_goals omega

end

end Reckon.Json
