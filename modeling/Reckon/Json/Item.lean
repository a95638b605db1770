import Reckon.Json.Number

/-!
# Items of lists and members of objects

`found` says what stands at the place of a value, for the fault `wrongKind`. `firstKey`, `nextKey`
and `firstElement`, `nextElement`, `endOfList` are the punctuation of objects and lists whose
content is used.
-/

set_option autoImplicit false

namespace Reckon.Json

open Text (Piece)

/-! ## Values of the wrong kind -/

/-- What stands at the place of a value: short values are read, of lists and objects only the
bracket. -/
def found (s : List Piece) : Except Fault Found :=
  match s with
  | [] => .error (.endInside .value)
  | .char 'n' :: s => (word ['u', 'l', 'l'] s).map fun _ => .null
  | .char 't' :: s => (word ['r', 'u', 'e'] s).map fun _ => .bool true
  | .char 'f' :: s => (word ['a', 'l', 's', 'e'] s).map fun _ => .bool false
  | .char '\x22' :: s => (string s).map fun (text, _) => .string text
  | .char '[' :: _ => .ok .array
  | .char '\x7b' :: _ => .ok .object
  | p :: s =>
    if p = .char '-' ∨ isDigit p then (number (p :: s)).map fun (n, _) => .number n
    else .error .expectedValue

/-- The fault of a value that is not of the kind `expected`. -/
def wrongKind {α : Type} (expected : Kind) (s : List Piece) : Except Fault α :=
  (found s).bind fun f => .error (.wrongKind f expected)

theorem wrongKind_ne_ok {α : Type} {expected : Kind} {s : List Piece} {a : α} :
    wrongKind expected s ≠ .ok a := by
  intro h
  obtain ⟨_, _, h⟩ := bind_eq_ok.1 h
  cases h

/-! ## Members of objects -/

/-- After the bracket that opens an object: does a key follow? Its first quote is read. -/
def firstKey (s : List Piece) : Scan Bool :=
  match skipSpace s with
  | [] => .error (.endInside .object)
  | .char '\x7d' :: rest => .ok (false, rest)
  | .char '\x22' :: rest => .ok (true, rest)
  | _ => .error .keyNotString

/-- After a member of an object: does another key follow? Its first quote is read. -/
def nextKey (s : List Piece) : Scan Bool :=
  match skipSpace s with
  | [] => .error (.endInside .object)
  | .char '\x7d' :: rest => .ok (false, rest)
  | .char ',' :: rest =>
    match skipSpace rest with
    | [] => .error (.endInside .value)
    | .char '\x7d' :: _ => .error .trailingComma
    | .char '\x22' :: rest => .ok (true, rest)
    | _ => .error .keyNotString
  | _ => .error .expectedCommaOrBrace

theorem length_firstKey {s rest : List Piece} {more : Bool}
    (h : firstKey s = .ok (more, rest)) : rest.length < s.length := by
  have le := length_skipSpace s
  unfold firstKey at h
  split at h
  · cases h
  · rename_i hs; rw [hs, List.length_cons] at le; cases h; omega
  · rename_i hs; rw [hs, List.length_cons] at le; cases h; omega
  · cases h

theorem length_nextKey {s rest : List Piece} {more : Bool} (h : nextKey s = .ok (more, rest)) :
    rest.length < s.length := by
  have le := length_skipSpace s
  unfold nextKey at h
  split at h
  · cases h
  · rename_i hs; rw [hs, List.length_cons] at le; cases h; omega
  · rename_i t hs
    rw [hs, List.length_cons] at le
    have le' := length_skipSpace t
    split at h
    · cases h
    · cases h
    · rename_i ht; rw [ht, List.length_cons] at le'; cases h; omega
    · cases h
  · cases h

/-! ## Elements of lists -/

/-- After the bracket that opens a list: does an element follow? -/
def firstElement (s : List Piece) : Scan Bool :=
  match skipSpace s with
  | [] => .error (.endInside .array)
  | .char ']' :: rest => .ok (false, rest)
  | s => .ok (true, s)

/-- After an element of a list: does another one follow? -/
def nextElement (s : List Piece) : Scan Bool :=
  match skipSpace s with
  | [] => .error (.endInside .array)
  | .char ']' :: rest => .ok (false, rest)
  | .char ',' :: rest =>
    match skipSpace rest with
    | [] => .error (.endInside .value)
    | .char ']' :: _ => .error .trailingComma
    | s => .ok (true, s)
  | _ => .error .expectedCommaOrBracket

/-- The end of a list after its last element. -/
def endOfList (s : List Piece) : Except Fault (List Piece) :=
  match skipSpace s with
  | [] => .error (.endInside .array)
  | .char ']' :: rest => .ok rest
  | .char ',' :: rest =>
    match skipSpace rest with
    | .char ']' :: _ => .error .trailingComma
    | _ => .error .trailingCharacters
  | _ => .error .trailingCharacters

end Reckon.Json
