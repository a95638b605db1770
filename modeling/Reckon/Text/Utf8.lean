/-!
# Text in UTF-8

Bytes are read as a list of `Piece`s: the characters that they encode, and every byte that belongs
to no character. A text that was never encoded has the pieces `ofText`.
-/

set_option autoImplicit false

namespace Reckon.Text

/-- A character, or a byte that belongs to none. -/
inductive Piece where
  | char (c : Char)
  | stray (byte : UInt8)
deriving DecidableEq

namespace Piece

/-- The character. -/
def char? : Piece → Option Char
  | char c => some c
  | stray _ => none

/-- How many bytes encode the piece. -/
def width : Piece → Nat
  | char c => c.utf8Size
  | stray _ => 1

/-- How many bytes encode some pieces. -/
def widths : List Piece → Nat
  | [] => 0
  | p :: s => p.width + widths s

/-- The pieces of a text. -/
def ofText (s : List Char) : List Piece := s.map char

@[simp] theorem ofText_nil : ofText [] = [] := rfl

@[simp] theorem ofText_cons (c : Char) (s : List Char) : ofText (c :: s) = char c :: ofText s := rfl

@[simp] theorem ofText_append (s t : List Char) : ofText (s ++ t) = ofText s ++ ofText t :=
  List.map_append

theorem mapM_char?_ofText (s : List Char) : (ofText s).mapM char? = some s := by
  induction s with
  | nil => rfl
  | cons c s ih =>
    rw [ofText_cons, List.mapM_cons, ih]
    rfl

theorem filterMap_char?_ofText (s : List Char) : (ofText s).filterMap char? = s := by
  rw [ofText, List.filterMap_map]
  exact List.filterMap_some

/-- Adds the pieces of the bytes from `start` to those already `seen`, the last of them first. -/
def collect (bytes : ByteArray) (start : Nat) (seen : List Piece) : List Piece :=
  if h : start < bytes.size then
    match bytes.utf8DecodeChar? start with
    | some c => collect bytes (start + c.utf8Size) (char c :: seen)
    | none => collect bytes (start + 1) (stray bytes[start] :: seen)
  else seen.reverse
termination_by bytes.size - start
decreasing_by
  · have := c.utf8Size_pos; omega
  · omega

/-- The pieces of some bytes. -/
def ofBytes (bytes : ByteArray) : List Piece := collect bytes 0 []

end Piece

end Reckon.Text
