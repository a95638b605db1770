import Reckon.Json.Item
import Reckon.Json.Skip
import Reckon.Proofs.JsonScan

/-!
# Scanning decoded texts

In a text that is decoded no byte is stray (`Piece.Decoded`). A scanner that starts on such a text
leaves such a text, and its fault, if there is one, is not that a string is not encoded in UTF-8.
`Yields post x` states this of a result `x`, with a condition on what a success gives; it is kept by
sequences (`Yields.bind`), so there is one lemma for each scanner, from those of the scanners that
it runs.
-/

set_option autoImplicit false

namespace Reckon

open Text (Piece)

/-! ## Decoded texts -/

namespace Text.Piece

/-- Every piece is a character. -/
def Decoded (s : List Piece) : Prop := ∀ p ∈ s, ∃ c, p = char c

theorem decoded_ofText (s : List Char) : Decoded (ofText s) := by
  intro p hp
  obtain ⟨c, -, rfl⟩ := List.mem_map.1 hp
  exact ⟨c, rfl⟩

theorem decoded_nil : Decoded [] := fun _ hp => absurd hp List.not_mem_nil

namespace Decoded

variable {p : Piece} {s t : List Piece}

theorem suffix (h : Decoded s) (ht : t <:+ s) : Decoded t := fun p hp => h p (ht.subset hp)

theorem tail (h : Decoded (p :: s)) : Decoded s := h.suffix (List.suffix_cons p s)

theorem cons (c : Char) (h : Decoded s) : Decoded (char c :: s) :=
  List.forall_mem_cons.2 ⟨⟨c, rfl⟩, h⟩

theorem reverse (h : Decoded s) : Decoded s.reverse := fun p hp => h p (List.mem_reverse.1 hp)

theorem exists_ofText (h : Decoded s) : ∃ t, s = ofText t := by
  induction s with
  | nil => exact ⟨[], rfl⟩
  | cons p s ih =>
    obtain ⟨c, rfl⟩ := h p List.mem_cons_self
    obtain ⟨t, rfl⟩ := ih h.tail
    exact ⟨c :: t, rfl⟩

theorem skipSpace (h : Decoded s) : Decoded (Json.skipSpace s) := h.suffix (List.dropWhile_suffix _)

theorem of_skipSpace (h : Decoded s) (hs : Json.skipSpace s = p :: t) : Decoded t := by
  have hskip := h.skipSpace
  rw [hs] at hskip
  exact hskip.tail

end Decoded

end Text.Piece

namespace Json

open Text.Piece (Decoded)

/-! ## Results -/

/-- A success is as `post` says, and a fault is another one than that of the encoding. -/
def Yields {α : Type} (post : α → Prop) : Except Fault α → Prop
  | .ok a => post a
  | .error fault => fault ≠ .invalidEncoding

/-- What is left is decoded. -/
def LeftDecoded {α : Type} (r : α × List Piece) : Prop := Decoded r.2

section
variable {α β : Type} {post : α → Prop} {post' : β → Prop} {x : Except Fault α}

@[simp] theorem yields_error {fault : Fault} :
    Yields post (.error fault) ↔ fault ≠ .invalidEncoding := Iff.rfl

theorem Yields.of_eq_ok {a : α} (h : Yields post x) (hx : x = .ok a) : post a := by
  rw [hx] at h
  exact h

theorem Yields.of_eq_error {fault : Fault} (h : Yields post x) (hx : x = .error fault) :
    fault ≠ .invalidEncoding := by
  rw [hx] at h
  exact h

theorem Yields.with_eq (h : Yields post x) : Yields (fun a => post a ∧ x = .ok a) x := by
  cases x with
  | error fault => exact h
  | ok a => exact ⟨h, rfl⟩

theorem Yields.bind {f : α → Except Fault β} (h : Yields post x)
    (hf : ∀ a, post a → Yields post' (f a)) : Yields post' (x >>= f) := by
  cases x with
  | error fault => exact h
  | ok a => exact hf a h

theorem Yields.map {f : α → β} (h : Yields post x) (hf : ∀ a, post a → post' (f a)) :
    Yields post' (x.map f) := by
  cases x with
  | error fault => exact h
  | ok a => exact hf a h

end

variable {s : List Piece}

/-! ## Strings -/

theorem yields_word {cs : List Char} (h : Decoded s) : Yields Decoded (word cs s) := by
  fun_induction word cs s with
  | case1 s => exact h
  | case2 => simp
  | case3 c cs s ih => exact ih h.tail
  | case4 => simp

theorem yields_fourHex (h : Decoded s) : Yields LeftDecoded (fourHex s) := by
  unfold fourHex
  split
  · split
    · exact h.suffix (List.drop_suffix 4 s)
    · simp
  · split
    · simp
    · simp

theorem yields_numericEscape (h : Decoded s) : Yields LeftDecoded (numericEscape s) := by
  refine (yields_fourHex h).bind fun ⟨n, t⟩ ht => ?_
  dsimp only
  split
  · simp
  · split
    · split
      · simp
      · simp
      · refine (yields_fourHex (Decoded.tail (Decoded.tail ht))).bind fun ⟨m, u⟩ hu => ?_
        dsimp only
        split
        · exact hu
        · simp
      · simp
    · exact ht

theorem yields_escape (h : Decoded s) : Yields LeftDecoded (escape s) := by
  unfold escape
  split
  · simp
  · exact yields_numericEscape h.tail
  · split
    · exact h.tail
    · simp

theorem yields_stringBody {seen : List Piece} (hseen : Decoded seen) (h : Decoded s) :
    Yields (fun r => Decoded r.1 ∧ Decoded r.2) (stringBody seen s) := by
  fun_induction stringBody seen s with
  | case1 => simp
  | case2 seen rest => exact ⟨hseen.reverse, h.tail⟩
  | case3 seen s fault hescape => exact (yields_escape h.tail).of_eq_error hescape
  | case4 seen s c rest hescape ih =>
    exact ih (hseen.cons c) ((yields_escape h.tail).of_eq_ok hescape)
  | case5 => simp
  | case6 seen c s _ _ _ ih => exact ih (hseen.cons c) h.tail
  | case7 seen b s ih =>
    obtain ⟨c, hc⟩ := h _ List.mem_cons_self
    cases hc

/-- The content of a string in a decoded text is a text. -/
theorem yields_string (h : Decoded s) : Yields LeftDecoded (string s) := by
  refine (yields_stringBody Piece.decoded_nil h).bind fun ⟨pieces, rest⟩ ⟨hpieces, hrest⟩ => ?_
  obtain ⟨t, rfl⟩ := hpieces.exists_ofText
  dsimp only
  rw [Piece.mapM_char?_ofText]
  exact hrest

theorem yields_colon (h : Decoded s) : Yields Decoded (colon s) := by
  unfold colon
  split
  · simp
  · rename_i hs
    exact h.of_skipSpace hs
  · simp

/-! ## Numbers -/

section
variable {atEnd : Fault} (hend : atEnd ≠ .invalidEncoding)
include hend

theorem yields_scanDigits (h : Decoded s) : Yields LeftDecoded (scanDigits atEnd s) := by
  unfold scanDigits
  split
  · exact hend
  · split
    · exact h.suffix (List.dropWhile_suffix _)
    · simp

theorem yields_scanWhole (h : Decoded s) : Yields LeftDecoded (scanWhole atEnd s) := by
  unfold scanWhole
  split
  · simp
  · exact yields_scanDigits hend h

theorem yields_scanFraction (h : Decoded s) : Yields LeftDecoded (scanFraction atEnd s) := by
  unfold scanFraction
  split
  · exact yields_scanDigits hend h.tail
  · exact h

theorem yields_scanPower (h : Decoded s) : Yields LeftDecoded (scanPower atEnd s) := by
  have hsign : ∀ {t : List Piece}, Decoded t → Decoded (scanSign t).2 := by
    intro t ht
    unfold scanSign
    split
    · exact ht.tail
    · exact ht.tail
    · exact ht
  unfold scanPower
  split
  · exact (yields_scanDigits hend (hsign h.tail)).map fun _ hr => hr
  · exact (yields_scanDigits hend (hsign h.tail)).map fun _ hr => hr
  · exact h

theorem yields_scanLiteral {negative : Bool} (h : Decoded s) :
    Yields LeftDecoded (scanLiteral negative atEnd s) := by
  refine (yields_scanWhole hend h).bind fun ⟨whole, t⟩ ht => ?_
  refine (yields_scanFraction hend ht).bind fun ⟨fraction, u⟩ hu => ?_
  exact (yields_scanPower hend hu).bind fun ⟨power, v⟩ hv => hv

end

theorem yields_scale (x : Binary64) (power : Int) : Yields (fun _ => True) (scale x power) := by
  fun_induction scale x power with
  | case1 | case4 | case6 => trivial
  | case2 | case5 => simp
  | case3 x power _ _ _ ih => exact ih

theorem yields_float (l : Literal) : Yields (fun _ => True) l.float := by
  unfold Literal.float
  dsimp only
  split
  · exact yields_scale _ _
  · split
    · trivial
    · simp
  · trivial

theorem yields_literal (l : Literal) : Yields (fun _ => True) l.number := by
  unfold Literal.number
  dsimp only
  split
  · trivial
  · split
    · trivial
    · exact (yields_float l).map fun _ _ => trivial

theorem yields_number (h : Decoded s) : Yields LeftDecoded (number s) := by
  have hend : Fault.endInside .value ≠ .invalidEncoding := by simp
  have hliteral : ∀ r : Literal × List Piece, LeftDecoded r →
      Yields LeftDecoded (do .ok (← r.1.number, r.2)) :=
    fun r hr => (yields_literal r.1).bind fun _ _ => hr
  unfold number
  split
  · exact (yields_scanLiteral hend h.tail).bind hliteral
  · exact (yields_scanLiteral hend h).bind hliteral

/-! ## Values of the wrong kind -/

theorem yields_found (h : Decoded s) : Yields (fun _ => True) (found s) := by
  unfold found
  split
  · simp
  · exact (yields_word h.tail).map fun _ _ => trivial
  · exact (yields_word h.tail).map fun _ _ => trivial
  · exact (yields_word h.tail).map fun _ _ => trivial
  · exact (yields_string h.tail).map fun _ _ => trivial
  · trivial
  · trivial
  · split
    · exact (yields_number h).map fun _ _ => trivial
    · simp

theorem yields_wrongKind {α : Type} {post : α → Prop} {expected : Kind} (h : Decoded s) :
    Yields post (wrongKind expected s) :=
  (yields_found h).bind fun _ _ => by simp

/-! ## Punctuation -/

theorem yields_firstKey (h : Decoded s) : Yields LeftDecoded (firstKey s) := by
  unfold firstKey
  split
  · simp
  · rename_i hs
    exact h.of_skipSpace hs
  · rename_i hs
    exact h.of_skipSpace hs
  · simp

theorem yields_nextKey (h : Decoded s) : Yields LeftDecoded (nextKey s) := by
  unfold nextKey
  split
  · simp
  · rename_i hs
    exact h.of_skipSpace hs
  · rename_i t hs
    have ht : Decoded t := h.of_skipSpace hs
    split
    · simp
    · simp
    · rename_i ht'
      exact ht.of_skipSpace ht'
    · simp
  · simp

theorem yields_firstElement (h : Decoded s) : Yields LeftDecoded (firstElement s) := by
  unfold firstElement
  split
  · simp
  · rename_i hs
    exact h.of_skipSpace hs
  · exact h.skipSpace

theorem yields_nextElement (h : Decoded s) : Yields LeftDecoded (nextElement s) := by
  unfold nextElement
  split
  · simp
  · rename_i hs
    exact h.of_skipSpace hs
  · rename_i t hs
    have ht : Decoded t := h.of_skipSpace hs
    split
    · simp
    · simp
    · exact ht.skipSpace
  · simp

theorem yields_endOfList (h : Decoded s) : Yields Decoded (endOfList s) := by
  unfold endOfList
  split
  · simp
  · rename_i hs
    exact h.of_skipSpace hs
  · split
    · simp
    · simp
  · simp

/-! ## Values that are not used -/

theorem yields_skipString (h : Decoded s) : Yields Decoded (skipString s) := by
  fun_induction skipString s with
  | case1 => simp
  | case2 => exact h.tail
  | case3 => simp
  | case4 s fault hhex => exact (yields_fourHex h.tail.tail).of_eq_error hhex
  | case5 s n rest hhex ih => exact ih ((yields_fourHex h.tail.tail).of_eq_ok hhex)
  | case6 p rest _ _ ih => exact ih h.tail.tail
  | case7 => simp
  | case8 => simp
  | case9 c rest _ _ _ _ _ ih => exact ih h.tail
  | case10 b rest ih => exact ih h.tail

theorem yields_skipNumber (h : Decoded s) : Yields Decoded (skipNumber s) := by
  have hend : Fault.invalidNumber ≠ .invalidEncoding := by simp
  unfold skipNumber
  dsimp only
  split
  · exact (yields_scanLiteral hend h.tail).map fun _ hr => hr
  · exact (yields_scanLiteral hend h).map fun _ hr => hr

theorem yields_skipSimple (h : Decoded s) : Yields LeftDecoded (skipSimple s) := by
  unfold skipSimple
  split
  · simp
  · rename_i hs
    exact (yields_word (h.of_skipSpace hs)).map fun _ hr => hr
  · rename_i hs
    exact (yields_word (h.of_skipSpace hs)).map fun _ hr => hr
  · rename_i hs
    exact (yields_word (h.of_skipSpace hs)).map fun _ hr => hr
  · rename_i hs
    exact (yields_skipString (h.of_skipSpace hs)).map fun _ hr => hr
  · rename_i hs
    exact h.of_skipSpace hs
  · rename_i hs
    exact h.of_skipSpace hs
  · rename_i hs
    have hskip := h.skipSpace
    rw [hs] at hskip
    split
    · exact (yields_skipNumber hskip).map fun _ hr => hr
    · simp

theorem yields_skipKey (b : Bracket) (h : Decoded s) : Yields Decoded (skipKey b s) := by
  cases b with
  | square => exact h
  | curly =>
    unfold skipKey
    dsimp only
    split
    · simp
    · rename_i hs
      exact (yields_skipString (h.of_skipSpace hs)).bind fun _ ht => yields_colon ht
    · simp

theorem yields_skipFirst (b : Bracket) (h : Decoded s) : Yields LeftDecoded (skipFirst b s) := by
  unfold skipFirst
  split
  · simp
  · rename_i hs
    split
    · exact h.of_skipSpace hs
    · exact (yields_skipKey b h).map fun _ hr => hr

theorem yields_skipNext (b : Bracket) (h : Decoded s) : Yields LeftDecoded (skipNext b s) := by
  unfold skipNext
  split
  · simp
  · rename_i hs
    split
    · exact (yields_skipKey b (h.of_skipSpace hs)).map fun _ hr => hr
    · split
      · exact h.of_skipSpace hs
      · cases b <;> simp [Bracket.expectedComma]

mutual

theorem yields_skipOpen {opened : List Bracket} {s : List Piece} (h : Decoded s) :
    Yields Decoded (skipOpen opened s) := by
  unfold skipOpen
  have hsimple := yields_skipSimple h
  split
  · rename_i h1
    exact hsimple.of_eq_error h1
  · rename_i h1
    have := length_skipSimple h1
    exact yields_closeAll (hsimple.of_eq_ok h1)
  · rename_i b inside h1
    have := length_skipSimple h1
    have hfirst := yields_skipFirst b (hsimple.of_eq_ok h1)
    split
    · rename_i h2
      exact hfirst.of_eq_error h2
    · rename_i h2
      have := length_skipFirst h2
      exact yields_skipOpen (hfirst.of_eq_ok h2)
    · rename_i h2
      have := length_skipFirst h2
      exact yields_closeAll (hfirst.of_eq_ok h2)
termination_by s.length
decreasing_by all_goals omega

theorem yields_closeAll {opened : List Bracket} {s : List Piece} (h : Decoded s) :
    Yields Decoded (closeAll opened s) := by
  unfold closeAll
  split
  · exact h
  · rename_i b outer
    have hnext := yields_skipNext b h
    split
    · rename_i h1
      exact hnext.of_eq_error h1
    · rename_i h1
      have := length_skipNext h1
      exact yields_skipOpen (hnext.of_eq_ok h1)
    · rename_i h1
      have := length_skipNext h1
      exact yields_closeAll (hnext.of_eq_ok h1)
termination_by s.length
decreasing_by all_goals omega

end

end Json

end Reckon
