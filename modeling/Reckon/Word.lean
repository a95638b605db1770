import Reckon.Numeral

/-!
# Words

A `Word` is what a register holds: an integer from `-2^63` to `2^63 - 1`. Arithmetic is checked:
`Word.add?` and `Word.mul?` give the exact result when it is a word and nothing otherwise, so a
word is never wrapped or truncated. `Word.text` and `Word.read?` are the decimal form.
-/

set_option autoImplicit false

namespace Reckon

/-- An integer of 64 bits, sign included. -/
structure Word where
  val : Int
  least_le : -9223372036854775808 ≤ val
  le_greatest : val ≤ 9223372036854775807
deriving DecidableEq

namespace Word

theorem ext {a b : Word} (h : a.val = b.val) : a = b := by
  cases a; cases b; simp_all

/-- The word with a given value, if the value is in range. -/
def ofInt? (i : Int) : Option Word :=
  if h : -9223372036854775808 ≤ i ∧ i ≤ 9223372036854775807 then some ⟨i, h.1, h.2⟩ else none

theorem ofInt?_eq_some {i : Int} {w : Word} : ofInt? i = some w ↔ w.val = i := by
  unfold ofInt?
  split
  · constructor
    · rintro ⟨⟩; rfl
    · rintro rfl; rfl
  · rename_i h
    constructor
    · rintro ⟨⟩
    · rintro rfl; exact absurd ⟨w.least_le, w.le_greatest⟩ h

theorem ofInt?_eq_none {i : Int} :
    ofInt? i = none ↔ i < -9223372036854775808 ∨ 9223372036854775807 < i := by
  unfold ofInt?
  split
  · simp only [reduceCtorEq, false_iff]
    omega
  · simp only [true_iff]
    omega

theorem ofInt?_val (w : Word) : ofInt? w.val = some w := ofInt?_eq_some.2 rfl

/-- The word closest to an integer. -/
def clamp (i : Int) : Word :=
  ⟨max (-9223372036854775808) (min i 9223372036854775807), by omega, by omega⟩

/-- The word of a natural number, if it is in range. -/
def ofNat? (n : Nat) : Option Word := ofInt? n

instance (n : Nat) : OfNat Word n where
  ofNat := (ofNat? n).getD ⟨0, by decide, by decide⟩

/-- The exact sum, if it is a word. -/
def add? (a b : Word) : Option Word := ofInt? (a.val + b.val)

/-- The exact product, if it is a word. -/
def mul? (a b : Word) : Option Word := ofInt? (a.val * b.val)

/-! ## Decimal form -/

/-- The decimal form, with a sign only before negative words. -/
def text (w : Word) : List Char := Numeral.ofInt w.val

/-- Reads one optional sign and decimal digits; a value out of range is refused. -/
def read? (s : List Char) : Option Word := (Numeral.toInt? s).bind ofInt?

instance : ToString Word := ⟨fun w => String.ofList w.text⟩

end Word

end Reckon
