/-!
# Decimal numerals

`Numeral.ofNat` writes a natural number with the fewest decimal digits, `Numeral.toNat` reads a
digit text of any length exactly. `Numeral.ofInt` and `Numeral.toInt?` add the sign: written only
when it is needed, read as one optional `+` or `-` before at least one digit.
`toNat_ofNat` states that reading undoes writing.
-/

set_option autoImplicit false

namespace Reckon.Numeral

/-- The character of a digit below ten. -/
def digit (d : Nat) : Char := Char.ofNat (48 + d)

/-- What a digit character stands for. -/
def digitValue (c : Char) : Nat := c.toNat - 48

theorem digitValue_digit {d : Nat} (h : d < 10) : digitValue (digit d) = d := by
  revert d; decide

theorem isDigit_digit {d : Nat} (h : d < 10) : (digit d).isDigit = true := by
  revert d; decide

/-! ## Natural numbers -/

/-- The decimal digits of a number, most significant first and without leading zeros. -/
def ofNat (n : Nat) : List Char :=
  if n < 10 then [digit n] else ofNat (n / 10) ++ [digit (n % 10)]
termination_by n

/-- The number that a digit text denotes in base ten; the empty text denotes zero. -/
def toNat (ds : List Char) : Nat :=
  ds.foldl (fun n c => 10 * n + digitValue c) 0

theorem toNat_append_singleton (ds : List Char) (c : Char) :
    toNat (ds ++ [c]) = 10 * toNat ds + digitValue c := by
  simp [toNat]

/-- Reading undoes writing. -/
theorem toNat_ofNat (n : Nat) : toNat (ofNat n) = n := by
  induction n using Nat.strongRecOn with
  | ind n ih =>
    rw [ofNat]
    split
    · rename_i h; simp [toNat, digitValue_digit h]
    · rw [toNat_append_singleton, ih _ (by omega), digitValue_digit (by omega)]
      omega

theorem ofNat_ne_nil (n : Nat) : ofNat n ≠ [] := by
  rw [ofNat]; split <;> simp

theorem isDigit_of_mem_ofNat {n : Nat} {c : Char} (h : c ∈ ofNat n) : c.isDigit = true := by
  induction n using Nat.strongRecOn with
  | ind n ih =>
    rw [ofNat] at h
    split at h
    · rename_i hn
      rw [List.mem_singleton.1 h]; exact isDigit_digit hn
    · rcases List.mem_append.1 h with h | h
      · exact ih _ (by omega) h
      · rw [List.mem_singleton.1 h]; exact isDigit_digit (by omega)

/-! ## Integers -/

/-- A minus sign, if there is one to write, and the digits. -/
def ofInt : Int → List Char
  | .ofNat n => ofNat n
  | .negSucc n => '-' :: ofNat (n + 1)

/-- Digits only, and at least one. -/
def digits? (s : List Char) : Option Nat :=
  if s ≠ [] ∧ s.all Char.isDigit then some (toNat s) else none

/-- One optional sign, then digits only, and at least one. -/
def toInt? : List Char → Option Int
  | '+' :: s => (digits? s).map Int.ofNat
  | '-' :: s => (digits? s).map fun n => -Int.ofNat n
  | s => (digits? s).map Int.ofNat

end Reckon.Numeral
