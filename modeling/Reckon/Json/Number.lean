import Reckon.Json.Scanner

/-!
# Numbers in JSON

A `Literal` is a number as it is written; `scanLiteral` reads one. `Literal.number` is what it
denotes: an integer if it is written without fraction and exponent and fits in 64 bits, and
otherwise a floating-point number. The latter is computed from as many leading digits as fit in 64
bits and one multiplication or division by a power of ten; powers beyond `10 ^ 308` are applied in
steps.
-/

set_option autoImplicit false

namespace Reckon.Json

open Text (Piece)

/-! ## Literals -/

/-- A number as it is written. -/
structure Literal where
  negative : Bool
  /-- The digits before the point. -/
  whole : List Char
  /-- The digits after the point; none if there is no point. -/
  fraction : List Char
  /-- The sign and the digits of the power of ten, if it is written. -/
  power : Option (Bool × List Char)
deriving DecidableEq

def isDigit : Piece → Bool
  | .char c => c.isDigit
  | .stray _ => false

/-- At least one digit, and all up to the next other piece. `atEnd` is the fault of a text that
ends before the first one. -/
def scanDigits (atEnd : Fault) (s : List Piece) : Scan (List Char) :=
  match s with
  | [] => .error atEnd
  | p :: _ =>
    if isDigit p then .ok ((s.takeWhile isDigit).filterMap Piece.char?, s.dropWhile isDigit)
    else .error .invalidNumber

/-- The digits before the point: a zero alone, or digits that do not begin with one. -/
def scanWhole (atEnd : Fault) (s : List Piece) : Scan (List Char) :=
  match scanDigits atEnd s with
  | .ok ('0' :: _ :: _, _) => .error .invalidNumber
  | result => result

/-- The point and the digits after it, if there is a point. -/
def scanFraction (atEnd : Fault) (s : List Piece) : Scan (List Char) :=
  match s with
  | .char '.' :: s => scanDigits atEnd s
  | _ => .ok ([], s)

/-- An optional sign; is it a minus? -/
def scanSign : List Piece → Bool × List Piece
  | .char '+' :: s => (false, s)
  | .char '-' :: s => (true, s)
  | s => (false, s)

/-- The power of ten, if one is written. -/
def scanPower (atEnd : Fault) (s : List Piece) : Scan (Option (Bool × List Char)) :=
  let power (s : List Piece) : Scan (Option (Bool × List Char)) :=
    let (negative, s) := scanSign s
    (scanDigits atEnd s).map fun (digits, rest) => (some (negative, digits), rest)
  match s with
  | .char 'e' :: s => power s
  | .char 'E' :: s => power s
  | _ => .ok (none, s)

/-- A number, from its first digit. -/
def scanLiteral (negative : Bool) (atEnd : Fault) (s : List Piece) :
    Except Fault (Literal × List Piece) := do
  let (whole, s) ← scanWhole atEnd s
  let (fraction, s) ← scanFraction atEnd s
  let (power, s) ← scanPower atEnd s
  .ok (⟨negative, whole, fraction, power⟩, s)

/-! ## What a literal denotes -/

/-- The greatest number of 64 bits. -/
def greatest : Nat := 18446744073709551615

/-- A number of 64 bits, and whether a digit had to be left out. -/
structure Significand where
  value : Nat
  full : Bool
  /-- The power of ten that goes with the value. -/
  power : Int

/-- Takes one more digit, or leaves it out once the value would not fit. -/
def Significand.push (x : Significand) (digit : Char) : Significand :=
  let value := 10 * x.value + Numeral.digitValue digit
  if x.full || greatest < value then { x with full := true } else { x with value := value }

/-- Takes a digit before the point. One that is left out makes the number ten times as large. -/
def Significand.pushWhole (x : Significand) (digit : Char) : Significand :=
  let y := x.push digit
  if y.full then { y with power := y.power + 1 } else y

/-- Takes a digit after the point. -/
def Significand.pushFraction (x : Significand) (digit : Char) : Significand :=
  let y := x.push digit
  if y.full then y else { y with power := y.power - 1 }

/-- The leading digits of a literal, as far as they fit in 64 bits; the first digit after the
point is tried even if one before it was left out. -/
def Literal.significand (l : Literal) : Significand :=
  let whole := l.whole.foldl Significand.pushWhole ⟨0, false, 0⟩
  l.fraction.foldl Significand.pushFraction { whole with full := false }

/-- The floating-point number nearest to a power of ten. -/
def floatTenTo (n : Nat) : Binary64 := (Binary64.ofNat? (Binary64.tenTo n)).getD .zero

/-- A number times a power of ten, in steps of at most `10 ^ 308`. -/
def scale (x : Binary64) (power : Int) : Except Fault Binary64 :=
  if 308 < power.natAbs then
    if x.isZero then .ok x
    else if _h : 0 ≤ power then .error .numberOutOfRange
    else scale ((x.div? (floatTenTo 308)).getD .zero) (power + 308)
  else if 0 ≤ power then
    match x.mul? (floatTenTo power.natAbs) with
    | some y => .ok y
    | none => .error .numberOutOfRange
  else .ok ((x.div? (floatTenTo power.natAbs)).getD .zero)
termination_by power.natAbs

/-- The power of ten that is written, unless it is beyond `2 ^ 31 - 1`. -/
def Literal.writtenPower (l : Literal) : Option Int :=
  match l.power with
  | none => some 0
  | some (negative, digits) =>
    let n := Numeral.toNat digits
    if n ≤ 2147483647 then some (if negative then -n else n) else none

/-- The floating-point number of a literal, sign apart. -/
def Literal.float (l : Literal) : Except Fault Binary64 :=
  let x := l.significand
  match l.writtenPower, l.power with
  | some power, _ => scale ((Binary64.ofNat? x.value).getD .zero) (x.power + power)
  | none, some (false, _) => if x.value = 0 then .ok .zero else .error .numberOutOfRange
  | none, _ => .ok .zero

/-- What a literal denotes. -/
def Literal.number (l : Literal) : Except Fault Number :=
  let n := Numeral.toNat l.whole
  if l.fraction = [] ∧ l.power = none ∧ !l.negative ∧ n ≤ greatest then .ok (.natural n)
  else if l.fraction = [] ∧ l.power = none ∧ l.negative ∧ 0 < n ∧ n ≤ 9223372036854775808 then
    .ok (.negative n)
  else l.float.map (.float l.negative)

/-- A number, from its sign or first digit. -/
def number (s : List Piece) : Except Fault (Number × List Piece) := do
  let (l, rest) ← match s with
    | .char '-' :: s => scanLiteral true (.endInside .value) s
    | _ => scanLiteral false (.endInside .value) s
  .ok (← l.number, rest)

/-! ## Lengths -/

theorem length_scanDigits {f : Fault} {s rest : List Piece} {ds : List Char}
    (h : scanDigits f s = .ok (ds, rest)) : rest.length < s.length := by
  unfold scanDigits at h
  split at h
  · cases h
  · split at h
    · rename_i p s hp
      cases h
      rw [List.dropWhile_cons_of_pos hp]
      exact Nat.lt_succ_of_le (List.dropWhile_suffix isDigit).length_le
    · cases h

theorem length_scanWhole {f : Fault} {s rest : List Piece} {ds : List Char}
    (h : scanWhole f s = .ok (ds, rest)) : rest.length < s.length := by
  unfold scanWhole at h
  split at h
  · cases h
  · exact length_scanDigits h

theorem length_scanFraction {f : Fault} {s rest : List Piece} {ds : List Char}
    (h : scanFraction f s = .ok (ds, rest)) : rest.length ≤ s.length := by
  unfold scanFraction at h
  split at h
  · have := length_scanDigits h; simp only [List.length_cons]; omega
  · cases h; exact Nat.le_refl _

theorem length_scanSign (s : List Piece) : (scanSign s).2.length ≤ s.length := by
  unfold scanSign; split <;> simp

theorem length_scanPower {f : Fault} {s rest : List Piece} {p : Option (Bool × List Char)}
    (h : scanPower f s = .ok (p, rest)) : rest.length ≤ s.length := by
  have aux : ∀ s : List Piece,
      (scanDigits f (scanSign s).2).map
        (fun (digits, rest) => (some ((scanSign s).1, digits), rest)) = .ok (p, rest) →
      rest.length ≤ s.length := by
    intro s h
    have le := length_scanSign s
    cases h1 : scanDigits f (scanSign s).2 with
    | error => rw [h1] at h; cases h
    | ok r =>
      have lt := length_scanDigits h1
      rw [h1] at h
      cases h
      omega
  unfold scanPower at h
  split at h
  · have := aux _ h; simp only [List.length_cons]; omega
  · have := aux _ h; simp only [List.length_cons]; omega
  · cases h; exact Nat.le_refl _

theorem length_scanLiteral {f : Fault} {s rest : List Piece} {b : Bool} {l : Literal}
    (h : scanLiteral b f s = .ok (l, rest)) : rest.length < s.length := by
  obtain ⟨⟨_, s1⟩, h1, h⟩ := bind_eq_ok.1 h
  obtain ⟨⟨_, s2⟩, h2, h⟩ := bind_eq_ok.1 h
  obtain ⟨⟨_, s3⟩, h3, h⟩ := bind_eq_ok.1 h
  have := length_scanWhole h1
  have := length_scanFraction h2
  have := length_scanPower h3
  cases h
  omega

theorem length_number {s rest : List Piece} {n : Number} (h : number s = .ok (n, rest)) :
    rest.length < s.length := by
  unfold number at h
  split at h
  · obtain ⟨⟨_, s1⟩, h1, h⟩ := bind_eq_ok.1 h
    obtain ⟨_, _, h⟩ := bind_eq_ok.1 h
    have := length_scanLiteral h1
    cases h; simp only [List.length_cons]; omega
  · obtain ⟨⟨_, s1⟩, h1, h⟩ := bind_eq_ok.1 h
    obtain ⟨_, _, h⟩ := bind_eq_ok.1 h
    have := length_scanLiteral h1
    cases h; exact this

end Reckon.Json
