import Mathlib.Data.Nat.Digits.Lemmas
import Reckon.Proofs.Boundary

/-!
# Decimal texts

A digit text denotes a number in base ten (`Numeral.baseTen`), and it is read as that number
(`Numeral.toNat_eq_baseTen`). `Numeral.Denotes s i` states that `s` is at least one digit with at
most one sign in front, and that it denotes the integer `i`; such texts are read as words, and no
others are (`Word.read?_eq_some_iff`).

Main result: `Grammar.parse_naturalNumber`. A number literal of any length has the value that its
digits denote, or none if that is no word.
-/

set_option autoImplicit false

namespace Reckon

/-! ## Digits -/

namespace Numeral

/-- What digits denote in base ten: each counts as the power of ten of its place says. -/
def baseTen (ds : List Char) : Nat := Nat.ofDigits 10 (ds.map digitValue).reverse

theorem toNat_eq_baseTen (ds : List Char) : toNat ds = baseTen ds := by
  induction ds using List.reverseRecOn with
  | nil => rfl
  | append_singleton ds d ih =>
    rw [toNat_append_singleton, ih]
    simp [baseTen, Nat.ofDigits_cons, Nat.add_comm]

/-- Zeros in front change nothing. -/
theorem toNat_zeros_append (zeros : Nat) (ds : List Char) :
    toNat (List.replicate zeros '0' ++ ds) = toNat ds := by
  induction zeros with
  | zero => rfl
  | succ zeros ih => exact ih

theorem isRun_ofNat (n : Nat) : IsRun Char.isDigit (ofNat n) :=
  ⟨ofNat_ne_nil n, fun _ => isDigit_of_mem_ofNat⟩

theorem isRun_zeros_append {ds : List Char} (zeros : Nat) (h : IsRun Char.isDigit ds) :
    IsRun Char.isDigit (List.replicate zeros '0' ++ ds) := by
  refine ⟨List.append_ne_nil_of_right_ne_nil _ h.ne_nil, fun c hc => ?_⟩
  rcases List.mem_append.1 hc with hc | hc
  · rw [List.eq_of_mem_replicate hc]
    rfl
  · exact h.all c hc

/-! ## Signs -/

/-- At least one digit, with or without a sign in front, denotes an integer. -/
inductive Denotes : List Char → Int → Prop
  | unsigned {ds : List Char} (h : IsRun Char.isDigit ds) : Denotes ds (baseTen ds)
  | plus {ds : List Char} (h : IsRun Char.isDigit ds) : Denotes ('+' :: ds) (baseTen ds)
  | minus {ds : List Char} (h : IsRun Char.isDigit ds) : Denotes ('-' :: ds) (-baseTen ds)

theorem digits?_eq_some_iff {s : List Char} {n : Nat} :
    digits? s = some n ↔ IsRun Char.isDigit s ∧ baseTen s = n := by
  rw [digits?, Option.ite_none_right_eq_some, isRun_iff, toNat_eq_baseTen, Option.some.injEq]

theorem toInt?_of_isRun {s : List Char} (h : IsRun Char.isDigit s) :
    toInt? s = (digits? s).map Int.ofNat := by
  obtain ⟨d, t, rfl, hd, -⟩ := h.exists_cons
  unfold toInt?
  split
  · rename_i heq
    cases heq
    cases hd
  · rename_i heq
    cases heq
    cases hd
  · rfl

theorem toInt?_eq_some_iff {s : List Char} {i : Int} : toInt? s = some i ↔ Denotes s i := by
  constructor
  · intro h
    unfold toInt? at h
    split at h
    · obtain ⟨n, hn, rfl⟩ := Option.map_eq_some_iff.1 h
      obtain ⟨hrun, rfl⟩ := digits?_eq_some_iff.1 hn
      exact .plus hrun
    · obtain ⟨n, hn, rfl⟩ := Option.map_eq_some_iff.1 h
      obtain ⟨hrun, rfl⟩ := digits?_eq_some_iff.1 hn
      exact .minus hrun
    · obtain ⟨n, hn, rfl⟩ := Option.map_eq_some_iff.1 h
      obtain ⟨hrun, rfl⟩ := digits?_eq_some_iff.1 hn
      exact .unsigned hrun
  · intro h
    cases h with
    | unsigned h =>
      rw [toInt?_of_isRun h, digits?_eq_some_iff.2 ⟨h, rfl⟩]
      rfl
    | plus h | minus h =>
      rw [toInt?, digits?_eq_some_iff.2 ⟨h, rfl⟩]
      rfl

end Numeral

namespace Word

theorem read?_eq_some_iff {s : List Char} {w : Word} :
    read? s = some w ↔ Numeral.Denotes s w.val := by
  rw [read?, Option.bind_eq_some_iff, ← Numeral.toInt?_eq_some_iff]
  constructor
  · rintro ⟨i, hi, hw⟩
    rw [hi, ofInt?_eq_some.1 hw]
  · intro h
    exact ⟨w.val, h, ofInt?_val w⟩

theorem denotes_text (w : Word) : Numeral.Denotes w.text w.val := by
  have hvalue : ∀ n, (Numeral.baseTen (Numeral.ofNat n) : Int) = n := by
    intro n
    rw [← Numeral.toNat_eq_baseTen, Numeral.toNat_ofNat]
  unfold text
  cases w.val with
  | ofNat n =>
    have h := Numeral.Denotes.unsigned (Numeral.isRun_ofNat n)
    rw [hvalue] at h
    exact h
  | negSucc n =>
    have h := Numeral.Denotes.minus (Numeral.isRun_ofNat (n + 1))
    rw [hvalue] at h
    exact h

end Word

/-- The digits of a word that is not negative, and what they denote. -/
theorem Word.toNat_text {v : Word} (h : 0 ≤ v.val) :
    IsRun Char.isDigit v.text ∧ Word.ofNat? (Numeral.toNat v.text) = some v := by
  obtain ⟨n, hn⟩ := Int.eq_ofNat_of_zero_le h
  have htext : v.text = Numeral.ofNat n := by rw [Word.text, hn]; rfl
  rw [htext, Numeral.toNat_ofNat, Word.ofNat?, ← hn]
  exact ⟨Numeral.isRun_ofNat n, Word.ofInt?_val v⟩

/-! ## Number literals -/

namespace Grammar

variable {registers : Registers} {digits t : List Char}

theorem parse_digits_append (registers : Registers) (h : IsRun Char.isDigit digits)
    (ht : ∀ c ∈ t.head?, c.isDigit = false) :
    parse registers naturalNumber (digits ++ t) =
      .ofOption ((Word.ofNat? (Numeral.toNat digits)).map fun v => (v, t)) :=
  parse_lexeme_append registers (fun ds => Word.ofNat? (Numeral.toNat ds)) h ht

theorem parse_digits_eq_matched {v : Word} {rest : List Char} (h : IsRun Char.isDigit digits)
    (ht : ∀ c ∈ t.head?, c.isDigit = false) :
    parse registers naturalNumber (digits ++ t) = .matched v rest ↔
      v.val = Numeral.toNat digits ∧ rest = t := by
  rw [parse_digits_append registers h ht]
  cases hv : Word.ofNat? (Numeral.toNat digits) with
  | none =>
    have hnone := Word.ofInt?_eq_none.1 hv
    have hleast := v.least_le
    have hgreatest := v.le_greatest
    simp only [Option.map_none, Outcome.ofOption, reduceCtorEq, false_iff, not_and]
    omega
  | some w =>
    have hw := Word.ofInt?_eq_some.1 hv
    simp only [Option.map_some, Outcome.ofOption, Outcome.matched.injEq]
    constructor
    · rintro ⟨rfl, rfl⟩
      exact ⟨hw, rfl⟩
    · rintro ⟨h, rfl⟩
      exact ⟨Word.ext (hw.trans h.symm), rfl⟩

theorem parse_digits_eq_failed (h : IsRun Char.isDigit digits)
    (ht : ∀ c ∈ t.head?, c.isDigit = false) :
    parse registers naturalNumber (digits ++ t) = .failed ↔
      9223372036854775807 < Numeral.toNat digits := by
  rw [parse_digits_append registers h ht]
  cases hv : Word.ofNat? (Numeral.toNat digits) with
  | none =>
    have hnone := Word.ofInt?_eq_none.1 hv
    simp only [Option.map_none, Outcome.ofOption, true_iff]
    omega
  | some w =>
    have hw := Word.ofInt?_eq_some.1 hv
    have hgreatest := w.le_greatest
    simp only [Option.map_some, Outcome.ofOption, reduceCtorEq, false_iff]
    omega

theorem parse_naturalNumber_eq_failed {s : List Char} (h : ∀ c ∈ s.head?, c.isDigit = false) :
    parse registers naturalNumber s = .failed := by
  have htake : s.takeWhile Char.isDigit = [] := by
    cases s with
    | nil => rfl
    | cons c s => simp [h c rfl]
  refine (parse_lexeme registers (fun ds => Word.ofNat? (Numeral.toNat ds)) s).trans ?_
  rw [if_pos htake]

/-- All digits up to the next other character are read as the number that they denote in base ten,
however many there are and whatever zeros come first. If that number is no word, or if there is no
digit, there is no match. So the decimal form of a word that is not negative is read as the word. -/
theorem parse_naturalNumber (registers : Registers) :
    (∀ digits t, IsRun Char.isDigit digits → (∀ c ∈ t.head?, c.isDigit = false) →
      (∀ v rest, parse registers naturalNumber (digits ++ t) = .matched v rest ↔
        v.val = Numeral.baseTen digits ∧ rest = t) ∧
      (parse registers naturalNumber (digits ++ t) = .failed ↔
        9223372036854775807 < Numeral.baseTen digits)) ∧
    (∀ s, (∀ c ∈ s.head?, c.isDigit = false) → parse registers naturalNumber s = .failed) ∧
    ∀ (v : Word) (zeros : Nat) (t : List Char), 0 ≤ v.val →
      (∀ c ∈ t.head?, c.isDigit = false) →
      parse registers naturalNumber (List.replicate zeros '0' ++ v.text ++ t) = .matched v t := by
  refine ⟨fun digits t h ht => ?_, fun s h => parse_naturalNumber_eq_failed h,
    fun v zeros t hv ht => ?_⟩
  · rw [← Numeral.toNat_eq_baseTen]
    exact ⟨fun v rest => parse_digits_eq_matched h ht, parse_digits_eq_failed h ht⟩
  · obtain ⟨hrun, hvalue⟩ := Word.toNat_text hv
    rw [parse_digits_append registers (Numeral.isRun_zeros_append zeros hrun) ht,
      Numeral.toNat_zeros_append, hvalue]
    rfl

/-- The greatest word with zeros in front, the next number, and a sign. -/
theorem parse_naturalNumber_greatest :
    let parse := Grammar.parse .standard naturalNumber
    parse "0009223372036854775807x".toList = .matched 9223372036854775807 ['x'] ∧
      parse "9223372036854775808x".toList = .failed ∧
      parse "-1".toList = .failed ∧
      parse "00009223372036854775807 1".toList = .matched 9223372036854775807 [' ', '1'] := by
  intro parse
  obtain ⟨hdigits, hother, htext⟩ := parse_naturalNumber .standard
  have hx : ∀ c ∈ ['x'].head?, c.isDigit = false := by
    rintro c ⟨⟩
    rfl
  have hspace : ∀ c ∈ [' ', '1'].head?, c.isDigit = false := by
    rintro c ⟨⟩
    rfl
  have hminus : ∀ c ∈ "-1".toList.head?, c.isDigit = false := by
    rintro c ⟨⟩
    rfl
  obtain ⟨hmatched, -⟩ := hdigits "0009223372036854775807".toList ['x'] (by decide) hx
  obtain ⟨-, hfailed⟩ := hdigits "9223372036854775808".toList ['x'] (by decide) hx
  have hzeros := htext 9223372036854775807 4 [' ', '1'] (by decide) hspace
  rw [show Word.text 9223372036854775807 = "9223372036854775807".toList by decide +kernel] at hzeros
  exact ⟨(hmatched _ _).2 ⟨by decide +kernel, rfl⟩, hfailed.2 (by decide +kernel),
    hother _ hminus, hzeros⟩

end Grammar

end Reckon
