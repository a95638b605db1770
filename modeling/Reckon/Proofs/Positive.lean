import Reckon.Proofs.Evaluation

/-!
# Positive operands

Reading computes from right to left with words, and falls back where a result is no word. With
operands that are all positive nothing is lost by that: no part of an expression has a value above
that of the whole (`Operator.le_exact`), so that the parts are words if the whole is one
(`Tree.Positive.exists_value`). Then the exact value alone decides whether a text evaluates
(`Evaluator.evaluate_positive`).
-/

set_option autoImplicit false

namespace Reckon

/-- The result of an operation on positive operands is no less than either of them. -/
theorem Operator.le_exact (op : Operator) {a b : Int} (ha : 1 ≤ a) (hb : 1 ≤ b) :
    a ≤ op.exact a b ∧ b ≤ op.exact a b := by
  cases op with
  | plus =>
    simp only [exact]
    omega
  | times =>
    have hleft : a * 1 ≤ a * b := Int.mul_le_mul_of_nonneg_left hb (by omega)
    have hright : 1 * b ≤ a * b := Int.mul_le_mul_of_nonneg_right ha (by omega)
    rw [Int.mul_one] at hleft
    rw [Int.one_mul] at hright
    exact ⟨hleft, hright⟩

namespace Tree

variable {registers : Registers} {l : Level}

/-- All numbers are positive, and all registers are bound to positive values. -/
def Positive (registers : Registers) : {l : Level} → Tree l → Prop
  | _, operation _ left right => Positive registers left ∧ Positive registers right
  | _, operand _ t => Positive registers t
  | _, parenthesized inner => Positive registers inner
  | _, number digits _ => 1 ≤ Numeral.toNat digits
  | _, register letters _ => ∃ v, registers.get? (String.ofList letters) = some v ∧ 1 ≤ v.val

namespace Positive

theorem exists_integer {t : Tree l} (h : t.Positive registers) :
    ∃ n, t.integer? registers = some n ∧ 1 ≤ n := by
  induction t with
  | operation op left right ihl ihr =>
    obtain ⟨a, ha, ha1⟩ := ihl h.1
    obtain ⟨b, hb, hb1⟩ := ihr h.2
    have hle : a ≤ op.exact a b := (op.le_exact ha1 hb1).1
    refine ⟨op.exact a b, ?_, Int.le_trans ha1 hle⟩
    rw [integer?, ha, hb]
    rfl
  | operand op t ih => exact ih h
  | parenthesized inner ih => exact ih h
  | number digits run => exact ⟨_, rfl, Int.ofNat_le.2 h⟩
  | register letters run =>
    obtain ⟨v, hv, hv1⟩ := h
    refine ⟨v.val, ?_, hv1⟩
    rw [integer?, hv]
    rfl

/-- If the exact value is a word, so are the values of all parts, and no operation falls back. -/
theorem exists_value {t : Tree l} (h : t.Positive registers) {n : Int}
    (hn : t.integer? registers = some n) (hle : n ≤ 9223372036854775807) :
    ∃ v, t.value? registers = some v := by
  induction t generalizing n with
  | operation op left right ihl ihr =>
    obtain ⟨a, ha, ha1⟩ := h.1.exists_integer
    obtain ⟨b, hb, hb1⟩ := h.2.exists_integer
    obtain rfl : op.exact a b = n := by
      rw [integer?, ha, hb] at hn
      exact Option.some.inj hn
    obtain ⟨hal, hbl⟩ := op.le_exact ha1 hb1
    obtain ⟨v, hv⟩ := ihl h.1 ha (Int.le_trans hal hle)
    obtain ⟨w, hw⟩ := ihr h.2 hb (Int.le_trans hbl hle)
    have hva : v.val = a := Option.some.inj ((integer?_of_value? hv).symm.trans ha)
    have hwb : w.val = b := Option.some.inj ((integer?_of_value? hw).symm.trans hb)
    obtain ⟨u, hu⟩ : ∃ u : Word, u.val = op.exact a b := ⟨⟨op.exact a b, by omega, hle⟩, rfl⟩
    refine ⟨u, ?_⟩
    rw [value?, hv, hw]
    exact Operator.combine_eq_some.2 (by rw [hva, hwb, hu])
  | operand op t ih => exact ih h hn hle
  | parenthesized inner ih => exact ih h hn hle
  | number digits run =>
    have hdigits : (Numeral.toNat digits : Int) = n := Option.some.inj hn
    exact ⟨⟨Numeral.toNat digits, by omega, by omega⟩, Word.ofInt?_eq_some.2 rfl⟩
  | register letters run =>
    obtain ⟨v, hv, -⟩ := h
    exact ⟨v, hv⟩

end Positive

end Tree

/-! ## Evaluation -/

namespace Evaluator

/-- If nothing may be left, a sentence with positive operands evaluates if and only if its exact
value is a word, and then to that value. -/
theorem evaluate_positive {registers : Registers} {source : String} {t : Tree .expression}
    (h : t.Written source.toList) (hp : t.Positive registers) :
    let e : Evaluator := { registers, mode := .complete }
    ∃ n : Int, t.integer? registers = some n ∧
      ((∃ r, e.evaluate source = .ok r) ↔ n ≤ 9223372036854775807) ∧
      (∀ r, e.evaluate source = .ok r → r.value.val = n ∧ r.remainder = "") ∧
      (9223372036854775807 < n → ∃ error, e.evaluate source = .error error) := by
  intro e
  obtain ⟨n, hn, -⟩ := hp.exists_integer
  have hvalue : ∀ r, e.evaluate source = .ok r → r.value.val = n ∧ r.remainder = "" := by
    rintro ⟨v, rest⟩ hr
    obtain ⟨hrest, hparse⟩ := (evaluate_eq_ok_iff rfl).1 hr
    obtain ⟨t', ht', hv⟩ := parse_all_iff.1 hparse
    obtain rfl : t' = t := ht'.unique h
    have hint := Tree.integer?_of_value? hv
    rw [hn] at hint
    exact ⟨(Option.some.inj hint).symm, hrest⟩
  have hiff : (∃ r, e.evaluate source = .ok r) ↔ n ≤ 9223372036854775807 := by
    constructor
    · rintro ⟨r, hr⟩
      rw [← (hvalue r hr).1]
      exact r.value.le_greatest
    · intro hle
      obtain ⟨v, hv⟩ := hp.exists_value hn hle
      exact ⟨⟨v, ""⟩, (evaluate_eq_ok_iff rfl).2 ⟨rfl, parse_all_iff.2 ⟨t, h, hv⟩⟩⟩
  refine ⟨n, hn, hiff, hvalue, fun hlt => ?_⟩
  cases he : e.evaluate source with
  | ok r => exact absurd (hiff.1 ⟨r, he⟩) (by omega)
  | error error => exact ⟨error, rfl⟩

/-- The least value above all words. -/
theorem evaluate_positive_two_pow :
    let e : Evaluator := { registers := .standard, mode := .complete }
    ∃ error, e.evaluate " 4611686018427387904 * TWO" = .error error := by
  let number : Tree .atom := .number "4611686018427387904".toList
    ⟨List.cons_ne_nil _ _, List.all_eq_true.1 (by decide +kernel)⟩
  let register : Tree .atom := .register "TWO".toList
    ⟨List.cons_ne_nil _ _, List.all_eq_true.1 (by decide +kernel)⟩
  let t : Tree .expression := .operand .plus (.operation .times number (.operand .times register))
  have hblank : Text.AllBlank [' '] := List.forall_mem_singleton.2 rfl
  have hw : t.Written " 4611686018427387904 * TWO".toList :=
    .operand (.operation (a := " 4611686018427387904".toList) (b := " * ".toList)
      (c := "TWO".toList) (.number ⟨[' '], [], hblank, Text.allBlank_nil, rfl⟩)
      ⟨[' '], [' '], hblank, hblank, rfl⟩
      (.operand (.register ⟨[], [], Text.allBlank_nil, Text.allBlank_nil, rfl⟩)))
  have hnumber : 1 ≤ Numeral.toNat "4611686018427387904".toList := by decide +kernel
  have hp : t.Positive .standard := ⟨hnumber, 2, by decide +kernel, by decide⟩
  obtain ⟨n, hn, -, -, hlarge⟩ := evaluate_positive hw hp
  obtain rfl : 9223372036854775808 = n := Option.some.inj (Eq.trans (by decide +kernel) hn)
  exact hlarge (by decide)

/-- Without positive operands less is evaluated: the product in parentheses is no word, although
the exact value of the text is zero. -/
example :
    ({ mode := .complete } : Evaluator).parse "0*(9223372036854775807*2)" =
      .matched 0 "*(9223372036854775807*2)".toList := by
  decide +kernel

end Evaluator

end Reckon
