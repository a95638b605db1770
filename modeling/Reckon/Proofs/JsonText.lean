import Reckon.Config.Writer
import Reckon.Proofs.JsonGrammar

/-!
# Strings and numbers that were written

What is written is in the grammar: a quoted text is a string that stands for the text
(`stringText_quote`), whatever characters it has, and the decimal form of a word is a number that
denotes the word (`Literal.written_ofWord`, `Literal.denotes_ofWord`).
-/

set_option autoImplicit false

namespace Reckon.Json

/-! ## Strings -/

theorem hexDigit_text : ∀ n < 16, HexDigit (Text.hexDigit n) n := by
  intro n hn
  have hlower : ∀ n < 16, "0123456789abcdef".toList[n]? = some (Text.hexDigit n) := by decide
  exact .inl (hlower n hn)

/-- A control character that has no short escape is written by its number. -/
theorem hex_control {c : Char} (h : c.toNat < 32) :
    Hex ['0', '0', Text.hexDigit (c.toNat / 16), Text.hexDigit (c.toNat % 16)] c.toNat := by
  have hmk := Hex.mk (hexDigit_text 0 (by decide)) (hexDigit_text 0 (by decide))
    (hexDigit_text (c.toNat / 16) (by omega)) (hexDigit_text (c.toNat % 16) (by omega))
  have hvalue : 0 * 0x1000 + 0 * 0x100 + c.toNat / 16 * 0x10 + c.toNat % 16 = c.toNat := by omega
  rw [hvalue] at hmk
  exact hmk

theorem stringText_escapeChar (c : Char) {s t : List Char} (h : StringText s t) :
    StringText (escapeChar c ++ s) (c :: t) := by
  unfold escapeChar
  split
  case h_8 =>
    rename_i hquote hbackslash _ _ _ _ _
    split
    · rename_i hc
      exact .numeric (hex_control hc) rfl h
    · rename_i hc
      exact .plain ⟨hquote, hbackslash, Nat.not_lt.1 hc⟩ h
  all_goals exact .short (by decide) h

/-- A quoted text stands for the text. -/
theorem stringText_quote (s : List Char) : StringText (s.flatMap escapeChar) s := by
  induction s with
  | nil => exact .nil
  | cons c s ih => exact stringText_escapeChar c ih

/-! ## Numbers -/

namespace Literal

/-- Only zero is written with a zero in front. -/
theorem eq_zero_of_head?_ofNat {n : Nat} (h : (Numeral.ofNat n).head? = some '0') : n = 0 := by
  induction n using Nat.strongRecOn with
  | ind n ih =>
    rw [Numeral.ofNat] at h
    split at h
    · rename_i hn
      have hdigit : ∀ d < 10, [Numeral.digit d].head? = some '0' → d = 0 := by decide
      exact hdigit n hn h
    · obtain ⟨d, t, hds, -⟩ := (Numeral.isRun_ofNat (n / 10)).exists_cons
      rw [hds] at h
      have hn := ih (n / 10) (by omega) (by rw [hds]; exact h)
      omega

theorem whole_ofNat (n : Nat) : Whole (Numeral.ofNat n) := by
  refine ⟨Numeral.isRun_ofNat n, fun h => ?_⟩
  rw [eq_zero_of_head?_ofNat h, Numeral.ofNat]
  rfl

/-- The number that is written for a word. -/
def ofWord (v : Word) : Literal := ⟨decide (v.val < 0), Numeral.ofNat v.val.natAbs, [], none⟩

theorem written_ofWord (v : Word) : (ofWord v).Written v.text := by
  unfold ofWord Word.text
  cases v.val with
  | ofNat n =>
    have hpositive : decide (Int.ofNat n < 0) = false :=
      decide_eq_false (Int.not_lt.2 (Int.natCast_nonneg n))
    exact .positive hpositive (unsigned_of_whole (whole_ofNat n))
  | negSucc n =>
    have hnegative : decide (Int.negSucc n < 0) = true := decide_eq_true (Int.negSucc_lt_zero n)
    exact .negative hnegative (unsigned_of_whole (whole_ofNat (n + 1)))

theorem denotes_ofWord (v : Word) : (ofWord v).Denotes v := by
  have hvalue : Numeral.baseTen (ofWord v).whole = v.val.natAbs := by
    rw [← Numeral.toNat_eq_baseTen]
    exact Numeral.toNat_ofNat v.val.natAbs
  refine ⟨rfl, rfl, fun hzero => ?_, ?_⟩
  · rw [hvalue] at hzero
    exact decide_eq_false (by omega)
  · rw [hvalue]
    by_cases hv : v.val < 0
    · have hnegative : (ofWord v).negative = true := decide_eq_true hv
      rw [hnegative, if_pos rfl]
      omega
    · have hpositive : (ofWord v).negative = false := decide_eq_false hv
      rw [hpositive, if_neg Bool.false_ne_true]
      omega

end Literal

end Reckon.Json
