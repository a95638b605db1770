import Reckon.Proofs.Boundary
import Reckon.Proofs.Composition
import Reckon.Proofs.Decimal
import Reckon.Proofs.Simulation
import Reckon.Proofs.Suffix

/-!
# A piece of a text exchanged for another

`Exchange registers a x y b` lists what has to hold of the place between `a` and `b`, so that `x`
may be taken out of it and `y` put in: `a ++ x ++ b` and `a ++ y ++ b` are then read alike
(`Exchange.parse`). The texts that a reading meets on the way are the same in both, if they begin
behind the place, or begin at the same character of `a` and go on with `x` in the one and with `y`
in the other (`Exchanged`).

Main results: blanks may be put between two tokens (`Grammar.parse_insert_blanks`), and the name of
a register may be exchanged for its value in parentheses (`Grammar.parse_exchange_value`).
-/

set_option autoImplicit false

namespace Reckon

open SinglePass
open Text (Trimmed skipBlanks after?)

/-! ## Texts on both sides of the place -/

/-- The same end of `b`, or an end of `a` that goes on with `x` in the first text and with `y` in
the second one. -/
inductive Exchanged (a x y b : List Char) : List Char → List Char → Prop
  | behind {s : List Char} (h : s <:+ b) : Exchanged a x y b s s
  | before {p : List Char} (h : p <:+ a) : Exchanged a x y b (p ++ (x ++ b)) (p ++ (y ++ b))

namespace Exchanged

variable {registers : Registers} {a x y b s : List Char}

theorem after?_behind (h : s <:+ b) (c : Char) :
    Option.Rel (Exchanged a x y b) (after? c s) (after? c s) := by
  cases ha : after? c s with
  | none => exact .none
  | some t =>
    obtain ⟨rest, rfl, rfl⟩ := Text.after?_eq_some ha
    have hrest : skipBlanks rest <:+ c :: rest :=
      (Text.skipBlanks_suffix rest).trans (List.suffix_cons c rest)
    exact .some (.behind (hrest.trans h))

theorem read_behind (h : s <:+ b) (l : Level) :
    Outcome.Rel (Exchanged a x y b) (read registers l s) (read registers l s) := by
  cases hr : read registers l s with
  | failed => exact .failed
  | matched v rest =>
    obtain ⟨p, -, rfl, -⟩ := exists_written_of_read hr
    exact .matched v (.behind ((List.suffix_append p rest).trans h))

end Exchanged

/-- `x` may be exchanged for `y` between `a` and `b`. -/
structure Exchange (registers : Registers) (a x y b : List Char) : Prop where
  digits : Parted Char.isDigit a (x ++ b) ∧ Parted Char.isDigit a (y ++ b)
  letters : Parted isNameChar a (x ++ b) ∧ Parted isNameChar a (y ++ b)
  blanks : Exchanged a x y b (skipBlanks (x ++ b)) (skipBlanks (y ++ b))
  mark : Trimmed (x ++ b) → Trimmed (y ++ b) → ∀ c ∈ [')', '+', '*'],
    Option.Rel (Exchanged a x y b) (after? c (x ++ b)) (after? c (y ++ b))
  atom : Trimmed (x ++ b) → Trimmed (y ++ b) →
    Outcome.Rel (Exchanged a x y b) (read registers .atom (x ++ b)) (read registers .atom (y ++ b))

namespace Exchange

variable {registers : Registers} {a x y b : List Char}

section
variable (h : Exchange registers a x y b)
include h

/-- Blanks are skipped up to the place, or up to the same character in front of it. -/
theorem skipBlanks_before {p : List Char} (hp : p <:+ a) :
    Exchanged a x y b (skipBlanks (p ++ (x ++ b))) (skipBlanks (p ++ (y ++ b))) := by
  by_cases hnil : skipBlanks p = []
  · obtain ⟨w, hw, hpw⟩ := Text.exists_blanks_append p
    rw [hnil, List.append_nil] at hpw
    rw [hpw, Text.skipBlanks_append hw, Text.skipBlanks_append hw]
    exact h.blanks
  · rw [Text.skipBlanks_append_of_ne_nil hnil, Text.skipBlanks_append_of_ne_nil hnil]
    exact .before ((Text.skipBlanks_suffix p).trans hp)

/-- A run that starts in front of the place ends in front of it. -/
theorem run_before {holds : Char → Bool}
    (hparted : Parted holds a (x ++ b) ∧ Parted holds a (y ++ b)) {c : Char} {p : List Char}
    (hp : c :: p <:+ a) (hc : holds c = true) :
    (p ++ (x ++ b)).takeWhile holds = (p ++ (y ++ b)).takeWhile holds ∧
      Exchanged a x y b (skipBlanks ((p ++ (x ++ b)).dropWhile holds))
        (skipBlanks ((p ++ (y ++ b)).dropWhile holds)) := by
  obtain ⟨htake, hdrop⟩ := takeWhile_append_of_parted hc (hparted.1.of_suffix hp)
  obtain ⟨htake', hdrop'⟩ := takeWhile_append_of_parted hc (hparted.2.of_suffix hp)
  rw [htake, htake', hdrop, hdrop']
  refine ⟨rfl, h.skipBlanks_before ?_⟩
  exact (List.dropWhile_suffix holds).trans ((List.suffix_cons c p).trans hp)

theorem simulation : Simulation registers registers (Exchanged a x y b) where
  blanks := by
    rintro _ _ (hs | hp)
    · exact .behind ((Text.skipBlanks_suffix _).trans hs)
    · exact h.skipBlanks_before hp
  mark := by
    rintro _ _ (hs | hp) hx hy c hc
    · exact Exchanged.after?_behind hs c
    · rename_i p
      -- nothing of `a` is left in front of the place, or a character that both texts start with
      cases p with
      | nil => exact h.mark hx hy c hc
      | cons d p =>
        simp only [List.cons_append, after?]
        split
        · exact .some (h.skipBlanks_before ((List.suffix_cons d p).trans hp))
        · exact .none
  atom := by
    rintro _ _ (hs | hp) hx hy
    · exact .inr (Exchanged.read_behind hs .atom)
    · rename_i p
      cases p with
      | nil => exact .inr (h.atom hx hy)
      | cons d p =>
        have hp' : p <:+ a := (List.suffix_cons d p).trans hp
        rw [List.cons_append, List.cons_append]
        refine rel_atom_cons (hx d rfl) (fun _ => .before hp') (h.run_before h.digits hp)
          fun hn => ?_
        obtain ⟨htake, hdrop⟩ := h.run_before h.letters hp hn
        exact ⟨by rw [htake], hdrop⟩

/-- The texts around `x` and around `y` are read alike. -/
theorem parse (l : Level) :
    Outcome.Rel (Exchanged a x y b) (Grammar.parse registers (l.parser registers) (a ++ x ++ b))
      (Grammar.parse registers (l.parser registers) (a ++ y ++ b)) := by
  rw [List.append_assoc, List.append_assoc]
  exact h.simulation.parse l (.before (List.suffix_refl a))

end

end Exchange

/-! ## Blanks between tokens -/

section
variable {registers : Registers} {a b w : List Char}

theorem eq_nil_of_trimmed (hw : Text.AllBlank w) (h : Trimmed (w ++ b)) : w = [] := by
  cases w with
  | nil => rfl
  | cons c w =>
    have hc := hw c List.mem_cons_self
    rw [h c rfl] at hc
    cases hc

theorem parted_blanks {holds : Char → Bool} (hw : Text.AllBlank w)
    (hb : ∀ {c}, Text.isBlank c = true → holds c = false) (h : Parted holds a b) :
    Parted holds a (w ++ b) := by
  cases w with
  | nil => exact h
  | cons c w =>
    refine parted_right ?_
    rintro _ ⟨⟩
    exact hb (hw c List.mem_cons_self)

/-- Next to the blanks, marks and atoms are tried on texts that start with no blank: there `w` is
empty, and both texts are `b`. -/
theorem exchange_blanks (hw : Text.AllBlank w) (hd : Parted Char.isDigit a b)
    (hn : Parted isNameChar a b) : Exchange registers a [] w b where
  digits := ⟨hd, parted_blanks hw Text.isDigit_of_isBlank hd⟩
  letters := ⟨hn, parted_blanks hw isNameChar_of_isBlank hn⟩
  blanks := by
    rw [Text.skipBlanks_append hw]
    exact .behind (Text.skipBlanks_suffix b)
  mark := by
    intro _ hy c _
    rw [eq_nil_of_trimmed hw hy]
    exact Exchanged.after?_behind (List.suffix_refl b) c
  atom := by
    intro _ hy
    rw [eq_nil_of_trimmed hw hy]
    exact Exchanged.read_behind (List.suffix_refl b) .atom

theorem not_append_suffix {p : List Char} (hp : p ≠ []) (b : List Char) : ¬ p ++ b <:+ b := by
  intro h
  have hlen := h.length_le
  rw [List.length_append] at hlen
  exact hp (List.eq_nil_of_length_eq_zero (by omega))

/-- Blanks may be put anywhere but inside a run: whether there is a match, its value and what is
left behind it stay as they are. -/
theorem Grammar.parse_insert_blanks {l : Level} (hw : Text.AllBlank w)
    (hd : Parted Char.isDigit a b) (hn : Parted isNameChar a b) :
    let parse := Grammar.parse registers (l.parser registers)
    (parse (a ++ b) = .failed ↔ parse (a ++ w ++ b) = .failed) ∧
    (∀ v rest, rest <:+ b → parse (a ++ b) = .matched v rest →
      parse (a ++ w ++ b) = .matched v rest) ∧
    (∀ v p, p ≠ [] → p <:+ a → parse (a ++ b) = .matched v (p ++ b) →
      parse (a ++ w ++ b) = .matched v (p ++ w ++ b)) := by
  intro parse
  have h : Outcome.Rel (Exchanged a [] w b) (parse (a ++ [] ++ b)) (parse (a ++ w ++ b)) :=
    (exchange_blanks hw hd hn).parse l
  rw [List.append_nil] at h
  have htrim : ∀ v rest, parse (a ++ w ++ b) = .matched v rest → Trimmed rest := fun v rest ho =>
    read_trimmed ((parse_level l _).symm.trans ho)
  refine ⟨h.failed_iff, fun v rest hb ho => ?_, fun v p hp _ ho => ?_⟩
  · obtain ⟨rest', hrest, ho'⟩ := h.exists_matched ho
    cases hrest with
    | behind _ => exact ho'
    | @before p _ =>
      -- nothing of `a` is left, so that the blanks come first, and a rest starts with none
      have hp : p = [] := Classical.byContradiction fun hp => not_append_suffix hp _ hb
      subst hp
      rw [ho', eq_nil_of_trimmed hw (htrim v _ ho')]
  · obtain ⟨rest', hrest, ho'⟩ := h.exists_matched ho
    generalize hs : p ++ b = s at hrest
    cases hrest with
    | behind hb => exact absurd (hs ▸ hb) (not_append_suffix hp b)
    | @before q _ =>
      rw [ho', List.append_cancel_right hs, List.append_assoc]

end

/-- The place is in the text that is left when the parenthesis is not closed. -/
theorem Grammar.parse_insert_blanks_unclosed :
    let parse := Grammar.parse .standard (Level.expression.parser .standard)
    parse ("1+ONE*(2".toList ++ "+x".toList) = .matched 2 "*(2+x".toList ∧
      parse ("1+ONE*(2".toList ++ " \t".toList ++ "+x".toList) = .matched 2 "*(2 \t+x".toList := by
  intro parse
  have h : parse ("1+ONE*(2".toList ++ "+x".toList) = .matched 2 "*(2+x".toList := by
    decide +kernel
  have hw : Text.AllBlank " \t".toList := List.all_eq_true.1 (by decide +kernel)
  have hd : Parted Char.isDigit "1+ONE*(2".toList "+x".toList := by decide +kernel
  have hn : Parted isNameChar "1+ONE*(2".toList "+x".toList := by decide +kernel
  obtain ⟨-, -, hbefore⟩ := Grammar.parse_insert_blanks (l := .expression) hw hd hn
  exact ⟨h, hbefore 2 "*(2".toList (by decide) (by decide) h⟩

/-! ## Names and values -/

section
variable {registers : Registers} {a b : List Char} {name : String} {v : Word}

/-- A name is read to its end, whatever comes behind it. -/
theorem read_name (hname : IsMaximalRun isNameChar a name.toList b)
    (hv : registers.get? name = some v) :
    read registers .atom (name.toList ++ b) = .matched v (skipBlanks b) := by
  obtain ⟨c, t, ht, hc, hall⟩ := hname.run.exists_cons
  obtain ⟨htake, hdrop⟩ := takeWhile_run hall hname.right
  have hs : skipBlanks (name.toList ++ b) = c :: (t ++ b) := by
    rw [ht]
    exact Text.skipBlanks_cons (isBlank_of_isNameChar hc) (t ++ b)
  rw [read_atom_name hs hc, htake, hdrop, ← ht, String.ofList_toList, hv]
  rfl

/-- A value in parentheses is read to its end, whatever comes behind it. -/
theorem read_value (h : 0 ≤ v.val) (b : List Char) :
    read registers .atom ('(' :: v.text ++ [')'] ++ b) = .matched v (skipBlanks b) := by
  obtain ⟨hrun, hv⟩ := Word.toNat_text h
  let t : Tree .expression := .operand .plus (.operand .times (.number v.text hrun))
  have ht : t.Written v.text :=
    .operand (.operand (.number ⟨[], [], Text.allBlank_nil, Text.allBlank_nil, by simp⟩))
  exact read_enclose (read_all_iff.2 ⟨t, ht, hv⟩) b

/-- Neither a name nor a parenthesis is a mark, or goes on with a run of `a`. -/
theorem exchange_value (hname : IsMaximalRun isNameChar a name.toList b)
    (hv : registers.get? name = some v) (h : 0 ≤ v.val) :
    Exchange registers a name.toList ('(' :: v.text ++ [')']) b := by
  obtain ⟨c, t, ht, hc, -⟩ := hname.run.exists_cons
  have hx : name.toList ++ b = c :: (t ++ b) := by rw [ht]; rfl
  have hy : '(' :: v.text ++ [')'] ++ b = '(' :: (v.text ++ [')'] ++ b) := rfl
  refine ⟨⟨parted_right ?_, parted_right ?_⟩, ⟨parted_left hname.left, parted_left hname.left⟩,
    ?_, fun _ _ d hd => ?_, fun _ _ => ?_⟩
  · rw [hx]
    rintro _ ⟨⟩
    exact isDigit_of_isNameChar hc
  · rintro _ ⟨⟩
    rfl
  · rw [hx, hy, Text.skipBlanks_cons (isBlank_of_isNameChar hc), Text.skipBlanks_cons (by decide),
      ← hx, ← hy]
    exact .before List.nil_suffix
  · have hcd : c ≠ d := by
      rintro rfl
      rw [(classes_of_mark (List.mem_cons_of_mem _ hd)).2.2] at hc
      cases hc
    have hd' : '(' ≠ d := by
      rintro rfl
      revert hd
      decide
    rw [hx, hy, after?, after?, if_neg hcd, if_neg hd']
    exact .none
  · rw [read_name hname hv, read_value h]
    exact .matched v (.behind (Text.skipBlanks_suffix b))

/-- A name may be exchanged for its value in parentheses: whether there is a match, the value that
is read and what is left behind the place stay as they are. -/
theorem Grammar.parse_exchange_value {l : Level}
    (hname : IsMaximalRun isNameChar a name.toList b) (hv : registers.get? name = some v)
    (h : 0 ≤ v.val) :
    let parse := Grammar.parse registers (l.parser registers)
    let value := '(' :: v.text ++ [')']
    (parse (a ++ name.toList ++ b) = .failed ↔ parse (a ++ value ++ b) = .failed) ∧
    (∀ u rest, parse (a ++ name.toList ++ b) = .matched u rest → rest <:+ b →
      parse (a ++ value ++ b) = .matched u rest) ∧
    (∀ u rest, parse (a ++ name.toList ++ b) = .matched u rest → ¬ rest <:+ b →
      ∃ p, p <:+ a ∧ rest = p ++ name.toList ++ b ∧
        parse (a ++ value ++ b) = .matched u (p ++ value ++ b)) := by
  intro parse value
  have hrel : Outcome.Rel (Exchanged a name.toList value b) (parse (a ++ name.toList ++ b))
      (parse (a ++ value ++ b)) := (exchange_value hname hv h).parse l
  refine ⟨hrel.failed_iff, fun u rest ho hb => ?_, fun u rest ho hb => ?_⟩
  · obtain ⟨rest', hrest, ho'⟩ := hrel.exists_matched ho
    cases hrest with
    | behind _ => exact ho'
    | @before p _ =>
      rw [← List.append_assoc] at hb
      refine absurd hb (not_append_suffix ?_ b)
      exact List.append_ne_nil_of_right_ne_nil p hname.run.ne_nil
  · obtain ⟨rest', hrest, ho'⟩ := hrel.exists_matched ho
    cases hrest with
    | behind hb' => exact absurd hb' hb
    | @before p hp =>
      refine ⟨p, hp, (List.append_assoc ..).symm, ?_⟩
      rw [ho', List.append_assoc p value b]

end

/-- The product with the name is no word, nor is the sum with its left operand alone: both operations
fall back, and the place is in what is left. -/
theorem Grammar.parse_exchange_value_overflow :
    let parse := Grammar.parse .standard (Level.expression.parser .standard)
    parse ("1+9223372036854775807*".toList ++ "TWO".toList ++ " x".toList) =
        .matched 1 "+9223372036854775807*TWO x".toList ∧
      parse ("1+9223372036854775807*".toList ++ "(2)".toList ++ " x".toList) =
        .matched 1 "+9223372036854775807*(2) x".toList := by
  intro parse
  have h : parse ("1+9223372036854775807*".toList ++ "TWO".toList ++ " x".toList) =
      .matched 1 "+9223372036854775807*TWO x".toList := by decide +kernel
  have hname : IsMaximalRun isNameChar "1+9223372036854775807*".toList "TWO".toList " x".toList := by
    decide +kernel
  have hv : Registers.standard.get? "TWO" = some 2 := by decide +kernel
  have hvalue : '(' :: (2 : Word).text ++ [')'] = "(2)".toList := by decide +kernel
  obtain ⟨-, -, hbefore⟩ := Grammar.parse_exchange_value (l := .expression) hname hv (by decide)
  obtain ⟨p, -, hp, ho⟩ := hbefore 1 _ h (by decide)
  have hp' : "+9223372036854775807*".toList ++ "TWO".toList ++ " x".toList =
      p ++ "TWO".toList ++ " x".toList := Eq.trans (by decide) hp
  obtain rfl : "+9223372036854775807*".toList = p :=
    List.append_cancel_right (List.append_cancel_right hp')
  rw [hvalue] at ho
  exact ⟨h, ho⟩

end Reckon
