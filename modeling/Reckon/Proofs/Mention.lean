import Reckon.Evaluator
import Reckon.Proofs.Boundary
import Reckon.Proofs.Simulation

/-!
# Only the names that are written matter

`Mentions s name` states that `name` is written in `s`, as a whole: a run of name characters that
goes on neither to the left nor to the right. Registers are asked for no other names
(`simulation_agree`): every place at which an atom is tried is parted from what stands in front of
it, and a run is read to its end. So registers that agree on the names that are written give the
same results, and a binding of another name changes nothing (`Evaluator.results_eq_of_mentions`).
-/

set_option autoImplicit false

namespace Reckon

/-! ## Names in a text -/

/-- `name` is written in `s`. -/
def Mentions (s : List Char) (name : String) : Prop :=
  ∃ before after, s = before ++ name.toList ++ after ∧
    IsMaximalRun isNameChar before name.toList after

theorem mentions_append {p s : List Char} {name : String} (hp : Parted isNameChar p s)
    (h : Mentions s name) : Mentions (p ++ s) name := by
  obtain ⟨before, after, rfl, hrun⟩ := h
  exact ⟨p ++ before, after, by simp only [List.append_assoc], hrun.append_left hp⟩

instance (s : List Char) (name : String) : Decidable (Mentions s name) :=
  decidable_of_iff
    (((List.range (s.length + 1)).any fun n =>
      s.take n ++ name.toList ++ s.drop (n + name.toList.length) == s &&
        decide (IsMaximalRun isNameChar (s.take n) name.toList
          (s.drop (n + name.toList.length)))) = true) (by
    simp only [List.any_eq_true, List.mem_range, Bool.and_eq_true, beq_iff_eq, decide_eq_true_eq]
    constructor
    · rintro ⟨n, -, hs, h⟩
      exact ⟨_, _, hs.symm, h⟩
    · rintro ⟨before, after, rfl, h⟩
      have htake : (before ++ name.toList ++ after).take before.length = before := by
        rw [List.append_assoc, List.take_left]
      have hdrop : (before ++ name.toList ++ after).drop
          (before.length + name.toList.length) = after := by
        rw [← List.length_append, List.drop_left]
      refine ⟨before.length, by simp only [List.length_append]; omega, ?_⟩
      rw [htake, hdrop]
      exact ⟨rfl, h⟩)

/-! ## Registers that agree -/

/-- The names that are written in `s` have the same values, or none. -/
def Registers.Agree (r r' : Registers) (s : List Char) : Prop :=
  ∀ name, Mentions s name → r.get? name = r'.get? name

namespace Registers.Agree

variable {r r' : Registers} {p s : List Char}

theorem of_append (h : Agree r r' (p ++ s)) (hp : Parted isNameChar p s) : Agree r r' s :=
  fun name hn => h name (mentions_append hp hn)

theorem skipBlanks (h : Agree r r' s) : Agree r r' (Text.skipBlanks s) := by
  obtain ⟨w, hw, hs⟩ := Text.exists_blanks_append s
  rw [hs] at h
  refine h.of_append (parted_left fun c hc => isNameChar_of_isBlank (hw c ?_))
  exact List.mem_of_getLast? hc

theorem of_cons {c : Char} (h : Agree r r' (c :: s)) (hc : isNameChar c = false) : Agree r r' s :=
  of_append (p := [c]) h (parted_left (by simpa using hc))

theorem dropWhile_isDigit (h : Agree r r' s) : Agree r r' (s.dropWhile Char.isDigit) := by
  rw [← List.takeWhile_append_dropWhile (p := Char.isDigit) (l := s)] at h
  refine h.of_append (parted_left fun c hc => isNameChar_of_isDigit ?_)
  exact List.all_eq_true.1 List.all_takeWhile c (List.mem_of_getLast? hc)

theorem dropWhile_isNameChar (h : Agree r r' s) : Agree r r' (s.dropWhile isNameChar) := by
  rw [← List.takeWhile_append_dropWhile (p := isNameChar) (l := s)] at h
  exact h.of_append (parted_right (Text.head?_dropWhile isNameChar s))

end Registers.Agree

/-! ## Reading -/

open SinglePass

/-- Reading keeps to texts on which the registers agree. -/
theorem simulation_agree (r r' : Registers) :
    Simulation r r' fun s s' => s = s' ∧ r.Agree r' s where
  blanks := by
    rintro s _ ⟨rfl, h⟩
    exact ⟨rfl, h.skipBlanks⟩
  mark := by
    rintro s _ ⟨rfl, h⟩ - - c hc
    cases ha : Text.after? c s with
    | none => exact .none
    | some t =>
      obtain ⟨rest, rfl, rfl⟩ := Text.after?_eq_some ha
      have hn : isNameChar c = false := (classes_of_mark (List.mem_cons_of_mem _ hc)).2.2
      exact .some ⟨rfl, (h.of_cons hn).skipBlanks⟩
  atom := by
    rintro s _ ⟨rfl, h⟩ hs -
    cases s with
    | nil =>
      rw [read_atom_nil rfl, read_atom_nil rfl]
      exact .inr .failed
    | cons c s =>
      refine rel_atom_cons (hs c rfl) (fun hp => ⟨rfl, h.of_cons ?_⟩) (fun hd => ⟨rfl, rfl, ?_⟩)
        fun hn => ⟨h _ ⟨[], s.dropWhile isNameChar, ?_, ?_⟩, rfl, ?_⟩
      · exact hp ▸ (classes_of_mark (by decide)).2.2
      · exact (h.of_cons (isNameChar_of_isDigit hd)).dropWhile_isDigit.skipBlanks
      -- the name that is asked for is written in the text: a whole run, with nothing before it
      · simp
      · simpa using isMaximalRun_takeWhile hn s
      · have hrest := h.dropWhile_isNameChar
        rw [List.dropWhile_cons_of_pos hn] at hrest
        exact hrest.skipBlanks

theorem Registers.Agree.parse_eq {r r' : Registers} {s : List Char} (h : r.Agree r' s) (l : Level) :
    Grammar.parse r (l.parser r) s = Grammar.parse r' (l.parser r') s :=
  ((simulation_agree r r').parse l ⟨rfl, h⟩).eq fun _ _ h => h.1

/-! ## Results -/

/-- The same outcome, and the same result in either mode. -/
def Registers.SameResults (r r' : Registers) (source : String) : Prop :=
  Grammar.parse r (Grammar.expression r) source.toList =
      Grammar.parse r' (Grammar.expression r') source.toList ∧
    ∀ mode, ({ registers := r, mode } : Evaluator).evaluate source =
      ({ registers := r', mode } : Evaluator).evaluate source

theorem Registers.Agree.sameResults {r r' : Registers} {source : String}
    (h : r.Agree r' source.toList) : r.SameResults r' source := by
  have hparse : Grammar.parse r (Grammar.expression r) source.toList =
      Grammar.parse r' (Grammar.expression r') source.toList := h.parse_eq .expression
  refine ⟨hparse, fun mode => ?_⟩
  unfold Evaluator.evaluate Evaluator.parse
  rw [hparse]

theorem Registers.get?_of_insert {r r' : Registers} {entry : Binding}
    (h : r.insert entry = .ok r') (name : String) :
    r'.get? name = if name = entry.1 then some entry.2 else r.get? name := by
  rw [insert] at h
  split at h
  · cases h
    exact Bindings.get?_insert r.bindings entry.1 name entry.2
  · cases h

/-- A new binding, or a new value, of a name that is not written in the text. -/
theorem Registers.agree_of_insert {r r' : Registers} {entry : Binding} {s : List Char}
    (h : r.insert entry = .ok r') (hs : ¬ Mentions s entry.1) : r.Agree r' s := by
  intro name hn
  rw [get?_of_insert h, if_neg]
  rintro rfl
  exact hs hn

/-- Registers that agree on all names that are written in a text give the same results. So a binding
that is added or changed makes no difference, if its name is not written in the text as a whole. -/
theorem Evaluator.results_eq_of_mentions (source : String) :
    (∀ r r' : Registers,
      (∀ name, Mentions source.toList name → r.get? name = r'.get? name) →
        r.SameResults r' source) ∧
    (∀ (r r' : Registers) (entry : Binding), r.insert entry = .ok r' →
      ¬ Mentions source.toList entry.1 → r.SameResults r' source) :=
  ⟨fun _ _ h => Registers.Agree.sameResults h,
    fun _ _ _ h hs => (Registers.agree_of_insert h hs).sameResults⟩

/-- `TWO` is only a part of a name in the text, so that it may be changed, and changed back. -/
theorem Evaluator.results_eq_of_mentions_part :
    ∃ r, Registers.standard.insert ("TWO", 7) = .ok r ∧
      Registers.standard.SameResults r "ONE + TWOX * 2" ∧
      r.SameResults .standard "ONE + TWOX * 2" := by
  obtain ⟨hagree, hinsert⟩ := Evaluator.results_eq_of_mentions "ONE + TWOX * 2"
  obtain ⟨r, hr⟩ : ∃ r, Registers.standard.insert ("TWO", 7) = .ok r := ⟨_, rfl⟩
  have hs : ¬ Mentions "ONE + TWOX * 2".toList "TWO" := by decide +kernel
  refine ⟨r, hr, hinsert _ _ _ hr hs, hagree _ _ fun name hn => ?_⟩
  exact (Registers.agree_of_insert hr hs name hn).symm

end Reckon
