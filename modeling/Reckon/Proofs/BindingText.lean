import Reckon.CommandLine.Run
import Reckon.Proofs.Decimal

/-!
# Texts of bindings

`Binding.Form text b` says without a reader when a text stands for a binding: the name up to the first
equals sign, and behind it an integer in decimal form, both with any blanks around them
(`Text.Trims`).

Main result: `Binding.ofText_form`. A text is read as a binding exactly if it has the form of one, and
every other text is reported as it is. A name and the decimal form of a word, with any blanks around
them, are read back.
-/

set_option autoImplicit false

namespace Reckon

/-! ## Blanks at both ends -/

namespace Text

/-- No blank comes first or last. -/
structure Bare (s : List Char) : Prop where
  first : ∀ c ∈ s.head?, isBlank c = false
  last : ∀ c ∈ s.getLast?, isBlank c = false

/-- `t` is `s` without the blanks at both ends. -/
def Trims (s t : List Char) : Prop := Padded t s ∧ Bare t

theorem bare_of_forall {s : List Char} (h : ∀ c ∈ s, isBlank c = false) : Bare s :=
  ⟨fun c hc => h c (List.mem_of_mem_head? hc), fun c hc => h c (List.mem_of_mem_getLast? hc)⟩

theorem skipBlanks_append_of_trimmed {w t : List Char} (hw : AllBlank w) (ht : Trimmed t) :
    skipBlanks (w ++ t) = t := by
  rw [skipBlanks_append hw, skipBlanks_of_trimmed ht]

theorem allBlank_reverse {w : List Char} (h : AllBlank w) : AllBlank w.reverse :=
  fun c hc => h c (List.mem_reverse.1 hc)

theorem trims_trim (s : List Char) : Trims s (trim s) := by
  obtain ⟨w, hw, hs⟩ := exists_blanks_append s
  obtain ⟨w', hw', hr⟩ := exists_blanks_append (skipBlanks s).reverse
  have hsplit : skipBlanks s = trim s ++ w'.reverse := by
    rw [trim, ← List.reverse_append, ← hr, List.reverse_reverse]
  refine ⟨⟨w, w'.reverse, hw, allBlank_reverse hw', ?_⟩, fun c hc => ?_, fun c hc => ?_⟩
  · rw [List.append_assoc, ← hsplit]
    exact hs
  · apply trimmed_skipBlanks s
    rw [hsplit, List.head?_append, hc]
    rfl
  · rw [trim, List.getLast?_reverse] at hc
    exact trimmed_skipBlanks _ c hc

/-- What is left of a text without the blanks at both ends is determined. -/
theorem trim_eq_iff {s t : List Char} : trim s = t ↔ Trims s t := by
  constructor
  · rintro rfl
    exact trims_trim s
  · rintro ⟨⟨w, w', hw, hw', rfl⟩, hfirst, hlast⟩
    cases t with
    | nil =>
      have hall : AllBlank (w ++ [] ++ w') := by
        intro c hc
        simp only [List.append_nil, List.mem_append] at hc
        rcases hc with hc | hc
        · exact hw c hc
        · exact hw' c hc
      have hskip : skipBlanks (w ++ [] ++ w') = [] := by
        rw [← List.append_nil (w ++ [] ++ w')]
        exact skipBlanks_append_of_trimmed hall (by simp [Trimmed])
      rw [trim, hskip]
      rfl
    | cons c t =>
      have hskip : skipBlanks (w ++ c :: t ++ w') = c :: t ++ w' := by
        rw [List.append_assoc]
        exact skipBlanks_append_of_trimmed hw fun d hd => hfirst d hd
      have hlast' : Trimmed (c :: t).reverse := by
        intro d hd
        rw [List.head?_reverse] at hd
        exact hlast d hd
      rw [trim, hskip, List.reverse_append,
        skipBlanks_append_of_trimmed (allBlank_reverse hw') hlast', List.reverse_reverse]

end Text

/-- No blank is in the decimal form of an integer. -/
theorem Numeral.Denotes.isBlank {s : List Char} {i : Int} (h : Denotes s i) :
    ∀ c ∈ s, Text.isBlank c = false := by
  have hdigit : ∀ {ds : List Char}, IsRun Char.isDigit ds → ∀ c ∈ ds, Text.isBlank c = false :=
    fun hds c hc => Text.isBlank_of_isDigit (hds.all c hc)
  cases h with
  | unsigned h => exact hdigit h
  | plus h | minus h => exact List.forall_mem_cons.2 ⟨by decide, hdigit h⟩

theorem Numeral.Denotes.bare {s : List Char} {i : Int} (h : Denotes s i) : Text.Bare s :=
  Text.bare_of_forall h.isBlank

/-! ## The form of a binding -/

namespace Binding

open Text (AllBlank Trims)

/-- The first equals sign of a text parts it. -/
theorem split_eq_iff {s left right : List Char} :
    s.takeWhile (· != '=') = left ∧ s.dropWhile (· != '=') = '=' :: right ↔
      s = left ++ '=' :: right ∧ '=' ∉ left := by
  constructor
  · rintro ⟨rfl, hdrop⟩
    refine ⟨?_, fun hmem => ?_⟩
    · rw [← hdrop, List.takeWhile_append_dropWhile]
    · have hall := List.all_eq_true.1 (List.all_takeWhile (p := (· != '=')) (l := s))
      simpa using hall '=' hmem
  · rintro ⟨rfl, hleft⟩
    refine takeWhile_run (fun c hc => ?_) (by simp)
    simp only [bne_iff_ne, ne_eq]
    rintro rfl
    exact hleft hc

/-- A name, an equals sign and an integer in decimal form, with any blanks around name and
integer. Only in what comes behind the equals sign may there be another one. -/
def Form (text : String) (b : Binding) : Prop :=
  ∃ left right digits, text.toList = left ++ '=' :: right ∧ '=' ∉ left ∧
    Trims left b.1.toList ∧ Trims right digits ∧ Numeral.Denotes digits b.2.val

theorem ofText_eq_ok_iff {text : String} {b : Binding} : ofText text = .ok b ↔ Form text b := by
  obtain ⟨name, w⟩ := b
  unfold ofText Form
  constructor
  · intro h
    split at h
    · cases h
    · rename_i c right hdrop
      have hc : c = '=' := by
        have hhead := Text.head?_dropWhile (· != '=') text.toList
        rw [hdrop] at hhead
        simpa using hhead c rfl
      subst hc
      obtain ⟨htext, hleft⟩ := split_eq_iff.1 ⟨rfl, hdrop⟩
      split at h
      · cases h
      · rename_i v hv
        cases h
        refine ⟨_, right, _, htext, hleft, ?_, Text.trims_trim right, Word.read?_eq_some_iff.1 hv⟩
        rw [String.toList_ofList]
        exact Text.trims_trim _
  · rintro ⟨left, right, digits, htext, hleft, hname, hright, hvalue⟩
    obtain ⟨htake, hdrop⟩ := split_eq_iff.2 ⟨htext, hleft⟩
    rw [hdrop, htake]
    simp only [Text.trim_eq_iff.2 hright, Word.read?_eq_some_iff.2 hvalue, Text.trim_eq_iff.2 hname,
      String.ofList_toList]

theorem ofText_eq_error_iff {text : String} {e : Error} :
    ofText text = .error e ↔ (¬ ∃ b, Form text b) ∧ e = .invalidBinding text := by
  simp only [← ofText_eq_ok_iff]
  unfold ofText
  split
  · simp [eq_comm]
  · split
    · simp [eq_comm]
    · simp

/-- A text is read as a binding exactly if it has the form of one; every other text is the error,
unchanged. A name without an equals sign and without blanks at its ends, and the decimal form of a
word, are read back, whatever blanks are around them. -/
theorem ofText_form :
    (∀ text b, ofText text = .ok b ↔ Form text b) ∧
    (∀ text e, ofText text = .error e ↔ (¬ ∃ b, Form text b) ∧ e = .invalidBinding text) ∧
    ∀ (name : String) (v : Word) (w₁ w₂ w₃ w₄ : List Char), AllBlank w₁ → AllBlank w₂ →
      AllBlank w₃ → AllBlank w₄ → '=' ∉ name.toList → Text.Bare name.toList →
      ofText (String.ofList (w₁ ++ name.toList ++ w₂ ++ '=' :: (w₃ ++ v.text ++ w₄))) =
        .ok (name, v) := by
  refine ⟨fun text b => ofText_eq_ok_iff, fun text e => ofText_eq_error_iff,
    fun name v w₁ w₂ w₃ w₄ h₁ h₂ h₃ h₄ hname hbare => ofText_eq_ok_iff.2 ?_⟩
  have hequals : Text.isBlank '=' = false := by decide
  refine ⟨_, _, v.text, String.toList_ofList, ?_, ⟨⟨w₁, w₂, h₁, h₂, rfl⟩, hbare⟩,
    ⟨⟨w₃, w₄, h₃, h₄, rfl⟩, v.denotes_text.bare⟩, v.denotes_text⟩
  simp only [List.mem_append, not_or]
  refine ⟨⟨fun h => ?_, hname⟩, fun h => ?_⟩
  · rw [h₁ _ h] at hequals
    cases hequals
  · rw [h₂ _ h] at hequals
    cases hequals

/-- The least word, with blanks of several kinds; a name that is empty and a value with a sign and
zeros; a second equals sign. -/
theorem ofText_form_least :
    ofText "\t A B\u2003= -9223372036854775808\n" = .ok ("A B", Word.clamp (-9223372036854775808)) ∧
      ofText " =+007" = .ok ("", 7) ∧ ofText "=1=2" = .error (.invalidBinding "=1=2") := by
  obtain ⟨hok, herror, hread⟩ := ofText_form
  have hname : Text.Bare "A B".toList := by
    constructor <;> rintro c ⟨⟩ <;> decide +kernel
  have hempty : Text.Bare [] := Text.bare_of_forall (by simp)
  refine ⟨?_, (hok _ _).2 ?_, (herror _ _).2 ⟨?_, rfl⟩⟩
  · have h := hread "A B" (Word.clamp (-9223372036854775808)) ['\t', ' '] ['\u2003'] [' '] ['\n']
      (by decide +kernel) (by decide +kernel) (by decide +kernel) (by decide +kernel) (by decide)
      hname
    rw [show (Word.clamp (-9223372036854775808)).text = "-9223372036854775808".toList by
      decide +kernel] at h
    exact h
  · have hrun : IsRun Char.isDigit "007".toList := by decide
    have hvalue : Numeral.Denotes "+007".toList (7 : Word).val := .plus hrun
    exact ⟨[' '], "+007".toList, "+007".toList, rfl, by decide,
      ⟨⟨[' '], [], by decide +kernel, Text.allBlank_nil, rfl⟩, hempty⟩,
      ⟨⟨[], [], Text.allBlank_nil, Text.allBlank_nil, rfl⟩, hvalue.bare⟩, hvalue⟩
  · rintro ⟨b, hb⟩
    have h : (ofText "=1=2").toOption = none := by decide +kernel
    rw [(hok _ _).2 hb] at h
    cases h

end Binding

end Reckon
