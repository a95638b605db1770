import Reckon.Proofs.BindingText

/-!
# The line that reports an evaluation

An evaluation is reported in one line, its value first and then the text that was left. That text
may be any text at all, also one that looks like a report; still the line says which evaluation it
is (`Evaluation.ofLine?_text`): the decimal form of a word has no space in it, so the value ends at
the first space, and everything behind the words that come next was left.

Main result: `Evaluation.text_unambiguous`. Different evaluations have different lines, and what a
run writes reports an evaluation exactly if the command line comes to it.
-/

set_option autoImplicit false

namespace Reckon

theorem Parser.stripText_append (text s : List Char) : stripText text (text ++ s) = some s := by
  induction text with
  | nil => rfl
  | cons c text ih => rw [List.cons_append, stripText, if_pos rfl, ih]

namespace Word

theorem read?_text (w : Word) : read? w.text = some w := read?_eq_some_iff.2 w.denotes_text

/-- The decimal form of a word ends at the first space. -/
theorem takeWhile_text_append (w : Word) (s : List Char) :
    (w.text ++ ' ' :: s).takeWhile (· != ' ') = w.text ∧
      (w.text ++ ' ' :: s).dropWhile (· != ' ') = ' ' :: s := by
  refine takeWhile_run (fun c hc => ?_) (by simp)
  have hblank : Text.isBlank c = false := w.denotes_text.isBlank c hc
  rw [bne_iff_ne]
  rintro rfl
  revert hblank
  decide

end Word

/-! ## Lines -/

namespace Evaluation

/-- The evaluation that a line reports, if it is the line of one. -/
def ofLine? (line : List Char) : Option Evaluation := do
  let s ← Parser.stripText "Value=".toList line
  let value ← Word.read? (s.takeWhile (· != ' '))
  let rest ← Parser.stripText " unparsed=".toList (s.dropWhile (· != ' '))
  some ⟨value, String.ofList rest⟩

theorem toList_text (e : Evaluation) :
    e.text.toList =
      "Value=".toList ++ (e.value.text ++ (" unparsed=".toList ++ e.remainder.toList)) := by
  have hvalue : (toString e.value).toList = e.value.text := String.toList_ofList
  simp only [text, String.toList_append, hvalue, List.append_assoc]

/-- The evaluation is read back from its line, whatever text was left. -/
theorem ofLine?_text (e : Evaluation) : ofLine? e.text.toList = some e := by
  obtain ⟨htake, hdrop⟩ := e.value.takeWhile_text_append ("unparsed=".toList ++ e.remainder.toList)
  have hline : e.text.toList =
      "Value=".toList ++ (e.value.text ++ ' ' :: ("unparsed=".toList ++ e.remainder.toList)) :=
    e.toList_text
  have hrest : Parser.stripText " unparsed=".toList
      (' ' :: ("unparsed=".toList ++ e.remainder.toList)) = some e.remainder.toList :=
    Parser.stripText_append " unparsed=".toList e.remainder.toList
  rw [ofLine?, hline, Parser.stripText_append]
  simp only [Option.bind_eq_bind, Option.bind_some, htake, hdrop, Word.read?_text, hrest,
    String.ofList_toList]

theorem text_inj {e₁ e₂ : Evaluation} : e₁.text = e₂.text ↔ e₁ = e₂ := by
  refine ⟨fun h => Option.some.inj ?_, fun h => h ▸ rfl⟩
  rw [← ofLine?_text e₁, h, ofLine?_text]

end Evaluation

/-! ## Runs -/

/-- The evaluation that was written, if it was one: its line and the end of the line. -/
def Report.evaluation? (r : Report) : Option Evaluation :=
  if r.output.toList.getLast? = some '\n' then Evaluation.ofLine? r.output.toList.dropLast
  else none

theorem Report.evaluation?_ofResult_eq_some_iff {result : Except Error Evaluation}
    {e : Evaluation} : (ofResult result).evaluation? = some e ↔ result = .ok e := by
  cases result with
  | error fault => simp [ofResult, evaluation?]
  | ok e' =>
    have houtput : (e'.text ++ "\n").toList = e'.text.toList ++ ['\n'] := String.toList_append
    simp only [ofResult, evaluation?, houtput, List.getLast?_concat, List.dropLast_concat, if_true,
      Evaluation.ofLine?_text, Option.some.injEq, Except.ok.injEq]

/-- The help begins with the usage. -/
theorem exists_helpText : ∃ s, helpText.toList = usageText.toList ++ s := by
  unfold helpText
  simp only [String.toList_append, List.append_assoc]
  exact ⟨_, rfl⟩

/-- A run that is not to evaluate anything does not write the line of an evaluation. -/
theorem Options.Stop.evaluation?_report (stop : Stop) : stop.report.evaluation? = none := by
  cases stop with
  | version => decide +kernel
  | help =>
    obtain ⟨s, hhelp⟩ := exists_helpText
    have houtput : (helpText ++ "\n").toList = usageText.toList ++ s ++ ['\n'] := by
      rw [String.toList_append, hhelp]
      rfl
    simp only [report, Report.evaluation?, houtput, List.getLast?_concat, List.dropLast_concat,
      if_true]
    rfl
  | usage fault => rfl

/-- Evaluations with the same line are the same. The line can be read back, and so can what a run
writes: the output of a run is the line of an evaluation, and the end of the line, exactly if this
is the evaluation that the command line asks for. -/
theorem Evaluation.text_unambiguous :
    (∀ e₁ e₂ : Evaluation, e₁.text = e₂.text ↔ e₁ = e₂) ∧
    (∀ e : Evaluation, ofLine? e.text.toList = some e) ∧
    ∀ (files : Files) (arguments : List String) (e : Evaluation),
      (respond files arguments).evaluation? = some e ↔
        ∃ options, Options.read arguments = .ok options ∧ options.evaluate files = .ok e := by
  refine ⟨fun e₁ e₂ => text_inj, ofLine?_text, fun files arguments e => ?_⟩
  unfold respond
  cases hread : Options.read arguments with
  | error stop => simp [Options.Stop.evaluation?_report]
  | ok options => simp [Report.evaluation?_ofResult_eq_some_iff]

/-- What was left looks like a report of its own, with an end of line in it. -/
example :
    let e : Evaluation := ⟨Word.clamp (-9223372036854775808), "7 unparsed=\nValue=1 unparsed="⟩
    e.text = "Value=-9223372036854775808 unparsed=7 unparsed=\nValue=1 unparsed=" ∧
      Evaluation.ofLine? e.text.toList = some e := by
  decide +kernel

end Reckon
