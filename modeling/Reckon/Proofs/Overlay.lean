import Reckon.CommandLine.Run
import Reckon.Proofs.Registers

/-!
# Command lines over settings

A command line puts its bindings over the settings that it starts from (`Overlaid`), and what it
is answered is the first of these that applies (`Options.Answer`): the first text that is no
binding, the least name that no register can have, or the evaluation of the expression.
`Options.foldlM_addSymbol` says what the texts do to the settings, and
`Registers.ofBindings_eq_error_iff` which name is refused.

Main result: `Options.evaluate_overlay`. It also states that the order of bindings of different
names does not matter (`Reordered`), and what asking for a complete text changes.
-/

set_option autoImplicit false

namespace Reckon

/-! ## Registers of a map -/

namespace Registers

variable {b : Bindings}

/-- The least name that is not accepted is the error. -/
theorem ofBindings_eq_error_iff {e : Error} : ofBindings b = .error e ↔
    ∃ name v, (name, v) ∈ b.toList ∧ ¬ IsRun isNameChar name.toList ∧
      (∀ other w, (other, w) ∈ b.toList → ¬ IsRun isNameChar other.toList → name ≤ other) ∧
      e = .invalidName name := by
  rw [ofBindings, ofList_eq_error_iff]
  constructor
  · rintro ⟨before, ⟨name, v⟩, after, hs, hbefore, hname, rfl⟩
    refine ⟨name, v, ?_, ?_, fun other w hmem hother => ?_, rfl⟩
    · rw [hs]
      exact List.mem_append_right _ List.mem_cons_self
    · rw [← isName_iff, hname]
      exact Bool.false_ne_true
    · rw [hs] at hmem
      rcases List.mem_append.1 hmem with hmem | hmem
      -- what stands in front is accepted
      · exact absurd (isName_iff.1 (hbefore _ hmem)) hother
      · rcases List.mem_cons.1 hmem with heq | hmem
        · cases heq
          exact String.le_refl _
        · have hlt : name < other := (Bindings.lt_of_split hs).2 (other, w) hmem
          exact fun hgt => String.lt_irrefl _ (String.lt_trans hlt hgt)
  · rintro ⟨name, v, hmem, hname, hleast, rfl⟩
    obtain ⟨before, after, hs⟩ := List.append_of_mem hmem
    refine ⟨before, (name, v), after, hs, ?_, ?_, rfl⟩
    · rintro ⟨other, w⟩ hother
      have hlt : other < name := (Bindings.lt_of_split hs).1 (other, w) hother
      have hmem : (other, w) ∈ b.toList := by
        rw [hs]
        exact List.mem_append_left _ hother
      apply Classical.byContradiction
      intro hbad
      exact hleast other w hmem (fun hrun => hbad (isName_iff.2 hrun)) hlt
    · exact Bool.eq_false_iff.2 fun h => hname (isName_iff.1 h)

end Registers

/-! ## Texts of bindings -/

namespace Binding

/-- The binding that a text stands for, if it has the form of one. -/
def ofText? (text : String) : Option Binding := (ofText text).toOption

/-- The name that a text binds, if it has the form of a binding. -/
def name? (text : String) : Option String := (ofText? text).map Prod.fst

theorem ofText_eq (text : String) : ofText text =
    match ofText? text with
    | some b => .ok b
    | none => .error (.invalidBinding text) := by
  unfold ofText? ofText
  split
  · rfl
  · split <;> rfl

end Binding

/-- `texts'` are the texts `texts` in an order in which those that bind the same name, and those
that are no bindings, stay in their order. -/
def Reordered (texts texts' : List String) : Prop :=
  ∀ name? : Option String,
    texts.filter (Binding.name? · = name?) = texts'.filter (Binding.name? · = name?)

theorem eq_of_perm_of_length_le_one {α : Type} {l l' : List α} (h : l.Perm l')
    (hl : l.length ≤ 1) : l = l' := by
  match l with
  | [] => exact h.symm.eq_nil.symm
  | [a] => exact List.singleton_perm.1 h
  | a :: b :: l => simp at hl

/-- If no name is bound twice, the order does not matter at all. -/
theorem reordered_of_perm {texts texts' : List String} (h : texts.Perm texts')
    (hn : (texts.map Binding.name?).Nodup) : Reordered texts texts' := by
  intro name?
  refine eq_of_perm_of_length_le_one (h.filter _) ?_
  match hf : texts.filter (Binding.name? · = name?) with
  | [] => simp
  | [a] => simp
  | a :: b :: l =>
    have hsub : ((a :: b :: l).map Binding.name?).Nodup := by
      rw [← hf]
      exact hn.sublist (List.filter_sublist.map _)
    have hkey : ∀ text ∈ a :: b :: l, Binding.name? text = name? := by
      intro text ht
      rw [← hf] at ht
      simpa using (List.mem_filter.1 ht).2
    have ha := hkey a List.mem_cons_self
    have hb := hkey b (List.mem_cons_of_mem _ List.mem_cons_self)
    simp [ha, hb] at hsub

/-- The bindings of the texts that have the form of one. -/
def Binding.ofTexts (texts : List String) : List Binding := texts.filterMap ofText?

/-- What the last text of a name says does not depend on the other names. -/
theorem Binding.last?_ofTexts (texts : List String) (name : String) :
    Bindings.last? (ofTexts texts) name =
      Bindings.last? (ofTexts (texts.filter (name? · = some name))) name := by
  have hfilter : ofTexts (texts.filter (name? · = some name)) =
      (ofTexts texts).filter (·.1 = name) := by
    unfold ofTexts
    rw [List.filterMap_filter, List.filter_filterMap]
    congr 1
    funext text
    cases hb : ofText? text with
    | none => simp [name?, hb]
    | some b => by_cases hn : b.1 = name <;> simp [name?, hb, hn, Option.filter]
  rw [hfilter, Bindings.last?_filter]

namespace Reordered

variable {texts texts' : List String} (h : Reordered texts texts')
include h

theorem find?_eq : texts.find? (Binding.name? · = none) = texts'.find? (Binding.name? · = none) := by
  rw [← List.head?_filter, ← List.head?_filter, h none]

theorem last?_eq (name : String) : Bindings.last? (Binding.ofTexts texts) name =
    Bindings.last? (Binding.ofTexts texts') name := by
  rw [Binding.last?_ofTexts, h (some name), ← Binding.last?_ofTexts]

end Reordered

/-! ## Settings of a command line -/

namespace Options

/-- The settings that the bindings of a command line are put over. -/
def base (o : Options) (files : Files) : Except Error Config :=
  match o.config with
  | some path => Config.ofFile path (files path)
  | none => .ok .standard

theorem evaluate_eq (o : Options) (files : Files) :
    o.evaluate files = o.base files >>= fun c => o.overlay c >>= o.evaluateWith := by
  unfold evaluate settings base
  cases o.config with
  | none => rfl
  | some path =>
    simp only
    cases Config.ofFile path (files path) <;> rfl

theorem addSymbol_eq (c : Config) (text : String) : addSymbol c text =
    match Binding.ofText? text with
    | some b => .ok { c with symbols := c.symbols.insert b.1 b.2 }
    | none => .error (.invalidBinding text) := by
  unfold addSymbol
  rw [Binding.ofText_eq]
  cases Binding.ofText? text <;> rfl

/-- The first text that is no binding is the error. If there is none, all bindings are put over the
settings, in their order. -/
theorem foldlM_addSymbol (c : Config) (texts : List String) : texts.foldlM addSymbol c =
    match texts.find? (Binding.name? · = none) with
    | some text => .error (.invalidBinding text)
    | none => .ok { c with symbols := c.symbols.insertAll (Binding.ofTexts texts) } := by
  induction texts generalizing c with
  | nil => rfl
  | cons text texts ih =>
    rw [List.foldlM_cons, addSymbol_eq, List.find?_cons, Binding.ofTexts, List.filterMap_cons]
    cases hb : Binding.ofText? text with
    | none =>
      simp only [Binding.name?, hb, Option.map_none, decide_true]
      rfl
    | some b =>
      simp only [Binding.name?, hb, Option.map_some, reduceCtorEq, decide_false]
      exact ih _

/-- The evaluation of the expression under the settings, if all names in them can be registers. -/
theorem evaluateWith_of_ok {o : Options} {symbols : Bindings} {mode : Mode} {r : Registers}
    (h : Registers.ofBindings symbols = .ok r) : o.evaluateWith ⟨symbols, mode⟩ =
      ({ registers := r, mode } : Evaluator).evaluate (o.expression.getD demonstration) := by
  unfold evaluateWith Config.evaluator Config.registers
  rw [h]
  rfl

theorem evaluateWith_of_error {o : Options} {symbols : Bindings} {mode : Mode} {e : Error}
    (h : Registers.ofBindings symbols = .error e) :
    o.evaluateWith ⟨symbols, mode⟩ = .error e := by
  unfold evaluateWith Config.evaluator Config.registers
  rw [h]
  rfl

section
variable {o : Options} {files : Files} {base : Config}

theorem evaluate_of_base (h : o.base files = .ok base) : o.evaluate files =
    match o.symbols.find? (Binding.name? · = none) with
    | some text => .error (.invalidBinding text)
    | none => o.evaluateWith ⟨base.symbols.insertAll (Binding.ofTexts o.symbols),
        if o.complete then .complete else base.mode⟩ := by
  rw [evaluate_eq, h]
  show o.overlay base >>= o.evaluateWith = _
  rw [overlay, foldlM_addSymbol]
  cases o.symbols.find? (Binding.name? · = none) with
  | some text => rfl
  | none => cases o.complete <;> rfl

end

end Options

/-! ## Answers -/

/-- `m` has the value of the last binding of a name in `more`, and that of `b` if there is none. -/
def Bindings.Overlaid (b : Bindings) (more : List Binding) (m : Bindings) : Prop :=
  ∀ name, m.get? name = (last? more name).or (b.get? name)

theorem Bindings.overlaid_iff {b m : Bindings} {more : List Binding} :
    b.Overlaid more m ↔ m = b.insertAll more := by
  constructor
  · intro h
    apply ext_get?
    intro name
    rw [h name, get?_insertAll]
  · rintro rfl
    exact get?_insertAll b more

namespace Options

/-- What a command line is answered, when its bindings are put over the settings `base`. -/
inductive Answer (o : Options) (base : Config) : Except Error Evaluation → Prop
  /-- The first text that is no binding. -/
  | malformed {text : String} (h : o.symbols.find? (Binding.name? · = none) = some text) :
      Answer o base (.error (.invalidBinding text))
  /-- The least name that no register can have. -/
  | misnamed {m : Bindings} {name : String} {v : Word}
      (hform : ∀ text ∈ o.symbols, Binding.name? text ≠ none)
      (hm : base.symbols.Overlaid (Binding.ofTexts o.symbols) m) (hmem : (name, v) ∈ m.toList)
      (hname : ¬ IsRun isNameChar name.toList)
      (hleast : ∀ other w, (other, w) ∈ m.toList → ¬ IsRun isNameChar other.toList →
        name ≤ other) :
      Answer o base (.error (.invalidName name))
  | evaluated {r : Registers} {mode : Mode}
      (hform : ∀ text ∈ o.symbols, Binding.name? text ≠ none)
      (hm : base.symbols.Overlaid (Binding.ofTexts o.symbols) r.bindings)
      (hmode : mode = .complete ↔ o.complete = true ∨ base.mode = .complete) :
      Answer o base
        (({ registers := r, mode } : Evaluator).evaluate (o.expression.getD demonstration))

section
variable {o : Options} {files : Files} {base : Config}

theorem find?_eq_none_iff : o.symbols.find? (Binding.name? · = none) = none ↔
    ∀ text ∈ o.symbols, Binding.name? text ≠ none := by
  simp [List.find?_eq_none]

theorem mode_eq_iff (o : Options) (base : Config) {mode : Mode} :
    (mode = .complete ↔ o.complete = true ∨ base.mode = .complete) ↔
      mode = if o.complete then .complete else base.mode := by
  cases mode <;> cases o.complete <;> cases base.mode <;> simp

theorem answer_evaluate (h : o.base files = .ok base) : o.Answer base (o.evaluate files) := by
  rw [evaluate_of_base h]
  cases hfind : o.symbols.find? (Binding.name? · = none) with
  | some text => exact .malformed hfind
  | none =>
    have hform := find?_eq_none_iff.1 hfind
    have hm := Bindings.overlaid_iff.2 (Eq.refl (base.symbols.insertAll (Binding.ofTexts o.symbols)))
    cases hr : Registers.ofBindings (base.symbols.insertAll (Binding.ofTexts o.symbols)) with
    | ok r =>
      simp only
      rw [evaluateWith_of_ok hr]
      rw [← Registers.ofBindings_eq_ok_iff.1 hr] at hm
      exact .evaluated hform hm ((mode_eq_iff o base).2 rfl)
    | error e =>
      simp only
      rw [evaluateWith_of_error hr]
      obtain ⟨name, v, hmem, hname, hleast, rfl⟩ := Registers.ofBindings_eq_error_iff.1 hr
      exact .misnamed hform hm hmem hname hleast

theorem Answer.evaluate_eq {result : Except Error Evaluation} (h : o.base files = .ok base)
    (ha : o.Answer base result) : o.evaluate files = result := by
  rw [evaluate_of_base h]
  cases ha with
  | malformed hfind => rw [hfind]
  | @misnamed m name v hform hm hmem hname hleast =>
    rw [find?_eq_none_iff.2 hform]
    refine evaluateWith_of_error (Registers.ofBindings_eq_error_iff.2 ?_)
    rw [← Bindings.overlaid_iff.1 hm]
    exact ⟨name, v, hmem, hname, hleast, rfl⟩
  | @evaluated r mode hform hm hmode =>
    rw [find?_eq_none_iff.2 hform, (mode_eq_iff o base).1 hmode]
    refine evaluateWith_of_ok (Registers.ofBindings_eq_ok_iff.2 ?_)
    exact Bindings.overlaid_iff.1 hm

/-! ## Other command lines -/

theorem evaluate_reordered {symbols : List String} (h : Reordered o.symbols symbols) :
    ({ o with symbols } : Options).evaluate files = o.evaluate files := by
  have hbase : ({ o with symbols } : Options).base files = o.base files := rfl
  cases hb : o.base files with
  | error e => rw [evaluate_eq, evaluate_eq, hbase, hb]; rfl
  | ok base =>
    have hall : base.symbols.insertAll (Binding.ofTexts o.symbols) =
        base.symbols.insertAll (Binding.ofTexts symbols) := by
      apply Bindings.ext_get?
      intro name
      rw [Bindings.get?_insertAll, Bindings.get?_insertAll, h.last?_eq]
    rw [evaluate_of_base hb, evaluate_of_base (hbase.trans hb), hall, h.find?_eq]
    rfl

end

end Options

/-- An evaluation that leaves no text. -/
def Evaluation.complete? (e : Evaluation) : Except Error Evaluation :=
  if e.remainder = "" then .ok e else .error (.trailingInput e.value e.remainder)

theorem Evaluator.evaluate_complete_mode (r : Registers) (mode : Mode) (source : String) :
    ({ registers := r, mode := .complete } : Evaluator).evaluate source =
      (({ registers := r, mode } : Evaluator).evaluate source).bind Evaluation.complete? := by
  unfold evaluate parse
  cases Grammar.parse r (Grammar.expression r) source.toList with
  | failed => rfl
  | matched v rest =>
    cases mode <;> cases rest <;> simp [Except.bind, Evaluation.complete?]

theorem Options.evaluate_complete_flag (o : Options) (files : Files) :
    ({ o with complete := true } : Options).evaluate files =
      (o.evaluate files).bind Evaluation.complete? := by
  have hbase : ({ o with complete := true } : Options).base files = o.base files := rfl
  cases hb : o.base files with
  | error e => rw [evaluate_eq, evaluate_eq, hbase, hb]; rfl
  | ok base =>
    rw [evaluate_of_base hb, evaluate_of_base (hbase.trans hb)]
    cases hfind : o.symbols.find? (Binding.name? · = none) with
    | some text => rfl
    | none =>
      simp only
      cases hr : Registers.ofBindings (base.symbols.insertAll (Binding.ofTexts o.symbols)) with
      | error e => rw [evaluateWith_of_error hr, evaluateWith_of_error hr]; rfl
      | ok r =>
        rw [evaluateWith_of_ok hr, evaluateWith_of_ok hr]
        exact Evaluator.evaluate_complete_mode r _ _

/-- A command line has one answer. A file that gives no settings comes first; over its settings the
answer is the one of `Options.Answer`. The order of the bindings matters only among those of one
name, and asking for a complete text turns an evaluation that leaves text into an error, and changes
nothing else. -/
theorem Options.evaluate_overlay (o : Options) (files : Files) :
    (∀ e, o.base files = .error e → o.evaluate files = .error e) ∧
    (∀ base result, o.base files = .ok base →
      (o.evaluate files = result ↔ o.Answer base result)) ∧
    (∀ symbols, Reordered o.symbols symbols →
      ({ o with symbols } : Options).evaluate files = o.evaluate files) ∧
    ({ o with complete := true } : Options).evaluate files =
      (o.evaluate files).bind Evaluation.complete? := by
  refine ⟨fun e h => ?_, fun base result h => ⟨?_, fun ha => ha.evaluate_eq h⟩,
    fun symbols h => evaluate_reordered h, evaluate_complete_flag o files⟩
  · rw [evaluate_eq, h]
    rfl
  · rintro rfl
    exact answer_evaluate h

/-- `ONE` is bound anew, and the parenthesis is left. -/
theorem Options.evaluate_overlay_three :
    let files : Files := fun _ => .error .missing
    let o : Options := { expression := some "A*B+ONE)", symbols := ["B = 2", "A=40", "ONE=7"] }
    ({ o with config := some "f.json" } : Options).evaluate files =
        .error (FileFault.missing.error "f.json") ∧
      o.Answer .standard (.ok ⟨87, ")"⟩) ∧
      ({ o with symbols := ["ONE=7", "A=40", "B = 2"] } : Options).evaluate files =
        .ok ⟨87, ")"⟩ ∧
      ({ o with complete := true } : Options).evaluate files =
        .error (.trailingInput 87 ")") := by
  intro files o
  obtain ⟨-, hanswer, horder, hcomplete⟩ := Options.evaluate_overlay o files
  obtain ⟨hfile, -⟩ := Options.evaluate_overlay { o with config := some "f.json" } files
  have hvalue : (o.evaluate files).toOption = some ⟨87, ")"⟩ := by decide +kernel
  have h : o.evaluate files = .ok ⟨87, ")"⟩ := by
    cases he : o.evaluate files with
    | error e => rw [he] at hvalue; cases hvalue
    | ok e => rw [he] at hvalue; cases hvalue; rfl
  have hreordered : Reordered o.symbols ["ONE=7", "A=40", "B = 2"] :=
    reordered_of_perm (by decide) (by decide +kernel)
  rw [h] at hcomplete
  exact ⟨hfile _ rfl, (hanswer _ _ rfl).1 h, (horder _ hreordered).trans h, hcomplete⟩

end Reckon
