import Reckon.Evaluator
import Reckon.Proofs.Boundary
import Reckon.Proofs.Evaluation
import Reckon.Proofs.FiniteMap

/-!
# Registers can be read

Names are checked when registers are made, and they are read by the grammar; the two agree.
`Registers.ofList_eq_ok_iff` and `Registers.ofList_eq_error_iff` say which bindings are accepted
and which name is refused. `Registers.Origin` lists the ways in which registers are made, and
`Registers.Origin.readable` states, for all of them, that each binding that was accepted can be
used in an expression, and that nothing else is read as a name.
-/

set_option autoImplicit false

namespace Reckon

open SinglePass

theorem isName_iff {name : String} : isName name = true ↔ IsRun isNameChar name.toList := by
  simp only [isName, Bool.and_eq_true, Bool.not_eq_true', List.isEmpty_eq_false_iff,
    List.all_eq_true]
  exact ⟨fun h => ⟨h.1, h.2⟩, fun h => ⟨h.ne_nil, h.all⟩⟩

/-- A sequence of steps fails at the first step that fails. -/
theorem foldlM_eq_error_iff {σ α ε : Type} {f : σ → α → Except ε σ} {as : List α} {s : σ} {e : ε} :
    as.foldlM f s = .error e ↔ ∃ before a after t, as = before ++ a :: after ∧
      before.foldlM f s = .ok t ∧ f t a = .error e := by
  constructor
  · intro h
    induction as generalizing s with
    | nil => cases h
    | cons a as ih =>
      rw [List.foldlM_cons] at h
      cases hstep : f s a with
      | error e' =>
        rw [hstep] at h
        cases h
        exact ⟨[], a, as, s, rfl, rfl, hstep⟩
      | ok t =>
        rw [hstep] at h
        obtain ⟨before, b, after, u, rfl, hbefore, hb⟩ := ih h
        refine ⟨a :: before, b, after, u, rfl, ?_, hb⟩
        rw [List.foldlM_cons, hstep]
        exact hbefore
  · rintro ⟨before, a, after, t, rfl, hbefore, ha⟩
    rw [List.foldlM_append, hbefore]
    show List.foldlM f t (a :: after) = _
    rw [List.foldlM_cons, ha]
    rfl

/-! ## Names that are accepted -/

namespace Registers

variable {r r' : Registers} {entry : Binding} {entries : List Binding}

theorem ext_bindings (h : r.bindings = r'.bindings) : r = r' := by
  cases r
  cases r'
  cases h
  rfl

theorem insert_eq_ok_iff : r.insert entry = .ok r' ↔
    isName entry.1 = true ∧ r'.bindings = r.bindings.insert entry.1 entry.2 := by
  unfold insert
  split
  · rename_i h
    simp only [Except.ok.injEq, h, true_and]
    exact ⟨fun hr => hr ▸ rfl, fun hb => ext_bindings hb.symm⟩
  · rename_i h
    simp [h]

theorem insert_eq_error_iff {e : Error} :
    r.insert entry = .error e ↔ isName entry.1 = false ∧ e = .invalidName entry.1 := by
  unfold insert
  split
  · rename_i h
    simp [h]
  · rename_i h
    simp [h, eq_comm]

theorem foldlM_insert_eq_ok_iff : entries.foldlM insert r = .ok r' ↔
    (∀ entry ∈ entries, isName entry.1 = true) ∧
      r'.bindings = r.bindings.insertAll entries := by
  induction entries generalizing r with
  | nil =>
    simp only [List.foldlM_nil, List.not_mem_nil, false_implies, implies_true, true_and]
    exact ⟨fun h => by cases h; rfl, fun h => congrArg Except.ok (ext_bindings h.symm)⟩
  | cons entry entries ih =>
    rw [List.foldlM_cons, List.forall_mem_cons]
    constructor
    · intro h
      cases hstep : r.insert entry with
      | error e =>
        rw [hstep] at h
        cases h
      | ok t =>
        rw [hstep] at h
        obtain ⟨hname, ht⟩ := insert_eq_ok_iff.1 hstep
        obtain ⟨hnames, hr⟩ := ih.1 h
        rw [ht] at hr
        exact ⟨⟨hname, hnames⟩, hr⟩
    · rintro ⟨⟨hname, hnames⟩, hr⟩
      obtain ⟨t, ht⟩ : ∃ t, r.insert entry = .ok t := by
        simp [insert, hname]
      rw [ht]
      refine ih.2 ⟨hnames, ?_⟩
      rw [(insert_eq_ok_iff.1 ht).2]
      exact hr

/-- Bindings are accepted if all their names are; the last one of a name counts. -/
theorem ofList_eq_ok_iff : ofList entries = .ok r ↔
    (∀ entry ∈ entries, isName entry.1 = true) ∧ r.bindings = .ofList entries :=
  foldlM_insert_eq_ok_iff

theorem exists_ofList (h : ∀ entry ∈ entries, isName entry.1 = true) :
    ∃ r, ofList entries = .ok r := by
  cases hr : ofList entries with
  | ok r => exact ⟨r, rfl⟩
  | error e =>
    obtain ⟨before, entry, after, t, rfl, -, hentry⟩ := foldlM_eq_error_iff.1 hr
    obtain ⟨hname, -⟩ := insert_eq_error_iff.1 hentry
    rw [h entry (List.mem_append_right _ List.mem_cons_self)] at hname
    cases hname

theorem ofBindings_eq_ok_iff {b : Bindings} : ofBindings b = .ok r ↔ r.bindings = b := by
  rw [ofBindings, ofList_eq_ok_iff, Bindings.ofList_toList]
  constructor
  · rintro ⟨-, h⟩
    exact h
  · rintro rfl
    exact ⟨r.names, rfl⟩

/-- The first name that is not accepted is the error. -/
theorem ofList_eq_error_iff {e : Error} : ofList entries = .error e ↔
    ∃ before entry after, entries = before ++ entry :: after ∧
      (∀ entry ∈ before, isName entry.1 = true) ∧ isName entry.1 = false ∧
      e = .invalidName entry.1 := by
  rw [ofList, foldlM_eq_error_iff]
  constructor
  · rintro ⟨before, entry, after, t, hs, hbefore, hentry⟩
    obtain ⟨hname, he⟩ := insert_eq_error_iff.1 hentry
    exact ⟨before, entry, after, hs, (ofList_eq_ok_iff.1 hbefore).1, hname, he⟩
  · rintro ⟨before, entry, after, hs, hbefore, hname, he⟩
    obtain ⟨t, ht⟩ := exists_ofList hbefore
    exact ⟨before, entry, after, t, hs, ht, insert_eq_error_iff.2 ⟨hname, he⟩⟩

theorem get?_eq_some_iff {name : String} {v : Word} :
    r.get? name = some v ↔ (name, v) ∈ r.toList :=
  Bindings.get?_eq_some_iff

/-- Registers of a list of bindings have the last value of each name. -/
theorem mem_toList_of_ofList (h : ofList entries = .ok r) {name : String} {v : Word} :
    (name, v) ∈ r.toList ↔ Bindings.last? entries name = some v := by
  rw [← get?_eq_some_iff, get?, (ofList_eq_ok_iff.1 h).2, Bindings.get?_ofList]

end Registers

/-! ## Names that are read -/

section
variable {registers : Registers} {name : String} {v : Word} {s t : List Char}

/-- The whole run of name characters at the beginning of a text is looked up, if there is one. -/
theorem Grammar.parse_registerName (registers : Registers) (s : List Char) :
    Grammar.parse registers (Grammar.registerName registers) s =
      if s.takeWhile isNameChar = [] then .failed
      else .ofOption ((registers.get? (String.ofList (s.takeWhile isNameChar))).map
        fun v => (v, s.dropWhile isNameChar)) :=
  parse_lexeme registers (fun letters => registers.get? (String.ofList letters)) s

theorem Grammar.parse_registerName_append (hname : IsRun isNameChar name.toList)
    (hv : registers.get? name = some v) (ht : ∀ c ∈ t.head?, isNameChar c = false) :
    Grammar.parse registers (Grammar.registerName registers) (name.toList ++ t) =
      .matched v t := by
  have h := parse_lexeme_append registers (fun letters => registers.get? (String.ofList letters))
    hname ht
  rw [String.ofList_toList, hv] at h
  exact h

theorem Grammar.exists_of_parse_registerName
    (h : Grammar.parse registers (Grammar.registerName registers) s = .matched v t) :
    ∃ name : String, s = name.toList ++ t ∧ IsMaximalRun isNameChar [] name.toList t ∧
      registers.get? name = some v := by
  rw [parse_registerName] at h
  split at h
  · cases h
  · rename_i hne
    cases hv : registers.get? (String.ofList (s.takeWhile isNameChar)) with
    | none =>
      rw [hv] at h
      cases h
    | some w =>
      rw [hv] at h
      cases h
      refine ⟨String.ofList (s.takeWhile isNameChar), ?_, ⟨⟨?_, ?_⟩, ?_, ?_⟩, hv⟩
      · rw [String.toList_ofList, List.takeWhile_append_dropWhile]
      · rwa [String.toList_ofList]
      · rw [String.toList_ofList]
        exact List.all_eq_true.1 List.all_takeWhile
      · intro _ h
        cases h
      · exact Text.head?_dropWhile isNameChar s

/-- A name alone is an expression. -/
theorem Grammar.parse_name (hname : IsRun isNameChar name.toList)
    (hv : registers.get? name = some v) :
    Grammar.parse registers (Grammar.expression registers) name.toList = .matched v [] := by
  let tree : Tree .expression := .operand .plus (.operand .times (.register name.toList hname))
  have hwritten : tree.Written name.toList :=
    .operand (.operand (.register ⟨[], [], Text.allBlank_nil, Text.allBlank_nil, by simp⟩))
  have hvalue : tree.value? registers = some v := by
    show registers.get? (String.ofList name.toList) = some v
    rw [String.ofList_toList, hv]
  exact (parse_level .expression _).trans (read_all_iff.2 ⟨tree, hwritten, hvalue⟩)

end

/-! ## Ways to make registers -/

namespace Draft

/-- A call that adds bindings to a draft. -/
inductive Addition where
  | bind (name : String) (value : Word)
  | extend (more : List Binding)

def Addition.bindings : Addition → List Binding
  | bind name value => [(name, value)]
  | extend more => more

def add (d : Draft) : Addition → Draft
  | .bind name value => d.bind name value
  | .extend more => d.extend more

theorem bindings_foldl_add (additions : List Addition) (d : Draft) :
    (additions.foldl add d).bindings = d.bindings ++ additions.flatMap Addition.bindings := by
  induction additions generalizing d with
  | nil => simp
  | cons a additions ih =>
    rw [List.foldl_cons, ih, List.flatMap_cons, ← List.append_assoc]
    cases a <;> rfl

end Draft

namespace Registers

/-- The ways in which registers are made. -/
inductive Origin where
  | empty
  | standard
  | draft (additions : List Draft.Addition)
  | bindings (b : Bindings)
  | config (c : Config)
  | evaluator (c : Config)

namespace Origin

/-- The registers, or why there are none. -/
def make : Origin → Except Error Registers
  | empty => .ok .empty
  | standard => .ok .standard
  | draft additions => (additions.foldl Draft.add .empty).build
  | bindings b => ofBindings b
  | config c => c.registers
  | evaluator c => c.evaluator.map Evaluator.registers

/-- The bindings that the registers are made of, in the order in which they are taken. -/
def given : Origin → List Binding
  | empty => []
  | standard => [("ONE", 1), ("TWO", 2)]
  | draft additions => additions.flatMap Draft.Addition.bindings
  | bindings b => b.toList
  | config c | evaluator c => c.symbols.toList

/-- No way leaves out the check of the names. -/
theorem make_eq_ofList (o : Origin) : o.make = ofList o.given := by
  cases o with
  | empty | bindings | config => rfl
  | standard => exact (ofList_eq_ok_iff.2 ⟨by decide +kernel, rfl⟩).symm
  | draft additions =>
    rw [make, Draft.build, Draft.bindings_foldl_add]
    rfl
  | evaluator c =>
    have h : c.registers = ofList c.symbols.toList := rfl
    rw [make, given, Config.evaluator, ← h]
    cases c.registers <;> rfl

/-- However registers are made, the bindings are accepted exactly if their names can be written.
Then each name, with its last value, is an expression, and as a register it is read up to the first
other character. What is read as a register is one of these names, and all of it. -/
theorem readable (o : Origin) :
    ((∃ r, o.make = .ok r) ↔ ∀ entry ∈ o.given, IsRun isNameChar entry.1.toList) ∧
    ∀ r, o.make = .ok r →
      (∀ name v, (name, v) ∈ r.toList ↔ Bindings.last? o.given name = some v) ∧
      (∀ name v, (name, v) ∈ r.toList →
        IsRun isNameChar name.toList ∧
        Grammar.parse r (Grammar.expression r) name.toList = .matched v [] ∧
        ∀ t, (∀ c ∈ t.head?, isNameChar c = false) →
          Grammar.parse r (Grammar.registerName r) (name.toList ++ t) = .matched v t) ∧
      (∀ s v t, Grammar.parse r (Grammar.registerName r) s = .matched v t →
        ∃ name : String, s = name.toList ++ t ∧ IsMaximalRun isNameChar [] name.toList t ∧
          (name, v) ∈ r.toList) := by
  rw [make_eq_ofList]
  refine ⟨⟨?_, fun h => ?_⟩, fun r hr => ⟨fun name v => mem_toList_of_ofList hr, ?_, ?_⟩⟩
  · rintro ⟨r, hr⟩ entry hentry
    exact isName_iff.1 ((ofList_eq_ok_iff.1 hr).1 entry hentry)
  · exact exists_ofList fun entry hentry => isName_iff.2 (h entry hentry)
  · intro name v hmem
    have hname : IsRun isNameChar name.toList := isName_iff.1 (r.names (name, v) hmem)
    have hv : r.get? name = some v := get?_eq_some_iff.2 hmem
    exact ⟨hname, Grammar.parse_name hname hv,
      fun t ht => Grammar.parse_registerName_append hname hv ht⟩
  · intro s v t h
    obtain ⟨name, hs, hrun, hv⟩ := Grammar.exists_of_parse_registerName h
    exact ⟨name, hs, hrun, get?_eq_some_iff.1 hv⟩

/-- `BE` is bound twice. -/
theorem readable_draft :
    ∃ r, make (.draft [.bind "BE" 1, .extend [("A", 3), ("BE", 2)]]) = .ok r ∧
      Grammar.parse r (Grammar.expression r) "BE".toList = .matched 2 [] ∧
      Grammar.parse r (Grammar.registerName r) "A+BE".toList = .matched 3 "+BE".toList ∧
      ∃ name : String, "A+BE".toList = name.toList ++ "+BE".toList ∧ (name, 3) ∈ r.toList := by
  obtain ⟨haccept, hread⟩ := readable (.draft [.bind "BE" 1, .extend [("A", 3), ("BE", 2)]])
  obtain ⟨r, hr⟩ := haccept.2 fun entry hentry => isName_iff.1 (by
    revert entry
    decide +kernel)
  obtain ⟨hlast, hname, hconverse⟩ := hread r hr
  obtain ⟨-, hbe, -⟩ := hname "BE" 2 ((hlast "BE" 2).2 rfl)
  obtain ⟨-, -, htail⟩ := hname "A" 3 ((hlast "A" 3).2 rfl)
  have ha := htail "+BE".toList (by
    intro c hc
    cases hc
    decide +kernel)
  obtain ⟨name, hs, -, hmem⟩ := hconverse _ 3 "+BE".toList ha
  exact ⟨r, hr, hbe, ha, name, hs, hmem⟩

end Origin

end Registers

end Reckon
