import Mathlib.Data.List.Dedup
import Reckon.Proofs.Registers

/-!
# Drafts

A draft collects bindings call by call. When it is finished, the first binding whose name no register
can have (`Misnamed`) is the error, wherever it stands and whatever comes after it. If there is none,
`Registers.MadeOf r given` states what the registers hold: the last value of each name, in ascending
order of the names, and nothing else.

Main result: `Draft.build_additions`. It also states that only the order of the bindings of one name
matters, and that registers are made anew from their own entries.
-/

set_option autoImplicit false

namespace Reckon

/-- A name that no register can have. -/
def Misnamed (name : String) : Prop :=
  name = "" ∨ ∃ c ∈ name.toList, isNameChar c = false

theorem misnamed_iff {name : String} : Misnamed name ↔ isName name = false := by
  have hempty : name.toList.isEmpty = true ↔ name = "" := by
    rw [List.isEmpty_iff, String.toList_eq_nil_iff]
  simp only [Misnamed, isName, Bool.and_eq_false_iff, Bool.not_eq_false', hempty,
    List.all_eq_false, Bool.not_eq_true]

theorem not_misnamed_iff {name : String} : ¬ Misnamed name ↔ isName name = true := by
  rw [misnamed_iff, Bool.not_eq_false]

/-- The numbers of the characters of a text. -/
def codePoints (s : String) : List Nat := s.toList.map Char.toNat

theorem codePoints_lt {s t : String} (h : s < t) : codePoints s < codePoints t := by
  apply List.map_lt _ (String.lt_iff.1 h)
  intro c d hcd
  exact UInt32.lt_iff_toNat_lt.1 hcd

/-! ## The map of a list -/

namespace Bindings

variable {entries entries' : List Binding}

/-- The names of the map of a list are those of the list. -/
theorem mem_names_ofList (entries : List Binding) (name : String) :
    name ∈ (ofList entries).toList.map Prod.fst ↔ name ∈ entries.map Prod.fst := by
  have hbound : name ∈ (ofList entries).toList.map Prod.fst ↔
      (ofList entries).get? name ≠ none := by
    simp [Option.ne_none_iff_exists', get?_eq_some_iff]
  rw [hbound, get?_ofList, Ne, last?_eq_none_iff]
  simp [eq_comm]

theorem size_ofList (entries : List Binding) :
    (ofList entries).size = (entries.map Prod.fst).dedup.length := by
  have hperm : ((ofList entries).toList.map Prod.fst).Perm (entries.map Prod.fst).dedup := by
    apply (List.perm_ext_iff_of_nodup (nodup_names (ofList entries)) (List.nodup_dedup _)).2
    intro name
    rw [List.mem_dedup]
    exact mem_names_ofList entries name
  rw [← hperm.length_eq, List.length_map]
  rfl

/-- Only the order of the bindings of one name matters. -/
theorem ofList_eq_of_filter
    (h : ∀ name, entries.filter (·.1 = name) = entries'.filter (·.1 = name)) :
    ofList entries = ofList entries' := by
  apply ext_get?
  intro name
  rw [get?_ofList, get?_ofList, ← last?_filter, h name, last?_filter]

theorem mem_iff_of_filter
    (h : ∀ name, entries.filter (·.1 = name) = entries'.filter (·.1 = name)) (entry : Binding) :
    entry ∈ entries ↔ entry ∈ entries' := by
  have hmem : ∀ es : List Binding, entry ∈ es ↔ entry ∈ es.filter (·.1 = entry.1) := by simp
  rw [hmem entries, hmem entries', h entry.1]

end Bindings

/-! ## The registers of a list -/

namespace Registers

variable {entries entries' : List Binding} {r : Registers}

/-- The registers `r` hold the last value of each name in a list of bindings. -/
structure MadeOf (r : Registers) (given : List Binding) : Prop where
  value : ∀ name v, r.get? name = some v ↔ ∃ before after,
    given = before ++ (name, v) :: after ∧ ∀ other ∈ after, other.1 ≠ name
  unbound : ∀ name, r.get? name = none ↔ ∀ entry ∈ given, entry.1 ≠ name
  entries : ∀ name v, (name, v) ∈ r.toList ↔ r.get? name = some v
  names : ∀ name, name ∈ r.toList.map Prod.fst ↔ name ∈ given.map Prod.fst
  ascending : (r.toList.map fun entry => codePoints entry.1).Pairwise (· < ·)
  size : r.size = (given.map Prod.fst).dedup.length

theorem madeOf_of_ofList (h : ofList entries = .ok r) : r.MadeOf entries := by
  obtain ⟨-, hb⟩ := ofList_eq_ok_iff.1 h
  have hget : ∀ name, r.get? name = Bindings.last? entries name := by
    intro name
    rw [get?, hb, Bindings.get?_ofList]
  refine ⟨fun name v => ?_, fun name => ?_, fun name v => get?_eq_some_iff.symm, fun name => ?_,
    ?_, ?_⟩
  · rw [hget, Bindings.last?_eq_some_iff]
  · rw [hget, Bindings.last?_eq_none_iff]
  · rw [toList, hb, Bindings.mem_names_ofList]
  · rw [List.pairwise_map]
    exact r.bindings.ascending.imp codePoints_lt
  · rw [size, hb, Bindings.size_ofList]

theorem exists_error_iff :
    (∃ e, ofList entries = .error e) ↔ ∃ entry ∈ entries, Misnamed entry.1 := by
  constructor
  · rintro ⟨e, h⟩
    obtain ⟨before, entry, after, rfl, -, hname, -⟩ := ofList_eq_error_iff.1 h
    exact ⟨entry, by simp, misnamed_iff.2 hname⟩
  · rintro ⟨entry, hmem, hname⟩
    cases h : ofList entries with
    | error e => exact ⟨e, rfl⟩
    | ok r => exact absurd hname (not_misnamed_iff.2 ((ofList_eq_ok_iff.1 h).1 entry hmem))

theorem ofList_eq_ok_of_filter
    (h : ∀ name, entries.filter (·.1 = name) = entries'.filter (·.1 = name)) :
    ofList entries = .ok r ↔ ofList entries' = .ok r := by
  rw [ofList_eq_ok_iff, ofList_eq_ok_iff, Bindings.ofList_eq_of_filter h]
  simp only [Bindings.mem_iff_of_filter h]

end Registers

/-! ## The registers of a draft -/

namespace Draft

theorem build_foldl_add (additions : List Addition) :
    (additions.foldl add empty).build =
      Registers.ofList (additions.flatMap Addition.bindings) := by
  rw [build, bindings_foldl_add]
  rfl

/-- A draft fails exactly if it has a name that no register can have, with the first such name. If it
does not fail, the registers hold the last value of each name. Only the order of the bindings of one
name matters to them, and they are made anew from their own entries. -/
theorem build_additions (additions : List Addition) :
    let given := additions.flatMap Addition.bindings
    let built := (additions.foldl add empty).build
    ((∃ e, built = .error e) ↔ ∃ entry ∈ given, Misnamed entry.1) ∧
    (∀ e, built = .error e ↔ ∃ before entry after, given = before ++ entry :: after ∧
      (∀ other ∈ before, ¬ Misnamed other.1) ∧ Misnamed entry.1 ∧ e = .invalidName entry.1) ∧
    (∀ r, built = .ok r → r.MadeOf given ∧
      Registers.ofBindings (Bindings.ofList r.toList) = .ok r) ∧
    ∀ others : List Addition,
      (∀ name, (others.flatMap Addition.bindings).filter (·.1 = name) =
        given.filter (·.1 = name)) →
      ∀ r, (others.foldl add empty).build = .ok r ↔ built = .ok r := by
  intro given built
  have hbuilt : built = Registers.ofList given := build_foldl_add additions
  rw [hbuilt]
  refine ⟨Registers.exists_error_iff, fun e => ?_, fun r hr => ⟨Registers.madeOf_of_ofList hr, ?_⟩,
    fun others h r => ?_⟩
  · simp only [misnamed_iff, Bool.not_eq_false]
    exact Registers.ofList_eq_error_iff
  · rw [Registers.toList, Bindings.ofList_toList]
    exact Registers.ofBindings_eq_ok_iff.2 rfl
  · rw [build_foldl_add]
    exact Registers.ofList_eq_ok_of_filter h

/-- A value that is replaced, the same bindings in another order, and a name that is refused although
it comes behind in the order of names. -/
theorem build_additions_replaced :
    (∃ r, ([.bind "B" 1, .extend [("A", 3), ("B", 2)]].foldl add empty).build = .ok r ∧
      r.get? "B" = some 2 ∧ r.get? "C" = none ∧ r.size = 2 ∧
      ([.bind "B" 1, .bind "B" 2, .bind "A" 3].foldl add empty).build = .ok r) ∧
    ([.bind "B" 1, .extend [("b", 3), ("", 2), ("b", 4)]].foldl add empty).build =
      .error (.invalidName "b") := by
  obtain ⟨hfails, -, hbuilt, horder⟩ :=
    build_additions [.bind "B" 1, .extend [("A", 3), ("B", 2)]]
  obtain ⟨-, herror, -⟩ := build_additions [.bind "B" 1, .extend [("b", 3), ("", 2), ("b", 4)]]
  refine ⟨?_, (herror _).2 ⟨[("B", 1)], ("b", 3), [("", 2), ("b", 4)], rfl, ?_, ?_, rfl⟩⟩
  · cases h : ([.bind "B" 1, .extend [("A", 3), ("B", 2)]].foldl add empty).build with
    | error e =>
      obtain ⟨entry, hmem, hname⟩ := hfails.1 ⟨e, h⟩
      refine absurd hname (not_misnamed_iff.2 ?_)
      clear hname
      revert entry
      decide +kernel
    | ok r =>
      obtain ⟨hr, -⟩ := hbuilt r h
      refine ⟨r, rfl, (hr.value _ _).2 ⟨[("B", 1), ("A", 3)], [], rfl, by simp⟩,
        (hr.unbound _).2 (by decide), hr.size.trans (by decide), ?_⟩
      refine (horder [.bind "B" 1, .bind "B" 2, .bind "A" 3] (fun name => ?_) r).2 h
      by_cases hb : "B" = name
      · subst hb
        decide
      · by_cases ha : "A" = name <;> simp [Addition.bindings, hb, ha]
  · simp only [not_misnamed_iff]
    decide +kernel
  · exact .inr ⟨'b', by decide, by decide +kernel⟩

end Draft

end Reckon
