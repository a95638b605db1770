import Reckon.Bindings

/-!
# Bindings as finite maps

Where no name stands twice, a list of bindings is looked up without regard to its order
(`lookup_perm`), so `Bindings` with the same values are the same (`ext_get?`). Adding a list of
bindings gives every name the last value that the list has for it, and leaves the others as they
were (`get?_insertAll`).
-/

set_option autoImplicit false

namespace Reckon.Bindings

/-! ## Lists without double names -/

section
variable {entries entries' : List Binding} {name : String}

theorem lookup_eq_some_iff_mem (h : (entries.map Prod.fst).Nodup) {value : Word} :
    entries.lookup name = some value ↔ (name, value) ∈ entries := by
  constructor
  · intro hl
    obtain ⟨before, after, rfl, -⟩ := List.lookup_eq_some_iff.1 hl
    exact List.mem_append_right _ List.mem_cons_self
  · intro hm
    obtain ⟨before, after, rfl⟩ := List.append_of_mem hm
    refine List.lookup_eq_some_iff.2 ⟨before, after, rfl, fun entry he => ?_⟩
    simp only [List.map_append, List.map_cons] at h
    have hne := (List.nodup_append.1 h).2.2 entry.1 (List.mem_map_of_mem he) name
      List.mem_cons_self
    simpa using hne.symm

theorem lookup_perm (hp : entries.Perm entries') (h : (entries.map Prod.fst).Nodup) :
    entries.lookup name = entries'.lookup name := by
  have h' : (entries'.map Prod.fst).Nodup := (hp.map Prod.fst).nodup_iff.1 h
  apply Option.ext
  intro value
  rw [lookup_eq_some_iff_mem h, lookup_eq_some_iff_mem h', hp.mem_iff]

end

theorem nodup_names (b : Bindings) : (b.entries.map Prod.fst).Nodup := by
  rw [List.nodup_iff_pairwise_ne, List.pairwise_map]
  exact b.ascending.imp fun {_ _} h => String.ne_of_lt h

theorem nodup_entries (b : Bindings) : b.entries.Nodup := by
  rw [List.nodup_iff_pairwise_ne]
  refine b.ascending.imp ?_
  rintro x _ h rfl
  exact String.lt_irrefl _ h

/-- Names in front of an entry are less than its name, and those behind it are greater. -/
theorem lt_of_split {b : Bindings} {before after : List Binding} {entry : Binding}
    (h : b.toList = before ++ entry :: after) :
    (∀ other ∈ before, other.1 < entry.1) ∧ ∀ other ∈ after, entry.1 < other.1 := by
  have hasc : b.toList.Pairwise fun x y => x.1 < y.1 := b.ascending
  rw [h] at hasc
  obtain ⟨-, hafter, hbefore⟩ := List.pairwise_append.1 hasc
  exact ⟨fun other ho => hbefore other ho entry List.mem_cons_self, (List.pairwise_cons.1 hafter).1⟩

theorem get?_eq_some_iff {b : Bindings} {name : String} {value : Word} :
    b.get? name = some value ↔ (name, value) ∈ b.toList :=
  lookup_eq_some_iff_mem b.nodup_names

/-- Bindings with the same values are the same. -/
theorem ext_get? {b b' : Bindings} (h : ∀ name, b.get? name = b'.get? name) : b = b' := by
  have hmem : ∀ entry, entry ∈ b.entries ↔ entry ∈ b'.entries := by
    rintro ⟨name, value⟩
    have hb : b.get? name = some value ↔ (name, value) ∈ b.entries := get?_eq_some_iff
    rw [h name] at hb
    exact hb.symm.trans get?_eq_some_iff
  have hperm : b.entries.Perm b'.entries :=
    (List.perm_ext_iff_of_nodup b.nodup_entries b'.nodup_entries).2 hmem
  -- both lists are in ascending order, so they are in the same order
  have heq : b.entries = b'.entries := by
    refine hperm.eq_of_pairwise (fun x y _ _ hxy hyx => ?_) b.ascending b'.ascending
    exact absurd (String.lt_trans hxy hyx) (String.lt_irrefl _)
  cases b
  cases b'
  cases heq
  rfl

/-! ## The last value counts -/

/-- The value of the last binding of a name. -/
def last? (entries : List Binding) (name : String) : Option Word := entries.reverse.lookup name

theorem last?_cons (entry : Binding) (entries : List Binding) (name : String) :
    last? (entry :: entries) name =
      (last? entries name).or (if name = entry.1 then some entry.2 else none) := by
  obtain ⟨key, value⟩ := entry
  rw [last?, List.reverse_cons, List.lookup_append, last?, List.lookup_cons, List.lookup_nil]
  by_cases h : name = key
  · simp [h]
  · simp [h, beq_eq_false_iff_ne.2 h]

theorem last?_eq_some_iff {entries : List Binding} {name : String} {value : Word} :
    last? entries name = some value ↔ ∃ before after,
      entries = before ++ (name, value) :: after ∧ ∀ entry ∈ after, entry.1 ≠ name := by
  rw [last?, List.lookup_eq_some_iff]
  constructor
  · rintro ⟨after, before, h, hafter⟩
    refine ⟨before.reverse, after.reverse, ?_, fun entry he => ?_⟩
    · simpa using congrArg List.reverse h
    · have hne : name ≠ entry.1 := by simpa using hafter entry (List.mem_reverse.1 he)
      exact hne.symm
  · rintro ⟨before, after, rfl, hafter⟩
    refine ⟨after.reverse, before.reverse, by simp, fun entry he => ?_⟩
    simpa using (hafter entry (List.mem_reverse.1 he)).symm

theorem last?_eq_none_iff {entries : List Binding} {name : String} :
    last? entries name = none ↔ ∀ entry ∈ entries, entry.1 ≠ name := by
  rw [last?, List.lookup_eq_none_iff]
  simp only [List.mem_reverse, bne_iff_ne, ne_comm]

/-- The bindings of other names do not matter. -/
theorem last?_filter (entries : List Binding) (name : String) :
    last? (entries.filter (·.1 = name)) name = last? entries name := by
  induction entries with
  | nil => rfl
  | cons entry entries ih =>
    rw [last?_cons, ← ih, List.filter_cons]
    by_cases h : entry.1 = name
    · simp [h, last?_cons]
    · simp [h, Ne.symm h]

theorem get?_insertAll (b : Bindings) (more : List Binding) (name : String) :
    (b.insertAll more).get? name = (last? more name).or (b.get? name) := by
  induction more generalizing b with
  | nil => rfl
  | cons entry more ih =>
    have hstep : b.insertAll (entry :: more) = (b.insert entry.1 entry.2).insertAll more := rfl
    rw [hstep, ih, get?_insert, last?_cons, Option.or_assoc]
    by_cases h : name = entry.1 <;> simp [h]

theorem get?_ofList (entries : List Binding) (name : String) :
    (ofList entries).get? name = last? entries name := by
  rw [ofList, get?_insertAll]
  exact Option.or_none

theorem last?_eq_lookup {entries : List Binding} (h : (entries.map Prod.fst).Nodup)
    (name : String) : last? entries name = entries.lookup name :=
  (lookup_perm (List.reverse_perm entries).symm h).symm

/-- The map of the entries of a map is the map. -/
theorem ofList_toList (b : Bindings) : ofList b.toList = b := by
  apply ext_get?
  intro name
  rw [get?_ofList]
  exact last?_eq_lookup b.nodup_names name

end Reckon.Bindings
