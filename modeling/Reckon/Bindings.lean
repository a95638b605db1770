import Reckon.Word

/-!
# Bindings

`Bindings` is a finite map from names to words, kept as the list of its entries in strictly
ascending order of names, so that equal maps are equal values and enumeration has one order.
`get?_insert` states what an insertion changes: the last one of a name counts.
-/

set_option autoImplicit false

namespace Reckon

/-- A name and its value. -/
abbrev Binding := String × Word

/-- A finite map from names to words; names are compared by their code points. -/
structure Bindings where
  entries : List Binding
  ascending : entries.Pairwise fun a b => a.1 < b.1
deriving DecidableEq

namespace Bindings

/-- Puts a binding into an ascending list, in place of one of the same name. -/
def insertEntry (name : String) (value : Word) : List Binding → List Binding
  | [] => [(name, value)]
  | entry :: rest =>
    if name < entry.1 then (name, value) :: entry :: rest
    else if name = entry.1 then (name, value) :: rest
    else entry :: insertEntry name value rest

theorem mem_insertEntry {name : String} {value : Word} {entry : Binding} {entries : List Binding}
    (h : entry ∈ insertEntry name value entries) : entry = (name, value) ∨ entry ∈ entries := by
  induction entries with
  | nil => simpa [insertEntry] using h
  | cons first rest ih =>
    rw [insertEntry] at h
    grind

theorem pairwise_insertEntry {name : String} {value : Word} {entries : List Binding}
    (h : entries.Pairwise fun a b => a.1 < b.1) :
    (insertEntry name value entries).Pairwise fun a b => a.1 < b.1 := by
  induction entries with
  | nil => simp [insertEntry]
  | cons first rest ih =>
    rw [List.pairwise_cons] at h
    rw [insertEntry]
    split
    · rename_i lt
      refine List.pairwise_cons.2 ⟨fun b hb => ?_, List.pairwise_cons.2 h⟩
      rcases List.mem_cons.1 hb with rfl | hb
      · exact lt
      · exact String.lt_trans lt (h.1 b hb)
    · split
      · rename_i eq
        exact List.pairwise_cons.2 ⟨fun b hb => eq ▸ h.1 b hb, h.2⟩
      · rename_i nlt ne
        refine List.pairwise_cons.2 ⟨fun b hb => ?_, ih h.2⟩
        rcases mem_insertEntry hb with rfl | hb
        · grind
        · exact h.1 b hb

/-- No bindings. -/
def empty : Bindings := ⟨[], .nil⟩

/-- Binds a name, whether it was bound before or not. -/
def insert (b : Bindings) (name : String) (value : Word) : Bindings :=
  ⟨insertEntry name value b.entries, pairwise_insertEntry b.ascending⟩

/-- The value of a name. -/
def get? (b : Bindings) (name : String) : Option Word := b.entries.lookup name

/-- All bindings, in ascending order of their names. -/
def toList (b : Bindings) : List Binding := b.entries

/-- How many names are bound. -/
def size (b : Bindings) : Nat := b.entries.length

def isEmpty (b : Bindings) : Bool := b.entries.isEmpty

/-- Adds bindings one after the other. -/
def insertAll (b : Bindings) (more : List Binding) : Bindings :=
  more.foldl (fun b entry => b.insert entry.1 entry.2) b

/-- The bindings of a list; of two with the same name the later one counts. -/
def ofList (entries : List Binding) : Bindings := empty.insertAll entries

theorem lookup_insertEntry (name other : String) (value : Word) (entries : List Binding) :
    (insertEntry name value entries).lookup other =
      if other = name then some value else entries.lookup other := by
  induction entries with
  | nil => simp [insertEntry, List.lookup_cons]; grind
  | cons first rest ih =>
    obtain ⟨key, old⟩ := first
    rw [insertEntry]
    grind

/-- An insertion changes the value of its own name and of no other. -/
theorem get?_insert (b : Bindings) (name other : String) (value : Word) :
    (b.insert name value).get? other = if other = name then some value else b.get? other :=
  lookup_insertEntry name other value b.entries

end Bindings

end Reckon
