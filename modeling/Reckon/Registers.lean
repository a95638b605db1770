import Reckon.Bindings
import Reckon.Outcome
import Reckon.Text.CharacterClass

/-!
# Registers

`Registers` are bindings whose names can occur in an expression: one or more uppercase letters.
They are built from a `Draft`, a list of bindings that is checked from the front when it is
finished: the first name that is no register name is the error, also if a later binding would
replace it.
-/

set_option autoImplicit false

namespace Reckon

/-- The characters of register names. -/
def isNameChar (c : Char) : Bool := Text.isUppercase c

/-- One or more uppercase letters. -/
def isName (name : String) : Bool := !name.toList.isEmpty && name.toList.all isNameChar

/-- Bindings of register names. -/
structure Registers where
  bindings : Bindings
  names : ∀ entry ∈ bindings.entries, isName entry.1 = true
deriving DecidableEq

namespace Registers

/-- No registers. -/
def empty : Registers := ⟨.empty, by simp [Bindings.empty]⟩

/-- Binds a name, if it is a register name. -/
def insert (r : Registers) (entry : Binding) : Except Error Registers :=
  if h : isName entry.1 then
    .ok ⟨r.bindings.insert entry.1 entry.2, fun e he =>
      (Bindings.mem_insertEntry he).elim (fun eq => eq ▸ h) (r.names e)⟩
  else .error (.invalidName entry.1)

/-- The registers of a list of bindings; of two with the same name the later one counts. -/
def ofList (entries : List Binding) : Except Error Registers :=
  entries.foldlM insert empty

/-- The registers of a map; names are checked in ascending order. -/
def ofBindings (b : Bindings) : Except Error Registers := ofList b.toList

/-- `ONE` is 1 and `TWO` is 2. -/
def standardBindings : Bindings := .ofList [("ONE", 1), ("TWO", 2)]

/-- The registers that are there when nothing else is said. -/
def standard : Registers := ⟨standardBindings, by decide⟩

/-- The value of a register. -/
def get? (r : Registers) (name : String) : Option Word := r.bindings.get? name

/-- All registers, in ascending order of their names. -/
def toList (r : Registers) : List Binding := r.bindings.toList

/-- How many registers there are. -/
def size (r : Registers) : Nat := r.bindings.size

def isEmpty (r : Registers) : Bool := r.bindings.isEmpty

end Registers

/-! ## Drafts -/

/-- Bindings from which registers are to be built, in the order in which they were given. -/
structure Draft where
  bindings : List Binding

namespace Draft

/-- A draft without bindings. -/
def empty : Draft := ⟨[]⟩

/-- Adds bindings at the end. -/
def extend (d : Draft) (more : List Binding) : Draft := ⟨d.bindings ++ more⟩

/-- Adds one binding at the end. -/
def bind (d : Draft) (name : String) (value : Word) : Draft := d.extend [(name, value)]

/-- Checks all names and makes the registers. -/
def build (d : Draft) : Except Error Registers := Registers.ofList d.bindings

end Draft

end Reckon
