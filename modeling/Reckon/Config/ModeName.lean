import Reckon.Evaluator
import Reckon.Json.Item

/-!
# The mode in settings

`readMode` reads the mode of settings: a string, or an object with that string as its only key and
the value `null`.
-/

set_option autoImplicit false

namespace Reckon.Config

open Json Text

/-- The mode of a name. -/
def modeOfName (name : List Char) : Except Fault Mode :=
  if name = Mode.lenient.text.toList then .ok .lenient
  else if name = Mode.complete.text.toList then .ok .complete
  else .error (.unknownMode name)

/-- The value `null`. -/
def readNull (s : List Piece) : Except Fault (List Piece) :=
  match skipSpace s with
  | [] => .error (.endInside .value)
  | .char 'n' :: s => word ['u', 'l', 'l'] s
  | s => wrongKind .unit s

/-- The mode as the only key of an object, with the value `null`, after the opening bracket. The key
is looked for as in any object, with the same faults where the text ends or another value stands; an
object without keys has a fault of its own. -/
def readModeObject (s : List Piece) : Except Fault (Mode × List Piece) := do
  match ← firstKey s with
  | (false, _) => .error .expectedValue
  | (true, s) => do
    let (name, s) ← string s
    let mode ← modeOfName name
    let s ← colon s
    let s ← readNull s
    match skipSpace s with
    | [] => .error (.endInside .object)
    | .char '\x7d' :: rest => .ok (mode, rest)
    | _ => .error .expectedValue

/-- The mode: its name, or an object with its name as the only key. -/
def readMode (s : List Piece) : Except Fault (Mode × List Piece) :=
  match skipSpace s with
  | [] => .error (.endInside .value)
  | .char '\x22' :: s => do
    let (name, rest) ← string s
    .ok (← modeOfName name, rest)
  | .char '\x7b' :: s => readModeObject s
  | _ => .error .expectedValue

theorem length_readNull {s rest : List Piece} (h : readNull s = .ok rest) :
    rest.length < s.length := by
  have le := length_skipSpace s
  unfold readNull at h
  split at h
  · cases h
  · rename_i hs
    rw [hs, List.length_cons] at le
    have := length_word h; omega
  · exact absurd h wrongKind_ne_ok

theorem length_readModeObject {s rest : List Piece} {m : Mode}
    (h : readModeObject s = .ok (m, rest)) : rest.length < s.length := by
  obtain ⟨⟨more, s1⟩, h1, h⟩ := bind_eq_ok.1 h
  have := length_firstKey h1
  cases more with
  | false => cases h
  | true =>
    obtain ⟨⟨_, s2⟩, h2, h⟩ := bind_eq_ok.1 h
    obtain ⟨_, -, h⟩ := bind_eq_ok.1 h
    obtain ⟨s3, h3, h⟩ := bind_eq_ok.1 h
    obtain ⟨s4, h4, h⟩ := bind_eq_ok.1 h
    have := length_string h2
    have := length_colon h3
    have := length_readNull h4
    have le := length_skipSpace s4
    split at h
    · cases h
    · rename_i hs; rw [hs, List.length_cons] at le; cases h; omega
    · cases h

theorem length_readMode {s rest : List Piece} {m : Mode} (h : readMode s = .ok (m, rest)) :
    rest.length < s.length := by
  have le := length_skipSpace s
  unfold readMode at h
  split at h
  · cases h
  · rename_i hs
    rw [hs, List.length_cons] at le
    obtain ⟨⟨_, s1⟩, h1, h⟩ := bind_eq_ok.1 h
    obtain ⟨_, -, h⟩ := bind_eq_ok.1 h
    have := length_string h1
    cases h; omega
  · rename_i hs
    rw [hs, List.length_cons] at le
    have := length_readModeObject h; omega
  · cases h

end Reckon.Config
