import Reckon.Bindings
import Reckon.Json.Item

/-!
# Registers in settings

`readSymbols` reads the registers of settings, an object of integers. The names are not checked.
-/

set_option autoImplicit false

namespace Reckon.Config

open Json Text

/-- A word. -/
def readWord (s : List Piece) : Except Fault (Word × List Piece) :=
  match skipSpace s with
  | [] => .error (.endInside .value)
  | p :: s =>
    if p = .char '-' ∨ isDigit p then do
      let (n, rest) ← number (p :: s)
      match n with
      | .natural n =>
        match Word.ofNat? n with
        | some w => .ok (w, rest)
        | none => .error (.tooLarge n)
      | .negative n =>
        match Word.ofInt? (-n) with
        | some w => .ok (w, rest)
        | none => .error (.wrongKind (.number (.negative n)) .word)
      | n => .error (.wrongKind (.number n) .word)
    else wrongKind .word (p :: s)

/-- A binding, after the first quote of its name. -/
def readBinding (s : List Piece) : Except Fault (Binding × List Piece) := do
  let (name, s) ← string s
  let s ← colon s
  let (value, s) ← readWord s
  .ok ((String.ofList name, value), s)

theorem length_readWord {s rest : List Piece} {w : Word} (h : readWord s = .ok (w, rest)) :
    rest.length < s.length := by
  have le := length_skipSpace s
  unfold readWord at h
  split at h
  · cases h
  · rename_i p t hs
    rw [hs] at le
    split at h
    · obtain ⟨⟨n, s1⟩, h1, h⟩ := bind_eq_ok.1 h
      have := length_number h1
      simp only at h
      split at h
      · split at h <;> cases h; omega
      · split at h <;> cases h; omega
      · cases h
    · exact absurd h wrongKind_ne_ok

theorem length_readBinding {s rest : List Piece} {b : Binding}
    (h : readBinding s = .ok (b, rest)) : rest.length < s.length := by
  obtain ⟨⟨_, s1⟩, h1, h⟩ := bind_eq_ok.1 h
  obtain ⟨s2, h2, h⟩ := bind_eq_ok.1 h
  obtain ⟨⟨_, s3⟩, h3, h⟩ := bind_eq_ok.1 h
  have := length_string h1
  have := length_colon h2
  have := length_readWord h3
  cases h
  omega

/-- Bindings up to the end of their object, after the first quote of a name; of two bindings of
the same name the later one counts. -/
def readBindings (b : Bindings) (s : List Piece) : Scan Bindings :=
  match _h : readBinding s with
  | .error fault => .error fault
  | .ok ((name, value), s') =>
    match _h' : nextKey s' with
    | .error fault => .error fault
    | .ok (true, rest) => readBindings (b.insert name value) rest
    | .ok (false, rest) => .ok (b.insert name value, rest)
termination_by s.length
decreasing_by have := length_readBinding _h; have := length_nextKey _h'; omega

theorem length_readBindings {b result : Bindings} {s rest : List Piece}
    (h : readBindings b s = .ok (result, rest)) : rest.length < s.length := by
  fun_induction readBindings b s with
  | case1 => cases h
  | case2 => cases h
  | case3 b s name value s' h1 rest' h2 ih =>
    have := length_readBinding h1; have := length_nextKey h2; have := ih h; omega
  | case4 b s name value s' h1 rest' h2 =>
    have := length_readBinding h1; have := length_nextKey h2
    cases h; omega

/-- The registers: an object of words. -/
def readSymbols (s : List Piece) : Except Fault (Bindings × List Piece) :=
  match skipSpace s with
  | [] => .error (.endInside .value)
  | .char '\x7b' :: s => do
    match ← firstKey s with
    | (true, rest) => readBindings .empty rest
    | (false, rest) => .ok (.empty, rest)
  | s => wrongKind .map s

theorem length_readSymbols {s rest : List Piece} {b : Bindings}
    (h : readSymbols s = .ok (b, rest)) : rest.length < s.length := by
  have le := length_skipSpace s
  unfold readSymbols at h
  split at h
  · cases h
  · rename_i t hs
    rw [hs, List.length_cons] at le
    obtain ⟨⟨more, s1⟩, h1, h⟩ := bind_eq_ok.1 h
    have := length_firstKey h1
    split at h <;> rename_i eq <;> cases eq
    · have := length_readBindings h; omega
    · cases h; omega
  · exact absurd h wrongKind_ne_ok

end Reckon.Config
