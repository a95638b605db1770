import Reckon.Config.ModeName
import Reckon.Config.Symbols
import Reckon.Json.Skip

/-!
# Reading settings

`Config.read` reads settings from a JSON text, in one pass from left to right; the first fault
counts. Settings are an object with the members `symbols` and `mode`, each of which may be absent,
and any other members, which are passed over; or they are a list of at most these two values.

`Config.ofText` reads settings from a text and `Config.ofFile` from a file, of which either the
bytes are known or why it has none. Both report the same faults, in other words before the colon.
-/

set_option autoImplicit false

namespace Reckon

namespace Config

open Json Text

/-! ## Settings as an object -/

/-- The members of settings that have been read. -/
structure Members where
  symbols : Option Bindings := none
  mode : Option Mode := none

/-- The settings; absent members are the standard ones. -/
def Members.config (m : Members) : Config :=
  ⟨m.symbols.getD standard.symbols, m.mode.getD standard.mode⟩

/-- One member, after the first quote of its key. -/
def readMember (m : Members) (s : List Piece) : Except Fault (Members × List Piece) := do
  let (key, s) ← string s
  if key = "symbols".toList then
    if m.symbols.isSome then .error (.duplicateField "symbols")
    else do
      let (symbols, s) ← readSymbols (← colon s)
      .ok (⟨some symbols, m.mode⟩, s)
  else if key = "mode".toList then
    if m.mode.isSome then .error (.duplicateField "mode")
    else do
      let (mode, s) ← readMode (← colon s)
      .ok (⟨m.symbols, some mode⟩, s)
  else .ok (m, ← skipValue (← colon s))

theorem length_readMember {m result : Members} {s rest : List Piece}
    (h : readMember m s = .ok (result, rest)) : rest.length < s.length := by
  obtain ⟨⟨key, s1⟩, h1, h⟩ := bind_eq_ok.1 h
  have := length_string h1
  simp only at h
  split at h
  · split at h
    · cases h
    · obtain ⟨s2, h2, h⟩ := bind_eq_ok.1 h
      obtain ⟨⟨_, s3⟩, h3, h⟩ := bind_eq_ok.1 h
      have := length_colon h2
      have := length_readSymbols h3
      cases h; simp only; omega
  · split at h
    · split at h
      · cases h
      · obtain ⟨s2, h2, h⟩ := bind_eq_ok.1 h
        obtain ⟨⟨_, s3⟩, h3, h⟩ := bind_eq_ok.1 h
        have := length_colon h2
        have := length_readMode h3
        cases h; simp only; omega
    · obtain ⟨s2, h2, h⟩ := bind_eq_ok.1 h
      obtain ⟨s3, h3, h⟩ := bind_eq_ok.1 h
      have := length_colon h2
      have := length_skipOpen h3
      cases h; omega

/-- Members up to the end of their object, after the first quote of a key. -/
def readMembers (m : Members) (s : List Piece) : Scan Members :=
  match _h : readMember m s with
  | .error fault => .error fault
  | .ok (m, s') =>
    match _h' : nextKey s' with
    | .error fault => .error fault
    | .ok (true, rest) => readMembers m rest
    | .ok (false, rest) => .ok (m, rest)
termination_by s.length
decreasing_by have := length_readMember _h; have := length_nextKey _h'; omega

/-- Settings as an object, after the opening bracket. -/
def readObject (s : List Piece) : Except Fault (Members × List Piece) := do
  match ← firstKey s with
  | (true, rest) => readMembers {} rest
  | (false, rest) => .ok ({}, rest)

/-! ## Settings as a list -/

/-- Settings as a list, after the opening bracket: first the registers, then the mode. -/
def readList (s : List Piece) : Except Fault (Members × List Piece) := do
  match ← firstElement s with
  | (false, rest) => .ok ({}, rest)
  | (true, s) => do
    let (symbols, s) ← readSymbols s
    match ← nextElement s with
    | (false, rest) => .ok ({ symbols := some symbols }, rest)
    | (true, s) => do
      let (mode, s) ← readMode s
      .ok (⟨some symbols, some mode⟩, ← endOfList s)

/-! ## Settings -/

/-- Settings as an object or as a list. -/
def readMembersOf (s : List Piece) : Except Fault (Members × List Piece) :=
  match skipSpace s with
  | [] => .error (.endInside .value)
  | .char '\x7b' :: s => readObject s
  | .char '[' :: s => readList s
  | s => wrongKind .settings s

/-- The settings of a JSON text. -/
def read (s : List Piece) : Except Fault Config := do
  let (members, rest) ← readMembersOf s
  if skipSpace rest = [] then .ok members.config else .error .trailingCharacters

end Config

/-! ## Texts and files -/

/-- Why the bytes of a file are not to be had. -/
inductive FileFault where
  | missing
  | denied
  /-- A part of the path that should be a directory is none. -/
  | notDirectory
  /-- A directory: it can be opened but not read. -/
  | directory
  | other (reason : String)
deriving DecidableEq

/-- The operating system's words. -/
def FileFault.reason : FileFault → String
  | missing => "No such file or directory (os error 2)"
  | denied => "Permission denied (os error 13)"
  | notDirectory => "Not a directory (os error 20)"
  | directory => "Is a directory (os error 21)"
  | other reason => reason

/-- The error of a file that could be opened but does not give settings. -/
def Config.fileError (detail : String) : Error :=
  .config ("Failed to parse config file: " ++ detail)

/-- The error of a file whose bytes are not to be had. -/
def FileFault.error (path : String) : FileFault → Error
  | directory => Config.fileError directory.reason
  | fault => .config ("Failed to open config file " ++ path ++ ": " ++ fault.reason)

namespace Config

/-- Settings from a text. -/
def ofText (text : String) : Except Error Config :=
  (read (Text.Piece.ofText text.toList)).mapError fun fault =>
    .config ("Failed to parse config: " ++ fault.message)

/-- Settings from the bytes of a file. -/
def ofBytes (bytes : ByteArray) : Except Error Config :=
  (read (Text.Piece.ofBytes bytes)).mapError fun fault => fileError fault.message

/-- Settings from a file. -/
def ofFile (path : String) : Except FileFault ByteArray → Except Error Config
  | .ok bytes => ofBytes bytes
  | .error fault => .error (fault.error path)

end Config

end Reckon
