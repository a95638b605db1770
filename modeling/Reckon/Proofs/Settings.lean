import Reckon.Config.Reader
import Reckon.Proofs.FiniteMap
import Reckon.Proofs.JsonObject
import Reckon.Proofs.JsonSkip

/-!
# Reading settings

A text of settings is an object of the grammar (`Document`) with the registers, the mode and any
other members, each any number of times and in any order. Its reader takes one member after the
other (`read_document`): registers and a mode are added to what is known (`addMember`), unless they
are known already, and a value of another name is passed over. A number of a register is read as the
word that it denotes, and as no other (`wordOf?_eq_some_iff`).
-/

set_option autoImplicit false

namespace Reckon

open Text (Piece)
open Json

namespace Config

/-! ## Words -/

/-- The word that a literal is read as, if there is one. -/
def wordOf? (l : Literal) : Option Word :=
  l.number.toOption.bind fun
    | .natural n => Word.ofNat? n
    | .negative n => Word.ofInt? (-n)
    | .float _ _ => none

theorem wordOf?_eq_some_iff {l : Literal} {v : Word} : wordOf? l = some v ↔ l.Denotes v := by
  have hleast := v.least_le
  have hgreatest := v.le_greatest
  unfold wordOf? Literal.number
  rw [Numeral.toNat_eq_baseTen]
  constructor
  · intro h
    dsimp only at h
    split at h
    · rename_i hl
      obtain ⟨hfraction, hpower, hsign, -⟩ := hl
      have hv : v.val = Numeral.baseTen l.whole := Word.ofInt?_eq_some.1 h
      have hpositive : l.negative = false := by simpa using hsign
      exact ⟨hfraction, hpower, fun _ => hpositive, by rw [hpositive]; exact hv⟩
    · split at h
      · rename_i hl
        obtain ⟨hfraction, hpower, hnegative, hpos, -⟩ := hl
        have hv : v.val = -(Numeral.baseTen l.whole : Int) := Word.ofInt?_eq_some.1 h
        exact ⟨hfraction, hpower, fun hzero => absurd hzero (by omega), by rw [hnegative]; exact hv⟩
      · cases hx : l.float <;> rw [hx] at h <;> cases h
  · intro h
    have hvalue := h.value
    have hzero := h.zero
    cases hl : l.negative with
    | false =>
      rw [hl] at hvalue
      simp only [Bool.false_eq_true, if_false] at hvalue
      have hle : Numeral.baseTen l.whole ≤ greatest := by rw [greatest]; omega
      have hv : Word.ofNat? (Numeral.baseTen l.whole) = some v := Word.ofInt?_eq_some.2 hvalue
      simp [h.fraction, h.power, hle, hv]
    | true =>
      rw [hl] at hvalue hzero
      simp only [if_true] at hvalue
      have hpos : 0 < Numeral.baseTen l.whole := Nat.pos_of_ne_zero fun h0 => by cases hzero h0
      have hle : Numeral.baseTen l.whole ≤ 9223372036854775808 := by omega
      have hv := Word.ofInt?_eq_some.2 hvalue
      simp [h.fraction, h.power, hpos, hle, hv]

/-- A number is read as the word that it denotes, and as no other. -/
theorem readWord_written {l : Literal} {w s : List Char} {rest : List Piece} (hw : Space w)
    (h : l.Written s) (hrest : EndsNumber rest) :
    (readWord (Piece.ofText w ++ (Piece.ofText s ++ rest))).toOption =
      (wordOf? l).map (·, rest) := by
  have hnumber := number_written h hrest
  obtain ⟨c, t, rfl, hc, hspace⟩ := h.exists_cons
  rw [Piece.ofText_cons, List.cons_append] at hnumber ⊢
  unfold readWord wordOf?
  rw [skipSpace_space_cons hw hspace]
  simp only
  rw [if_pos (by simpa [isDigit] using hc), hnumber]
  cases l.number with
  | error fault => rfl
  | ok n =>
    cases n with
    | natural n => cases hv : Word.ofNat? n <;> simp [hv, toOption_bind, Except.map]
    | negative n => cases hv : Word.ofInt? (-n) <;> simp [hv, toOption_bind, Except.map]
    | float negative x => rfl

/-! ## Registers -/

/-- A name, a colon and a number. -/
def EntryText (entry : String × Literal) (s : List Char) : Prop :=
  ∃ k v s', KeyText entry.1 k ∧ entry.2.Written v ∧ Spaced v s' ∧ s = k ++ s'

/-- Binds the name to the word, if it is one. -/
def addEntry (b : Bindings) (entry : String × Literal) : Option Bindings :=
  (wordOf? entry.2).map (b.insert entry.1)

/-- One binding is read and added. -/
def addBinding (b : Bindings) (s : List Piece) : Except Fault (Bindings × List Piece) := do
  let r ← readBinding s
  .ok (b.insert r.1.1 r.1.2, r.2)

theorem steps_entryText (entry : String × Literal) (s : List Char) (h : EntryText entry s) :
    Steps addBinding addEntry entry s := by
  obtain ⟨k, v, s', hk, hv, hs, rfl⟩ := h
  refine steps_keyText hk hs fun b t t' w rest hw hrest hstring hcolon => ?_
  unfold addBinding readBinding addEntry
  simp only [toOption_bind, hstring, hcolon, readWord_written hw hv hrest, toOption_ok,
    Option.bind_some]
  cases wordOf? entry.2 <;> simp

theorem loops_readBindings : Loops addBinding readBindings := by
  intro b s
  rw [readBindings]
  unfold addBinding continueWith
  split
  · rename_i h
    rw [h]
    rfl
  · rename_i h
    rw [h]
    simp only [bind, Except.bind]
    split <;> rename_i hnext <;> rw [hnext] <;> rfl

theorem readSymbols_objectText {entries : List (String × Literal)} {w o : List Char}
    (hw : Space w) (h : ObjectText EntryText entries o) (rest : List Piece) :
    (readSymbols (Piece.ofText w ++ (Piece.ofText o ++ rest))).toOption =
      (entries.foldlM addEntry .empty).map (·, rest) := by
  obtain ⟨s, rfl, hs⟩ := loop_objectText loops_readBindings steps_entryText h
  rw [← hs, Piece.ofText_cons, List.cons_append]
  unfold readSymbols
  rw [skipSpace_space_cons hw rfl]
  simp only
  congr 1
  cases firstKey (Piece.ofText s ++ rest) with
  | error fault => rfl
  | ok r =>
    obtain ⟨more, t⟩ := r
    cases more <;> rfl

/-! ## The mode -/

theorem modeOfName_text (mode : Mode) : modeOfName mode.text.toList = .ok mode := by
  cases mode with
  | lenient => rfl
  | complete => rw [modeOfName, if_neg (by decide), if_pos rfl]

theorem readMode_stringText {mode : Mode} {w s : List Char} (hw : Space w)
    (h : StringText s mode.text.toList) (rest : List Piece) :
    readMode (Piece.ofText w ++ (Piece.ofText (inQuotes s) ++ rest)) = .ok (mode, rest) := by
  have hstring := string_stringText h rest
  unfold readMode
  simp only [inQuotes, Piece.ofText_cons, Piece.ofText_append, Piece.ofText_nil, List.cons_append,
    List.append_assoc, List.nil_append]
  rw [skipSpace_space_cons hw rfl]
  simp [hstring, modeOfName_text, bind, Except.bind]

/-! ## Members -/

/-- A member of settings. -/
inductive Member where
  | symbols (entries : List (String × Literal))
  | mode (mode : Mode)
  /-- A member of another name, with a value of any kind. -/
  | other (key : String) (hsymbols : key ≠ "symbols") (hmode : key ≠ "mode")

namespace Member

/-- The name of a member. -/
def key : Member → String
  | symbols _ => "symbols"
  | mode _ => "mode"
  | other key _ _ => key

/-- The text of a member. -/
inductive Written : Member → List Char → Prop
  | symbols {entries : List (String × Literal)} {k o s : List Char} (hk : KeyText "symbols" k)
      (ho : ObjectText EntryText entries o) (hs : Spaced o s) : Written (.symbols entries) (k ++ s)
  | mode {mode : Mode} {k c s : List Char} (hk : KeyText "mode" k)
      (hc : StringText c mode.text.toList) (hs : Spaced (inQuotes c) s) :
      Written (.mode mode) (k ++ s)
  | other {key : String} {hsymbols : key ≠ "symbols"} {hmode : key ≠ "mode"} {k v s : List Char}
      (hk : KeyText key k) (hv : WellFormed .value v) (hs : Spaced v s) :
      Written (.other key hsymbols hmode) (k ++ s)

end Member

/-- The text of settings: an object with these members, and white space around it. -/
def Document (members : List Member) (s : List Char) : Prop :=
  ∃ o, ObjectText Member.Written members o ∧ Spaced o s

/-- What is known of settings after one more member. -/
def addMember (m : Members) : Member → Option Members
  | .symbols entries =>
    if m.symbols.isSome then none
    else (entries.foldlM addEntry .empty).map fun b => ⟨some b, m.mode⟩
  | .mode mode => if m.mode.isSome then none else some ⟨m.symbols, some mode⟩
  | .other _ _ _ => some m

theorem steps_written (member : Member) (s : List Char) (h : member.Written s) :
    Steps readMember addMember member s := by
  cases h with
  | @symbols entries k o s hk ho hs =>
    refine steps_keyText hk hs fun m t t' w rest hw hrest hstring hcolon => ?_
    have hsymbols := readSymbols_objectText hw ho rest
    unfold readMember addMember
    rw [toOption_bind, hstring, toOption_ok, Option.bind_some]
    dsimp only
    rw [if_pos rfl]
    split
    · rfl
    · simp only [toOption_bind, hcolon, hsymbols, toOption_ok, Option.bind_some]
      cases entries.foldlM addEntry .empty <;> simp
  | mode hk hc hs =>
    refine steps_keyText hk hs fun m t t' w rest hw hrest hstring hcolon => ?_
    have hmode := readMode_stringText hw hc rest
    have hkey : "mode".toList ≠ "symbols".toList := by decide
    unfold readMember addMember
    rw [toOption_bind, hstring, toOption_ok, Option.bind_some]
    dsimp only
    rw [if_neg hkey, if_pos rfl]
    split
    · rfl
    · simp [toOption_bind, hcolon, hmode]
  | @other key hsymbols hmode k v s hk hv hs =>
    refine steps_keyText hk hs fun m t t' w rest hw hrest hstring hcolon => ?_
    have hskip := skipValue_wellFormed hw hv hrest
    have hkey : key.toList ≠ "symbols".toList := fun h => hsymbols (String.toList_inj.1 h)
    have hkey' : key.toList ≠ "mode".toList := fun h => hmode (String.toList_inj.1 h)
    unfold readMember addMember
    rw [toOption_bind, hstring, toOption_ok, Option.bind_some]
    dsimp only
    rw [if_neg hkey, if_neg hkey']
    simp [toOption_bind, hcolon, hskip]

theorem loops_readMembers : Loops readMember readMembers := by
  intro m s
  rw [readMembers]
  unfold continueWith
  split
  · rename_i h
    rw [h]
    rfl
  · rename_i h
    rw [h]
    simp only [bind, Except.bind]
    split <;> rename_i hnext <;> rw [hnext] <;> rfl

/-- Settings are read as their members say, in the order in which they are written. -/
theorem read_document {members : List Member} {s : List Char} (h : Document members s) :
    (read (Piece.ofText s)).toOption = (members.foldlM addMember {}).map Members.config := by
  obtain ⟨o, ho, w, w', hw, hw', rfl⟩ := h
  obtain ⟨s, rfl, hs⟩ := loop_objectText loops_readMembers steps_written ho
  have hmembers : (readMembersOf (Piece.ofText (w ++ '\x7b' :: s ++ w'))).toOption =
      (members.foldlM addMember {}).map (·, Piece.ofText w') := by
    rw [← hs]
    simp only [Piece.ofText_append, Piece.ofText_cons, List.append_assoc, List.cons_append]
    unfold readMembersOf
    rw [skipSpace_space_cons hw rfl]
    simp only [readObject]
    congr 1
    cases firstKey (Piece.ofText s ++ Piece.ofText w') with
    | error fault => rfl
    | ok r =>
      obtain ⟨more, t⟩ := r
      cases more <;> rfl
  unfold read
  rw [toOption_bind, hmembers]
  cases members.foldlM addMember {} with
  | none => rfl
  | some m => simp [skipSpace_eq_nil hw']

end Config

end Reckon
