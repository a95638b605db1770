import Reckon.Proofs.JsonDecoded
import Reckon.Proofs.Settings

/-!
# Settings from a text and from a file

Settings are read from a text, or from the bytes of a file. The bytes of an encoded text are decoded
to the text (`Piece.ofBytes_toUTF8`), so both readings go the same way, whether the text has the
form of settings or not. Only a file can have a fault in its encoding, and none that holds an
encoded text has one (`yields_read`).

Main result: `Config.ofFile_toUTF8`.
-/

set_option autoImplicit false

namespace Reckon

/-! ## Encoded texts -/

namespace Text.Piece

theorem size_utf8Encode_cons (c : Char) (s : List Char) :
    (c :: s).utf8Encode.size = c.utf8Size + s.utf8Encode.size := by
  rw [List.utf8Encode_cons, ByteArray.size_append, List.utf8Encode_singleton,
    List.size_toByteArray, String.length_utf8EncodeChar]

/-- The bytes behind those of `before` are decoded to the text that they encode. -/
theorem collect_utf8Encode (before s : List Char) (seen : List Piece) :
    collect (before ++ s).utf8Encode before.utf8Encode.size seen = seen.reverse ++ ofText s := by
  induction s generalizing before seen with
  | nil =>
    rw [collect, List.append_nil, dif_neg (Nat.lt_irrefl _)]
    exact (List.append_nil _).symm
  | cons c s ih =>
    have hsplit : (before ++ c :: s).utf8Encode = before.utf8Encode ++ (c :: s).utf8Encode :=
      List.utf8Encode_append
    have hlt : before.utf8Encode.size < (before ++ c :: s).utf8Encode.size := by
      have hpos := c.utf8Size_pos
      rw [hsplit, ByteArray.size_append, size_utf8Encode_cons]
      omega
    have hdecode :
        (before ++ c :: s).utf8Encode.utf8DecodeChar? before.utf8Encode.size = some c := by
      rw [ByteArray.utf8DecodeChar?_eq_utf8DecodeChar?_extract, hsplit,
        ByteArray.extract_append_eq_right rfl ByteArray.size_append]
      exact List.utf8DecodeChar?_utf8Encode_cons
    have hsize : (before ++ [c]).utf8Encode.size = before.utf8Encode.size + c.utf8Size := by
      rw [List.utf8Encode_append, ByteArray.size_append, size_utf8Encode_cons]
      rfl
    have hrest := ih (before ++ [c]) (char c :: seen)
    rw [hsize, List.append_assoc, List.singleton_append] at hrest
    rw [collect, dif_pos hlt]
    simp only [hdecode, hrest, List.reverse_cons, List.append_assoc, List.singleton_append,
      ofText_cons]

theorem ofBytes_toUTF8 (t : String) : ofBytes t.toUTF8 = ofText t.toList := by
  have hbytes : t.toUTF8 = ([] ++ t.toList).utf8Encode := by
    rw [List.nil_append, ← String.toByteArray_ofList, String.ofList_toList]
    exact String.toUTF8_eq_toByteArray
  rw [ofBytes, hbytes]
  exact collect_utf8Encode [] t.toList []

end Text.Piece

/-! ## Objects -/

namespace Json

open Text (Piece)
open Text.Piece (Decoded)

/-- If the step for a member keeps a text decoded, so does the loop over all members. -/
theorem yields_loop {β : Type} {step loop : β → List Piece → Except Fault (β × List Piece)}
    (hloop : Loops step loop) (hstep : ∀ {b s}, Decoded s → Yields LeftDecoded (step b s))
    (hshorter : ∀ {b b' s rest}, step b s = .ok (b', rest) → rest.length < s.length) {b : β}
    {s : List Piece} (h : Decoded s) : Yields LeftDecoded (loop b s) := by
  induction hlen : s.length using Nat.strongRecOn generalizing b s with
  | ind n ih =>
    subst hlen
    rw [hloop]
    refine (hstep h).with_eq.bind fun r ⟨hr, hmember⟩ => ?_
    refine (yields_nextKey hr).with_eq.bind fun ⟨more, rest⟩ ⟨hrest, hnext⟩ => ?_
    have hlt := hshorter hmember
    have hlt' := length_nextKey hnext
    cases more with
    | false => exact hrest
    | true => exact ih rest.length (by omega) hrest rfl

end Json

namespace Config

open Json
open Text (Piece)
open Text.Piece (Decoded)

variable {s : List Piece}

/-! ## The mode -/

theorem yields_modeOfName (name : List Char) : Yields (fun _ => True) (modeOfName name) := by
  unfold modeOfName
  split
  · trivial
  · split
    · trivial
    · simp

theorem yields_readNull (h : Decoded s) : Yields Decoded (readNull s) := by
  unfold readNull
  split
  · simp
  · rename_i hs
    exact yields_word (h.of_skipSpace hs)
  · exact yields_wrongKind h.skipSpace

theorem yields_readModeObject (h : Decoded s) : Yields LeftDecoded (readModeObject s) := by
  refine (yields_firstKey h).bind fun ⟨more, t⟩ ht => ?_
  cases more with
  | false => simp
  | true =>
    refine (yields_string ht).bind fun ⟨name, u⟩ hu => ?_
    refine (yields_modeOfName name).bind fun mode _ => ?_
    refine (yields_colon hu).bind fun v hv => ?_
    refine (yields_readNull hv).bind fun w hw => ?_
    split
    · simp
    · rename_i hw'
      exact hw.of_skipSpace hw'
    · simp

theorem yields_readMode (h : Decoded s) : Yields LeftDecoded (readMode s) := by
  unfold readMode
  split
  · simp
  · rename_i hs
    refine (yields_string (h.of_skipSpace hs)).bind fun ⟨name, t⟩ ht => ?_
    exact (yields_modeOfName name).bind fun mode _ => ht
  · rename_i hs
    exact yields_readModeObject (h.of_skipSpace hs)
  · simp

/-! ## Registers -/

theorem yields_readWord (h : Decoded s) : Yields LeftDecoded (readWord s) := by
  unfold readWord
  split
  · simp
  · rename_i p t hs
    have ht : Decoded (p :: t) := by
      rw [← hs]
      exact h.skipSpace
    split
    · refine (yields_number ht).bind fun ⟨n, rest⟩ hrest => ?_
      dsimp only
      split
      · split
        · exact hrest
        · simp
      · split
        · exact hrest
        · simp
      · simp
    · exact yields_wrongKind ht

theorem yields_readBinding (h : Decoded s) : Yields LeftDecoded (readBinding s) := by
  refine (yields_string h).bind fun ⟨name, t⟩ ht => ?_
  refine (yields_colon ht).bind fun u hu => ?_
  exact (yields_readWord hu).bind fun ⟨value, rest⟩ hrest => hrest

theorem yields_addBinding {b : Bindings} (h : Decoded s) : Yields LeftDecoded (addBinding b s) :=
  (yields_readBinding h).bind fun _ hr => hr

theorem length_addBinding {b b' : Bindings} {s rest : List Piece}
    (h : addBinding b s = .ok (b', rest)) : rest.length < s.length := by
  obtain ⟨r, hr, h⟩ := bind_eq_ok.1 h
  cases h
  exact length_readBinding hr

theorem yields_readSymbols (h : Decoded s) : Yields LeftDecoded (readSymbols s) := by
  unfold readSymbols
  split
  · simp
  · rename_i hs
    refine (yields_firstKey (h.of_skipSpace hs)).bind fun ⟨more, t⟩ ht => ?_
    cases more with
    | false => exact ht
    | true => exact yields_loop loops_readBindings yields_addBinding length_addBinding ht
  · exact yields_wrongKind h.skipSpace

/-! ## Settings -/

theorem yields_readMember {m : Members} (h : Decoded s) : Yields LeftDecoded (readMember m s) := by
  refine (yields_string h).bind fun ⟨key, t⟩ ht => ?_
  dsimp only
  split
  · split
    · simp
    · refine (yields_colon ht).bind fun u hu => ?_
      exact (yields_readSymbols hu).bind fun ⟨symbols, rest⟩ hrest => hrest
  · split
    · split
      · simp
      · refine (yields_colon ht).bind fun u hu => ?_
        exact (yields_readMode hu).bind fun ⟨mode, rest⟩ hrest => hrest
    · refine (yields_colon ht).bind fun u hu => ?_
      exact (yields_skipOpen hu).bind fun rest hrest => hrest

theorem yields_readObject (h : Decoded s) : Yields LeftDecoded (readObject s) := by
  refine (yields_firstKey h).bind fun ⟨more, t⟩ ht => ?_
  cases more with
  | false => exact ht
  | true => exact yields_loop loops_readMembers yields_readMember length_readMember ht

theorem yields_readList (h : Decoded s) : Yields LeftDecoded (readList s) := by
  refine (yields_firstElement h).bind fun ⟨more, t⟩ ht => ?_
  cases more with
  | false => exact ht
  | true =>
    refine (yields_readSymbols ht).bind fun ⟨symbols, u⟩ hu => ?_
    refine (yields_nextElement hu).bind fun ⟨more, v⟩ hv => ?_
    cases more with
    | false => exact hv
    | true =>
      refine (yields_readMode hv).bind fun ⟨mode, w⟩ hw => ?_
      exact (yields_endOfList hw).bind fun rest hrest => hrest

theorem yields_readMembersOf (h : Decoded s) : Yields LeftDecoded (readMembersOf s) := by
  unfold readMembersOf
  split
  · simp
  · rename_i hs
    exact yields_readObject (h.of_skipSpace hs)
  · rename_i hs
    exact yields_readList (h.of_skipSpace hs)
  · exact yields_wrongKind h.skipSpace

/-- No text is refused because of its encoding. -/
theorem yields_read (h : Decoded s) : Yields (fun _ => True) (read s) := by
  refine (yields_readMembersOf h).bind fun ⟨members, rest⟩ _ => ?_
  dsimp only
  split
  · trivial
  · simp

/-- A file that holds an encoded text gives the settings that the text gives. If the text gives
none, the file gives none, for the same fault, and the errors differ in no more than what they begin
with. The fault is not that the file is not encoded in UTF-8. -/
theorem ofFile_toUTF8 (path : String) (t : String) :
    (∀ c, ofFile path (.ok t.toUTF8) = .ok c ↔ ofText t = .ok c) ∧
    ((∃ c, ofText t = .ok c) ∨ ∃ fault : Fault, fault ≠ .invalidEncoding ∧
      ofText t = .error (.config ("Failed to parse config: " ++ fault.message)) ∧
      ofFile path (.ok t.toUTF8) =
        .error (.config ("Failed to parse config file: " ++ fault.message))) := by
  have hread := yields_read (Piece.decoded_ofText t.toList)
  have hfile : ofFile path (.ok t.toUTF8) =
      (read (Piece.ofText t.toList)).mapError fun fault => fileError fault.message := by
    rw [← Piece.ofBytes_toUTF8]
    rfl
  rw [hfile, ofText]
  cases hr : read (Piece.ofText t.toList) with
  | ok c => exact ⟨fun _ => Iff.rfl, .inl ⟨c, rfl⟩⟩
  | error fault =>
    refine ⟨fun c => ?_, .inr ⟨fault, hread.of_eq_error hr, rfl, rfl⟩⟩
    simp only [Except.mapError, reduceCtorEq]

/-- The key of a mode is missing: the text ends, or goes on with a number. -/
example :
    ofText "\x7b\"mode\":\x7b" =
        .error (.config "Failed to parse config: EOF while parsing an object") ∧
      ofFile "mode" (.ok "\x7b\"mode\":\x7b1:null\x7d\x7d".toUTF8) =
        .error (.config "Failed to parse config file: key must be a string") := by
  decide +kernel

end Config

end Reckon
