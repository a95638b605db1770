import Reckon.Grammar
import Reckon.Proofs.Run

/-!
# What a match leaves is a suffix

Whatever a parser is built of, a match splits the text into what was consumed, in front, and the
rest (`denote_leaves`, by induction on the parser; `unroll_leaves` adds the calls of rules, by
induction on their depth). Repetition compares only lengths to see whether a run made progress;
that this is right rests on the split: a rest as long as the text is the text (`Gives.match_splits`).
-/

set_option autoImplicit false

namespace Reckon

/-! ## Attempts -/

namespace Attempt

variable {α β : Type}

/-- The rest of a match is a suffix of `s`. -/
def Leaves (s : List Char) (a : Attempt α) : Prop :=
  ∀ v rest, a = some (.matched v rest) → rest <:+ s

theorem leaves_matched {s rest : List Char} (h : rest <:+ s) (v : α) :
    Leaves s (some (.matched v rest)) := by
  rintro _ _ ⟨⟩
  exact h

theorem leaves_failed (s : List Char) : Leaves s (some (.failed : Outcome α)) := by
  rintro _ _ ⟨⟩

theorem Leaves.trans {s t : List Char} {a : Attempt α} (h : Leaves t a) (hst : t <:+ s) :
    Leaves s a := fun v rest e => (h v rest e).trans hst

theorem leaves_andThen {s : List Char} {a : Attempt α} {next : α → List Char → Attempt β}
    (h : Leaves s a) (hn : ∀ v rest, Leaves rest (next v rest)) : Leaves s (a.andThen next) := by
  rcases a with _ | _ | ⟨v, rest⟩
  · rintro _ _ ⟨⟩
  · exact leaves_failed s
  · exact (hn v rest).trans (h v rest rfl)

theorem leaves_orElse {s : List Char} {a : Attempt α} {next : Unit → Attempt α}
    (h : Leaves s a) (hn : Leaves s (next ())) : Leaves s (a.orElse next) := by
  rcases a with _ | _ | ⟨v, rest⟩
  · rintro _ _ ⟨⟩
  · exact hn
  · exact h

theorem leaves_map {s : List Char} {a : Attempt α} (f : α → β) (h : Leaves s a) :
    Leaves s (Option.map (Outcome.map f) a) := by
  rcases a with _ | _ | ⟨v, rest⟩
  · rintro _ _ ⟨⟩
  · exact leaves_failed s
  · exact leaves_matched (h v rest rfl) (f v)

end Attempt

theorem Text.skipBlanks_suffix (s : List Char) : skipBlanks s <:+ s := List.dropWhile_suffix _

namespace Parser

open Attempt

variable {ρ : Type → Type} {α : Type}

/-! ## Parsers -/

theorem readChar_leaves (holds : Char → Bool) (s : List Char) :
    Leaves s (some (readChar holds s)) := by
  cases s with
  | nil => exact leaves_failed []
  | cons c s =>
    rw [readChar]
    split
    · exact leaves_matched (List.suffix_cons c s) c
    · exact leaves_failed _

/-- A text that begins with `text` is `text` and what `stripText` leaves. -/
theorem eq_append_of_stripText {text s rest : List Char} (h : stripText text s = some rest) :
    s = text ++ rest := by
  fun_induction stripText text s with
  | case1 s => cases h; rfl
  | case2 c text s ih => rw [ih h]; rfl
  | case3 => cases h
  | case4 => cases h

theorem literal_leaves (text s : List Char) :
    Leaves s (some (.ofOption ((stripText text s).map fun rest => (text, rest)))) := by
  cases h : stripText text s with
  | none => exact leaves_failed s
  | some rest => exact leaves_matched ⟨text, (eq_append_of_stripText h).symm⟩ text

theorem collect_leaves {p : List Char → Attempt α} (h : ∀ s, Leaves s (p s)) (seen : List α)
    (s : List Char) : Leaves s (collect p seen s) := by
  fun_induction collect p seen s with
  | case1 => rintro _ _ ⟨⟩
  | case2 seen s hp => exact leaves_matched (List.suffix_refl s) _
  -- the rounds behind the first one leave a suffix of what the first one left
  | case3 seen s value rest hp lt ih => exact ih.trans (h s value rest hp)
  | case4 seen s value rest hp lt => exact leaves_matched (List.suffix_refl s) _

theorem denote_leaves {rule : ∀ {β : Type}, ρ β → List Char → Attempt β}
    (h : ∀ {β : Type} (r : ρ β) (s : List Char), Leaves s (rule r s)) (p : Parser ρ α)
    (s : List Char) : Leaves s (denote rule p s) := by
  induction p generalizing s with
  | item => exact readChar_leaves _ s
  | satisfies holds => exact readChar_leaves holds s
  | unit value => exact leaves_matched (List.suffix_refl s) value
  | failure => exact leaves_failed s
  | literal text => exact literal_leaves text s
  | choice p q ihp ihq => exact leaves_orElse (ihp s) (ihq s)
  | bind p next ihp ihn => exact leaves_andThen (ihp s) fun v rest => ihn v rest
  | map p f ih => exact leaves_map f (ih s)
  | many p ih => exact collect_leaves ih [] s
  | many1 p ih =>
    refine leaves_andThen (ih s) fun v rest => ?_
    split
    · exact collect_leaves ih [v] rest
    · exact leaves_matched (List.suffix_refl rest) [v]
  | optional p ih =>
    refine leaves_orElse (leaves_andThen (ih s) fun v rest => ?_) ?_
    · exact leaves_matched (List.suffix_refl rest) (some v)
    · exact leaves_matched (List.suffix_refl s) none
  | token p ih =>
    refine leaves_andThen ((ih _).trans (Text.skipBlanks_suffix s)) fun v rest => ?_
    exact leaves_matched (Text.skipBlanks_suffix rest) v
  | pair p q ihp ihq =>
    exact leaves_andThen (ihp s) fun v rest => leaves_andThen (ihq rest) fun w last =>
      leaves_matched (List.suffix_refl last) (v, w)
  | preceded p q ihp ihq => exact leaves_andThen (ihp s) fun _ rest => ihq rest
  | terminated p q ihp ihq =>
    exact leaves_andThen (ihp s) fun v rest => leaves_andThen (ihq rest) fun _ last =>
      leaves_matched (List.suffix_refl last) v
  | between l p r ihl ihp ihr =>
    exact leaves_andThen (ihl s) fun _ rest => leaves_andThen (ihp rest) fun v rest =>
      leaves_andThen (ihr rest) fun _ last => leaves_matched (List.suffix_refl last) v
  | call r => exact h r s

variable {rules : Rules ρ}

theorem unroll_leaves (depth : Nat) (r : ρ α) (s : List Char) :
    Leaves s (unroll rules depth r s) := by
  induction depth generalizing α s with
  | zero => rintro _ _ ⟨⟩
  | succ depth ih => exact denote_leaves ih (rules r) s

theorem Gives.suffix {p : Parser ρ α} {s rest : List Char} {v : α}
    (h : Gives rules p s (.matched v rest)) : rest <:+ s := by
  obtain ⟨depth, h⟩ := h
  exact denote_leaves (unroll_leaves depth) p s v rest h

/-! ## Progress -/

theorem length_append_lt_iff (consumed rest : List Char) :
    ¬ rest.length < (consumed ++ rest).length ↔ consumed = [] := by
  rw [List.length_append, ← List.length_eq_zero_iff]
  omega

theorem utf8ByteSize_append_eq_iff (consumed rest : List Char) :
    (String.ofList rest).utf8ByteSize = (String.ofList (consumed ++ rest)).utf8ByteSize ↔
      consumed = [] := by
  rw [String.ofList_append, String.utf8ByteSize_append]
  constructor
  · intro h
    have hz : (String.ofList consumed).utf8ByteSize = 0 := by omega
    simpa using hz
  · rintro rfl
    simp

/-- A parser that terminates on `s` has one outcome, with at most one match. The match splits `s`,
and its rest is no shorter than `s`, in characters or in bytes, only if nothing was consumed. -/
theorem Gives.match_splits {p : Parser ρ α} {s : List Char} {o : Outcome α}
    (h : Gives rules p s o) :
    (∀ o', Gives rules p s o' → o' = o) ∧ o.size ≤ 1 ∧
      ∀ m ∈ o.toList, ∃ consumed, s = consumed ++ m.2 ∧
        (¬ m.2.length < s.length ↔ consumed = []) ∧
        ((String.ofList m.2).utf8ByteSize = (String.ofList s).utf8ByteSize ↔ consumed = []) := by
  refine ⟨fun o' h' => h'.unique h, o.size_le_one, fun m hm => ?_⟩
  cases o with
  | failed => cases hm
  | matched v rest =>
    obtain rfl := List.mem_singleton.1 hm
    obtain ⟨consumed, rfl⟩ := h.suffix
    exact ⟨consumed, rfl, length_append_lt_iff consumed rest,
      utf8ByteSize_append_eq_iff consumed rest⟩

/-- The second parenthesis is never closed, and is left. -/
theorem Gives.match_splits_unclosed :
    Gives (Grammar.rules .standard) (Grammar.expression .standard) "(1+TWO)*(3".toList
      (.matched 3 "*(3".toList) ∧
    ∃ consumed, "(1+TWO)*(3".toList = consumed ++ "*(3".toList ∧
      (¬ "*(3".toList.length < "(1+TWO)*(3".toList.length ↔ consumed = []) := by
  have h : Gives (Grammar.rules .standard) (Grammar.expression .standard)
      "(1+TWO)*(3".toList (.matched 3 "*(3".toList) := ⟨10, by decide +kernel⟩
  obtain ⟨-, -, hsplit⟩ := h.match_splits
  obtain ⟨consumed, hs, hlen, -⟩ := hsplit _ List.mem_cons_self
  exact ⟨h, consumed, hs, hlen⟩

end Parser

end Reckon
