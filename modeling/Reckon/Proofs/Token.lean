import Reckon.Proofs.Laws
import Reckon.Proofs.Lexeme

/-!
# Laws of tokens

A token is its parser with the longest run of blanks skipped on both sides: it is alike to the
parser between two repetitions of one blank (`alike_token_between`). The parser itself runs once, on
the text without the blanks in front, and never sees them (`gives_token_iff`). Skipping a second
time skips nothing (`Text.skipBlanks_skipBlanks`), so a token of a token is a token, and what a
token leaves does not begin with a blank. Skipping does not fail either, so the blanks around a
choice can be made part of both alternatives (`Attempt.andThen_orElse`).

Main result: `Parser.alike_tokens`.
-/

set_option autoImplicit false

namespace Reckon

namespace Parser

open Text (AllBlank Trimmed skipBlanks)

variable {ρ : Type → Type} {rules : Rules ρ} {α : Type} {p : Parser ρ α} {s t : List Char} {v : α}

/-! ## Runs -/

theorem run_blanks (depth : Nat) (s : List Char) :
    run rules depth .blanks s = some (.matched (s.takeWhile Text.isBlank) (skipBlanks s)) :=
  repeated_readChar Text.isBlank s

theorem run_token (depth : Nat) (p : Parser ρ α) (s : List Char) :
    run rules depth (.token p) s =
      (run rules depth p (skipBlanks s)).andThen fun v rest =>
        some (.matched v (skipBlanks rest)) := rfl

theorem run_between {β γ : Type} (depth : Nat) (l : Parser ρ β) (p : Parser ρ α) (r : Parser ρ γ)
    (s : List Char) :
    run rules depth (.between l p r) s =
      (run rules depth l s).andThen fun _ rest =>
        (run rules depth p rest).andThen fun v rest =>
          (run rules depth r rest).andThen fun _ last => some (.matched v last) := rfl

/-- Blanks in front of a token make no difference to a run. -/
theorem run_token_append {w : List Char} (hw : AllBlank w) (depth : Nat) (p : Parser ρ α)
    (s : List Char) : run rules depth (.token p) (w ++ s) = run rules depth (.token p) s := by
  rw [run_token, run_token, Text.skipBlanks_append hw]

/-! ## Outcomes -/

/-- A token matches where its parser does, behind the blanks in front, and takes the blanks that
come next. -/
theorem gives_token_iff :
    Gives rules (.token p) s (.matched v t) ↔
      ∃ rest, Gives rules p (skipBlanks s) (.matched v rest) ∧ t = skipBlanks rest := by
  constructor
  · rintro ⟨depth, h⟩
    rw [run_token, Attempt.andThen_eq_some_iff] at h
    obtain ⟨-, ho⟩ | ⟨w, rest, hp, ho⟩ := h
    · cases ho
    · cases ho
      exact ⟨rest, ⟨depth, hp⟩, rfl⟩
  · rintro ⟨rest, ⟨depth, hp⟩, rfl⟩
    refine ⟨depth, ?_⟩
    rw [run_token, hp]
    rfl

/-- A token fails where its parser does, behind the blanks in front. -/
theorem gives_token_failed_iff :
    Gives rules (.token p) s .failed ↔ Gives rules p (skipBlanks s) .failed := by
  constructor
  · rintro ⟨depth, h⟩
    rw [run_token, Attempt.andThen_eq_some_iff] at h
    obtain ⟨hp, -⟩ | ⟨v, rest, -, ho⟩ := h
    · exact ⟨depth, hp⟩
    · cases ho
  · rintro ⟨depth, hp⟩
    refine ⟨depth, ?_⟩
    rw [run_token, hp]
    rfl

theorem Gives.trimmed (h : Gives rules (.token p) s (.matched v t)) : Trimmed t := by
  obtain ⟨rest, -, rfl⟩ := gives_token_iff.1 h
  exact Text.trimmed_skipBlanks rest

/-! ## Laws -/

theorem alike_token_between (p : Parser ρ α) :
    Alike rules (.token p) (.between .blanks p .blanks) s := by
  refine alike_of_run_eq fun depth => ?_
  simp only [run_token, run_between, run_blanks, Attempt.andThen]

theorem alike_token_token (p : Parser ρ α) : Alike rules (.token (.token p)) (.token p) s := by
  refine alike_of_run_eq fun depth => ?_
  rw [run_token, run_token, run_token, Text.skipBlanks_skipBlanks, Attempt.andThen_assoc]
  simp only [Attempt.andThen, Text.skipBlanks_skipBlanks]

theorem alike_token_choice (p q : Parser ρ α) :
    Alike rules (.token (.choice p q)) (.choice (.token p) (.token q)) s := by
  refine alike_of_run_eq fun depth => ?_
  rw [run_token, run_choice, run_choice, run_token, run_token]
  -- what comes after the choice only skips blanks
  exact Attempt.andThen_orElse (fun _ _ _ => by simp) _

/-- The laws of tokens. A token is its parser between two runs of blanks, each as long as it can be.
Blanks in front make no difference to it, and it leaves none in front of the rest. A token of a
token is a token, and a token of a choice is a choice of tokens. On a text that does not begin with
a blank, a token fails if its parser does, and only then; where the parser matches, the token gives
the same value, and leaves what the parser leaves, without all the blanks in front of it. -/
theorem alike_tokens (rules : Rules ρ) (s : List Char) :
    (∀ p : Parser ρ α, Alike rules (.token p) (.between .blanks p .blanks) s) ∧
    (∀ (p : Parser ρ α) (w : List Char), AllBlank w →
      ∀ o, Gives rules (.token p) (w ++ s) o ↔ Gives rules (.token p) s o) ∧
    (∀ (p : Parser ρ α) (v : α) (rest : List Char),
      Gives rules (.token p) s (.matched v rest) → Trimmed rest) ∧
    (∀ p : Parser ρ α, Alike rules (.token (.token p)) (.token p) s) ∧
    (∀ p q : Parser ρ α, Alike rules (.token (.choice p q)) (.choice (.token p) (.token q)) s) ∧
    ∀ p : Parser ρ α, Trimmed s →
      (Gives rules (.token p) s .failed ↔ Gives rules p s .failed) ∧
      ∀ v rest, Gives rules p s (.matched v rest) →
        ∃ w t, rest = w ++ t ∧ AllBlank w ∧ Trimmed t ∧
          Gives rules (.token p) s (.matched v t) := by
  refine ⟨alike_token_between, fun p w hw o => ?_, fun p v rest h => h.trimmed, alike_token_token,
    alike_token_choice, fun p hs => ⟨?_, fun v rest h => ?_⟩⟩
  · simp only [Gives, run_token_append hw]
  · rw [gives_token_failed_iff, Text.skipBlanks_of_trimmed hs]
  · obtain ⟨w, hw, hrest⟩ := Text.exists_blanks_append rest
    refine ⟨w, skipBlanks rest, hrest, hw, Text.trimmed_skipBlanks rest, gives_token_iff.2 ?_⟩
    rw [Text.skipBlanks_of_trimmed hs]
    exact ⟨rest, h, rfl⟩

/-- A parser that reads a blank of its own: the token leaves that one to it and takes the next, and
takes the blanks in front. -/
theorem alike_tokens_blank :
    let rules : Rules fun _ => Empty := nofun
    let p : Parser (fun _ => Empty) (Char × Char) := .pair .item .blank
    let s := ['a', ' ', '\t', 'b']
    (Trimmed s ∧ Gives rules p s (.matched ('a', ' ') ['\t', 'b'])) ∧
      Gives rules (.token p) s (.matched ('a', ' ') ['b']) ∧
      AllBlank ['\n', '\u2003'] ∧
      Gives rules (.token p) (['\n', '\u2003'] ++ s) (.matched ('a', ' ') ['b']) ∧
      Trimmed ['b'] := by
  intro rules p s
  have hs : Trimmed s := by
    rintro c ⟨⟩
    rfl
  have hp : Gives rules p s (.matched ('a', ' ') ['\t', 'b']) := ⟨0, by decide⟩
  have hblank : AllBlank ['\n', '\u2003'] := by decide
  obtain ⟨-, hfront, htrimmed, -, -, hbehind⟩ := alike_tokens rules s
  obtain ⟨-, hmatch⟩ := hbehind p hs
  obtain ⟨w, t, hrest, hw, ht, htoken⟩ := hmatch _ _ hp
  obtain rfl : t = ['b'] := by
    rw [← Text.skipBlanks_of_trimmed ht, ← Text.skipBlanks_append hw, ← hrest]
    decide
  exact ⟨⟨hs, hp⟩, htoken, hblank, (hfront p _ hblank _).2 htoken, htrimmed p _ _ htoken⟩

end Parser

end Reckon
