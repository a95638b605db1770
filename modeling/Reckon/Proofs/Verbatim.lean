import Reckon.Proofs.Suffix
import Reckon.Recipe.Basic

/-!
# No character is lost

Some values are made of characters: `Textual.text` gives these, in order. A parser is `Verbatim` if
nothing that it is built of drops or adds text, and a match of such a parser takes the text apart:
the text of the value and the rest, one after the other, are the text that was read
(`Gives.text_append_rest`). What was tried and given up on the way leaves no trace in it, nor does
the value that a repetition keeps of the run that read nothing.

The invariant is `Attempt.Keeps`: `denote_keeps` is the induction on the parser, `collect_keeps` the
loop of a repetition, and `unroll_keeps` adds the calls of rules by induction on their depth.
`Recipe.isVerbatim` checks a recipe, and `Recipe.toText_append` says what the check is good for.
-/

set_option autoImplicit false

namespace Reckon

/-! ## Values that are made of characters -/

/-- Types whose values are made of characters. -/
class Textual (α : Type) where
  /-- The characters of a value, in order. -/
  text : α → List Char

namespace Textual

variable {α β : Type} [Textual α] [Textual β]

instance : Textual Char := ⟨fun c => [c]⟩

instance : Textual (List α) := ⟨List.flatMap text⟩

instance : Textual (α × β) := ⟨fun vw => text vw.1 ++ text vw.2⟩

instance : Textual (Option α) := ⟨fun | none => [] | some v => text v⟩

instance : Textual Value := ⟨Value.toText⟩

@[simp] theorem text_append (vs ws : List α) : text (vs ++ ws) = text vs ++ text ws :=
  List.flatMap_append

@[simp] theorem text_singleton (v : α) : text [v] = text v := List.flatMap_singleton text v

@[simp] theorem text_pair (v : α) (w : β) : text (v, w) = text v ++ text w := rfl

/-- A list of characters is its own text. -/
@[simp] theorem text_chars (s : List Char) : text s = s := List.flatMap_singleton' s

end Textual

open Textual

/-! ## Attempts -/

namespace Attempt

variable {α β : Type} [Textual α] [Textual β] {s : List Char}

/-- The text of the value and the rest of a match make up `s`. -/
def Keeps (s : List Char) (a : Attempt α) : Prop :=
  ∀ v rest, a = some (.matched v rest) → text v ++ rest = s

theorem keeps_matched {v : α} {rest : List Char} (h : text v ++ rest = s) :
    Keeps s (some (.matched v rest)) := by
  rintro _ _ ⟨⟩
  exact h

theorem keeps_failed (s : List Char) : Keeps s (some (.failed : Outcome α)) := by
  rintro _ _ ⟨⟩

theorem keeps_none (s : List Char) : Keeps s (none : Attempt α) := by
  rintro _ _ ⟨⟩

theorem keeps_andThen {t : List Char} {a : Attempt α} {next : α → List Char → Attempt β}
    (h : Keeps t a) (hn : ∀ v rest, text v ++ rest = t → Keeps s (next v rest)) :
    Keeps s (a.andThen next) := by
  rcases a with _ | _ | ⟨v, rest⟩
  · exact keeps_none s
  · exact keeps_failed s
  · exact hn v rest (h v rest rfl)

theorem keeps_orElse {a : Attempt α} {next : Unit → Attempt α} (h : Keeps s a)
    (hn : Keeps s (next ())) : Keeps s (a.orElse next) := by
  rcases a with _ | _ | ⟨v, rest⟩
  · exact h
  · exact hn
  · exact h

theorem keeps_map {a : Attempt α} {f : α → β} (h : Keeps s a) (hf : ∀ v, text (f v) = text v) :
    Keeps s (Option.map (Outcome.map f) a) := by
  rcases a with _ | _ | ⟨v, rest⟩
  · exact keeps_none s
  · exact keeps_failed s
  · refine keeps_matched ?_
    rw [hf]
    exact h v rest rfl

end Attempt

/-! ## Parsers -/

namespace Parser

open Attempt

variable {ρ : Type → Type}

/-- Nothing that the parser is built of drops or adds text, and it calls rules of `calls` only. -/
inductive Verbatim (calls : ∀ β : Type, [Textual β] → ρ β → Prop) :
    ∀ {α : Type} [Textual α], Parser ρ α → Prop
  | item : Verbatim calls .item
  | satisfies (holds : Char → Bool) : Verbatim calls (.satisfies holds)
  | literal (text : List Char) : Verbatim calls (.literal text)
  | unit {α : Type} [Textual α] {value : α} (h : text value = []) : Verbatim calls (.unit value)
  | failure {α : Type} [Textual α] : Verbatim calls (.failure : Parser ρ α)
  | choice {α : Type} [Textual α] {p q : Parser ρ α} (hp : Verbatim calls p)
      (hq : Verbatim calls q) : Verbatim calls (.choice p q)
  | pair {α β : Type} [Textual α] [Textual β] {p : Parser ρ α} {q : Parser ρ β}
      (hp : Verbatim calls p) (hq : Verbatim calls q) : Verbatim calls (.pair p q)
  | optional {α : Type} [Textual α] {p : Parser ρ α} (hp : Verbatim calls p) :
      Verbatim calls (.optional p)
  | many {α : Type} [Textual α] {p : Parser ρ α} (hp : Verbatim calls p) :
      Verbatim calls (.many p)
  | many1 {α : Type} [Textual α] {p : Parser ρ α} (hp : Verbatim calls p) :
      Verbatim calls (.many1 p)
  /-- The value is put into another form, with the same text. -/
  | map {α β : Type} [Textual α] [Textual β] {p : Parser ρ α} {f : α → β} (hp : Verbatim calls p)
      (hf : ∀ v, text (f v) = text v) : Verbatim calls (.map p f)
  | call {α : Type} [Textual α] {r : ρ α} (hr : calls α r) : Verbatim calls (.call r)

variable {α : Type} [Textual α] {calls : ∀ β : Type, [Textual β] → ρ β → Prop}

theorem Verbatim.blanks : Verbatim calls (blanks : Parser ρ (List Char)) := .many (.satisfies _)

/-- A value without text may also be missing. -/
theorem Verbatim.ofOption {value? : Option α} (h : text value? = []) :
    Verbatim calls (ofOption value?) := by
  cases value? with
  | none => exact .failure
  | some value => exact .unit h

theorem readChar_keeps (holds : Char → Bool) (s : List Char) :
    Keeps s (some (readChar holds s)) := by
  cases s with
  | nil => exact keeps_failed []
  | cons c s =>
    rw [readChar]
    split
    · exact keeps_matched rfl
    · exact keeps_failed _

theorem literal_keeps (text s : List Char) :
    Keeps s (some (.ofOption ((stripText text s).map fun rest => (text, rest)))) := by
  cases h : stripText text s with
  | none => exact keeps_failed s
  | some rest =>
    refine keeps_matched ?_
    rw [text_chars, eq_append_of_stripText h]

/-- What was seen and what is left make up the text, on every round of the loop. -/
theorem collect_keeps {p : List Char → Attempt α} (h : ∀ s, Keeps s (p s)) (seen : List α)
    (s : List Char) : Keeps (text seen.reverse ++ s) (collect p seen s) := by
  fun_induction collect p seen s with
  | case1 => exact keeps_none _
  | case2 => exact keeps_matched rfl
  | case3 seen s value rest hp lt ih =>
    have hs : text value ++ rest = s := h s value rest hp
    rwa [List.reverse_cons, text_append, text_singleton, List.append_assoc, hs] at ih
  | case4 seen s value rest hp lt =>
    have hs : text value ++ rest = s := h s value rest hp
    -- the run read nothing, so the value that is kept has no text
    have hv : text value = [] := by
      have hlen := congrArg List.length hs
      rw [List.length_append] at hlen
      exact List.eq_nil_of_length_eq_zero (by omega)
    refine keeps_matched ?_
    rw [List.reverse_cons, text_append, text_singleton, hv, List.append_nil]

theorem denote_keeps {rule : ∀ {β : Type}, ρ β → List Char → Attempt β}
    (hrule : ∀ {β : Type} [Textual β] (r : ρ β), calls β r → ∀ s, Keeps s (rule r s))
    {p : Parser ρ α} (hp : Verbatim calls p) (s : List Char) : Keeps s (denote rule p s) := by
  induction hp generalizing s with
  | item => exact readChar_keeps _ s
  | satisfies holds => exact readChar_keeps holds s
  | literal text => exact literal_keeps text s
  | unit h => exact keeps_matched (by rw [h]; rfl)
  | failure => exact keeps_failed s
  | choice _ _ ihp ihq => exact keeps_orElse (ihp s) (ihq s)
  | pair _ _ ihp ihq =>
    refine keeps_andThen (ihp s) fun v rest hv => keeps_andThen (ihq rest) fun w last hw => ?_
    refine keeps_matched ?_
    rw [text_pair, List.append_assoc, hw, hv]
  | optional _ ih =>
    refine keeps_orElse (keeps_andThen (ih s) fun v rest hv => keeps_matched hv) ?_
    exact keeps_matched rfl
  | many _ ih => exact collect_keeps ih [] s
  | many1 _ ih =>
    refine keeps_andThen (ih s) fun v rest hv => ?_
    split
    · have h := collect_keeps ih [v] rest
      rwa [List.reverse_singleton, text_singleton, hv] at h
    · exact keeps_matched (by rwa [text_singleton])
  | map _ hf ih => exact keeps_map (ih s) hf
  | call hr => exact hrule _ hr s

variable {rules : Rules ρ}

section
variable (hrules : ∀ {β : Type} [Textual β] (r : ρ β), calls β r → Verbatim calls (rules r))
include hrules

theorem unroll_keeps (depth : Nat) {α : Type} [Textual α] (r : ρ α) (hr : calls α r)
    (s : List Char) : Keeps s (unroll rules depth r s) := by
  induction depth generalizing α s with
  | zero => exact keeps_none s
  | succ depth ih => exact denote_keeps ih (hrules r hr) s

theorem run_keeps {p : Parser ρ α} (hp : Verbatim calls p) (depth : Nat) (s : List Char) :
    Keeps s (run rules depth p s) :=
  denote_keeps (unroll_keeps hrules depth) hp s

end

end Parser

/-! ## Recipes -/

namespace Recipe

/-- Nothing that the recipe is made of drops or adds text. -/
def isVerbatim : Recipe → Bool
  | item | satisfies _ | failure | character _ | literal _ | blank | blanks | digit | call _ => true
  | unit value | ofOption value => value.toText.isEmpty
  | choice p q | pair p q => isVerbatim p && isVerbatim q
  | many p | many1 p | optional p => isVerbatim p
  | _ => false

/-- The rules that have recipes. -/
inductive Rule.IsNamed : ∀ β : Type, [Textual β] → Rule β → Prop
  | named (name : String) : IsNamed Value (.named name)

theorem text_list (vs : List Value) : text (Value.list vs) = text vs := by
  induction vs with
  | nil => rfl
  | cons v vs ih => exact congrArg (text v ++ ·) ih

theorem text_present (v : Value) : text (present v) = text v := by
  cases v <;> rfl

theorem text_ofOptional (v : Option Value) : text (ofOptional v) = text v := by
  cases v <;> rfl

variable {registers : Registers}

theorem verbatim_of_isVerbatim : ∀ recipe : Recipe, recipe.isVerbatim = true →
    Parser.Verbatim Rule.IsNamed (parser registers recipe)
  | .item, _ => .map .item fun _ => rfl
  | .satisfies chars, _ => .map (.satisfies chars.holds) fun _ => rfl
  | .character _, _ | .blank, _ | .digit, _ => .map (.satisfies _) fun _ => rfl
  | .blanks, _ => by
    refine .map .blanks fun cs => ?_
    rw [text_list]
    exact List.flatMap_map ..
  | .literal text, _ => .map (.literal text) fun cs => (text_chars cs).symm
  | .failure, _ => .failure
  | .unit _, h => .unit (List.isEmpty_iff.1 h)
  | .ofOption value, h => .ofOption ((text_present value).trans (List.isEmpty_iff.1 h))
  | .choice p q, h => by
    obtain ⟨hp, hq⟩ := Bool.and_eq_true_iff.1 h
    exact .choice (verbatim_of_isVerbatim p hp) (verbatim_of_isVerbatim q hq)
  | .pair p q, h => by
    obtain ⟨hp, hq⟩ := Bool.and_eq_true_iff.1 h
    exact .map (.pair (verbatim_of_isVerbatim p hp) (verbatim_of_isVerbatim q hq)) fun _ => rfl
  | .many p, h => .map (.many (verbatim_of_isVerbatim p h)) text_list
  | .many1 p, h => .map (.many1 (verbatim_of_isVerbatim p h)) text_list
  | .optional p, h => .map (.optional (verbatim_of_isVerbatim p h)) text_ofOptional
  | .call name, _ => .call (.named name)

section
variable {definitions : List (String × Recipe)}
  (hdefs : ∀ entry ∈ definitions, entry.2.isVerbatim = true)
include hdefs

theorem verbatim_rules {β : Type} [Textual β] (r : Rule β) (h : Rule.IsNamed β r) :
    Parser.Verbatim Rule.IsNamed (rules registers definitions r) := by
  cases h with
  | named name =>
    rw [rules]
    cases hl : definitions.lookup name with
    | none => exact .failure
    | some recipe =>
      obtain ⟨before, after, rfl, -⟩ := List.lookup_eq_some_iff.1 hl
      exact verbatim_of_isVerbatim _ (hdefs _ (List.mem_append_right _ List.mem_cons_self))

end

end Recipe

/-! ## Texts taken apart -/

section
variable {ρ : Type → Type} {calls : ∀ β : Type, [Textual β] → ρ β → Prop} {rules : Parser.Rules ρ}
  {α : Type} [Textual α]

/-- No character is lost, doubled or moved: the text of the value and the rest make up the text that
was read. -/
theorem Parser.Gives.text_append_rest {p : Parser ρ α} {s rest : List Char} {v : α}
    (hrules : ∀ {β : Type} [Textual β] (r : ρ β), calls β r → Verbatim calls (rules r))
    (hp : Verbatim calls p) (h : Gives rules p s (.matched v rest)) : text v ++ rest = s := by
  obtain ⟨depth, h⟩ := h
  exact run_keeps hrules hp depth s v rest h

end

/-- Blocks in parentheses: the last one is not closed, and is left with the text in it. -/
theorem Parser.Gives.text_append_rest_blocks :
    let blocks : Recipe := .many (.optional (.choice
      (.pair (.character '(') (.pair (.call "blocks") (.character ')'))) (.literal "ab".toList)))
    let block (v : Value) : Value := .some (.pair (.char '(') (.pair v (.char ')')))
    let ab : Value := .some (.text "ab".toList)
    let v : Value := .list [ab, block (.list [ab, block (.list [.none]), .none]), .none]
    Gives (Recipe.rules .standard [("blocks", blocks)]) (Recipe.parser .standard blocks)
        "ab(ab())(aba".toList (.matched v "(aba".toList) ∧
      text v ++ "(aba".toList = "ab(ab())(aba".toList := by
  intro blocks block ab v
  have h : Gives (Recipe.rules .standard [("blocks", blocks)]) (Recipe.parser .standard blocks)
      "ab(ab())(aba".toList (.matched v "(aba".toList) := ⟨5, by with_unfolding_all rfl⟩
  refine ⟨h, Gives.text_append_rest (Recipe.verbatim_rules ?_) (Recipe.verbatim_of_isVerbatim _ ?_) h⟩
  · decide
  · decide

/-- What a verbatim recipe makes of a text consists of the characters of the text. -/
theorem Recipe.toText_append {registers : Registers} {definitions : List (String × Recipe)}
    (hdefs : ∀ entry ∈ definitions, entry.2.isVerbatim = true) {recipe : Recipe}
    (h : recipe.isVerbatim = true) {s rest : List Char} {v : Value}
    (hp : recipe.parse registers definitions s = .matched v rest) : v.toText ++ rest = s := by
  rw [parse, Option.getD_eq_iff] at hp
  obtain hp | ⟨-, hp⟩ := hp
  · exact Parser.run_keeps (verbatim_rules hdefs) (verbatim_of_isVerbatim _ h) _ s v rest hp
  · cases hp

end Reckon
