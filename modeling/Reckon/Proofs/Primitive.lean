import Reckon.Proofs.Laws
import Reckon.Proofs.Lexeme

/-!
# Derived parsers

`Parser.primitive` says with `item`, `unit`, `failure`, `choice`, `bind`, `many` and `many1` alone
what the other parsers say in one step. Nothing is said about calls: `primitive content` puts
`content r` in place of a call of `r`.

`denote_primitive` is the induction on the parser. With it, calls can be kept, of rules that are
translated themselves (`run_primitive`); or they can be replaced by what the rules say, as deep as
a run goes (`unroll_le_unfolded`). Both give what the parser gives (`Gives.iff_primitive`).
-/

set_option autoImplicit false

namespace Reckon

namespace Parser

variable {ρ σ : Type → Type} {α β : Type}

/-! ## Translation -/

/-- One character, which has to be of a class. -/
def chosen (holds : Char → Bool) : Parser σ Char :=
  .bind .item fun c => if holds c then .unit c else .failure

/-- The characters of `text`, one after the other, and then `p`. -/
def spelled : (text : List Char) → (p : Parser σ α) → Parser σ α
  | [], p => p
  | c :: text, p => .bind (chosen (· == c)) fun _ => spelled text p

/-- The same parser without derived forms, and with `content r` in place of a call of `r`. -/
def primitive (content : ∀ {β : Type}, ρ β → Parser σ β) : {α : Type} → Parser ρ α → Parser σ α
  | _, item => item
  | _, satisfies holds => chosen holds
  | _, unit value => unit value
  | _, failure => failure
  | _, literal text => spelled text (unit text)
  | _, choice p q => choice (primitive content p) (primitive content q)
  | _, bind p next => bind (primitive content p) fun v => primitive content (next v)
  | _, map p f => bind (primitive content p) fun v => unit (f v)
  | _, many p => many (primitive content p)
  | _, many1 p => many1 (primitive content p)
  | _, optional p => choice (bind (primitive content p) fun v => unit (some v)) (unit none)
  | _, token p =>
    bind (many (chosen Text.isBlank)) fun _ =>
      bind (primitive content p) fun v =>
        bind (many (chosen Text.isBlank)) fun _ => unit v
  | _, pair p q =>
    bind (primitive content p) fun v => bind (primitive content q) fun w => unit (v, w)
  | _, preceded p q => bind (primitive content p) fun _ => primitive content q
  | _, terminated p q =>
    bind (primitive content p) fun v => bind (primitive content q) fun _ => unit v
  | _, between l p r =>
    bind (primitive content l) fun _ =>
      bind (primitive content p) fun v =>
        bind (primitive content r) fun _ => unit v
  | _, call rule => content rule
termination_by structural _ p => p

/-- The parser is built of the primitive ones, and of calls of rules of `calls`. -/
inductive IsPrimitive (calls : ∀ β : Type, σ β → Prop) : ∀ {α : Type}, Parser σ α → Prop
  | item : IsPrimitive calls .item
  | unit {α : Type} (value : α) : IsPrimitive calls (.unit value)
  | failure {α : Type} : IsPrimitive calls (.failure : Parser σ α)
  | choice {α : Type} {p q : Parser σ α} (hp : IsPrimitive calls p) (hq : IsPrimitive calls q) :
      IsPrimitive calls (.choice p q)
  | bind {α β : Type} {p : Parser σ α} {next : α → Parser σ β} (hp : IsPrimitive calls p)
      (hn : ∀ v, IsPrimitive calls (next v)) : IsPrimitive calls (.bind p next)
  | many {α : Type} {p : Parser σ α} (hp : IsPrimitive calls p) : IsPrimitive calls (.many p)
  | many1 {α : Type} {p : Parser σ α} (hp : IsPrimitive calls p) : IsPrimitive calls (.many1 p)
  | call {α : Type} {r : σ α} (hr : calls α r) : IsPrimitive calls (.call r)

section
variable {calls : ∀ β : Type, σ β → Prop}

theorem isPrimitive_chosen (holds : Char → Bool) :
    IsPrimitive calls (chosen holds : Parser σ Char) := by
  refine .bind .item fun c => ?_
  split
  · exact .unit c
  · exact .failure

theorem isPrimitive_spelled (text : List Char) {p : Parser σ α} (hp : IsPrimitive calls p) :
    IsPrimitive calls (spelled text p) := by
  induction text with
  | nil => exact hp
  | cons c text ih => exact .bind (isPrimitive_chosen _) fun _ => ih

theorem isPrimitive_primitive {content : ∀ {β : Type}, ρ β → Parser σ β}
    (h : ∀ {β : Type} (r : ρ β), IsPrimitive calls (content r)) (p : Parser ρ α) :
    IsPrimitive calls (p.primitive content) := by
  induction p with
  | item => exact .item
  | satisfies holds => exact isPrimitive_chosen holds
  | unit value => exact .unit value
  | failure => exact .failure
  | literal text => exact isPrimitive_spelled text (.unit text)
  | choice p q ihp ihq => exact .choice ihp ihq
  | bind p next ihp ihn => exact .bind ihp ihn
  | map p f ih => exact .bind ih fun v => .unit (f v)
  | many p ih => exact .many ih
  | many1 p ih => exact .many1 ih
  | optional p ih => exact .choice (.bind ih fun v => .unit (some v)) (.unit none)
  | token p ih =>
    have hblanks : IsPrimitive calls (.many (chosen Text.isBlank)) := .many (isPrimitive_chosen _)
    exact .bind hblanks fun _ => .bind ih fun v => .bind hblanks fun _ => .unit v
  | pair p q ihp ihq => exact .bind ihp fun v => .bind ihq fun w => .unit (v, w)
  | preceded p q ihp ihq => exact .bind ihp fun _ => ihq
  | terminated p q ihp ihq => exact .bind ihp fun v => .bind ihq fun _ => .unit v
  | between l p r ihl ihp ihr =>
    exact .bind ihl fun _ => .bind ihp fun v => .bind ihr fun _ => .unit v
  | call r => exact h r

end

/-! ## Meaning of a translation -/

section
variable (rule : ∀ {β : Type}, σ β → List Char → Attempt β)

theorem denote_chosen (holds : Char → Bool) (s : List Char) :
    denote rule (chosen holds) s = some (readChar holds s) := by
  cases s with
  | nil => rfl
  | cons c s =>
    simp only [chosen, denote, readChar, Attempt.andThen, if_true]
    split <;> rfl

theorem denote_spelled (text : List Char) (p : Parser σ α) (s : List Char) :
    denote rule (spelled text p) s =
      match stripText text s with
      | none => some .failed
      | some rest => denote rule p rest := by
  induction text generalizing s with
  | nil => rfl
  | cons c text ih =>
    rw [spelled, denote, denote_chosen]
    cases s with
    | nil => rfl
    | cons d s =>
      by_cases h : d = c
      · simp [readChar, stripText, Attempt.andThen, h, ih]
      · simp [readChar, stripText, Attempt.andThen, h]

/-- Blanks one after the other, up to the first other character. -/
theorem repeated_blanks (s : List Char) :
    repeated (denote rule (chosen Text.isBlank)) s =
      some (.matched (s.takeWhile Text.isBlank) (Text.skipBlanks s)) := by
  rw [funext (denote_chosen rule Text.isBlank), repeated_readChar]
  rfl

/-- A translation means what the parser means, if calls mean what is put in their place. -/
theorem denote_primitive (content : ∀ {β : Type}, ρ β → Parser σ β) (p : Parser ρ α)
    (s : List Char) :
    denote rule (p.primitive content) s = denote (fun r => denote rule (content r)) p s := by
  induction p generalizing s with
  | item | unit | failure => rfl
  | satisfies holds => exact denote_chosen rule holds s
  | literal text =>
    rw [primitive, denote_spelled, denote]
    cases stripText text s <;> rfl
  | choice p q ihp ihq => simp only [primitive, denote, ihp, ihq]
  | bind p next ihp ihn =>
    simp only [primitive, denote, ihp]
    congr
    funext v
    exact funext (ihn v)
  | map p f ih => simp only [primitive, denote, ih, Attempt.map_eq_andThen]
  | many p ih | many1 p ih =>
    -- a repetition runs its parser on texts that it finds on the way
    rw [primitive, denote, denote, funext ih]
  | optional p ih => simp only [primitive, denote, ih]
  | token p ih => simp only [primitive, denote, ih, repeated_blanks, Attempt.andThen]
  | preceded p q ihp ihq => rw [primitive, denote, denote, ihp, funext ihq]
  | pair p q ihp ihq | terminated p q ihp ihq => simp only [primitive, denote, ihp, ihq]
  | between l p r ihl ihp ihr => simp only [primitive, denote, ihl, ihp, ihr]
  | call r => rfl

end

/-! ## Calls that are kept -/

/-- What each rule says, without derived forms; the rules go on calling each other. -/
def Rules.primitive (rules : Rules ρ) : Rules ρ := fun r => (rules r).primitive .call

variable {rules : Rules ρ}

theorem unroll_primitive (depth : Nat) (r : ρ α) (s : List Char) :
    unroll (Rules.primitive rules) depth r s = unroll rules depth r s := by
  induction depth generalizing α s with
  | zero => rfl
  | succ depth ih =>
    rw [unroll, unroll, Rules.primitive, denote_primitive]
    congr
    funext β r s
    exact ih r s

theorem run_primitive (depth : Nat) (p : Parser ρ α) (s : List Char) :
    run (Rules.primitive rules) depth (p.primitive .call) s = run rules depth p s := by
  rw [run, run, denote_primitive]
  congr
  funext β r s
  exact unroll_primitive depth r s

/-! ## Calls that are replaced -/

/-- What a rule says, with what the rules say in place of its calls, `depth` deep. -/
def unfolded (rules : Rules ρ) : (depth : Nat) → {β : Type} → ρ β → Parser σ β
  | 0, _, _ => failure
  | depth + 1, _, r => (rules r).primitive (unfolded rules depth)

theorem isPrimitive_unfolded {calls : ∀ β : Type, σ β → Prop} (depth : Nat) (r : ρ α) :
    IsPrimitive calls (unfolded rules depth r) := by
  induction depth generalizing α with
  | zero => exact .failure
  | succ depth ih => exact isPrimitive_primitive ih (rules r)

/-- A call that is not cut off is the same as what is put in its place. -/
theorem unroll_le_unfolded (rule : ∀ {β : Type}, σ β → List Char → Attempt β) (depth : Nat)
    (r : ρ α) (s : List Char) :
    Attempt.Le (unroll rules depth r s) (denote rule (unfolded rules depth r) s) := by
  induction depth generalizing α s with
  | zero => exact Attempt.none_le _
  | succ depth ih =>
    rw [unroll, unfolded, denote_primitive]
    exact denote_le ih (rules r) s

/-! ## Outcomes -/

/-- A parser and its translation come to an end on the same texts, with the same outcomes. Where the
parser ends, the calls may also be replaced, so that nothing but primitive parsers is left: every
depth from some depth on gives that outcome, whatever calls would mean. -/
theorem Gives.iff_primitive (p : Parser ρ α) (s : List Char) (o : Outcome α) :
    (∀ {β : Type} (q : Parser ρ β), IsPrimitive (fun _ _ => True) (q.primitive .call)) ∧
    (Gives rules p s o ↔ Gives (Rules.primitive rules) (p.primitive .call) s o) ∧
    (Gives rules p s o → ∃ depth, ∀ n, depth ≤ n →
      IsPrimitive (fun _ _ => False) (p.primitive (unfolded rules n) : Parser σ α) ∧
      ∀ rule : ∀ {β : Type}, σ β → List Char → Attempt β,
        denote rule (p.primitive (unfolded rules n)) s = some o) := by
  refine ⟨fun q => isPrimitive_primitive (fun r => .call trivial) q, ?_, ?_⟩
  · simp only [Gives, run_primitive]
  · rintro ⟨depth, h⟩
    refine ⟨depth, fun n hn => ⟨isPrimitive_primitive (isPrimitive_unfolded n) p, ?_⟩⟩
    intro rule
    have hrun : denote (unroll rules n) p s = some o := run_mono hn h
    rw [denote_primitive]
    exact denote_le (unroll_le_unfolded rule n) p s o hrun

/-- The parenthesis that is not closed is left. Without calls there is nothing that a rule could
say. -/
theorem Gives.iff_primitive_unclosed :
    let s := " ( ONE + 2 ) * ( 3".toList
    let p : Parser Grammar.Rule Word := Grammar.expression .standard
    let rules : Rules Grammar.Rule := Grammar.rules .standard
    Gives rules p s (.matched 3 "* ( 3".toList) ∧
      Gives (Rules.primitive rules) (p.primitive .call) s (.matched 3 "* ( 3".toList) ∧
      ∃ q : Parser (fun _ => Empty) Word, IsPrimitive (fun _ _ => False) q ∧
        denote (fun r => nomatch r) q s = some (.matched 3 "* ( 3".toList) := by
  intro s p rules
  have h : Gives rules p s (.matched 3 "* ( 3".toList) := ⟨18, by decide +kernel⟩
  obtain ⟨-, hcalls, hreplaced⟩ := Gives.iff_primitive (σ := fun _ => Empty) p s
    (.matched 3 "* ( 3".toList)
  obtain ⟨depth, hdepth⟩ := hreplaced h
  obtain ⟨hq, hdenote⟩ := hdepth depth (Nat.le_refl depth)
  exact ⟨h, hcalls.1 h, _, hq, hdenote _⟩

end Parser

end Reckon
