import Mathlib.Data.List.Chain
import Mathlib.Logic.Relation
import Reckon.Proofs.Run

/-!
# What a run starts

A run of a parser on a text starts other parsers, on the same text or on what is left of it.
`Starts rule i j` lists them, as `denote` goes through them: the parser of `j` is started by that of
`i` itself, and `rule` says what the rules do. The closure of `Starts` says what is started anywhere
in a run. Calls are not entered: what a called rule starts belongs to a run of its own.

* `denote_ne_none`: a run is cut off only if one of its calls is. So `Starts` leaves no call out.
* `Descends rules p`: whatever `p` is started on, it calls rules on shorter texts only.
* `run_ne_none`, `length_le_of_isChain`: if that holds of all rules, a run that may nest as deep as
  the text is long is not cut off, and no chain of calls, each made by the one before, is longer.
-/

set_option autoImplicit false

namespace Reckon

open Relation (ReflTransGen TransGen)

/-! ## Attempts that are not cut off -/

namespace Attempt

variable {α β : Type}

theorem andThen_ne_none {a : Attempt α} {next : α → List Char → Attempt β} (h : a ≠ none)
    (hn : ∀ v rest, a = some (.matched v rest) → next v rest ≠ none) : a.andThen next ≠ none := by
  rcases a with _ | _ | ⟨v, rest⟩
  · exact absurd rfl h
  · exact Option.some_ne_none _
  · exact hn v rest rfl

theorem orElse_ne_none {a : Attempt α} {next : Unit → Attempt α} (h : a ≠ none)
    (hn : a = some .failed → next () ≠ none) : a.orElse next ≠ none := by
  rcases a with _ | _ | ⟨v, rest⟩
  · exact absurd rfl h
  · exact hn rfl
  · exact Option.some_ne_none _

end Attempt

namespace Parser

variable {ρ : Type → Type} {α β : Type}

/-- A repetition is not cut off, if `p` is not on any text that it comes to. -/
theorem repeated_ne_none {p : List Char → Attempt α} {P : List Char → Prop} {s : List Char}
    (hs : P s) (h : ∀ t, P t → p t ≠ none)
    (hn : ∀ t v rest, P t → p t = some (.matched v rest) → rest.length < t.length → P rest) :
    repeated p s ≠ none := by
  induction hlen : s.length using Nat.strongRecOn generalizing s with
  | ind n ih =>
    subst hlen
    rw [repeated_eq]
    split
    · rename_i hp
      exact absurd hp (h s hs)
    · exact Option.some_ne_none _
    · rename_i v rest hp
      split
      · rename_i lt
        exact Attempt.andThen_ne_none (ih _ lt (hn s v rest hs hp lt) rfl) fun _ _ _ =>
          Option.some_ne_none _
      · exact Option.some_ne_none _

/-! ## What is started -/

/-- A parser, and the text that it is started on. -/
structure Start (ρ : Type → Type) where
  {α : Type}
  parser : Parser ρ α
  text : List Char

/-- The parser of `i`, on its text, starts that of `j` itself. What comes later is started only if
what comes before it lets the run go on. -/
def Starts (rule : ∀ {β : Type}, ρ β → List Char → Attempt β) (i j : Start ρ) : Prop :=
  match i with
  | ⟨item, _⟩ | ⟨satisfies _, _⟩ | ⟨unit _, _⟩ | ⟨failure, _⟩ | ⟨literal _, _⟩ | ⟨call _, _⟩ =>
    False
  | ⟨choice p q, s⟩ => j = ⟨p, s⟩ ∨ denote rule p s = some .failed ∧ j = ⟨q, s⟩
  | ⟨bind p next, s⟩ =>
    j = ⟨p, s⟩ ∨ ∃ v rest, denote rule p s = some (.matched v rest) ∧ j = ⟨next v, rest⟩
  | ⟨map p _, s⟩ | ⟨optional p, s⟩ => j = ⟨p, s⟩
  -- a round that made progress is followed by a repetition on what it left
  | ⟨many p, s⟩ | ⟨many1 p, s⟩ =>
    j = ⟨p, s⟩ ∨ ∃ v rest, denote rule p s = some (.matched v rest) ∧
      rest.length < s.length ∧ j = ⟨many p, rest⟩
  | ⟨token p, s⟩ => j = ⟨p, Text.skipBlanks s⟩
  | ⟨pair p q, s⟩ | ⟨preceded p q, s⟩ | ⟨terminated p q, s⟩ =>
    j = ⟨p, s⟩ ∨ ∃ v rest, denote rule p s = some (.matched v rest) ∧ j = ⟨q, rest⟩
  | ⟨between l p r, s⟩ =>
    j = ⟨l, s⟩ ∨ ∃ v rest, denote rule l s = some (.matched v rest) ∧
      (j = ⟨p, rest⟩ ∨ ∃ w last, denote rule p rest = some (.matched w last) ∧ j = ⟨r, last⟩)

section
variable {rule : ∀ {β : Type}, ρ β → List Char → Attempt β} {i j : Start ρ}

/-- `P` holds of all that is started in the run of `i`, `i` included. -/
def Throughout (rule : ∀ {β : Type}, ρ β → List Char → Attempt β) (i : Start ρ)
    (P : Start ρ → Prop) : Prop :=
  ∀ j, ReflTransGen (Starts rule) i j → P j

theorem throughout_of_starts {P : Start ρ → Prop} (hi : P i)
    (h : ∀ j, Starts rule i j → Throughout rule j P) : Throughout rule i P := by
  intro j hij
  obtain rfl | ⟨k, hk, hkj⟩ := hij.cases_head
  · exact hi
  · exact h k hk j hkj

theorem throughout_call {P : Start ρ → Prop} {r : ρ α} {t : List Char} (h : P ⟨call r, t⟩) :
    Throughout rule ⟨call r, t⟩ P := throughout_of_starts h fun _ hj => hj.elim

theorem Throughout.mono {P Q : Start ρ → Prop} (h : Throughout rule i P) (hPQ : ∀ j, P j → Q j) :
    Throughout rule i Q := fun j hj => hPQ j (h j hj)

/-- All calls that the run of `i` makes come to an end. -/
def CallsEnd (rule : ∀ {β : Type}, ρ β → List Char → Attempt β) (i : Start ρ) : Prop :=
  ∀ {β : Type} (r : ρ β) (t : List Char), ReflTransGen (Starts rule) i ⟨call r, t⟩ →
    rule r t ≠ none

theorem CallsEnd.of_starts (h : CallsEnd rule i) (hij : Starts rule i j) : CallsEnd rule j :=
  fun r t hj => h r t (.head hij hj)

theorem denote_many_ne_none {p : Parser ρ α} {s : List Char} (h : CallsEnd rule ⟨many p, s⟩)
    (ih : ∀ t, CallsEnd rule ⟨p, t⟩ → denote rule p t ≠ none) : denote rule (many p) s ≠ none :=
  repeated_ne_none (P := fun t => CallsEnd rule ⟨many p, t⟩) h
    (fun t ht => ih t (ht.of_starts (.inl rfl)))
    fun _ v rest ht hp lt => ht.of_starts (.inr ⟨v, rest, hp, lt, rfl⟩)

/-- A run is cut off only if one of its calls is. -/
theorem denote_ne_none {p : Parser ρ α} {s : List Char} (h : CallsEnd rule ⟨p, s⟩) :
    denote rule p s ≠ none := by
  induction p generalizing s with
  | item | satisfies | unit | failure | literal => exact Option.some_ne_none _
  | choice p q ihp ihq =>
    exact Attempt.orElse_ne_none (ihp (h.of_starts (.inl rfl))) fun hp =>
      ihq (h.of_starts (.inr ⟨hp, rfl⟩))
  | bind p next ihp ihn =>
    exact Attempt.andThen_ne_none (ihp (h.of_starts (.inl rfl))) fun v rest hp =>
      ihn v (h.of_starts (.inr ⟨v, rest, hp, rfl⟩))
  | map p f ih =>
    rw [denote, ne_eq, Option.map_eq_none_iff]
    exact ih (h.of_starts rfl)
  | many p ih => exact denote_many_ne_none h fun t => ih
  | many1 p ih =>
    rw [denote, repeated1_eq]
    refine Attempt.andThen_ne_none (ih (h.of_starts (.inl rfl))) fun v rest hp => ?_
    split
    · rename_i lt
      have hrest : CallsEnd rule ⟨many p, rest⟩ := h.of_starts (.inr ⟨v, rest, hp, lt, rfl⟩)
      exact Attempt.andThen_ne_none (denote_many_ne_none hrest fun t => ih) fun _ _ _ =>
        Option.some_ne_none _
    · exact Option.some_ne_none _
  | optional p ih =>
    refine Attempt.orElse_ne_none ?_ fun _ => Option.some_ne_none _
    exact Attempt.andThen_ne_none (ih (h.of_starts rfl)) fun _ _ _ => Option.some_ne_none _
  | token p ih =>
    exact Attempt.andThen_ne_none (ih (h.of_starts rfl)) fun _ _ _ => Option.some_ne_none _
  | pair p q ihp ihq | terminated p q ihp ihq =>
    refine Attempt.andThen_ne_none (ihp (h.of_starts (.inl rfl))) fun v rest hp => ?_
    exact Attempt.andThen_ne_none (ihq (h.of_starts (.inr ⟨v, rest, hp, rfl⟩))) fun _ _ _ =>
      Option.some_ne_none _
  | preceded p q ihp ihq =>
    exact Attempt.andThen_ne_none (ihp (h.of_starts (.inl rfl))) fun v rest hp =>
      ihq (h.of_starts (.inr ⟨v, rest, hp, rfl⟩))
  | between l p r ihl ihp ihr =>
    refine Attempt.andThen_ne_none (ihl (h.of_starts (.inl rfl))) fun u rest hl => ?_
    have hp : CallsEnd rule ⟨p, rest⟩ := h.of_starts (.inr ⟨u, rest, hl, .inl rfl⟩)
    refine Attempt.andThen_ne_none (ihp hp) fun v last hv => ?_
    have hr : CallsEnd rule ⟨r, last⟩ :=
      h.of_starts (.inr ⟨u, rest, hl, .inr ⟨v, last, hv, rfl⟩⟩)
    exact Attempt.andThen_ne_none (ihr hr) fun _ _ _ => Option.some_ne_none _
  | call r => exact h r s .refl

end

/-! ## Parsers that neither call nor choose -/

/-- No calls and no choices, whatever the run gives. -/
def Plain : {α : Type} → Parser ρ α → Prop
  | _, item | _, satisfies _ | _, unit _ | _, failure | _, literal _ => True
  | _, choice _ _ | _, call _ => False
  | _, bind p next => Plain p ∧ ∀ v, Plain (next v)
  | _, map p _ | _, many p | _, many1 p | _, optional p | _, token p => Plain p
  | _, pair p q | _, preceded p q | _, terminated p q => Plain p ∧ Plain q
  | _, between l p r => Plain l ∧ Plain p ∧ Plain r
termination_by structural _ p => p

theorem plain_ofOption (value? : Option α) : Plain (ofOption value? : Parser ρ α) := by
  cases value? <;> trivial

theorem plain_of_starts {rule : ∀ {β : Type}, ρ β → List Char → Attempt β} {i j : Start ρ}
    (h : Starts rule i j) (hi : Plain i.parser) : Plain j.parser := by
  obtain ⟨p, s⟩ := i
  cases p with
  | item | satisfies | unit | failure | literal | call => exact h.elim
  | choice p q => exact hi.elim
  | bind p next =>
    obtain rfl | ⟨v, rest, -, rfl⟩ := h
    · exact hi.1
    · exact hi.2 v
  | map p f | optional p | token p =>
    obtain rfl := h
    exact hi
  | many p | many1 p =>
    obtain rfl | ⟨v, rest, -, -, rfl⟩ := h
    · exact hi
    · exact hi
  | pair p q | preceded p q | terminated p q =>
    obtain rfl | ⟨v, rest, -, rfl⟩ := h
    · exact hi.1
    · exact hi.2
  | between l p r =>
    obtain rfl | ⟨u, rest, -, rfl | ⟨v, last, -, rfl⟩⟩ := h
    · exact hi.1
    · exact hi.2.1
    · exact hi.2.2

theorem throughout_plain {rule : ∀ {β : Type}, ρ β → List Char → Attempt β} {p : Parser ρ α}
    (h : Plain p) (s : List Char) : Throughout rule ⟨p, s⟩ fun j => Plain j.parser := by
  intro j hj
  induction hj with
  | refl => exact h
  | tail _ hstart ih => exact plain_of_starts hstart ih

/-! ## Calls on shorter texts -/

/-- However deep calls may nest, a run of `p` makes its calls on texts that are shorter than the one
that `p` is started on. -/
def Descends (rules : Rules ρ) (p : Parser ρ α) : Prop :=
  ∀ (depth : Nat) (s : List Char) {β : Type} (r : ρ β) (t : List Char),
    ReflTransGen (Starts (unroll rules depth)) ⟨p, s⟩ ⟨call r, t⟩ → t.length < s.length

/-- The run of `i` calls a rule, and `j` is what the rule says, on the text of the call. -/
def Enters (rules : Rules ρ) (i j : Start ρ) : Prop :=
  ∃ (depth : Nat) (β : Type) (r : ρ β),
    ReflTransGen (Starts (unroll rules depth)) i ⟨call r, j.text⟩ ∧ j = ⟨rules r, j.text⟩

section
variable {rules : Rules ρ} (h : ∀ {β : Type} (r : ρ β), Descends rules (rules r))
include h

/-- A run is not cut off if calls may nest as deep as the text is long. -/
theorem run_ne_none {p : Parser ρ α} (hp : Descends rules p) {depth : Nat} {s : List Char}
    (hs : s.length ≤ depth) : run rules depth p s ≠ none := by
  induction depth generalizing α s with
  | zero =>
    refine denote_ne_none fun r t hr => ?_
    have hlt : t.length < s.length := hp 0 s r t hr
    omega
  | succ depth ih =>
    refine denote_ne_none fun r t hr => ?_
    have hlt : t.length < s.length := hp (depth + 1) s r t hr
    exact ih (h r) (by omega)

/-- Calls that are made one by the other nest no deeper than the text is long. -/
theorem length_le_of_isChain {p : Parser ρ α} (hp : Descends rules p) {s : List Char}
    {calls : List (Start ρ)} (hc : List.IsChain (Enters rules) (⟨p, s⟩ :: calls)) :
    calls.length ≤ s.length := by
  induction calls generalizing α s with
  | nil => exact Nat.zero_le _
  | cons j calls ih =>
    obtain ⟨⟨depth, β, r, hr, hj⟩, hrest⟩ := List.isChain_cons_cons.1 hc
    have hlt : j.text.length < s.length := hp depth s r j.text hr
    rw [hj] at hrest
    have hle : calls.length ≤ j.text.length := ih (h r) hrest
    rw [List.length_cons]
    omega

end

end Parser

end Reckon
