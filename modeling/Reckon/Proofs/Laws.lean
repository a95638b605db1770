import Reckon.Proofs.Run

/-!
# Laws of sequence and choice

Two parsers are alike on a text if both come to an end on it, with the same outcome, or neither does
(`Parser.Alike`). The laws that allow a grammar to be written in another way say which parsers are
alike. Most of them hold of every single run, however deep calls may nest (`alike_of_run_eq`), since
they hold of attempts: `Attempt.andThen` is associative, with a match that changes nothing as its
unit; `Attempt.orElse` is associative, with a failure as its unit; and what two alternatives begin
with can be taken out of both (`Attempt.orElse_andThen`).

A choice that has been made stands. So it may be made before or after what comes next only where
what comes next does not fail (`Attempt.andThen_orElse`), and a failure behind it is a failure of
the whole (`Gives.choice_committed`).

Main result: `Parser.alike_laws`.
-/

set_option autoImplicit false

namespace Reckon

/-! ## Attempts -/

namespace Attempt

variable {α β γ : Type}

theorem map_eq_andThen (a : Attempt α) (f : α → β) :
    Option.map (Outcome.map f) a = a.andThen fun v rest => some (.matched (f v) rest) := by
  rcases a with _ | _ | ⟨v, rest⟩ <;> rfl

theorem andThen_matched (a : Attempt α) :
    (a.andThen fun v rest => some (.matched v rest)) = a := by
  rcases a with _ | _ | ⟨v, rest⟩ <;> rfl

theorem andThen_assoc (a : Attempt α) (f : α → List Char → Attempt β)
    (g : β → List Char → Attempt γ) :
    (a.andThen f).andThen g = a.andThen fun v rest => (f v rest).andThen g := by
  rcases a with _ | _ | ⟨v, rest⟩ <;> rfl

theorem orElse_failed (a : Attempt α) : (a.orElse fun _ => some .failed) = a := by
  rcases a with _ | _ | ⟨v, rest⟩ <;> rfl

theorem orElse_assoc (a b c : Attempt α) :
    ((a.orElse fun _ => b).orElse fun _ => c) = a.orElse fun _ => b.orElse fun _ => c := by
  rcases a with _ | _ | ⟨v, rest⟩ <;> rfl

/-- What two alternatives begin with is run once. -/
theorem orElse_andThen (a : Attempt α) (f g : α → List Char → Attempt β) :
    ((a.andThen f).orElse fun _ => a.andThen g) =
      a.andThen fun v rest => (f v rest).orElse fun _ => g v rest := by
  rcases a with _ | _ | ⟨v, rest⟩ <;> rfl

/-- What comes after a choice can be made part of both alternatives, if it does not fail after a
match of the first one. -/
theorem andThen_orElse {a : Attempt α} {f : α → List Char → Attempt β}
    (h : ∀ v rest, a = some (.matched v rest) → f v rest ≠ some .failed) (b : Attempt α) :
    ((a.orElse fun _ => b).andThen f) = (a.andThen f).orElse fun _ => b.andThen f := by
  rcases a with _ | _ | ⟨v, rest⟩
  · rfl
  · rfl
  · have hf : f v rest ≠ some .failed := h v rest rfl
    show f v rest = (f v rest).orElse fun _ => b.andThen f
    generalize f v rest = m at hf
    rcases m with _ | _ | ⟨w, last⟩
    · rfl
    · exact absurd rfl hf
    · rfl

end Attempt

namespace Parser

variable {ρ : Type → Type} {rules : Rules ρ} {α β γ : Type} {s : List Char}

/-! ## Runs in sequence -/

theorem run_bind (depth : Nat) (p : Parser ρ α) (next : α → Parser ρ β) (s : List Char) :
    run rules depth (.bind p next) s =
      (run rules depth p s).andThen fun v => run rules depth (next v) := rfl

theorem run_choice (depth : Nat) (p q : Parser ρ α) (s : List Char) :
    run rules depth (.choice p q) s =
      (run rules depth p s).orElse fun _ => run rules depth q s := rfl

theorem run_map (depth : Nat) (p : Parser ρ α) (f : α → β) (s : List Char) :
    run rules depth (.map p f) s =
      (run rules depth p s).andThen fun v rest => some (.matched (f v) rest) :=
  Attempt.map_eq_andThen _ f

theorem Gives.bind {p : Parser ρ α} {next : α → Parser ρ β} {v : α} {rest : List Char}
    {o : Outcome β} (hp : Gives rules p s (.matched v rest)) (hn : Gives rules (next v) rest o) :
    Gives rules (.bind p next) s o := by
  obtain ⟨depth, hp, hn⟩ := hp.exists_run hn
  refine ⟨depth, ?_⟩
  rw [run_bind, hp]
  exact hn

theorem Gives.choice_left {p : Parser ρ α} {v : α} {rest : List Char}
    (hp : Gives rules p s (.matched v rest)) (q : Parser ρ α) :
    Gives rules (.choice p q) s (.matched v rest) := by
  obtain ⟨depth, hp⟩ := hp
  refine ⟨depth, ?_⟩
  rw [run_choice, hp]
  rfl

/-- After a match of the first alternative the second one is not tried, not even if what comes after
the choice fails. -/
theorem Gives.choice_committed {p : Parser ρ α} {next : α → Parser ρ β} {v : α}
    {rest : List Char} (hp : Gives rules p s (.matched v rest))
    (hn : Gives rules (next v) rest .failed) (q : Parser ρ α) :
    Gives rules (.bind (.choice p q) next) s .failed :=
  (hp.choice_left q).bind hn

/-! ## Parsers that are alike -/

/-- On `s` both parsers come to an end, with the same outcome, or neither does. -/
def Alike (rules : Rules ρ) (p q : Parser ρ α) (s : List Char) : Prop :=
  ∀ o, Gives rules p s o ↔ Gives rules q s o

theorem alike_of_run_eq {p q : Parser ρ α}
    (h : ∀ depth, run rules depth p s = run rules depth q s) : Alike rules p q s := by
  intro o
  simp only [Gives, h]

theorem Gives.alike {p q : Parser ρ α} {o : Outcome α} (hp : Gives rules p s o)
    (hq : Gives rules q s o) : Alike rules p q s := by
  intro o'
  constructor
  · intro h
    rwa [h.unique hp]
  · intro h
    rwa [h.unique hq]

theorem alike_unit_bind (v : α) (next : α → Parser ρ β) :
    Alike rules (.bind (.unit v) next) (next v) s := alike_of_run_eq fun _ => rfl

theorem alike_bind_unit (p : Parser ρ α) : Alike rules (.bind p .unit) p s :=
  alike_of_run_eq fun _ => Attempt.andThen_matched _

theorem alike_bind_assoc (p : Parser ρ α) (f : α → Parser ρ β) (g : β → Parser ρ γ) :
    Alike rules (.bind (.bind p f) g) (.bind p fun v => .bind (f v) g) s :=
  alike_of_run_eq fun _ => Attempt.andThen_assoc _ _ _

theorem alike_failure_bind (next : α → Parser ρ β) :
    Alike rules (.bind .failure next) .failure s := alike_of_run_eq fun _ => rfl

/-- Failure after a parser is a failure, if the parser comes to an end. -/
theorem alike_bind_failure {p : Parser ρ α} (h : ∃ o, Gives rules p s o) :
    Alike rules (.bind p fun _ => .failure) (.failure : Parser ρ β) s := by
  obtain ⟨o, depth, hp⟩ := h
  have hbind : Gives rules (.bind p fun _ => (.failure : Parser ρ β)) s .failed := by
    refine ⟨depth, ?_⟩
    rw [run_bind, hp]
    cases o <;> rfl
  exact hbind.alike ⟨depth, rfl⟩

theorem alike_failure_choice (p : Parser ρ α) : Alike rules (.choice .failure p) p s :=
  alike_of_run_eq fun _ => rfl

theorem alike_choice_failure (p : Parser ρ α) : Alike rules (.choice p .failure) p s :=
  alike_of_run_eq fun _ => Attempt.orElse_failed _

theorem alike_choice_assoc (p q r : Parser ρ α) :
    Alike rules (.choice (.choice p q) r) (.choice p (.choice q r)) s :=
  alike_of_run_eq fun _ => Attempt.orElse_assoc _ _ _

/-- What both alternatives begin with can be taken out of them. -/
theorem alike_choice_bind (p : Parser ρ α) (f g : α → Parser ρ β) :
    Alike rules (.choice (.bind p f) (.bind p g)) (.bind p fun v => .choice (f v) (g v)) s :=
  alike_of_run_eq fun _ => Attempt.orElse_andThen _ _ _

/-- What comes after a choice can be made part of both alternatives where the first one fails, and
where the whole matches. -/
theorem alike_bind_choice {p q : Parser ρ α} {next : α → Parser ρ β}
    (h : Gives rules p s .failed ∨
      ∃ w last, Gives rules (.bind (.choice p q) next) s (.matched w last)) :
    Alike rules (.bind (.choice p q) next) (.choice (.bind p next) (.bind q next)) s := by
  refine alike_of_run_eq fun depth => Attempt.andThen_orElse ?_ _
  intro v rest hp hn
  have hp : Gives rules p s (.matched v rest) := ⟨depth, hp⟩
  rcases h with hfail | ⟨w, last, hmatch⟩
  · cases hfail.unique hp
  · cases hmatch.unique (hp.choice_committed ⟨depth, hn⟩ q)

/-- The laws of sequence and choice. Sequence is associative, with `unit` as its unit, and fails
where a part of it fails; choice is associative, with `failure` as its unit; what both alternatives
begin with can be taken out of them. What comes after a choice can be made part of both alternatives
where the first one fails or the whole matches. Where it fails after a match of the first one, the
whole fails, whatever the second one would do. -/
theorem alike_laws (rules : Rules ρ) (s : List Char) :
    (∀ (v : α) (k : α → Parser ρ β), Alike rules (.bind (.unit v) k) (k v) s) ∧
    (∀ p : Parser ρ α, Alike rules (.bind p .unit) p s) ∧
    (∀ (p : Parser ρ α) (k₁ : α → Parser ρ β) (k₂ : β → Parser ρ γ),
      Alike rules (.bind (.bind p k₁) k₂) (.bind p fun v => .bind (k₁ v) k₂) s) ∧
    (∀ k : α → Parser ρ β, Alike rules (.bind .failure k) .failure s) ∧
    (∀ p : Parser ρ α, (∃ o, Gives rules p s o) →
      Alike rules (.bind p fun _ => .failure) (.failure : Parser ρ β) s) ∧
    (∀ p : Parser ρ α,
      Alike rules (.choice .failure p) p s ∧ Alike rules (.choice p .failure) p s) ∧
    (∀ p q r : Parser ρ α, Alike rules (.choice (.choice p q) r) (.choice p (.choice q r)) s) ∧
    (∀ (p : Parser ρ α) (k₁ k₂ : α → Parser ρ β),
      Alike rules (.choice (.bind p k₁) (.bind p k₂)) (.bind p fun v => .choice (k₁ v) (k₂ v)) s) ∧
    (∀ (p q : Parser ρ α) (k : α → Parser ρ β),
      (Gives rules p s .failed ∨
        ∃ w last, Gives rules (.bind (.choice p q) k) s (.matched w last)) →
      Alike rules (.bind (.choice p q) k) (.choice (.bind p k) (.bind q k)) s) ∧
    ∀ (p q : Parser ρ α) (k : α → Parser ρ β) (v : α) (rest : List Char),
      Gives rules p s (.matched v rest) → Gives rules (k v) rest .failed →
      Gives rules (.bind (.choice p q) k) s .failed :=
  ⟨alike_unit_bind, alike_bind_unit, alike_bind_assoc, alike_failure_bind,
    fun _ => alike_bind_failure, fun p => ⟨alike_failure_choice p, alike_choice_failure p⟩,
    alike_choice_assoc, alike_choice_bind, fun _ _ _ => alike_bind_choice,
    fun _ q _ _ _ hp hk => hp.choice_committed hk q⟩

/-- On `ab` the first alternative takes all of the text, and no `b` is left for what comes next: the
whole fails there, and the alternatives apart do not. -/
theorem alike_laws_committed :
    let rules : Rules fun _ => Empty := nofun
    let p : Parser (fun _ => Empty) (List Char) := .literal ['a', 'b']
    let q : Parser (fun _ => Empty) (List Char) := .literal ['a']
    let k : List Char → Parser (fun _ => Empty) Char := fun _ => .character 'b'
    let whole := Parser.bind (.choice p q) k
    let apart := Parser.choice (.bind p k) (.bind q k)
    (Gives rules p ['a', 'b'] (.matched ['a', 'b'] []) ∧ Gives rules (k ['a', 'b']) [] .failed ∧
      Gives rules whole ['a', 'b'] .failed ∧ Gives rules apart ['a', 'b'] (.matched 'b' [])) ∧
    (Gives rules whole ['a', 'b', 'b'] (.matched 'b' []) ∧
      Alike rules whole apart ['a', 'b', 'b']) ∧
    (Gives rules p ['a'] .failed ∧ Alike rules whole apart ['a']) ∧
    (∃ o, Gives rules p ['a'] o) ∧
      Alike rules (.bind p fun _ => .failure) (.failure : Parser (fun _ => Empty) Char) ['a'] := by
  intro rules p q k whole apart
  have hp : Gives rules p ['a', 'b'] (.matched ['a', 'b'] []) := ⟨0, by decide⟩
  have hk : Gives rules (k ['a', 'b']) [] .failed := ⟨0, by decide⟩
  have hwhole : Gives rules whole ['a', 'b', 'b'] (.matched 'b' []) := ⟨0, by decide⟩
  have hfail : Gives rules p ['a'] .failed := ⟨0, by decide⟩
  obtain ⟨-, -, -, -, -, -, -, -, -, hcommitted⟩ :=
    alike_laws (α := List Char) (β := Char) (γ := Char) rules ['a', 'b']
  obtain ⟨-, -, -, -, -, -, -, -, hmatch, -⟩ :=
    alike_laws (α := List Char) (β := Char) (γ := Char) rules ['a', 'b', 'b']
  obtain ⟨-, -, -, -, hfailure, -, -, -, hfirst, -⟩ :=
    alike_laws (α := List Char) (β := Char) (γ := Char) rules ['a']
  exact ⟨⟨hp, hk, hcommitted p q k _ _ hp hk, ⟨0, by decide⟩⟩,
    ⟨hwhole, hmatch p q k (.inr ⟨'b', [], hwhole⟩)⟩, ⟨hfail, hfirst p q k (.inl hfail)⟩,
    ⟨.failed, hfail⟩, hfailure p ⟨.failed, hfail⟩⟩

end Parser

end Reckon
