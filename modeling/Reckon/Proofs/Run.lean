import Reckon.Parser.Denotation

/-!
# Runs that come to an end

`Gives rules p s o`: for some depth of calls the run of `p` on `s` is not cut off, and its outcome
is `o`. This is what "`p` terminates on `s`" means here. The depth has no influence on the outcome:
a run that is not cut off is the same with more depth (`run_mono`), so a parser gives at most one
outcome on a text (`Gives.unique`).

The reason is that `denote` is monotone in the meaning of the rules for the order `Attempt.Le`, in
which the attempt that was cut off lies below all others (`denote_le`).
-/

set_option autoImplicit false

namespace Reckon

namespace Attempt

variable {α β : Type}

/-- `a` was cut off, or is the same as `b`. -/
def Le (a b : Attempt α) : Prop := ∀ o, a = some o → b = some o

theorem le_refl (a : Attempt α) : Le a a := fun _ h => h

theorem none_le (b : Attempt α) : Le none b := fun _ h => nomatch h

/-- A sequence ends where its first part fails, or where the second one ends after a match. -/
theorem andThen_eq_some_iff {a : Attempt α} {next : α → List Char → Attempt β} {o : Outcome β} :
    a.andThen next = some o ↔ (a = some .failed ∧ o = .failed) ∨
      ∃ v rest, a = some (.matched v rest) ∧ next v rest = some o := by
  rcases a with _ | _ | ⟨v, rest⟩
  · simp [andThen]
  · simp [andThen, eq_comm]
  · simp [andThen, and_assoc]

theorem andThen_le {a b : Attempt α} {f g : α → List Char → Attempt β} (h : Le a b)
    (hn : ∀ v rest, Le (f v rest) (g v rest)) : Le (a.andThen f) (b.andThen g) := by
  rcases a with _ | _ | ⟨v, rest⟩
  · exact none_le _
  · rw [h _ rfl]; exact le_refl _
  · rw [h _ rfl]; exact hn v rest

theorem orElse_le {a b : Attempt α} {f g : Unit → Attempt α} (h : Le a b)
    (hn : Le (f ()) (g ())) : Le (a.orElse f) (b.orElse g) := by
  rcases a with _ | _ | ⟨v, rest⟩
  · exact none_le _
  · rw [h _ rfl]; exact hn
  · rw [h _ rfl]; exact le_refl _

theorem map_le {a b : Attempt α} (f : α → β) (h : Le a b) :
    Le (Option.map (Outcome.map f) a) (Option.map (Outcome.map f) b) := by
  rcases a with _ | o
  · exact none_le _
  · rw [h _ rfl]; exact le_refl _

end Attempt

namespace Parser

open Attempt

variable {ρ : Type → Type} {α : Type}

/-! ## The meaning of a parser grows with that of the rules -/

theorem collect_le {p q : List Char → Attempt α} (h : ∀ s, Le (p s) (q s)) (seen : List α)
    (s : List Char) : Le (collect p seen s) (collect q seen s) := by
  fun_induction collect p seen s with
  | case1 seen s hp => exact none_le _
  | case2 seen s hp => rw [collect.eq_def q, h s _ hp]; exact le_refl _
  | case3 seen s value rest hp lt ih =>
    rw [collect.eq_def q, h s _ hp]
    simp only [if_pos lt]
    exact ih
  | case4 seen s value rest hp lt =>
    rw [collect.eq_def q, h s _ hp]
    simp only [if_neg lt]
    exact le_refl _

theorem denote_le {rule rule' : ∀ {β : Type}, ρ β → List Char → Attempt β}
    (h : ∀ {β : Type} (r : ρ β) (s : List Char), Le (rule r s) (rule' r s)) (p : Parser ρ α)
    (s : List Char) : Le (denote rule p s) (denote rule' p s) := by
  induction p generalizing s with
  | item | satisfies | unit | failure | literal => exact le_refl _
  | choice p q ihp ihq => exact orElse_le (ihp s) (ihq s)
  | bind p next ihp ihn => exact andThen_le (ihp s) fun v rest => ihn v rest
  | map p f ih => exact map_le f (ih s)
  | many p ih => exact collect_le ih [] s
  | many1 p ih =>
    refine andThen_le (ih s) fun v rest => ?_
    split
    · exact collect_le ih [v] rest
    · exact le_refl _
  | optional p ih => exact orElse_le (andThen_le (ih s) fun _ _ => le_refl _) (le_refl _)
  | token p ih => exact andThen_le (ih _) fun _ _ => le_refl _
  | pair p q ihp ihq | terminated p q ihp ihq =>
    exact andThen_le (ihp s) fun _ rest => andThen_le (ihq rest) fun _ _ => le_refl _
  | preceded p q ihp ihq => exact andThen_le (ihp s) fun _ rest => ihq rest
  | between l p r ihl ihp ihr =>
    exact andThen_le (ihl s) fun _ rest => andThen_le (ihp rest) fun _ rest =>
      andThen_le (ihr rest) fun _ _ => le_refl _
  | call r => exact h r s

variable {rules : Rules ρ}

theorem unroll_le_succ (depth : Nat) (r : ρ α) (s : List Char) :
    Le (unroll rules depth r s) (unroll rules (depth + 1) r s) := by
  induction depth generalizing α s with
  | zero => exact none_le _
  | succ depth ih => exact denote_le ih (rules r) s

/-- More depth does not change a run that is not cut off. -/
theorem run_mono {n m : Nat} (hnm : n ≤ m) {p : Parser ρ α} {s : List Char} {o : Outcome α}
    (h : run rules n p s = some o) : run rules m p s = some o := by
  induction hnm with
  | refl => exact h
  | step _ ih => exact denote_le (unroll_le_succ _) p s o ih

/-! ## Outcomes -/

/-- The run of `p` on `s` comes to an end, with outcome `o`. -/
def Gives (rules : Rules ρ) (p : Parser ρ α) (s : List Char) (o : Outcome α) : Prop :=
  ∃ depth, run rules depth p s = some o

/-- Two runs, with the depth of the deeper one. -/
theorem Gives.exists_run {β : Type} {p : Parser ρ α} {q : Parser ρ β} {s t : List Char}
    {o : Outcome α} {o' : Outcome β} (hp : Gives rules p s o) (hq : Gives rules q t o') :
    ∃ depth, run rules depth p s = some o ∧ run rules depth q t = some o' := by
  obtain ⟨n, hn⟩ := hp
  obtain ⟨m, hm⟩ := hq
  exact ⟨max n m, run_mono (Nat.le_max_left n m) hn, run_mono (Nat.le_max_right n m) hm⟩

theorem Gives.unique {p : Parser ρ α} {s : List Char} {o o' : Outcome α}
    (h : Gives rules p s o) (h' : Gives rules p s o') : o = o' := by
  obtain ⟨depth, h, h'⟩ := h.exists_run h'
  exact Option.some.inj (h.symm.trans h')

end Parser

end Reckon
