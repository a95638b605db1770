import Reckon.Proofs.Sentence

/-!
# Where runs end

A text that is cut in two may cut a run of characters of one class. `Parted holds a b` states that
it does not: then the runs of `a` are the same whatever comes after it
(`takeWhile_append_of_parted`), and a lexeme is read to the cut (`Grammar.parse_lexeme_append`).
`IsMaximalRun holds before run after` states that `run` is a whole run where it stands: it goes on
neither to the left nor to the right.
-/

set_option autoImplicit false

namespace Reckon

variable {holds : Char → Bool} {a b z : List Char}

/-! ## Cuts between runs -/

/-- No run of the class goes on from `a` to `b`. -/
def Parted (holds : Char → Bool) (a b : List Char) : Prop :=
  ∀ c ∈ a.getLast?, ∀ d ∈ b.head?, ¬ (holds c = true ∧ holds d = true)

instance (holds : Char → Bool) (a b : List Char) : Decidable (Parted holds a b) :=
  decidable_of_iff
    ((a.getLast?.all fun c => b.head?.all fun d => !(holds c && holds d)) = true) (by
    simp only [Parted, Option.all_eq_true, Bool.not_eq_true', ← Bool.and_eq_true,
      Bool.not_eq_true]
    rfl)

theorem parted_left (h : ∀ c ∈ a.getLast?, holds c = false) : Parted holds a b := by
  rintro c hc d - ⟨hc', -⟩
  rw [h c hc] at hc'
  cases hc'

theorem parted_right (h : ∀ d ∈ b.head?, holds d = false) : Parted holds a b := by
  rintro c - d hd ⟨-, hd'⟩
  rw [h d hd] at hd'
  cases hd'

theorem Parted.of_suffix {p : List Char} (h : Parted holds a z) (hp : p <:+ a) :
    Parted holds p z := by
  obtain ⟨q, rfl⟩ := hp
  intro c hc
  refine h c ?_
  rw [List.getLast?_append, hc]
  rfl

/-- A run that starts in front of the cut ends there. -/
theorem takeWhile_append_of_parted {c : Char} {p : List Char} (hc : holds c = true)
    (h : Parted holds (c :: p) z) :
    (p ++ z).takeWhile holds = p.takeWhile holds ∧
      (p ++ z).dropWhile holds = p.dropWhile holds ++ z := by
  induction p generalizing c with
  | nil =>
    have hz : ∀ d ∈ z.head?, holds d = false := fun d hd =>
      Bool.eq_false_iff.2 fun hd' => h c rfl d hd ⟨hc, hd'⟩
    exact takeWhile_run (by simp) hz
  | cons d p ih =>
    by_cases hd : holds d = true
    -- the run goes on with `d`, which takes the place of `c`
    · obtain ⟨htake, hdrop⟩ := ih hd (h.of_suffix (List.suffix_cons c _))
      simp [hd, htake, hdrop]
    · simp [hd]

/-- A run that ends where another text begins is read as a lexeme. -/
theorem Grammar.parse_lexeme_append (registers : Registers) (value? : List Char → Option Word)
    (ha : IsRun holds a) (hb : ∀ c ∈ b.head?, holds c = false) :
    parse registers (.bind (.many1 (.satisfies holds)) fun cs => .ofOption (value? cs)) (a ++ b) =
      .ofOption ((value? a).map fun v => (v, b)) := by
  obtain ⟨htake, hdrop⟩ := takeWhile_run ha.all hb
  rw [parse_lexeme, htake, hdrop, if_neg ha.ne_nil]

/-! ## Whole runs -/

/-- A run that goes on neither into `before` nor into `after`. -/
structure IsMaximalRun (holds : Char → Bool) (before run after : List Char) : Prop where
  run : IsRun holds run
  left : ∀ c ∈ before.getLast?, holds c = false
  right : ∀ c ∈ after.head?, holds c = false

instance (holds : Char → Bool) (before run after : List Char) :
    Decidable (IsMaximalRun holds before run after) :=
  decidable_of_iff
    ((!run.isEmpty && run.all holds && before.getLast?.all (!holds ·) &&
      after.head?.all (!holds ·)) = true) (by
    simp only [Bool.and_eq_true, Bool.not_eq_true', List.isEmpty_eq_false_iff, List.all_eq_true,
      Option.all_eq_true]
    exact ⟨fun ⟨⟨⟨h₁, h₂⟩, h₃⟩, h₄⟩ => ⟨⟨h₁, h₂⟩, h₃, h₄⟩,
      fun ⟨⟨h₁, h₂⟩, h₃, h₄⟩ => ⟨⟨⟨h₁, h₂⟩, h₃⟩, h₄⟩⟩)

theorem isMaximalRun_takeWhile {c : Char} (hc : holds c = true) (s : List Char) :
    IsMaximalRun holds [] (c :: s.takeWhile holds) (s.dropWhile holds) where
  run := isRun_takeWhile hc s
  left := fun _ h => nomatch h
  right := Text.head?_dropWhile holds s

/-- A text in front changes no whole run, if it is parted from the text. -/
theorem IsMaximalRun.append_left {before run after : List Char}
    (h : IsMaximalRun holds before run after) {p : List Char}
    (hp : Parted holds p (before ++ run ++ after)) : IsMaximalRun holds (p ++ before) run after where
  run := h.run
  left := by
    intro c hc
    cases before with
    | nil =>
      -- the run itself comes first, so it is the run that `p` is parted from
      obtain ⟨d, t, rfl, hd, -⟩ := h.run.exists_cons
      rw [List.append_nil] at hc
      exact Bool.eq_false_iff.2 fun hc' => hp c hc d rfl ⟨hc', hd⟩
    | cons d before =>
      rw [List.getLast?_append, List.getLast?_cons] at hc
      refine h.left c ?_
      rw [List.getLast?_cons]
      exact hc
  right := h.right

end Reckon
