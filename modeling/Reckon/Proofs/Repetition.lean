import Reckon.Proofs.Laws
import Reckon.Proofs.Suffix

/-!
# Repetition

`many` and `many1` run a parser round after round. A round that fails, or that reads nothing, is the
last one, and the value of a round that read nothing is kept. `many1` has a first round of its own,
with a test of its own whether something was read; all the same both go the same way
(`alike_many`, `alike_many1`), since a match that does not shorten the text leaves all of it
(`Gives.eq_of_not_lt`).

`Rounds rules p texts values` states what the rounds of a repetition of `p` are, without the loop:
`texts` are the places they start at, and `values` what they give. A repetition gives what rounds
give that start on its text (`Gives.exists_rounds`), and what any such rounds give
(`Rounds.gives_many`). If `p` comes to an end on every text, so does `many p` (`Gives.exists_many`).

Main results: `alike_repetitions` and `Gives.many_maximal`.
-/

set_option autoImplicit false

namespace Reckon

namespace Attempt

variable {α β : Type}

theorem orElse_of_ne_failed {a : Attempt α} (h : a ≠ some .failed) (next : Unit → Attempt α) :
    a.orElse next = a := by
  rcases a with _ | _ | ⟨v, rest⟩
  · rfl
  · exact absurd rfl h
  · rfl

/-- A match that is given another value does not fail. -/
theorem andThen_ne_failed {a : Attempt α} (h : a ≠ some .failed) (f : α → β) :
    (a.andThen fun v rest => some (.matched (f v) rest)) ≠ some .failed := by
  rcases a with _ | _ | ⟨v, rest⟩
  · simp [andThen]
  · exact absurd rfl h
  · simp [andThen]

end Attempt

namespace Parser

variable {ρ : Type → Type} {rules : Rules ρ} {α : Type} {p : Parser ρ α}
  {s t rest : List Char} {v : α} {values : List α}

/-! ## Rounds that read nothing -/

/-- A match that leaves no shorter text leaves all of it. -/
theorem Gives.eq_of_not_lt (h : Gives rules p s (.matched v rest))
    (hlen : ¬ rest.length < s.length) : rest = s :=
  h.suffix.eq_of_length_le (Nat.not_lt.1 hlen)

theorem Gives.length_lt (h : Gives rules p s (.matched v rest)) (hne : rest ≠ s) :
    rest.length < s.length :=
  Classical.byContradiction fun hlen => hne (h.eq_of_not_lt hlen)

/-! ## The two repetitions -/

theorem run_many (depth : Nat) (p : Parser ρ α) (s : List Char) :
    run rules depth (.many p) s =
      match run rules depth p s with
      | none => none
      | some .failed => some (.matched [] s)
      | some (.matched v rest) =>
        if rest.length < s.length then
          (run rules depth (.many p) rest).andThen fun values last =>
            some (.matched (v :: values) last)
        else some (.matched [v] s) :=
  repeated_eq _ s

theorem run_many1 (depth : Nat) (p : Parser ρ α) (s : List Char) :
    run rules depth (.many1 p) s =
      (run rules depth p s).andThen fun v rest =>
        if rest.length < s.length then
          (run rules depth (.many p) rest).andThen fun values last =>
            some (.matched (v :: values) last)
        else some (.matched [v] rest) :=
  repeated1_eq _ s

theorem collect_ne_failed (p : List Char → Attempt α) (seen : List α) (s : List Char) :
    collect p seen s ≠ some .failed := by
  fun_induction collect p seen s with
  | case1 | case2 | case4 => simp
  | case3 seen s value rest hp lt ih => exact ih

theorem run_many_ne_failed (depth : Nat) (p : Parser ρ α) (s : List Char) :
    run rules depth (.many p) s ≠ some .failed := collect_ne_failed _ [] s

/-- `many` is `many1`, or else nothing. -/
theorem run_many_eq_orElse (depth : Nat) (p : Parser ρ α) (s : List Char) :
    run rules depth (.many p) s =
      (run rules depth (.many1 p) s).orElse fun _ => some (.matched [] s) := by
  rw [run_many, run_many1]
  rcases hp : run rules depth p s with _ | _ | ⟨v, rest⟩
  · rfl
  · rfl
  · simp only [Attempt.andThen]
    split
    · rw [Attempt.orElse_of_ne_failed]
      exact Attempt.andThen_ne_failed (run_many_ne_failed depth p rest) (v :: ·)
    · rename_i hlen
      have hrest : Gives rules p s (.matched v rest) := ⟨depth, hp⟩
      rw [hrest.eq_of_not_lt hlen]
      rfl

theorem alike_many (p : Parser ρ α) (s : List Char) :
    Alike rules (.many p) (.choice (.many1 p) (.unit [])) s :=
  alike_of_run_eq fun depth => run_many_eq_orElse depth p s

theorem gives_many1_failed_iff : Gives rules (.many1 p) s .failed ↔ Gives rules p s .failed := by
  constructor
  · rintro ⟨depth, h⟩
    rw [run_many1, Attempt.andThen_eq_some_iff] at h
    obtain ⟨hp, -⟩ | ⟨v, rest, -, hn⟩ := h
    · exact ⟨depth, hp⟩
    · split at hn
      · exact absurd hn (Attempt.andThen_ne_failed (run_many_ne_failed depth p rest) (v :: ·))
      · cases hn
  · rintro ⟨depth, h⟩
    refine ⟨depth, ?_⟩
    rw [run_many1, h]
    rfl

/-- If the first round reads something, the others are those of `many`. -/
theorem alike_many1 (h : Gives rules p s (.matched v rest)) (hlt : rest.length < s.length) :
    Alike rules (.many1 p) (.bind p fun v => .map (.many p) fun vs => v :: vs) s := by
  refine alike_of_run_eq fun depth => ?_
  rw [run_many1, run_bind]
  rcases hp : run rules depth p s with _ | _ | ⟨w, t⟩
  · rfl
  · rfl
  · cases h.unique ⟨depth, hp⟩
    simp only [Attempt.andThen, if_pos hlt, run_map]

theorem Gives.many1_idle (h : Gives rules p s (.matched v s)) :
    Gives rules (.many1 p) s (.matched [v] s) := by
  obtain ⟨depth, h⟩ := h
  refine ⟨depth, ?_⟩
  rw [run_many1, h]
  exact if_neg (Nat.lt_irrefl s.length)

/-- The two repetitions go the same way. `many` is `many1` or else nothing; `many1` fails where the
parser does. Behind a first round that read something, `many1` goes on as `many`; a first round that
read nothing is the only one. -/
theorem alike_repetitions (rules : Rules ρ) (p : Parser ρ α) (s : List Char) :
    Alike rules (.many p) (.choice (.many1 p) (.unit [])) s ∧
    (Gives rules (.many1 p) s .failed ↔ Gives rules p s .failed) ∧
    ∀ v rest, Gives rules p s (.matched v rest) →
      (rest ≠ s → Alike rules (.many1 p) (.bind p fun v => .map (.many p) fun vs => v :: vs) s) ∧
      (rest = s → Gives rules (.many1 p) s (.matched [v] s)) := by
  refine ⟨alike_many p s, gives_many1_failed_iff, fun v rest h => ⟨fun hne => ?_, fun heq => ?_⟩⟩
  · exact alike_many1 h (h.length_lt hne)
  · rw [heq] at h
    exact h.many1_idle

/-- A digit that may be missing: it is read in the first text and missing in the second one. -/
theorem alike_repetitions_optional :
    let rules : Rules fun _ => Empty := nofun
    let p : Parser (fun _ => Empty) (Option Char) := .optional (.satisfies Char.isDigit)
    (Gives rules p ['1', 'a'] (.matched (some '1') ['a']) ∧
      Alike rules (.many1 p) (.bind p fun v => .map (.many p) fun vs => v :: vs) ['1', 'a']) ∧
    (Gives rules p ['a'] (.matched none ['a']) ∧
      Gives rules (.many1 p) ['a'] (.matched [none] ['a'])) := by
  intro rules p
  have hread : Gives rules p ['1', 'a'] (.matched (some '1') ['a']) := ⟨0, by decide⟩
  have hidle : Gives rules p ['a'] (.matched none ['a']) := ⟨0, by decide⟩
  obtain ⟨-, -, hfirst⟩ := alike_repetitions rules p ['1', 'a']
  obtain ⟨-, -, hsecond⟩ := alike_repetitions rules p ['a']
  exact ⟨⟨hread, (hfirst _ _ hread).1 (by decide)⟩, hidle, (hsecond _ _ hidle).2 rfl⟩

/-! ## The first round -/

theorem Gives.many_stop (h : Gives rules p s .failed) :
    Gives rules (.many p) s (.matched [] s) := by
  obtain ⟨depth, h⟩ := h
  refine ⟨depth, ?_⟩
  rw [run_many, h]

theorem Gives.many_idle (h : Gives rules p s (.matched v s)) :
    Gives rules (.many p) s (.matched [v] s) :=
  (alike_many p s _).2 (h.many1_idle.choice_left _)

theorem Gives.many_step (h : Gives rules p s (.matched v t)) (hlt : t.length < s.length)
    (hm : Gives rules (.many p) t (.matched values rest)) :
    Gives rules (.many p) s (.matched (v :: values) rest) := by
  obtain ⟨depth, h, hm⟩ := h.exists_run hm
  refine ⟨depth, ?_⟩
  rw [run_many, h]
  simp only [if_pos hlt, hm]
  rfl

/-- A repetition comes to an end at once, or goes on behind a first round that read something. -/
theorem Gives.many_cases {o : Outcome (List α)} (h : Gives rules (.many p) s o) :
    (Gives rules p s .failed ∧ o = .matched [] s) ∨
    (∃ v, Gives rules p s (.matched v s) ∧ o = .matched [v] s) ∨
    ∃ v t values rest, Gives rules p s (.matched v t) ∧ t.length < s.length ∧
      Gives rules (.many p) t (.matched values rest) ∧ o = .matched (v :: values) rest := by
  obtain ⟨depth, h⟩ := h
  rw [run_many] at h
  rcases hp : run rules depth p s with _ | _ | ⟨v, t⟩
  · rw [hp] at h
    cases h
  · rw [hp] at h
    cases h
    exact .inl ⟨⟨depth, hp⟩, rfl⟩
  · rw [hp] at h
    have hv : Gives rules p s (.matched v t) := ⟨depth, hp⟩
    by_cases hlt : t.length < s.length
    · simp only [if_pos hlt, Attempt.andThen_eq_some_iff] at h
      obtain ⟨hm, -⟩ | ⟨values, rest, hm, h⟩ := h
      · exact absurd hm (run_many_ne_failed depth p t)
      · cases h
        exact .inr (.inr ⟨v, t, values, rest, hv, hlt, ⟨depth, hm⟩, rfl⟩)
    · simp only [if_neg hlt] at h
      cases h
      rw [hv.eq_of_not_lt hlt] at hv
      exact .inr (.inl ⟨v, hv, rfl⟩)

/-- If a parser comes to an end on every text, so does its repetition. -/
theorem Gives.exists_many (hp : ∀ t, ∃ o, Gives rules p t o) (s : List Char) :
    ∃ values rest, Gives rules (.many p) s (.matched values rest) := by
  induction hlen : s.length using Nat.strongRecOn generalizing s with
  | ind n ih =>
    subst hlen
    obtain ⟨_ | ⟨v, t⟩, hv⟩ := hp s
    · exact ⟨[], s, hv.many_stop⟩
    · by_cases hlt : t.length < s.length
      · obtain ⟨values, rest, hm⟩ := ih t.length hlt t rfl
        exact ⟨v :: values, rest, hv.many_step hlt hm⟩
      · rw [hv.eq_of_not_lt hlt] at hv
        exact ⟨[v], s, hv.many_idle⟩

/-! ## All rounds -/

/-- The rounds of a repetition of `p`: round `i` starts on `texts i` and gives `values[i]`. -/
structure Rounds (rules : Rules ρ) (p : Parser ρ α) (texts : Nat → List Char) (values : List α) :
    Prop where
  /-- A round starts on what the one before it left. -/
  gives : ∀ (i : Nat) (h : i < values.length),
    Gives rules p (texts i) (.matched values[i] (texts (i + 1)))
  /-- All rounds but the last one read something. -/
  shorter : ∀ i, i + 1 < values.length → (texts (i + 1)).length < (texts i).length
  /-- The parser fails where the rounds end, or the last round read nothing. -/
  ends : Gives rules p (texts values.length) .failed ∨
    ∃ n, values.length = n + 1 ∧ texts (n + 1) = texts n

namespace Rounds

variable {texts : Nat → List Char}

theorem nil (h : Gives rules p s .failed) : Rounds rules p (fun _ => s) [] where
  gives := fun _ hi => absurd hi (Nat.not_lt_zero _)
  shorter := fun _ hi => absurd hi (Nat.not_lt_zero _)
  ends := .inl h

theorem singleton (h : Gives rules p s (.matched v s)) : Rounds rules p (fun _ => s) [v] where
  gives := by
    intro i hi
    obtain rfl : i = 0 := Nat.lt_one_iff.1 hi
    exact h
  shorter := fun i hi => absurd hi (by simp)
  ends := .inr ⟨0, rfl, rfl⟩

/-- A round that reads something comes in front of the rounds on what it leaves. -/
theorem cons (h : Gives rules p s (.matched v (texts 0))) (hlt : (texts 0).length < s.length)
    (hr : Rounds rules p texts values) :
    Rounds rules p (fun | 0 => s | i + 1 => texts i) (v :: values) where
  gives := by
    rintro (_ | i) hi
    · exact h
    · exact hr.gives i (Nat.lt_of_succ_lt_succ hi)
  shorter := by
    rintro (_ | i) hi
    · exact hlt
    · exact hr.shorter i (Nat.lt_of_succ_lt_succ hi)
  ends := by
    obtain hend | ⟨n, hn, hidle⟩ := hr.ends
    · exact .inl hend
    · exact .inr ⟨n + 1, congrArg Nat.succ hn, hidle⟩

/-- Behind a first round that read something, the others are the rounds on what it left. -/
theorem tail (hr : Rounds rules p texts (v :: values))
    (hlt : (texts 1).length < (texts 0).length) :
    Rounds rules p (fun i => texts (i + 1)) values where
  gives := fun i hi => hr.gives (i + 1) (Nat.succ_lt_succ hi)
  shorter := fun i hi => hr.shorter (i + 1) (Nat.succ_lt_succ hi)
  ends := by
    obtain hend | ⟨n, hn, hidle⟩ := hr.ends
    · exact .inl hend
    · cases n with
      | zero =>
        rw [hidle] at hlt
        exact absurd hlt (Nat.lt_irrefl _)
      | succ n => exact .inr ⟨n, Nat.succ.inj hn, hidle⟩

/-- A first round that read nothing is the only one. -/
theorem eq_nil_of_idle (hr : Rounds rules p texts (v :: values))
    (hlen : ¬ (texts 1).length < (texts 0).length) : values = [] := by
  cases values with
  | nil => rfl
  | cons w values => exact absurd (hr.shorter 0 (by simp)) hlen

/-- Every round but the last one takes a character at least. -/
theorem length_le (hr : Rounds rules p texts values) :
    values.length ≤ (texts 0).length + 1 := by
  have hround : ∀ i, i < values.length → i + (texts i).length ≤ (texts 0).length := by
    intro i
    induction i with
    | zero => simp
    | succ i ih =>
      intro hi
      have hle := ih (Nat.lt_of_succ_lt hi)
      have hlt := hr.shorter i hi
      omega
  cases hn : values.length with
  | zero => exact Nat.zero_le _
  | succ n =>
    have hlast := hround n (by omega)
    omega

/-- What the rounds give is what the repetition gives. -/
theorem gives_many (hr : Rounds rules p texts values) :
    Gives rules (.many p) (texts 0) (.matched values (texts values.length)) := by
  induction values generalizing texts with
  | nil =>
    obtain hend | ⟨n, hn, -⟩ := hr.ends
    · exact hend.many_stop
    · cases hn
  | cons v values ih =>
    have hv : Gives rules p (texts 0) (.matched v (texts 1)) := hr.gives 0 (Nat.succ_pos _)
    by_cases hlt : (texts 1).length < (texts 0).length
    · exact hv.many_step hlt (ih (hr.tail hlt))
    · obtain rfl := hr.eq_nil_of_idle hlt
      have hidle : texts 1 = texts 0 := hv.eq_of_not_lt hlt
      rw [hidle] at hv
      show Gives rules (.many p) (texts 0) (.matched [v] (texts 1))
      rw [hidle]
      exact hv.many_idle

end Rounds

/-- What a repetition gives comes from rounds. -/
theorem Gives.exists_rounds (h : Gives rules (.many p) s (.matched values rest)) :
    ∃ texts, texts 0 = s ∧ texts values.length = rest ∧ Rounds rules p texts values := by
  induction hlen : s.length using Nat.strongRecOn generalizing s values rest with
  | ind n ih =>
    subst hlen
    obtain ⟨hp, ho⟩ | ⟨v, hp, ho⟩ | ⟨v, t, vs, last, hp, hlt, hm, ho⟩ := h.many_cases
    · cases ho
      exact ⟨fun _ => s, rfl, rfl, .nil hp⟩
    · cases ho
      exact ⟨fun _ => s, rfl, rfl, .singleton hp⟩
    · cases ho
      obtain ⟨texts, rfl, hlast, hr⟩ := ih t.length hlt hm rfl
      exact ⟨_, rfl, hlast, .cons hp hlt hr⟩

/-- If a parser comes to an end on every text, its repetition does, with one outcome: that of the
rounds that start on the text. There are no other rounds, and no more of them than the text has
characters, but for one that reads nothing. -/
theorem Gives.many_maximal (hp : ∀ t, ∃ o, Gives rules p t o) (s : List Char) :
    ∃ values texts, texts 0 = s ∧ Rounds rules p texts values ∧ values.length ≤ s.length + 1 ∧
      (∀ o, Gives rules (.many p) s o ↔ o = .matched values (texts values.length)) ∧
      ∀ values' texts', texts' 0 = s → Rounds rules p texts' values' →
        values' = values ∧ texts' values'.length = texts values.length := by
  obtain ⟨values, rest, hmany⟩ := Gives.exists_many hp s
  obtain ⟨texts, rfl, rfl, hr⟩ := hmany.exists_rounds
  refine ⟨values, texts, rfl, hr, hr.length_le, fun o => ⟨fun ho => ho.unique hmany, ?_⟩, ?_⟩
  · rintro rfl
    exact hmany
  · intro values' texts' hstart hr'
    have hmany' := hr'.gives_many
    rw [hstart] at hmany'
    exact Outcome.matched.inj (hmany'.unique hmany)

/-- A repetition of a repetition: behind the digits the second round reads nothing. -/
theorem Gives.many_maximal_nested :
    let rules : Rules fun _ => Empty := nofun
    let digits : Parser (fun _ => Empty) (List Char) := .many (.satisfies Char.isDigit)
    (∀ t, ∃ o, Gives rules digits t o) ∧
      Gives rules (.many digits) ['1', '2', 'a'] (.matched [['1', '2'], []] ['a']) ∧
      ∃ texts, texts 0 = ['1', '2', 'a'] ∧ texts 2 = ['a'] ∧
        Rounds rules digits texts [['1', '2'], []] := by
  intro rules digits
  have hdigit : ∀ t, ∃ o, Gives rules (.satisfies Char.isDigit) t o := fun t => ⟨_, 0, rfl⟩
  have hdigits : ∀ t, ∃ o, Gives rules digits t o := by
    intro t
    obtain ⟨values, rest, h⟩ := Gives.exists_many hdigit t
    exact ⟨_, h⟩
  have hmany : Gives rules (.many digits) ['1', '2', 'a'] (.matched [['1', '2'], []] ['a']) :=
    ⟨0, by decide +kernel⟩
  obtain ⟨values, texts, hstart, hr, -, hone, -⟩ := Gives.many_maximal hdigits ['1', '2', 'a']
  obtain ⟨rfl, hend⟩ := Outcome.matched.inj ((hone _).1 hmany)
  exact ⟨hdigits, hmany, texts, hstart, hend.symm, hr⟩

end Parser

end Reckon
