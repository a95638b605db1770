import Reckon.Proofs.JsonScan

/-!
# Reading the members of an object

The readers of objects have one form: a step for each member, and a loop around it up to the end of
the object (`Loops`). If the step does with every member what `apply` says (`Steps`), the loop
applies the members in the order in which they are written, and fails if one of them cannot be
applied (`loop_objectText`).
-/

set_option autoImplicit false

namespace Reckon.Json

open Text (Piece)

/-! ## Results -/

@[simp] theorem toOption_ok {α : Type} (a : α) : (Except.ok a : Except Fault α).toOption = some a :=
  rfl

@[simp] theorem toOption_error {α : Type} (fault : Fault) :
    (Except.error fault : Except Fault α).toOption = none := rfl

theorem toOption_bind {α β : Type} (x : Except Fault α) (f : α → Except Fault β) :
    (x >>= f).toOption = x.toOption.bind fun a => (f a).toOption := by
  cases x <;> rfl

theorem toOption_eq_some_iff {α : Type} {x : Except Fault α} {a : α} :
    x.toOption = some a ↔ x = .ok a := by
  cases x <;> simp

/-! ## Members -/

section
variable {α β : Type} {written : α → List Char → Prop}
variable {step loop : β → List Piece → Except Fault (β × List Piece)} {apply : β → α → Option β}

/-- `step` reads a member, from the first quote of its key to the end of its value, and does with it
what `apply` says. -/
def Steps (step : β → List Piece → Except Fault (β × List Piece)) (apply : β → α → Option β) (a : α)
    (s : List Char) : Prop :=
  ∃ w s' w', Space w ∧ Space w' ∧ s = w ++ '\x22' :: (s' ++ w') ∧ ∀ b rest, EndsNumber rest →
    (step b (Piece.ofText s' ++ rest)).toOption = (apply b a).map (·, rest)

/-- A member with a key is read if `step` reads the key, a colon and the value. -/
theorem steps_keyText {a : α} {key : String} {k v s : List Char} (hk : KeyText key k)
    (hs : Spaced v s)
    (h : ∀ b t t' w rest, Space w → EndsNumber rest → string t = .ok (key.toList, t') →
      colon t' = .ok (Piece.ofText w ++ (Piece.ofText v ++ rest)) →
      (step b t).toOption = (apply b a).map (·, rest)) :
    Steps step apply a (k ++ s) := by
  obtain ⟨content, _, hcontent, ⟨w, u, hw, hu, rfl⟩, rfl⟩ := hk
  obtain ⟨w', w'', hw', hw'', rfl⟩ := hs
  refine ⟨w, content ++ '\x22' :: (u ++ ':' :: (w' ++ v)), w'', hw, hw'', by simp [inQuotes], ?_⟩
  intro b rest hrest
  refine h b _ (Piece.ofText u ++ .char ':' :: (Piece.ofText w' ++ (Piece.ofText v ++ rest))) w' rest
    hw' hrest ?_ (colon_space hu _)
  rw [← string_stringText hcontent]
  simp

/-- Goes on if there is another key. -/
def continueWith (loop : β → List Piece → Except Fault (β × List Piece)) (b : β)
    (next : Bool × List Piece) : Except Fault (β × List Piece) :=
  if next.1 then loop b next.2 else .ok (b, next.2)

/-- `loop` is `step` for each member up to the end of an object. -/
def Loops (step loop : β → List Piece → Except Fault (β × List Piece)) : Prop :=
  ∀ b s, loop b s = do
    let r ← step b s
    let next ← nextKey r.2
    continueWith loop r.1 next

/-- One member, and what comes after it. -/
theorem loop_member (hloop : Loops step loop) {a : α} {b : β} {s : List Char}
    {rest rest' : List Piece} {more : Bool}
    (hs : (step b (Piece.ofText s ++ rest)).toOption = (apply b a).map (·, rest))
    (hnext : nextKey rest = .ok (more, rest')) :
    (loop b (Piece.ofText s ++ rest)).toOption =
      (apply b a).bind fun b => (continueWith loop b (more, rest')).toOption := by
  rw [hloop, toOption_bind, hs]
  cases apply b a with
  | none => rfl
  | some b =>
    simp only [Option.map_some, Option.bind_some, hnext]
    rfl

theorem loop_separated (hloop : Loops step loop) (hstep : ∀ a s, written a s → Steps step apply a s)
    {as : List α} {s : List Char} (h : Separated written as s) :
    ∃ w s', Space w ∧ s = w ++ '\x22' :: s' ∧ ∀ b rest,
      (loop b (Piece.ofText s' ++ .char '\x7d' :: rest)).toOption =
        (as.foldlM apply b).map (·, rest) := by
  induction h with
  | @last a s h =>
    obtain ⟨w, s', w', hw, hw', rfl, hs⟩ := hstep a s h
    refine ⟨w, s' ++ w', hw, rfl, fun b rest => ?_⟩
    have hend : EndsNumber (Piece.ofText w' ++ .char '\x7d' :: rest) :=
      (endsNumber_close .curly rest).space hw'
    rw [Piece.ofText_append, List.append_assoc,
      loop_member hloop (hs b _ hend) (nextKey_brace hw' rest)]
    cases hb : apply b a <;> simp [hb, continueWith]
  | @more a as s t h ht ih =>
    obtain ⟨w, s', w', hw, hw', rfl, hs⟩ := hstep a s h
    obtain ⟨u, t', hu, rfl, hs'⟩ := ih
    refine ⟨w, s' ++ (w' ++ ',' :: (u ++ '\x22' :: t')), hw, by simp, fun b rest => ?_⟩
    have hend := fun s => (endsNumber_comma s).space hw'
    simp only [Piece.ofText_append, Piece.ofText_cons, List.append_assoc, List.cons_append]
    rw [loop_member hloop (hs b _ (hend _)) (nextKey_comma hw' _ hu)]
    cases hb : apply b a <;> simp [hb, continueWith, hs']

/-- The members of an object are applied one after the other. -/
theorem loop_objectText (hloop : Loops step loop)
    (hstep : ∀ a s, written a s → Steps step apply a s) {as : List α} {s : List Char}
    (h : ObjectText written as s) :
    ∃ s', s = '\x7b' :: s' ∧ ∀ b rest,
      ((firstKey (Piece.ofText s' ++ rest)).bind (continueWith loop b)).toOption =
        (as.foldlM apply b).map (·, rest) := by
  cases h with
  | empty hw =>
    refine ⟨_, rfl, fun b rest => ?_⟩
    simp [firstKey_brace hw, continueWith, Except.bind]
  | filled h =>
    obtain ⟨w, s', hw, rfl, hs⟩ := loop_separated hloop hstep h
    refine ⟨_, rfl, fun b rest => ?_⟩
    simp [firstKey_quote hw, continueWith, Except.bind, hs]

end

end Reckon.Json
