import Reckon.Proofs.Calls
import Reckon.Proofs.SinglePass
import Reckon.Proofs.Suffix

/-!
# The recursion of the grammar

Why reading comes to an end. A level that is started on a text goes down to the levels below it on
the same text, and calls rules on shorter texts only: behind an operator, or behind an opening
parenthesis. `Inner s n` is the invariant of a run on `s` that says so (`throughout_operation`,
`throughout_parenthesized`, and from them `inner_level`); it tells the levels from the other parsers
by the depth of their choices.

Main result: `Grammar.recursion_descends`.
-/

set_option autoImplicit false

namespace Reckon

open Reckon.Parser
open Relation (ReflTransGen TransGen)

/-- How deep a level lies above the atoms. -/
def Level.rank : Level → Nat
  | .atom => 0
  | .term => 1
  | .expression => 2

/-- The depth of the choices that a parser begins with. -/
def Parser.choices {ρ : Type → Type} : {α : Type} → Parser ρ α → Nat
  | _, .choice p q => max p.choices q.choices + 1
  | _, _ => 0

theorem Level.choices_parser (registers : Registers) (l : Level) :
    (l.parser registers).choices = l.rank + 2 := by
  rcases l with _ | _ | _ <;> rfl

namespace Grammar

/-! ## What a level starts -/

/-- What is started inside a level that reads `s`: parsers with fewer than `n` choices, those with
two or more on `s` itself, and calls on shorter texts. -/
structure Inner (s : List Char) (n : Nat) (j : Start Rule) : Prop where
  choices_lt : j.parser.choices < n
  text_eq : 2 ≤ j.parser.choices → j.text = s
  shorter : ∀ {β : Type} (r : Rule β) (t : List Char), j = ⟨.call r, t⟩ → t.length < s.length

section
variable {s t : List Char} {n m : Nat}

theorem Inner.mono {j : Start Rule} (h : Inner s n j) (hnm : n ≤ m) : Inner s m j :=
  ⟨Nat.lt_of_lt_of_le h.choices_lt hnm, h.text_eq, h.shorter⟩

theorem inner_call {α : Type} (r : Rule α) (hn : 0 < n) (ht : t.length < s.length) :
    Inner s n ⟨.call r, t⟩ where
  choices_lt := hn
  text_eq := fun h => absurd (show 2 ≤ 0 from h) (by decide)
  shorter := by
    rintro _ _ _ ⟨⟩
    exact ht

theorem inner_of_choices_eq_zero {j : Start Rule} (hn : 0 < n) (h : j.parser.choices = 0)
    (hcall : ∀ {β : Type} (r : Rule β) (t : List Char), j ≠ ⟨.call r, t⟩) : Inner s n j where
  choices_lt := by rw [h]; exact hn
  text_eq := fun h2 => by omega
  shorter := fun r t hj => absurd hj (hcall r t)

theorem inner_plain {j : Start Rule} (hn : 0 < n) (h : Plain j.parser) : Inner s n j := by
  refine inner_of_choices_eq_zero hn ?_ ?_
  · obtain ⟨p, t⟩ := j
    cases p with
    | choice p q => exact h.elim
    | _ => rfl
  · rintro _ r t rfl
    exact h.elim

end

section
variable {rule : ∀ {β : Type}, Rule β → List Char → Attempt β} {s : List Char} {n : Nat}

theorem throughout_inner {j : Start Rule} (hn : 0 < n) (h : j.parser.choices = 0)
    (hcall : ∀ {β : Type} (r : Rule β) (t : List Char), j ≠ ⟨.call r, t⟩)
    (hstarts : ∀ k, Starts rule j k → Throughout rule k (Inner s n)) :
    Throughout rule j (Inner s n) :=
  throughout_of_starts (inner_of_choices_eq_zero hn h hcall) hstarts

theorem throughout_inner_plain {α : Type} {p : Parser Rule α} (hn : 0 < n) (h : Plain p)
    (t : List Char) : Throughout rule ⟨p, t⟩ (Inner s n) :=
  (throughout_plain h t).mono fun _ => inner_plain hn

theorem plain_mark (c : Char) : Plain (mark c) := trivial

theorem plain_number : Plain (.token naturalNumber : Parser Rule Word) :=
  ⟨trivial, fun _ => plain_ofOption _⟩

theorem plain_name (registers : Registers) :
    Plain (.token (registerName registers) : Parser Rule Word) :=
  ⟨trivial, fun _ => plain_ofOption _⟩

theorem length_of_mark {c d : Char} {rest : List Char}
    (h : denote rule (mark c) s = some (.matched d rest)) : rest.length < s.length := by
  rw [denote_mark] at h
  cases ha : Text.after? c (Text.skipBlanks s) with
  | none => rw [ha] at h; cases h
  | some t =>
    rw [ha] at h
    cases h
    exact Nat.lt_of_lt_of_le (Text.length_after? ha) (Text.length_skipBlanks_le s)

/-- An operand and the operator behind it. -/
theorem length_of_terminated {left : Parser Rule Word} {c : Char} {v : Word} {rest : List Char}
    (hleft : ∀ v rest, denote rule left s = some (.matched v rest) → rest.length ≤ s.length)
    (h : denote rule (.terminated left (mark c)) s = some (.matched v rest)) :
    rest.length < s.length := by
  rw [denote, Attempt.andThen_eq_some_iff] at h
  obtain ⟨-, ho⟩ | ⟨w, t, hl, h⟩ := h
  · cases ho
  rw [Attempt.andThen_eq_some_iff] at h
  obtain ⟨-, ho⟩ | ⟨d, last, hm, h⟩ := h
  · cases ho
  cases h
  exact Nat.lt_of_lt_of_le (length_of_mark hm) (hleft _ t hl)

/-- The left operand is started on the text itself, and the right one behind the operator. -/
theorem throughout_operation {left : Parser Rule Word} (op : Operator) (hn : 0 < n)
    (hleft : Throughout rule ⟨left, s⟩ (Inner s n))
    (hlen : ∀ v rest, denote rule left s = some (.matched v rest) → rest.length ≤ s.length) :
    ∀ j, Starts rule ⟨operation left op.mark op.rule op.combine, s⟩ j →
      Throughout rule j (Inner s n) := by
  rintro _ (rfl | ⟨-, rfl⟩)
  · refine throughout_inner hn rfl nofun ?_
    rintro _ (rfl | ⟨v, rest, -, rfl⟩)
    · refine throughout_inner hn rfl (by rintro _ _ _ ⟨⟩) ?_
      rintro _ (rfl | ⟨v, rest, hv, rfl⟩)
      · refine throughout_inner hn rfl nofun ?_
        rintro _ (rfl | ⟨v, rest, -, rfl⟩)
        · exact hleft
        · exact throughout_inner_plain hn (plain_mark _) rest
      · exact throughout_call (inner_call op.rule hn (length_of_terminated hlen hv))
    · exact throughout_inner_plain hn (plain_ofOption _) rest
  · exact hleft

/-- The expression is started behind the opening parenthesis. -/
theorem throughout_parenthesized (hn : 0 < n) :
    Throughout rule ⟨parenthesized, s⟩ (Inner s n) := by
  refine throughout_inner hn rfl nofun ?_
  rintro _ (rfl | ⟨c, rest, hc, rfl | ⟨v, last, -, rfl⟩⟩)
  · exact throughout_inner_plain hn (plain_mark _) s
  · exact throughout_call (inner_call .expression hn (length_of_mark hc))
  · exact throughout_inner_plain hn (plain_mark _) last

theorem throughout_atom (registers : Registers) :
    ∀ j, Starts rule ⟨atom registers, s⟩ j → Throughout rule j (Inner s 2) := by
  rintro _ (rfl | ⟨-, rfl⟩)
  · refine throughout_of_starts ⟨Nat.le_refl 2, fun _ => rfl, nofun⟩ ?_
    rintro _ (rfl | ⟨-, rfl⟩)
    · exact throughout_parenthesized (by decide)
    · exact throughout_inner_plain (by decide) plain_number s
  · exact throughout_inner_plain (by decide) (plain_name registers) s

end

section
variable {registers : Registers} {depth : Nat} {l : Level} {s : List Char}

/-- The levels below are started on the same text; what is started besides has fewer choices. -/
theorem throughout_level (l : Level) :
    ∀ j, Starts (unroll (rules registers) depth) ⟨l.parser registers, s⟩ j →
      Throughout (unroll (rules registers) depth) j (Inner s (l.rank + 2)) := by
  -- an operand may be one of its own parts, so its own choices count, too
  have operand : ∀ l : Level,
      (∀ j, Starts (unroll (rules registers) depth) ⟨l.parser registers, s⟩ j →
        Throughout (unroll (rules registers) depth) j (Inner s (l.rank + 2))) →
      Throughout (unroll (rules registers) depth) ⟨l.parser registers, s⟩ (Inner s (l.rank + 3)) := by
    intro l hl
    refine throughout_of_starts ⟨?_, fun _ => rfl, ?_⟩ fun j hj => (hl j hj).mono fun _ h => h.mono ?_
    · rw [Level.choices_parser]
      exact Nat.lt_succ_self _
    · rintro _ r t h
      rcases l with _ | _ | _ <;> cases h
    · exact Nat.le_succ _
  have leaves : ∀ (p : Parser Rule Word) v rest,
      denote (unroll (rules registers) depth) p s = some (.matched v rest) →
        rest.length ≤ s.length :=
    fun p v rest h => (denote_leaves (unroll_leaves depth) p s v rest h).length_le
  have hatom : ∀ j, Starts (unroll (rules registers) depth) ⟨atom registers, s⟩ j →
      Throughout (unroll (rules registers) depth) j (Inner s 2) := throughout_atom registers
  have hterm := throughout_operation .times (by decide) (operand .atom hatom) (leaves _)
  have hexpression := throughout_operation .plus (by decide) (operand .term hterm) (leaves _)
  rcases l with _ | _ | _
  · exact hatom
  · exact hexpression
  · exact hterm

theorem inner_level {j : Start Rule}
    (h : TransGen (Starts (unroll (rules registers) depth)) ⟨l.parser registers, s⟩ j) :
    Inner s (l.rank + 2) j := by
  obtain ⟨k, hk, hkj⟩ := TransGen.head'_iff.1 h
  exact throughout_level l k hk j hkj

theorem descends_level (registers : Registers) (l : Level) :
    Descends (rules registers) (l.parser registers) := by
  intro depth s β r t h
  obtain heq | htrans := Relation.reflTransGen_iff_eq_or_transGen.1 h
  · rcases l with _ | _ | _ <;> cases heq
  · exact (inner_level htrans).shorter r t rfl

theorem descends_rule (registers : Registers) {β : Type} (r : Rule β) :
    Descends (rules registers) (rules registers r) := by
  cases r with
  | expression => exact descends_level registers .expression
  | term => exact descends_level registers .term

/-- What calls rules on shorter texts only is never cut off by `parse`, and more depth changes
nothing. -/
theorem run_eq_parse {α : Type} {p : Parser Rule α} (hp : Descends (rules registers) p)
    (h : s.length ≤ depth) : run (rules registers) depth p s = some (parse registers p s) := by
  obtain ⟨o, ho⟩ := Option.ne_none_iff_exists'.1
    (run_ne_none (descends_rule registers) hp (Nat.le_refl s.length))
  rw [parse, ho]
  exact run_mono h ho

/-- Reading comes to an end on every text. A level goes down to lower levels on the same text, calls
rules on shorter texts, and leaves a shorter text when it matches; so calls nest no deeper than the
text is long, and `parse` allows all of them. -/
theorem recursion_descends (registers : Registers) (l : Level) (s : List Char) :
    (∀ depth, s.length ≤ depth → run (rules registers) depth (l.parser registers) s =
      some (parse registers (l.parser registers) s)) ∧
    (∀ calls, List.IsChain (Enters (rules registers)) (⟨l.parser registers, s⟩ :: calls) →
      calls.length ≤ s.length) ∧
    ∀ depth,
      (∀ {β : Type} (r : Rule β) (t : List Char),
        ReflTransGen (Starts (unroll (rules registers) depth)) ⟨l.parser registers, s⟩
          ⟨.call r, t⟩ → t.length < s.length) ∧
      (∀ (l' : Level) (t : List Char),
        TransGen (Starts (unroll (rules registers) depth)) ⟨l.parser registers, s⟩
          ⟨l'.parser registers, t⟩ → l'.rank < l.rank ∧ t = s) ∧
      ∀ v rest, run (rules registers) depth (l.parser registers) s = some (.matched v rest) →
        rest.length < s.length := by
  have hdescends : Descends (rules registers) (l.parser registers) := descends_level registers l
  refine ⟨fun _ => run_eq_parse hdescends,
    fun calls => length_le_of_isChain (descends_rule registers) hdescends,
    fun depth => ⟨fun r t => hdescends depth s r t, fun l' t h => ?_, fun v rest h => ?_⟩⟩
  · obtain ⟨hlt, htext, -⟩ := inner_level h
    rw [Level.choices_parser] at hlt htext
    exact ⟨Nat.lt_of_add_lt_add_right hlt, htext (Nat.le_add_left 2 _)⟩
  · have hmax := run_mono (Nat.le_max_left depth s.length) h
    rw [run_eq_parse hdescends (Nat.le_max_right depth s.length), SinglePass.parse_level] at hmax
    exact SinglePass.read_shorter (Option.some.inj hmax)

end

/-! ## Calls that are made -/

section
variable {registers : Registers} {rule : ∀ {β : Type}, Rule β → List Char → Attempt β}

theorem starts_operand (op : Operator) (s : List Char) :
    TransGen (Starts rule) ⟨(Level.chain op).parser registers, s⟩
      ⟨op.operand.parser registers, s⟩ := by
  rw [Level.parser_chain]
  exact .head (.inl rfl) (.head (.inl rfl) (.head (.inl rfl) (.single (.inl rfl))))

/-- Every level comes to an atom on the same text. -/
theorem reaches_atom (l : Level) (s : List Char) :
    ReflTransGen (Starts rule) ⟨l.parser registers, s⟩ ⟨Level.atom.parser registers, s⟩ := by
  have hterm : ReflTransGen (Starts rule) ⟨Level.term.parser registers, s⟩
      ⟨Level.atom.parser registers, s⟩ := (starts_operand .times s).to_reflTransGen
  rcases l with _ | _ | _
  · exact .refl
  · exact (starts_operand .plus s).to_reflTransGen.trans hterm
  · exact hterm

/-- Behind an opening parenthesis an expression is called. -/
theorem enters_parenthesis (registers : Registers) (l : Level) (s : List Char) :
    Enters (rules registers) ⟨l.parser registers, '(' :: s⟩
      ⟨expression registers, Text.skipBlanks s⟩ := by
  refine ⟨0, _, .expression, (reaches_atom l _).trans ?_, rfl⟩
  refine .head (.inl rfl) (.head (.inl rfl) (.single (.inr ⟨'(', Text.skipBlanks s, ?_, .inl rfl⟩)))
  rw [denote_mark, Text.skipBlanks_cons (by decide)]
  rfl

/-- As many opening parentheses, as many calls: the length of the text cannot be improved upon. -/
theorem exists_isChain (registers : Registers) (l : Level) (n : Nat) :
    ∃ calls, List.IsChain (Enters (rules registers))
      (⟨l.parser registers, List.replicate n '('⟩ :: calls) ∧ calls.length = n := by
  induction n generalizing l with
  | zero => exact ⟨[], List.isChain_singleton _, rfl⟩
  | succ n ih =>
    obtain ⟨calls, hcalls, hlen⟩ := ih .expression
    have htrim : Text.skipBlanks (List.replicate n '(') = List.replicate n '(' := by
      refine Text.skipBlanks_of_trimmed fun c hc => ?_
      rw [List.eq_of_mem_replicate (List.mem_of_head? hc)]
      decide
    have hfirst := enters_parenthesis registers l (List.replicate n '(')
    rw [htrim] at hfirst
    exact ⟨_ :: calls, List.isChain_cons_cons.2 ⟨hfirst, hcalls⟩, congrArg Nat.succ hlen⟩

end

/-- Behind the asterisk a term is called, which calls an expression behind each parenthesis. The
last of these finds no operand, so that the number alone is read. -/
theorem recursion_descends_unclosed :
    let s := "1*((".toList
    let rules : Rules Rule := rules .standard
    let p : Parser Rule Word := Level.expression.parser .standard
    (∃ calls, List.IsChain (Enters rules) (⟨p, s⟩ :: calls) ∧ calls.length = 3 ∧ 3 ≤ s.length) ∧
    (ReflTransGen (Starts (unroll rules 0)) ⟨p, s⟩ ⟨.call .term, "((".toList⟩ ∧
      "((".toList.length < s.length) ∧
    (TransGen (Starts (unroll rules 0)) ⟨p, s⟩ ⟨Level.atom.parser .standard, s⟩ ∧
      Level.atom.rank < Level.expression.rank) ∧
    run rules 4 p s = some (.matched 1 "*((".toList) ∧ "*((".toList.length < s.length := by
  intro s rules p
  obtain ⟨hend, hchain, hrun⟩ := recursion_descends .standard .expression s
  obtain ⟨hcall, hlevel, -⟩ := hrun 0
  obtain ⟨-, -, hrest⟩ := hrun 4
  have hatom : TransGen (Starts (unroll rules 0)) ⟨p, s⟩ ⟨Level.atom.parser .standard, s⟩ :=
    (starts_operand .plus s).trans (starts_operand .times s)
  -- the number and the asterisk are read without a call
  have hleft : denote (unroll rules 0)
      (.terminated (Level.atom.parser .standard) (mark '*')) s = some (.matched 1 "((".toList) := by
    decide +kernel
  have hterm : ReflTransGen (Starts (unroll rules 0)) ⟨p, s⟩ ⟨.call .term, "((".toList⟩ :=
    (starts_operand .plus s).to_reflTransGen.trans
      (.head (.inl rfl) (.head (.inl rfl) (.single (.inr ⟨1, "((".toList, hleft, rfl⟩))))
  have hmatch : run rules 4 p s = some (.matched 1 "*((".toList) := by decide +kernel
  let called : Start Rule := ⟨Level.term.parser .standard, "((".toList⟩
  obtain ⟨calls, hcalls, hlen⟩ := exists_isChain .standard .term 2
  have hall : List.IsChain (Enters rules) (⟨p, s⟩ :: called :: calls) :=
    List.isChain_cons_cons.2 ⟨⟨0, _, .term, hterm, rfl⟩, hcalls⟩
  have hcount : (called :: calls).length = 3 := congrArg Nat.succ hlen
  have hbound : (called :: calls).length ≤ s.length := hchain _ hall
  exact ⟨⟨_, hall, hcount, hcount ▸ hbound⟩, ⟨hterm, hcall .term _ hterm⟩,
    ⟨hatom, (hlevel .atom s hatom).1⟩, hmatch, hrest 1 _ hmatch⟩

end Grammar

end Reckon
