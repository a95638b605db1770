import Reckon.Json.Number
import Reckon.Proofs.Decimal

/-!
# The grammar of JSON

What JSON texts look like, without a reader. Every relation here ends in the text that it is about:

* `StringText s t`: between quotes, `s` stands for the text `t`; escapes of surrogates come in pairs.
  A key stands for a text (`KeyText`), so the same key can be written in many ways.
* `StringForm s`: between quotes, `s` is a string, in which surrogates need not be paired. Strings
  inside of values that are not used are of this form.
* `Literal.Written l s`: `s` is the number `l`. `Literal.Denotes l w`: it is written as an integer,
  and that is the word `w`.
* `WellFormed .value s`: `s` is a value of any kind, nested to any depth.
* `ObjectText written as s`: `s` is an object whose members are `as`, each as `written` says.
-/

set_option autoImplicit false

namespace Reckon.Json

/-! ## White space -/

/-- White space and nothing else. -/
def Space (w : List Char) : Prop := ∀ c ∈ w, c ∈ [' ', '\t', '\n', '\r']

instance (w : List Char) : Decidable (Space w) := List.decidableBAll _ w

/-- `t` with any white space before and after it. -/
def Spaced (t s : List Char) : Prop := ∃ w w', Space w ∧ Space w' ∧ s = w ++ t ++ w'

theorem spaced_self (t : List Char) : Spaced t t := by
  refine ⟨[], [], ?_, ?_, by simp⟩ <;> simp [Space]

/-! ## Strings -/

/-- A text between quotes. -/
def inQuotes (s : List Char) : List Char := '\x22' :: (s ++ ['\x22'])

/-- The characters of a string that stand for themselves. -/
structure Plain (c : Char) : Prop where
  ne_quote : c ≠ '\x22'
  ne_backslash : c ≠ '\\'
  le : 0x20 ≤ c.toNat

instance : DecidablePred Plain := fun c =>
  decidable_of_iff (c ≠ '\x22' ∧ c ≠ '\\' ∧ 0x20 ≤ c.toNat)
    ⟨fun h => ⟨h.1, h.2.1, h.2.2⟩, fun h => ⟨h.ne_quote, h.ne_backslash, h.le⟩⟩

/-- What may follow a backslash, with the character that is meant. -/
def shortEscapes : List (Char × Char) :=
  [('\x22', '\x22'), ('\\', '\\'), ('/', '/'), ('b', '\x08'), ('f', '\x0c'), ('n', '\n'),
   ('r', '\r'), ('t', '\t')]

/-- A hexadecimal digit, in either case. -/
def HexDigit (c : Char) (n : Nat) : Prop :=
  "0123456789abcdef".toList[n]? = some c ∨ "0123456789ABCDEF".toList[n]? = some c

/-- Four hexadecimal digits and the number that they denote. -/
inductive Hex : List Char → Nat → Prop
  | mk {a b c d : Char} {x y z w : Nat} (ha : HexDigit a x) (hb : HexDigit b y)
      (hc : HexDigit c z) (hd : HexDigit d w) :
      Hex [a, b, c, d] (x * 0x1000 + y * 0x100 + z * 0x10 + w)

/-- The content of a string, and the text that it stands for. -/
inductive StringText : List Char → List Char → Prop
  | nil : StringText [] []
  | plain {c : Char} {s t : List Char} (hc : Plain c) (h : StringText s t) :
      StringText (c :: s) (c :: t)
  | short {e c : Char} {s t : List Char} (he : (e, c) ∈ shortEscapes) (h : StringText s t) :
      StringText ('\\' :: e :: s) (c :: t)
  | numeric {x : List Char} {n : Nat} {c : Char} {s t : List Char} (hx : Hex x n)
      (hc : c.toNat = n) (h : StringText s t) : StringText ('\\' :: 'u' :: (x ++ s)) (c :: t)
  /-- A character beyond the first plane, as two surrogates. -/
  | pair {x y : List Char} {n m : Nat} {c : Char} {s t : List Char} (hx : Hex x n) (hy : Hex y m)
      (hn : 0xd800 ≤ n ∧ n ≤ 0xdbff) (hm : 0xdc00 ≤ m ∧ m ≤ 0xdfff)
      (hc : c.toNat = 0x10000 + (n - 0xd800) * 0x400 + (m - 0xdc00)) (h : StringText s t) :
      StringText ('\\' :: 'u' :: (x ++ '\\' :: 'u' :: (y ++ s))) (c :: t)

/-- A text without characters that have to be escaped stands for itself. -/
theorem stringText_of_plain {s : List Char} (h : s.all (decide <| Plain ·) = true) :
    StringText s s := by
  induction s with
  | nil => exact .nil
  | cons c s ih =>
    rw [List.all_cons, Bool.and_eq_true, decide_eq_true_eq] at h
    exact .plain h.1 (ih h.2)

/-- The content of a string, whether it stands for a text or not. -/
inductive StringForm : List Char → Prop
  | nil : StringForm []
  | plain {c : Char} {s : List Char} (hc : Plain c) (h : StringForm s) : StringForm (c :: s)
  | short {e c : Char} {s : List Char} (he : (e, c) ∈ shortEscapes) (h : StringForm s) :
      StringForm ('\\' :: e :: s)
  | numeric {x : List Char} {n : Nat} {s : List Char} (hx : Hex x n) (h : StringForm s) :
      StringForm ('\\' :: 'u' :: (x ++ s))

/-! ## Numbers -/

namespace Literal

/-- A zero alone, or digits that do not begin with one. -/
structure Whole (ds : List Char) : Prop where
  run : IsRun Char.isDigit ds
  zero : ds.head? = some '0' → ds = ['0']

/-- The point and the digits after it, if there are any. -/
inductive Fraction : List Char → List Char → Prop
  | absent : Fraction [] []
  | present {ds : List Char} (h : IsRun Char.isDigit ds) : Fraction ds ('.' :: ds)

/-- The power of ten, if there is one: its mark, at most one sign, and digits. -/
inductive Power : Option (Bool × List Char) → List Char → Prop
  | absent : Power none []
  | unsigned {e : Char} {ds : List Char} (he : e = 'e' ∨ e = 'E') (h : IsRun Char.isDigit ds) :
      Power (some (false, ds)) (e :: ds)
  | plus {e : Char} {ds : List Char} (he : e = 'e' ∨ e = 'E') (h : IsRun Char.isDigit ds) :
      Power (some (false, ds)) (e :: '+' :: ds)
  | minus {e : Char} {ds : List Char} (he : e = 'e' ∨ e = 'E') (h : IsRun Char.isDigit ds) :
      Power (some (true, ds)) (e :: '-' :: ds)

/-- A number without its minus sign. -/
inductive Unsigned (l : Literal) : List Char → Prop
  | mk {f p : List Char} (hw : Whole l.whole) (hf : Fraction l.fraction f) (hp : Power l.power p) :
      Unsigned l (l.whole ++ (f ++ p))

/-- The text of a number. -/
inductive Written (l : Literal) : List Char → Prop
  | positive {s : List Char} (hl : l.negative = false) (h : Unsigned l s) : Written l s
  | negative {s : List Char} (hl : l.negative = true) (h : Unsigned l s) : Written l ('-' :: s)

/-- Digits alone are a number. -/
theorem unsigned_of_whole {negative : Bool} {ds : List Char} (h : Whole ds) :
    Unsigned ⟨negative, ds, [], none⟩ ds := by
  have hmk : Unsigned ⟨negative, ds, [], none⟩ (ds ++ ([] ++ [])) := .mk h .absent .absent
  rw [List.append_nil, List.append_nil] at hmk
  exact hmk

/-- The number is written as an integer, with neither a fraction nor a power of ten nor a minus sign
before zero, and it is the word `w`. -/
structure Denotes (l : Literal) (w : Word) : Prop where
  fraction : l.fraction = []
  power : l.power = none
  zero : Numeral.baseTen l.whole = 0 → l.negative = false
  value : w.val = if l.negative then -(Numeral.baseTen l.whole : Int) else Numeral.baseTen l.whole

theorem Denotes.unique {l : Literal} {v w : Word} (hv : l.Denotes v) (hw : l.Denotes w) : v = w :=
  Word.ext (hv.value.trans hw.value.symm)

end Literal

/-! ## Values of any kind -/

/-- The values that are words. -/
def words : List (List Char) := ["null".toList, "true".toList, "false".toList]

/-- The character that begins a list or an object. -/
def Bracket.opening : Bracket → Char
  | square => '['
  | curly => '\x7b'

/-- What stands before a value inside a bracket. -/
inductive ItemKey : Bracket → List Char → Prop
  | square : ItemKey .square []
  | curly {s k : List Char} (hs : StringForm s) (hk : Spaced (inQuotes s) k) :
      ItemKey .curly (k ++ [':'])

/-- The parts of a text that the grammar names. -/
inductive Category where
  | value
  /-- What stands inside a bracket: at least one value, with its key if it needs one. -/
  | items (b : Bracket)

/-- A text of a category. -/
inductive WellFormed : Category → List Char → Prop
  | word {s : List Char} (h : s ∈ words) : WellFormed .value s
  | number {l : Literal} {s : List Char} (h : l.Written s) : WellFormed .value s
  | string {s : List Char} (h : StringForm s) : WellFormed .value (inQuotes s)
  | empty {b : Bracket} {w : List Char} (hw : Space w) :
      WellFormed .value (b.opening :: (w ++ [b.close]))
  | filled {b : Bracket} {s : List Char} (h : WellFormed (.items b) s) :
      WellFormed .value (b.opening :: (s ++ [b.close]))
  | last {b : Bracket} {k v s : List Char} (hk : ItemKey b k) (hv : WellFormed .value v)
      (hs : Spaced v s) : WellFormed (.items b) (k ++ s)
  | more {b : Bracket} {k v s t : List Char} (hk : ItemKey b k) (hv : WellFormed .value v)
      (hs : Spaced v s) (ht : WellFormed (.items b) t) : WellFormed (.items b) (k ++ (s ++ ',' :: t))

/-! ## Objects -/

/-- A key with its colon. -/
def KeyText (key : String) (s : List Char) : Prop :=
  ∃ content k, StringText content key.toList ∧ Spaced (inQuotes content) k ∧ s = k ++ [':']

section
variable {α : Type} (written : α → List Char → Prop)

/-- At least one part, with a comma between each two. -/
inductive Separated : List α → List Char → Prop
  | last {a : α} {s : List Char} (h : written a s) : Separated [a] s
  | more {a : α} {as : List α} {s t : List Char} (h : written a s) (ht : Separated as t) :
      Separated (a :: as) (s ++ ',' :: t)

/-- An object and its members. -/
inductive ObjectText : List α → List Char → Prop
  | empty {w : List Char} (hw : Space w) : ObjectText [] ('\x7b' :: (w ++ ['\x7d']))
  | filled {as : List α} {s : List Char} (h : Separated written as s) :
      ObjectText as ('\x7b' :: (s ++ ['\x7d']))

end

end Reckon.Json
