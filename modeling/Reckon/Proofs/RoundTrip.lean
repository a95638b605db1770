import Reckon.Config.Writer
import Reckon.Proofs.JsonText
import Reckon.Proofs.Settings

/-!
# Settings that were written

Reading undoes writing (`ofText_toText`). The written form of settings is an object of the grammar
with two members, the registers and the mode (`document_write`), so it is read as these members say.
As the registers are written in the order in which they are kept, adding them one after the other to
no bindings gives the same bindings (`Bindings.ofList_toList`).
-/

set_option autoImplicit false

namespace Reckon.Config

open Json
open Text (Piece)

/-! ## Objects -/

section
variable {α β : Type} {written : α → List Char → Prop} {part : β → α} {write : β → List Char}

/-- Parts that are written with a comma between each two. -/
theorem separated_commaSeparated (hwrite : ∀ b, written (part b) (write b)) (b : β) (bs : List β) :
    Separated written ((b :: bs).map part) (commaSeparated ((b :: bs).map write)) := by
  induction bs generalizing b with
  | nil =>
    have hlast : commaSeparated [write b] = write b := by simp [commaSeparated]
    rw [List.map_singleton, List.map_singleton, hlast]
    exact .last (hwrite b)
  | cons b' bs ih =>
    have hmore : commaSeparated ((b :: b' :: bs).map write) =
        write b ++ ',' :: commaSeparated ((b' :: bs).map write) := by
      simp [commaSeparated, List.intercalate_cons_cons]
    rw [hmore]
    exact .more (hwrite b) (ih b')

theorem objectText_commaSeparated (hwrite : ∀ b, written (part b) (write b)) (bs : List β) :
    ObjectText written (bs.map part) ('\x7b' :: (commaSeparated (bs.map write) ++ ['\x7d'])) := by
  cases bs with
  | nil => exact .empty (w := []) (by decide)
  | cons b bs => exact .filled (separated_commaSeparated hwrite b bs)

end

/-! ## Members -/

/-- A key that is written without white space. -/
theorem keyText_quote (key : String) : KeyText key (quote key.toList ++ [':']) :=
  ⟨_, _, stringText_quote key.toList, spaced_self _, rfl⟩

/-- The entry that is written for a binding. -/
def entryOf (b : Binding) : String × Literal := (b.1, .ofWord b.2)

theorem entryText_writeBinding (b : Binding) : EntryText (entryOf b) (writeBinding b) := by
  refine ⟨_, _, _, keyText_quote b.1, Literal.written_ofWord b.2, spaced_self _, ?_⟩
  simp [writeBinding]

theorem document_write (c : Config) :
    Document [.symbols (c.symbols.toList.map entryOf), .mode c.mode] c.write := by
  have hentries := objectText_commaSeparated entryText_writeBinding c.symbols.toList
  have hsymbols := Member.Written.symbols (keyText_quote "symbols") hentries (spaced_self _)
  have hmode := Member.Written.mode (keyText_quote "mode") (stringText_quote c.mode.text.toList)
    (spaced_self _)
  refine ⟨_, .filled (.more hsymbols (.last hmode)), ?_⟩
  have hwrite : c.write = '\x7b' :: (quote "symbols".toList ++ [':'] ++
      '\x7b' :: (commaSeparated (c.symbols.toList.map writeBinding) ++ ['\x7d']) ++
        ',' :: (quote "mode".toList ++ [':'] ++ quote c.mode.text.toList) ++ ['\x7d']) := by
    simp only [write, List.append_assoc, List.cons_append, List.nil_append]
  rw [hwrite]
  exact spaced_self _

theorem foldlM_addEntry_entryOf (b : Bindings) (bs : List Binding) :
    (bs.map entryOf).foldlM addEntry b = some (b.insertAll bs) := by
  induction bs generalizing b with
  | nil => rfl
  | cons entry bs ih =>
    have hword := wordOf?_eq_some_iff.2 (Literal.denotes_ofWord entry.2)
    simp [addEntry, entryOf, hword]
    exact ih _

/-- Settings are read back from their written form. -/
theorem read_write (c : Config) : read (Piece.ofText c.write) = .ok c := by
  rw [← toOption_eq_some_iff, read_document (document_write c)]
  have hsymbols : (c.symbols.toList.map entryOf).foldlM addEntry .empty = some c.symbols := by
    rw [foldlM_addEntry_entryOf]
    exact congrArg some c.symbols.ofList_toList
  simp [addMember, hsymbols, Members.config]

theorem ofText_written (c : Config) : ofText c.toText = .ok c := by
  rw [ofText, toText, String.toList_ofList, read_write]
  rfl

/-- The written form of settings is read as these settings, so no other settings have it. -/
theorem ofText_toText (c : Config) :
    ofText c.toText = .ok c ∧ ∀ c' : Config, c'.toText = c.toText ↔ c' = c := by
  refine ⟨ofText_written c, fun c' => ⟨fun h => ?_, fun h => h ▸ rfl⟩⟩
  have hc' := ofText_written c'
  rw [h, ofText_written c] at hc'
  cases hc'
  rfl

example : (⟨Bindings.ofList [("a\x22\\\x01é", Word.clamp (-9223372036854775808)), ("", 7)],
    .complete⟩ : Config).write =
      ("\x7b\x22symbols\x22:\x7b\x22\x22:7,\x22a\\\x22\\\\\\u0001é\x22:-9223372036854775808" ++
        "\x7d,\x22mode\x22:\x22complete\x22\x7d").toList := by
  decide +kernel

end Reckon.Config
