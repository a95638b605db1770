import Reckon.Proofs.Settings

/-!
# Members of settings

The registers and the mode of settings do not depend on each other nor on any other member
(`foldlM_addMember`), so that only what is given for them counts and not where it stands. Of the
entries of a name the last one counts (`get?_foldlM_addEntry`), and all of them are read if every
number is written as an integer and denotes a word (`exists_foldlM_addEntry_iff`).

Main result: `ofText_members`.
-/

set_option autoImplicit false

namespace Reckon.Config

open Json
open Text (Piece)

/-! ## The registers that entries give -/

/-- `a` is the value of the last entry of the name. -/
inductive LastValue {α : Type} (name : String) (a : α) : List (String × α) → Prop
  | here {rest : List (String × α)} (h : ∀ entry ∈ rest, entry.1 ≠ name) :
      LastValue name a ((name, a) :: rest)
  | there {entry : String × α} {rest : List (String × α)} (h : LastValue name a rest) :
      LastValue name a (entry :: rest)

theorem addEntry_eq_some_iff {b b' : Bindings} {entry : String × Literal} :
    addEntry b entry = some b' ↔ ∃ v, entry.2.Denotes v ∧ b.insert entry.1 v = b' := by
  simp only [addEntry, Option.map_eq_some_iff, wordOf?_eq_some_iff]

/-- Entries can be added if all numbers denote words. -/
theorem exists_foldlM_addEntry_iff {b : Bindings} {entries : List (String × Literal)} :
    (∃ b', entries.foldlM addEntry b = some b') ↔ ∀ entry ∈ entries, ∃ v, entry.2.Denotes v := by
  induction entries generalizing b with
  | nil => simp
  | cons entry entries ih =>
    simp only [List.foldlM_cons, Option.bind_eq_bind, Option.bind_eq_some_iff, List.forall_mem_cons]
    constructor
    · rintro ⟨b', b'', hb, hrest⟩
      obtain ⟨v, hv, -⟩ := addEntry_eq_some_iff.1 hb
      exact ⟨⟨v, hv⟩, ih.1 ⟨b', hrest⟩⟩
    · rintro ⟨⟨v, hv⟩, hrest⟩
      obtain ⟨b', hb'⟩ := ih.2 hrest
      exact ⟨b', _, addEntry_eq_some_iff.2 ⟨v, hv, rfl⟩, hb'⟩

/-- The last entry of a name counts; the value that the name had before is kept if there is none. -/
theorem get?_foldlM_addEntry {b b' : Bindings} {entries : List (String × Literal)}
    (h : entries.foldlM addEntry b = some b') (name : String) (v : Word) :
    b'.get? name = some v ↔ (∃ l, LastValue name l entries ∧ l.Denotes v) ∨
      (∀ entry ∈ entries, entry.1 ≠ name) ∧ b.get? name = some v := by
  induction entries generalizing b with
  | nil =>
    cases h
    constructor
    · intro hb
      exact .inr ⟨by simp, hb⟩
    · rintro (⟨l, ⟨⟩, -⟩ | ⟨-, hb⟩)
      exact hb
  | cons entry entries ih =>
    rw [List.foldlM_cons, Option.bind_eq_bind, Option.bind_eq_some_iff] at h
    obtain ⟨_, hb, h⟩ := h
    obtain ⟨u, hu, rfl⟩ := addEntry_eq_some_iff.1 hb
    rw [ih h, Bindings.get?_insert]
    obtain ⟨key, number⟩ := entry
    constructor
    · rintro (⟨l, hl, hv⟩ | ⟨hrest, hv⟩)
      · exact .inl ⟨l, .there hl, hv⟩
      · split at hv
        · rename_i hname
          cases hname
          cases hv
          exact .inl ⟨number, .here hrest, hu⟩
        · rename_i hname
          exact .inr ⟨List.forall_mem_cons.2 ⟨Ne.symm hname, hrest⟩, hv⟩
    · rintro (⟨l, hl, hv⟩ | ⟨hnone, hv⟩)
      · cases hl with
        | here hrest => exact .inr ⟨hrest, by rw [if_pos rfl, hu.unique hv]⟩
        | there hl => exact .inl ⟨l, hl, hv⟩
      · obtain ⟨hkey, hrest⟩ := List.forall_mem_cons.1 hnone
        exact .inr ⟨hrest, by rw [if_neg (Ne.symm hkey)]; exact hv⟩

/-! ## Members that do not depend on each other -/

namespace Member

/-- The registers, if the member has them. -/
def entries? : Member → Option (List (String × Literal))
  | symbols entries => some entries
  | _ => none

/-- The mode, if the member has it. -/
def mode? : Member → Option Mode
  | mode m => some m
  | _ => none

section
variable {α : Type} {value? : Member → Option α} {make : α → Member} {name : String}

theorem length_filterMap_eq_count (hkey : ∀ member, (value? member).isSome = (member.key == name))
    (members : List Member) :
    (members.filterMap value?).length = (members.map key).count name := by
  induction members with
  | nil => rfl
  | cons member members ih =>
    rw [List.map_cons, List.count_cons, ← ih, ← hkey member]
    cases hv : value? member <;> simp [hv]

/-- A value that is given at most once is the first one that is given. -/
theorem head?_filterMap_eq_some_iff (hkey : ∀ member, (value? member).isSome = (member.key == name))
    (hmake : ∀ member a, value? member = some a ↔ member = make a) {members : List Member}
    (hcount : (members.map key).count name ≤ 1) (a : α) :
    (members.filterMap value?).head? = some a ↔ make a ∈ members := by
  rw [← length_filterMap_eq_count hkey] at hcount
  have hmem : a ∈ members.filterMap value? ↔ make a ∈ members := by simp [List.mem_filterMap, hmake]
  rw [← hmem]
  match members.filterMap value?, hcount with
  | [], _ => simp
  | [b], _ => simp [eq_comm]

end

theorem entries?_eq_some_iff (member : Member) (entries : List (String × Literal)) :
    member.entries? = some entries ↔ member = symbols entries := by
  cases member <;> simp [entries?]

theorem mode?_eq_some_iff (member : Member) (m : Mode) :
    member.mode? = some m ↔ member = mode m := by
  cases member <;> simp [mode?]

theorem isSome_entries? (member : Member) : member.entries?.isSome = (member.key == "symbols") := by
  cases member with
  | other key hsymbols hmode => simpa [entries?, Member.key] using hsymbols
  | symbols | mode => rfl

theorem isSome_mode? (member : Member) : member.mode?.isSome = (member.key == "mode") := by
  cases member with
  | other key hsymbols hmode => simpa [mode?, Member.key] using hmode
  | symbols | mode => rfl

end Member

/-- What is set may not be set again. -/
def setOnce {α β : Type} (value? : α → Option β) : Option β → α → Option (Option β)
  | some _, _ => none
  | none, a => (value? a).map some

theorem foldlM_setOnce {α β : Type} {value? : α → Option β} {as : List α} (h : as.length ≤ 1) :
    as.foldlM (setOnce value?) none = as.head?.elim (some none) fun a => (value? a).map some := by
  match as, h with
  | [], _ => rfl
  | [a], _ => simp [setOnce]

/-- The registers and the mode are read independently of each other and of all other members. -/
theorem foldlM_addMember (members : List Member) (m : Members) :
    members.foldlM addMember m =
      ((members.filterMap Member.entries?).foldlM (setOnce (List.foldlM addEntry .empty))
        m.symbols).bind fun symbols =>
      ((members.filterMap Member.mode?).foldlM (setOnce some) m.mode).map (Members.mk symbols) := by
  induction members generalizing m with
  | nil => rfl
  | cons member members ih =>
    obtain ⟨symbols, mode⟩ := m
    simp only [List.foldlM_cons, List.filterMap_cons]
    cases member with
    | symbols entries =>
      cases symbols with
      | some b => simp [addMember, Member.entries?, setOnce]
      | none =>
        cases hb : entries.foldlM addEntry .empty <;>
          simp [addMember, Member.entries?, Member.mode?, setOnce, hb, ih]
    | mode m =>
      cases mode with
      | some b => simp [addMember, Member.entries?, Member.mode?, setOnce]
      | none => simp [addMember, Member.entries?, Member.mode?, setOnce, ih]
    | other key hsymbols hmode =>
      simp [addMember, Member.entries?, Member.mode?, ih]

/-! ## Settings -/

/-- Every number of a register is written as an integer and denotes a word. -/
def Exact (members : List Member) : Prop :=
  ∀ entries, Member.symbols entries ∈ members → ∀ entry ∈ entries, ∃ v, entry.2.Denotes v

/-- The settings that members give: what is given counts, and what is not given is standard. -/
structure Gives (members : List Member) (c : Config) : Prop where
  /-- The last of several entries of a name counts. -/
  registers : ∀ entries, Member.symbols entries ∈ members → ∀ name v,
    c.symbols.get? name = some v ↔ ∃ l, LastValue name l entries ∧ l.Denotes v
  standardRegisters : (∀ entries, Member.symbols entries ∉ members) →
    c.symbols.toList = [("ONE", 1), ("TWO", 2)]
  mode : ∀ m, Member.mode m ∈ members → c.mode = m
  standardMode : (∀ m, Member.mode m ∉ members) → c.mode = .lenient

section
variable {members : List Member} (hsymbols : (members.map Member.key).count "symbols" ≤ 1)
  (hmode : (members.map Member.key).count "mode" ≤ 1)
include hsymbols hmode

/-- Where neither is given twice, the registers and the mode are those of the only member. -/
theorem foldlM_addMember_of_count :
    members.foldlM addMember {} =
      ((members.filterMap Member.entries?).head?.elim (some none) fun entries =>
        (entries.foldlM addEntry .empty).map some).map fun symbols =>
          ⟨symbols, (members.filterMap Member.mode?).head?⟩ := by
  rw [← Member.length_filterMap_eq_count Member.isSome_entries?] at hsymbols
  rw [← Member.length_filterMap_eq_count Member.isSome_mode?] at hmode
  rw [foldlM_addMember, foldlM_setOnce hsymbols, foldlM_setOnce hmode]
  cases (members.filterMap Member.mode?).head? <;> simp [Option.map_eq_bind]

omit hsymbols in
theorem mode_config (symbols : Option Bindings) :
    let c := Members.config ⟨symbols, (members.filterMap Member.mode?).head?⟩
    (∀ m, Member.mode m ∈ members → c.mode = m) ∧
      ((∀ m, Member.mode m ∉ members) → c.mode = .lenient) := by
  have hmodes := Member.head?_filterMap_eq_some_iff Member.isSome_mode?
    Member.mode?_eq_some_iff hmode
  refine ⟨fun m hm => ?_, fun hnone => ?_⟩
  · simp [Members.config, (hmodes m).2 hm]
  · have hhead : (members.filterMap Member.mode?).head? = none :=
      Option.eq_none_iff_forall_ne_some.2 fun m hm => hnone m ((hmodes m).1 hm)
    simp [Members.config, hhead, standard]

theorem exists_gives (h : Exact members) :
    ∃ m, members.foldlM addMember {} = some m ∧ Gives members m.config := by
  have hentries := Member.head?_filterMap_eq_some_iff Member.isSome_entries?
    Member.entries?_eq_some_iff hsymbols
  rw [foldlM_addMember_of_count hsymbols hmode]
  cases hs : (members.filterMap Member.entries?).head? with
  | none =>
    rw [hs] at hentries
    obtain ⟨hgiven, hstandard⟩ := mode_config hmode none
    refine ⟨_, rfl, ⟨fun entries he => ?_, fun _ => ?_, hgiven, hstandard⟩⟩
    · cases (hentries entries).2 he
    · show Registers.standardBindings.toList = _
      decide
  | some entries =>
    rw [hs] at hentries
    have hmem := (hentries entries).1 rfl
    obtain ⟨b, hb⟩ := exists_foldlM_addEntry_iff.2 (h entries hmem)
    obtain ⟨hgiven, hstandard⟩ := mode_config hmode (some b)
    refine ⟨_, by rw [Option.elim_some, hb]; rfl, ⟨fun entries' he name v => ?_, fun hnone => ?_,
      hgiven, hstandard⟩⟩
    · cases (hentries entries').2 he
      rw [Members.config, Option.getD_some, get?_foldlM_addEntry hb]
      simp [Bindings.empty, Bindings.get?]
    · exact absurd hmem (hnone entries)

theorem foldlM_addMember_eq_none (h : ¬Exact members) : members.foldlM addMember {} = none := by
  have hentries := Member.head?_filterMap_eq_some_iff Member.isSome_entries?
    Member.entries?_eq_some_iff hsymbols
  rw [foldlM_addMember_of_count hsymbols hmode]
  simp only [Exact, not_forall, not_exists] at h
  obtain ⟨entries, hmem, entry, he, hv⟩ := h
  have hnone : entries.foldlM addEntry .empty = none := by
    refine Option.eq_none_iff_forall_ne_some.2 fun b hb => ?_
    obtain ⟨v, hv'⟩ := exists_foldlM_addEntry_iff.1 ⟨b, hb⟩ entry he
    exact hv v hv'
  rw [(hentries entries).2 hmem, Option.elim_some, hnone]
  rfl

end

/-- An object is read as the settings that its members give, whatever other members it has and in
whatever order they come. If a number denotes no word, the text is refused. -/
theorem ofText_members {members : List Member} {text : String} (h : Document members text.toList)
    (hsymbols : (members.map Member.key).count "symbols" ≤ 1)
    (hmode : (members.map Member.key).count "mode" ≤ 1) :
    (Exact members → ∃ c, ofText text = .ok c ∧ Gives members c) ∧
      (¬Exact members → ∃ fault : Fault,
        ofText text = .error (.config ("Failed to parse config: " ++ fault.message))) := by
  have hread := read_document h
  constructor
  · intro hexact
    obtain ⟨m, hm, hgives⟩ := exists_gives hsymbols hmode hexact
    rw [hm, Option.map_some, toOption_eq_some_iff] at hread
    refine ⟨m.config, ?_, hgives⟩
    rw [ofText, hread]
    rfl
  · intro hexact
    rw [foldlM_addMember_eq_none hsymbols hmode hexact, Option.map_none] at hread
    cases hr : read (Piece.ofText text.toList) with
    | error fault => exact ⟨fault, by rw [ofText, hr]; rfl⟩
    | ok c =>
      rw [hr] at hread
      cases hread

/-- A nested value that is not used, an escape in a key and a name that occurs twice. -/
theorem document_nested :
    Document [.other "a" (by decide) (by decide), .mode .complete,
        .symbols [("A", ⟨false, ['1'], [], none⟩),
          ("A", ⟨true, "9223372036854775808".toList, [], none⟩)]]
      ("\t\x7b\x22a\x22:[-1.5e3,\x7b\x22b\x22:null\x7d] ,\x22\\u006dode\x22:\x22complete\x22," ++
        "\x22symbols\x22:\x7b\x22A\x22:1,\x22A\x22:-9223372036854775808\x7d\x7d").toList := by
  -- the member of another name
  have hnull : WellFormed .value "null".toList := .word (by decide)
  have hkeyb : ItemKey .curly "\x22b\x22:".toList := .curly (.plain (by decide) .nil) (spaced_self _)
  have hobject : WellFormed .value "\x7b\x22b\x22:null\x7d".toList :=
    .filled (.last hkeyb hnull (spaced_self _))
  have hnumber : Literal.Written ⟨true, ['1'], ['5'], some (false, ['3'])⟩ "-1.5e3".toList :=
    .negative rfl (.mk ⟨by decide, by decide⟩ (.present (by decide))
      (.unsigned (.inl rfl) (by decide)))
  have hlist : WellFormed .value "[-1.5e3,\x7b\x22b\x22:null\x7d]".toList :=
    .filled (.more .square (.number hnumber) (spaced_self _) (.last .square hobject (spaced_self _)))
  have hkeya : KeyText "a" "\x22a\x22:".toList :=
    ⟨_, _, stringText_of_plain (by decide), spaced_self _, rfl⟩
  -- the mode
  have hescaped : StringText "\\u006dode".toList "mode".toList :=
    .numeric (.mk (x := 0) (y := 0) (z := 6) (w := 13) (.inl rfl) (.inl rfl) (.inl rfl) (.inl rfl))
      (by decide) (stringText_of_plain (by decide))
  have hkeymode : KeyText "mode" "\x22\\u006dode\x22:".toList := ⟨_, _, hescaped, spaced_self _, rfl⟩
  -- the registers
  have hone : Literal.Written ⟨false, ['1'], [], none⟩ ['1'] :=
    .positive rfl (Literal.unsigned_of_whole ⟨by decide, by decide⟩)
  have hleast : Literal.Written ⟨true, "9223372036854775808".toList, [], none⟩
      "-9223372036854775808".toList :=
    .negative rfl (Literal.unsigned_of_whole ⟨by decide, by decide⟩)
  have hkeyA : KeyText "A" "\x22A\x22:".toList :=
    ⟨_, _, stringText_of_plain (by decide), spaced_self _, rfl⟩
  have hfirst : EntryText ("A", ⟨false, ['1'], [], none⟩) "\x22A\x22:1".toList :=
    ⟨_, _, _, hkeyA, hone, spaced_self _, rfl⟩
  have hlast : EntryText ("A", ⟨true, "9223372036854775808".toList, [], none⟩)
      "\x22A\x22:-9223372036854775808".toList := ⟨_, _, _, hkeyA, hleast, spaced_self _, rfl⟩
  have hkeysymbols : KeyText "symbols" "\x22symbols\x22:".toList :=
    ⟨_, _, stringText_of_plain (by decide), spaced_self _, rfl⟩
  refine ⟨_, .filled (.more (.other hkeya hlist ⟨[], [' '], ?_, ?_, rfl⟩)
    (.more (.mode hkeymode (stringText_of_plain (by decide)) (spaced_self _))
      (.last (.symbols hkeysymbols (.filled (.more hfirst (.last hlast))) (spaced_self _))))),
    ⟨['\t'], [], ?_, ?_, ?_⟩⟩ <;> decide

theorem document_zero :
    Document [.symbols [("A", ⟨true, ['0'], [], none⟩)]]
      "\x7b\x22symbols\x22:\x7b\x22A\x22:-0\x7d\x7d".toList := by
  have hzero : Literal.Written ⟨true, ['0'], [], none⟩ "-0".toList :=
    .negative rfl (Literal.unsigned_of_whole ⟨by decide, by decide⟩)
  have hkeyA : KeyText "A" "\x22A\x22:".toList :=
    ⟨_, _, stringText_of_plain (by decide), spaced_self _, rfl⟩
  have hentry : EntryText ("A", ⟨true, ['0'], [], none⟩) "\x22A\x22:-0".toList :=
    ⟨_, _, _, hkeyA, hzero, spaced_self _, rfl⟩
  have hkeysymbols : KeyText "symbols" "\x22symbols\x22:".toList :=
    ⟨_, _, stringText_of_plain (by decide), spaced_self _, rfl⟩
  exact ⟨_, .filled (.last (.symbols hkeysymbols (.filled (.last hentry)) (spaced_self _))),
    spaced_self _⟩

theorem ofText_members_nested :
    (∃ c, ofText ("\t\x7b\x22a\x22:[-1.5e3,\x7b\x22b\x22:null\x7d] ,\x22\\u006dode\x22:" ++
        "\x22complete\x22,\x22symbols\x22:\x7b\x22A\x22:1,\x22A\x22:-9223372036854775808\x7d\x7d") =
        .ok c ∧ c.symbols.get? "A" = some (Word.clamp (-9223372036854775808)) ∧ c.mode = .complete) ∧
      ∃ fault : Fault, ofText "\x7b\x22symbols\x22:\x7b\x22A\x22:-0\x7d\x7d" =
        .error (.config ("Failed to parse config: " ++ fault.message)) := by
  constructor
  · have hone : Literal.Denotes ⟨false, ['1'], [], none⟩ 1 := ⟨rfl, rfl, by decide, by decide⟩
    have hleast : Literal.Denotes ⟨true, "9223372036854775808".toList, [], none⟩
        (Word.clamp (-9223372036854775808)) := ⟨rfl, rfl, by decide, by decide⟩
    obtain ⟨c, hc, hgives⟩ := (ofText_members document_nested (by decide) (by decide)).1 (by
      intro entries hmem
      simp only [List.mem_cons, reduceCtorEq, Member.symbols.injEq, List.not_mem_nil, or_false,
        false_or] at hmem
      subst hmem
      simp only [List.forall_mem_cons, List.not_mem_nil, false_implies, implies_true, and_true]
      exact ⟨⟨_, hone⟩, _, hleast⟩)
    -- the last of the two entries counts
    have hregisters := hgives.registers _ (.tail _ (.tail _ (.head _))) "A"
    exact ⟨c, hc, (hregisters _).2 ⟨_, .there (.here (by simp)), hleast⟩,
      hgives.mode _ (.tail _ (.head _))⟩
  · apply (ofText_members document_zero (by decide) (by decide)).2
    intro hexact
    obtain ⟨v, hv⟩ := hexact _ List.mem_cons_self _ List.mem_cons_self
    cases hv.zero (by decide)

end Reckon.Config
