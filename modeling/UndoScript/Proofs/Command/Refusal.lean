/-
# Why a line is no command

A line is refused with its number and its text, but for two cases: a number of
more digits than are read, and a text with a line feed inside. The lines of a
script have no line feed, so in a script only the first case is left. A script
is refused for the first of its lines that is.

Key definitions: `Command.SpellsText`, `Command.Refuses`,
`Command.HasLongNumeral`, `Script.StopsAt`, `Script.NumeralsFit`.
Key theorems: `Command.read_eq_error_iff`, `Command.parse_eq_error_iff`,
`Script.parse_eq_error_iff`, `Script.StopsAt.refusal`.
-/
import UndoScript.Proofs.Command.Phrase
import UndoScript.Proofs.Command.RoundTrip

namespace UndoScript
namespace Command

/-- The line is the keyword and this text, bare or between quotes. -/
def SpellsText (line : Text) (k : Keyword) (t : Text) : Prop :=
  (Spells line k t ∧ t.head? ≠ some (.char '"')) ∨ Spells line k (.char '"' :: (t ++ [.char '"']))

/-- The line is no command, for this cause. -/
inductive Refuses (line : Text) (lineno : Int) : Fault → Prop
  | unknownCommand : (∀ k rest, ¬ Spells line k rest) →
    Refuses line lineno (.badLine lineno (lineText line) .unknownCommand)
  | takesNothing {k : Keyword} {rest : Text} : Spells line k rest → rest ≠ [] →
    k.kind = .nothing → Refuses line lineno (.badLine lineno (lineText line) (.takesNothing k))
  | expectsNumber {k : Keyword} {rest : Text} : Spells line k rest → rest ≠ [] →
    k.kind = .number → Numeral.isNumeral rest = false →
    Refuses line lineno (.badLine lineno (lineText line) (.expectsNumber k))
  | numeralTooLong {k : Keyword} {digits : Text} : Spells line k digits → k.kind = .number →
    Numeral.isNumeral digits = true → Numeral.limit < digits.length →
    Refuses line lineno (.numeralTooLong digits.length)
  | unterminatedString {k : Keyword} {rest : Text} : Spells line k rest → k.kind = .string →
    rest.head? = some (.char '"') → (∀ t, rest ≠ .char '"' :: (t ++ [.char '"'])) →
    Refuses line lineno (.badLine lineno (lineText line) .unterminatedString)
  | spansLines {k : Keyword} {t : Text} : SpellsText line k t → k.kind = .string →
    .newline ∈ t → Refuses line lineno (.broken (.spansLines k))

variable {line rest : Text} {lineno : Int} {k : Keyword} {f : Fault}

theorem read_of_spells_ne (h : Spells line k rest) (hne : rest ≠ []) (lineno : Int) :
    read line lineno = parseArgument lineno (lineText line) k rest := by
  rw [read_of_spells h, if_neg (by simpa using hne)]

/-- A number that can be read is never refused, and a text only for a line feed in it. -/
theorem refuses_of_parseArgument (hspells : Spells line k rest) (hne : rest ≠ [])
    (h : parseArgument lineno (lineText line) k rest = .error f) : Refuses line lineno f := by
  unfold parseArgument at h
  cases hkind : k.kind with
  | nothing =>
    rw [hkind] at h
    cases h
    exact .takesNothing hspells hne hkind
  | number =>
    rw [hkind] at h
    dsimp only at h
    split at h
    · next hnumeral =>
      split at h
      · exact absurd h (number_ne_error hkind)
      · next hlength =>
        cases h
        exact .numeralTooLong hspells hkind hnumeral (Nat.lt_of_not_le hlength)
    · next hnumeral =>
      cases h
      exact .expectsNumber hspells hne hkind (by simpa using hnumeral)
  | string =>
    rw [hkind] at h
    dsimp only at h
    split at h
    · next hquote =>
      split at h
      · next t hunquote =>
        obtain rfl := (unquote?_eq_some_iff hquote).1 hunquote
        obtain ⟨hmem, rfl⟩ := (string_eq_error_iff hkind).1 h
        exact .spansLines (.inr hspells) hkind hmem
      · next hunquote =>
        cases h
        refine .unterminatedString hspells hkind hquote fun t ht => ?_
        rw [(unquote?_eq_some_iff hquote).2 ht] at hunquote
        cases hunquote
    · next hquote =>
      obtain ⟨hmisfit, rfl⟩ := make_eq_error_iff.1 h
      have hmem : Glyph.newline ∈ rest := by simpa [Argument.Fits, hkind] using hmisfit
      have hrule : (Argument.bare rest).misfit k = .spansLines k := by
        unfold Argument.misfit
        rw [hkind]
      rw [hrule, Fault.inWords_spansLines]
      exact .spansLines (.inl ⟨hspells, hquote⟩) hkind hmem

/-- **A line is refused for its one cause.** -/
theorem read_eq_error_iff : read line lineno = .error f ↔ Refuses line lineno f := by
  constructor
  · intro h
    by_cases hspells : ∃ k rest, Spells line k rest
    · obtain ⟨k, rest, hspells⟩ := hspells
      rw [read_of_spells hspells] at h
      split at h
      · cases h
      · next hrest => exact refuses_of_parseArgument hspells (by simpa using hrest) h
    · have hnone : ∀ k rest, ¬ Spells line k rest := fun k rest h => hspells ⟨k, rest, h⟩
      rw [read_of_not_spells hnone] at h
      cases h
      exact .unknownCommand hnone
  · intro h
    cases h with
    | unknownCommand hnone => exact read_of_not_spells hnone lineno
    | takesNothing hspells hne hkind =>
      rw [read_of_spells_ne hspells hne, parseArgument, hkind]
      rfl
    | expectsNumber hspells hne hkind hnumeral =>
      rw [read_of_spells_ne hspells hne, parseArgument, hkind]
      dsimp only
      rw [if_neg (by simp [hnumeral])]
      rfl
    | numeralTooLong hspells hkind hnumeral hlength =>
      have hne := List.ne_nil_of_length_pos (Nat.zero_lt_of_lt hlength)
      rw [read_of_spells_ne hspells hne, parseArgument, hkind]
      dsimp only
      rw [if_pos hnumeral, if_neg (Nat.not_le_of_lt hlength)]
      rfl
    | @unterminatedString k rest hspells hkind hquote hopen =>
      have hne : rest ≠ [] := by
        rintro rfl
        cases hquote
      have hunquote : unquote? rest = none := by
        rw [Option.eq_none_iff_forall_ne_some]
        exact fun t ht => hopen t ((unquote?_eq_some_iff hquote).1 ht)
      rw [read_of_spells_ne hspells hne, parseArgument, hkind]
      dsimp only
      rw [if_pos hquote, hunquote]
      rfl
    | @spansLines k t htext hkind hmem =>
      rcases htext with ⟨hspells, hquote⟩ | hspells
      · rw [read_of_spells_ne hspells (List.ne_nil_of_mem hmem), parseArgument_bare hkind hquote,
          make_eq_error_iff]
        simp [Argument.Fits, Argument.misfit, hkind, hmem]
      · rw [read_of_spells_ne hspells (List.cons_ne_nil _ _), parseArgument_quoted hkind]
        exact (string_eq_error_iff hkind).2 ⟨hmem, rfl⟩

/-- A line has one cause to be refused. -/
theorem Refuses.unique {g : Fault} (h : Refuses line lineno f) (h' : Refuses line lineno g) :
    f = g :=
  Except.error.inj ((read_eq_error_iff.2 h).symm.trans (read_eq_error_iff.2 h'))

/-- Only a line's number can make a cause impossible to tell. -/
theorem Refuses.inWords_eq (h : Refuses line lineno f) (hlineno : Numeral.Writable lineno) :
    f.inWords = f := by
  cases h with
  | numeralTooLong => exact Fault.inWords_of_renders trivial
  | spansLines => exact Fault.inWords_spansLines _
  | _ => exact Fault.inWords_of_renders hlineno

/-- The cause is told in words. -/
theorem parse_eq_error_iff :
    parse line lineno = .error f ↔ ∃ g, Refuses line lineno g ∧ f = g.inWords := by
  simp only [parse_eq_error_iff_read, read_eq_error_iff]

/-- A cause that can be told is the failure itself. -/
theorem parse_eq_error_iff_of_ne (hf : f ≠ .numberTooLarge) :
    parse line lineno = .error f ↔ Refuses line lineno f ∧ f.Renders := by
  rw [parse_eq_error_iff]
  constructor
  · rintro ⟨g, hrefuses, rfl⟩
    by_cases hg : g.Renders
    · rw [Fault.inWords_of_renders hg]
      exact ⟨hrefuses, hg⟩
    · exact absurd (if_neg hg) hf
  · rintro ⟨hrefuses, hrenders⟩
    exact ⟨f, hrefuses, (Fault.inWords_of_renders hrenders).symm⟩

/-- A line whose number can be written is refused for its cause as it is. -/
theorem parse_eq_read (hlineno : Numeral.Writable lineno) : parse line lineno = read line lineno := by
  unfold parse
  cases hread : read line lineno with
  | ok c => rfl
  | error f => exact congrArg Except.error ((read_eq_error_iff.1 hread).inWords_eq hlineno)

/-! ### Lines without line feeds -/

/-- The line is a keyword that takes a number, with a run of digits too long to be read. -/
def HasLongNumeral (line : Text) : Prop :=
  ∃ k, Keyword.ofName? (firstWord (lineText line)).capitals = some k ∧ k.kind = .number ∧
    Numeral.isNumeral (afterFirstWord (lineText line)) = true ∧
    Numeral.limit < (afterFirstWord (lineText line)).length

theorem hasLongNumeral_iff : HasLongNumeral line ↔ ∃ k digits, Spells line k digits ∧
    k.kind = .number ∧ Numeral.isNumeral digits = true ∧ Numeral.limit < digits.length := by
  unfold HasLongNumeral
  simp only [spells_iff]
  constructor
  · rintro ⟨k, hk, hlong⟩
    exact ⟨k, _, ⟨hk, rfl⟩, hlong⟩
  · rintro ⟨k, digits, ⟨hk, rfl⟩, hlong⟩
    exact ⟨k, hk, hlong⟩

theorem HasLongNumeral.refuses (h : HasLongNumeral line) (lineno : Int) :
    ∃ digits, Refuses line lineno (.numeralTooLong digits) := by
  obtain ⟨k, digits, hspells, hkind, hnumeral, hlong⟩ := hasLongNumeral_iff.1 h
  exact ⟨digits.length, .numeralTooLong hspells hkind hnumeral hlong⟩

/-- What is too large to be written would be too long to be read. -/
theorem hasLongNumeral_text {c : Command} {n : Int} (hargument : c.argument = .number n)
    (hn : 0 ≤ n) (hlarge : ¬ Numeral.Writable n) : HasLongNumeral c.text := by
  have hread : c.argument.ReadsBack := by
    rw [hargument]
    exact hn
  have hspells := spells_text (isIndent_of_head?_spelled hread)
  have hkind : c.keyword.kind = .number := by
    have hfits := c.fits
    rwa [hargument] at hfits
  rw [hargument, Argument.spelled_number, Numeral.written_of_nonneg hn] at hspells
  exact hasLongNumeral_iff.2
    ⟨c.keyword, _, hspells, hkind, Numeral.isNumeral_digits _, Nat.lt_of_not_le hlarge⟩

theorem lineText_of_not_mem (h : Glyph.newline ∉ line) : lineText line = line :=
  Text.trimEnd_eq_self fun g hg => by
    have hne : g ≠ .newline := fun he => h (he ▸ List.mem_of_getLast? hg)
    simpa using hne

theorem SpellsText.isInfix {t : Text} (h : SpellsText line k t) : t <:+: line := by
  rcases h with ⟨hspells, -⟩ | hspells
  · exact hspells.isInfix
  · have hinside : t <:+: .char '"' :: (t ++ [.char '"']) := ⟨[.char '"'], [.char '"'], rfl⟩
    exact hinside.trans hspells.isInfix

/-- **A line without line feeds is refused as a line,** unless its number is too long. -/
theorem refusal_of_refuses (h : Refuses line lineno f) (hline : Glyph.newline ∉ line) :
    (¬ HasLongNumeral line ∧ ∃ why, f = .badLine lineno line why) ∨
      (HasLongNumeral line ∧ ∃ digits, f = .numeralTooLong digits) := by
  by_cases hlong : HasLongNumeral line
  · obtain ⟨digits, hrefuses⟩ := hlong.refuses lineno
    exact .inr ⟨hlong, digits, h.unique hrefuses⟩
  · refine .inl ⟨hlong, ?_⟩
    have htext := lineText_of_not_mem hline
    cases h with
    | numeralTooLong hspells hkind hnumeral hlength =>
      exact absurd (hasLongNumeral_iff.2 ⟨_, _, hspells, hkind, hnumeral, hlength⟩) hlong
    | spansLines hspells _ hmem => exact absurd (hspells.isInfix.subset hmem) hline
    | _ => exact ⟨_, by rw [htext]⟩

/-- A line has no number longer than itself. -/
theorem not_hasLongNumeral (h : line.length ≤ Numeral.limit) : ¬ HasLongNumeral line := by
  rw [hasLongNumeral_iff]
  rintro ⟨k, digits, hspells, -, -, hlong⟩
  have hlength := hspells.isInfix.length_le
  omega

end Command

namespace Script

/-- No line of the script has a number that is too long to be read. -/
def NumeralsFit (text : Text) : Prop :=
  ∀ line ∈ text.pieces, line.isBlank = false → ¬ Command.HasLongNumeral line

theorem numeralsFit_of_length_le {text : Text}
    (h : ∀ line ∈ text.pieces, line.length ≤ Numeral.limit) : NumeralsFit text :=
  fun line hline _ => Command.not_hasLongNumeral (h line hline)

/-- A list fails as its first member, or the first member does not fail and the others do. -/
theorem mapM_cons_eq_error_iff {α β : Type} {read : α → Except Fault β} {f : Fault} {a : α}
    {as : List α} : (a :: as).mapM read = .error f ↔
      read a = .error f ∨ ((∃ b, read a = .ok b) ∧ as.mapM read = .error f) := by
  rw [List.mapM_cons]
  cases read a with
  | error g =>
    show Except.error g = Except.error f ↔ _
    simp
  | ok b =>
    cases as.mapM read with
    | error g =>
      show Except.error g = Except.error f ↔ _
      simp
    | ok bs =>
      show Except.ok (b :: bs) = Except.error f ↔ _
      simp

/-- **A list fails as the first of its members that fails.** -/
theorem mapM_eq_error_iff {α β : Type} {read : α → Except Fault β} {f : Fault} :
    ∀ {as : List α}, as.mapM read = .error f ↔ ∃ before a after, as = before ++ a :: after ∧
      (∀ b ∈ before, ∃ c, read b = .ok c) ∧ read a = .error f
  | [] => iff_of_false (fun h => by cases h) (by simp)
  | a :: as => by
    rw [mapM_cons_eq_error_iff, mapM_eq_error_iff]
    constructor
    · rintro (ha | ⟨hok, before, a', after, rfl, hbefore, ha'⟩)
      · exact ⟨[], a, as, rfl, by simp, ha⟩
      · exact ⟨a :: before, a', after, rfl, by simpa using ⟨hok, hbefore⟩, ha'⟩
    · rintro ⟨before, a', after, heq, hbefore, ha'⟩
      cases before with
      | nil =>
        obtain ⟨rfl, rfl⟩ := List.cons.inj heq
        exact .inl ha'
      | cons b before =>
        obtain ⟨rfl, rfl⟩ := List.cons.inj heq
        have hrest : ∀ d ∈ before, ∃ c, read d = .ok c := fun d hd =>
          hbefore d (List.mem_cons_of_mem a hd)
        exact .inr ⟨hbefore a List.mem_cons_self, before, a', after, rfl, hrest, ha'⟩

/-- The line is the first that is refused. -/
def StopsAt (text line : Text) (lineno : Nat) (f : Fault) : Prop :=
  ∃ before after, numberedLines text = before ++ (line, lineno) :: after ∧
    (∀ p ∈ before, ∃ c, Command.parse p.1 p.2 = .ok c) ∧ Command.Refuses line lineno f

variable {text line : Text} {lineno : Nat} {f : Fault}

/-- **A script is refused for the first of its lines that is.** -/
theorem parse_eq_error_iff : parse text = .error f ↔ ∃ line lineno, StopsAt text line lineno f := by
  unfold parse StopsAt
  simp only [Command.parse_eq_ok_iff]
  rw [mapM_eq_error_iff]
  constructor
  · rintro ⟨before, ⟨line, lineno⟩, after, heq, hbefore, hline⟩
    exact ⟨line, lineno, before, after, heq, hbefore, Command.read_eq_error_iff.1 hline⟩
  · rintro ⟨line, lineno, before, after, heq, hbefore, hline⟩
    exact ⟨before, (line, lineno), after, heq, hbefore, Command.read_eq_error_iff.2 hline⟩

/-- The line that is refused is one of the script's, and not blank. -/
theorem StopsAt.mem_pieces (h : StopsAt text line lineno f) :
    line ∈ text.pieces ∧ line.isBlank = false := by
  obtain ⟨before, after, heq, -, -⟩ := h
  have hmem : (line, lineno) ∈ numberedLines text := by simp [heq]
  obtain ⟨hzip, hblank⟩ := List.mem_filter.1 hmem
  exact ⟨List.fst_mem_of_mem_zipIdx hzip, by simpa using hblank⟩

/-- The number of the line that is refused is one of a line. -/
theorem StopsAt.lineno_le (h : StopsAt text line lineno f) : lineno ≤ text.pieces.length := by
  obtain ⟨before, after, heq, -, -⟩ := h
  have hmem : (line, lineno) ∈ numberedLines text := by simp [heq]
  have hlt := List.snd_lt_add_of_mem_zipIdx (List.mem_filter.1 hmem).1
  dsimp only at hlt
  omega

/-- **A line of a script is refused as a line,** unless its number is too long. -/
theorem StopsAt.refusal (h : StopsAt text line lineno f) :
    (¬ Command.HasLongNumeral line ∧ ∃ why, f = .badLine lineno line why) ∨
      (Command.HasLongNumeral line ∧ ∃ digits, f = .numeralTooLong digits) := by
  have hline := Text.newline_not_mem_of_mem_pieces h.mem_pieces.1
  obtain ⟨_, _, -, -, hrefuses⟩ := h
  exact Command.refusal_of_refuses hrefuses hline

/-- A script whose numbers can be read is refused for one of its lines. -/
theorem refusal_of_parse (h : parse text = .error f) (hfit : NumeralsFit text) :
    ∃ lineno line why, f = .badLine lineno line why := by
  obtain ⟨line, lineno, hstops⟩ := parse_eq_error_iff.1 h
  obtain ⟨hpiece, hblank⟩ := hstops.mem_pieces
  rcases hstops.refusal with ⟨-, why, rfl⟩ | ⟨hlong, -⟩
  · exact ⟨_, _, why, rfl⟩
  · exact absurd hlong (hfit line hpiece hblank)

end Script
end UndoScript
