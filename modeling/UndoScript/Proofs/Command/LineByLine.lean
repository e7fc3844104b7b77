/-
# A script is read line by line

What a script spells is what its lines spell, blank ones left out: a command for
each, in order, or the failure of the first line that is none, whatever the
lines before it are. The number of that line is one more than the line feeds
before it. So the lines of commands may be set apart by blank lines anywhere,
and are read as the same commands.

Key definitions: `Script.Reaches`, `Script.Spaced`.
Key theorems: `Script.parse_eq_error_iff_line`, `Script.parse_of_spaced`,
`Script.parse_line_by_line`.
-/
import UndoScript.Proofs.Command.Legible
import UndoScript.Proofs.Command.Refusal
import UndoScript.Proofs.Text.Place

namespace UndoScript
namespace Script

variable {text : Text} {cs : List Command} {f : Fault}

/-! ### The first line that spells nothing -/

/-- A list with some members left out fails as the first of the others that fails. -/
theorem mapM_filter_eq_error_iff {α β : Type} {keep : α → Bool} {read : α → Except Fault β}
    {as : List α} : (as.filter keep).mapM read = .error f ↔
      ∃ before a after, as = before ++ a :: after ∧ keep a = true ∧
        (∀ b ∈ before, keep b = true → ∃ c, read b = .ok c) ∧ read a = .error f := by
  rw [mapM_eq_error_iff]
  constructor
  · rintro ⟨before, a, after, heq, hbefore, ha⟩
    obtain ⟨before, others, rfl, rfl, hothers⟩ := List.filter_eq_append_iff.1 heq
    obtain ⟨skipped, rest, rfl, hskipped, hkeep, -⟩ := List.filter_eq_cons_iff.1 hothers
    refine ⟨before ++ skipped, a, rest, by simp, hkeep, fun b hb hb' => ?_, ha⟩
    rcases List.mem_append.1 hb with hb | hb
    · exact hbefore b (List.mem_filter.2 ⟨hb, hb'⟩)
    · exact absurd hb' (hskipped b hb)
  · rintro ⟨before, a, after, rfl, hkeep, hbefore, ha⟩
    refine ⟨before.filter keep, a, after.filter keep, ?_, fun b hb => ?_, ha⟩
    · rw [List.filter_append, List.filter_cons_of_pos hkeep]
    · obtain ⟨hb, hb'⟩ := List.mem_filter.1 hb
      exact hbefore b hb hb'

/-- A place among numbered members is a place among the members. -/
theorem zipIdx_eq_append_cons_iff {α : Type} {as : List α} {i n : Nat} {a : α}
    {before after : List (α × Nat)} : as.zipIdx i = before ++ (a, n) :: after ↔
      ∃ bs cs, as = bs ++ a :: cs ∧ before = bs.zipIdx i ∧ n = i + bs.length ∧
        after = cs.zipIdx (n + 1) := by
  rw [List.zipIdx_eq_append_iff]
  constructor
  · rintro ⟨bs, others, rfl, rfl, hothers⟩
    cases others with
    | nil => cases hothers
    | cons b cs =>
      rw [List.zipIdx_cons, List.cons.injEq, Prod.mk.injEq] at hothers
      obtain ⟨⟨rfl, rfl⟩, rfl⟩ := hothers
      exact ⟨bs, cs, rfl, rfl, rfl, rfl⟩
  · rintro ⟨bs, cs, rfl, rfl, rfl, rfl⟩
    exact ⟨bs, a :: cs, rfl, rfl, rfl⟩

/-- Reading gets to the line that stands after `before`: it is not blank, and all lines before it
are blank or spell commands. -/
structure Reaches (text before line : Text) : Prop where
  place : text.IsLineAfter before line
  not_blank : line.isBlank = false
  earlier : ∀ l ∈ before.pieces, l.isBlank = false → ∃ c, ∀ n, Command.parse l n = .ok c

/-- **A script fails as the first of its lines that spells nothing,** which has one more than the
line feeds before it for its number. -/
theorem parse_eq_error_iff_line : parse text = .error f ↔ ∃ before line,
    Reaches text before line ∧
      Command.read line (before.count .newline + 1 : Nat) = .error f := by
  have hsolid {ks ls : List Text} {line : Text} (h : text.pieces = ks ++ line :: ls) :
      ∀ k ∈ ks, Glyph.newline ∉ k := fun k hk =>
    Text.newline_not_mem_of_mem_pieces (h ▸ List.mem_append_left _ hk)
  unfold parse numberedLines
  rw [mapM_filter_eq_error_iff]
  constructor
  · rintro ⟨numbered, ⟨line, n⟩, after, heq, hblank, hearlier, hline⟩
    obtain ⟨ks, ls, hpieces, rfl, rfl, -⟩ := zipIdx_eq_append_cons_iff.1 heq
    refine ⟨Text.ofLines ks, line, ⟨Text.isLineAfter_iff.2 ⟨ks, ls, hpieces, rfl⟩,
      by simpa using hblank, fun l hl hblank => ?_⟩, ?_⟩
    · rw [Text.pieces_ofLines (hsolid hpieces), List.mem_append, List.mem_singleton] at hl
      rcases hl with hl | rfl
      · rw [← List.zipIdx_map_fst 1 ks] at hl
        obtain ⟨p, hp, rfl⟩ := List.mem_map.1 hl
        obtain ⟨c, hc⟩ := hearlier p hp (by simpa using hblank)
        exact ⟨c, Command.read_eq_ok_iff_parse.1 hc⟩
      · cases hblank
    · rwa [Text.count_newline_ofLines (hsolid hpieces), Nat.add_comm]
  · rintro ⟨before, line, ⟨hplace, hblank, hearlier⟩, hline⟩
    obtain ⟨ks, ls, hpieces, rfl⟩ := Text.isLineAfter_iff.1 hplace
    rw [Text.pieces_ofLines (hsolid hpieces)] at hearlier
    rw [Text.count_newline_ofLines (hsolid hpieces), Nat.add_comm] at hline
    refine ⟨ks.zipIdx 1, (line, 1 + ks.length), _,
      zipIdx_eq_append_cons_iff.2 ⟨ks, ls, hpieces, rfl, rfl, rfl⟩, by simpa using hblank,
      fun p hp hp' => ?_, hline⟩
    have hmem : p.1 ∈ ks := List.fst_mem_of_mem_zipIdx hp
    obtain ⟨c, hc⟩ := hearlier p.1 (List.mem_append_left _ hmem) (by simpa using hp')
    exact ⟨c, Command.read_eq_ok_iff_parse.2 hc⟩

/-! ### Blank lines -/

/-- The lines of the commands in order, with blank lines anywhere. -/
inductive Spaced : List Command → List Text → Prop
  | nil : Spaced [] []
  | blank {cs : List Command} {line : Text} {ls : List Text} : line.isBlank = true →
    .newline ∉ line → Spaced cs ls → Spaced cs (line :: ls)
  | command {c : Command} {cs : List Command} {line : Text} {ls : List Text} :
    c.render = .ok line → Spaced cs ls → Spaced (c :: cs) (line :: ls)

variable {ls : List Text}

theorem Spaced.newline_not_mem (h : Spaced cs ls) : ∀ l ∈ ls, .newline ∉ l := by
  induction h with
  | nil => simp
  | blank _ hline _ ih => simpa using ⟨hline, ih⟩
  | @command c cs line ls hrender _ ih =>
    obtain ⟨-, rfl⟩ := Command.render_eq_ok_iff.1 hrender
    simpa using ⟨c.newline_not_mem_text, ih⟩

/-- Without the blank lines, the lines of the commands are left. -/
theorem Spaced.filter_eq (h : Spaced cs ls) :
    (ls.filter fun line => !line.isBlank) = cs.map Command.text := by
  induction h with
  | nil => rfl
  | blank hblank _ _ ih => rw [List.filter_cons_of_neg (by simp [hblank]), ih]
  | @command c cs line ls hrender _ ih =>
    obtain ⟨-, rfl⟩ := Command.render_eq_ok_iff.1 hrender
    rw [List.filter_cons_of_pos (by simp [c.isBlank_text]), ih, List.map_cons]

/-- **Blank lines do not matter,** nor does a line feed at the end. -/
theorem parse_of_spaced (h : Spaced cs ls) (hcs : ∀ c ∈ cs, c.Legible) :
    parse (Text.joined [.newline] ls) = .ok cs ∧
      parse (Text.joined [.newline] ls ++ [.newline]) = .ok cs := by
  by_cases hnil : ls = []
  · subst hnil
    cases h
    exact ⟨rfl, rfl⟩
  · constructor
    · apply parse_of_pieces _ hcs
      rw [Text.pieces_joined hnil h.newline_not_mem, h.filter_eq]
    · apply parse_of_pieces _ hcs
      rw [Text.joined_append_newline hnil, Text.pieces_ofLines h.newline_not_mem,
        List.filter_append, h.filter_eq]
      simp [Text.isBlank]

/-- **A script is read line by line.** The pieces of a text are the one list of texts without line
feeds that gives the text with line feeds between them. A text is read as the commands of those
pieces that are not blank, in order, or refused as the first of them that spells none, with one more
than the line feeds before it for its number; only a number of too many digits is refused without
one. A line is refused like this on its own as well, if its number can be written. And commands that
are read back from their lines are read back from these lines set apart by any blank ones, with a
last line feed or without. -/
theorem parse_line_by_line (text : Text) :
    (∀ ls, ls = text.pieces ↔
      ls ≠ [] ∧ (∀ l ∈ ls, .newline ∉ l) ∧ Text.joined [.newline] ls = text) ∧
    (∀ cs, parse text = .ok cs ↔
      List.Forall₂ (fun line c => ∀ n, Command.parse line n = .ok c)
        (text.pieces.filter fun line => !line.isBlank) cs) ∧
    (∀ f, parse text = .error f ↔ ∃ before line, Reaches text before line ∧
      Command.read line (before.count .newline + 1 : Nat) = .error f) ∧
    (∀ before line f, Reaches text before line →
      Command.read line (before.count .newline + 1 : Nat) = .error f →
      (∃ why, f = .badLine (before.count .newline + 1 : Nat) line why) ∨
        ∃ digits, f = .numeralTooLong digits) ∧
    (∀ line lineno, Numeral.Writable lineno →
      Command.parse line lineno = Command.read line lineno) ∧
    ∀ cs ls, (∀ c ∈ cs, ∃ line, c.render = .ok line ∧ Command.parse line 0 = .ok c) →
      Spaced cs ls → parse (Text.joined [.newline] ls) = .ok cs ∧
        parse (Text.joined [.newline] ls ++ [.newline]) = .ok cs := by
  refine ⟨fun ls => Text.eq_pieces_iff, fun cs => parse_eq_ok_iff,
    fun f => parse_eq_error_iff_line, fun before line f hreaches hline => ?_,
    fun line lineno => Command.parse_eq_read,
    fun cs ls hcs hspaced => parse_of_spaced hspaced fun c hc => ?_⟩
  · obtain ⟨-, -, hnewline, -⟩ := hreaches.place
    exact (Command.refusal_of_refuses (Command.read_eq_error_iff.1 hline) hnewline).imp
      And.right And.right
  · obtain ⟨line, -, hparse⟩ := hcs c hc
    exact Command.legible_of_parse hparse

/-- Two commands with a tab, an empty line and a space around them. -/
theorem parse_line_by_line_of_two_commands :
    let undo : Command := ⟨.undo, .number 3, rfl⟩
    let cs := [undo, .plain .exit]
    let ls : List Text := ["\t", "UNDO 3", "", "EXIT", " "].map Text.ofString
    (∀ c ∈ cs, ∃ line, c.render = .ok line ∧ Command.parse line 0 = .ok c) ∧ Spaced cs ls ∧
      parse (Text.joined [.newline] ls) = .ok cs := by
  intro undo cs ls
  have hwritable : Numeral.Writable 3 := by decide
  have hundo : undo.render = .ok "UNDO 3" := Command.render_eq_ok_iff.2 ⟨hwritable, by decide⟩
  have hcs : ∀ c ∈ cs, ∃ line, c.render = .ok line ∧ Command.parse line 0 = .ok c := by
    intro c hc
    rcases List.mem_pair.1 hc with rfl | rfl
    · exact ⟨"UNDO 3", hundo, rfl⟩
    · exact ⟨"EXIT", rfl, rfl⟩
  have hls : Spaced cs ls :=
    .blank rfl (by decide) (.command hundo (.blank rfl (by decide) (.command rfl
      (.blank rfl (by decide) .nil))))
  obtain ⟨-, -, -, -, -, hback⟩ := parse_line_by_line []
  exact ⟨hcs, hls, (hback cs ls hcs hls).1⟩

example : parse "EXIT\n\nFROB\n" = .error (.badLine 3 "FROB" .unknownCommand) := rfl

end Script
end UndoScript
