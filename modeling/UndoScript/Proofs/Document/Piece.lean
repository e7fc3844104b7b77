/-
# A piece ends before its line does

A piece of a line starts in the line's first half and is at most half as long.
So it ends with the line at the latest, nothing of it is cut off, and it is as
long as was drawn. In a line of two glyphs or more it ends before the last one,
which therefore is in no piece. Every start and every length within the bounds
are drawn, by two draws below the half.

Key definitions: `Text.half`, `Cut`, `Cut.text`.
Key theorems: `Cut.end_le`, `Cut.end_lt`, `Cut.length_text`,
`Cut.isInfix_dropLast`, `run_drawPiece`, `drawPiece_exact`.
-/
import UndoScript.Document
import UndoScript.Proofs.Chance.Outcome

namespace UndoScript

/-- Half the length of a line, rounded down, but at least 1. -/
def Text.half (line : Text) : Nat := max 1 (line.length / 2)

/-- Where a piece of a line starts and how long it is. -/
structure Cut (line : Text) where
  start : Nat
  length : Nat
  start_lt : start < line.half
  one_le : 1 ≤ length
  length_le : length ≤ line.half

variable {line : Text}

theorem Text.half_pos (line : Text) : 0 < line.half :=
  Nat.lt_of_lt_of_le Nat.one_pos (Nat.le_max_left _ _)

namespace Cut

/-- The piece that starts and ends there. -/
def text (p : Cut line) : Text := (line.drop p.start).take p.length

/-- The place that two draws give. -/
def ofDraws (i j : Fin line.half) : Cut line :=
  ⟨i, 1 + j, i.isLt, Nat.le_add_right 1 j, by omega⟩

/-! ### Where a piece ends -/

/-- A piece ends with its line at the latest, -/
theorem end_le (p : Cut line) (hne : line ≠ []) : p.start + p.length ≤ line.length := by
  have hpos : 0 < line.length := List.length_pos_iff.2 hne
  have hstart := p.start_lt
  have hlength := p.length_le
  unfold Text.half at hstart hlength
  omega

/-- and before the last glyph if there are two. -/
theorem end_lt (p : Cut line) (h : 2 ≤ line.length) : p.start + p.length < line.length := by
  have hstart := p.start_lt
  have hlength := p.length_le
  unfold Text.half at hstart hlength
  omega

/-- **Nothing is cut off** a piece. -/
theorem length_text (p : Cut line) (hne : line ≠ []) : p.text.length = p.length := by
  have hend := p.end_le hne
  unfold text
  rw [List.length_take, List.length_drop]
  omega

theorem text_ne_nil (p : Cut line) (hne : line ≠ []) : p.text ≠ [] := by
  rw [← List.length_pos_iff, p.length_text hne]
  exact p.one_le

theorem isInfix (p : Cut line) : p.text <:+: line :=
  (List.take_prefix _ _).isInfix.trans (List.drop_suffix _ _).isInfix

/-- **The last glyph is in no piece** of a line of two or more. -/
theorem isInfix_dropLast (p : Cut line) (h : 2 ≤ line.length) : p.text <:+: line.dropLast := by
  have hend := p.end_lt h
  have htext : p.text = (line.dropLast.drop p.start).take p.length := by
    unfold text
    rw [List.dropLast_eq_take, List.drop_take, List.take_take, Nat.min_eq_left (by omega)]
  rw [htext]
  exact (List.take_prefix _ _).isInfix.trans (List.drop_suffix _ _).isInfix

end Cut

/-! ### How pieces are drawn -/

theorem drawPiece_eq (hne : line ≠ []) : drawPiece line =
    Sampler.drawFrom 0 line.half >>= fun start =>
      Sampler.drawFrom 1 line.half >>= fun length => pure ((line.drop start).take length) := by
  have hempty : ¬ line.isEmpty = true := fun h => hne (List.isEmpty_iff.1 h)
  unfold drawPiece
  rw [if_neg hempty]
  rfl

/-- **Two draws make a piece:** where it starts, and how much longer than 1 it is. -/
theorem run_drawPiece {σ : Type} [Source σ] (hne : line ≠ []) (s : σ) :
    let first := Source.below line.half line.half_pos s
    let second := Source.below line.half line.half_pos first.2
    (drawPiece line).run s = (.ok (Cut.ofDraws first.1 second.1).text, second.2) := by
  intro first second
  rw [drawPiece_eq hne, Sampler.run_bind, Sampler.run_drawFrom line.half_pos s]
  dsimp only
  rw [Sampler.run_bind, Sampler.run_drawFrom line.half_pos, Nat.zero_add]
  rfl

/-- A tape that starts with the draws of a place makes the piece there. -/
theorem run_drawPiece_tape (hne : line ≠ []) (p : Cut line) (rest asked : List Nat) :
    (drawPiece line).run (⟨p.start :: (p.length - 1) :: rest, asked⟩ : Tape) =
      (.ok p.text, ⟨rest, line.half :: line.half :: asked⟩) := by
  have hstart := p.start_lt
  have hlength : p.length - 1 < line.half := by
    have hle := p.length_le
    have hpos := p.one_le
    omega
  have hback : 1 + (p.length - 1) = p.length := Nat.add_sub_cancel' p.one_le
  have hfirst := Sampler.below_tape line.half_pos ⟨p.start, hstart⟩ ((p.length - 1) :: rest) asked
  have hsecond := Sampler.below_tape line.half_pos ⟨p.length - 1, hlength⟩ rest (line.half :: asked)
  rw [run_drawPiece hne]
  simp only [hfirst, hsecond, Cut.ofDraws, Cut.text, hback]

/-- **What is drawn from a line.** Whatever the source answers, the piece starts at the first answer
and is one longer than the second, both below half the length of the line. So much of the line is
there: the piece is as long as that, not empty, and a contiguous part of the line, without its last
glyph if there are two or more. And whichever start and length keep these bounds, some draws make
that piece. -/
theorem drawPiece_exact (hne : line ≠ []) :
    (∀ (σ : Type) [Source σ] (s : σ), ∃ (i j : Fin line.half) (s₁ s₂ : σ) (p : Cut line),
      Source.below line.half line.half_pos s = (i, s₁) ∧
      Source.below line.half line.half_pos s₁ = (j, s₂) ∧
      p.start = i ∧ p.length = 1 + j ∧ (drawPiece line).run s = (.ok p.text, s₂)) ∧
    (∀ p : Cut line, p.start + p.length ≤ line.length ∧ p.text.length = p.length ∧ p.text ≠ [] ∧
      p.text <:+: line ∧
      (2 ≤ line.length → p.start + p.length < line.length ∧ p.text <:+: line.dropLast)) ∧
    ∀ (p : Cut line) (rest asked : List Nat),
      (drawPiece line).run (⟨p.start :: (p.length - 1) :: rest, asked⟩ : Tape) =
        (.ok p.text, ⟨rest, line.half :: line.half :: asked⟩) := by
  refine ⟨fun σ _ s => ?_, fun p => ?_, fun p => run_drawPiece_tape hne p⟩
  · exact ⟨_, _, _, _, _, rfl, rfl, rfl, rfl, run_drawPiece hne s⟩
  · exact ⟨p.end_le hne, p.length_text hne, p.text_ne_nil hne, p.isInfix,
      fun h => ⟨p.end_lt h, p.isInfix_dropLast h⟩⟩

/-- From a line of five glyphs two of the first four are drawn at most. -/
theorem drawPiece_exact_of_five_glyphs :
    ("abcde" : Text) ≠ [] ∧ (drawPiece "abcde").run (⟨[1, 1], []⟩ : Tape) =
      (.ok "bc", ⟨[], [2, 2]⟩) := by
  have hne : ("abcde" : Text) ≠ [] := by decide
  obtain ⟨-, -, hdrawn⟩ := drawPiece_exact hne
  exact ⟨hne, hdrawn ⟨1, 2, by decide, by decide, by decide⟩ [] []⟩

end UndoScript
