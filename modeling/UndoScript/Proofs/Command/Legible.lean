/-
# Which commands survive their line

A command survives if its line can be written and is read as that command. All
do but four kinds: a number below zero, a number too large to be written, an
empty bare text, and a bare text that begins with an indent or a quote. There
is no escape for a quote, and none is needed: a quoted text lies between the
first quote and the last. What is read from a line, whatever the line, always
survives.

Key definitions: `Argument.Survives`.
Key theorems: `Command.legible_of_parse`, `Command.read_back_iff`.
-/
import Mathlib.Data.Set.Function
import UndoScript.Command.Draft
import UndoScript.Proofs.Command.RoundTrip
import UndoScript.Proofs.Text.Decimal

namespace UndoScript

/-- The argument is not lost or mistaken between writing and reading. -/
def Argument.Survives : Argument → Prop
  | .absent | .quoted _ => True
  | .number n => 0 ≤ n ∧ n < 10 ^ Numeral.limit
  | .bare t => ∃ g, t.head? = some g ∧ g ≠ .char ' ' ∧ g ≠ .char '\t' ∧ g ≠ .char '"'

namespace Command

/-- What reads back and can be written survives. -/
theorem legible_iff {c : Command} : c.Legible ↔ c.argument.Survives := by
  unfold Legible Renders
  cases c.argument with
  | absent => simp [Argument.ReadsBack, Argument.Survives]
  | quoted t => simp [Argument.ReadsBack, Argument.Survives]
  | number n =>
    simp only [Argument.ReadsBack, Argument.Survives, Numeral.writable_iff]
    refine and_congr_right fun hn => ?_
    obtain ⟨k, rfl⟩ := Int.eq_ofNat_of_zero_le hn
    rw [Int.natAbs_natCast]
    exact_mod_cast Iff.rfl
  | bare t =>
    cases t with
    | nil => simp [Argument.ReadsBack, Argument.Survives]
    | cons g rest => simp [Argument.ReadsBack, Argument.Survives, Glyph.isIndent, and_assoc]

/-! ### What is read -/

/-- What is read from the rest of a line is read back, since the rest has no indent left. -/
theorem legible_of_parseArgument {lineno : Int} {line rest : Text} {k : Keyword} {c : Command}
    (h : parseArgument lineno line k rest = .ok c) (hne : rest ≠ [])
    (hindent : ∀ g, rest.head? = some g → g.isIndent = false) : c.Legible := by
  unfold parseArgument at h
  cases hkind : k.kind with
  | nothing =>
    rw [hkind] at h
    cases h
  | number =>
    rw [hkind] at h
    dsimp only at h
    split at h
    · split at h
      · next hlength =>
        obtain ⟨-, hargument⟩ := make_eq_ok_iff.1 h
        have hwritable := Numeral.writable_value hlength
        unfold Legible Renders
        rw [hargument]
        exact ⟨Int.natCast_nonneg _, hwritable⟩
      · cases h
    · cases h
  | string =>
    rw [hkind] at h
    dsimp only at h
    split at h
    · split at h
      · obtain ⟨-, hargument⟩ := make_eq_ok_iff.1 h
        unfold Legible Renders
        rw [hargument]
        exact ⟨trivial, trivial⟩
      · cases h
    · next hquote =>
      obtain ⟨-, hargument⟩ := make_eq_ok_iff.1 h
      obtain ⟨g, others, rfl⟩ := List.exists_cons_of_ne_nil hne
      unfold Legible Renders
      rw [hargument]
      exact ⟨⟨g, others, rfl, hindent g rfl, by simpa using hquote⟩, trivial⟩

/-- **What is read is read back,** whatever the line it was read from. -/
theorem legible_of_parse {line : Text} {lineno : Int} {c : Command}
    (h : parse line lineno = .ok c) : c.Legible := by
  rw [parse_eq_ok_iff] at h
  unfold read at h
  dsimp only at h
  split at h
  · cases h
  · split at h
    · cases h
      exact ⟨trivial, trivial⟩
    · next hrest =>
      exact legible_of_parseArgument h (by simpa using hrest) fun g hg => Text.head?_trimStart hg

/-! ### Both directions -/

theorem render_eq_ok_iff {c : Command} {line : Text} :
    c.render = .ok line ↔ c.Renders ∧ line = c.text := by
  unfold render
  split
  · next h => simp [h, eq_comm]
  · next h => simp [h]

/-- Every command is made from its parts. -/
theorem ofParts_self (c : Command) :
    ofParts c.keyword.name c.argument.operand c.argument.isQuoted = .ok c := by
  obtain ⟨k, a, hfits⟩ := c
  unfold ofParts
  dsimp only
  rw [Keyword.ofName?_name]
  cases a with
  | quoted t =>
    have hbare : (Argument.bare t).Fits k := hfits
    show (do let _ ← make k (.bare t); make k (.quoted t)) = _
    rw [make_of_fits hbare, make_of_fits hfits]
    rfl
  | absent => exact (bind_pure _).trans (make_of_fits hfits)
  | number n => exact (bind_pure _).trans (make_of_fits hfits)
  | bare t => exact (bind_pure _).trans (make_of_fits hfits)

/-- **Which commands survive their line.** A command, which is what its parts make, can be written
and is read from its line exactly if its argument is absent, a number from 0 up that is not too
large, a quoted text of any kind, or a bare text that begins with neither an indent nor a quote. No
two of these have the same line. -/
theorem read_back_iff :
    (∀ c : Command, ofParts c.keyword.name c.argument.operand c.argument.isQuoted = .ok c ∧
      ∀ lineno : Int, (∃ line, c.render = .ok line ∧ parse line lineno = .ok c) ↔
        c.argument.Survives) ∧
    Set.InjOn render {c : Command | c.argument.Survives} := by
  have hback {c : Command} (h : c.argument.Survives) (lineno : Int) :
      c.render = .ok c.text ∧ parse c.text lineno = .ok c := by
    obtain ⟨hread, hrenders⟩ := legible_iff.2 h
    exact ⟨render_eq_ok_iff.2 ⟨hrenders, rfl⟩, parse_text hread hrenders lineno⟩
  refine ⟨fun c => ⟨ofParts_self c, fun lineno => ⟨?_, fun h => ⟨_, hback h lineno⟩⟩⟩, ?_⟩
  · rintro ⟨line, -, hparse⟩
    exact legible_iff.1 (legible_of_parse hparse)
  · intro c hc d hd heq
    obtain ⟨hrender, hparse⟩ := hback hc 0
    obtain ⟨hrender', hparse'⟩ := hback hd 0
    have htext : c.text = d.text := Except.ok.inj (hrender.symm.trans (heq.trans hrender'))
    rw [htext] at hparse
    exact Except.ok.inj (hparse.symm.trans hparse')

end Command

/-- All commands of a script survive. -/
theorem Script.legible_of_mem {text : Text} {cs : List Command} {c : Command}
    (h : parse text = .ok cs) (hc : c ∈ cs) : c.Legible := by
  obtain ⟨_, hread⟩ := exists_line_of_mem h hc
  exact Command.legible_of_parse (hread 0)

end UndoScript
