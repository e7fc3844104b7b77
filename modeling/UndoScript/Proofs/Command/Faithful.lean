/-
# Lines that come back from their bytes

A command's line is ASCII but for its text. Between ASCII a text that comes
back from its bytes does so still, and so does a command's line, and a whole
script.

Key definitions: `Argument.Faithful`.
Key theorems: `Command.faithful_text`, `Utf8.faithful_ofLines`,
`Document.faithful_of_isInfix`.
-/
import UndoScript.Proofs.Command.RoundTrip
import UndoScript.Proofs.Document
import UndoScript.Proofs.Text.Faithful

namespace UndoScript

namespace Utf8

/-- Characters come back, whatever follows them. -/
theorem faithful_chars_append : ∀ {t u : Text}, (∀ g ∈ t, ∃ c, g = .char c) →
    (Faithful (t ++ u) ↔ Faithful u)
  | [], _, _ => Iff.rfl
  | g :: t, u, h => by
    obtain ⟨c, rfl⟩ := h g List.mem_cons_self
    rw [List.cons_append, faithful_char_cons,
      faithful_chars_append fun g hg => h g (List.mem_cons_of_mem _ hg)]

theorem faithful_of_chars {t : Text} (h : ∀ g ∈ t, ∃ c, g = .char c) : Faithful t := by
  rw [← List.append_nil t, faithful_chars_append h]
  exact faithful_nil

theorem exists_char_of_mem_ofString {s : String} : ∀ g ∈ Text.ofString s, ∃ c, g = .char c := by
  intro g hg
  obtain ⟨c, -, rfl⟩ := List.mem_map.1 hg
  exact ⟨c, rfl⟩

theorem exists_char_of_isInk {t : Text} (h : t.IsInk) : ∀ g ∈ t, ∃ c, g = .char c := by
  intro g hg
  have hink := h g hg
  cases g with
  | char c => exact ⟨c, rfl⟩
  | byte low => cases hink

theorem startsInAscii_cons {c : Char} (h : c.toNat < 0x80) (t : Text) :
    StartsInAscii (.char c :: t) := by
  intro g hg
  obtain rfl : .char c = g := by simpa using hg
  exact ⟨c, rfl, h⟩

/-- Lines that come back do so together. -/
theorem faithful_ofLines : ∀ {ls : List Text}, (∀ l ∈ ls, Faithful l) → Faithful (Text.ofLines ls)
  | [], _ => faithful_nil
  | l :: ls, h => by
    have hl := h l List.mem_cons_self
    have hls := faithful_ofLines fun k hk => h k (List.mem_cons_of_mem l hk)
    show Faithful (l ++ [.newline] ++ Text.ofLines ls)
    rw [List.append_assoc, List.singleton_append]
    exact (faithful_char_cons.2 hls).append (startsInAscii_cons (by decide) _) hl

end Utf8

/-- The argument's text comes back from its bytes. -/
def Argument.Faithful : Argument → Prop
  | .absent | .number _ => True
  | .bare t | .quoted t => Utf8.Faithful t

theorem Argument.faithful_spelled {a : Argument} (h : a.Faithful) : Utf8.Faithful a.spelled := by
  cases a with
  | absent => exact Utf8.faithful_nil
  | number n =>
    have hdigits := Utf8.faithful_of_chars (Utf8.exists_char_of_isInk (Numeral.isInk_digits n.natAbs))
    rw [spelled_number, Numeral.written]
    split
    · exact Utf8.faithful_char_cons.2 hdigits
    · exact hdigits
  | bare t => exact h
  | quoted t =>
    have hquote : Utf8.Faithful [.char '"'] := Utf8.faithful_char_cons.2 Utf8.faithful_nil
    exact Utf8.faithful_char_cons.2 (hquote.append (Utf8.startsInAscii_cons (by decide) _) h)

/-- **A command's line comes back** if its text does. -/
theorem Command.faithful_text {c : Command} (h : c.argument.Faithful) : Utf8.Faithful c.text := by
  rw [text_eq, Utf8.faithful_chars_append Utf8.exists_char_of_mem_ofString]
  split
  · exact Utf8.faithful_nil
  · exact Utf8.faithful_char_cons.2 (Argument.faithful_spelled h)

/-- **Every piece of a document that was read comes back.** -/
theorem Document.faithful_of_isInfix {bytes : List UInt8} {line t : Text}
    (hline : line ∈ (ofText (Utf8.decode bytes)).lines) (ht : t <:+: line.content) :
    Utf8.Faithful t := by
  have hpart : line <:+: (Utf8.decode bytes).lines.flatten := List.infix_of_mem_flatten hline
  rw [Text.flatten_lines] at hpart
  exact (Utf8.faithful_decode bytes).of_isInfix
    (ht.trans ((Text.content_isPrefix line).isInfix.trans hpart))

end UndoScript
