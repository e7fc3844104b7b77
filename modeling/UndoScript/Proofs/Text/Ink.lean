/-
# Ink

What a script writes of its own accord, keywords, numbers and short tokens, is
ink: visible characters of ASCII from `#` on. Ink holds no blank, no line end
and no double quote, so a word of ink can stand bare on a line and is read back
as it is.

Key definitions: `Glyph.isInk`, `Text.IsInk`, `Text.IsWord`.
Key theorems: `Text.IsWord.isSturdy`, `Numeral.isWord_digits`, `Keyword.isInk_name`.
-/
import UndoScript.Command.Basic
import UndoScript.Command.Reading

namespace UndoScript

/-- Is the glyph a visible character of ASCII, from `#` on? -/
def Glyph.isInk : Glyph → Bool
  | .char c => 0x23 ≤ c.toNat && c.toNat ≤ 0x7E
  | .byte _ => false

namespace Glyph

theorem isBlank_of_isInk {g : Glyph} (h : g.isInk = true) : g.isBlank = false := by
  cases g with
  | byte low => cases h
  | char c =>
    simp only [isInk, Bool.and_eq_true, decide_eq_true_eq] at h
    simp only [isBlank, Blank.isWide, Bool.or_eq_false_iff, Bool.and_eq_false_iff,
      decide_eq_false_iff_not, beq_eq_false_iff_ne]
    omega

theorem ne_of_isInk {g : Glyph} {c : Char} (h : g.isInk = true) (hc : (Glyph.char c).isInk = false) :
    g ≠ .char c := fun he => by rw [he, hc] at h; cases h

theorem ne_newline_of_isInk {g : Glyph} (h : g.isInk = true) : g ≠ .newline :=
  ne_of_isInk h (by decide)

theorem isIndent_of_isInk {g : Glyph} (h : g.isInk = true) : g.isIndent = false := by
  simp only [isIndent, Bool.or_eq_false_iff, beq_eq_false_iff_ne]
  exact ⟨ne_of_isInk h (by decide), ne_of_isInk h (by decide)⟩

end Glyph

namespace Text

/-- Is the text nothing but ink? -/
def IsInk (t : Text) : Prop := ∀ g ∈ t, g.isInk = true

instance (t : Text) : Decidable t.IsInk := inferInstanceAs (Decidable (∀ g ∈ t, _))

/-- Is the text ink, and not empty? -/
def IsWord (t : Text) : Prop := t ≠ [] ∧ t.IsInk

instance (t : Text) : Decidable t.IsWord := inferInstanceAs (Decidable (t ≠ [] ∧ t.IsInk))

theorem IsInk.append {t u : Text} (ht : t.IsInk) (hu : u.IsInk) : (t ++ u).IsInk := by
  intro g hg
  rcases List.mem_append.1 hg with hg | hg
  · exact ht g hg
  · exact hu g hg

theorem IsInk.newline_not_mem {t : Text} (h : t.IsInk) : Glyph.newline ∉ t :=
  fun hm => Glyph.ne_newline_of_isInk (h _ hm) rfl

/-- Words one after the other are a word. -/
theorem IsWord.append {t u : Text} (ht : t.IsWord) (hu : u.IsWord) : (t ++ u).IsWord :=
  ⟨List.append_ne_nil_of_left_ne_nil ht.1 u, ht.2.append hu.2⟩

/-- Nothing is trimmed off a text whose first glyph is of another class. -/
theorem trimStart_eq_self {p : Glyph → Bool} {t : Text} (h : ∀ g, t.head? = some g → p g = false) :
    trimStart p t = t := by
  cases t with
  | nil => rfl
  | cons g rest => simp [trimStart, List.dropWhile, h g rfl]

/-- Nothing is trimmed off a text whose last glyph is of another class. -/
theorem trimEnd_eq_self {p : Glyph → Bool} {t : Text} (h : ∀ g, t.getLast? = some g → p g = false) :
    trimEnd p t = t := by
  have hrev := trimStart_eq_self (p := p) (t := t.reverse) fun g hg => h g (by simpa using hg)
  unfold trimStart at hrev
  rw [trimEnd, hrev, List.reverse_reverse]

/-- **A word is sturdy:** it stays in one piece when it is written bare. -/
theorem IsWord.isSturdy {t : Text} (h : t.IsWord) : t.isSturdy = true := by
  have hblank : ∀ g ∈ t, g.isBlank = false := fun g hg => Glyph.isBlank_of_isInk (h.2 g hg)
  have htrim : t.trim Glyph.isBlank = t := by
    unfold trim
    rw [trimStart_eq_self fun g hg => hblank g (List.mem_of_head? hg),
      trimEnd_eq_self fun g hg => hblank g (List.mem_of_getLast? hg)]
  have hhead : t.head?.any Glyph.isBlank = false := by
    cases hh : t.head? with
    | none => rfl
    | some g => simpa using hblank g (List.mem_of_head? hh)
  simp [Text.isSturdy, htrim, hhead, h.1]

end Text

theorem Argument.fits_bare_of_isWord {k : Keyword} {t : Text} (hk : k.kind = .string)
    (ht : t.IsWord) : (Argument.bare t).Fits k := ⟨hk, ht.2.newline_not_mem⟩

theorem Numeral.digits_ne_nil (n : Nat) : Numeral.digits n ≠ [] := by
  simp [Numeral.digits, Nat.toDigits_ne_nil]

theorem Numeral.isInk_digits (n : Nat) : (Numeral.digits n).IsInk := by
  intro g hg
  obtain ⟨c, hc, rfl⟩ := List.mem_map.1 hg
  have hdigit := Numeral.isDigit_of_mem_toDigits hc
  simp only [Char.isDigit, Bool.and_eq_true, decide_eq_true_eq, ge_iff_le,
    UInt32.le_iff_toNat_le] at hdigit
  simp only [Glyph.isInk, Bool.and_eq_true, decide_eq_true_eq, Char.toNat]
  have hlow : ('0'.val).toNat = 48 := rfl
  have hhigh : ('9'.val).toNat = 57 := rfl
  omega

theorem Numeral.isWord_digits (n : Nat) : (Numeral.digits n).IsWord :=
  ⟨Numeral.digits_ne_nil n, Numeral.isInk_digits n⟩

theorem Keyword.name_ne_nil (k : Keyword) : Text.ofString k.name ≠ [] := by cases k <;> decide

theorem Keyword.isInk_name (k : Keyword) : (Text.ofString k.name).IsInk := by
  have ink : ∀ k ∈ Keyword.all, (Text.ofString k.name).IsInk := by decide +kernel
  exact ink k (Keyword.mem_all k)

end UndoScript
