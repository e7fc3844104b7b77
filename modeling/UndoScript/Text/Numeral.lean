/-
# Numbers in decimal

Numbers are written in decimal, a minus sign first if negative, without
leading zeros. Reading and writing both stop at 4300 digits: a longer run of
digits is refused when read, a larger number when written.

Key definitions: `Numeral.limit`, `Numeral.isNumeral`, `Numeral.value`,
`Numeral.written`, `Numeral.Writable`.
-/
import UndoScript.Text.Glyph

namespace UndoScript
namespace Numeral

/-- The most digits a number may have. -/
def limit : Nat := 4300

/-- The digit character that a glyph is. -/
def digit? : Glyph → Option Char
  | .char c => if c.isDigit then some c else none
  | .byte _ => none

/-- Is the text a run of the digits `0` to `9`, with at least one of them? -/
def isNumeral (text : Text) : Bool := !text.isEmpty && text.all fun g => (digit? g).isSome

/-- The number that a run of digits spells. -/
def value (text : Text) : Nat := Nat.ofDigitChars 10 (text.filterMap digit?) 0

/-- The decimal digits of a number. -/
def digits (n : Nat) : Text := (Nat.toDigits 10 n).map Glyph.char

/-- The number in decimal. -/
def written (n : Int) : Text :=
  if n < 0 then .char '-' :: digits n.natAbs else digits n.natAbs

/-- Only numbers of at most `limit` digits are written. -/
def Writable (n : Int) : Prop := (digits n.natAbs).length ≤ limit

instance (n : Int) : Decidable (Writable n) := inferInstanceAs (Decidable (_ ≤ _))

theorem isDigit_of_mem_toDigits {n : Nat} {c : Char} (h : c ∈ Nat.toDigits 10 n) : c.isDigit = true :=
  Nat.isDigit_of_mem_toDigits (by decide) (by decide) h

theorem isNumeral_digits (n : Nat) : isNumeral (digits n) = true := by
  have hne : Nat.toDigits 10 n ≠ [] := Nat.toDigits_ne_nil
  simp only [isNumeral, digits, Bool.and_eq_true, List.all_eq_true]
  refine ⟨by simp [hne], ?_⟩
  intro g hg
  obtain ⟨c, hc, rfl⟩ := List.mem_map.1 hg
  simp [digit?, isDigit_of_mem_toDigits hc]

/-- Digit characters are read back one by one. -/
theorem filterMap_digit? : ∀ cs : List Char, (∀ c ∈ cs, c.isDigit = true) →
    (cs.map Glyph.char).filterMap digit? = cs
  | [], _ => rfl
  | c :: cs, h => by
    simp [digit?, h c (by simp), filterMap_digit? cs fun d hd => h d (by simp [hd])]

/-- **A number written is the number read.** -/
theorem value_digits (n : Nat) : value (digits n) = n := by
  rw [value, digits, filterMap_digit? _ fun _ h => isDigit_of_mem_toDigits h]
  exact Nat.ofDigitChars_ten_toDigits

end Numeral
end UndoScript
