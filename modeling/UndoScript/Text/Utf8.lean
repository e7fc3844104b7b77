/-
# Bytes in, the same bytes out

Files are read as UTF-8, strictly: no overlong form, no surrogate, nothing
above U+10FFFF. A byte that starts no well-formed character becomes a lone
byte, and reading goes on with the next one, so a broken sequence is taken
apart byte by byte. Writing puts every lone byte back as itself.

A character is read exactly where its encoding stands: `lead?` computes the
only candidate from the first bytes and accepts it if they are its encoding.

Key definitions: `Utf8.encodeChar`, `Utf8.lead?`, `Utf8.decode`, `Utf8.encode`.
Key theorems: `Utf8.lead?_isPrefix`, `Utf8.lead?_encodeChar`,
`Utf8.decode_encodeChar`, `Utf8.decode_of_lone`.
-/
import UndoScript.Text.Glyph

namespace UndoScript
namespace Utf8

/-! ### One character -/

/-- The bytes of one character, one to four of them. -/
def encodeChar (c : Char) : List UInt8 :=
  let n := c.toNat
  if n < 0x80 then [.ofNat n]
  else if n < 0x800 then [.ofNat (0xC0 + n / 64), .ofNat (0x80 + n % 64)]
  else if n < 0x10000 then
    [.ofNat (0xE0 + n / 4096), .ofNat (0x80 + n / 64 % 64), .ofNat (0x80 + n % 64)]
  else
    [.ofNat (0xF0 + n / 262144), .ofNat (0x80 + n / 4096 % 64), .ofNat (0x80 + n / 64 % 64),
      .ofNat (0x80 + n % 64)]

/-- The number that the first bytes would spell, were they a whole character. -/
def candidate : List UInt8 → Nat
  | [] => 0
  | a :: rest =>
    let tail (i : Nat) : Nat := ((rest[i]?.map UInt8.toNat).getD 0x80) - 0x80
    if a.toNat < 0xC0 then a.toNat
    else if a.toNat < 0xE0 then (a.toNat - 0xC0) * 64 + tail 0
    else if a.toNat < 0xF0 then (a.toNat - 0xE0) * 4096 + tail 0 * 64 + tail 1
    else (a.toNat - 0xF0) * 262144 + tail 0 * 4096 + tail 1 * 64 + tail 2

/-- The character whose encoding the bytes begin with, if there is one. -/
def lead? (bytes : List UInt8) : Option Char :=
  let c := Char.ofNat (candidate bytes)
  if (encodeChar c).isPrefixOf bytes then some c else none

/-- The bytes that follow the first character `c` of `first :: rest`. -/
def afterLead (c : Char) (rest : List UInt8) : List UInt8 := rest.drop ((encodeChar c).length - 1)

/-- The lone byte that a byte from 0x80 up is. -/
def lone (b : UInt8) : Glyph := .byte (Fin.ofNat 128 b.toNat)

/-! ### Whole files -/

/-- Reads on from `bytes`, with the glyphs read so far in reverse. -/
def decodeOnto (read : Text) : List UInt8 → Text
  | [] => read.reverse
  | b :: rest =>
    match lead? (b :: rest) with
    | some c => decodeOnto (.char c :: read) (afterLead c rest)
    | none => decodeOnto (lone b :: read) rest
termination_by bytes => bytes.length
decreasing_by all_goals simp [afterLead]; try omega

/-- The text that a sequence of bytes holds. -/
def decode (bytes : List UInt8) : Text := decodeOnto [] bytes

/-- The bytes of one glyph. -/
def encodeGlyph : Glyph → List UInt8
  | .char c => encodeChar c
  | .byte low => [.ofNat (Glyph.byteValue low)]

/-- The bytes that a text is written as. -/
def encode (text : Text) : List UInt8 := text.flatMap encodeGlyph

/-! ### What reading does -/

theorem encodeChar_ne_nil (c : Char) : encodeChar c ≠ [] := by
  simp only [encodeChar]
  split
  · simp
  · split
    · simp
    · split <;> simp

/-- An accepted character's encoding stands at the head of the bytes. -/
theorem lead?_isPrefix {bytes : List UInt8} {c : Char} (h : lead? bytes = some c) :
    encodeChar c <+: bytes := by
  simp only [lead?] at h
  split at h <;> simp_all

/-- A character's encoding leads back to its number, whatever follows. -/
theorem candidate_encodeChar (c : Char) (rest : List UInt8) :
    candidate (encodeChar c ++ rest) = c.toNat := by
  have hmax : c.toNat < 0x110000 := by
    rcases c.valid with h | ⟨-, h⟩
    · exact Nat.lt_trans h (by decide)
    · exact h
  simp only [encodeChar]
  split
  · next h1 =>
    simp only [List.cons_append, candidate, UInt8.toNat_ofNat']
    rw [if_pos (by omega)]
    omega
  · next h1 =>
    split
    · next h2 =>
      simp [candidate]
      rw [if_neg (by omega), if_pos (by omega)]
      omega
    · next h2 =>
      split
      · next h3 =>
        simp [candidate]
        rw [if_neg (by omega), if_neg (by omega), if_pos (by omega)]
        omega
      · next h3 =>
        simp [candidate]
        rw [if_neg (by omega), if_neg (by omega), if_neg (by omega)]
        omega

/-- **What is written is read:** at a character's encoding that character is read. -/
theorem lead?_encodeChar (c : Char) (rest : List UInt8) :
    lead? (encodeChar c ++ rest) = some c := by
  simp [lead?, candidate_encodeChar, List.isPrefixOf_iff_prefix]

/-- What was read before stays in front. -/
theorem decodeOnto_eq (read : Text) (bytes : List UInt8) :
    decodeOnto read bytes = read.reverse ++ decode bytes := by
  unfold decode
  suffices h : ∀ (n : Nat) (bytes : List UInt8), bytes.length ≤ n → ∀ read : Text,
      decodeOnto read bytes = read.reverse ++ decodeOnto [] bytes from h _ bytes (Nat.le_refl _) read
  intro n
  induction n with
  | zero =>
    intro bytes hn read
    obtain rfl : bytes = [] := List.length_eq_zero_iff.1 (Nat.le_zero.1 hn)
    simp [decodeOnto]
  | succ n ih =>
    intro bytes hn read
    cases bytes with
    | nil => simp [decodeOnto]
    | cons b rest =>
      have hrest : rest.length ≤ n := by simpa using hn
      rw [decodeOnto, decodeOnto.eq_def []]
      cases hl : lead? (b :: rest) with
      | some c =>
        have hafter : (afterLead c rest).length ≤ n := by simp [afterLead]; omega
        simp [hl, ih _ hafter (.char c :: read), ih _ hafter [.char c]]
      | none => simp [hl, ih _ hrest (lone b :: read), ih _ hrest [lone b]]

@[simp] theorem decode_nil : decode [] = [] := by simp [decode, decodeOnto]

/-- Where a character's encoding stands, the character is read. -/
theorem decode_of_lead? {b : UInt8} {rest : List UInt8} {c : Char}
    (h : lead? (b :: rest) = some c) :
    decode (b :: rest) = .char c :: decode (afterLead c rest) := by
  rw [decode, decodeOnto, h]
  simp [decodeOnto_eq]

/-- A character that was written is read back, and reading goes on after it. -/
theorem decode_encodeChar (c : Char) (rest : List UInt8) :
    decode (encodeChar c ++ rest) = .char c :: decode rest := by
  have hlead := lead?_encodeChar c rest
  obtain ⟨b, bs, hbs⟩ := List.exists_cons_of_ne_nil (encodeChar_ne_nil c)
  rw [hbs, List.cons_append] at hlead ⊢
  rw [decode_of_lead? hlead]
  simp [afterLead, hbs]

/-- Where none stands, one byte is read as itself. -/
theorem decode_of_lone {b : UInt8} {rest : List UInt8} (h : lead? (b :: rest) = none) :
    decode (b :: rest) = lone b :: decode rest := by
  rw [decode, decodeOnto, h]
  simp [decodeOnto_eq]

end Utf8
end UndoScript
