/-
# Texts that come back from their bytes

Writing what was read gives the same bytes, but reading what was written may
give another text: lone bytes side by side can form a character. A text is
faithful if this does not happen. What is read from a file is faithful, and
stays so when pieces are cut from it, however they cut through a run of lone
bytes, and when they are set before ASCII: a character from its first byte on
is either there already, or it would need a byte from 0x80 up where the ASCII
is.

Key definitions: `Utf8.Faithful`.
Key theorems: `Utf8.encode_decode`, `Utf8.faithful_decode`,
`Utf8.Faithful.of_isInfix`, `Utf8.Faithful.append`.
-/
import UndoScript.Text.Utf8

namespace UndoScript
namespace Utf8

/-! ### The bytes of one character -/

theorem encodeChar_of_lt {c : Char} (h : c.toNat < 0x80) : encodeChar c = [.ofNat c.toNat] := by
  unfold encodeChar
  dsimp only
  rw [if_pos h]

/-- All bytes of a character outside ASCII are from 0x80 up. -/
theorem le_of_mem_encodeChar {c : Char} (h : 0x80 ≤ c.toNat) {b : UInt8} (hb : b ∈ encodeChar c) :
    0x80 ≤ b.toNat := by
  have hmax : c.toNat < 0x110000 := by
    rcases c.valid with hvalid | ⟨-, hvalid⟩
    · exact Nat.lt_trans hvalid (by decide)
    · exact hvalid
  unfold encodeChar at hb
  dsimp only at hb
  rw [if_neg (by omega)] at hb
  split at hb
  · rcases List.mem_cons.1 hb with rfl | hb
    · rw [UInt8.toNat_ofNat']
      omega
    · obtain rfl := List.mem_singleton.1 hb
      rw [UInt8.toNat_ofNat']
      omega
  · split at hb
    · simp only [List.mem_cons, List.not_mem_nil, or_false] at hb
      rcases hb with rfl | rfl | rfl <;> rw [UInt8.toNat_ofNat'] <;> omega
    · simp only [List.mem_cons, List.not_mem_nil, or_false] at hb
      rcases hb with rfl | rfl | rfl | rfl <;> rw [UInt8.toNat_ofNat'] <;> omega

/-- A byte of ASCII is a character. -/
theorem lead?_of_lt {b : UInt8} (h : b.toNat < 0x80) (rest : List UInt8) :
    lead? (b :: rest) = some (Char.ofNat b.toNat) := by
  have hvalid : b.toNat.isValidChar := .inl (by omega)
  have hchar : (Char.ofNat b.toNat).toNat = b.toNat := by
    rw [Char.ofNat, dif_pos hvalid]
    rfl
  have hencode : encodeChar (Char.ofNat b.toNat) = [b] := by
    rw [encodeChar_of_lt (by omega), hchar]
    simp
  have hlead := lead?_encodeChar (Char.ofNat b.toNat) rest
  rwa [hencode] at hlead

/-- A lone byte is from 0x80 up. -/
theorem le_of_lead?_eq_none {b : UInt8} {rest : List UInt8} (h : lead? (b :: rest) = none) :
    0x80 ≤ b.toNat := by
  rcases Nat.lt_or_ge b.toNat 0x80 with hlt | hge
  · rw [lead?_of_lt hlt] at h
    cases h
  · exact hge

/-- More bytes do not change the character that stands first. -/
theorem lead?_append {bytes : List UInt8} {c : Char} (h : lead? bytes = some c)
    (rest : List UInt8) : lead? (bytes ++ rest) = some c := by
  obtain ⟨more, rfl⟩ := lead?_isPrefix h
  rw [List.append_assoc, lead?_encodeChar]

/-! ### Reading and writing -/

theorem encode_cons (g : Glyph) (t : Text) : encode (g :: t) = encodeGlyph g ++ encode t := rfl

theorem encode_append (t u : Text) : encode (t ++ u) = encode t ++ encode u := List.flatMap_append

theorem encodeGlyph_lone {b : UInt8} (h : 0x80 ≤ b.toNat) : encodeGlyph (lone b) = [b] := by
  have hlt : b.toNat < 256 := b.toNat_lt
  have hvalue : Glyph.byteValue (Fin.ofNat 128 b.toNat) = b.toNat := by
    show 128 + b.toNat % 128 = b.toNat
    omega
  show [UInt8.ofNat (Glyph.byteValue (Fin.ofNat 128 b.toNat))] = [b]
  rw [hvalue]
  simp

theorem lone_byteValue (low : Fin 128) : lone (.ofNat (Glyph.byteValue low)) = .byte low := by
  have hlow := low.isLt
  unfold lone
  congr 1
  apply Fin.ext
  show (UInt8.ofNat (128 + low.val)).toNat % 128 = low.val
  rw [UInt8.toNat_ofNat']
  omega

/-- **Bytes in, the same bytes out.** -/
theorem encode_decode (bytes : List UInt8) : encode (decode bytes) = bytes := by
  induction hn : bytes.length using Nat.strongRecOn generalizing bytes with
  | ind n ih =>
    cases bytes with
    | nil => rw [decode_nil]; rfl
    | cons b rest =>
      cases hlead : lead? (b :: rest) with
      | some c =>
        obtain ⟨more, hmore⟩ := lead?_isPrefix hlead
        have hlength : more.length < n := by
          have hpos := List.length_pos_iff.2 (encodeChar_ne_nil c)
          rw [← hn, ← hmore, List.length_append]
          omega
        rw [← hmore, decode_encodeChar, encode_cons, ih _ hlength more rfl]
        rfl
      | none =>
        have hlength : rest.length < n := by
          rw [← hn, List.length_cons]
          omega
        rw [decode_of_lone hlead, encode_cons, encodeGlyph_lone (le_of_lead?_eq_none hlead),
          ih _ hlength rest rfl]
        rfl

/-! ### Faithful texts -/

/-- The text comes back from its bytes. -/
def Faithful (t : Text) : Prop := decode (encode t) = t

theorem faithful_nil : Faithful [] := decode_nil

/-- What is read is faithful. -/
theorem faithful_decode (bytes : List UInt8) : Faithful (decode bytes) := by
  unfold Faithful
  rw [encode_decode]

theorem faithful_char_cons {c : Char} {t : Text} : Faithful (.char c :: t) ↔ Faithful t := by
  unfold Faithful
  show decode (encodeChar c ++ encode t) = _ ↔ _
  rw [decode_encodeChar, List.cons.injEq, and_iff_right rfl]

/-- A lone byte comes back if no character stands where it does. -/
theorem faithful_byte_cons {low : Fin 128} {t : Text} : Faithful (.byte low :: t) ↔
    lead? (encode (.byte low :: t)) = none ∧ Faithful t := by
  unfold Faithful
  show decode (.ofNat (Glyph.byteValue low) :: encode t) = _ ↔
    lead? (.ofNat (Glyph.byteValue low) :: encode t) = none ∧ _
  cases hlead : lead? (.ofNat (Glyph.byteValue low) :: encode t) with
  | some c => simp [decode_of_lead? hlead]
  | none => simp [decode_of_lone hlead, lone_byteValue]

theorem Faithful.of_append_right : ∀ {t u : Text}, Faithful (t ++ u) → Faithful u
  | [], _, h => h
  | .char _ :: _, _, h => of_append_right (faithful_char_cons.1 h)
  | .byte _ :: _, _, h => of_append_right (faithful_byte_cons.1 h).2

theorem Faithful.of_append_left : ∀ {t u : Text}, Faithful (t ++ u) → Faithful t
  | [], _, _ => faithful_nil
  | .char _ :: _, _, h => faithful_char_cons.2 (of_append_left (faithful_char_cons.1 h))
  | .byte low :: t, u, h => by
    obtain ⟨hlead, hrest⟩ := faithful_byte_cons.1 h
    refine faithful_byte_cons.2 ⟨?_, of_append_left hrest⟩
    cases hc : lead? (encode (.byte low :: t)) with
    | none => rfl
    | some c =>
      have hmore := lead?_append hc (encode u)
      rw [← encode_append, List.cons_append] at hmore
      exact absurd (hlead.symm.trans hmore) nofun

/-- **A piece of a faithful text is faithful,** wherever it is cut. -/
theorem Faithful.of_isInfix {t u : Text} (h : Faithful u) (ht : t <:+: u) : Faithful t := by
  obtain ⟨before, after, rfl⟩ := ht
  exact h.of_append_left.of_append_right

/-! ### Setting ASCII after a text -/

/-- The text is empty or starts with a character of ASCII. -/
def StartsInAscii (t : Text) : Prop := ∀ g ∈ t.head?, ∃ c : Char, g = .char c ∧ c.toNat < 0x80

theorem StartsInAscii.head_lt {t : Text} (h : StartsInAscii t) : ∀ b ∈ (encode t).head?,
    b.toNat < 0x80 := by
  cases t with
  | nil => simp [encode]
  | cons g rest =>
    obtain ⟨c, rfl, hc⟩ := h g (by simp)
    rw [encode_cons]
    show ∀ b ∈ (encodeChar c ++ encode rest).head?, _
    rw [encodeChar_of_lt hc]
    intro b hb
    obtain rfl : UInt8.ofNat c.toNat = b := by simpa using hb
    rw [UInt8.toNat_ofNat']
    omega

/-- Bytes from 0x80 up end where ASCII starts. -/
theorem isPrefix_of_isPrefix_append {p a b : List UInt8} (hp : ∀ x ∈ p, 0x80 ≤ x.toNat)
    (hb : ∀ x ∈ b.head?, x.toNat < 0x80) (h : p <+: a ++ b) : p <+: a := by
  induction p generalizing a with
  | nil => exact List.nil_prefix
  | cons x p ih =>
    have hx := hp x List.mem_cons_self
    cases a with
    | nil =>
      obtain ⟨more, rfl⟩ := h
      have hlt := hb x (by simp)
      omega
    | cons y a =>
      obtain ⟨rfl, hrest⟩ := List.cons_prefix_cons.1 h
      exact List.cons_prefix_cons.2
        ⟨rfl, ih (fun z hz => hp z (List.mem_cons_of_mem _ hz)) hrest⟩

/-- A character that stands where a lone byte is written is outside ASCII. -/
theorem le_of_lead?_byte {low : Fin 128} {t : Text} {c : Char}
    (h : lead? (encode (.byte low :: t)) = some c) : 0x80 ≤ c.toNat := by
  rcases Nat.lt_or_ge c.toNat 0x80 with hlt | hge
  · have hstands : encodeChar c <+: .ofNat (Glyph.byteValue low) :: encode t := lead?_isPrefix h
    rw [encodeChar_of_lt hlt] at hstands
    have hvalue := congrArg UInt8.toNat (List.cons_prefix_cons.1 hstands).1
    rw [UInt8.toNat_ofNat', UInt8.toNat_ofNat'] at hvalue
    have hlow := low.isLt
    unfold Glyph.byteValue at hvalue
    omega
  · exact hge

/-- **A faithful text stays faithful before ASCII:** no character is formed across the border. -/
theorem Faithful.append {u : Text} (hu : Faithful u) (hstart : StartsInAscii u) :
    ∀ {t : Text}, Faithful t → Faithful (t ++ u)
  | [], _ => hu
  | .char _ :: _, ht => faithful_char_cons.2 (hu.append hstart (faithful_char_cons.1 ht))
  | .byte low :: t, ht => by
    obtain ⟨hlead, hrest⟩ := faithful_byte_cons.1 ht
    refine faithful_byte_cons.2 ⟨?_, hu.append hstart hrest⟩
    cases hc : lead? (encode (.byte low :: (t ++ u))) with
    | none => rfl
    | some c =>
      have hstands : encodeChar c <+: encode (.byte low :: t) ++ encode u := by
        rw [← encode_append]
        exact lead?_isPrefix hc
      have hhigh : ∀ b ∈ encodeChar c, 0x80 ≤ b.toNat :=
        fun b hb => le_of_mem_encodeChar (le_of_lead?_byte hc) hb
      obtain ⟨more, hmore⟩ := isPrefix_of_isPrefix_append hhigh hstart.head_lt hstands
      rw [← hmore, lead?_encodeChar] at hlead
      cases hlead

end Utf8
end UndoScript
