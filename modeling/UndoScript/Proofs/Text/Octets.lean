/-
# Lines of bytes

Files are split into lines after they were read as texts. Splitting their
bytes after every line feed gives the same: the byte of a line feed stands for
itself only, never inside a character, and a sequence that a line feed cuts
short was none. So the lines of a text that was read are, line by line, the
lines of the bytes, and so are their contents.

Key definitions: `Octets.lines`, `Octets.content`.
Key theorems: `Octets.lines_encode`, `Octets.content_encode`,
`Octets.lines_decode`.
-/
import Mathlib.Data.List.Induction
import UndoScript.Proofs.Text.Faithful
import UndoScript.Proofs.Text.Pieces

namespace UndoScript
namespace Octets

/-- The byte that a line feed is. -/
def lineFeed : UInt8 := 0x0A

/-- The byte that a carriage return is. -/
def carriageReturn : UInt8 := 0x0D

/-- Bytes split after every line feed; the last line may lack one. -/
def lines : List UInt8 → List (List UInt8)
  | [] => []
  | b :: rest =>
    if b = lineFeed then [b] :: lines rest
    else match lines rest with
      | [] => [[b]]
      | l :: ls => (b :: l) :: ls

/-- A line without its one terminator, if it has one. -/
def content (line : List UInt8) : List UInt8 :=
  if [carriageReturn, lineFeed] <:+ line then line.dropLast.dropLast
  else if [lineFeed] <:+ line ∨ [carriageReturn] <:+ line then line.dropLast
  else line

/-! ### Bytes without line feeds -/

theorem flatten_lines (bytes : List UInt8) : (lines bytes).flatten = bytes := by
  induction bytes with
  | nil => rfl
  | cons b rest ih =>
    unfold lines
    split
    · rw [List.flatten_cons, ih, List.singleton_append]
    · cases hls : lines rest with
      | nil =>
        rw [hls] at ih
        rw [← ih]
        rfl
      | cons l ls =>
        rw [hls] at ih
        exact congrArg (b :: ·) ih

/-- Bytes that are no line feeds begin a line, or go on with one. -/
theorem lines_append {begun : List UInt8} (hne : begun ≠ []) (h : ∀ b ∈ begun, b ≠ lineFeed)
    (rest : List UInt8) : lines (begun ++ rest) = match lines rest with
      | [] => [begun]
      | l :: ls => (begun ++ l) :: ls := by
  induction begun with
  | nil => exact absurd rfl hne
  | cons b begun ih =>
    have hb : b ≠ lineFeed := h b List.mem_cons_self
    rw [List.cons_append, lines, if_neg hb]
    rcases begun with _ | ⟨c, begun⟩
    · rfl
    · rw [ih (List.cons_ne_nil c begun) fun d hd => h d (List.mem_cons_of_mem b hd)]
      cases lines rest <;> rfl

/-! ### The bytes of a glyph -/

open Utf8

theorem encodeGlyph_ne_nil : ∀ g : Glyph, encodeGlyph g ≠ []
  | .char c => encodeChar_ne_nil c
  | .byte _ => List.cons_ne_nil _ _

theorem encodeGlyph_of_lt {c : Char} (h : c.toNat < 0x80) :
    encodeGlyph (.char c) = [.ofNat c.toNat] := encodeChar_of_lt h

/-- A byte of ASCII is the glyph that it spells, and part of no other. -/
theorem eq_char_of_mem_encodeGlyph {g : Glyph} {c : Char} (hc : c.toNat < 0x80)
    (h : .ofNat c.toNat ∈ encodeGlyph g) : g = .char c := by
  have hvalue : (UInt8.ofNat c.toNat).toNat = c.toNat := by
    rw [UInt8.toNat_ofNat']
    omega
  cases g with
  | char d =>
    rcases Nat.lt_or_ge d.toNat 0x80 with hd | hd
    · rw [encodeGlyph_of_lt hd, List.mem_singleton] at h
      have heq := congrArg UInt8.toNat h
      rw [hvalue, UInt8.toNat_ofNat'] at heq
      have hchar : c.toNat = d.toNat := by omega
      exact congrArg Glyph.char (Char.toNat_inj.1 hchar.symm)
    · have hle := le_of_mem_encodeChar hd h
      omega
  | byte low =>
    obtain heq := congrArg UInt8.toNat (List.mem_singleton.1 h)
    rw [hvalue, UInt8.toNat_ofNat', Glyph.byteValue] at heq
    have hlow := low.isLt
    omega

theorem ne_lineFeed_of_mem_encodeGlyph {g : Glyph} (h : g ≠ .newline) :
    ∀ b ∈ encodeGlyph g, b ≠ lineFeed := by
  rintro b hb rfl
  exact h (eq_char_of_mem_encodeGlyph (c := '\n') (by decide) hb)

/-! ### Lines of texts and of bytes -/

/-- **Lines are the same before and after writing.** -/
theorem lines_encode (t : Text) : lines (encode t) = (Text.lines t).map encode := by
  induction t with
  | nil => rfl
  | cons g t ih =>
    rw [encode_cons]
    by_cases hg : g = .newline
    · subst hg
      rw [Text.lines_newline_cons, List.map_cons, ← ih]
      rfl
    · rw [Text.lines_cons hg, lines_append (encodeGlyph_ne_nil g)
        (ne_lineFeed_of_mem_encodeGlyph hg), ih]
      cases Text.lines t with
      | nil => simp [Text.continued, encode]
      | cons l ls => simp [Text.continued, encode]

/-- **The lines of what is read are the lines of the file,** byte for byte. -/
theorem lines_decode (bytes : List UInt8) :
    (Text.lines (decode bytes)).map encode = lines bytes := by
  rw [← lines_encode, encode_decode]

/-! ### Contents of texts and of bytes -/

/-- What ends with a byte of ASCII was written for a text that ends with its glyph. -/
theorem exists_of_encode_eq_append {t : Text} {bytes : List UInt8} {c : Char} (hc : c.toNat < 0x80)
    (h : encode t = bytes ++ [.ofNat c.toNat]) : ∃ u, t = u ++ [.char c] ∧ encode u = bytes := by
  rcases List.eq_nil_or_concat t with rfl | ⟨u, g, rfl⟩
  · exact absurd h.symm (List.append_ne_nil_of_right_ne_nil _ (List.cons_ne_nil _ _))
  · rw [List.concat_eq_append, encode_append] at h
    have hone : encode [g] = encodeGlyph g := List.append_nil _
    obtain ⟨first, last, hlast⟩ :=
      (List.eq_nil_or_concat (encodeGlyph g)).resolve_left (encodeGlyph_ne_nil g)
    rw [List.concat_eq_append] at hlast
    rw [hone, hlast, ← List.append_assoc] at h
    obtain ⟨-, hbyte⟩ := List.append_inj' h rfl
    obtain rfl : g = .char c :=
      eq_char_of_mem_encodeGlyph hc (by rw [hlast, hbyte]; exact List.mem_concat_self)
    rw [encodeGlyph_of_lt hc] at hlast
    rw [List.append_assoc, ← hlast] at h
    exact ⟨u, List.concat_eq_append, List.append_cancel_right h⟩

/-- ASCII ends the bytes of a text if it ends the text. -/
theorem encode_suffix_encode_iff {ending t : Text}
    (hending : ∀ g ∈ ending, ∃ c : Char, g = .char c ∧ c.toNat < 0x80) :
    encode ending <:+ encode t ↔ ending <:+ t := by
  constructor
  · induction ending using List.reverseRecOn generalizing t with
    | nil => exact fun _ => List.nil_suffix
    | append_singleton ending g ih =>
      rintro ⟨bytes, h⟩
      obtain ⟨c, rfl, hc⟩ := hending g (by simp)
      have hone : encode [Glyph.char c] = [.ofNat c.toNat] := by
        rw [encode_cons, encodeGlyph_of_lt hc]
        rfl
      rw [encode_append, hone, ← List.append_assoc] at h
      obtain ⟨u, rfl, hu⟩ := exists_of_encode_eq_append hc h.symm
      obtain ⟨v, rfl⟩ := ih (fun g hg => hending g (List.mem_append_left _ hg)) ⟨bytes, hu.symm⟩
      exact ⟨v, (List.append_assoc _ _ _).symm⟩
  · rintro ⟨u, rfl⟩
    exact ⟨encode u, (encode_append u ending).symm⟩

theorem dropLast_encode {c : Char} (hc : c.toNat < 0x80) (u : Text) :
    (encode (u ++ [.char c])).dropLast = encode u := by
  rw [encode_append, encode_cons, encodeGlyph_of_lt hc]
  exact List.dropLast_concat

/-- **Contents are the same before and after writing.** -/
theorem content_encode (line : Text) : content (encode line) = encode line.content := by
  have hreturn : ('\r' : Char).toNat < 0x80 := by decide
  have hfeed : ('\n' : Char).toNat < 0x80 := by decide
  have hascii : ∀ g ∈ [Glyph.carriageReturn, .newline],
      ∃ c : Char, g = .char c ∧ c.toNat < 0x80 := by
    simp [Glyph.carriageReturn, Glyph.newline]
  have hboth : [carriageReturn, lineFeed] <:+ encode line ↔ [.carriageReturn, .newline] <:+ line :=
    encode_suffix_encode_iff hascii
  have hnewline : [lineFeed] <:+ encode line ↔ [.newline] <:+ line :=
    encode_suffix_encode_iff fun g hg => hascii g (List.mem_cons_of_mem _ hg)
  have hcarriage : [carriageReturn] <:+ encode line ↔ [.carriageReturn] <:+ line :=
    encode_suffix_encode_iff fun g hg => hascii g (List.mem_of_mem_take (i := 1) hg)
  unfold content Text.content
  simp only [hboth, hnewline, hcarriage, List.isSuffixOf_iff_suffix, Bool.or_eq_true]
  split
  case isTrue h =>
    obtain ⟨u, rfl⟩ := h
    have htwo : u ++ [.carriageReturn, .newline] =
        u ++ [.carriageReturn] ++ [Glyph.newline] := by simp
    rw [htwo, List.dropLast_concat, List.dropLast_concat]
    exact (congrArg _ (dropLast_encode hfeed _)).trans (dropLast_encode hreturn u)
  case isFalse =>
    split
    case isTrue h =>
      rcases h with ⟨u, rfl⟩ | ⟨u, rfl⟩
      · exact (dropLast_encode hfeed u).trans (congrArg encode List.dropLast_concat.symm)
      · exact (dropLast_encode hreturn u).trans (congrArg encode List.dropLast_concat.symm)
    case isFalse => rfl

end Octets
end UndoScript
