/-
# Texts taken from a document, byte for byte

A document's lines are the lines of its file. What a script inserts, searches
for or puts in is taken from these lines, and stands in the script's own bytes
as it stands in the file: a whole line without its terminator, or a piece of
such a line.

Key definitions: `Command.octets`, `Octets.quoting`.
Key theorems: `Emits.insertString_content`, `Command.octets_eq_quoting`,
`Generate.taken_verbatim`.
-/
import UndoScript.Proofs.CommandLine.Pipeline
import UndoScript.Proofs.Text.Octets

namespace UndoScript

/-! ### What is taken from the document -/

/-- **What is inserted is the content of a line.** -/
theorem Emits.insertString_content {s : Setting} {m m' : Memory} {c : Category} {g : List Phrase}
    (h : Emits s m c g m') : ∀ p ∈ g, p.1 = .insertString →
      ∃ t, p.2 = .quoted t ∧ s.document.IsContent t := by
  intro p hp hk
  obtain rfl : c = .text := by
    have hmem := h.keyword_mem p hp
    rw [hk] at hmem
    revert hmem
    cases c <;> decide
  have halone : ∀ k ∈ Emission.alone .text ++ Emission.aloneInText .text, k ≠ .insertString := by
    decide
  have hranges : ∀ q ∈ Emission.ranges .text ++ Emission.rangesInText .text,
      q.1 ≠ .insertString := by decide
  cases h with
  | insertString ht =>
    obtain rfl := List.mem_singleton.1 hp
    exact ⟨_, rfl, ht⟩
  | alone hmem =>
    obtain rfl := List.mem_singleton.1 hp
    exact absurd hk (halone _ (List.mem_append_left _ hmem))
  | aloneInText _ hmem =>
    obtain rfl := List.mem_singleton.1 hp
    exact absurd hk (halone _ (List.mem_append_right _ hmem))
  | range hmem =>
    obtain rfl := List.mem_singleton.1 hp
    exact absurd hk (hranges _ (List.mem_append_left _ hmem))
  | rangeInText _ hmem =>
    obtain rfl := List.mem_singleton.1 hp
    exact absurd hk (hranges _ (List.mem_append_right _ hmem))

/-! ### The bytes of a command -/

/-- The bytes of a command's line. -/
def Command.octets (c : Command) : List UInt8 := Utf8.encode c.text ++ [Octets.lineFeed]

/-- The byte that a quote is. -/
def Octets.quote : UInt8 := 0x22

/-- The bytes of a line with a keyword and a text between quotes, whatever its bytes. -/
def Octets.quoting (k : Keyword) (inner : List UInt8) : List UInt8 :=
  Utf8.encode k.name ++ [0x20, quote] ++ inner ++ [quote, lineFeed]

/-- **A quoted text is written byte for byte.** -/
theorem Command.octets_eq_quoting {c : Command} {t : Text} (h : c.argument = .quoted t) :
    c.octets = Octets.quoting c.keyword (Utf8.encode t) := by
  unfold octets Octets.quoting
  rw [text_eq, if_neg (by rw [h]; exact nofun), h, Argument.spelled_quoted, Utf8.encode_append,
    Utf8.encode_cons, Utf8.encode_cons, Utf8.encode_append]
  simp [Utf8.encode, Utf8.encodeGlyph, Utf8.encodeChar, Octets.quote]

/-- The lines of a script are the bytes of its commands. -/
theorem Octets.lines_encode_ofLines (cs : List Command) :
    lines (Utf8.encode (Text.ofLines (cs.map Command.text))) = cs.map Command.octets := by
  have hlines : ∀ l ∈ cs.map Command.text, Glyph.newline ∉ l := by
    intro l hl
    obtain ⟨c, -, rfl⟩ := List.mem_map.1 hl
    exact c.newline_not_mem_text
  rw [lines_encode, Text.lines_ofLines hlines, List.map_map, List.map_map]
  refine List.map_congr_left fun c _ => ?_
  exact Utf8.encode_append c.text [.newline]

theorem Utf8.encode_isInfix {t u : Text} (h : t <:+: u) : encode t <:+: encode u := by
  obtain ⟨before, after, rfl⟩ := h
  exact ⟨encode before, encode after, by rw [encode_append, encode_append]⟩

theorem Utf8.encode_ne_nil {t : Text} (h : t ≠ []) : encode t ≠ [] := by
  obtain ⟨g, rest, rfl⟩ := List.exists_cons_of_ne_nil h
  rw [encode_cons]
  exact List.append_ne_nil_of_left_ne_nil (Octets.encodeGlyph_ne_nil g) _

/-! ### From the file to the script -/

namespace Document

/-- **The lines of a document are those of its file,** byte for byte. -/
theorem load_octets {read : Reader} {path : Text} {bytes : List UInt8}
    (h : read path = .ok bytes) : ∃ d, load read path = .ok (d, bytes.length) ∧
      d.lines.map Utf8.encode = Octets.lines bytes ∧
      (d.lines.map Utf8.encode).flatten = bytes := by
  refine ⟨ofText (Utf8.decode bytes), by unfold load; rw [h], Octets.lines_decode bytes, ?_⟩
  exact (congrArg List.flatten (Octets.lines_decode bytes)).trans (Octets.flatten_lines bytes)

variable {bytes : List UInt8} {line : Text}

theorem encode_mem_lines (h : line ∈ (ofText (Utf8.decode bytes)).lines) :
    Utf8.encode line ∈ Octets.lines bytes := by
  rw [← Octets.lines_decode]
  exact List.mem_map_of_mem h

end Document

namespace Setting

variable {s : Setting} {n : Nat} {opening closing : List Command} {ts : List Step}
  {bytes : List UInt8}

/-- The steps' insertions are contents of lines of the file, and their other texts are pieces of
such. -/
theorem ScriptParts.octets (h : s.ScriptParts n opening ts closing)
    (hdocument : s.document = .ofText (Utf8.decode bytes)) :
    ∀ c ∈ (ts.map Step.commands).flatten,
      (c.keyword = .insertString → ∃ inner ≠ [],
        inner ∈ (Octets.lines bytes).map Octets.content ∧
          c.octets = Octets.quoting .insertString inner) ∧
      (c.keyword ∈ [.find, .replaceAll, .replaceOnce] → ∃ inner ≠ [],
        (∃ line ∈ Octets.lines bytes, inner <:+: Octets.content line) ∧
          c.octets = Octets.quoting c.keyword inner) := by
  intro c hc
  refine ⟨fun hk => ?_, fun hk => ?_⟩
  · obtain ⟨m, hwalk⟩ := h.walk
    obtain ⟨m₁, category, g, m₂, hemits, hmem⟩ := hwalk.exists_emits (Int.le_refl 0) c hc
    obtain ⟨t, ht, hne, line, hline, rfl⟩ := hemits.insertString_content _ hmem hk
    rw [hdocument] at hline
    refine ⟨_, Utf8.encode_ne_nil hne, ?_, hk ▸ Command.octets_eq_quoting ht⟩
    rw [← Octets.content_encode]
    exact List.mem_map_of_mem (Document.encode_mem_lines hline)
  · have hadmits := h.admits (126 + s.document.lines.length + n) (by omega) (by omega)
      (by omega) c hc
    have hsample : c.keyword.takesSample = true := by
      simp only [List.mem_cons, List.not_mem_nil, or_false] at hk
      rcases hk with hk | hk | hk <;> rw [hk] <;> rfl
    obtain ⟨t, ht⟩ := hadmits.sampled hsample
    obtain ⟨hne, hholds⟩ := hadmits.quoted t ht
    obtain ⟨line, hline, hpart⟩ := Document.holds_iff.1 hholds
    rw [hdocument] at hline
    refine ⟨_, Utf8.encode_ne_nil hne, ⟨_, Document.encode_mem_lines hline, ?_⟩,
      Command.octets_eq_quoting ht⟩
    rw [Octets.content_encode]
    exact Utf8.encode_isInfix hpart

end Setting

namespace Generate

/-- **Bytes are carried exactly.** The lines of a document that is read are, written again, the
lines of its file split after every line feed, and set one after the other they are the file. When
a run that writes a script ends well, every line of the script is a command's; in the steps,
what stands between the quotes of an insertion is not empty and is a line of the file without its
one terminator, and what stands between those of a search or a replacement is a piece of such a
line, and not empty. -/
theorem taken_verbatim {σ : Type} [Source σ] (read : Reader) :
    (∀ (path : Text) (bytes : List UInt8), read path = .ok bytes →
      ∃ d, Document.load read path = .ok (d, bytes.length) ∧
        d.lines.map Utf8.encode = Octets.lines bytes ∧
        (d.lines.map Utf8.encode).flatten = bytes) ∧
    ∀ (r : Request) (source : σ), (run r read source).status = .ok 0 →
      ∃ bytes, read r.file = .ok bytes ∧ ∃ opening steps closing,
        Octets.lines (Utf8.encode (run r read source).written) =
          (opening ++ (steps ++ closing)).map Command.octets ∧
        Audit.parts (opening ++ (steps ++ closing)) = ⟨opening, steps, closing⟩ ∧
        ∀ c ∈ steps,
          (c.keyword = .insertString → ∃ inner ≠ [],
            inner ∈ (Octets.lines bytes).map Octets.content ∧
              c.octets = Octets.quoting .insertString inner) ∧
          (c.keyword ∈ [.find, .replaceAll, .replaceOnce] → ∃ inner ≠ [],
            (∃ line ∈ Octets.lines bytes, inner <:+: Octets.content line) ∧
              c.octets = Octets.quoting c.keyword inner) := by
  refine ⟨fun path bytes => Document.load_octets, fun r source hstatus => ?_⟩
  obtain ⟨options, bytes, n, opening, ts, closing, -, -, hread, hparts, -, -, hlines⟩ :=
    exists_script_of_run hstatus
  refine ⟨bytes, hread, opening, (ts.map Step.commands).flatten, closing, ?_, hparts.parts_eq,
    hparts.octets rfl⟩
  rw [hlines, Octets.lines_encode_ofLines]

/-- A character that a line feed cuts short is inserted as the one byte that it is. -/
theorem taken_verbatim_of_cut_character : ∃ (r : Request) (read : Reader) (source : Tape),
    read r.file = .ok [0xC3, 0x0A] ∧ (run r read source).status = .ok 0 ∧
    Octets.quoting .insertString [0xC3] ∈ Octets.lines (Utf8.encode (run r read source).written) ∧
    ∃ opening steps closing : List Command,
      Octets.lines (Utf8.encode (run r read source).written) =
        (opening ++ (steps ++ closing)).map Command.octets ∧
      ∀ c ∈ steps, c.keyword = .insertString →
        c.octets = Octets.quoting .insertString [0xC3] := by
  let r : Request := ⟨"1", "/tmp/doc", false, none, 10000, true, none, false⟩
  let read : Reader := fun _ => .ok [0xC3, 0x0A]
  let source : Tape := ⟨[0, 99, 2], []⟩
  let journal : List Entry :=
    [.info (loadedNote "/tmp/doc" 2 (.ofText (Utf8.decode [0xC3, 0x0A])))]
  let setting := settingOf [0xC3, 0x0A] "/tmp/doc" .standard
  have hrun : run r read source = write journal setting 1 source := rfl
  have hsetting : setting = ⟨.ofText [.byte 0x43, .newline], "/tmp/doc", .standard⟩ := by
    have hdecode : Utf8.decode [0xC3, 0x0A] = [.byte 0x43, .newline] := by decide +kernel
    exact congrArg (fun t => Setting.mk (.ofText t) "/tmp/doc" .standard) hdecode
  have hd : setting.document.Unbroken := Document.unbroken_ofText _
  have hstatus : (write journal setting 1 source).status = .ok 0 := by
    refine status_write_of_short hd (by decide) (.inr ?_) ?_
    · rw [hsetting]
      decide
    · rw [hsetting]
      exact .of_lt (by decide) (by decide) (by decide) (by decide)
  obtain ⟨bytes, hread, opening, steps, closing, hlines, -, hsteps⟩ :=
    (taken_verbatim read).2 r source (hrun ▸ hstatus)
  obtain rfl : [0xC3, 0x0A] = bytes := Except.ok.inj hread
  refine ⟨r, read, source, rfl, hrun ▸ hstatus, ?inserted, opening, steps, closing, hlines,
    fun c hc hk => ?taken⟩
  case taken =>
    obtain ⟨inner, -, hmem, hoctets⟩ := (hsteps c hc).1 hk
    obtain rfl : inner = [0xC3] := List.mem_singleton.1 hmem
    exact hoctets
  case inserted =>
    obtain ⟨opening, ts, closing, -, hgives, -, hlines⟩ := exists_script_of_write hd hstatus
    generalize opening ++ ((ts.map Step.commands).flatten ++ closing) = cs at hgives hlines
    have hfirst : (cs.take 5).map Command.phrase = [(.openFile, .quoted "/tmp/doc"),
        (.turbo, .number 10000), (.autoMatchBracket, .number 1), (.utf8, .number 0),
        (.insertString, .quoted [.byte 0x43])] := by
      rw [hsetting] at hgives
      exact hgives.phrases_eq rfl
    have hinsert : (.insertString, .quoted [.byte 0x43]) ∈ (cs.take 5).map Command.phrase := by
      rw [hfirst]
      exact List.mem_of_getLast? rfl
    obtain ⟨c, hc, hphrase⟩ := List.mem_map.1 hinsert
    obtain ⟨hk, hquoted⟩ := Prod.mk.inj hphrase
    have hoctets : c.octets = Octets.quoting .insertString [0xC3] := by
      rw [Command.octets_eq_quoting hquoted, hk]
      rfl
    rw [hrun, hlines, Octets.lines_encode_ofLines, ← hoctets]
    exact List.mem_map_of_mem (List.mem_of_mem_take hc)

end Generate
end UndoScript
