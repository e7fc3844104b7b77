/-
# The language of one step

What a step of a session can come to, whatever the source, is the language of
its setting and memory: each group is of the language, and each group of the
language is what a step with some tape comes to. The steps of a binary
document speak the same language, without the movements by words and brackets
and the settings for text.

Key definitions: `Session.StepsTo`, `Emission.ForText`.
Key theorems: `Emits.fits`, `Emits.binary_iff`, `Session.step_language`.
-/
import UndoScript.Proofs.Action.Attribution
import UndoScript.Proofs.Session.Run

namespace UndoScript

/-! ### What is emitted can be written as commands -/

theorem Document.Unbroken.newline_not_mem_of_content {d : Document} {t : Text} (hd : d.Unbroken)
    (ht : d.IsContent t) : Glyph.newline ∉ t := by
  obtain ⟨-, line, hline, rfl⟩ := ht
  exact hd line hline

theorem Document.Unbroken.newline_not_mem_of_fragment {d : Document} {t : Text} (hd : d.Unbroken)
    (ht : d.IsFragment t) : Glyph.newline ∉ t := by
  obtain ⟨-, line, hline, hpart⟩ := ht.exists_content
  exact fun hmem => hd.newline_not_mem_of_content hline (hpart.subset hmem)

theorem Options.Replaces.kind_eq {o : Options} {k : Keyword} (h : o.Replaces k) :
    k.kind = .string := by
  rcases h with rfl | ⟨rfl, -⟩ <;> rfl

/-- Everything emitted fits, if no line of the document has a line feed inside. -/
theorem Emits.fits {s : Setting} {m m' : Memory} {c : Category} {g : List Phrase}
    (hd : s.document.Unbroken) (h : Emits s m c g m') : ∀ p ∈ g, p.2.Fits p.1 := by
  have habsent (k : Keyword) : (Argument.absent).Fits k := trivial
  have hnumber {c : Category} {k : Keyword} {first last n : Nat}
      (hk : (k, first, last) ∈ Emission.ranges c ++ Emission.rangesInText c) :
      (Argument.number n).Fits k := (Action.ranges_fit _ hk).1
  cases h with
  | alone => simpa using habsent _
  | aloneInText => simpa using habsent _
  | range hk => simpa using hnumber (List.mem_append_left _ hk)
  | rangeInText _ hk => simpa using hnumber (List.mem_append_right _ hk)
  | gotoLine => simp [Argument.Fits]; decide
  | lastBookmark => decide
  | adjustView hheight hside =>
    simpa using Argument.fits_bare_of_isWord rfl (Emission.isWord_view _ hheight _ hside)
  | wordMotion _ hk =>
    simpa using Argument.fits_bare_of_isWord (Action.wordMotions_fit _ hk) (Numeral.isWord_digits _)
  | brackets => decide
  | turn hturn =>
    cases hturn with
    | sort => decide
    | _ => simp [Argument.Fits]
  | replaceFound ht hu hk =>
    have hfind : (Argument.quoted _).Fits .find := ⟨rfl, hd.newline_not_mem_of_fragment ht⟩
    have hreplace : (Argument.quoted _).Fits _ := ⟨hk.kind_eq, hd.newline_not_mem_of_fragment hu⟩
    simpa using ⟨hfind, hreplace⟩
  | replaceMatch hp hu hk =>
    have hfind : (Argument.bare _).Fits .findRegexp :=
      Argument.fits_bare_of_isWord rfl (Emission.isWord_pattern _ hp)
    have hreplace : (Argument.quoted _).Fits _ := ⟨hk.kind_eq, hd.newline_not_mem_of_fragment hu⟩
    simpa using ⟨hfind, hreplace⟩
  | undoThenRedo => simp [Argument.Fits]; decide
  | shift hdirection _ hunit =>
    simpa using Argument.fits_bare_of_isWord rfl (Emission.isWord_shift _ hdirection hunit)
  | anySyntax => decide
  | syntaxOf he => simpa using Argument.fits_bare_of_isWord rfl he.isWord
  | insertString ht =>
    have hinsert : (Argument.quoted _).Fits .insertString :=
      ⟨rfl, hd.newline_not_mem_of_content ht⟩
    simpa using hinsert

/-! ### Binary documents -/

namespace Emission

/-- The keywords that make sense for text only. -/
def textKeywords : List Keyword :=
  [.moveToEndOfWord, .nextWord, .prevWord, .autoIndent, .wordWrap, .rightMargin]

/-- A group that makes sense for text only. -/
def ForText (g : List Phrase) : Prop :=
  (∃ p ∈ g, p.1 ∈ textKeywords) ∨ g = [(.findRegexp, .bare anyBracket)]

theorem forText_singleton {k : Keyword} {a : Argument} :
    ForText [(k, a)] ↔ k ∈ textKeywords ∨ (k = .findRegexp ∧ a = .bare anyBracket) := by
  simp [ForText]

theorem not_forText_one {k : Keyword} {a : Argument} (hk : k ∉ textKeywords)
    (hfind : k ≠ .findRegexp) : ¬ ForText [(k, a)] := by
  simp [forText_singleton, hk, hfind]

theorem not_forText_two {k l : Keyword} {a b : Argument} (hk : k ∉ textKeywords)
    (hl : l ∉ textKeywords) : ¬ ForText [(k, a), (l, b)] := by
  simp [ForText, hk, hl]

theorem alone_not_text (c : Category) :
    ∀ k ∈ alone c, k ∉ textKeywords ∧ k ≠ .findRegexp := by cases c <;> decide

theorem aloneInText_text (c : Category) : ∀ k ∈ aloneInText c, k ∈ textKeywords := by
  cases c <;> decide

theorem ranges_not_text (c : Category) :
    ∀ p ∈ ranges c, p.1 ∉ textKeywords ∧ p.1 ≠ .findRegexp := by cases c <;> decide

theorem rangesInText_text (c : Category) : ∀ p ∈ rangesInText c, p.1 ∈ textKeywords := by
  cases c <;> decide

end Emission

/-- The setting for the same document, taken as text. -/
def Setting.asText (s : Setting) : Setting :=
  { s with options := { s.options with binary := false } }

/-- A binary document speaks the language of text, less what makes sense for text only. -/
theorem Emits.binary_iff {s : Setting} {m m' : Memory} {c : Category} {g : List Phrase}
    (hb : s.options.binary = true) :
    Emits s m c g m' ↔ Emits s.asText m c g m' ∧ ¬ Emission.ForText g := by
  have hno : s.options.binary ≠ false := by simp [hb]
  have hreplaces {k : Keyword} (hk : s.options.Replaces k) : k ∉ Emission.textKeywords := by
    rcases hk with rfl | ⟨rfl, -⟩ <;> decide
  constructor
  · intro h
    cases h with
    | alone hk =>
      have hnot := Emission.alone_not_text c _ hk
      exact ⟨.alone hk, Emission.not_forText_one hnot.1 hnot.2⟩
    | range hk hfirst hlast =>
      have hnot := Emission.ranges_not_text c _ hk
      exact ⟨.range hk hfirst hlast, Emission.not_forText_one hnot.1 hnot.2⟩
    | aloneInText hf => exact absurd hf hno
    | rangeInText hf => exact absurd hf hno
    | wordMotion hf => exact absurd hf hno
    | brackets hf => exact absurd hf hno
    | gotoLine hfirst hlast =>
      exact ⟨.gotoLine hfirst hlast, Emission.not_forText_one (by decide) (by decide)⟩
    | lastBookmark => exact ⟨.lastBookmark, Emission.not_forText_one (by decide) (by decide)⟩
    | adjustView hheight hside =>
      exact ⟨.adjustView hheight hside, Emission.not_forText_one (by decide) (by decide)⟩
    | turn hturn =>
      refine ⟨.turn hturn, ?_⟩
      cases hturn with
      | rest => simp [Emission.ForText]
      | paste hk =>
        rcases hk with rfl | rfl <;> exact Emission.not_forText_one (by decide) (by decide)
      | mark hk =>
        rcases hk with rfl | rfl <;> exact Emission.not_forText_one (by decide) (by decide)
      | _ => exact Emission.not_forText_one (by decide) (by decide)
    | replaceFound ht hu hk =>
      exact ⟨.replaceFound ht hu hk, Emission.not_forText_two (by decide) (hreplaces hk)⟩
    | replaceMatch hp hu hk =>
      exact ⟨.replaceMatch hp hu hk, Emission.not_forText_two (by decide) (hreplaces hk)⟩
    | undoThenRedo hdepth =>
      exact ⟨.undoThenRedo hdepth, Emission.not_forText_two (by decide) (by decide)⟩
    | shift hdirection hn hunit =>
      exact ⟨.shift hdirection hn hunit, Emission.not_forText_one (by decide) (by decide)⟩
    | anySyntax => exact ⟨.anySyntax, Emission.not_forText_one (by decide) (by decide)⟩
    | syntaxOf he => exact ⟨.syntaxOf he, Emission.not_forText_one (by decide) (by decide)⟩
    | insertString ht => exact ⟨.insertString ht, Emission.not_forText_one (by decide) (by decide)⟩
  · rintro ⟨h, hnot⟩
    cases h with
    | alone hk => exact .alone hk
    | range hk hfirst hlast => exact .range hk hfirst hlast
    | aloneInText _ hk =>
      exact absurd (Emission.forText_singleton.2 (.inl (Emission.aloneInText_text c _ hk))) hnot
    | rangeInText _ hk =>
      exact absurd (Emission.forText_singleton.2 (.inl (Emission.rangesInText_text c _ hk))) hnot
    | wordMotion _ hk =>
      have htext : ∀ k ∈ Emission.wordMotions, k ∈ Emission.textKeywords := by decide
      exact absurd (Emission.forText_singleton.2 (.inl (htext _ hk))) hnot
    | brackets => exact absurd (.inr rfl) hnot
    | gotoLine hfirst hlast => exact .gotoLine hfirst hlast
    | lastBookmark => exact .lastBookmark
    | adjustView hheight hside => exact .adjustView hheight hside
    | turn hturn => exact .turn hturn
    | replaceFound ht hu hk => exact .replaceFound ht hu hk
    | replaceMatch hp hu hk => exact .replaceMatch hp hu hk
    | undoThenRedo hdepth => exact .undoThenRedo hdepth
    | shift hdirection hn hunit => exact .shift hdirection hn hunit
    | anySyntax => exact .anySyntax
    | syntaxOf he => exact .syntaxOf he
    | insertString ht => exact .insertString ht

/-! ### Steps of a session -/

/-- A group replaces everything at once only if that is allowed. -/
theorem Emits.not_replaceAll {s : Setting} {m m' : Memory} {c : Category} {g : List Phrase}
    (ho : s.options.replaceAll = false) (h : Emits s m c g m') : ∀ p ∈ g, p.1 ≠ .replaceAll := by
  rcases h.form with ⟨rfl, -⟩ | ⟨p, rfl, hlone⟩ | ⟨p, q, rfl, -, hpair⟩
  · exact fun p hp => absurd hp List.not_mem_nil
  · simpa using hlone.keyword_ne (by decide)
  · simpa using ⟨hpair.first_ne (by decide), hpair.not_replaceAll ho⟩

/-- GOTOLINE goes to the lines of the document and no further. -/
theorem Emits.gotoLine_iff {s : Setting} {m : Memory} {n : Int}
    (hcontent : s.document.hasContent = true) :
    (∃ c m', Emits s m c [(.gotoLine, .number n)] m') ↔ 1 ≤ n ∧ n ≤ s.document.lines.length := by
  have hlines : 1 ≤ s.document.lines.length := by
    obtain ⟨t, -, line, hline, -⟩ := Document.hasContent_iff.1 hcontent
    exact List.length_pos_of_mem hline
  have hranges (c : Category) :
      ∀ p ∈ Emission.ranges c ++ Emission.rangesInText c, p.1 ≠ .gotoLine := by
    cases c <;> decide
  constructor
  · rintro ⟨c, m', h⟩
    cases h with
    | range hk => exact absurd rfl (hranges c _ (List.mem_append_left _ hk))
    | rangeInText _ hk => exact absurd rfl (hranges c _ (List.mem_append_right _ hk))
    | gotoLine hfirst hlast => omega
    | turn hturn => cases hturn
  · rintro ⟨hfirst, hlast⟩
    obtain ⟨k, rfl⟩ := Int.eq_ofNat_of_zero_le (show 0 ≤ n by omega)
    exact ⟨.navigation, m, .gotoLine (by omega) (by omega)⟩

namespace Session

open Sampler

/-- With some source, a step comes to these commands and leaves that to be remembered. -/
def StepsTo (s : Setting) (m : Memory) (tally : Tally) (g : List Phrase) (m' : Memory) : Prop :=
  ∃ (σ : Type) (_ : Source σ) (source : σ) (cs : List Command) (s' : Session σ),
    step.run ⟨s, m, tally, source⟩ = (.ok cs, s') ∧ cs.map Command.phrase = g ∧ s'.memory = m'

variable {s : Setting} {m m' : Memory} {tally : Tally} {g : List Phrase}

/-- **A step comes to the groups of the language,** no more and no less. -/
theorem stepsTo_iff (hd : s.document.Unbroken) (hm : 0 ≤ m.mutations) :
    StepsTo s m tally g m' ↔ ∃ c after, Emits s m c g after ∧
      m' = if c.mutates then after.changed else after := by
  constructor
  · rintro ⟨σ, _, source, cs, s', hrun, rfl, rfl⟩
    obtain ⟨t, ht, rfl, -, hmemory⟩ := yields_of_run_step hrun
    obtain ⟨after, hemits, hafter⟩ := (Setting.yields_step_iff hm).1 ht
    exact ⟨t.category, after, hemits, hmemory.trans hafter⟩
  · rintro ⟨c, after, hemits, rfl⟩
    obtain ⟨cs, rfl⟩ := Command.exists_phrases g (hemits.fits hd)
    have ht : (s.step m).Yields ⟨c, cs, if c.mutates then after.changed else after⟩ :=
      (Setting.yields_step_iff hm).2 ⟨after, hemits, rfl⟩
    obtain ⟨draws, hdraws⟩ := exists_draws_of_yields ht
    obtain ⟨asked, hrun⟩ := hdraws [] []
    refine ⟨Tape, inferInstance, ⟨draws ++ [], []⟩, cs,
      ⟨s, if c.mutates then after.changed else after, tally.bump c, ⟨[], asked⟩⟩, ?_, rfl, rfl⟩
    rw [run_step, hrun]

/-- **The language of a step.** Its groups are those of the language, each of them is what a step
with some source comes to, nothing is replaced everywhere unless that is allowed, GOTOLINE goes to
every line, and a binary document has the groups of text that are not for text only. -/
theorem step_language (hd : s.document.Unbroken) (hcontent : s.document.hasContent = true)
    (hm : 0 ≤ m.mutations) :
    (∀ g m', StepsTo s m tally g m' ↔ ∃ c after, Emits s m c g after ∧
      m' = if c.mutates then after.changed else after) ∧
    (∀ n, (∃ m', StepsTo s m tally [(.gotoLine, .number n)] m') ↔
      1 ≤ n ∧ n ≤ s.document.lines.length) ∧
    (s.options.replaceAll = false → ∀ g m', StepsTo s m tally g m' → ∀ p ∈ g, p.1 ≠ .replaceAll) ∧
    (s.options.binary = true → ∀ g m', StepsTo s m tally g m' ↔
      StepsTo s.asText m tally g m' ∧ ¬ Emission.ForText g) := by
  refine ⟨fun g m' => stepsTo_iff hd hm, fun n => ?_, fun ho g m' h => ?_, fun hb g m' => ?_⟩
  · rw [← Emits.gotoLine_iff (m := m) hcontent]
    constructor
    · rintro ⟨m', h⟩
      obtain ⟨c, after, hemits, -⟩ := (stepsTo_iff hd hm).1 h
      exact ⟨c, after, hemits⟩
    · rintro ⟨c, after, hemits⟩
      exact ⟨_, (stepsTo_iff hd hm).2 ⟨c, after, hemits, rfl⟩⟩
  · obtain ⟨c, after, hemits, -⟩ := (stepsTo_iff hd hm).1 h
    exact hemits.not_replaceAll ho
  · have htext : s.asText.document.Unbroken := hd
    rw [stepsTo_iff hd hm, stepsTo_iff htext hm]
    constructor
    · rintro ⟨c, after, hemits, hafter⟩
      obtain ⟨hemits, hnot⟩ := (Emits.binary_iff hb).1 hemits
      exact ⟨⟨c, after, hemits, hafter⟩, hnot⟩
    · rintro ⟨⟨c, after, hemits, hafter⟩, hnot⟩
      exact ⟨c, after, (Emits.binary_iff hb).2 ⟨hemits, hnot⟩, hafter⟩

/-- The one line of a document is inserted, as its language has it. -/
theorem step_language_of_one_line :
    (Document.ofText "ab\n").Unbroken ∧ (Document.ofText "ab\n").hasContent = true ∧
      0 ≤ Memory.fresh.mutations ∧
      StepsTo ⟨.ofText "ab\n", "a.c", .standard⟩ .fresh .zero [(.insertString, .quoted "ab")]
        Memory.fresh.changed := by
  have hd : (Document.ofText "ab\n").Unbroken := Document.unbroken_ofText _
  have hcontent : (Document.ofText "ab\n").hasContent = true := by decide
  have hline : (Document.ofText "ab\n").IsContent "ab" :=
    Document.mem_contents_iff.1 (by decide)
  refine ⟨hd, hcontent, by decide, ?_⟩
  exact ((step_language hd hcontent (by decide)).1 _ _).2 ⟨.text, _, .insertString hline, rfl⟩

end Session
end UndoScript
