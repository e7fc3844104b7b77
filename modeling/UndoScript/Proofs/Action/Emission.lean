/-
# What a step may emit

The groups of commands that a step may emit, category by category, as the
editor's user would write them down: keywords that stand alone, keywords with
a number from a first value to a last, the few with an argument of their own,
the pairs that search and replace or undo and redo, and the turns of selecting
and pasting. Nothing here draws; a group is in the language or it is not.

Key definitions: `Emission.alone`, `Emission.ranges`, `Document.IsFragment`,
`Turn`, `Emits`, `Emission.keywords`.
Key theorems: `Emits.keyword_mem`, `Emits.memory_eq`.
-/
import UndoScript.Action.Perform
import UndoScript.Proofs.Action.Extension
import UndoScript.Proofs.Command.Phrase
import Mathlib.Data.Nat.Sqrt

namespace UndoScript

namespace Emission

/-- Keywords that stand alone, for every document. -/
def alone : Category → List Keyword
  | .navigation =>
    [.moveToBottomOfScreen, .moveToEndOfFile, .moveToEndOfLine, .moveIncDown, .moveIncUp,
     .moveToStartOfFile, .moveToStartOfLine, .moveToTopOfScreen, .nextPage, .pageDown, .pageUp,
     .prevPage, .setBookmark, .gotoBookmark, .unsetBookmark, .toggleStartEndOfLine,
     .toggleStartEndOfFile]
  | .flags => [.freeForm, .insert, .tabs, .shiftTabs, .delTabs]
  | .deletion => [.deleteToEndOfLine]
  | .clipboard => []
  | .editing => [.autoComplete, .repeatLast, .nameConvert]
  | .atomic => [.atomicUndo]
  | .text => [.insertLine, .insertTab]

/-- Keywords that stand alone, for text only. -/
def aloneInText : Category → List Keyword
  | .navigation => [.moveToEndOfWord]
  | .flags => [.autoIndent, .wordWrap]
  | _ => []

/-- Keywords with a number, its first and its last value, for every document. -/
def ranges : Category → List (Keyword × Nat × Nat)
  | .navigation =>
    [(.gotoColumn, 1, 80), (.lineUp, 1, 100), (.lineDown, 1, 100), (.moveLeft, 0, 79),
     (.moveRight, 0, 79)]
  | .flags => [(.tabSize, 1, 20)]
  | .deletion =>
    [(.backspace, 0, 19), (.deleteChar, 0, 19), (.deleteLine, 0, 9), (.deleteNextWord, 0, 2),
     (.deletePrevWord, 0, 2)]
  | .editing =>
    [(.capitalize, 0, 9), (.center, 0, 9), (.paragraph, 0, 19), (.toLower, 0, 9), (.toUpper, 0, 9),
     (.undelLine, 0, 9)]
  | .text => [(.insertChar, 1, 126)]
  | .clipboard | .atomic => []

/-- Keywords with a number, its first and its last value, for text only. -/
def rangesInText : Category → List (Keyword × Nat × Nat)
  | .flags => [(.rightMargin, 1, 80)]
  | _ => []

/-- Movements by words, each over 0 to 19 of them, for text only. -/
def wordMotions : List Keyword := [.nextWord, .prevWord]

/-- The patterns that are searched for to be replaced. -/
def patterns : List String := ["[A-Z][a-z]+", "[a-z]+", "[0-9]+"]

/-- The pattern that finds any bracket, for text only. -/
def anyBracket : String := "\\(|\\)|\\[|\\]|\x7b|\x7d|<|>"

end Emission

/-- A piece of a line that starts in its first half and is at most half as long. The half of a line
of one glyph is that glyph. -/
def IsPiece (line t : Text) : Prop :=
  ∃ start length, start < max 1 (line.length / 2) ∧
    1 ≤ length ∧ length ≤ max 1 (line.length / 2) ∧ t = (line.drop start).take length

namespace Document

/-- The content of a line that has content. -/
def IsContent (d : Document) (t : Text) : Prop := t ≠ [] ∧ ∃ line ∈ d.lines, line.content = t

/-- A piece of a line that has content. -/
def IsFragment (d : Document) (t : Text) : Prop := ∃ line, d.IsContent line ∧ IsPiece line t

end Document

/-- The keywords that replace what was found. -/
def Options.Replaces (o : Options) (k : Keyword) : Prop :=
  k = .replaceOnce ∨ (k = .replaceAll ∧ o.replaceAll = true)

/-- A turn of selecting and pasting, with what is remembered before and after it. An open selection
is copied, cut, erased or sorted; otherwise a full clipboard is pasted, an empty one waits for a
selection that opens, or nothing happens. -/
inductive Turn (m : Memory) : List Phrase → Memory → Prop
  | copy : m.selecting = true →
    Turn m [(.copy, .absent)] { m with selecting := false, clipboardFull := true }
  | cut : m.selecting = true →
    Turn m [(.cut, .absent)] { m with selecting := false, clipboardFull := true }
  | erase : m.selecting = true → Turn m [(.erase, .absent)] { m with selecting := false }
  | sort : m.selecting = true → Turn m [(.through, .bare "sort")] { m with selecting := false }
  | paste {k : Keyword} : k = .paste ∨ k = .pasteVert → m.selecting = false →
    m.clipboardFull = true → Turn m [(k, .absent)] { m with clipboardFull := false }
  | mark {k : Keyword} : k = .mark ∨ k = .markVert → m.selecting = false →
    m.clipboardFull = false → Turn m [(k, .absent)] { m with selecting := true }
  | rest : m.selecting = false → Turn m [] m

/-- A step of a category may emit these commands, and leave that to be remembered. The steps of
deletion and text are counted besides. -/
inductive Emits (s : Setting) (m : Memory) : Category → List Phrase → Memory → Prop
  | alone {c : Category} {k : Keyword} : k ∈ Emission.alone c → Emits s m c [(k, .absent)] m
  | aloneInText {c : Category} {k : Keyword} : s.options.binary = false →
    k ∈ Emission.aloneInText c → Emits s m c [(k, .absent)] m
  | range {c : Category} {k : Keyword} {first last n : Nat} : (k, first, last) ∈ Emission.ranges c →
    first ≤ n → n ≤ last → Emits s m c [(k, .number n)] m
  | rangeInText {c : Category} {k : Keyword} {first last n : Nat} : s.options.binary = false →
    (k, first, last) ∈ Emission.rangesInText c → first ≤ n → n ≤ last →
    Emits s m c [(k, .number n)] m
  /-- A document without lines has a first line all the same. -/
  | gotoLine {n : Nat} : 1 ≤ n → n ≤ max 1 s.document.lines.length →
    Emits s m .navigation [(.gotoLine, .number n)] m
  | lastBookmark : Emits s m .navigation [(.gotoBookmark, .bare "-")] m
  | adjustView {height side : String} : height ∈ ["T", "M", "B"] → side ∈ ["L", "C", "R"] →
    Emits s m .navigation
      [(.adjustView, .bare (Text.ofString height ++ Text.ofString side))] m
  | wordMotion {k : Keyword} {n : Nat} : s.options.binary = false → k ∈ Emission.wordMotions →
    n ≤ 19 → Emits s m .navigation [(k, .bare (Numeral.digits n))] m
  | brackets : s.options.binary = false →
    Emits s m .navigation [(.findRegexp, .bare Emission.anyBracket)] m
  | turn {g : List Phrase} {m' : Memory} : Turn m g m' → Emits s m .clipboard g m'
  | replaceFound {t u : Text} {k : Keyword} : s.document.IsFragment t → s.document.IsFragment u →
    s.options.Replaces k → Emits s m .editing [(.find, .quoted t), (k, .quoted u)] m
  | replaceMatch {p : String} {u : Text} {k : Keyword} : p ∈ Emission.patterns →
    s.document.IsFragment u → s.options.Replaces k →
    Emits s m .editing [(.findRegexp, .bare p), (k, .quoted u)] m
  | undoThenRedo {depth : Nat} : depth ≤ Nat.sqrt m.mutations.toNat →
    Emits s m .editing [(.undo, .number depth), (.redo, .number depth)] m
  | shift {direction unit : String} {n : Nat} : direction ∈ ["<", ">"] → n ≤ 19 →
    unit ∈ ["t", "s"] → Emits s m .editing
      [(.shift, .bare (Text.ofString direction ++ Numeral.digits n ++ Text.ofString unit))] m
  | anySyntax : Emits s m .editing [(.setSyntax, .bare "*")] m
  | syntaxOf {e : Text} : Path.HasExtension s.target e →
    Emits s m .editing [(.setSyntax, .bare e)] m
  | insertString {t : Text} : s.document.IsContent t →
    Emits s m .text [(.insertString, .quoted t)] m

/-! ### Bare texts are words -/

namespace Emission

theorem isWord_view : ∀ height ∈ ["T", "M", "B"], ∀ side ∈ ["L", "C", "R"],
    (Text.ofString height ++ Text.ofString side).IsWord := by decide

theorem isWord_pattern : ∀ p ∈ patterns, (Text.ofString p).IsWord := by decide

theorem isWord_shift {direction unit : String} (n : Nat) (hd : direction ∈ ["<", ">"])
    (hu : unit ∈ ["t", "s"]) :
    (Text.ofString direction ++ Numeral.digits n ++ Text.ofString unit).IsWord := by
  have hdirection : ∀ direction ∈ ["<", ">"], (Text.ofString direction).IsWord := by decide
  have hunit : ∀ unit ∈ ["t", "s"], (Text.ofString unit).IsWord := by decide
  exact ((hdirection _ hd).append (Numeral.isWord_digits n)).append (hunit _ hu)

end Emission

/-! ### The keywords of a category -/

namespace Emission

/-- Keywords with an argument of their own. -/
def others : Category → List Keyword
  | .navigation => [.gotoLine, .gotoBookmark, .adjustView, .findRegexp]
  | .clipboard => [.copy, .cut, .erase, .through, .paste, .pasteVert, .mark, .markVert]
  | .editing =>
    [.find, .findRegexp, .replaceOnce, .replaceAll, .undo, .redo, .shift, .setSyntax]
  | .text => [.insertString]
  | .flags | .deletion | .atomic => []

/-- All keywords of a category. -/
def keywords (c : Category) : List Keyword :=
  alone c ++ aloneInText c ++ (ranges c ++ rangesInText c).map Prod.fst ++
    (if c = .navigation then wordMotions else []) ++ others c

end Emission

theorem Options.Replaces.eq_or {o : Options} {k : Keyword} (h : o.Replaces k) :
    k = .replaceOnce ∨ k = .replaceAll := h.imp_right And.left

theorem Turn.keyword_mem {m m' : Memory} {g : List Phrase} (h : Turn m g m') :
    ∀ p ∈ g, p.1 ∈ Emission.others .clipboard := by
  cases h with
  | paste hk => rcases hk with rfl | rfl <;> decide
  | mark hk => rcases hk with rfl | rfl <;> decide
  | _ => decide

/-- **A step's keywords are its category's.** -/
theorem Emits.keyword_mem {s : Setting} {m m' : Memory} {c : Category} {g : List Phrase}
    (h : Emits s m c g m') : ∀ p ∈ g, p.1 ∈ Emission.keywords c := by
  have hone {k : Keyword} {a : Argument} (hk : k ∈ Emission.keywords c) :
      ∀ p ∈ [(k, a)], p.1 ∈ Emission.keywords c := by simpa using hk
  have htwo {k l : Keyword} {a b : Argument} (hk : k ∈ Emission.keywords c)
      (hl : l ∈ Emission.keywords c) : ∀ p ∈ [(k, a), (l, b)], p.1 ∈ Emission.keywords c := by
    simpa using ⟨hk, hl⟩
  have hmem {k : Keyword} (hk : k ∈ Emission.alone c ++ Emission.aloneInText c ∨
      k ∈ (Emission.ranges c ++ Emission.rangesInText c).map Prod.fst) :
      k ∈ Emission.keywords c :=
    List.mem_append_left _ (List.mem_append_left _ (List.mem_append.2 hk))
  cases h with
  | alone hk => exact hone (hmem (.inl (List.mem_append_left _ hk)))
  | aloneInText _ hk => exact hone (hmem (.inl (List.mem_append_right _ hk)))
  | range hk =>
    exact hone (hmem (.inr (List.mem_map_of_mem (List.mem_append_left _ hk))))
  | rangeInText _ hk =>
    exact hone (hmem (.inr (List.mem_map_of_mem (List.mem_append_right _ hk))))
  | wordMotion _ hk =>
    have hwords : ∀ k ∈ Emission.wordMotions, k ∈ Emission.keywords .navigation := by decide
    exact hone (hwords _ hk)
  | turn hturn =>
    intro p hp
    exact List.mem_append_right _ (hturn.keyword_mem p hp)
  | replaceFound _ _ hk => rcases hk.eq_or with rfl | rfl <;> exact htwo (by decide) (by decide)
  | replaceMatch _ _ hk => rcases hk.eq_or with rfl | rfl <;> exact htwo (by decide) (by decide)
  | undoThenRedo => exact htwo (by decide) (by decide)
  | _ => exact hone (by decide)

/-- Only the clipboard's steps change what is remembered of it. -/
theorem Emits.memory_eq {s : Setting} {m m' : Memory} {c : Category} {g : List Phrase}
    (h : Emits s m c g m') (hc : c ≠ .clipboard) : m' = m := by
  cases h with
  | turn => exact absurd rfl hc
  | _ => rfl

end UndoScript
