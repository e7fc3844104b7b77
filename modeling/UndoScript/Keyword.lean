/-
# The editor's commands

A script line starts with a keyword. Each keyword settles what may follow it:
nothing, an optional number, or an optional string that takes the rest of the
line. Only the part of the editor's language that scripts use is here.

Key definitions: `Keyword`, `Keyword.name`, `Keyword.kind`, `Keyword.all`,
`Keyword.ofName?`.
Key theorems: `Keyword.mem_all`, `Keyword.ofName?_eq_some_iff`.
-/
import UndoScript.Text.Glyph

namespace UndoScript

/-- What a command may take after its keyword. -/
inductive ArgumentKind
  | nothing
  | number
  | string
deriving DecidableEq

/-- The keywords of the scripts, in the order of their names. -/
inductive Keyword
  | adjustView | atomicUndo | autoComplete | autoIndent | autoMatchBracket | backspace | binary
  | capitalize | center | copy | cut | deleteChar | deleteToEndOfLine | deleteLine | deleteNextWord
  | deletePrevWord | delTabs | erase | exit | find | findRegexp | freeForm | gotoBookmark
  | gotoColumn | gotoLine | insert | insertChar | insertLine | insertString | insertTab | lineDown
  | lineUp | mark | markVert | moveToBottomOfScreen | moveToEndOfFile | moveToEndOfLine
  | moveToEndOfWord | moveIncDown | moveIncUp | moveLeft | moveRight | moveToStartOfFile
  | moveToStartOfLine | moveToTopOfScreen | nameConvert | nextPage | nextWord | openFile | pageDown
  | pageUp | paragraph | paste | pasteVert | prevPage | prevWord | redo | repeatLast | replaceAll
  | replaceOnce | rightMargin | saveAs | setBookmark | shift | shiftTabs | setSyntax | tabs
  | tabSize | through | toggleStartEndOfFile | toggleStartEndOfLine | toLower | toUpper | turbo
  | undelLine | undo | unsetBookmark | utf8 | wordWrap
deriving DecidableEq

namespace Keyword

/-- All keywords, in the order of their names. -/
def all : List Keyword :=
  [.adjustView, .atomicUndo, .autoComplete, .autoIndent, .autoMatchBracket, .backspace, .binary,
   .capitalize, .center, .copy, .cut, .deleteChar, .deleteToEndOfLine, .deleteLine, .deleteNextWord,
   .deletePrevWord, .delTabs, .erase, .exit, .find, .findRegexp, .freeForm, .gotoBookmark,
   .gotoColumn, .gotoLine, .insert, .insertChar, .insertLine, .insertString, .insertTab, .lineDown,
   .lineUp, .mark, .markVert, .moveToBottomOfScreen, .moveToEndOfFile, .moveToEndOfLine,
   .moveToEndOfWord, .moveIncDown, .moveIncUp, .moveLeft, .moveRight, .moveToStartOfFile,
   .moveToStartOfLine, .moveToTopOfScreen, .nameConvert, .nextPage, .nextWord, .openFile, .pageDown,
   .pageUp, .paragraph, .paste, .pasteVert, .prevPage, .prevWord, .redo, .repeatLast, .replaceAll,
   .replaceOnce, .rightMargin, .saveAs, .setBookmark, .shift, .shiftTabs, .setSyntax, .tabs,
   .tabSize, .through, .toggleStartEndOfFile, .toggleStartEndOfLine, .toLower, .toUpper, .turbo,
   .undelLine, .undo, .unsetBookmark, .utf8, .wordWrap]

/-- The keyword as scripts write it. -/
def name : Keyword → String
  | .adjustView => "ADJUSTVIEW"
  | .atomicUndo => "ATOMICUNDO"
  | .autoComplete => "AUTOCOMPLETE"
  | .autoIndent => "AUTOINDENT"
  | .autoMatchBracket => "AUTOMATCHBRACKET"
  | .backspace => "BACKSPACE"
  | .binary => "BINARY"
  | .capitalize => "CAPITALIZE"
  | .center => "CENTER"
  | .copy => "COPY"
  | .cut => "CUT"
  | .deleteChar => "DELETECHAR"
  | .deleteToEndOfLine => "DELETEEOL"
  | .deleteLine => "DELETELINE"
  | .deleteNextWord => "DELETENEXTWORD"
  | .deletePrevWord => "DELETEPREVWORD"
  | .delTabs => "DELTABS"
  | .erase => "ERASE"
  | .exit => "EXIT"
  | .find => "FIND"
  | .findRegexp => "FINDREGEXP"
  | .freeForm => "FREEFORM"
  | .gotoBookmark => "GOTOBOOKMARK"
  | .gotoColumn => "GOTOCOLUMN"
  | .gotoLine => "GOTOLINE"
  | .insert => "INSERT"
  | .insertChar => "INSERTCHAR"
  | .insertLine => "INSERTLINE"
  | .insertString => "INSERTSTRING"
  | .insertTab => "INSERTTAB"
  | .lineDown => "LINEDOWN"
  | .lineUp => "LINEUP"
  | .mark => "MARK"
  | .markVert => "MARKVERT"
  | .moveToBottomOfScreen => "MOVEBOS"
  | .moveToEndOfFile => "MOVEEOF"
  | .moveToEndOfLine => "MOVEEOL"
  | .moveToEndOfWord => "MOVEEOW"
  | .moveIncDown => "MOVEINCDOWN"
  | .moveIncUp => "MOVEINCUP"
  | .moveLeft => "MOVELEFT"
  | .moveRight => "MOVERIGHT"
  | .moveToStartOfFile => "MOVESOF"
  | .moveToStartOfLine => "MOVESOL"
  | .moveToTopOfScreen => "MOVETOS"
  | .nameConvert => "NAMECONVERT"
  | .nextPage => "NEXTPAGE"
  | .nextWord => "NEXTWORD"
  | .openFile => "OPEN"
  | .pageDown => "PAGEDOWN"
  | .pageUp => "PAGEUP"
  | .paragraph => "PARAGRAPH"
  | .paste => "PASTE"
  | .pasteVert => "PASTEVERT"
  | .prevPage => "PREVPAGE"
  | .prevWord => "PREVWORD"
  | .redo => "REDO"
  | .repeatLast => "REPEATLAST"
  | .replaceAll => "REPLACEALL"
  | .replaceOnce => "REPLACEONCE"
  | .rightMargin => "RIGHTMARGIN"
  | .saveAs => "SAVEAS"
  | .setBookmark => "SETBOOKMARK"
  | .shift => "SHIFT"
  | .shiftTabs => "SHIFTTABS"
  | .setSyntax => "SYNTAX"
  | .tabs => "TABS"
  | .tabSize => "TABSIZE"
  | .through => "THROUGH"
  | .toggleStartEndOfFile => "TOGGLESEOF"
  | .toggleStartEndOfLine => "TOGGLESEOL"
  | .toLower => "TOLOWER"
  | .toUpper => "TOUPPER"
  | .turbo => "TURBO"
  | .undelLine => "UNDELLINE"
  | .undo => "UNDO"
  | .unsetBookmark => "UNSETBOOKMARK"
  | .utf8 => "UTF8"
  | .wordWrap => "WORDWRAP"

/-- What the keyword may be followed by. -/
def kind : Keyword → ArgumentKind
  | .deleteToEndOfLine | .exit | .moveToBottomOfScreen | .moveToEndOfFile | .moveToEndOfLine
  | .moveIncDown | .moveIncUp | .moveToStartOfFile | .moveToStartOfLine | .moveToTopOfScreen
  | .toggleStartEndOfFile | .toggleStartEndOfLine => .nothing
  | .adjustView | .atomicUndo | .autoComplete | .find | .findRegexp | .gotoBookmark | .insertString
  | .moveToEndOfWord | .nextWord | .openFile | .prevWord | .repeatLast | .replaceAll | .replaceOnce
  | .saveAs | .setBookmark | .shift | .setSyntax | .through | .unsetBookmark => .string
  | _ => .number

/-- The keyword with exactly this name. -/
def ofName? (name : Text) : Option Keyword := all.find? fun k => Text.ofString k.name = name

/-! ### Every keyword has its own name -/

theorem mem_all (k : Keyword) : k ∈ all := by cases k <;> decide

/-- A keyword is found by its name. -/
theorem ofName?_name (k : Keyword) : ofName? k.name = some k := by
  have found : ∀ k ∈ all, ofName? (Text.ofString k.name) = some k := by decide +kernel
  exact found k (mem_all k)

/-- Only its name finds a keyword. -/
theorem ofName?_eq_some_iff {name : Text} {k : Keyword} :
    ofName? name = some k ↔ name = Text.ofString k.name := by
  constructor
  · intro h
    have found := List.find?_some h
    exact (of_decide_eq_true found).symm
  · rintro rfl
    exact ofName?_name k

end Keyword
end UndoScript
