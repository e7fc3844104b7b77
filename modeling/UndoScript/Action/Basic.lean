/-
# Actions

An action is what one step does: it emits some commands, with arguments drawn
at random, and may change what is remembered. The actions of a category are
listed in a table; navigation and flags have some that make sense for text
only, and these come last.

Key definitions: `Action`, `Action.table`.
-/
import UndoScript.Category
import UndoScript.Options

namespace UndoScript

/-- What one step does. -/
inductive Action
  /-- The keyword alone. -/
  | plain (k : Keyword)
  /-- The keyword with any number of `low`, `low + 1`, …, `count` of them. -/
  | counted (k : Keyword) (low count : Nat)
  /-- The keyword with a fixed bare text. -/
  | token (k : Keyword) (t : String)
  /-- The keyword with a number of words below 20, as a bare text. -/
  | wordMotion (k : Keyword)
  /-- GOTOLINE to any line of the document. -/
  | gotoLine
  /-- ADJUSTVIEW with one of three heights and one of three sides. -/
  | adjustView
  /-- The next turn of selecting, copying or dropping, and pasting. -/
  | clipboard
  /-- FIND of a fragment, then a replacement. -/
  | replaceFound
  /-- FINDREGEXP of a ready pattern, then a replacement. -/
  | replaceMatch
  /-- UNDO, then REDO of the same depth. -/
  | undoThenRedo
  /-- SHIFT by up to 19 tabs or spaces, in either direction. -/
  | shift
  /-- SYNTAX by the target's extension, or any. -/
  | setSyntax
  /-- INSERTSTRING of a whole line. -/
  | insertString
deriving DecidableEq

namespace Action

/-- The pattern that starts a search for matching brackets. -/
def bracketPattern : String := "\\(|\\)|\\[|\\]|\x7b|\x7d|<|>"

/-- Movements, which never change the document. -/
def navigation : List Action :=
  [.counted .gotoColumn 1 80, .gotoLine, .counted .lineUp 1 100, .counted .lineDown 1 100,
   .plain .moveToBottomOfScreen, .plain .moveToEndOfFile, .plain .moveToEndOfLine,
   .plain .moveIncDown, .plain .moveIncUp, .counted .moveLeft 0 80, .counted .moveRight 0 80,
   .plain .moveToStartOfFile, .plain .moveToStartOfLine, .plain .moveToTopOfScreen,
   .plain .nextPage, .plain .pageDown, .plain .pageUp, .plain .prevPage, .plain .setBookmark,
   .plain .gotoBookmark, .token .gotoBookmark "-", .plain .unsetBookmark, .adjustView,
   .plain .toggleStartEndOfLine, .plain .toggleStartEndOfFile]

/-- Movements by words and brackets. -/
def textNavigation : List Action :=
  [.plain .moveToEndOfWord, .wordMotion .nextWord, .wordMotion .prevWord,
   .token .findRegexp bracketPattern]

/-- Settings, which never change the document. -/
def flags : List Action :=
  [.plain .freeForm, .plain .insert, .plain .tabs, .plain .shiftTabs, .counted .tabSize 1 20,
   .plain .delTabs]

/-- Settings for text. -/
def textFlags : List Action :=
  [.plain .autoIndent, .counted .rightMargin 1 80, .plain .wordWrap]

/-- Deletions. -/
def deletion : List Action :=
  [.counted .backspace 0 20, .counted .deleteChar 0 20, .plain .deleteToEndOfLine,
   .counted .deleteLine 0 10, .counted .deleteNextWord 0 3, .counted .deletePrevWord 0 3]

/-- Other changes. -/
def editing : List Action :=
  [.counted .capitalize 0 10, .counted .center 0 10, .replaceFound, .replaceMatch,
   .counted .paragraph 0 20, .undoThenRedo, .counted .toLower 0 10, .counted .toUpper 0 10,
   .counted .undelLine 0 10, .plain .autoComplete, .shift, .plain .repeatLast, .setSyntax,
   .plain .nameConvert]

/-- Insertions. -/
def insertion : List Action :=
  [.counted .insertChar 1 126, .plain .insertLine, .insertString, .plain .insertTab]

/-- The actions of a category. -/
def table (o : Options) : Category → List Action
  | .navigation => navigation ++ if o.binary then [] else textNavigation
  | .flags => flags ++ if o.binary then [] else textFlags
  | .deletion => deletion
  | .clipboard => [.clipboard]
  | .editing => editing
  | .atomic => [.plain .atomicUndo]
  | .text => insertion

end Action
end UndoScript
