/-
# Command line arguments

An argument that starts with a dash is an option: by one of its names, by the
start of a long name that fits one option only, or as a letter with its value
or more letters after it. Each letter without a value must be followed by the
letter of another option. A value may also be the next argument, if that is no
option; two dashes as a text in the same argument stand for none. What looks
like a negative number, or has a space in it, is no option. After two dashes
nothing is.

All else is positional, and positional arguments are taken in runs: a run
fills as many slots as it can, and an optional slot that a run has reached is
settled. What is left over is not recognized; that is told last of all.

Key definitions: `Grammar`, `Parsed`, `UsageError`, `Arguments.classify`,
`Arguments.parse`.
-/
import UndoScript.CommandLine.Integer
import UndoScript.Text.Quoted

namespace UndoScript

/-- What an option takes. -/
inductive OptionKind
  | help
  | flag
  | text
  | integer
deriving DecidableEq

/-- An option: its names, the short one first, and what it takes. -/
structure OptionSpec where
  names : List String
  kind : OptionKind
deriving DecidableEq

/-- The options of a program and its slots for positional arguments. -/
structure Grammar where
  options : List OptionSpec
  slots : List String
  /-- Must all slots be filled? -/
  required : Bool

/-- What an option was given. -/
inductive OptionValue
  | given
  | text (t : Text)
  | integer (n : Int)
deriving DecidableEq

/-- What a command line asks for. -/
structure Parsed where
  /-- The options with their values, the last one first. -/
  options : List (OptionSpec × OptionValue)
  /-- The slots settled so far, in order. -/
  slots : List (Option Text)
  /-- The arguments that nothing took, in order. -/
  extras : List Text

/-- What is wrong with a command line. -/
inductive UsageError
  | ambiguous (argument : Text) (names : List String)
  | ignoredValue (o : OptionSpec) (value : Text)
  | expectedValue (o : OptionSpec)
  | invalidInteger (o : OptionSpec) (value : Text)
  | missing (slots : List String)
  | unrecognized (arguments : List Text)

/-- Why a program does not go on after its command line. -/
inductive Stop
  | help
  | error (e : UsageError)

namespace UsageError

/-- What is wrong with an option, in words. -/
def about (o : OptionSpec) (what : Text) : Text :=
  Text.concat ["argument ", Text.joined "/" (o.names.map Text.ofString), ": ", what]

/-- What is wrong, in words. -/
def message : UsageError → Text
  | .ambiguous argument names =>
    Text.concat ["ambiguous option: ", argument, " could match ",
      Text.joined ", " (names.map Text.ofString)]
  | .ignoredValue o value => about o (Text.concat ["ignored explicit argument ", value.quoted])
  | .expectedValue o => about o "expected one argument"
  | .invalidInteger o value => about o (Text.concat ["invalid int value: ", value.quoted])
  | .missing slots =>
    Text.concat ["the following arguments are required: ",
      Text.joined ", " (slots.map Text.ofString)]
  | .unrecognized arguments =>
    Text.concat ["unrecognized arguments: ", Text.joined " " arguments]

end UsageError

namespace Arguments

/-! ### Which arguments are options -/

/-- How an option stands in its argument. -/
inductive Use
  /-- By its name alone. -/
  | alone
  /-- By a long name and, after an equals sign, a value. -/
  | joined (value : Text)
  /-- By its letter, with a value or more letters after it and after an equals sign, if there is
  one. -/
  | letters (after : Text)

/-- What an argument is. -/
inductive Item
  /-- An option. -/
  | option (o : OptionSpec) (u : Use)
  /-- Like an option, but none. -/
  | unknown (t : Text)
  /-- Two dashes, the first time. -/
  | dashes
  /-- A word. -/
  | word (t : Text)

/-- Does the item end a run of positional arguments? -/
def Item.isOption : Item → Bool
  | .option .. | .unknown _ => true
  | .dashes | .word _ => false

/-- The option with exactly this name. -/
def named? (g : Grammar) (name : Text) : Option OptionSpec :=
  g.options.find? fun o => o.names.any fun n => Text.ofString n == name

/-- The text before the first equals sign, and the text after it if there is one. -/
def splitAtEquals (t : Text) : Text × Option Text :=
  match t.dropWhile (· != .char '=') with
  | [] => (t, none)
  | _ :: value => (t.takeWhile (· != .char '='), some value)

/-- The long names that a text is the start of, with their options. -/
def abbreviated (g : Grammar) (start : Text) : List (OptionSpec × String) :=
  g.options.flatMap fun o =>
    (o.names.filter fun n => start.isPrefixOf (Text.ofString n)).map fun n => (o, n)

/-- Does the text look like a negative number? -/
def isNegativeNumber (t : Text) : Bool :=
  match Text.withoutEnding [.newline] t with
  | .char '-' :: rest =>
    let isDigit (g : Glyph) : Bool := (Digit.value? g).isSome
    let afterDigits := rest.dropWhile isDigit
    if afterDigits.isEmpty then !rest.isEmpty
    else match afterDigits with
      | .char '.' :: fraction => !fraction.isEmpty && fraction.all isDigit
      | _ => false
  | _ => false

/-- Does the text start with two dashes? -/
def isLong (t : Text) : Bool := (Text.ofString "--").isPrefixOf t

/-- What an argument with a dash is that is no option's name. -/
def classifyOther (t : Text) : Item :=
  if isNegativeNumber t || t.contains (.char ' ') then .word t else .unknown t

/-- What an argument is that stands before any two dashes, or why that cannot be told. -/
def classify (g : Grammar) (t : Text) : Except UsageError Item :=
  if t.head? != some (.char '-') || t.length == 1 then .ok (.word t)
  else match named? g t with
    | some o => .ok (.option o .alone)
    | none =>
      let (start, value) := splitAtEquals t
      match value, named? g start with
      | some value, some o => .ok (.option o (if isLong start then .joined value else .letters value))
      | value, _ =>
        if isLong t then
          match abbreviated g start with
          | [] => .ok (classifyOther t)
          | [(o, _)] => .ok (.option o (value.elim .alone .joined))
          | several => .error (.ambiguous t (several.map Prod.snd))
        else match named? g (t.take 2) with
          | some o => .ok (.option o (.letters (t.drop 2)))
          | none => .ok (classifyOther t)

/-- What the arguments are. After two dashes all are words. -/
def classifyAll (g : Grammar) : List Text → Except UsageError (List Item)
  | [] => .ok []
  | t :: rest =>
    if t = Text.ofString "--" then .ok (.dashes :: rest.map .word)
    else do
      let item ← classify g t
      let items ← classifyAll g rest
      return item :: items

/-! ### Positional arguments -/

/-- A positional argument as it stood on the command line. -/
def Item.spelling : Item → Text
  | .option .. => []
  | .unknown t => t
  | .dashes => "--"
  | .word t => t

/-- The word for one slot, if there is one, and the items after it. The first two dashes before or
after a word go with it; a later two dashes are a word, but one that leaves its slot empty. -/
def fillSlot : List Item → Option (Option Text) × List Item
  | .word t :: .dashes :: rest => (some (some t), rest)
  | .word t :: rest => (some (if t = Text.ofString "--" then none else some t), rest)
  | .dashes :: .word t :: rest => (some (some t), rest)
  | .dashes :: rest => (none, rest)
  | items => (none, items)

/-- The slots that the items ahead settle, up to the first option, and the items after them. A
required slot is settled only by a word. -/
def fillSlots (required : Bool) : Nat → List Item → List (Option Text) × List Item
  | 0, items => ([], items)
  | slots + 1, items =>
    match fillSlot items with
    | (none, rest) =>
      if required then ([], items)
      else
        let (filled, rest) := fillSlots required slots rest
        (none :: filled, rest)
    | (some word, rest) =>
      let (filled, rest) := fillSlots required slots rest
      (word :: filled, rest)

/-- The parse with the slots settled that the items ahead settle, and the items after them. -/
def takeSlots (g : Grammar) (p : Parsed) (items : List Item) : Parsed × List Item :=
  let (filled, rest) := fillSlots g.required (g.slots.length - p.slots.length) items
  ({ p with slots := p.slots ++ filled }, rest)

/-! ### Options -/

/-- Gives an option a value, or none. -/
def give (p : Parsed) (o : OptionSpec) (value : Option Text) : Except Stop Parsed :=
  match o.kind, value with
  | .help, _ => .error .help
  | .text, some t => .ok { p with options := (o, .text t) :: p.options }
  | .integer, some t =>
    match readInteger? t with
    | some n => .ok { p with options := (o, .integer n) :: p.options }
    | none => .error (.error (.invalidInteger o t))
  | _, _ => .ok { p with options := (o, .given) :: p.options }

/-- Does the option take a value? -/
def takesValue (o : OptionSpec) : Bool := o.kind = .text || o.kind = .integer

/-- What one argument stands for: options without values, then one that has its value in the
argument or may take the next one. -/
structure Cluster where
  flags : List OptionSpec
  last : OptionSpec
  value : Option Text

/-- An option with a value that it cannot do without. -/
def attached (o : OptionSpec) (value : Text) : Except UsageError Cluster :=
  if takesValue o then .ok ⟨[], o, some value⟩ else .error (.ignoredValue o value)

/-- A letter's option with what follows the letter: its value, or more letters. -/
def cluster (g : Grammar) (o : OptionSpec) : Text → Except UsageError Cluster
  | [] => attached o []
  | letter :: rest =>
    match if takesValue o then none else named? g [.char '-', letter] with
    | none => attached o (letter :: rest)
    | some next => do
      let found ← match rest with
        | [] => .ok ⟨[], next, none⟩
        | rest => cluster g next rest
      return { found with flags := o :: found.flags }

/-- What an option's argument stands for. -/
def clusterOf (g : Grammar) (o : OptionSpec) : Use → Except UsageError Cluster
  | .alone => .ok ⟨[], o, none⟩
  | .joined value => attached o value
  | .letters after => cluster g o after

/-- The value of the last option of a cluster, which may be the next argument, and the items after
it. Two dashes in the option's own argument are no text, but they are a value. -/
def valueOf (o : OptionSpec) (value : Option Text) (items : List Item) :
    Except UsageError (Option Text × List Item) :=
  match value, items with
  | some value, items =>
    .ok (if o.kind = .text ∧ value = Text.ofString "--" then none else some value, items)
  | none, items =>
    if takesValue o then
      match items with
      | .word t :: rest => .ok (some t, rest)
      | _ => .error (.expectedValue o)
    else .ok (none, items)

/-- Takes an option with its value, after the options before it in its argument. -/
def takeOption (g : Grammar) (p : Parsed) (o : OptionSpec) (u : Use) (items : List Item) :
    Except Stop (Parsed × List Item) := do
  let found ← (clusterOf g o u).mapError Stop.error
  let (value, rest) ← (valueOf found.last found.value items).mapError Stop.error
  let p ← found.flags.foldlM (fun p o => give p o none) p
  return (← give p found.last value, rest)

/-! ### The whole command line -/

/-- Goes on through the items; each round takes one item at least, so `rounds` of them suffice. -/
def walk (g : Grammar) : Nat → Parsed → List Item → Except Stop Parsed
  | 0, p, _ => .ok p
  | rounds + 1, p, items =>
    if items.any Item.isOption then
      match items with
      | [] => .ok p
      | .option o u :: rest => do
        let (p, rest) ← takeOption g p o u rest
        walk g rounds p rest
      | .unknown t :: rest => walk g rounds { p with extras := p.extras ++ [t] } rest
      | item :: rest =>
        let (p, after) := takeSlots g p (item :: rest)
        if after.length < (item :: rest).length then walk g rounds p after
        else walk g rounds { p with extras := p.extras ++ [item.spelling] } rest
    else
      let (p, after) := takeSlots g p items
      .ok { p with extras := p.extras ++ after.map Item.spelling }

/-- What the arguments ask for, or why the program does not go on. -/
def parse (g : Grammar) (arguments : List Text) : Except Stop Parsed := do
  let items ← (classifyAll g arguments).mapError Stop.error
  let p ← walk g (items.length + 1) ⟨[], [], []⟩ items
  let missing := if g.required then g.slots.drop p.slots.length else []
  if !missing.isEmpty then throw (.error (.missing missing))
  if !p.extras.isEmpty then throw (.error (.unrecognized p.extras))
  return p

end Arguments

namespace Parsed

/-- The value that the option with this name was given last. -/
def value? (p : Parsed) (name : String) : Option OptionValue :=
  (p.options.find? fun (o, _) => o.names.contains name).map Prod.snd

/-- Was the option given? -/
def has (p : Parsed) (name : String) : Bool := (p.value? name).isSome

/-- The text that the option was given last. -/
def text? (p : Parsed) (name : String) : Option Text :=
  match p.value? name with
  | some (.text t) => some t
  | _ => none

/-- The number that the option was given last. -/
def integer? (p : Parsed) (name : String) : Option Int :=
  match p.value? name with
  | some (.integer n) => some n
  | _ => none

/-- The word in a slot. -/
def slot? (p : Parsed) (i : Nat) : Option Text := (p.slots[i]?).join

end Parsed
end UndoScript
