/-
# Sessions

A session keeps, for one setting, what the steps remember, how many of each
category have been taken, and the source of chance. What fails half-way leaves
the session as it was when it failed: the source stays where it got to, while
a failing step changes nothing else. A script that is complete is summed up in
a note, which has no place for numbers that are too large to be written.

Key definitions: `Session`, `SessionM`, `Session.sample`, `Session.act`,
`Session.step`, `Session.opening`, `Session.closing`, `Session.reset`,
`Session.start`, `Session.summary`.
-/
import UndoScript.Session.Parts

namespace UndoScript

/-- The state of script writing. -/
structure Session (σ : Type) where
  setting : Setting
  memory : Memory
  tally : Tally
  source : σ

/-- What changes a session, and may fail with the session changed. -/
abbrev SessionM (σ : Type) := ExceptT Fault (StateM (Session σ))

namespace Session

variable {σ : Type} {α : Type}

/-- A session before its first step. -/
def ofSetting (setting : Setting) (source : σ) : Session σ := ⟨setting, .fresh, .zero, source⟩

/-- Everything forgotten but the setting and where the source stands. -/
def reset : SessionM σ Unit :=
  modify fun s => { s with memory := .fresh, tally := .zero }

/-- The numbers that sum up a script of `n` steps: the steps, the changes, and the steps of each
category. -/
def figures (n : Nat) (s : Session σ) : List Int :=
  n :: s.memory.mutations :: Category.all.map fun c => s.tally.count c

/-- Can a script of `n` steps be summed up? -/
def HasSummary (n : Nat) (s : Session σ) : Prop := ∀ k ∈ s.figures n, Numeral.Writable k

instance (n : Nat) (s : Session σ) : Decidable (s.HasSummary n) :=
  inferInstanceAs (Decidable (∀ k ∈ s.figures n, Numeral.Writable k))

/-- The summary in words. -/
def summaryText (n : Nat) (s : Session σ) : Text :=
  let counts := Category.all.map fun c =>
    Text.concat [c.name, " ", Numeral.digits (s.tally.count c)]
  Text.concat ["generated ", Numeral.digits n, " steps, ", Numeral.written s.memory.mutations,
    " mutations: ", Text.joined ", " counts]

/-- The note that a script of `n` steps is complete, if it can be written. -/
def summary (n : Nat) (s : Session σ) : Except Fault Text :=
  if s.HasSummary n then .ok (s.summaryText n) else .error .numberTooLarge

variable [Source σ]

/-- Draws from the session's source, which moves on even if the sampler fails. -/
def sample (sampler : Setting → Memory → Sampler α) : SessionM σ α := do
  let s ← get
  let (result, source) := (sampler s.setting s.memory).run s.source
  set { s with source }
  liftM result

/-- One action on its own: it is not counted as a step. -/
def act (action : Action) : SessionM σ (List Command) := do
  let (commands, memory) ← sample fun setting memory => action.perform setting memory
  modify fun s => { s with memory }
  return commands

/-- One step, which is counted. -/
def step : SessionM σ (List Command) := do
  let taken ← sample Setting.step
  modify fun s => { s with memory := taken.memory, tally := s.tally.bump taken.category }
  return taken.commands

/-- The commands that open the document. -/
def opening : SessionM σ (List Command) := sample fun setting _ => setting.opening

/-- A fresh start, and the commands that open the document. -/
def start : SessionM σ (List Command) := do
  reset
  opening

/-- The commands that close the script. -/
def closing : SessionM σ (List Command) := do liftM (← get).setting.closing

end Session
end UndoScript
