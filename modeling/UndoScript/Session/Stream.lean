/-
# Scripts command by command

A stream gives out a script one command at a time and does no work before it
is needed: it starts afresh and opens the document when the first command is
taken, takes a step when a command of that step is, and closes the script when
the steps are used up. After the last command the session is summed up, as it
is then. Streams of one session share it. A stream that failed has ended.

Key definitions: `Stream`, `Stream.next`, `Stream.take`, `Stream.writeAll`,
`Session.generate`.
Key theorems: `Stream.less_next`.
-/
import UndoScript.Session.Basic

namespace UndoScript

/-- How far a script has been given out. -/
inductive Stream
  /-- Nothing taken yet of a script with this many steps. -/
  | ready (steps : Nat)
  /-- Of a script with this many steps, commands made but not taken, and steps to go. -/
  | running (steps : Nat) (pending : List Command) (left : Nat)
  /-- Of a script with this many steps, closing commands not taken. -/
  | closing (steps : Nat) (pending : List Command)
  /-- Nothing more to take. -/
  | ended
deriving DecidableEq

namespace Stream

variable {σ : Type} {steps : Nat}

/-- A command if there is one, or a failure, and what remains of the stream. -/
abbrev Taken := Except Fault (Option Command) × Stream

/-- Takes a closing command; after the last the script is summed up. -/
def takeClosing (steps : Nat) (s : Session σ) : List Command → Taken
  | [] => ((s.summary steps).map fun _ => none, .ended)
  | c :: cs => (.ok (some c), .closing steps cs)

/-- Goes on with the commands that a part of the script came to; without them the stream ends. -/
def goOn (part : Except Fault (List Command) × Session σ)
    (taken : List Command → Session σ → Taken × Session σ) : Taken × Session σ :=
  match part with
  | (.ok cs, s) => taken cs s
  | (.error f, s) => ((.error f, .ended), s)

variable [Source σ]

/-- Takes a command of the steps, or the first closing one; steps without commands are passed. -/
def takeRunning (steps : Nat) : List Command → Nat → Session σ → Taken × Session σ
  | c :: cs, left, s => ((.ok (some c), .running steps cs left), s)
  | [], 0, s => goOn (Session.closing.run s) fun cs s => (takeClosing steps s cs, s)
  | [], left + 1, s => goOn (Session.step.run s) fun cs s => takeRunning steps cs left s

/-- Takes the next command. -/
def next : Stream → Session σ → Taken × Session σ
  | .ready steps, s => goOn (Session.start.run s) fun cs s => takeRunning steps cs steps s
  | .running steps pending left, s => takeRunning steps pending left s
  | .closing steps pending, s => (takeClosing steps s pending, s)
  | .ended, s => ((.ok none, .ended), s)

/-- Takes up to `k` commands, fewer only if the stream ends. Those taken before a failure are
lost. -/
def take : Nat → Stream → Session σ → (Except Fault (List Command) × Stream) × Session σ
  | 0, stream, s => ((.ok [], stream), s)
  | k + 1, stream, s =>
    match stream.next s with
    | ((.error f, stream), s) => ((.error f, stream), s)
    | ((.ok none, stream), s) => ((.ok [], stream), s)
    | ((.ok (some c), stream), s) =>
      let ((rest, stream), s) := take k stream s
      ((rest.map (c :: ·), stream), s)

/-! ### Taking everything -/

/-- What is left of a stream: the steps to go, then the commands made. -/
def size : Stream → Nat × Nat
  | .ready steps => (steps + 2, 0)
  | .running _ pending left => (left + 1, pending.length)
  | .closing _ pending => (0, pending.length)
  | .ended => (0, 0)

/-- One stream has less left than another. -/
def Less (a b : Nat × Nat) : Prop := a.1 < b.1 ∨ (a.1 = b.1 ∧ a.2 < b.2)

omit [Source σ] in
theorem less_takeClosing {s : Session σ} {cs : List Command} {c : Command} {after : Stream}
    (h : takeClosing steps s cs = (.ok (some c), after)) : Less after.size (0, cs.length) := by
  cases cs with
  | nil =>
    rw [takeClosing] at h
    cases hsum : s.summary steps <;> rw [hsum] at h <;> cases h
  | cons d cs =>
    simp only [takeClosing, Prod.mk.injEq, Except.ok.injEq, Option.some.injEq] at h
    obtain ⟨-, rfl⟩ := h
    exact Or.inr ⟨rfl, Nat.lt_succ_self _⟩

omit [Source σ] in
/-- What is taken after a part of the script is taken from what that part came to. -/
theorem exists_of_goOn {part : Except Fault (List Command) × Session σ}
    {taken : List Command → Session σ → Taken × Session σ} {c : Command} {after : Stream}
    {s' : Session σ} (h : goOn part taken = ((.ok (some c), after), s')) :
    ∃ cs s, part = (.ok cs, s) ∧ taken cs s = ((.ok (some c), after), s') := by
  obtain ⟨_ | cs, s⟩ := part
  · simp [goOn] at h
  · exact ⟨cs, s, rfl, h⟩

theorem less_takeRunning {cs : List Command} {left : Nat} {s s' : Session σ} {c : Command}
    {after : Stream} (h : takeRunning steps cs left s = ((.ok (some c), after), s')) :
    Less after.size (left + 1, cs.length) := by
  induction left generalizing cs s with
  | zero =>
    cases cs with
    | cons d cs =>
      simp only [takeRunning, Prod.mk.injEq, Except.ok.injEq, Option.some.injEq] at h
      obtain ⟨⟨-, rfl⟩, -⟩ := h
      exact Or.inr ⟨rfl, Nat.lt_succ_self _⟩
    | nil =>
      obtain ⟨cs, s1, -, htaken⟩ := exists_of_goOn h
      simp only [Prod.mk.injEq] at htaken
      rcases less_takeClosing htaken.1 with hlt | ⟨heq, -⟩
      · exact absurd hlt (Nat.not_lt_zero _)
      · exact Or.inl (by rw [heq]; exact Nat.zero_lt_one)
  | succ left ih =>
    cases cs with
    | cons d cs =>
      simp only [takeRunning, Prod.mk.injEq, Except.ok.injEq, Option.some.injEq] at h
      obtain ⟨⟨-, rfl⟩, -⟩ := h
      exact Or.inr ⟨rfl, Nat.lt_succ_self _⟩
    | nil =>
      obtain ⟨cs, s1, -, htaken⟩ := exists_of_goOn h
      rcases ih htaken with hlt | ⟨heq, -⟩
      · exact Or.inl (Nat.lt_succ_of_lt hlt)
      · exact Or.inl (by rw [heq]; exact Nat.lt_succ_self _)

/-- Taking a command leaves less of the stream. -/
theorem less_next {stream after : Stream} {s s' : Session σ} {c : Command}
    (h : stream.next s = ((.ok (some c), after), s')) : Less after.size stream.size := by
  cases stream with
  | ready steps =>
    obtain ⟨cs, s1, -, htaken⟩ := exists_of_goOn h
    rcases less_takeRunning htaken with hlt | ⟨heq, -⟩
    · exact Or.inl (Nat.lt_succ_of_lt hlt)
    · exact Or.inl (by rw [heq]; exact Nat.lt_succ_self _)
  | running steps pending left => exact less_takeRunning h
  | closing steps pending =>
    simp only [next, Prod.mk.injEq] at h
    exact less_takeClosing h.1
  | ended => simp [next] at h

/-- The lines of all commands of a stream, after those already written (in reverse), and the failure
that cut them short. A command that cannot be written ends the writing. -/
def writeOnto (written : List Text) (stream : Stream) (s : Session σ) :
    (List Text × Option Fault) × Session σ :=
  match _taken : stream.next s with
  | ((.error f, _), s) => ((written.reverse, some f), s)
  | ((.ok none, _), s) => ((written.reverse, none), s)
  | ((.ok (some c), after), s') =>
    match c.render with
    | .ok line => writeOnto (line :: written) after s'
    | .error f => ((written.reverse, some f), s')
termination_by stream.size
decreasing_by
  rcases less_next _taken with hlt | ⟨heq, hlt⟩
  · exact Prod.lex_def.2 (Or.inl hlt)
  · exact Prod.lex_def.2 (Or.inr ⟨heq, hlt⟩)

/-- The lines of all commands of a stream, and the failure that cut them short. -/
def writeAll (stream : Stream) (s : Session σ) : (List Text × Option Fault) × Session σ :=
  writeOnto [] stream s

end Stream

/-- The stream of a script with as many steps as a value asks for, once the value is judged. -/
def Session.generate {σ : Type} (value : Literal) : SessionM σ Stream := do
  let n ← liftM ((← get).setting.stepCount value)
  return .ready n

end UndoScript
