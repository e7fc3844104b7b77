/-
# What can happen to a session

What a session remembers changes in two ways: everything is forgotten, or a
step or an action on its own is taken, which makes some commands. Between
these events chance may move on, and the last thing may be a failure. However
a session is used, by one stream or by several in turn, what happens to it is
such a course of events, so what every event preserves holds of every session.

Key definitions: `Event`, `Event.since`, `Session.Takes`, `Session.Course`.
Key theorems: `Session.course_script`, `Stream.course_take`.
-/
import UndoScript.Session.Stream
import UndoScript.Proofs.Session.Generation
import UndoScript.Proofs.Session.Script

namespace UndoScript

/-! ### Events -/

/-- What happens to what a session remembers. -/
inductive Event
  /-- Everything is forgotten. -/
  | fresh
  /-- A step, or an action on its own, has made these commands. -/
  | made (commands : List Command)

namespace Event

/-- What a step or an action came to, as events. -/
def ofTaken : Except Fault (List Command) → List Event
  | .ok cs => [.made cs]
  | .error _ => []

/-- The commands made since the last fresh start, after one more event. -/
def log (made : List Command) : Event → List Command
  | .fresh => []
  | .made cs => made ++ cs

/-- The commands made since the last fresh start. -/
def since (events : List Event) : List Command := events.foldl log []

end Event

/-- Is the rule one of the memory's own? -/
def BrokenRule.concernsMemory : BrokenRule → Bool
  | .negativeMutations _ | .selectionOpen | .clipboardFull | .noSelection | .nothingToPaste => true
  | _ => false

/-- Is the failure a complaint of the memory? -/
def Fault.concernsMemory : Fault → Bool
  | .broken rule => rule.concernsMemory
  | .negativeSquareRoot => true
  | _ => false

variable {σ : Type} [Source σ]

namespace Session

/-- A step, or an action of some table on its own, with what it came to. -/
inductive Takes (s : Session σ) : Except Fault (List Command) → Session σ → Prop
  | step : Takes s (step.run s).1 (step.run s).2
  | act {c : Category} {a : Action} : a ∈ Action.table s.setting.options c →
    Takes s ((act a).run s).1 ((act a).run s).2

/-- Events one after the other, from one session to another; the last thing may be a failure. -/
inductive Course : Session σ → List Event → Option Fault → Session σ → Prop
  | rest (s : Session σ) : Course s [] none s
  | stop {s : Session σ} {f : Fault} : f.concernsMemory = false → Course s [] (some f) s
  | draw {s s' : Session σ} {source : σ} {es : List Event} {r : Option Fault} :
    Course { s with source } es r s' → Course s es r s'
  | fresh {s s' : Session σ} {es : List Event} {r : Option Fault} :
    Course ⟨s.setting, .fresh, .zero, s.source⟩ es r s' → Course s (.fresh :: es) r s'
  | take {s s₁ s' : Session σ} {cs : List Command} {es : List Event} {r : Option Fault} :
    Takes s (.ok cs) s₁ → Course s₁ es r s' → Course s (.made cs :: es) r s'
  | fail {s s' : Session σ} {f : Fault} : Takes s (.error f) s' → Course s [] (some f) s'

variable {s s₁ s' : Session σ} {cs : List Command} {es es' : List Event} {r : Option Fault}
  {f : Fault} {value : Literal}

theorem Course.append (h : Course s es none s₁) (h' : Course s₁ es' r s') :
    Course s (es ++ es') r s' := by
  generalize hnone : (none : Option Fault) = r₁ at h
  induction h with
  | rest s => exact h'
  | stop => cases hnone
  | draw _ ih => exact .draw (ih h' hnone)
  | fresh _ ih => exact .fresh (ih h' hnone)
  | take htakes _ ih => exact .take htakes (ih h' hnone)
  | fail => cases hnone

/-- What is taken is a course of its own. -/
theorem Takes.course {o : Except Fault (List Command)} (h : Takes s o s') :
    Course s (Event.ofTaken o) (Fault.of o) s' := by
  cases o with
  | ok cs => exact .take h (.rest s')
  | error f => exact .fail h

theorem takes_of_run_step {o : Except Fault (List Command)} (h : step.run s = (o, s')) :
    Takes s o s' := by
  have hstep : Takes s (step.run s).1 (step.run s).2 := .step
  rwa [h] at hstep

/-! ### What is taken -/

theorem run_act (a : Action) (s : Session σ) :
    (act a).run s = match (a.perform s.setting s.memory).run s.source with
      | (.ok (cs, m), source) => (.ok cs, ⟨s.setting, m, s.tally, source⟩)
      | (.error f, source) => (.error f, { s with source }) := by
  unfold act
  rw [run_bind, run_sample]
  rcases (a.perform s.setting s.memory).run s.source with ⟨_ | ⟨cs, m⟩, source⟩ <;> rfl

/-- **What is taken is what some category emits.** A step is counted, an action on its own is
not. -/
theorem Takes.emits (h : Takes s (.ok cs) s') (hm : 0 ≤ s.memory.mutations) :
    s'.setting = s.setting ∧ ∃ c m', Emits s.setting s.memory c (cs.map Command.phrase) m' ∧
      ((s'.memory = (if c.mutates then m'.changed else m') ∧ s'.tally = s.tally.bump c) ∨
        (s'.memory = m' ∧ s'.tally = s.tally)) := by
  generalize ho : (.ok cs : Except Fault (List Command)) = o at h
  cases h with
  | step =>
    rw [run_step] at ho ⊢
    rcases hrun : (s.setting.step s.memory).run s.source with ⟨f | t, source⟩
    · rw [hrun] at ho
      cases ho
    · rw [hrun] at ho
      cases ho
      obtain ⟨m', hemits, hmemory⟩ := (Setting.yields_step_iff hm).1 (Sampler.yields_of_run hrun)
      exact ⟨rfl, t.category, m', hemits, .inl ⟨hmemory, rfl⟩⟩
  | @act c a ha =>
    rw [run_act] at ho ⊢
    rcases hrun : (a.perform s.setting s.memory).run s.source with ⟨f | ⟨cs', m'⟩, source⟩
    · rw [hrun] at ho
      cases ho
    · rw [hrun] at ho
      cases ho
      have hyields := Sampler.yields_of_run hrun
      exact ⟨rfl, c, m', (Action.yields_perform_iff hm).1 ⟨a, ha, hyields⟩, .inr ⟨rfl, rfl⟩⟩

/-- **What fails leaves the session as it was,** but for the source, and the document is to
blame. -/
theorem Takes.blames (h : Takes s (.error f) s') (hm : 0 ≤ s.memory.mutations) :
    (∃ source, s' = { s with source }) ∧ s.setting.document.Blames f := by
  generalize ho : (.error f : Except Fault (List Command)) = o at h
  cases h with
  | step =>
    rw [run_step] at ho ⊢
    rcases hrun : (s.setting.step s.memory).run s.source with ⟨g | t, source⟩
    · rw [hrun] at ho
      cases ho
      exact ⟨⟨source, rfl⟩, Setting.blames_of_fails_step hm (Sampler.fails_of_run hrun)⟩
    · rw [hrun] at ho
      cases ho
  | @act c a ha =>
    rw [run_act] at ho ⊢
    rcases hrun : (a.perform s.setting s.memory).run s.source with ⟨g | ⟨cs', m'⟩, source⟩
    · rw [hrun] at ho
      cases ho
      exact ⟨⟨source, rfl⟩, Action.fault_of_fails_perform ha hm (Sampler.fails_of_run hrun)⟩
    · rw [hrun] at ho
      cases ho

/-! ### What every event preserves -/

/-- What holds of a session, and of the commands made since it was fresh, whatever happens. -/
structure Invariant (P : Session σ → List Command → Prop) : Prop where
  counted : ∀ {s made}, P s made → 0 ≤ s.memory.mutations
  draw : ∀ {s made source}, P s made → P { s with source } made
  fresh : ∀ {s made}, P s made → P ⟨s.setting, .fresh, .zero, s.source⟩ []
  take : ∀ {s made cs s'}, P s made → Takes s (.ok cs) s' → P s' (made ++ cs)

variable {P : Session σ → List Command → Prop} {made : List Command}

/-- **What every event preserves, a course preserves,** and nothing in it is a complaint of the
memory. -/
theorem Invariant.course (hP : Invariant P) (h : Course s es r s') (hs : P s made) :
    P s' (es.foldl Event.log made) ∧ ∀ f, r = some f → f.concernsMemory = false := by
  induction h generalizing made with
  | rest s => exact ⟨hs, fun f hf => nomatch hf⟩
  | stop hf => exact ⟨hs, fun f hr => Option.some.inj hr ▸ hf⟩
  | draw _ ih => exact ih (hP.draw hs)
  | fresh _ ih => exact ih (hP.fresh hs)
  | take htakes _ ih => exact ih (hP.take hs htakes)
  | fail htakes =>
    obtain ⟨⟨source, rfl⟩, hblames⟩ := htakes.blames (hP.counted hs)
    refine ⟨hP.draw hs, fun f hr => ?_⟩
    obtain rfl := Option.some.inj hr
    obtain ⟨-, rfl⟩ | ⟨⟨k, rfl⟩, -⟩ := hblames <;> rfl

/-! ### Openings, closings and whole scripts -/

theorem course_opening (s : Session σ) :
    Course s [] (Fault.of (opening.run s).1) (opening.run s).2 := by
  unfold opening
  rw [run_sample]
  rcases hrun : s.setting.opening.run s.source with ⟨f | cs, source⟩
  · obtain ⟨-, rfl⟩ := Setting.fails_opening_iff.1 (Sampler.fails_of_run hrun)
    exact .draw (.stop rfl)
  · exact .draw (.rest _)

/-- A fresh start forgets everything even if the opening fails. -/
theorem course_start (s : Session σ) :
    Course s [.fresh] (Fault.of (start.run s).1) (start.run s).2 := by
  have hopening := course_opening ⟨s.setting, .fresh, .zero, s.source⟩
  unfold opening at hopening
  rw [run_sample] at hopening
  rw [run_start]
  exact .fresh hopening

theorem course_closing (s : Session σ) :
    Course s [] (Fault.of (closing.run s).1) (closing.run s).2 := by
  rw [run_closing]
  by_cases ht : Glyph.newline ∈ s.setting.target
  · rw [Setting.closing_eq_error ht]
    exact .stop rfl
  · obtain ⟨cs, hcs, -⟩ := Setting.exists_closing ht
    rw [hcs]
    exact .rest s

omit [Source σ] in
theorem concernsMemory_of_stepCount (h : s.setting.stepCount value = .error f) :
    f.concernsMemory = false := by
  rcases Setting.stepCount_eq_error_iff.1 h with hrefuses | ⟨-, -, -, -, rfl⟩
  · cases hrefuses with
    | noNumeral => rfl
    | tooLong => rfl
    | otherKind =>
      unfold StepCount.refusal Fault.inWords
      split <;> rfl
  · rfl

theorem concernsMemory_of_renderAll (h : Command.renderAll cs = .error f) :
    f.concernsMemory = false := by
  rw [Command.renderAll_eq] at h
  split at h
  · cases h
  · cases h
    rfl

omit [Source σ] in
theorem concernsMemory_of_summary {n : Nat} (h : s.summary n = .error f) :
    f.concernsMemory = false := by
  unfold summary at h
  split at h
  · cases h
  · cases h
    rfl

/-- Summing up changes nothing, and may fail. -/
theorem course_summary (n : Nat) (s : Session σ) : Course s [] (Fault.of (s.summary n)) s := by
  cases hsummary : s.summary n with
  | ok note => exact .rest s
  | error f => exact .stop (concernsMemory_of_summary hsummary)

/-- The events of a step that has run, and of what comes after it. -/
def takenEvents (part : Except Fault (List Command) × Session σ)
    (rest : List Command → Session σ → List Event) : List Event :=
  match part with
  | (.ok cs, s) => .made cs :: rest cs s
  | (.error _, _) => []

/-- The events of steps that are put into lines one by one. -/
def stepLinesEvents : Nat → Session σ → List Event
  | 0, _ => []
  | n + 1, s => takenEvents (step.run s) fun cs s =>
    match Command.renderAll cs with
    | .ok _ => stepLinesEvents n s
    | .error _ => []

/-- The events of a whole script. A value that is refused brings none. -/
def scriptEvents (value : Literal) (s : Session σ) : List Event :=
  match s.setting.stepCount value with
  | .ok n => .fresh :: match (written start).run s with
    | (.ok _, s) => stepLinesEvents n s
    | (.error _, _) => []
  | .error _ => []

/-- What comes after a part without events of its own adds none. -/
theorem Course.bind_quiet {α β : Type} {x : SessionM σ α} {k : α → SessionM σ β}
    (hx : Course s es (Fault.of (x.run s).1) (x.run s).2)
    (hk : ∀ a s₁, Course s₁ [] (Fault.of ((k a).run s₁).1) ((k a).run s₁).2) :
    Course s es (Fault.of ((x >>= k).run s).1) ((x >>= k).run s).2 := by
  rw [run_bind]
  rcases hrun : x.run s with ⟨f | a, s₁⟩
  · rwa [hrun] at hx
  · rw [hrun] at hx
    have hall := hx.append (hk a s₁)
    rwa [List.append_nil] at hall

/-- What is put into lines has happened, even if it cannot be written. -/
theorem course_written {part : SessionM σ (List Command)}
    (h : Course s es (Fault.of (part.run s).1) (part.run s).2) :
    Course s es (Fault.of ((written part).run s).1) ((written part).run s).2 := by
  refine h.bind_quiet fun cs s₁ => ?_
  rw [run_liftM]
  cases hlines : Command.renderAll cs with
  | ok lines => exact .rest s₁
  | error f => exact .stop (concernsMemory_of_renderAll hlines)

theorem course_stepLines (n : Nat) (s : Session σ) : Course s (stepLinesEvents n s)
    (Fault.of ((stepLines n).run s).1) ((stepLines n).run s).2 := by
  induction n generalizing s with
  | zero =>
    rw [stepLines, stepLinesEvents, run_pure]
    exact .rest s
  | succ n ih =>
    rw [stepLines, stepLinesEvents, takenEvents.eq_def, run_bind, run_written_eq]
    rcases hstep : step.run s with ⟨f | cs, s₁⟩
    · exact .fail (takes_of_run_step hstep)
    · refine .take (takes_of_run_step hstep) ?_
      dsimp only
      -- The step is taken by now, whether its commands can be written or not.
      cases hlines : Command.renderAll cs with
      | error f => exact .stop (concernsMemory_of_renderAll hlines)
      | ok lines => exact (ih s₁).bind_quiet fun _ s₂ => .rest s₂

/-- **A whole script is a course of events,** whether it is written to its end or not. -/
theorem course_script (value : Literal) (s : Session σ) : Course s (scriptEvents value s)
    (Fault.of ((script value).run s).1) ((script value).run s).2 := by
  unfold script scriptEvents
  rw [run_get_bind, run_bind, run_liftM]
  cases hvalue : s.setting.stepCount value with
  | error f => exact .stop (concernsMemory_of_stepCount hvalue)
  | ok n =>
    have hstart := course_written (course_start s)
    dsimp only
    rw [run_bind]
    rcases hrun : (written start).run s with ⟨f | first, s₁⟩
    · rwa [hrun] at hstart
    · rw [hrun] at hstart
      have hclosing (s₂ : Session σ) := course_written (course_closing s₂)
      refine hstart.append ((course_stepLines n s₁).bind_quiet fun steps s₂ => ?_)
      refine (hclosing s₂).bind_quiet fun last s₃ => ?_
      have hsummary := course_summary n s₃
      rw [run_get_bind, run_bind, run_liftM]
      cases hnote : s₃.summary n <;> rw [hnote] at hsummary <;> exact hsummary

end Session

/-! ### Streams -/

namespace Stream

open Session

/-- The events of taking a command of the steps, or the first closing one. -/
def runningEvents : List Command → Nat → Session σ → List Event
  | _ :: _, _, _ => []
  | [], 0, _ => []
  | [], left + 1, s => takenEvents (Session.step.run s) fun cs s => runningEvents cs left s

/-- The events of taking the next command. -/
def nextEvents : Stream → Session σ → List Event
  | .ready steps, s => .fresh :: match Session.start.run s with
    | (.ok cs, s) => runningEvents cs steps s
    | (.error _, _) => []
  | .running _ pending left, s => runningEvents pending left s
  | .closing .., _ | .ended, _ => []

/-- The events of taking up to `k` commands. -/
def takeEvents : Nat → Stream → Session σ → List Event
  | 0, _, _ => []
  | k + 1, stream, s => stream.nextEvents s ++ match stream.next s with
    | ((.ok (some _), stream), s) => takeEvents k stream s
    | _ => []

/-- Closing commands are there already, and only summing up is left after them. -/
theorem course_takeClosing (n : Nat) (s : Session σ) (cs : List Command) :
    Course s [] (Fault.of (takeClosing n s cs).1) s := by
  cases cs with
  | cons c cs => exact .rest s
  | nil =>
    have hsummary := course_summary n s
    rw [takeClosing]
    cases hnote : s.summary n <;> rw [hnote] at hsummary <;> exact hsummary

theorem course_takeRunning (n left : Nat) (pending : List Command) (s : Session σ) :
    Course s (runningEvents pending left s) (Fault.of (takeRunning n pending left s).1.1)
      (takeRunning n pending left s).2 := by
  induction left generalizing pending s with
  | zero =>
    cases pending with
    | cons c cs =>
      rw [takeRunning, runningEvents]
      exact .rest s
    | nil =>
      have hclosing := course_closing s
      rw [takeRunning, runningEvents, goOn.eq_def]
      rcases hrun : Session.closing.run s with ⟨f | cs, s₁⟩
      · rwa [hrun] at hclosing
      · rw [hrun] at hclosing
        have hall := hclosing.append (course_takeClosing n s₁ cs)
        rwa [List.append_nil] at hall
  | succ left ih =>
    cases pending with
    | cons c cs =>
      rw [takeRunning, runningEvents]
      exact .rest s
    | nil =>
      rw [takeRunning, runningEvents, goOn.eq_def, takenEvents.eq_def]
      rcases hstep : Session.step.run s with ⟨f | cs, s₁⟩
      · exact .fail (takes_of_run_step hstep)
      · exact .take (takes_of_run_step hstep) (ih cs s₁)

theorem course_next (stream : Stream) (s : Session σ) :
    Course s (stream.nextEvents s) (Fault.of (stream.next s).1.1) (stream.next s).2 := by
  cases stream with
  | ready steps =>
    have hstart := course_start s
    rw [next, nextEvents, goOn.eq_def]
    rcases hrun : Session.start.run s with ⟨f | cs, s₁⟩
    · rwa [hrun] at hstart
    · rw [hrun] at hstart
      exact hstart.append (course_takeRunning steps steps cs s₁)
  | running n pending left => exact course_takeRunning n left pending s
  | closing n pending => exact course_takeClosing n s pending
  | ended => exact .rest s

/-- **Taking from a stream is a course of events,** whether the stream fails or not. -/
theorem course_take (k : Nat) (stream : Stream) (s : Session σ) :
    Course s (takeEvents k stream s) (Fault.of (stream.take k s).1.1) (stream.take k s).2 := by
  induction k generalizing stream s with
  | zero => exact .rest s
  | succ k ih =>
    have hnext := course_next stream s
    rw [take, takeEvents]
    rcases hrun : stream.next s with ⟨⟨f | _ | c, after⟩, s₁⟩
    · rw [hrun] at hnext
      rwa [List.append_nil]
    · rw [hrun] at hnext
      rwa [List.append_nil]
    · rw [hrun] at hnext
      have hrest := ih after s₁
      refine hnext.append ?_
      dsimp only
      rcases hrun' : take k after s₁ with ⟨⟨f | rest, last⟩, s₂⟩
      · rwa [hrun'] at hrest
      · rwa [hrun'] at hrest

end Stream
end UndoScript
