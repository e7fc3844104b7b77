/-
# A session in use

A session may be used in any way: streams are started and taken from, in any
order and however far, whole scripts are written, and steps, openings,
closings and the entries of the tables are run on their own. Whatever is done
and whether it fails, what happens to the session is a course of events, which
is written down along the way.

Key definitions: `Operation`, `Use`, `Use.perform`, `Use.after`.
Key theorems: `Use.course_perform`, `Use.invariant_after`.
-/
import UndoScript.Proofs.Session.Course

namespace UndoScript

/-- Something that can be done with a session and its streams. -/
inductive Operation
  /-- A stream is started. -/
  | start (value : Literal)
  /-- Up to `count` commands are taken from the stream that was started after `stream` others. -/
  | take (stream count : Nat)
  /-- A whole script is written. -/
  | script (value : Literal)
  | step
  | opening
  | closing
  /-- An action is run on its own, by its place in the table of a category. -/
  | entry (category : Category) (index : Nat)

/-- A session, the streams that were started, and what has happened to what it remembers. -/
structure Use (σ : Type) where
  session : Session σ
  streams : List Stream := []
  events : List Event := []

namespace Use

variable {σ : Type} {α : Type}

/-- A new session, not used yet. -/
def ofSetting (setting : Setting) (source : σ) : Use σ := { session := .ofSetting setting source }

/-- Something has been done, with these events, and has failed or not. -/
def done (u : Use σ) (part : Except Fault α × Session σ) (events : List Event) :
    Option Fault × Use σ :=
  (Fault.of part.1, { u with session := part.2, events := u.events ++ events })

variable [Source σ]

/-- Does something, and tells the failure if it fails. Nothing is done with a stream or an entry
that is not there. -/
def perform (u : Use σ) : Operation → Option Fault × Use σ
  | .start value =>
    let part := (Session.generate value).run u.session
    { u with streams := u.streams ++ part.1.toOption.toList }.done part []
  | .take i k =>
    match u.streams[i]? with
    | none => (none, u)
    | some stream =>
      let taken := stream.take k u.session
      { u with streams := u.streams.set i taken.1.2 }.done (taken.1.1, taken.2)
        (stream.takeEvents k u.session)
  | .script value =>
    u.done ((Session.script value).run u.session) (Session.scriptEvents value u.session)
  | .step =>
    let part := Session.step.run u.session
    u.done part (Event.ofTaken part.1)
  | .opening => u.done (Session.opening.run u.session) []
  | .closing => u.done (Session.closing.run u.session) []
  | .entry c i =>
    match (Action.table u.session.setting.options c)[i]? with
    | none => (none, u)
    | some action =>
      let part := (Session.act action).run u.session
      u.done part (Event.ofTaken part.1)

/-- Does things in turn, whether they fail or not. -/
def after (u : Use σ) (ops : List Operation) : Use σ := ops.foldl (fun u op => (u.perform op).2) u

open Session

/-- **Whatever is done, what happens is a course of events.** -/
theorem course_perform (u : Use σ) (op : Operation) : ∃ es,
    (u.perform op).2.events = u.events ++ es ∧
      Course u.session es (u.perform op).1 (u.perform op).2.session := by
  cases op with
  | start value =>
    refine ⟨[], rfl, ?_⟩
    simp only [perform, done]
    rw [run_generate]
    cases hvalue : u.session.setting.stepCount value with
    | ok n => exact .rest _
    | error f => exact .stop (concernsMemory_of_stepCount hvalue)
  | take i k =>
    cases hstream : u.streams[i]? with
    | none =>
      simp only [perform, hstream]
      exact ⟨[], (List.append_nil _).symm, .rest _⟩
    | some stream =>
      simp only [perform, hstream]
      exact ⟨_, rfl, Stream.course_take k stream u.session⟩
  | script value => exact ⟨_, rfl, course_script value u.session⟩
  | step => exact ⟨_, rfl, Takes.step.course⟩
  | opening => exact ⟨_, rfl, course_opening u.session⟩
  | closing => exact ⟨_, rfl, course_closing u.session⟩
  | entry c i =>
    cases haction : (Action.table u.session.setting.options c)[i]? with
    | none =>
      simp only [perform, haction]
      exact ⟨[], (List.append_nil _).symm, .rest _⟩
    | some action =>
      simp only [perform, haction]
      exact ⟨_, rfl, (Takes.act (List.mem_of_getElem? haction)).course⟩

/-- **What every event preserves holds of every session in use,** and whatever is done next brings
no complaint of the memory. -/
theorem invariant_after {P : Session σ → List Command → Prop} (hP : Invariant P) {u : Use σ}
    (hu : P u.session (Event.since u.events)) (ops : List Operation) :
    P (u.after ops).session (Event.since (u.after ops).events) ∧
      ∀ op f, ((u.after ops).perform op).1 = some f → f.concernsMemory = false := by
  have hstep {u : Use σ} (hu : P u.session (Event.since u.events)) (op : Operation) :
      P (u.perform op).2.session (Event.since (u.perform op).2.events) ∧
        ∀ f, (u.perform op).1 = some f → f.concernsMemory = false := by
    obtain ⟨es, hes, hcourse⟩ := u.course_perform op
    rw [hes, Event.since, List.foldl_append]
    exact hP.course hcourse hu
  induction ops generalizing u with
  | nil => exact ⟨hu, fun op => (hstep hu op).2⟩
  | cons op ops ih => exact ih (hstep hu op).1

end Use
end UndoScript
