/-
# The memory mirrors what was made

A session and a reader of its commands keep the clipboard's history apart from
each other: the one to know what it may do next, the other to find what went
wrong. Their books agree under any use of the session. What was made since the
last fresh start has no problem, a reader of it ends with what the session
remembers, and the session never asks its memory for what is not allowed.

Key definitions: `Session.Mirrors`.
Key theorems: `Session.invariant_mirrors`, `Use.mirrors_after`.
-/
import UndoScript.Proofs.Audit.Steps
import UndoScript.Proofs.Session.Use

namespace UndoScript

/-- What a reader finds nothing wrong with never leaves a selection open over a full clipboard. -/
theorem ClipboardNotes.apart_afterAll : ∀ {n : ClipboardNotes} {cs : List Command},
    n.allProblems cs = [] → ¬ (n.selecting = true ∧ n.waiting = true) →
    ¬ ((n.afterAll cs).selecting = true ∧ (n.afterAll cs).waiting = true)
  | _, [], _, hn => hn
  | n, c :: cs, h, hn => by
    obtain ⟨hc, hcs⟩ := List.append_eq_nil_iff.1 h
    have hnext : ¬ ((n.after c).selecting = true ∧ (n.after c).waiting = true) := by
      unfold problems at hc
      unfold after
      cases hrole : c.keyword.clipboardRole with
      | mark =>
        rw [hrole] at hc
        simp_all
      | none => exact hn
      | _ => simp
    exact apart_afterAll (n := n.after c) hcs hnext

variable {σ : Type} [Source σ]

/-- The session remembers what a reader of these commands knows, who finds nothing wrong. -/
structure Session.Mirrors (s : Session σ) (made : List Command) : Prop where
  counted : 0 ≤ s.memory.mutations
  problems : ClipboardNotes.allProblems {} made = []
  notes : ClipboardNotes.afterAll {} made = s.memory.notes

/-- **What a session remembers mirrors what it made,** whatever happens to it. -/
theorem Session.invariant_mirrors : Invariant (Mirrors (σ := σ)) where
  counted h := h.counted
  draw h := ⟨h.counted, h.problems, h.notes⟩
  fresh _ := ⟨Int.le_refl 0, rfl, rfl⟩
  take := by
    intro s made cs s' h htakes
    obtain ⟨-, c, m', hemits, hafter⟩ := htakes.emits h.counted
    have hcount := hemits.mutations_eq
    have hpositive := h.counted
    obtain ⟨hproblems, hnotes⟩ := hemits.notes
    have hmemory : s'.memory = m' ∨ s'.memory = m'.changed := by
      rcases hafter with ⟨hmemory, -⟩ | ⟨hmemory, -⟩
      · cases hc : c.mutates <;> simp [hmemory, hc]
      · exact .inl hmemory
    have hnotes' : s'.memory.notes = m'.notes := by
      rcases hmemory with hmemory | hmemory
      · rw [hmemory]
      · rw [hmemory]
        rfl
    refine ⟨?_, ?_, ?_⟩
    · rcases hmemory with hmemory | hmemory
      · rw [hmemory]
        omega
      · rw [hmemory]
        show 0 ≤ m'.mutations + 1
        omega
    · rw [ClipboardNotes.allProblems_append, h.notes, hproblems, List.append_nil]
      exact h.problems
    · rw [ClipboardNotes.afterAll_append, h.notes, hnotes, hnotes']

/-- **The books agree under any use.** Start with a new session and do anything with it in any
order: start streams and take from them, write scripts, run steps, openings, closings and entries of
the tables, with failures on the way. Then the commands made since the last fresh start have no
problem with the clipboard; the notes of a reader of them are what the session remembers; no
selection is open while the clipboard is full; and nothing that is done next breaks a rule of the
memory. -/
theorem Use.mirrors_after (setting : Setting) (source : σ) (ops : List Operation) :
    let u := (Use.ofSetting setting source).after ops
    Audit.clipboard (Event.since u.events) = .ok [] ∧
    ClipboardNotes.afterAll {} (Event.since u.events) =
      ⟨u.session.memory.selecting, u.session.memory.clipboardFull⟩ ∧
    ¬ (u.session.memory.selecting = true ∧ u.session.memory.clipboardFull = true) ∧
    ∀ op f, (u.perform op).1 = some f → f.concernsMemory = false := by
  have hstart : Session.Mirrors (Session.ofSetting setting source) [] := ⟨Int.le_refl 0, rfl, rfl⟩
  obtain ⟨hmirrors, hfaults⟩ := invariant_after Session.invariant_mirrors
    (u := Use.ofSetting setting source) hstart ops
  have hnotes := hmirrors.notes
  have hapart := ClipboardNotes.apart_afterAll (n := {}) hmirrors.problems (by simp)
  rw [hnotes] at hapart
  exact ⟨Problem.report_eq_nil_iff.2 hmirrors.problems, hnotes, hapart, hfaults⟩

end UndoScript
