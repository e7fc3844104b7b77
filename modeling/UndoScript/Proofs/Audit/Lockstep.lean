/-
# The memory and a reader of the clipboard, command by command

The memory of a session refuses what is not allowed and stops there. A reader
of the same commands notes a problem and goes on. As long as the memory stops
nowhere, the reader finds nothing wrong and both know the same; where the
memory stops, the reader's first problem is with that command, and for the same
rule. So each can stand for the other.

Key definitions: `Memory.obey`, `Memory.obeyAll`, `Memory.StopsAt`,
`Problem.rule?`.
Key theorems: `Memory.obey_ok`, `Memory.obey_error`, `Memory.obeyAll_ok`,
`Memory.StopsAt.first_problem`, `Audit.clipboard_obeys`,
`Audit.not_clipboard_obeys`.
-/
import UndoScript.Proofs.Audit.Steps
import UndoScript.Proofs.Audit.Wording

namespace UndoScript

/-- The rule of the memory that a problem with the clipboard is a breach of. -/
def Problem.rule? : Problem → Option BrokenRule
  | .stillSelecting _ => some .selectionOpen
  | .neverPasted _ => some .clipboardFull
  | .noSelection _ => some .noSelection
  | .nothingCopied _ | .pastedInSelection _ => some .nothingToPaste
  | _ => none

namespace Memory

/-- The memory after a command has played its part, if it may. -/
def obey (m : Memory) (c : Command) : Except Fault Memory :=
  match c.keyword.clipboardRole with
  | .mark => m.openSelection
  | .take => m.closeSelection true
  | .drop => m.closeSelection false
  | .paste => m.paste
  | .none => .ok m

/-- The memory after some commands in turn, or the failure of the first that may not play its
part. -/
def obeyAll (m : Memory) (cs : List Command) : Except Fault Memory := cs.foldlM obey m

/-- The command is the first that may not play its part. -/
def StopsAt (m : Memory) (cs : List Command) (c : Command) (f : Fault) : Prop :=
  ∃ before after reached, cs = before ++ c :: after ∧ m.obeyAll before = .ok reached ∧
    reached.obey c = .error f

variable {m m' : Memory} {c : Command} {cs : List Command} {f : Fault}

/-! ### One command -/

/-- Where the memory goes on, a reader finds nothing wrong and knows as much. -/
theorem obey_ok (h : m.obey c = .ok m') : m.notes.problems c = [] ∧ m.notes.after c = m'.notes := by
  -- Both look at nothing but the command's part and the memory's two flags.
  obtain ⟨selecting, full, mutations⟩ := m
  unfold obey at h
  unfold ClipboardNotes.problems ClipboardNotes.after
  cases hrole : c.keyword.clipboardRole <;> rw [hrole] at h <;> cases selecting <;> cases full <;>
    cases h <;> exact ⟨rfl, rfl⟩

/-- Where the memory stops, a reader finds a breach of the same rule. -/
theorem obey_error (h : m.obey c = .error f) : ∃ p others rule, m.notes.problems c = p :: others ∧
    p.command? = some c ∧ p.rule? = some rule ∧ f = .broken rule := by
  obtain ⟨selecting, full, mutations⟩ := m
  unfold obey at h
  unfold ClipboardNotes.problems
  cases hrole : c.keyword.clipboardRole <;> rw [hrole] at h <;> cases selecting <;> cases full <;>
    cases h <;> exact ⟨_, _, _, rfl, rfl, rfl, rfl⟩

/-! ### Commands in turn -/

theorem obeyAll_cons : m.obeyAll (c :: cs) = m.obey c >>= fun m' => m'.obeyAll cs :=
  List.foldlM_cons

/-- **While the memory goes on, a reader finds nothing wrong and knows as much.** -/
theorem obeyAll_ok (h : m.obeyAll cs = .ok m') :
    m.notes.allProblems cs = [] ∧ m.notes.afterAll cs = m'.notes := by
  induction cs generalizing m with
  | nil =>
    cases h
    exact ⟨rfl, rfl⟩
  | cons c cs ih =>
    rw [obeyAll_cons] at h
    cases hc : m.obey c with
    | error g =>
      rw [hc] at h
      cases h
    | ok reached =>
      rw [hc] at h
      obtain ⟨hproblems, hnotes⟩ := obey_ok hc
      obtain ⟨hrest, hlast⟩ := ih h
      rw [← hnotes] at hrest hlast
      refine ⟨?_, hlast⟩
      rw [ClipboardNotes.allProblems, hproblems, hrest, List.nil_append]

/-- A memory that does not go on to the end stops at some command. -/
theorem exists_stopsAt (h : m.obeyAll cs = .error f) : ∃ c, m.StopsAt cs c f := by
  induction cs generalizing m with
  | nil => cases h
  | cons c cs ih =>
    rw [obeyAll_cons] at h
    cases hc : m.obey c with
    | error g =>
      rw [hc] at h
      cases h
      exact ⟨c, [], cs, m, rfl, rfl, hc⟩
    | ok next =>
      rw [hc] at h
      obtain ⟨d, before, after, reached, rfl, hbefore, hd⟩ := ih h
      refine ⟨d, c :: before, after, reached, rfl, ?_, hd⟩
      rw [obeyAll_cons, hc]
      exact hbefore

/-- **Where the memory stops, a reader finds the first problem,** and for the same rule. -/
theorem StopsAt.first_problem (h : m.StopsAt cs c f) : ∃ p others rule,
    m.notes.allProblems cs = p :: others ∧ p.command? = some c ∧ p.rule? = some rule ∧
      f = .broken rule := by
  obtain ⟨before, after, reached, rfl, hbefore, hc⟩ := h
  obtain ⟨hnone, hnotes⟩ := obeyAll_ok hbefore
  obtain ⟨p, others, rule, hproblems, hcommand, hrule, hf⟩ := obey_error hc
  refine ⟨p, others ++ (reached.notes.after c).allProblems after, rule, ?_, hcommand, hrule, hf⟩
  rw [ClipboardNotes.allProblems_append, hnone, hnotes, ClipboardNotes.allProblems, hproblems]
  rfl

end Memory

/-- **The memory and a reader of the clipboard agree.** Some commands have no problem with the
clipboard exactly if a fresh memory goes through all of them, and then it ends with what the reader
of the commands knows. Where the memory stops, it is for a rule that it keeps, and the first problem
that is reported is a breach of this rule, is about the command that the memory stops at, and is put
in words that start with that command. Only commands that cannot be written keep the problems from
being reported. -/
theorem Audit.clipboard_obeys (cs : List Command) :
    (clipboard cs = .ok [] ↔ ∃ m, Memory.fresh.obeyAll cs = .ok m) ∧
    (∀ m, Memory.fresh.obeyAll cs = .ok m →
      ClipboardNotes.afterAll {} cs = ⟨m.selecting, m.clipboardFull⟩) ∧
    (∀ f, Memory.fresh.obeyAll cs = .error f → ∃ c rule,
      Memory.fresh.StopsAt cs c f ∧ f = .broken rule ∧
      ∀ found, clipboard cs = .ok found → ∃ p others, found = p :: others ∧
        p.command? = some c ∧ c.text ++ Text.ofString ": " <+: p.message ∧ p.rule? = some rule) ∧
    ∀ f, clipboard cs = .error f → f = .numberTooLarge ∧ ∃ c ∈ cs, ¬ c.Renders := by
  have hstop {f : Fault} (h : Memory.fresh.obeyAll cs = .error f) : ∃ c p others rule,
      Memory.fresh.StopsAt cs c f ∧ ClipboardNotes.allProblems {} cs = p :: others ∧
        p.command? = some c ∧ p.rule? = some rule ∧ f = .broken rule := by
    obtain ⟨c, hstops⟩ := Memory.exists_stopsAt h
    obtain ⟨p, others, rule, hproblems, hcommand, hrule, hf⟩ := hstops.first_problem
    exact ⟨c, p, others, rule, hstops, hproblems, hcommand, hrule, hf⟩
  refine ⟨?_, fun m hm => (Memory.obeyAll_ok hm).2, fun f hf => ?_, fun f hf => ?_⟩
  · unfold clipboard
    rw [Problem.report_eq_nil_iff]
    refine ⟨fun hnone => ?_, fun ⟨m, hm⟩ => (Memory.obeyAll_ok hm).1⟩
    cases h : Memory.fresh.obeyAll cs with
    | ok m => exact ⟨m, rfl⟩
    | error f =>
      obtain ⟨c, p, others, rule, -, hproblems, -⟩ := hstop h
      rw [hnone] at hproblems
      cases hproblems
  · obtain ⟨c, p, others, rule, hstops, hproblems, hcommand, hrule, hbroken⟩ := hstop hf
    refine ⟨c, rule, hstops, hbroken, fun found hfound => ?_⟩
    obtain ⟨rfl, -⟩ := Problem.report_eq_ok_iff.1 hfound
    exact ⟨p, others, hproblems, hcommand, Problem.isPrefix_message hcommand, hrule⟩
  · unfold clipboard Problem.report at hf
    split at hf
    · cases hf
    · next hproblems =>
      refine ⟨(Except.error.inj hf).symm, ?_⟩
      by_contra hall
      push Not at hall
      refine hproblems fun p hp => ?_
      obtain ⟨c, hc, hcommand⟩ := ClipboardNotes.exists_command_of_mem hp
      exact Problem.renders_of_command? hcommand (hall c hc)

/-- **A command that cannot be written can keep its problem from being reported:** a selection is
copied that is not open, with a number that has a digit too many. -/
theorem Audit.not_clipboard_obeys : ¬ ∀ (cs : List Command) (f : Fault),
    Memory.fresh.obeyAll cs = .error f → ∃ c p others, Memory.fresh.StopsAt cs c f ∧
      clipboard cs = .ok (p :: others) ∧ p.command? = some c := by
  intro h
  let c : Command := ⟨.copy, .number (10 ^ Numeral.limit), rfl⟩
  obtain ⟨-, p, others, -, hfound, -⟩ := h [c] (.broken .noSelection) rfl
  obtain ⟨-, hrenders⟩ := Problem.report_eq_ok_iff.1 hfound
  exact Numeral.not_writable_limit (hrenders (.noSelection c) List.mem_cons_self)

end UndoScript
