/-
# Runs of a session

A session runs its parts one after the other, each on the session that the one
before left. A walk is the same without a source: steps that follow each
other, each on the memory that the one before left. Whatever the source, the
groups of a run are those of a walk, and where no line of the document holds a
line feed a run never stops half-way. After a run from a fresh start nothing
has been counted more often than there were steps, so a script can be summed up
unless it has too many.

Key definitions: `Setting.Walk`, `Setting.ScriptParts`, `Setting.IsScript`,
`Session.groups`, `Session.excess`.
Key theorems: `Setting.Walk.exists_group`, `Session.run_step`, `Session.walk_of_run_groups`,
`Session.exists_run_groups`, `Session.hasSummary_iff`, `Session.exists_parts`.
-/
import UndoScript.Session.Script
import UndoScript.Proofs.Document
import UndoScript.Proofs.Session.Parts
import UndoScript.Proofs.Text.Decimal

namespace UndoScript

/-- What is in two lists put together is in the first or in the second. -/
theorem exists_part_of_append_eq {α : Type} {xs ys before after : List α} {x : α}
    (h : xs ++ ys = before ++ x :: after) :
    (∃ rest, xs = before ++ x :: rest ∧ after = rest ++ ys) ∨
      ∃ front, before = xs ++ front ∧ ys = front ++ x :: after := by
  rcases List.append_eq_append_iff.1 h with ⟨front, rfl, rfl⟩ | ⟨rest, rfl, hrest⟩
  · exact .inr ⟨front, rfl, rfl⟩
  · rcases List.cons_eq_append_iff.1 hrest with ⟨rfl, rfl⟩ | ⟨rest, rfl, rfl⟩
    · exact .inr ⟨[], by simp, rfl⟩
    · exact .inl ⟨rest, rfl, rfl⟩

/-- The failure, if there is one. -/
def Fault.of {α : Type} : Except Fault α → Option Fault
  | .ok _ => none
  | .error f => some f

/-- A result, unless there is a failure. -/
def Fault.unless {α : Type} (fault : Option Fault) (a : α) : Except Fault α :=
  fault.elim (.ok a) .error

theorem Document.Unbroken.not_blames {d : Document} {f : Fault} (hd : d.Unbroken)
    (hcontent : d.hasContent = true) : ¬ d.Blames f := by
  rintro (⟨hempty, -⟩ | ⟨-, t, ⟨-, line, hline, rfl⟩, hmem⟩)
  · rw [hcontent] at hempty
    cases hempty
  · exact hd line hline hmem

namespace Setting

/-- Steps that follow each other, from one memory to another. -/
inductive Walk (s : Setting) : Memory → List Step → Memory → Prop
  | rest (m : Memory) : Walk s m [] m
  | step {m m' : Memory} {t : Step} {ts : List Step} : (s.step m).Yields t →
    Walk s t.memory ts m' → Walk s m (t :: ts) m'

variable {s : Setting} {m m' : Memory} {ts : List Step} {before after : List Command} {c : Command}

/-- A walk of `n` steps counts `n` changes at most. -/
theorem Walk.mutations (h : s.Walk m ts m') (hm : 0 ≤ m.mutations) :
    m.mutations ≤ m'.mutations ∧ m'.mutations ≤ m.mutations + ts.length := by
  induction h with
  | rest m => simp
  | step hstep _ ih =>
    have hcount := mutations_of_yields_step hm hstep
    have hrest := ih (by omega)
    rw [List.length_cons]
    omega

/-- **Every command of a walk is in the group of some step,** and the memory that the step starts
from has counted the changes before the group. -/
theorem Walk.exists_group (h : s.Walk m ts m') (hm : 0 ≤ m.mutations)
    (hat : (ts.map Step.commands).flatten = before ++ c :: after) :
    ∃ front b a rest m₁ m₂ category, before = front ++ b ∧ after = a ++ rest ∧
      Emits s m₁ category ((b ++ c :: a).map Command.phrase) m₂ ∧
      m₁.mutations = m.mutations + front.countP fun d => d.keyword ∈ Emission.changing := by
  -- the command is in the first group, or the first group comes before the one that it is in
  induction h generalizing before with
  | rest m => simp at hat
  | @step m m' t ts hstep _ ih =>
    obtain ⟨reached, hemits, -⟩ := (yields_step_iff hm).1 hstep
    have hcount := mutations_eq_of_yields_step hm hstep
    rw [List.map_cons, List.flatten_cons] at hat
    rcases exists_part_of_append_eq hat with ⟨rest, hcommands, rfl⟩ | ⟨front, rfl, hrest⟩
    · rw [hcommands] at hemits
      exact ⟨[], before, rest, _, m, reached, t.category, rfl, rfl, hemits, by simp⟩
    · obtain ⟨front, b, a, rest, m₁, m₂, category, rfl, rfl, hgroup, hm₁⟩ := ih (by omega) hrest
      have hfront : m₁.mutations =
          m.mutations + (t.commands ++ front).countP fun d => d.keyword ∈ Emission.changing := by
        rw [hm₁, hcount, List.countP_append]
        omega
      exact ⟨t.commands ++ front, b, a, rest, m₁, m₂, category, by simp, rfl, hgroup, hfront⟩

/-- Every command of a walk is emitted by one of its steps. -/
theorem Walk.exists_emits (h : s.Walk m ts m') (hm : 0 ≤ m.mutations) :
    ∀ c ∈ (ts.map Step.commands).flatten, ∃ m₁ category g m₂,
      Emits s m₁ category g m₂ ∧ c.phrase ∈ g := by
  intro c hc
  obtain ⟨before, after, hat⟩ := List.append_of_mem hc
  obtain ⟨front, b, a, rest, m₁, m₂, category, -, -, hemits, -⟩ := h.exists_group hm hat
  exact ⟨m₁, category, _, m₂, hemits, by simp⟩

/-- The parts of a whole script: the opening, `n` steps from a fresh start, the closing. -/
structure ScriptParts (s : Setting) (n : Nat) (opening : List Command) (ts : List Step)
    (closing : List Command) : Prop where
  opens : ∃ utf8 < 2, opening.map Command.phrase = s.openingPhrases utf8
  walk : ∃ m, s.Walk .fresh ts m
  length : ts.length = n
  closes : closing.map Command.phrase = s.closingPhrases

/-- The commands of a whole script of `n` steps. -/
def IsScript (s : Setting) (n : Nat) (cs : List Command) : Prop :=
  ∃ opening ts closing, s.ScriptParts n opening ts closing ∧
    cs = opening ++ ((ts.map Step.commands).flatten ++ closing)

/-- A script has commands, those of its closing if no others. -/
theorem IsScript.ne_nil {n : Nat} {cs : List Command} (h : s.IsScript n cs) : cs ≠ [] := by
  obtain ⟨opening, ts, closing, hparts, rfl⟩ := h
  intro hnil
  simp only [List.append_eq_nil_iff] at hnil
  have hcloses := hparts.closes
  rw [hnil.2.2] at hcloses
  cases hcloses

end Setting

namespace Session

open Sampler

variable {σ : Type} {α β : Type} {s s' : Session σ} {f : Fault} {n : Nat}

/-! ### One part after the other -/

theorem run_bind (x : SessionM σ α) (k : α → SessionM σ β) (s : Session σ) :
    (x >>= k).run s = match x.run s with
      | (.ok a, s') => (k a).run s'
      | (.error f, s') => (.error f, s') := by
  rw [ExceptT.run_bind]
  show StateT.bind x.run _ s = _
  unfold StateT.bind
  dsimp only
  rcases x.run s with ⟨_ | a, s'⟩ <;> rfl

theorem run_pure (a : α) (s : Session σ) : (pure a : SessionM σ α).run s = (.ok a, s) := rfl

theorem run_liftM (r : Except Fault α) (s : Session σ) :
    (liftM r : SessionM σ α).run s = (r, s) := by
  cases r <;> rfl

theorem run_get_bind (k : Session σ → SessionM σ β) (s : Session σ) :
    ((get : SessionM σ (Session σ)) >>= k).run s = (k s).run s := by
  rw [run_bind]
  rfl

/-- The parts of what ran to its end. -/
theorem run_bind_eq_ok {x : SessionM σ α} {k : α → SessionM σ β} {b : β}
    (h : (x >>= k).run s = (.ok b, s')) :
    ∃ a s₁, x.run s = (.ok a, s₁) ∧ (k a).run s₁ = (.ok b, s') := by
  rw [run_bind] at h
  rcases hx : x.run s with ⟨_ | a, s₁⟩
  · rw [hx] at h
    cases h
  · rw [hx] at h
    exact ⟨a, s₁, rfl, h⟩

variable [Source σ]

theorem run_sample (f : Setting → Memory → Sampler α) (s : Session σ) :
    (sample f).run s = (((f s.setting s.memory).run s.source).1,
      { s with source := ((f s.setting s.memory).run s.source).2 }) := by
  rcases h : (f s.setting s.memory).run s.source with ⟨r, source⟩
  unfold sample
  rw [run_bind]
  show (match (f s.setting s.memory).run s.source with | _ => _) = _
  rw [h]
  cases r <;> rfl

/-! ### Steps -/

theorem run_step (s : Session σ) :
    step.run s = match (s.setting.step s.memory).run s.source with
      | (.ok t, source) => (.ok t.commands, ⟨s.setting, t.memory, s.tally.bump t.category, source⟩)
      | (.error f, source) => (.error f, { s with source }) := by
  unfold step
  rw [run_bind, run_sample]
  rcases (s.setting.step s.memory).run s.source with ⟨_ | t, source⟩ <;> rfl

/-- A step that ran is a step that can be taken. -/
theorem yields_of_run_step {cs : List Command} (h : step.run s = (.ok cs, s')) :
    ∃ t, (s.setting.step s.memory).Yields t ∧ t.commands = cs ∧ s'.setting = s.setting ∧
      s'.memory = t.memory := by
  rw [run_step] at h
  rcases hrun : (s.setting.step s.memory).run s.source with ⟨_ | t, source⟩
  · rw [hrun] at h
    cases h
  · rw [hrun] at h
    cases h
    exact ⟨t, yields_of_run hrun, rfl, rfl, rfl⟩

/-- A step runs, unless the document is to blame. -/
theorem exists_run_step (hm : 0 ≤ s.memory.mutations) (hd : s.setting.document.Unbroken)
    (hcontent : s.setting.document.hasContent = true) : ∃ cs s', step.run s = (.ok cs, s') := by
  have hfails (f : Fault) : ¬ (s.setting.step s.memory).Fails f := fun h =>
    hd.not_blames hcontent (Setting.blames_of_fails_step hm h)
  obtain ⟨t, source, hrun⟩ := exists_run_of_not_fails hfails s.source
  rw [run_step, hrun]
  exact ⟨_, _, rfl⟩

/-- The groups of `n` steps. -/
def groups : Nat → SessionM σ (List (List Command))
  | 0 => return []
  | n + 1 => do
    let group ← step
    let rest ← groups n
    return group :: rest

/-- A step and the groups after it. -/
theorem run_groups_succ {g : List Command} {gs : List (List Command)} {s₁ : Session σ}
    (hstep : step.run s = (.ok g, s₁)) (hgroups : (groups n).run s₁ = (.ok gs, s')) :
    (groups (n + 1)).run s = (.ok (g :: gs), s') := by
  unfold groups
  rw [run_bind, hstep]
  dsimp only
  rw [run_bind, hgroups]
  rfl

/-- **The groups of a run are those of a walk.** -/
theorem walk_of_run_groups : ∀ {n : Nat} {s s' : Session σ} {gs : List (List Command)},
    (groups n).run s = (.ok gs, s') → ∃ ts : List Step, ts.length = n ∧
      ts.map Step.commands = gs ∧ s.setting.Walk s.memory ts s'.memory ∧ s'.setting = s.setting
  | 0, s, s', gs, h => by
    cases h
    exact ⟨[], rfl, rfl, .rest _, rfl⟩
  | n + 1, s, s', gs, h => by
    obtain ⟨g, s₁, hstep, h⟩ := run_bind_eq_ok h
    obtain ⟨rest, s₂, hrest, h⟩ := run_bind_eq_ok h
    cases h
    obtain ⟨t, ht, rfl, hsetting, hmemory⟩ := yields_of_run_step hstep
    obtain ⟨ts, rfl, rfl, hwalk, hsetting'⟩ := walk_of_run_groups hrest
    rw [hsetting, hmemory] at hwalk
    exact ⟨t :: ts, rfl, rfl, .step ht hwalk, hsetting'.trans hsetting⟩

/-- **A run of steps never stops half-way** where no line holds a line feed. -/
theorem exists_run_groups : ∀ {n : Nat} {s : Session σ}, 0 ≤ s.memory.mutations →
    s.setting.document.Unbroken → (n = 0 ∨ s.setting.document.hasContent = true) →
    ∃ gs s', (groups n).run s = (.ok gs, s')
  | 0, s, _, _, _ => ⟨[], s, rfl⟩
  | n + 1, s, hm, hd, hn => by
    have hcontent : s.setting.document.hasContent = true := hn.resolve_left (Nat.succ_ne_zero n)
    obtain ⟨g, s₁, hstep⟩ := exists_run_step hm hd hcontent
    obtain ⟨t, ht, -, hsetting, hmemory⟩ := yields_of_run_step hstep
    have hcount := Setting.mutations_of_yields_step hm ht
    have hm' : 0 ≤ s₁.memory.mutations := by
      rw [hmemory]
      omega
    rw [← hsetting] at hd hcontent
    obtain ⟨gs, s₂, hrest⟩ := exists_run_groups hm' hd (.inr hcontent)
    exact ⟨g :: gs, s₂, run_groups_succ hstep hrest⟩

/-! ### What a run has counted -/

/-- A step is counted at most once. -/
theorem count_le_of_run_step {cs : List Command} (h : step.run s = (.ok cs, s')) (c : Category) :
    s'.tally.count c ≤ s.tally.count c + 1 := by
  rw [run_step] at h
  rcases hrun : (s.setting.step s.memory).run s.source with ⟨f | t, source⟩
  · rw [hrun] at h
    cases h
  · rw [hrun] at h
    cases h
    dsimp only
    rw [Tally.count_bump]
    split <;> omega

/-- A run of `n` steps counts no more than `n` of any category. -/
theorem count_le_of_run_groups (c : Category) : ∀ {n : Nat} {s s' : Session σ}
    {gs : List (List Command)}, (groups n).run s = (.ok gs, s') →
    s'.tally.count c ≤ s.tally.count c + n
  | 0, s, s', gs, h => by
    cases h
    exact Nat.le_refl _
  | n + 1, s, s', gs, h => by
    obtain ⟨g, s₁, hstep, h⟩ := run_bind_eq_ok h
    obtain ⟨rest, s₂, hrest, h⟩ := run_bind_eq_ok h
    cases h
    have hfirst := count_le_of_run_step hstep c
    have hothers := count_le_of_run_groups c hrest
    omega

/-- **A script can be summed up exactly if the number of its steps can be written.** -/
theorem hasSummary_iff {gs : List (List Command)} {source : σ}
    (h : (groups n).run ⟨s.setting, .fresh, .zero, source⟩ = (.ok gs, s')) :
    s'.HasSummary n ↔ n < 10 ^ Numeral.limit := by
  obtain ⟨ts, hlength, -, hwalk, -⟩ := walk_of_run_groups h
  obtain ⟨hpositive, hmutations⟩ := hwalk.mutations (Int.le_refl 0)
  rw [hlength] at hmutations
  constructor
  · intro hsummary
    have hn := hsummary n List.mem_cons_self
    rwa [Numeral.writable_iff, Int.natAbs_natCast] at hn
  · intro hn k hk
    have hsmall {j : Int} (hj : 0 ≤ j) (hle : j ≤ n) : Numeral.Writable j :=
      Numeral.writable_of_nonneg_of_lt hj (lt_of_le_of_lt hle (by exact_mod_cast hn))
    simp only [figures, List.mem_cons, List.mem_map] at hk
    rcases hk with rfl | rfl | ⟨c, -, rfl⟩
    · exact hsmall (Int.natCast_nonneg n) (Int.le_refl n)
    · refine hsmall hpositive (hmutations.trans ?_)
      show (0 : Int) + n ≤ n
      omega
    · have hcount := count_le_of_run_groups c h
      have hzero : Tally.zero.count c = 0 := by cases c <;> rfl
      refine hsmall (Int.natCast_nonneg _) ?_
      dsimp only at hcount
      omega

/-- The failure of a script that has too many steps to be summed up. -/
def excess (n : Nat) : Option Fault :=
  if n < 10 ^ Numeral.limit then none else some .numberTooLarge

theorem excess_of_lt (h : n < 10 ^ Numeral.limit) : excess n = none := if_pos h

theorem excess_of_not_lt (h : ¬ n < 10 ^ Numeral.limit) : excess n = some .numberTooLarge :=
  if_neg h

/-- So a script fails at its end exactly if it has too many steps. -/
theorem of_summary_eq {gs : List (List Command)} {source : σ}
    (h : (groups n).run ⟨s.setting, .fresh, .zero, source⟩ = (.ok gs, s')) :
    Fault.of (s'.summary n) = excess n := by
  have hiff := hasSummary_iff h
  unfold summary excess
  by_cases hn : n < 10 ^ Numeral.limit
  · rw [if_pos (hiff.2 hn), if_pos hn]
    rfl
  · rw [if_neg (mt hiff.1 hn), if_neg hn]
    rfl

/-! ### Opening and closing -/

theorem run_start (s : Session σ) :
    start.run s = ((s.setting.opening.run s.source).1,
      ⟨s.setting, .fresh, .zero, (s.setting.opening.run s.source).2⟩) := by
  have hreset : (reset : SessionM σ Unit).run s = (.ok (), ⟨s.setting, .fresh, .zero, s.source⟩) :=
    rfl
  unfold start opening
  rw [run_bind, hreset]
  dsimp only
  rw [run_sample]

omit [Source σ] in
theorem run_closing (s : Session σ) : closing.run s = (s.setting.closing, s) := by
  unfold closing
  rw [run_get_bind, run_liftM]

/-- A fresh start with a target on one line. -/
theorem exists_run_start (ht : Glyph.newline ∉ s.setting.target) : ∃ cs source,
    start.run s = (.ok cs, ⟨s.setting, .fresh, .zero, source⟩) ∧
      ∃ utf8 < 2, cs.map Command.phrase = s.setting.openingPhrases utf8 := by
  have hfails (f : Fault) : ¬ s.setting.opening.Fails f := fun h =>
    ht (Setting.fails_opening_iff.1 h).1
  obtain ⟨cs, source, hrun⟩ := exists_run_of_not_fails hfails s.source
  refine ⟨cs, source, ?_, (Setting.yields_opening (yields_of_run hrun)).2⟩
  rw [run_start, hrun]

/-- A fresh start with a target that has a line feed. -/
theorem run_start_of_newline_mem (ht : Glyph.newline ∈ s.setting.target) : ∃ source,
    start.run s = (.error (.broken (.spansLines .openFile)), ⟨s.setting, .fresh, .zero, source⟩) := by
  rw [run_start]
  rcases hrun : s.setting.opening.run s.source with ⟨f | cs, source⟩
  · rw [(Setting.fails_opening_iff.1 (fails_of_run hrun)).2]
    exact ⟨source, rfl⟩
  · exact absurd ht (Setting.yields_opening (yields_of_run hrun)).1

/-! ### Whole scripts -/

/-- A script's own session can be summed up unless there are too many steps. -/
theorem of_summary_eq_of_start {opening : List Command} {gs : List (List Command)}
    {s₁ : Session σ} (hstart : start.run s = (.ok opening, s₁))
    (hgroups : (groups n).run s₁ = (.ok gs, s')) : Fault.of (s'.summary n) = excess n := by
  rw [run_start] at hstart
  obtain ⟨-, rfl⟩ := Prod.mk.inj hstart
  exact of_summary_eq hgroups

/-- Whatever the source and the history, the parts of a script are there. -/
theorem exists_parts (hd : s.setting.document.Unbroken) (ht : Glyph.newline ∉ s.setting.target)
    (hn : n = 0 ∨ s.setting.document.hasContent = true) :
    ∃ opening ts closing s₁ s₂, start.run s = (.ok opening, s₁) ∧
      (groups n).run s₁ = (.ok (ts.map Step.commands), s₂) ∧
      Session.closing.run s₂ = (.ok closing, s₂) ∧
      s.setting.ScriptParts n opening ts closing := by
  obtain ⟨opening, source, hstart, hopening⟩ := exists_run_start ht
  obtain ⟨gs, s₂, hgroups⟩ := exists_run_groups (n := n)
    (s := ⟨s.setting, .fresh, .zero, source⟩) (Int.le_refl 0) hd hn
  obtain ⟨ts, hlength, rfl, hwalk, hsetting⟩ := walk_of_run_groups hgroups
  obtain ⟨closing, hclosing, hphrases⟩ := Setting.exists_closing ht
  have hlast : Session.closing.run s₂ = (.ok closing, s₂) := by
    rw [run_closing, hsetting, hclosing]
  exact ⟨opening, ts, closing, _, s₂, hstart, hgroups, hlast,
    ⟨hopening, ⟨_, hwalk⟩, hlength, hphrases⟩⟩

end Session
end UndoScript
