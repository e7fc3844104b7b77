/-
# One step

A step draws a category, an action of its table and what the action emits. So
it comes to the groups of all categories, and to what a turn of selecting and
pasting makes of the memory, with the steps of deletion and text counted. A
step fails only if the document is to blame for it.

Key theorems: `Setting.yields_step_iff`, `Setting.blames_of_fails_step`,
`Setting.mutations_eq_of_yields_step`.
-/
import UndoScript.Proofs.Action.Attribution
import UndoScript.Proofs.Action.Failure

namespace UndoScript

/-- Every category is settled by some draw. -/
theorem Category.exists_draw : ∀ c : Category, ∃ r : Fin 100, ofDraw r.val = .ok c
  | .navigation => ⟨0, rfl⟩
  | .flags => ⟨10, rfl⟩
  | .deletion => ⟨20, rfl⟩
  | .clipboard => ⟨30, rfl⟩
  | .editing => ⟨40, rfl⟩
  | .atomic => ⟨50, rfl⟩
  | .text => ⟨60, rfl⟩

theorem Category.ofDraw_ne_error (r : Fin 100) {f : Fault} : ofDraw r.val ≠ .error f := by
  have hr : (0 : Int) ≤ r.val ∧ (r.val : Int) < 100 := by omega
  simp [ofDraw, hr]

/-- Only a turn changes what is remembered, and never the count. -/
theorem Emits.mutations_eq {s : Setting} {m m' : Memory} {c : Category} {g : List Phrase}
    (h : Emits s m c g m') : m'.mutations = m.mutations := by
  cases h with
  | turn hturn => cases hturn <;> rfl
  | _ => rfl

namespace Setting

open Sampler

variable {s : Setting} {m : Memory}

/-- **A step comes to what its category emits,** and is counted if it is a change. -/
theorem yields_step_iff {t : Step} (hm : 0 ≤ m.mutations) : (s.step m).Yields t ↔
    ∃ m', Emits s m t.category (t.commands.map Command.phrase) m' ∧
      t.memory = if t.category.mutates then m'.changed else m' := by
  simp only [step, yields_bind, yields_draw, yields_liftM, yields_choose, yields_pure, true_and]
  constructor
  · rintro ⟨r, c, -, a, ha, ⟨cs, m'⟩, h, rfl⟩
    exact ⟨m', (Action.yields_perform_iff hm).1 ⟨a, ha, h⟩, rfl⟩
  · rintro ⟨m', hemits, hmemory⟩
    obtain ⟨r, hr⟩ := t.category.exists_draw
    obtain ⟨a, ha, h⟩ := (Action.yields_perform_iff hm).2 hemits
    refine ⟨r, t.category, hr, a, ha, (t.commands, m'), h, ?_⟩
    rw [← hmemory]

/-- Only the document is to blame for a step that fails. -/
theorem blames_of_fails_step {f : Fault} (hm : 0 ≤ m.mutations) (h : (s.step m).Fails f) :
    s.document.Blames f := by
  have htable : ∀ c, Action.table s.options c ≠ [] := by
    intro c
    cases c <;> simp [Action.table, Action.navigation, Action.flags, Action.deletion,
      Action.editing, Action.insertion]
  simp only [step, fails_bind, fails_draw, fails_liftM, fails_choose, yields_choose, fails_pure,
    Category.ofDraw_ne_error, htable, and_false, exists_false, false_and, false_or, or_false] at h
  rcases h with ⟨hnil, -⟩ | ⟨-, -, c, -, a, ha, h⟩
  · cases hnil
  · exact Action.fault_of_fails_perform ha hm h

/-- A step counts as one change at most. -/
theorem mutations_of_yields_step {t : Step} (hm : 0 ≤ m.mutations) (h : (s.step m).Yields t) :
    m.mutations ≤ t.memory.mutations ∧ t.memory.mutations ≤ m.mutations + 1 := by
  obtain ⟨m', hemits, hmemory⟩ := (yields_step_iff hm).1 h
  have hcount := hemits.mutations_eq
  rw [hmemory]
  split
  · simp only [Memory.changed, hcount]
    omega
  · omega

/-- A step counts as many changes as its commands make. -/
theorem mutations_eq_of_yields_step {t : Step} (hm : 0 ≤ m.mutations)
    (h : (s.step m).Yields t) :
    t.memory.mutations = m.mutations + t.commands.countP fun d => d.keyword ∈ Emission.changing := by
  obtain ⟨reached, hemits, hmemory⟩ := (yields_step_iff hm).1 h
  have hreached : reached.mutations = m.mutations := hemits.mutations_eq
  have hcount : (t.commands.countP fun d => d.keyword ∈ Emission.changing) =
      if t.category.mutates then 1 else 0 := by
    rw [← hemits.countP_changing, List.countP_map]
    rfl
  rw [hmemory, hcount]
  split
  · simp [Memory.changed, hreached]
  · simp [hreached]

end Setting
end UndoScript
