/-
# What a sampler can come to

A source answers each question of a sampler with some number below the bound,
and every number below it is the answer of some source. So all that a sampler
can come to is on its tree: a value at the end of a branch (`Yields`), or a
failure, where it fails or asks for a number below zero (`Fails`).

A branch is taken by a tape with its answers in order, whatever the tape holds
after them.

Key definitions: `Sampler.Yields`, `Sampler.Fails`.
Key theorems: `Sampler.yields_bind`, `Sampler.fails_bind`,
`Sampler.yields_of_run`, `Sampler.fails_of_run`, `Sampler.exists_draws_of_yields`.
-/
import UndoScript.Chance.Tape

namespace UndoScript
namespace Sampler

variable {α β : Type}

/-- Some answers lead the sampler to this value. -/
inductive Yields : Sampler α → α → Prop
  | done (a : α) : Yields (.done a) a
  | ask {n : Nat} {next : Fin n → Sampler α} {a : α} (i : Fin n) :
    Yields (next i) a → Yields (.ask n next) a

/-- Some answers lead the sampler to this failure. -/
inductive Fails : Sampler α → Fault → Prop
  | fail (f : Fault) : Fails (.fail f) f
  | empty (next : Fin 0 → Sampler α) : Fails (.ask 0 next) .emptyRange
  | ask {n : Nat} {next : Fin n → Sampler α} {f : Fault} (i : Fin n) :
    Fails (next i) f → Fails (.ask n next) f

/-! ### Values, one operation after the other -/

@[simp] theorem yields_pure {a b : α} : Yields (pure a) b ↔ b = a :=
  ⟨fun h => by cases h; rfl, fun h => h ▸ .done a⟩

@[simp] theorem yields_fail {f : Fault} {a : α} : ¬ Yields (.fail f) a := fun h => by cases h

theorem yields_ask {n : Nat} {next : Fin n → Sampler α} {a : α} :
    Yields (.ask n next) a ↔ ∃ i, Yields (next i) a :=
  ⟨fun h => by cases h with | ask i h => exact ⟨i, h⟩, fun ⟨i, h⟩ => .ask i h⟩

@[simp] theorem yields_bind {f : α → Sampler β} {b : β} : ∀ {m : Sampler α},
    Yields (m >>= f) b ↔ ∃ a, Yields m a ∧ Yields (f a) b
  | .done a => by
    show Yields (f a) b ↔ _
    exact ⟨fun h => ⟨a, .done a, h⟩, fun ⟨_, ha, h⟩ => by cases ha; exact h⟩
  | .fail e => by
    show Yields (.fail e) b ↔ _
    simp
  | .ask n next => by
    show Yields (.ask n fun i => next i >>= f) b ↔ _
    simp only [yields_ask, yields_bind]
    exact ⟨fun ⟨i, a, ha, h⟩ => ⟨a, ⟨i, ha⟩, h⟩, fun ⟨a, ⟨i, ha⟩, h⟩ => ⟨i, a, ha, h⟩⟩

theorem map_eq_bind (f : α → β) (m : Sampler α) : f <$> m = m >>= fun a => pure (f a) := rfl

@[simp] theorem yields_map {f : α → β} {m : Sampler α} {b : β} :
    Yields (f <$> m) b ↔ ∃ a, Yields m a ∧ b = f a := by
  simp only [map_eq_bind, yields_bind, yields_pure]

@[simp] theorem yields_liftM {r : Except Fault α} {a : α} :
    Yields (liftM r) a ↔ r = .ok a := by
  show Yields (ofExcept r) a ↔ _
  cases r with
  | ok b => exact (yields_pure (a := b)).trans (by simp [eq_comm])
  | error f => simp [ofExcept]

@[simp] theorem yields_draw {n : Nat} {i : Fin n} : Yields (draw n) i :=
  .ask i (.done i)

@[simp] theorem yields_drawFrom {low count k : Nat} :
    Yields (drawFrom low count) k ↔ low ≤ k ∧ k < low + count := by
  simp only [drawFrom, yields_ask]
  constructor
  · rintro ⟨i, h⟩
    cases h
    exact ⟨Nat.le_add_right _ _, Nat.add_lt_add_left i.isLt _⟩
  · rintro ⟨hlow, hlt⟩
    refine ⟨⟨k - low, by omega⟩, ?_⟩
    have hk : low + (k - low) = k := by omega
    simpa [hk] using Yields.done (low + (k - low))

@[simp] theorem yields_choose {xs : List α} {a : α} : Yields (choose xs) a ↔ a ∈ xs := by
  simp only [choose, yields_ask]
  constructor
  · rintro ⟨i, h⟩
    cases h
    exact List.getElem_mem i.isLt
  · intro h
    obtain ⟨i, hi, rfl⟩ := List.getElem_of_mem h
    exact ⟨⟨i, hi⟩, .done _⟩

/-! ### Failures, one operation after the other -/

@[simp] theorem fails_pure {a : α} {f : Fault} : ¬ Fails (pure a) f := fun h => by cases h

@[simp] theorem fails_fail {e f : Fault} : Fails (.fail e : Sampler α) f ↔ f = e :=
  ⟨fun h => by cases h; rfl, fun h => h ▸ .fail e⟩

theorem fails_ask {n : Nat} {next : Fin n → Sampler α} {f : Fault} :
    Fails (.ask n next) f ↔ (n = 0 ∧ f = .emptyRange) ∨ ∃ i, Fails (next i) f := by
  constructor
  · intro h
    cases h with
    | empty => exact .inl ⟨rfl, rfl⟩
    | ask i h => exact .inr ⟨i, h⟩
  · rintro (⟨rfl, rfl⟩ | ⟨i, h⟩)
    · exact .empty next
    · exact .ask i h

@[simp] theorem fails_bind {f : α → Sampler β} {e : Fault} : ∀ {m : Sampler α},
    Fails (m >>= f) e ↔ Fails m e ∨ ∃ a, Yields m a ∧ Fails (f a) e
  | .done a => by
    show Fails (f a) e ↔ _
    constructor
    · exact fun h => .inr ⟨a, .done a, h⟩
    · rintro (h | ⟨_, ha, h⟩)
      · cases h
      · cases ha
        exact h
  | .fail g => by
    show Fails (.fail g) e ↔ _
    simp
  | .ask n next => by
    show Fails (.ask n fun i => next i >>= f) e ↔ _
    simp only [fails_ask, yields_ask, fails_bind]
    constructor
    · rintro (h | ⟨i, h | ⟨a, ha, h⟩⟩)
      · exact .inl (.inl h)
      · exact .inl (.inr ⟨i, h⟩)
      · exact .inr ⟨a, ⟨i, ha⟩, h⟩
    · rintro ((h | ⟨i, h⟩) | ⟨a, ⟨i, ha⟩, h⟩)
      · exact .inl h
      · exact .inr ⟨i, .inl h⟩
      · exact .inr ⟨i, .inr ⟨a, ha, h⟩⟩

@[simp] theorem fails_map {f : α → β} {m : Sampler α} {e : Fault} :
    Fails (f <$> m) e ↔ Fails m e := by
  simp [map_eq_bind]

@[simp] theorem fails_liftM {r : Except Fault α} {f : Fault} :
    Fails (liftM r : Sampler α) f ↔ r = .error f := by
  show Fails (ofExcept r) f ↔ _
  cases r with
  | ok b => exact iff_of_false fails_pure (by simp)
  | error g => simp [ofExcept, eq_comm]

@[simp] theorem fails_draw {n : Nat} {f : Fault} : Fails (draw n) f ↔ n = 0 ∧ f = .emptyRange := by
  simp only [draw, fails_ask, or_iff_left_iff_imp]
  exact fun ⟨_, h⟩ => absurd h fails_pure

@[simp] theorem fails_drawFrom {low count : Nat} {f : Fault} :
    Fails (drawFrom low count) f ↔ count = 0 ∧ f = .emptyRange := by
  simp only [drawFrom, fails_ask, or_iff_left_iff_imp]
  exact fun ⟨_, h⟩ => absurd h fails_pure

@[simp] theorem fails_choose {xs : List α} {f : Fault} :
    Fails (choose xs) f ↔ xs = [] ∧ f = .emptyRange := by
  simp only [choose, fails_ask, List.length_eq_zero_iff, or_iff_left_iff_imp]
  exact fun ⟨_, h⟩ => absurd h fails_pure

/-! ### What a source makes of it -/

section Run

variable {σ : Type} [Source σ]

/-- One draw asks the source once. -/
theorem run_map_draw {n : Nat} (h : 0 < n) (f : Fin n → α) (s : σ) :
    run (f <$> draw n) s = (.ok (f (Source.below n h s).1), (Source.below n h s).2) := by
  cases n with
  | zero => exact absurd h (Nat.lt_irrefl 0)
  | succ n => rfl

theorem run_drawFrom {low count : Nat} (h : 0 < count) (s : σ) : run (drawFrom low count) s =
    (.ok (low + (Source.below count h s).1), (Source.below count h s).2) :=
  run_map_draw h (fun i => low + i.val) s

/-- A value that a source leads to is on the tree. -/
theorem yields_of_run : ∀ {m : Sampler α} {s s' : σ} {a : α}, run m s = (.ok a, s') → Yields m a
  | .done b, s, s', a, h => by
    simp only [run, Prod.mk.injEq, Except.ok.injEq] at h
    exact h.1 ▸ .done b
  | .fail f, s, s', a, h => by simp [run] at h
  | .ask 0 next, s, s', a, h => by simp [run] at h
  | .ask (n + 1) next, s, s', a, h => .ask _ (yields_of_run h)

/-- A failure that a source leads to is on the tree. -/
theorem fails_of_run : ∀ {m : Sampler α} {s s' : σ} {f : Fault},
    run m s = (.error f, s') → Fails m f
  | .done b, s, s', f, h => by simp [run] at h
  | .fail g, s, s', f, h => by
    simp only [run, Prod.mk.injEq, Except.error.injEq] at h
    exact h.1 ▸ .fail g
  | .ask 0 next, s, s', f, h => by
    simp only [run, Prod.mk.injEq, Except.error.injEq] at h
    exact h.1 ▸ .empty next
  | .ask (n + 1) next, s, s', f, h => .ask _ (fails_of_run h)

/-- A sampler that cannot fail finds a value with every source. -/
theorem exists_run_of_not_fails {m : Sampler α} (h : ∀ f, ¬ Fails m f) (s : σ) :
    ∃ a s', run m s = (.ok a, s') := by
  cases hrun : run m s with
  | mk r s' =>
    cases r with
    | ok a => exact ⟨a, s', rfl⟩
    | error f => exact absurd (fails_of_run hrun) (h f)

end Run

/-- A tape that starts with a number below the bound answers with it. -/
theorem below_tape {n : Nat} (h : 0 < n) (i : Fin n) (rest asked : List Nat) :
    Source.below n h (⟨i.val :: rest, asked⟩ : Tape) = (i, ⟨rest, n :: asked⟩) := by
  have hi : (⟨i.val % n, Nat.mod_lt _ h⟩ : Fin n) = i := Fin.ext (Nat.mod_eq_of_lt i.isLt)
  simp only [Source.below, Tape.below, hi]

/-- **Every value on the tree is drawn** by a tape that starts with its draws. -/
theorem exists_draws_of_yields {m : Sampler α} {a : α} (h : Yields m a) :
    ∃ draws : List Nat, ∀ rest asked, ∃ asked',
      run m (⟨draws ++ rest, asked⟩ : Tape) = (.ok a, ⟨rest, asked'⟩) := by
  induction h with
  | done a => exact ⟨[], fun rest asked => ⟨asked, rfl⟩⟩
  | @ask n next a i h ih =>
    obtain ⟨draws, hdraws⟩ := ih
    cases n with
    | zero => exact i.elim0
    | succ n =>
      refine ⟨i.val :: draws, fun rest asked => ?_⟩
      obtain ⟨asked', hrun⟩ := hdraws rest ((n + 1) :: asked)
      refine ⟨asked', ?_⟩
      simp only [run, List.cons_append, below_tape]
      exact hrun

end Sampler
end UndoScript
