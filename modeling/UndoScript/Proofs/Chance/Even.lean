/-
# Even draws

Draws are even if each number below the bound is as likely as any other. The
chance that a sampler then has for a value is read off its tree; if it draws
once, the chance is the share of the draws that lead to the value.

A sampler can be tried until it finds a good value. A try that misses leaves
the next one the same chances, so the chance to have found a value within some
tries is that of the first try times a geometric sum. A sampler that finds good
values only, in the proportions in which the other one finds them, has the
chances that this comes to.

Key definitions: `Sampler.mean`, `Sampler.chance`, `Sampler.drawsTo`,
`Sampler.firstGood`, `Sampler.miss`, `Sampler.Selects`.
Key theorems: `Sampler.mean_bind`, `Sampler.drawsTo_map_draw`,
`Sampler.chance_map_draw`, `Sampler.mean_firstGood`,
`Sampler.chance_firstGood_none`, `Sampler.Selects.chance_firstGood`,
`Sampler.Selects.tendsto_chance_firstGood`.
-/
import Mathlib
import UndoScript.Proofs.Chance.Outcome

namespace UndoScript
namespace Sampler

variable {α β : Type}

/-- The mean of `f` over what is found if draws are even. A failure counts nothing. -/
def mean (f : α → ℚ) : Sampler α → ℚ
  | .done a => f a
  | .fail _ => 0
  | .ask n next => (∑ i, mean f (next i)) / n

/-- The chance that even draws lead to `a`. -/
def chance [DecidableEq α] (m : Sampler α) (a : α) : ℚ := m.mean fun b => if b = a then 1 else 0

/-- The draws below `n` that lead to `a`: whatever source answers so, that one draw finds `a`. -/
def drawsTo (m : Sampler α) (n : Nat) (a : α) : Set (Fin n) :=
  {i | ∀ (σ : Type) [Source σ] (hn : 0 < n) (s s' : σ),
    Source.below n hn s = (i, s') → m.run s = (.ok a, s')}

/-! ### Means -/

@[simp] theorem mean_pure (f : α → ℚ) (a : α) : mean f (pure a) = f a := rfl

/-- **The mean over two samplers in turn** is the first one's mean of the second one's. -/
theorem mean_bind (f : β → ℚ) (g : α → Sampler β) :
    ∀ m : Sampler α, mean f (m >>= g) = mean (fun a => mean f (g a)) m
  | .done _ => rfl
  | .fail _ => rfl
  | .ask n next => by
    show (∑ i, mean f (next i >>= g)) / (n : ℚ) = (∑ i, mean _ (next i)) / (n : ℚ)
    simp only [mean_bind f g]

theorem mean_zero : ∀ m : Sampler α, mean (fun _ => 0) m = 0
  | .done _ => rfl
  | .fail _ => rfl
  | .ask n next => by simp [mean, mean_zero]

theorem mean_nonneg {f : α → ℚ} (hf : ∀ a, 0 ≤ f a) : ∀ m : Sampler α, 0 ≤ mean f m
  | .done a => hf a
  | .fail _ => le_rfl
  | .ask n next => div_nonneg (Finset.sum_nonneg fun i _ => mean_nonneg hf (next i)) n.cast_nonneg

theorem mean_add_mul (f g : α → ℚ) (c : ℚ) :
    ∀ m : Sampler α, mean (fun a => f a + g a * c) m = mean f m + mean g m * c
  | .done _ => rfl
  | .fail _ => by simp [mean]
  | .ask n next => by
    simp only [mean, mean_add_mul f g c, Finset.sum_add_distrib, ← Finset.sum_mul]
    ring

/-! ### One draw -/

/-- **One draw leads where it is taken.** -/
theorem drawsTo_map_draw {n : Nat} (f : Fin n → α) (a : α) :
    (f <$> draw n).drawsTo n a = {i | f i = a} := by
  ext i
  constructor
  · intro h
    have hrun := h Tape i.pos ⟨[i], []⟩ ⟨[], [n]⟩ (below_tape i.pos i [] [])
    rw [run_map_draw i.pos, below_tape] at hrun
    simpa using hrun
  · rintro rfl σ _ hn s s' hs
    rw [run_map_draw hn, hs]

theorem drawsTo_fail (f : Fault) (n : Nat) (a : α) : (fail f).drawsTo n a = ∅ := by
  rw [Set.eq_empty_iff_forall_notMem]
  intro i h
  simpa [run] using h Tape i.pos ⟨[i], []⟩ ⟨[], [n]⟩ (below_tape i.pos i [] [])

/-- **The chance of a value is the share of the draws that lead to it.** -/
theorem chance_map_draw [DecidableEq α] {n : Nat} (f : Fin n → α) (a : α) :
    (f <$> draw n).chance a = ((f <$> draw n).drawsTo n a).ncard / n := by
  rw [drawsTo_map_draw, Set.ncard_eq_toFinset_card', Set.toFinset_ofPred, Finset.natCast_card_filter]
  rfl

/-- A member with some value is drawn by as many draws as there are such members. -/
theorem ncard_setOf_get [BEq β] [LawfulBEq β] (xs : List α) (f : α → β) (b : β) :
    {i | f (xs.get i) = b}.ncard = (xs.map f).count b := by
  classical
  calc {i | f (xs.get i) = b}.ncard
      = ∑ i, if f (xs.get i) = b then 1 else 0 := by
        rw [Set.ncard_eq_toFinset_card', Set.toFinset_ofPred, Finset.card_filter]
    _ = (xs.map fun x => if f x = b then 1 else 0).sum :=
        Fin.sum_univ_fun_getElem xs fun x => if f x = b then 1 else 0
    _ = (xs.map f).count b := by
        induction xs with
        | nil => rfl
        | cons x xs ih =>
          simp only [List.map_cons, List.sum_cons, ih, List.count_cons, beq_iff_eq, add_comm]

/-! ### Trying until a value is good -/

/-- The first good value of so many, or none. When a value is good, no more are drawn. -/
def firstGood (good : α → Prop) [DecidablePred good] (m : Sampler α) : Nat → Sampler (Option α)
  | 0 => pure none
  | tries + 1 => do
    let a ← m
    if good a then pure (some a) else firstGood good m tries

/-- The chance that a value is found and is not good. -/
def miss (good : α → Prop) [DecidablePred good] (m : Sampler α) : ℚ :=
  m.mean fun a => if good a then 0 else 1

variable {good : α → Prop} [DecidablePred good] {m : Sampler α}

/-- One more try comes to a good value, or misses and leaves the tries there were. -/
theorem mean_firstGood_succ (f : Option α → ℚ) (tries : Nat) :
    (m.firstGood good (tries + 1)).mean f =
      (m.mean fun a => if good a then f (some a) else 0) +
        m.miss good * (m.firstGood good tries).mean f := by
  rw [firstGood, mean_bind, miss, ← mean_add_mul]
  congr 1
  funext a
  split <;> simp

/-- **A try counts only if all those before it missed,** and nothing is found if all of them did. -/
theorem mean_firstGood (f : Option α → ℚ) (tries : Nat) :
    (m.firstGood good tries).mean f =
      (∑ k ∈ Finset.range tries, m.miss good ^ k) *
        (m.mean fun a => if good a then f (some a) else 0) + m.miss good ^ tries * f none := by
  induction tries with
  | zero => simp [firstGood]
  | succ tries ih =>
    rw [mean_firstGood_succ, ih, geom_sum_succ, pow_succ']
    ring

variable [DecidableEq α]

theorem chance_firstGood_none (tries : Nat) :
    (m.firstGood good tries).chance none = m.miss good ^ tries := by
  have hfirst : (m.mean fun a => if good a then (if some a = none then 1 else 0) else 0) = 0 := by
    simp [mean_zero]
  rw [chance, mean_firstGood, hfirst, mul_zero, zero_add, if_pos rfl, mul_one]

/-- In a first try the value is found if it is good. -/
theorem mean_good_and_eq (a : α) :
    (m.mean fun b => if good b then (if some b = some a then 1 else 0) else 0) =
      if good a then m.chance a else 0 := by
  by_cases ha : good a
  · have hsame : (fun b => if good b then (if some b = some a then 1 else 0) else 0) =
        fun b => if b = a then (1 : ℚ) else 0 := by
      funext b
      by_cases hb : b = a <;> simp [hb, ha]
    rw [if_pos ha, hsame]
    rfl
  · have hnone : (fun b => if good b then (if some b = some a then 1 else 0) else 0) =
        fun _ => (0 : ℚ) := by
      funext b
      by_cases hb : b = a <;> simp [hb, ha]
    rw [if_neg ha, hnone, mean_zero]

/-- Finds what the other sampler finds if it is good, as often as that one does among its good
values, and nothing that is not good. -/
structure Selects (good : α → Prop) [DecidablePred good] (direct m : Sampler α) : Prop where
  chance_of_good : ∀ a, good a → m.chance a = (1 - m.miss good) * direct.chance a
  chance_of_bad : ∀ a, ¬ good a → direct.chance a = 0

namespace Selects

variable {direct : Sampler α}

/-- **Within some tries a value is found with the chance of finding it directly,** but for the
chance that all of them miss. -/
theorem chance_firstGood (h : Selects good direct m) (tries : Nat) (a : α) :
    (m.firstGood good tries).chance (some a) = (1 - m.miss good ^ tries) * direct.chance a := by
  have hfirst : (if good a then m.chance a else 0) = (1 - m.miss good) * direct.chance a := by
    split
    · next ha => exact h.chance_of_good a ha
    · next ha => rw [h.chance_of_bad a ha, mul_zero]
  have hnone : ¬ (none : Option α) = some a := nofun
  calc (m.firstGood good tries).chance (some a)
      = (∑ k ∈ Finset.range tries, m.miss good ^ k) * ((1 - m.miss good) * direct.chance a) := by
        rw [chance, mean_firstGood, mean_good_and_eq, hfirst, if_neg hnone, mul_zero, add_zero]
    _ = (1 - m.miss good ^ tries) * direct.chance a := by rw [← mul_assoc, geom_sum_mul_neg]

/-- **Trying until a value is good comes to the chances of finding it directly.** -/
theorem tendsto_chance_firstGood (h : Selects good direct m) (hmiss : m.miss good < 1) (a : α) :
    Filter.Tendsto (fun tries => (m.firstGood good tries).chance (some a)) Filter.atTop
      (nhds (direct.chance a)) := by
  have hnonneg : 0 ≤ m.miss good := mean_nonneg (fun b => by split <;> norm_num) m
  have hpow := tendsto_pow_atTop_nhds_zero_of_lt_one hnonneg hmiss
  simpa only [h.chance_firstGood, sub_zero, one_mul] using
    (hpow.const_sub 1).mul_const (direct.chance a)

end Selects

end Sampler
end UndoScript
