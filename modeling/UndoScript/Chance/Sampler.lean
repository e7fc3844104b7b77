/-
# Random choices

What is random is described apart from where chance comes from. A sampler is a
tree: it is done, or fails, or asks for one of the numbers below some bound
and goes on with the answer. A source answers such questions and goes over
into a new state; it keeps that state when the sampler fails.

Key definitions: `Sampler`, `Sampler.draw`, `Sampler.choose`, `Source`,
`Sampler.run`.
Key theorems: `Sampler.run_pure`, `Sampler.run_bind`.
-/
import UndoScript.Fault

namespace UndoScript

/-- A value found by drawing numbers, each below a bound of its own. -/
inductive Sampler (α : Type)
  /-- The value is found. -/
  | done (a : α)
  /-- No value can be found. -/
  | fail (f : Fault)
  /-- A number below `n` is drawn. -/
  | ask (n : Nat) (next : Fin n → Sampler α)

/-- A source of chance: any state that answers with a number below a positive bound. -/
class Source (σ : Type) where
  /-- The answer and the state that the source is left in. -/
  below (n : Nat) (positive : 0 < n) (s : σ) : Fin n × σ

namespace Sampler

variable {α β : Type}

/-- Goes on with the value that was found. -/
def bind : Sampler α → (α → Sampler β) → Sampler β
  | .done a, f => f a
  | .fail e, _ => .fail e
  | .ask n next, f => .ask n fun i => bind (next i) f

instance : Monad Sampler where
  pure := .done
  bind := bind

/-- What needs no chance, but may fail. -/
def ofExcept : Except Fault α → Sampler α
  | .ok a => .done a
  | .error f => .fail f

instance : MonadLift (Except Fault) Sampler := ⟨ofExcept⟩

/-- Any number below `n`. -/
def draw (n : Nat) : Sampler (Fin n) := .ask n .done

/-- Any number of `low`, `low + 1`, …, `count` of them. -/
def drawFrom (low count : Nat) : Sampler Nat := .ask count fun i => .done (low + i)

/-- Any member of a list. -/
def choose (xs : List α) : Sampler α := .ask xs.length fun i => .done xs[i]

/-- What the sampler finds with the answers of a source, and the state the source is left in.
A draw below zero fails, and the source is not asked. -/
def run {σ : Type} [Source σ] : Sampler α → σ → Except Fault α × σ
  | .done a, s => (.ok a, s)
  | .fail f, s => (.error f, s)
  | .ask 0 _, s => (.error .emptyRange, s)
  | .ask (n + 1) next, s =>
    let (i, s) := Source.below (n + 1) (Nat.succ_pos n) s
    run (next i) s

variable {σ : Type} [Source σ]

@[simp] theorem run_pure (a : α) (s : σ) : run (pure a) s = (.ok a, s) := rfl

/-- **Running two samplers in turn** hands the source on, unless the first fails. -/
theorem run_bind : ∀ (m : Sampler α) (f : α → Sampler β) (s : σ), run (m >>= f) s =
    match run m s with
    | (.ok a, s) => run (f a) s
    | (.error e, s) => (.error e, s)
  | .done _, _, _ => rfl
  | .fail _, _, _ => rfl
  | .ask 0 _, _, _ => rfl
  | .ask (_ + 1) next, f, _ => run_bind (next _) f _

end Sampler
end UndoScript
