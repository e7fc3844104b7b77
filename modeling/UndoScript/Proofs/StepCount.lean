/-
# Which values are step counts

A value is a step count or it is refused, and for one cause: a text that spells
no number, digits too many to be read, or a value of another kind. A number of
another kind that is too large to be shown is refused all the same, only
without being shown.

Key definitions: `StepCount.Accepts`, `StepCount.Refuses`.
Key theorems: `StepCount.ofLiteral_eq_ok_iff`, `StepCount.ofLiteral_eq_error_iff`.
-/
import UndoScript.StepCount

namespace UndoScript
namespace StepCount

/-- The value stands for this count. -/
inductive Accepts : Literal → Nat → Prop
  | whole (n : Nat) : Accepts (.whole n) n
  | text {t : Text} : Numeral.isNumeral (t.trim Glyph.isBlank) = true →
    (t.trim Glyph.isBlank).length ≤ Numeral.limit →
    Accepts (.text t) (Numeral.value (t.trim Glyph.isBlank))

/-- The value stands for no count, for this cause. -/
inductive Refuses : Literal → Fault → Prop
  | noNumeral {t : Text} : Numeral.isNumeral (t.trim Glyph.isBlank) = false →
    Refuses (.text t) (.stepCountRefused (.text t))
  | tooLong {t : Text} : Numeral.isNumeral (t.trim Glyph.isBlank) = true →
    Numeral.limit < (t.trim Glyph.isBlank).length →
    Refuses (.text t) (.numeralTooLong (t.trim Glyph.isBlank).length)
  | otherKind {value : Literal} : (∀ t, value ≠ .text t) → (∀ n : Nat, value ≠ .whole n) →
    Refuses value (refusal value)

theorem accepts_text_iff {t : Text} {n : Nat} : Accepts (.text t) n ↔
    Numeral.isNumeral (t.trim Glyph.isBlank) = true ∧
      (t.trim Glyph.isBlank).length ≤ Numeral.limit ∧ n = Numeral.value (t.trim Glyph.isBlank) :=
  ⟨fun h => by cases h with | text hnumeral hlength => exact ⟨hnumeral, hlength, rfl⟩,
    fun ⟨hnumeral, hlength, hn⟩ => hn ▸ .text hnumeral hlength⟩

theorem accepts_whole_iff {k : Int} {n : Nat} : Accepts (.whole k) n ↔ k = n :=
  ⟨fun h => by cases h; rfl, fun h => h ▸ .whole n⟩

theorem refuses_text_iff {t : Text} {f : Fault} : Refuses (.text t) f ↔
    (Numeral.isNumeral (t.trim Glyph.isBlank) = false ∧ f = .stepCountRefused (.text t)) ∨
    (Numeral.isNumeral (t.trim Glyph.isBlank) = true ∧
      Numeral.limit < (t.trim Glyph.isBlank).length ∧
      f = .numeralTooLong (t.trim Glyph.isBlank).length) := by
  constructor
  · intro h
    cases h with
    | noNumeral hnumeral => exact .inl ⟨hnumeral, rfl⟩
    | tooLong hnumeral hlength => exact .inr ⟨hnumeral, hlength, rfl⟩
    | otherKind htext => exact absurd rfl (htext t)
  · rintro (⟨hnumeral, rfl⟩ | ⟨hnumeral, hlength, rfl⟩)
    · exact .noNumeral hnumeral
    · exact .tooLong hnumeral hlength

theorem refuses_otherKind_iff {value : Literal} {f : Fault} (htext : ∀ t, value ≠ .text t)
    (hwhole : ∀ n : Nat, value ≠ .whole n) : Refuses value f ↔ f = refusal value := by
  constructor
  · intro h
    cases h with
    | noNumeral => exact absurd rfl (htext _)
    | tooLong => exact absurd rfl (htext _)
    | otherKind => rfl
  · rintro rfl
    exact .otherKind htext hwhole

/-- A whole number below zero is refused. -/
theorem refuses_of_neg {k : Int} (hk : k < 0) : Refuses (.whole k) (refusal (.whole k)) := by
  refine .otherKind (fun _ => nofun) fun n hn => ?_
  obtain rfl : k = n := Literal.whole.inj hn
  exact absurd hk (Int.not_lt.2 (Int.natCast_nonneg n))

/-- A number that cannot be shown is refused without being shown. -/
theorem refusal_of_not_writable {k : Int} (hk : ¬ Numeral.Writable k) :
    refusal (.whole k) = .numberTooLarge := by
  refine if_neg fun hshown => hk ?_
  simpa [Fault.Renders, Literal.isWritable] using hshown

/-- **What is accepted is counted,** and nothing else. -/
theorem ofLiteral_eq_ok_iff {value : Literal} {n : Nat} :
    ofLiteral value = .ok n ↔ Accepts value n := by
  cases value with
  | text t =>
    rw [accepts_text_iff]
    show ofText t = .ok n ↔ _
    unfold ofText
    dsimp only
    by_cases hnumeral : Numeral.isNumeral (t.trim Glyph.isBlank) = true
    · rw [if_pos hnumeral]
      by_cases hlength : (t.trim Glyph.isBlank).length ≤ Numeral.limit
      · rw [if_pos hlength, Except.ok.injEq]
        exact ⟨fun h => ⟨hnumeral, hlength, h.symm⟩, fun h => h.2.2.symm⟩
      · rw [if_neg hlength]
        exact ⟨fun h => (by cases h), fun h => absurd h.2.1 hlength⟩
    · rw [if_neg hnumeral]
      exact ⟨fun h => (by cases h), fun h => absurd h.1 hnumeral⟩
  | whole k =>
    rw [accepts_whole_iff]
    cases k with
    | ofNat k =>
      show Except.ok k = Except.ok n ↔ (k : Int) = n
      rw [Except.ok.injEq, Int.natCast_inj]
    | negSucc k => simp [ofLiteral]
  | _ => exact ⟨fun h => (by cases h), fun h => (by cases h)⟩

/-- **What is not accepted is refused,** for its one cause. -/
theorem ofLiteral_eq_error_iff {value : Literal} {f : Fault} :
    ofLiteral value = .error f ↔ Refuses value f := by
  cases value with
  | text t =>
    rw [refuses_text_iff]
    show ofText t = .error f ↔ _
    unfold ofText
    dsimp only
    by_cases hnumeral : Numeral.isNumeral (t.trim Glyph.isBlank) = true
    · rw [if_pos hnumeral, hnumeral]
      by_cases hlength : (t.trim Glyph.isBlank).length ≤ Numeral.limit
      · rw [if_pos hlength]
        refine ⟨fun h => (by cases h), ?_⟩
        rintro (⟨hno, -⟩ | ⟨-, hlong, -⟩)
        · cases hno
        · omega
      · rw [if_neg hlength, Except.error.injEq]
        refine ⟨fun h => .inr ⟨rfl, by omega, h.symm⟩, ?_⟩
        rintro (⟨hno, -⟩ | ⟨-, -, rfl⟩)
        · cases hno
        · rfl
    · rw [if_neg hnumeral, Except.error.injEq]
      refine ⟨fun h => .inl ⟨Bool.not_eq_true _ ▸ hnumeral, h.symm⟩, ?_⟩
      rintro (⟨-, rfl⟩ | ⟨hyes, -⟩)
      · rfl
      · exact absurd hyes hnumeral
  | whole k =>
    cases k with
    | ofNat k =>
      refine ⟨fun h => (by cases h), fun h => ?_⟩
      cases h with
      | otherKind _ hwhole => exact absurd rfl (hwhole k)
    | negSucc k =>
      rw [refuses_otherKind_iff (by simp) (by simp)]
      exact ⟨fun h => (Except.error.inj h).symm, fun h => h ▸ rfl⟩
  | _ =>
    rw [refuses_otherKind_iff (by simp) (by simp)]
    exact ⟨fun h => (Except.error.inj h).symm, fun h => h ▸ rfl⟩

end StepCount
end UndoScript
