/-
# Numbers that can be written

A number is written if it has at most `Numeral.limit` digits, that is if its
magnitude is below that power of ten. So a number that was read from no more
digits can be written again.

Key theorems: `Numeral.writable_iff`, `Numeral.not_writable_limit`,
`Numeral.foldl_digits_lt_limit`, `Numeral.value_lt`.
-/
import Mathlib.Algebra.Order.Ring.Int
import UndoScript.Text.Numeral

namespace UndoScript
namespace Numeral

theorem writable_iff {n : Int} : Writable n ↔ n.natAbs < 10 ^ limit := by
  unfold Writable digits
  rw [List.length_map]
  exact Nat.length_toDigits_le_iff (by decide) (by decide)

/-- Natural numbers below the power of ten are written. -/
theorem writable_of_lt {n : Nat} (h : n < 10 ^ limit) : Writable n := writable_iff.2 h

/-- Positive numbers below the power of ten are written. -/
theorem writable_of_nonneg_of_lt {n : Int} (hn : 0 ≤ n) (h : n < 10 ^ limit) : Writable n := by
  obtain ⟨k, rfl⟩ := Int.eq_ofNat_of_zero_le hn
  exact writable_of_lt (by exact_mod_cast h)

/-- The sign takes no digit. -/
theorem writable_neg_iff {n : Int} : Writable (-n) ↔ Writable n := by
  rw [writable_iff, writable_iff, Int.natAbs_neg]

/-- Numbers of eight digits are far below the power of ten. -/
theorem lt_limit {n : Nat} (h : n < 10 ^ 8) : n < 10 ^ limit :=
  h.trans_le (Nat.pow_le_pow_right (by decide) (by decide))

theorem int_lt_limit {n : Int} (h : n < 10 ^ 8) : n < 10 ^ limit :=
  h.trans_le (pow_le_pow_right₀ (by decide) (by decide))

/-- The least number that is not written. -/
theorem not_writable_limit : ¬ Writable (10 ^ limit) := by
  -- The number stays a power: its digits are counted, never written out.
  have hten : (10 : Int).natAbs = 10 := rfl
  rw [writable_iff, Int.natAbs_pow, hten]
  exact Nat.lt_irrefl _

/-! ### Numbers that were read -/

/-- Digits add no more places to a number than there are digits. -/
theorem foldl_digits_lt : ∀ {ds : List Nat} (n : Nat), (∀ d ∈ ds, d < 10) →
    ds.foldl (fun n d => 10 * n + d) n < (n + 1) * 10 ^ ds.length
  | [], n, _ => by simp
  | d :: ds, n, h => by
    have hd : d < 10 := h d List.mem_cons_self
    have hds := foldl_digits_lt (10 * n + d) fun e he => h e (List.mem_cons_of_mem d he)
    rw [List.foldl_cons]
    calc ds.foldl (fun n d => 10 * n + d) (10 * n + d)
        < (10 * n + d + 1) * 10 ^ ds.length := hds
      _ ≤ ((n + 1) * 10) * 10 ^ ds.length := Nat.mul_le_mul_right _ (by omega)
      _ = (n + 1) * 10 ^ (d :: ds).length := by rw [List.length_cons, pow_succ', Nat.mul_assoc]

/-- **Digits that are not too many make a number that is not too large.** -/
theorem foldl_digits_lt_limit {ds : List Nat} (hds : ∀ d ∈ ds, d < 10)
    (hlength : ds.length ≤ limit) : ds.foldl (fun n d => 10 * n + d) 0 < 10 ^ limit :=
  calc ds.foldl (fun n d => 10 * n + d) 0
      < (0 + 1) * 10 ^ ds.length := foldl_digits_lt 0 hds
    _ = 10 ^ ds.length := by rw [Nat.zero_add, Nat.one_mul]
    _ ≤ 10 ^ limit := Nat.pow_le_pow_right (by decide) hlength

theorem digit_lt {c : Char} (h : c.isDigit = true) : c.toNat - '0'.toNat < 10 := by
  simp only [Char.isDigit, Bool.and_eq_true, decide_eq_true_eq, ge_iff_le,
    UInt32.le_iff_toNat_le] at h
  have hzero : '0'.toNat = 48 := rfl
  have hnine : ('9'.val).toNat = 57 := rfl
  simp only [Char.toNat] at *
  omega

/-- **A run of digits spells a number of no more digits.** -/
theorem value_lt {t : Text} (h : t.length ≤ limit) : value t < 10 ^ limit := by
  have hdigits : ∀ d ∈ (t.filterMap digit?).map (fun c => c.toNat - '0'.toNat), d < 10 := by
    intro d hd
    obtain ⟨c, hc, rfl⟩ := List.mem_map.1 hd
    obtain ⟨g, -, hg⟩ := List.mem_filterMap.1 hc
    cases g with
    | byte low => cases hg
    | char e =>
      obtain ⟨he, rfl⟩ : e.isDigit = true ∧ e = c := by simpa [digit?] using hg
      exact digit_lt he
  have hlength : ((t.filterMap digit?).map (fun c => c.toNat - '0'.toNat)).length ≤ limit := by
    rw [List.length_map]
    exact Nat.le_trans (List.length_filterMap_le _ _) h
  have hlt := foldl_digits_lt_limit hdigits hlength
  rwa [List.foldl_map] at hlt

theorem writable_value {t : Text} (h : t.length ≤ limit) : Writable (value t) :=
  writable_of_lt (value_lt h)

end Numeral
end UndoScript
