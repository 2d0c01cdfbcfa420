import SocTalk.Lib.Float
import Mathlib.Tactic.Linarith

/-! The order of doubles. -/
namespace Py.FloatVal

theorem fin_lt_fin {p q : ℚ} : (fin p).lt (fin q) = true ↔ p < q := decide_eq_true_iff

theorem fin_le_fin {p q : ℚ} : (fin p).le (fin q) = true ↔ p ≤ q := by
  simp only [le, lt, eq, Bool.or_eq_true, decide_eq_true_eq]
  exact le_iff_lt_or_eq.symm

theorem le_of_lt {a b : FloatVal} (h : a.lt b = true) : a.le b = true := by
  unfold le
  rw [h]
  rfl

theorem lt_trans {a b c : FloatVal} (hab : a.lt b = true) (hbc : b.lt c = true) :
    a.lt c = true := by
  cases a <;> cases b <;> cases c <;> simp only [lt, decide_eq_true_eq] at hab hbc ⊢
  · linarith
  all_goals trivial

theorem lt_of_lt_of_le {a b c : FloatVal} (hab : a.lt b = true) (hbc : b.le c = true) :
    a.lt c = true := by
  rcases Bool.or_eq_true_iff.mp hbc with hlt | heq
  · exact lt_trans hab hlt
  · cases b <;> cases c <;> simp only [eq, decide_eq_true_eq] at heq
    · rw [← heq]
      exact hab
    all_goals first | exact hab | cases heq

theorem pos_cases {x : FloatVal} (h : (fin 0).lt x = true) :
    x = .posInf ∨ ∃ q : ℚ, x = .fin q ∧ 0 < q := by
  cases x with
  | fin q => exact .inr ⟨q, rfl, fin_lt_fin.mp h⟩
  | posInf => exact .inl rfl
  | negInf | nan => cases h

end Py.FloatVal
