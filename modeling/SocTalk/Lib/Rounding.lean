import SocTalk.Lib.Float
import Mathlib.Algebra.Order.Field.Power
import Mathlib.Data.Int.Log
import Mathlib.Data.Rat.Cast.Order
import Mathlib.Tactic.Linarith
import Mathlib.Tactic.NormNum
import Mathlib.Tactic.Positivity
import Mathlib.Tactic.Ring

/-! The rounding of doubles: the exponent is the logarithm, and what is larger is not rounded to
less. -/
namespace Py.FloatVal

/-! ## The exponent -/

theorem abs_eq_natAbs_div (q : ℚ) : |q| = (q.num.natAbs : ℚ) / q.den := by
  have hden : |(q.den : ℚ)| = q.den := abs_of_nonneg (Nat.cast_nonneg _)
  calc |q| = |(q.num : ℚ) / q.den| := by rw [Rat.num_div_den]
    _ = |(q.num : ℚ)| / q.den := by rw [abs_div, hden]
    _ = (q.num.natAbs : ℚ) / q.den := by rw [Nat.cast_natAbs, Int.cast_abs]

theorem ilog_eq_log {b : ℕ} (hb : 1 < b) {q : ℚ} (hq : q ≠ 0) : ilog b q = Int.log b |q| := by
  have hb0 : (0 : ℚ) < b := by exact_mod_cast (by omega : 0 < b)
  have hn : q.num.natAbs ≠ 0 := Int.natAbs_ne_zero.mpr (Rat.num_ne_zero.mpr hq)
  have hd : q.den ≠ 0 := q.den_ne_zero
  have hd0 : (0 : ℚ) < q.den := by exact_mod_cast q.den_pos
  have habs := abs_eq_natAbs_div q
  have hpos : 0 < |q| := abs_pos.mpr hq
  have hnlow : (b : ℚ) ^ Nat.log b q.num.natAbs ≤ q.num.natAbs := by
    exact_mod_cast Nat.pow_log_le_self b hn
  have hnhigh : (q.num.natAbs : ℚ) < (b : ℚ) ^ (Nat.log b q.num.natAbs + 1) := by
    exact_mod_cast Nat.lt_pow_succ_log_self hb _
  have hdlow : (b : ℚ) ^ Nat.log b q.den ≤ q.den := by
    exact_mod_cast Nat.pow_log_le_self b hd
  have hdhigh : (q.den : ℚ) < (b : ℚ) ^ (Nat.log b q.den + 1) := by
    exact_mod_cast Nat.lt_pow_succ_log_self hb _
  obtain ⟨k, hk⟩ : ∃ k : ℤ, k = Nat.log b q.num.natAbs - Nat.log b q.den := ⟨_, rfl⟩
  -- The difference of the logarithms is the exponent or one more.
  have hupper : Int.log b |q| < k + 1 := by
    rw [← Int.lt_zpow_iff_log_lt hb hpos, habs, div_lt_iff₀ hd0]
    have hsplit : (b : ℚ) ^ (k + 1) * (b : ℚ) ^ Nat.log b q.den =
        (b : ℚ) ^ (Nat.log b q.num.natAbs + 1) := by
      rw [← zpow_natCast, ← zpow_natCast, ← zpow_add₀ hb0.ne']
      congr 1
      omega
    calc (q.num.natAbs : ℚ) < (b : ℚ) ^ (Nat.log b q.num.natAbs + 1) := hnhigh
      _ = (b : ℚ) ^ (k + 1) * (b : ℚ) ^ Nat.log b q.den := hsplit.symm
      _ ≤ (b : ℚ) ^ (k + 1) * q.den := mul_le_mul_of_nonneg_left hdlow (zpow_nonneg hb0.le _)
  have hlower : k - 1 ≤ Int.log b |q| := by
    rw [← Int.zpow_le_iff_le_log hb hpos, habs, le_div_iff₀ hd0]
    have hsplit : (b : ℚ) ^ (k - 1) * (b : ℚ) ^ (Nat.log b q.den + 1) =
        (b : ℚ) ^ Nat.log b q.num.natAbs := by
      rw [← zpow_natCast, ← zpow_natCast, ← zpow_add₀ hb0.ne']
      congr 1
      push_cast
      omega
    calc (b : ℚ) ^ (k - 1) * q.den
        ≤ (b : ℚ) ^ (k - 1) * (b : ℚ) ^ (Nat.log b q.den + 1) :=
          mul_le_mul_of_nonneg_left hdhigh.le (zpow_nonneg hb0.le _)
      _ = (b : ℚ) ^ Nat.log b q.num.natAbs := hsplit
      _ ≤ q.num.natAbs := hnlow
  unfold ilog
  dsimp only
  rw [← hk]
  split_ifs with hle
  · have := (Int.zpow_le_iff_le_log hb hpos).mp hle
    omega
  · have hlt := (Int.lt_zpow_iff_log_lt hb hpos).mp (not_le.mp hle)
    omega

/-! ## Whole numbers -/

theorem roundHalfEven_intCast (n : ℤ) : roundHalfEven n = n := by
  unfold roundHalfEven
  dsimp only
  rw [Int.floor_intCast, sub_self, if_pos (by norm_num)]

theorem floor_le_roundHalfEven (q : ℚ) : ⌊q⌋ ≤ roundHalfEven q := by
  unfold roundHalfEven
  dsimp only
  split_ifs <;> omega

theorem roundHalfEven_le_floor (q : ℚ) : roundHalfEven q ≤ ⌊q⌋ + 1 := by
  unfold roundHalfEven
  dsimp only
  split_ifs <;> omega

theorem roundHalfEven_mono {p q : ℚ} (h : p ≤ q) : roundHalfEven p ≤ roundHalfEven q := by
  have hfloor : ⌊p⌋ ≤ ⌊q⌋ := Int.floor_le_floor h
  by_cases hlt : ⌊p⌋ < ⌊q⌋
  · have hp := roundHalfEven_le_floor p
    have hq := floor_le_roundHalfEven q
    omega
  · -- The floor is the same, so the fractions compare as the numbers do.
    have hsame : ⌊p⌋ = ⌊q⌋ := by omega
    unfold roundHalfEven
    dsimp only
    rw [hsame]
    split_ifs
    all_goals first
      | omega
      | exfalso; linarith

/-! ## Doubles -/

/-- The exponent of the last place. -/
def place (q : ℚ) : ℤ := max (ilog 2 q) (-1022) - 52

/-- The nearest multiple of the last place, however large. -/
def rounded (q : ℚ) : ℚ := roundHalfEven (q / 2 ^ place q) * 2 ^ place q

theorem rounded_zero : rounded 0 = 0 := by
  have hzero : roundHalfEven 0 = 0 := by exact_mod_cast roundHalfEven_intCast 0
  unfold rounded
  rw [zero_div, hzero, Int.cast_zero, zero_mul]

theorem ofRat_eq (q : ℚ) : ofRat q =
    if 2 ^ 1024 ≤ rounded q then .posInf
    else if rounded q ≤ -2 ^ 1024 then .negInf else .fin (rounded q) := by
  unfold ofRat
  by_cases hq : q = 0
  · have hlarge : ¬(2 : ℚ) ^ 1024 ≤ 0 := not_le.mpr (by positivity)
    have hsmall : ¬(0 : ℚ) ≤ -2 ^ 1024 := by
      rw [not_le, neg_lt_zero]
      positivity
    rw [if_pos hq, hq, rounded_zero, if_neg hlarge, if_neg hsmall]
  · rw [if_neg hq]
    rfl

theorem place_pos (q : ℚ) : (0 : ℚ) < 2 ^ place q := by positivity

/-- A power of two is no less than what is rounded to it, from the last place on. -/
theorem rounded_le_zpow {q : ℚ} {k : ℤ} (hk : place q ≤ k) (h : q ≤ 2 ^ k) : rounded q ≤ 2 ^ k := by
  obtain ⟨n, hn⟩ := Int.eq_ofNat_of_zero_le (sub_nonneg.mpr hk)
  have hsplit : ((2 ^ n : ℤ) : ℚ) * 2 ^ place q = 2 ^ k := by
    rw [Int.cast_pow, Int.cast_ofNat, ← zpow_natCast, ← zpow_add₀ two_ne_zero]
    congr 1
    omega
  have hquot : q / 2 ^ place q ≤ ((2 ^ n : ℤ) : ℚ) := by
    rw [div_le_iff₀ (place_pos q), hsplit]
    exact h
  have hround : roundHalfEven (q / 2 ^ place q) ≤ 2 ^ n := by
    rw [← roundHalfEven_intCast (2 ^ n)]
    exact roundHalfEven_mono hquot
  calc rounded q ≤ ((2 ^ n : ℤ) : ℚ) * 2 ^ place q :=
        mul_le_mul_of_nonneg_right (by exact_mod_cast hround) (place_pos q).le
    _ = 2 ^ k := hsplit

theorem zpow_le_rounded {q : ℚ} {k : ℤ} (hk : place q ≤ k) (h : 2 ^ k ≤ q) : 2 ^ k ≤ rounded q := by
  obtain ⟨n, hn⟩ := Int.eq_ofNat_of_zero_le (sub_nonneg.mpr hk)
  have hsplit : ((2 ^ n : ℤ) : ℚ) * 2 ^ place q = 2 ^ k := by
    rw [Int.cast_pow, Int.cast_ofNat, ← zpow_natCast, ← zpow_add₀ two_ne_zero]
    congr 1
    omega
  have hquot : ((2 ^ n : ℤ) : ℚ) ≤ q / 2 ^ place q := by
    rw [le_div_iff₀ (place_pos q), hsplit]
    exact h
  have hround : 2 ^ n ≤ roundHalfEven (q / 2 ^ place q) := by
    rw [← roundHalfEven_intCast (2 ^ n)]
    exact roundHalfEven_mono hquot
  calc (2 : ℚ) ^ k = ((2 ^ n : ℤ) : ℚ) * 2 ^ place q := hsplit.symm
    _ ≤ rounded q := mul_le_mul_of_nonneg_right (by exact_mod_cast hround) (place_pos q).le

theorem rounded_nonneg {q : ℚ} (hq : 0 ≤ q) : 0 ≤ rounded q := by
  have hround : roundHalfEven ((0 : ℤ) : ℚ) ≤ roundHalfEven (q / 2 ^ place q) := by
    apply roundHalfEven_mono
    rw [Int.cast_zero]
    exact div_nonneg hq (place_pos q).le
  rw [roundHalfEven_intCast] at hround
  exact mul_nonneg (by exact_mod_cast hround) (place_pos q).le

theorem rounded_mono {p q : ℚ} (hp : 0 ≤ p) (h : p ≤ q) : rounded p ≤ rounded q := by
  rcases hp.eq_or_lt with rfl | hp
  · rw [rounded_zero]
    exact rounded_nonneg h
  · have hq : 0 < q := hp.trans_le h
    have hlogp : ilog 2 p = Int.log 2 p := by
      rw [ilog_eq_log one_lt_two hp.ne', abs_of_pos hp]
    have hlogq : ilog 2 q = Int.log 2 q := by
      rw [ilog_eq_log one_lt_two hq.ne', abs_of_pos hq]
    have hlog : Int.log 2 p ≤ Int.log 2 q := Int.log_mono_right hp h
    have hplace : place p = max (Int.log 2 p) (-1022) - 52 ∧
        place q = max (Int.log 2 q) (-1022) - 52 := by
      unfold place
      rw [hlogp, hlogq]
      exact ⟨rfl, rfl⟩
    rcases (show place p ≤ place q by omega).eq_or_lt with hsame | hless
    · have hround : roundHalfEven (p / 2 ^ place q) ≤ roundHalfEven (q / 2 ^ place q) :=
        roundHalfEven_mono (div_le_div_of_nonneg_right h (place_pos q).le)
      unfold rounded
      rw [hsame]
      exact mul_le_mul_of_nonneg_right (by exact_mod_cast hround) (place_pos q).le
    · -- A power of two lies between them.
      have hbelow : p < 2 ^ (Int.log 2 p + 1) := by
        exact_mod_cast Int.lt_zpow_succ_log_self one_lt_two p
      have habove : (2 : ℚ) ^ Int.log 2 q ≤ q := by
        exact_mod_cast Int.zpow_log_le_self one_lt_two hq
      have hbetween : (2 : ℚ) ^ (Int.log 2 p + 1) ≤ 2 ^ Int.log 2 q :=
        zpow_le_zpow_right₀ one_le_two (by omega)
      calc rounded p ≤ 2 ^ Int.log 2 q :=
            rounded_le_zpow (by omega) (hbelow.le.trans hbetween)
        _ ≤ rounded q := zpow_le_rounded (by omega) habove

end Py.FloatVal
