import GlPrograms.Time.Instant
import Mathlib.Algebra.Order.Archimedean.Basic
import Mathlib.Data.Int.Log
import Mathlib.Data.Rat.Floor
import Mathlib.Tactic.FieldSimp
import Mathlib.Tactic.Linarith
import Mathlib.Tactic.Positivity
import Mathlib.Tactic.Qify

namespace GlPrograms

/-- A whole number that no other is nearer to `x` than, and the even one if there are two of
them. -/
structure IsNearest (x : ℚ) (n : ℕ) : Prop where
  near : |x - n| ≤ 1 / 2
  even : |x - n| = 1 / 2 → Even n

namespace IsNearest

variable {x y : ℚ} {m n : ℕ}

theorem of_lt (h : |x - n| < 1 / 2) : IsNearest x n := ⟨h.le, fun he => absurd he h.ne⟩

theorem self (n : ℕ) : IsNearest n n := of_lt (by simp)

theorem mono (hxy : x ≤ y) (hm : IsNearest x m) (hn : IsNearest y n) : m ≤ n := by
  by_contra hlt
  have hstep : (n : ℚ) + 1 ≤ m := by exact_mod_cast Nat.lt_of_not_le hlt
  have hx := abs_le.1 hm.near
  have hy := abs_le.1 hn.near
  -- There is no room left but for a single number halfway between two neighbours.
  have hbelow : m - x = 1 / 2 := by linarith
  have habove : y - n = 1 / 2 := by linarith
  have hnext : m = n + 1 := by
    have : (m : ℚ) = n + 1 := by linarith
    exact_mod_cast this
  have hmeven : Even m := hm.even (by rw [abs_sub_comm, hbelow]; norm_num)
  have hneven : Even n := hn.even (by rw [habove]; norm_num)
  rw [hnext, Nat.even_add_one] at hmeven
  exact hmeven hneven

end IsNearest

theorem roundDiv_nearest (num : ℕ) {den : ℕ} (hden : 0 < den) :
    IsNearest (num / den) (roundDiv num den) := by
  have hd : (0 : ℚ) < den := by exact_mod_cast hden
  have hsplit : (num : ℚ) / den = (num / den : ℕ) + (num % den : ℕ) / den := by
    rw [div_eq_iff hd.ne', add_mul, div_mul_cancel₀ _ hd.ne']
    exact_mod_cast (Nat.div_add_mod' num den).symm
  have hrest : ((num % den : ℕ) : ℚ) / den < 1 := by
    rw [div_lt_one hd]
    exact_mod_cast Nat.mod_lt _ hden
  rw [hsplit, roundDiv]
  generalize num / den = q, hr : num % den = r at hrest
  split_ifs with hlow hhigh
  · have hhalf : (r : ℚ) / den < 1 / 2 := by
      rw [div_lt_div_iff₀ hd two_pos]
      exact_mod_cast (by omega : r * 2 < 1 * den)
    refine .of_lt ?_
    rw [add_sub_cancel_left, abs_of_nonneg (by positivity)]
    exact hhalf
  · have hhalf : 1 / 2 < (r : ℚ) / den := by
      rw [div_lt_div_iff₀ two_pos hd]
      exact_mod_cast (by omega : 1 * den < r * 2)
    refine .of_lt ?_
    rw [abs_lt]
    push_cast
    constructor <;> linarith
  · have hhalf : (r : ℚ) / den = 1 / 2 := by
      rw [div_eq_div_iff hd.ne' two_ne_zero]
      exact_mod_cast (by omega : r * 2 = 1 * den)
    rw [hhalf]
    rcases Nat.mod_two_eq_zero_or_one q with hq | hq
    · rw [hq, Nat.add_zero]
      exact ⟨by rw [add_sub_cancel_left]; norm_num, fun _ => Nat.even_iff.2 hq⟩
    · rw [hq]
      refine ⟨?_, fun _ => Nat.even_iff.2 (by omega)⟩
      push_cast
      rw [add_sub_add_left_eq_sub]
      norm_num

/-- The distance of neighbouring numbers of 53 bits that are as large as `q`. -/
def spacing (q : ℚ) : ℚ := 2 ^ (Int.log 2 q - 52)

/-- A number of 53 bits that is nearest to `q`, ties going to the even one. -/
def Rounds (q v : ℚ) : Prop := ∃ n : ℕ, IsNearest (q / spacing q) n ∧ v = n * spacing q

theorem spacing_pos (q : ℚ) : 0 < spacing q := zpow_pos two_pos _

section Rounds

variable {q q' v v' : ℚ} {e : ℤ} {n : ℕ}

theorem spacing_eq (hlow : 2 ^ (e + 52) ≤ q) (hhigh : q < 2 ^ (e + 53)) : spacing q = 2 ^ e := by
  have hq : 0 < q := lt_of_lt_of_le (zpow_pos two_pos _) hlow
  have hbelow := (Int.zpow_le_iff_le_log (b := 2) one_lt_two hq).1 hlow
  have habove := (Int.lt_zpow_iff_log_lt (b := 2) one_lt_two hq).1 hhigh
  rw [spacing, show Int.log 2 q - 52 = e by omega]

theorem two_pow_mul_spacing (q : ℚ) : 2 ^ 52 * spacing q = 2 ^ Int.log 2 q := by
  rw [spacing, ← zpow_natCast, ← zpow_add₀ two_ne_zero]
  congr 1
  omega

theorem bounds_of_isNearest (hq : 0 < q) (h : IsNearest (q / spacing q) n) :
    2 ^ 52 ≤ n ∧ n ≤ 2 ^ 53 := by
  have hs := spacing_pos q
  have hlow : ((2 ^ 52 : ℕ) : ℚ) ≤ q / spacing q := by
    rw [le_div_iff₀ hs, Nat.cast_pow, Nat.cast_ofNat, two_pow_mul_spacing]
    exact Int.zpow_log_le_self one_lt_two hq
  have hhigh : q / spacing q ≤ (2 ^ 53 : ℕ) := by
    rw [div_le_iff₀ hs, Nat.cast_pow, Nat.cast_ofNat, pow_succ', mul_assoc, two_pow_mul_spacing,
      ← zpow_one_add₀ two_ne_zero, add_comm]
    exact (Int.lt_zpow_succ_log_self one_lt_two q).le
  exact ⟨(IsNearest.self _).mono hlow h, h.mono hhigh (.self _)⟩

theorem Rounds.nonneg (h : Rounds q v) : 0 ≤ v := by
  obtain ⟨n, -, rfl⟩ := h
  exact mul_nonneg n.cast_nonneg (spacing_pos q).le

theorem rounds_zero : Rounds 0 0 := by
  refine ⟨0, ?_, by simp⟩
  rw [zero_div]
  exact .self 0

theorem Rounds.mono (h : Rounds q v) (h' : Rounds q' v') (hq : 0 ≤ q) (hle : q ≤ q') : v ≤ v' := by
  obtain ⟨n, hn, rfl⟩ := h
  obtain ⟨n', hn', rfl⟩ := h'
  rcases hq.eq_or_lt with rfl | hq
  · rw [zero_div] at hn
    have hzero : n ≤ 0 := hn.mono (le_refl 0) (.self 0)
    rw [Nat.le_zero.1 hzero, Nat.cast_zero, zero_mul]
    exact mul_nonneg n'.cast_nonneg (spacing_pos q').le
  rcases (Int.log_mono_right (b := 2) hq hle).eq_or_lt with hlog | hlog
  · have hs : spacing q = spacing q' := by rw [spacing, spacing, hlog]
    rw [hs] at hn ⊢
    have hmono : n ≤ n' := hn.mono (div_le_div_of_nonneg_right hle (spacing_pos q').le) hn'
    exact mul_le_mul_of_nonneg_right (by exact_mod_cast hmono) (spacing_pos q').le
  · -- A power of two stands between them.
    have hn53 : (n : ℚ) ≤ 2 ^ 53 := by exact_mod_cast (bounds_of_isNearest hq hn).2
    have hn52 : (2 : ℚ) ^ 52 ≤ n' := by
      exact_mod_cast (bounds_of_isNearest (hq.trans_le hle) hn').1
    calc n * spacing q ≤ 2 ^ 53 * spacing q := mul_le_mul_of_nonneg_right hn53 (spacing_pos q).le
      _ = 2 ^ (1 + Int.log 2 q) := by
        rw [pow_succ', mul_assoc, two_pow_mul_spacing, zpow_one_add₀ two_ne_zero]
      _ ≤ 2 ^ Int.log 2 q' := zpow_le_zpow_right₀ one_le_two (by omega)
      _ = 2 ^ 52 * spacing q' := (two_pow_mul_spacing q').symm
      _ ≤ n' * spacing q' := mul_le_mul_of_nonneg_right hn52 (spacing_pos q').le

theorem Rounds.eq (h : Rounds q v) (h' : Rounds q v') (hq : 0 ≤ q) : v = v' :=
  le_antisymm (h.mono h' hq le_rfl) (h'.mono h hq le_rfl)

structure IsNormal (v : ℚ) (n : ℕ) (e : ℤ) : Prop where
  low : 2 ^ 52 ≤ n
  high : n < 2 ^ 53
  value : v = n * 2 ^ e

theorem IsNormal.absorbs (h : IsNormal v n e) {f : ℚ} (hf : 0 ≤ f) (hlt : f < 2 ^ (e - 1)) :
    Rounds (v + f) v := by
  have he : (0 : ℚ) < 2 ^ e := zpow_pos two_pos e
  have hhalf : f / 2 ^ e < 1 / 2 := by
    rw [div_lt_iff₀ he, one_div, ← zpow_neg_one, ← zpow_add₀ two_ne_zero]
    rwa [neg_add_eq_sub]
  have hlow : (2 : ℚ) ^ 52 ≤ n := by exact_mod_cast h.low
  have hhigh : (n : ℚ) + 1 ≤ 2 ^ 53 := by exact_mod_cast h.high
  have hless : f < 2 ^ e := by
    rw [div_lt_iff₀ he] at hhalf
    linarith
  have hs : spacing (v + f) = 2 ^ e := by
    rw [h.value]
    apply spacing_eq
    · rw [add_comm e, zpow_add₀ two_ne_zero]
      have := mul_le_mul_of_nonneg_right hlow he.le
      linarith
    · rw [add_comm e, zpow_add₀ two_ne_zero]
      have := mul_le_mul_of_nonneg_right hhigh he.le
      linarith
  refine ⟨n, .of_lt ?_, by rw [hs, h.value]⟩
  rw [hs, h.value, add_div, mul_div_cancel_right₀ _ he.ne', add_sub_cancel_left,
    abs_of_nonneg (div_nonneg hf he.le)]
  exact hhalf

theorem IsNormal.rounds (h : IsNormal v n e) : Rounds v v := by
  simpa using h.absorbs le_rfl (zpow_pos two_pos _)

theorem exists_isNormal (hlow : 2 ^ 52 ≤ n) (hhigh : n ≤ 2 ^ 53) (e : ℤ) :
    ∃ m d, IsNormal (n * 2 ^ e) m d ∧ e ≤ d := by
  rcases hhigh.eq_or_lt with rfl | hlt
  · refine ⟨2 ^ 52, e + 1, ⟨le_rfl, by norm_num, ?_⟩, by omega⟩
    rw [zpow_add_one₀ two_ne_zero]
    push_cast
    ring
  · exact ⟨n, e, ⟨hlow, hlt, rfl⟩, le_rfl⟩

theorem exists_shift (hpos : 0 < n) (hle : n ≤ 2 ^ 53) :
    ∃ k, 2 ^ 52 ≤ n * 2 ^ k ∧ n * 2 ^ k ≤ 2 ^ 53 := by
  rcases hle.eq_or_lt with rfl | hlt
  · exact ⟨0, by norm_num⟩
  have hlog : Nat.log 2 n ≤ 52 := Nat.le_of_lt_succ (Nat.log_lt_of_lt_pow hpos.ne' hlt)
  have hbelow : 2 ^ Nat.log 2 n ≤ n := Nat.pow_log_le_self 2 hpos.ne'
  have habove : n ≤ 2 ^ (Nat.log 2 n + 1) := (Nat.lt_pow_succ_log_self one_lt_two n).le
  refine ⟨52 - Nat.log 2 n, ?_, ?_⟩
  · calc 2 ^ 52 = 2 ^ Nat.log 2 n * 2 ^ (52 - Nat.log 2 n) := by
          rw [← pow_add, Nat.add_sub_cancel' hlog]
      _ ≤ n * 2 ^ (52 - Nat.log 2 n) := Nat.mul_le_mul_right _ hbelow
  · calc n * 2 ^ (52 - Nat.log 2 n) ≤ 2 ^ (Nat.log 2 n + 1) * 2 ^ (52 - Nat.log 2 n) :=
          Nat.mul_le_mul_right _ habove
      _ = 2 ^ 53 := by
          rw [← pow_add]
          congr 1
          omega

theorem rounds_self (hn : n ≤ 2 ^ 53) (e : ℤ) : Rounds (n * 2 ^ e) (n * 2 ^ e) := by
  rcases n.eq_zero_or_pos with rfl | hpos
  · simpa using rounds_zero
  obtain ⟨k, hlow, hhigh⟩ := exists_shift hpos hn
  obtain ⟨m, d, h, -⟩ := exists_isNormal hlow hhigh (e - k)
  have hv : ((n * 2 ^ k : ℕ) : ℚ) * 2 ^ (e - k) = n * 2 ^ e := by
    rw [zpow_sub₀ two_ne_zero, zpow_natCast]
    push_cast
    field_simp
  rw [hv] at h
  exact h.rounds

theorem rounds_natCast (hn : n ≤ 2 ^ 53) : Rounds n n := by
  simpa using rounds_self hn 0

theorem rounds_two_zpow (e : ℤ) : Rounds (2 ^ e) (2 ^ e) := by
  have h := rounds_self (n := 1) (by norm_num) e
  rwa [Nat.cast_one, one_mul] at h

theorem Rounds.isNormal (h : Rounds q v) (hq : 0 < q) :
    ∃ n e, IsNormal v n e ∧ Int.log 2 q ≤ e + 52 := by
  obtain ⟨n, hn, rfl⟩ := h
  obtain ⟨hlow, hhigh⟩ := bounds_of_isNearest hq hn
  obtain ⟨m, d, hm, hd⟩ := exists_isNormal hlow hhigh (Int.log 2 q - 52)
  exact ⟨m, d, hm, by omega⟩

theorem Rounds.near (h : Rounds q v) : |v - q| ≤ spacing q / 2 := by
  obtain ⟨n, hn, rfl⟩ := h
  have hs := spacing_pos q
  calc |n * spacing q - q| = |q / spacing q - n| * spacing q := by
        rw [← abs_of_pos hs, ← abs_mul, abs_of_pos hs, sub_mul, div_mul_cancel₀ _ hs.ne',
          abs_sub_comm]
    _ ≤ 1 / 2 * spacing q := mul_le_mul_of_nonneg_right hn.near hs.le
    _ = spacing q / 2 := by ring

/-- The error is less than a part in `2 ^ 53`. It could be as large only just above a power of two,
and there what is less than half a spacing above the power is rounded down to it. -/
theorem Rounds.error_le (h : Rounds q v) (hq : 0 ≤ q) : |v - q| ≤ q / (2 ^ 53 + 1) := by
  rcases hq.eq_or_lt with rfl | hpos
  · simp [h.eq rounds_zero le_rfl]
  have hpower : 2 ^ 52 * spacing q ≤ q := by
    rw [two_pow_mul_spacing]
    exact Int.zpow_log_le_self one_lt_two hpos
  rw [le_div_iff₀ (by norm_num)]
  -- Half a spacing is too much only where it is not reached, next to the power of two below.
  rcases lt_or_ge (q - 2 ^ 52 * spacing q) (spacing q / 2) with hlow | hhigh
  · have hnormal : IsNormal (2 ^ 52 * spacing q) (2 ^ 52) (Int.log 2 q - 52) :=
      ⟨le_rfl, by norm_num, by rw [spacing]; push_cast; rfl⟩
    have hdown : Rounds q (2 ^ 52 * spacing q) := by
      have hhalf : q - 2 ^ 52 * spacing q < 2 ^ (Int.log 2 q - 52 - 1) := by
        rwa [zpow_sub_one₀ two_ne_zero, ← div_eq_mul_inv]
      simpa using hnormal.absorbs (sub_nonneg.2 hpower) hhalf
    rw [h.eq hdown hq, abs_sub_comm, abs_of_nonneg (sub_nonneg.2 hpower)]
    linarith
  · have hnear := h.near
    linarith

/-- Two numbers are rounded, and then their sum is. The second error comes on top of the first ones,
and there is just room for both. -/
theorem Rounds.sum_error_le {a a' b b' : ℚ} (ha : Rounds a a') (hb : Rounds b b')
    (h : Rounds (a' + b') v) (ha0 : 0 ≤ a) (hb0 : 0 ≤ b) : |v - (a + b)| ≤ (a + b) / 2 ^ 52 := by
  have hparts : |a' + b' - (a + b)| ≤ (a + b) / (2 ^ 53 + 1) :=
    calc |a' + b' - (a + b)| = |(a' - a) + (b' - b)| := by rw [add_sub_add_comm]
      _ ≤ |a' - a| + |b' - b| := abs_add_le _ _
      _ ≤ a / (2 ^ 53 + 1) + b / (2 ^ 53 + 1) := add_le_add (ha.error_le ha0) (hb.error_le hb0)
      _ = (a + b) / (2 ^ 53 + 1) := (add_div a b _).symm
  have hsum : a' + b' ≤ (a + b) + (a + b) / (2 ^ 53 + 1) := by
    have hdiff := (le_abs_self _).trans hparts
    linarith
  calc |v - (a + b)| ≤ |v - (a' + b')| + |a' + b' - (a + b)| := abs_sub_le _ _ _
    _ ≤ (a' + b') / (2 ^ 53 + 1) + (a + b) / (2 ^ 53 + 1) :=
      add_le_add (h.error_le (add_nonneg ha.nonneg hb.nonneg)) hparts
    _ ≤ (a + b + (a + b) / (2 ^ 53 + 1)) / (2 ^ 53 + 1) + (a + b) / (2 ^ 53 + 1) := by gcongr
    _ ≤ (a + b) / 2 ^ 52 := by
      have hnonneg := add_nonneg ha0 hb0
      linarith

end Rounds

namespace Binary64

variable (x y : Binary64)

def value : ℚ := x.significand * 2 ^ x.exponent

theorem two_zpow_eq (e : ℤ) :
    (2 : ℚ) ^ e = (Nat.pow 2 e.toNat : ℕ) / (Nat.pow 2 (-e).toNat : ℕ) := by
  simp only [Nat.pow_eq, Nat.cast_pow, Nat.cast_ofNat, ← zpow_natCast,
    ← zpow_sub₀ (two_ne_zero : (2 : ℚ) ≠ 0)]
  congr 1
  omega

theorem den_pos : 0 < x.den := Nat.pow_pos two_pos

theorem num_div_den : (x.num : ℚ) / x.den = x.value := by
  rw [value, two_zpow_eq, num, den, Nat.cast_mul, mul_div_assoc]

variable {num den : ℕ}

theorem reaches_iff (hden : 0 < den) (e : ℤ) :
    reaches num den e = true ↔ (2 : ℚ) ^ e ≤ num / den := by
  have hd : (0 : ℚ) < den := by exact_mod_cast hden
  have hp : (0 : ℚ) < (Nat.pow 2 (-e).toNat : ℕ) := by exact_mod_cast Nat.pow_pos two_pos
  rw [reaches, decide_eq_true_iff, two_zpow_eq, div_le_div_iff₀ hp hd, mul_comm den]
  exact_mod_cast Iff.rfl

theorem magnitude_eq (hnum : 0 < num) (hden : 0 < den) :
    magnitude num den = Int.log 2 ((num : ℚ) / den) := by
  have hn : (0 : ℚ) < num := by exact_mod_cast hnum
  have hd : (0 : ℚ) < den := by exact_mod_cast hden
  have hq : (0 : ℚ) < num / den := div_pos hn hd
  have hnlow : (2 : ℚ) ^ num.log2 ≤ num := by exact_mod_cast Nat.log2_self_le hnum.ne'
  have hnhigh : (num : ℚ) < 2 ^ (num.log2 + 1) := by exact_mod_cast Nat.lt_log2_self
  have hdlow : (2 : ℚ) ^ den.log2 ≤ den := by exact_mod_cast Nat.log2_self_le hden.ne'
  have hdhigh : (den : ℚ) < 2 ^ (den.log2 + 1) := by exact_mod_cast Nat.lt_log2_self
  have hle : Int.log 2 ((num : ℚ) / den) < num.log2 - den.log2 + 1 := by
    refine (Int.lt_zpow_iff_log_lt one_lt_two hq).1 ?_
    rw [sub_add_eq_add_sub, Nat.cast_ofNat, zpow_sub₀ two_ne_zero, ← Nat.cast_succ, zpow_natCast,
      zpow_natCast]
    exact div_lt_div₀ hnhigh hdlow (by positivity) (by positivity)
  have hge : (num.log2 : ℤ) - (den.log2 + 1 : ℕ) ≤ Int.log 2 ((num : ℚ) / den) := by
    refine (Int.zpow_le_iff_le_log one_lt_two hq).1 ?_
    rw [Nat.cast_ofNat, zpow_sub₀ two_ne_zero, zpow_natCast, zpow_natCast]
    exact div_le_div₀ hn.le hnlow hd hdhigh.le
  have hreach : reaches num den (num.log2 - den.log2) ↔
      (num.log2 - den.log2 : ℤ) ≤ Int.log 2 ((num : ℚ) / den) :=
    (reaches_iff hden _).trans (Int.zpow_le_iff_le_log (b := 2) one_lt_two hq)
  rw [magnitude]
  split
  · next h =>
    have := hreach.1 h
    omega
  · next h =>
    have := mt hreach.2 h
    omega

theorem ofRatio_eq (hnum : 0 < num) (hden : 0 < den) :
    ∃ n : ℕ, IsNearest (num / den / spacing (num / den)) n ∧
      ofRatio num den = ⟨n, Int.log 2 ((num : ℚ) / den) - 52⟩ := by
  have hscale (e : ℤ) : ((num * Nat.pow 2 (-e).toNat : ℕ) : ℚ) / (den * Nat.pow 2 e.toNat : ℕ) =
      num / den / 2 ^ e := by
    rw [two_zpow_eq, Nat.cast_mul, Nat.cast_mul]
    field_simp
  rw [ofRatio, if_neg hnum.ne', magnitude_eq hnum hden]
  refine ⟨_, ?_, rfl⟩
  rw [spacing, ← hscale]
  exact roundDiv_nearest _ (Nat.mul_pos hden (Nat.pow_pos two_pos))

theorem ofRatio_rounds (num : ℕ) (hden : 0 < den) : Rounds (num / den) (ofRatio num den).value := by
  rcases num.eq_zero_or_pos with rfl | hnum
  · simpa [ofRatio, value, zero] using rounds_zero
  obtain ⟨n, hn, h⟩ := ofRatio_eq hnum hden
  rw [h]
  exact ⟨n, hn, rfl⟩

theorem sum_eq_ratio : x.value + y.value =
    (x.num * y.den + y.num * x.den : ℕ) / (x.den * y.den : ℕ) := by
  have hx : (x.den : ℚ) ≠ 0 := by exact_mod_cast x.den_pos.ne'
  have hy : (y.den : ℚ) ≠ 0 := by exact_mod_cast y.den_pos.ne'
  rw [← num_div_den, ← num_div_den]
  push_cast
  field_simp

theorem add_rounds : Rounds (x.value + y.value) (x.add y).value := by
  rw [sum_eq_ratio]
  exact ofRatio_rounds _ (Nat.mul_pos x.den_pos y.den_pos)

/-- The number that a pattern of the interchange format stands for, with a sign, 11 bits of biased
exponent and 52 bits of fraction. Infinities stand for no number. -/
def denoted (b : UInt64) : Option ℚ :=
  let sign : ℚ := if b.toNat < 2 ^ 63 then 1 else -1
  let biased : ℕ := b.toNat / 2 ^ 52 % 2 ^ 11
  let fraction : ℕ := b.toNat % 2 ^ 52
  if biased = 2047 then none
  else if biased = 0 then some (sign * (fraction * 2 ^ (-1074 : ℤ)))
  else some (sign * ((2 ^ 52 + fraction : ℕ) * 2 ^ ((biased : ℤ) - 1075)))

theorem denoted_zero : denoted 0 = some 0 := by simp [denoted]

theorem denoted_ofNat {biased fraction : ℕ} (hpos : 0 < biased) (hlt : biased < 2047)
    (hf : fraction < 2 ^ 52) :
    denoted (UInt64.ofNat (biased * Nat.pow 2 52 + fraction)) =
      some (((2 ^ 52 + fraction : ℕ) : ℚ) * 2 ^ ((biased : ℤ) - 1075)) := by
  have hn : (UInt64.ofNat (biased * Nat.pow 2 52 + fraction)).toNat = biased * 2 ^ 52 + fraction :=
    UInt64.toNat_ofNat_of_lt' (by simp only [UInt64.size, Nat.pow_eq]; omega)
  have hbiased : (biased * 2 ^ 52 + fraction) / 2 ^ 52 % 2 ^ 11 = biased := by omega
  have hfraction : (biased * 2 ^ 52 + fraction) % 2 ^ 52 = fraction := by omega
  simp only [denoted, hn, hbiased, hfraction]
  rw [if_pos (by omega : biased * 2 ^ 52 + fraction < 2 ^ 63), if_neg hlt.ne, if_neg hpos.ne',
    one_mul]

theorem denoted_bits {n : ℕ} {e : ℤ} (hlow : 2 ^ 52 ≤ n) (hhigh : n ≤ 2 ^ 53) (he : -1075 < e)
    (he' : e < 971) : denoted (bits ⟨n, e⟩) = some (value ⟨n, e⟩) := by
  have hne : n ≠ 0 := by omega
  rw [bits, if_neg hne, value]
  rcases hhigh.eq_or_lt with hn | hlt
  · have hcarry : n / Nat.pow 2 53 = 1 := by rw [hn]; exact Nat.div_self (Nat.pow_pos two_pos)
    have hfraction : n / Nat.pow 2 1 - Nat.pow 2 52 = 0 := by simp only [Nat.pow_eq]; omega
    simp only [hcarry, hfraction]
    rw [denoted_ofNat (by omega) (by omega) (by norm_num)]
    have hexp : (((e + (1 : ℕ) + 1075).toNat : ℕ) : ℤ) - 1075 = e + 1 := by omega
    refine congrArg some ?_
    rw [hexp, hn, zpow_add_one₀ two_ne_zero]
    push_cast
    ring
  · have hcarry : n / Nat.pow 2 53 = 0 := Nat.div_eq_of_lt hlt
    have hfraction : n / Nat.pow 2 0 - Nat.pow 2 52 = n - 2 ^ 52 := by simp [Nat.pow_eq]
    simp only [hcarry, hfraction]
    rw [denoted_ofNat (by omega) (by omega) (by omega)]
    have hexp : (((e + (0 : ℕ) + 1075).toNat : ℕ) : ℤ) - 1075 = e := by omega
    rw [hexp, Nat.add_sub_cancel' hlow]

theorem denoted_bits_ofRatio (hden : 0 < den)
    (hlow : num = 0 ∨ (2 : ℚ) ^ (-1022 : ℤ) ≤ num / den)
    (hhigh : (num : ℚ) / den < 2 ^ (1023 : ℤ)) :
    denoted (ofRatio num den).bits = some (ofRatio num den).value := by
  rcases num.eq_zero_or_pos with rfl | hnum
  · simp [ofRatio, bits, zero, value, denoted_zero]
  have hq : (0 : ℚ) < num / den := div_pos (by exact_mod_cast hnum) (by exact_mod_cast hden)
  have hbelow := (Int.zpow_le_iff_le_log (b := 2) one_lt_two hq).1 (hlow.resolve_left hnum.ne')
  have habove := (Int.lt_zpow_iff_log_lt (b := 2) one_lt_two hq).1 hhigh
  obtain ⟨n, hn, h⟩ := ofRatio_eq hnum hden
  obtain ⟨h52, h53⟩ := bounds_of_isNearest hq hn
  rw [h]
  exact denoted_bits h52 h53 (by omega) (by omega)

theorem denoted_bits_add
    (hlow : x.value + y.value = 0 ∨ (2 : ℚ) ^ (-1022 : ℤ) ≤ x.value + y.value)
    (hhigh : x.value + y.value < 2 ^ (1023 : ℤ)) :
    denoted (x.add y).bits = some (x.add y).value := by
  have hden : 0 < x.den * y.den := Nat.mul_pos x.den_pos y.den_pos
  rw [sum_eq_ratio] at hlow hhigh
  refine denoted_bits_ofRatio hden (hlow.imp_left fun h => ?_) hhigh
  have hd : ((x.den * y.den : ℕ) : ℚ) ≠ 0 := by exact_mod_cast hden.ne'
  exact_mod_cast (div_eq_zero_iff.1 h).resolve_right hd

theorem tenths_nearest : IsNearest (10 * x.value) x.tenths := by
  have h := roundDiv_nearest (10 * x.num) x.den_pos
  rwa [Nat.cast_mul, Nat.cast_ofNat, mul_div_assoc, num_div_den] at h

theorem tenths_mono {x y : Binary64} (h : x.value ≤ y.value) : x.tenths ≤ y.tenths :=
  x.tenths_nearest.mono (by linarith) y.tenths_nearest

end Binary64

end GlPrograms
