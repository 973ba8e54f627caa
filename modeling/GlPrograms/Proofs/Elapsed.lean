import GlPrograms.Proofs.Rounding

namespace GlPrograms

namespace Duration

open Binary64

variable {d d' : Duration}

def roundedSeconds (d : Duration) : Binary64 := ofRatio d.seconds 1

def roundedSubsecond (d : Duration) : Binary64 := ofRatio d.subsecond nanosPerSecond

theorem roundedSeconds_rounds (d : Duration) : Rounds d.seconds d.roundedSeconds.value := by
  have h := ofRatio_rounds d.seconds one_pos
  rwa [Nat.cast_one, div_one] at h

theorem roundedSubsecond_rounds (d : Duration) :
    Rounds (d.subsecond / nanosPerSecond) d.roundedSubsecond.value :=
  ofRatio_rounds d.subsecond (by decide)

def InSeconds (d : Duration) (x : ℚ) : Prop :=
  ∃ whole part, Rounds d.seconds whole ∧ Rounds (d.subsecond / nanosPerSecond) part ∧
    Rounds (whole + part) x

theorem toSeconds_rounds (d : Duration) :
    Rounds (d.roundedSeconds.value + d.roundedSubsecond.value) d.toSeconds.value :=
  add_rounds _ _

theorem inSeconds_toSeconds (d : Duration) : d.InSeconds d.toSeconds.value :=
  ⟨_, _, d.roundedSeconds_rounds, d.roundedSubsecond_rounds, d.toSeconds_rounds⟩

theorem subsecond_nonneg (d : Duration) : (0 : ℚ) ≤ d.subsecond / nanosPerSecond := by positivity

theorem sum_nonneg (d : Duration) : 0 ≤ d.roundedSeconds.value + d.roundedSubsecond.value :=
  add_nonneg d.roundedSeconds_rounds.nonneg d.roundedSubsecond_rounds.nonneg

/-- The fraction is not rounded up to a whole second, since there is a number of 53 bits between. -/
theorem roundedSubsecond_lt_one (d : Duration) : d.roundedSubsecond.value < 1 := by
  have hlt : d.subsecond < nanosPerSecond := Nat.mod_lt _ (by decide)
  have hlast : Rounds ((2 ^ 53 - 1 : ℕ) * 2 ^ (-53 : ℤ)) ((2 ^ 53 - 1 : ℕ) * 2 ^ (-53 : ℤ)) :=
    rounds_self (Nat.sub_le _ _) _
  have hle : (d.subsecond : ℚ) / nanosPerSecond ≤ (2 ^ 53 - 1 : ℕ) * 2 ^ (-53 : ℤ) := by
    have hsub : (d.subsecond : ℚ) + 1 ≤ nanosPerSecond := by exact_mod_cast hlt
    rw [nanosPerSecond, Nat.cast_ofNat] at hsub ⊢
    rw [div_le_iff₀ (by norm_num)]
    norm_num at hsub ⊢
    linarith
  calc d.roundedSubsecond.value ≤ (2 ^ 53 - 1 : ℕ) * 2 ^ (-53 : ℤ) :=
        d.roundedSubsecond_rounds.mono hlast d.subsecond_nonneg hle
    _ < 1 := by norm_num

theorem roundedSeconds_of_le (h : d.seconds ≤ 2 ^ 53) : d.roundedSeconds.value = d.seconds :=
  d.roundedSeconds_rounds.eq (rounds_natCast h) d.seconds.cast_nonneg

theorem roundedSeconds_mono (h : d.seconds ≤ d'.seconds) :
    d.roundedSeconds.value ≤ d'.roundedSeconds.value :=
  d.roundedSeconds_rounds.mono d'.roundedSeconds_rounds d.seconds.cast_nonneg (by exact_mod_cast h)

theorem roundedSubsecond_mono (h : d.subsecond ≤ d'.subsecond) :
    d.roundedSubsecond.value ≤ d'.roundedSubsecond.value := by
  refine d.roundedSubsecond_rounds.mono d'.roundedSubsecond_rounds d.subsecond_nonneg ?_
  exact div_le_div_of_nonneg_right (by exact_mod_cast h) (Nat.cast_nonneg _)

theorem toSeconds_of_large (h : 2 ^ 53 ≤ d.seconds) :
    d.toSeconds.value = d.roundedSeconds.value := by
  have hpos : (0 : ℚ) < d.seconds := by exact_mod_cast (by omega : 0 < d.seconds)
  obtain ⟨n, e, hn, he⟩ := d.roundedSeconds_rounds.isNormal hpos
  have hlog : 53 ≤ Int.log 2 (d.seconds : ℚ) :=
    (Int.zpow_le_iff_le_log (b := 2) one_lt_two hpos).1 (by exact_mod_cast h)
  have hhalf : d.roundedSubsecond.value < 2 ^ (e - 1) :=
    d.roundedSubsecond_lt_one.trans_le (one_le_zpow₀ one_le_two (by omega))
  exact d.toSeconds_rounds.eq (hn.absorbs d.roundedSubsecond_rounds.nonneg hhalf) d.sum_nonneg

theorem roundedSeconds_le_toSeconds (h : 0 < d.seconds) :
    d.roundedSeconds.value ≤ d.toSeconds.value := by
  obtain ⟨n, e, hn, -⟩ := d.roundedSeconds_rounds.isNormal (by exact_mod_cast h)
  exact hn.rounds.mono d.toSeconds_rounds d.roundedSeconds_rounds.nonneg
    (le_add_of_nonneg_right d.roundedSubsecond_rounds.nonneg)

theorem toSeconds_mono (h : d.nanos ≤ d'.nanos) : d.toSeconds.value ≤ d'.toSeconds.value := by
  have hseconds : d.seconds ≤ d'.seconds := Nat.div_le_div_right h
  rcases hseconds.eq_or_lt with hs | hs
  · have hsub : d.subsecond ≤ d'.subsecond := by
      have hd := Nat.div_add_mod d.nanos nanosPerSecond
      have hd' := Nat.div_add_mod d'.nanos nanosPerSecond
      rw [seconds, seconds] at hs
      rw [hs] at hd
      rw [subsecond, subsecond]
      omega
    exact d.toSeconds_rounds.mono d'.toSeconds_rounds d.sum_nonneg
      (add_le_add (roundedSeconds_mono hseconds) (roundedSubsecond_mono hsub))
  by_cases hsmall : d.seconds < 2 ^ 53
  · have hnext : (d.seconds : ℚ) + 1 ≤ d'.roundedSeconds.value := by
      have hwhole : Rounds (d.seconds + 1 : ℕ) (d.seconds + 1 : ℕ) := rounds_natCast hsmall
      rw [← Nat.cast_succ]
      apply hwhole.mono d'.roundedSeconds_rounds (Nat.cast_nonneg _)
      exact_mod_cast hs
    refine d.toSeconds_rounds.mono d'.toSeconds_rounds d.sum_nonneg ?_
    calc d.roundedSeconds.value + d.roundedSubsecond.value ≤ d.seconds + 1 := by
          rw [roundedSeconds_of_le hsmall.le]
          exact add_le_add_right d.roundedSubsecond_lt_one.le _
      _ ≤ d'.roundedSeconds.value := hnext
      _ ≤ d'.roundedSeconds.value + d'.roundedSubsecond.value :=
          le_add_of_nonneg_right d'.roundedSubsecond_rounds.nonneg
  · calc d.toSeconds.value = d.roundedSeconds.value := toSeconds_of_large (Nat.le_of_not_lt hsmall)
      _ ≤ d'.roundedSeconds.value := roundedSeconds_mono hseconds
      _ ≤ d'.toSeconds.value := roundedSeconds_le_toSeconds (Nat.zero_lt_of_lt hs)

theorem toSeconds_zero : toSeconds ⟨0⟩ = zero := by decide

theorem two_zpow_le_sum (h : 0 < d.nanos) :
    (2 : ℚ) ^ (-30 : ℤ) ≤ d.roundedSeconds.value + d.roundedSubsecond.value := by
  have hsplit : nanosPerSecond * d.seconds + d.subsecond = d.nanos := Nat.div_add_mod _ _
  rcases d.seconds.eq_zero_or_pos with hzero | hpos
  · have hsub : 1 ≤ d.subsecond := by
      rw [hzero] at hsplit
      omega
    have hle : (2 : ℚ) ^ (-30 : ℤ) ≤ d.subsecond / nanosPerSecond := by
      have hcast : (1 : ℚ) ≤ d.subsecond := by exact_mod_cast hsub
      rw [nanosPerSecond, Nat.cast_ofNat, le_div_iff₀ (by norm_num)]
      norm_num
      linarith
    have hvalue := (rounds_two_zpow (-30)).mono d.roundedSubsecond_rounds (by positivity) hle
    exact le_add_of_nonneg_of_le d.roundedSeconds_rounds.nonneg hvalue
  · have hone : Rounds (1 : ℕ) (1 : ℕ) := rounds_natCast (by norm_num)
    have hvalue := hone.mono d.roundedSeconds_rounds (by norm_num) (by exact_mod_cast hpos)
    rw [Nat.cast_one] at hvalue
    have hsmall : (2 : ℚ) ^ (-30 : ℤ) ≤ 1 := zpow_le_one_of_nonpos₀ one_le_two (by norm_num)
    exact le_add_of_le_of_nonneg (hsmall.trans hvalue) d.roundedSubsecond_rounds.nonneg

theorem sum_lt_two_zpow (h : d.seconds ≤ 2 ^ 64) :
    d.roundedSeconds.value + d.roundedSubsecond.value < 2 ^ (65 : ℤ) := by
  have hle : (d.seconds : ℚ) ≤ 2 ^ (64 : ℤ) := by exact_mod_cast h
  have hvalue := d.roundedSeconds_rounds.mono (rounds_two_zpow 64) d.seconds.cast_nonneg hle
  have hfraction := d.roundedSubsecond_lt_one
  norm_num at hvalue ⊢
  linarith

theorem denoted_toSeconds (h : d.seconds ≤ 2 ^ 64) :
    denoted d.toSeconds.bits = some d.toSeconds.value := by
  rcases d.nanos.eq_zero_or_pos with hzero | hpos
  · obtain rfl : d = ⟨0⟩ := congrArg Duration.mk hzero
    simp [toSeconds_zero, bits, zero, value, denoted_zero]
  · refine denoted_bits_add _ _ (.inr ?_) ?_
    · exact (zpow_le_zpow_right₀ one_le_two (by norm_num)).trans (two_zpow_le_sum hpos)
    · exact (sum_lt_two_zpow h).trans_le (zpow_le_zpow_right₀ one_le_two (by norm_num))

end Duration

end GlPrograms
