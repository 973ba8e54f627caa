import GlPrograms.Proofs.Ages

namespace GlPrograms

namespace Duration

variable {d : Duration} {x : ℚ}

def exactSeconds (d : Duration) : ℚ := d.nanos / nanosPerSecond

theorem exactSeconds_eq (d : Duration) :
    d.exactSeconds = d.seconds + d.subsecond / nanosPerSecond := by
  have hne : (nanosPerSecond : ℚ) ≠ 0 := by norm_num [nanosPerSecond]
  have hsplit : (nanosPerSecond * d.seconds + d.subsecond : ℚ) = d.nanos := by
    exact_mod_cast Nat.div_add_mod d.nanos nanosPerSecond
  rw [exactSeconds, ← hsplit, add_div, mul_div_cancel_left₀ _ hne]

theorem InSeconds.error_le (h : d.InSeconds x) :
    |x - d.exactSeconds| ≤ d.exactSeconds / 2 ^ 52 := by
  obtain ⟨whole, part, hwhole, hpart, hsum⟩ := h
  rw [exactSeconds_eq]
  exact hwhole.sum_error_le hpart hsum d.seconds.cast_nonneg d.subsecond_nonneg

theorem seconds_le_exactSeconds (d : Duration) : d.seconds ≤ d.exactSeconds := by
  rw [exactSeconds_eq]
  exact le_add_of_nonneg_right d.subsecond_nonneg

end Duration

theorem Binary64.tenths_error_le (x : Binary64) : |(x.tenths : ℚ) / 10 - x.value| ≤ 1 / 20 := by
  have hnear := abs_le.1 x.tenths_nearest.near
  rw [abs_le]
  constructor <;> linarith

namespace Report

structure PlainDecimal (cs : List Char) (y : ℚ) : Prop where
  form : ∃ whole digit, cs = whole ++ ['.', digit] ∧ whole ≠ [] ∧ ∀ c ∈ digit :: whole, c.isDigit
  value : readDecimal cs = some y

theorem plainDecimal_oneDecimal (x : Binary64) :
    PlainDecimal x.oneDecimal ((x.tenths : ℚ) / 10) where
  form := by
    have hlast : Text.decimal (x.tenths % 10) = [(x.tenths % 10).digitChar] :=
      Nat.toDigits_of_lt_base (Nat.mod_lt _ (by decide))
    refine ⟨Text.decimal (x.tenths / 10), _, by rw [Binary64.oneDecimal, hlast],
      Nat.toDigits_ne_nil, ?_⟩
    intro c hc
    rcases List.mem_cons.1 hc with rfl | hc
    · exact Text.isDigit_of_mem_decimal (n := x.tenths % 10) (by simp [hlast])
    · exact Text.isDigit_of_mem_decimal hc
  value := readDecimal_oneDecimal x

end Report

open Binary64 (denoted)
open Report (PlainDecimal)

namespace Instant

variable {used now : Instant}

/-- The time in seconds from a last use to a reading of the clock, not rounded. -/
def exactAge (used now : Instant) : ℚ := ((now.nanos : ℚ) - used.nanos) / Duration.nanosPerSecond

theorem exactAge_eq (h : used.nanos ≤ now.nanos) :
    used.exactAge now = (now.since used).exactSeconds := by
  rw [exactAge, Duration.exactSeconds, since, Nat.cast_sub h]

theorem age_error_le (h : used.nanos ≤ now.nanos) :
    |(used.age now).value - used.exactAge now| ≤ used.exactAge now / 2 ^ 52 := by
  rw [exactAge_eq h]
  exact (now.since used).inSeconds_toSeconds.error_le

theorem denoted_age (h : used.nanos ≤ now.nanos) (hlt : used.exactAge now < 2 ^ 64) :
    denoted (used.age now).bits = some (used.age now).value := by
  rw [exactAge_eq h] at hlt
  apply Duration.denoted_toSeconds
  exact_mod_cast (now.since used).seconds_le_exactSeconds.trans hlt.le

theorem tenths_error_le (h : used.nanos ≤ now.nanos) :
    |((used.age now).tenths : ℚ) / 10 - used.exactAge now| ≤ 1 / 20 + used.exactAge now / 2 ^ 52 :=
  (abs_sub_le _ _ _).trans (add_le_add (used.age now).tenths_error_le (age_error_le h))

end Instant

namespace Report

/-- The line is about the entry, and if the last use was not still to come, the age has one digit
after the point and is off by half a tenth and its roundings at most. -/
structure AccurateLine (now : Instant) (s : Shown) (e : Entry) : Prop where
  key : s.key = e.key
  age : e.lastUsed.nanos ≤ now.nanos → ∃ y, PlainDecimal s.age y ∧
    |y - e.lastUsed.exactAge now| ≤ 1 / 20 + e.lastUsed.exactAge now / 2 ^ 52

theorem shown_accurate (now : Instant) {es : List Entry} {ids : List UInt32}
    (h : ids.length = es.length) :
    List.Forall₂ (AccurateLine now) (shown now es ids) es := by
  induction es generalizing ids with
  | nil =>
    obtain rfl := List.length_eq_zero_iff.1 h
    exact .nil
  | cons e es ih =>
    cases ids with
    | nil => cases h
    | cons id ids =>
      refine .cons ⟨rfl, fun hused => ?_⟩ (ih (Nat.succ.inj h))
      exact ⟨_, plainDecimal_oneDecimal _, Instant.tenths_error_le hused⟩

end Report

namespace Keeper

/-- A report has a line for each entry, in the order of the cache, and all its ages are accurate. -/
def ShowsAccurateAges (k : Keeper) (look : Inspection → k.Request) : Prop :=
  ∀ {s s' t now text}, (k.perform s t.listener t.request).Plays t.events (t.reply, s') →
    k.Tells look now t text → ∃ shown, Report.read text = some (shown, (k.cache s).size) ∧
      List.Forall₂ (Report.AccurateLine now) shown (k.cache s).entries

theorem Shows.showsAccurateAges {k : Keeper} {look : Inspection → k.Request} (hk : k.Shows look) :
    k.ShowsAccurateAges look := by
  rintro s s' t now text h ⟨i, hi, ht⟩
  rw [hi] at h
  obtain ⟨ids, hl, hr⟩ := ht.read (hk.inspects h).1
  exact ⟨_, hr, Report.shown_accurate now hl⟩

end Keeper

/-- As long as the last use is not still to come, an age differs from the exact one by a part in `2
^ 52` at most, and by half a tenth more as it is printed, with one digit after the point. So do all
ages in reports. -/
theorem ages_are_accurate :
    (∀ used now : Instant, used.nanos ≤ now.nanos → used.exactAge now < 2 ^ 64 →
      ∃ x, denoted (used.age now).bits = some x ∧
        |x - used.exactAge now| ≤ used.exactAge now / 2 ^ 52) ∧
    (∀ used now : Instant, used.nanos ≤ now.nanos →
      ∃ y, PlainDecimal (used.age now).oneDecimal y ∧
        |y - used.exactAge now| ≤ 1 / 20 + used.exactAge now / 2 ^ 52) ∧
    Keeper.ofCache.ShowsAccurateAges .inspect ∧ Keeper.ofRenderer.ShowsAccurateAges .inspect := by
  refine ⟨?_, ?_, Keeper.ofCache_shows.showsAccurateAges, Keeper.ofRenderer_shows.showsAccurateAges⟩
  · intro used now hused hlt
    exact ⟨_, Instant.denoted_age hused hlt, Instant.age_error_le hused⟩
  · intro used now hused
    exact ⟨_, Report.plainDecimal_oneDecimal _, Instant.tenths_error_le hused⟩

/-- Seconds are rounded down by one, and then the fraction is lost, so that the error is almost as
large as it may be. In the report, both ages are halfway between two decimals. -/
theorem ages_are_accurate_halfway :
    let used : Instant := ⟨0⟩
    let now : Instant := ⟨9007199254740993999999999⟩
    let d : ℚ := 9007199254740993999999999 / 1000000000
    let c := Report.early
    let text := Report.text ⟨11750000000⟩ c.entries [4294967295, 7]
    (used.exactAge now = d ∧ (used.age now).bits = 0x4340000000000000 ∧
      (∃ x, denoted 0x4340000000000000 = some x ∧ |x - d| ≤ d / 2 ^ 52) ∧
      ∃ y, PlainDecimal (used.age now).oneDecimal y ∧ |y - d| ≤ 1 / 20 + d / 2 ^ 52) ∧
    Report.read text = some ([⟨4294967295, ['1', '0', '.', '2'], ⟨.rgba, true⟩⟩,
      ⟨7, ['2', '.', '8'], ⟨.solid, false⟩⟩], 2) ∧
    (∃ y, PlainDecimal ['1', '0', '.', '2'] y ∧ |y - 41 / 4| ≤ 1 / 20 + 41 / 4 / 2 ^ 52) ∧
    ∃ y, PlainDecimal ['2', '.', '8'] y ∧ |y - 11 / 4| ≤ 1 / 20 + 11 / 4 / 2 ^ 52 := by
  intro used now d c text
  obtain ⟨rounded, printed, cache, -⟩ := ages_are_accurate
  have hd : used.exactAge now = d := by
    norm_num [Instant.exactAge, used, now, d, Duration.nanosPerSecond]
  have hbits : (used.age now).bits = 0x4340000000000000 := by decide +kernel
  have hlines : Report.shown ⟨11750000000⟩ c.entries [4294967295, 7] =
      [⟨4294967295, ['1', '0', '.', '2'], ⟨.rgba, true⟩⟩,
        ⟨7, ['2', '.', '8'], ⟨.solid, false⟩⟩] := by
    decide +kernel
  have hread := Report.read_text ⟨11750000000⟩ c.entries [4294967295, 7]
  rw [hlines] at hread
  let t : Turn Keeper.ofCache.Request := ⟨{}, .inspect (.report ⟨11750000000⟩ none),
    .report (some text), Report.asking c.entries [4294967295, 7]⟩
  have played : (Keeper.ofCache.perform c t.listener t.request).Plays t.events (t.reply, c) :=
    Report.report_plays c {} _ rfl
  have told : Keeper.ofCache.Tells .inspect ⟨11750000000⟩ t text := ⟨_, rfl, .replied⟩
  obtain ⟨lines, hl, accurate⟩ := cache played told
  obtain rfl := (Prod.mk.inj (Option.some.inj (hread.symm.trans hl))).1
  obtain _ | ⟨first, _ | ⟨second, -⟩⟩ := accurate
  have hfirst : Instant.exactAge ⟨1500000000⟩ ⟨11750000000⟩ = 41 / 4 := by
    norm_num [Instant.exactAge, Duration.nanosPerSecond]
  have hsecond : Instant.exactAge ⟨9000000000⟩ ⟨11750000000⟩ = 11 / 4 := by
    norm_num [Instant.exactAge, Duration.nanosPerSecond]
  refine ⟨⟨hd, hbits, ?_, ?_⟩, hread, hfirst ▸ first.age (by decide),
    hsecond ▸ second.age (by decide)⟩
  · have h := rounded used now (by decide) (by rw [hd]; norm_num [d])
    rwa [hbits, hd] at h
  · have h := printed used now (by decide)
    rwa [hd] at h

end GlPrograms
