import GlPrograms.Proofs.Aims
import GlPrograms.Proofs.Elapsed
import GlPrograms.Proofs.Records
import GlPrograms.Proofs.Room

namespace GlPrograms

open GlPrograms.Action

namespace Report

def readDecimal (cs : List Char) : Option ℚ := do
  let decimals := (cs.dropWhile (· ≠ '.')).drop 1
  let whole ← readNumber (cs.takeWhile (· ≠ '.'))
  let part ← readNumber decimals
  return whole + part / 10 ^ decimals.length

/-- The age that the last report in a text shows for a key. -/
def ageOf (key : Key) (text : String) : Option ℚ := do
  let (shown, _) ← read text
  let s ← shown.find? (·.key = key)
  readDecimal s.age

theorem readDecimal_oneDecimal (x : Binary64) :
    readDecimal x.oneDecimal = some ((x.tenths : ℚ) / 10) := by
  have hpoint : '.' ∉ Text.decimal (x.tenths / 10) := Text.notMem_decimal (by decide)
  have hdigit : x.tenths % 10 < 10 := Nat.mod_lt _ (by decide)
  have hlength : (Text.decimal (x.tenths % 10)).length = 1 := by
    rw [Text.decimal, Nat.toDigits_of_lt_base hdigit]
    rfl
  have hsum : ((x.tenths / 10 : ℕ) : ℚ) + (x.tenths % 10 : ℕ) / 10 = x.tenths / 10 := by
    have hsplit : (10 * (x.tenths / 10 : ℕ) + (x.tenths % 10 : ℕ) : ℚ) = x.tenths := by
      exact_mod_cast Nat.div_add_mod x.tenths 10
    linarith
  simp only [readDecimal, Binary64.oneDecimal, takeWhile_until hpoint, dropWhile_until hpoint,
    List.drop_succ_cons, List.drop_zero, readNumber_decimal, hlength, pow_one]
  exact congrArg some hsum

variable {now : Instant} {es : List Entry} {ids : List UInt32} {c : Cache} {listener : Listener}
  {events : List (Event Gl)}

theorem find?_shown (hl : ids.length = es.length) (key : Key) :
    ((shown now es ids).find? (·.key = key)).map Shown.age =
      (es.find? (·.key = key)).map fun e => (e.lastUsed.age now).oneDecimal := by
  induction es generalizing ids with
  | nil => rfl
  | cons e es ih =>
    obtain _ | ⟨id, ids⟩ := ids
    · cases hl
    have hi := ih (Nat.succ.inj hl)
    simp only [shown, List.zipWith_cons_cons, List.find?_cons] at hi ⊢
    by_cases hk : e.key = key
    · simp [hk]
    · simpa [hk] using hi

theorem ageOf_shown {text : String} (hl : ids.length = c.size)
    (h : read text = some (shown now c.entries ids, c.size)) (key : Key) :
    ageOf key text = (c.get? key).map fun e => ((e.lastUsed.age now).tenths : ℚ) / 10 := by
  have hfind : ((shown now c.entries ids).find? (·.key = key)).map Shown.age =
      (c.get? key).map fun e => (e.lastUsed.age now).oneDecimal := find?_shown hl key
  calc ageOf key text
      = ((shown now c.entries ids).find? (·.key = key)).bind fun s => readDecimal s.age := by
        rw [ageOf, h]
        rfl
    _ = (((shown now c.entries ids).find? (·.key = key)).map Shown.age).bind readDecimal := by
        rw [Option.bind_map]
        rfl
    _ = (c.get? key).map fun e => ((e.lastUsed.age now).tenths : ℚ) / 10 := by
        rw [hfind]
        cases c.get? key with
        | none => rfl
        | some e => exact readDecimal_oneDecimal _

theorem writeEntries_answered {count : Nat} {s : Sink} {written : Nat × Sink}
    (h : (writeEntries now es count s).Plays events written) :
    (answered events).length ≤ es.length := by
  induction es generalizing count s events with
  | nil =>
    obtain ⟨⟩ := h
    exact Nat.zero_le _
  | cons e es ih =>
    rw [writeEntries] at h
    split at h
    · obtain ⟨⟩ := h
      exact Nat.zero_le _
    · rw [Gl.programId_bind, plays_call] at h
      obtain ⟨id, rest, rfl, h⟩ := h
      rw [answered_called, List.length_cons, List.length_cons]
      exact Nat.succ_le_succ (ih h)

theorem text_of_accepted {limit : Option Nat} {s : Sink}
    (h : (c.writeReport now { limit }).Plays events s) (hr : s.refused = false) :
    ∃ ids, ids.length = c.size ∧ s.text = text now c.entries ids := by
  cases limit with
  | none =>
    obtain ⟨ids, hl, rfl, -⟩ := writeReport_exit h
    exact ⟨ids, hl, rfl⟩
  | some limit =>
    obtain ⟨s', hs, -⟩ := plays_bind_pure.1 h
    -- No more numbers were given than there are entries, and the others do not matter.
    have hle : (answered events).length ≤ c.size := writeEntries_answered hs
    let ids := answered events ++ List.replicate (c.size - (answered events).length) 0
    have hl : ids.length = c.size := by
      simp only [ids, List.length_append, List.length_replicate]
      omega
    obtain ⟨given, -⟩ := writeReport_given hl h (List.prefix_append _ _)
    exact ⟨ids, hl, given.complete hr⟩

theorem logReport_logs {r : Record} {u : Unit} (h : (c.logReport listener now).Plays events u)
    (hr : .logged r ∈ events) : ∃ ids, ids.length = c.size ∧
      r.message = c.settings.scopeDescription ++ "\n" ++ text now c.entries ids := by
  rw [Cache.logReport] at h
  split at h
  · obtain ⟨s, first, rest, rfl, hs, hsay⟩ := plays_bind.1 h
    obtain ⟨ids, hl, rfl, rfl⟩ := writeReport_exit hs
    obtain _ | _ | hsay := hsay
    obtain ⟨⟩ := hsay
    rcases List.mem_append.1 hr with hr | hr
    · exact ((Cache.writeReport_writes (Q := fun _ => False) c now {}).of_plays hs hr).elim
    · cases List.mem_singleton.1 hr
      exact ⟨ids, hl, rfl⟩
  · obtain ⟨⟩ := h
    cases hr

theorem report_plays (c : Cache) (listener : Listener) (now : Instant) (hl : ids.length = c.size) :
    (c.perform listener (.inspect (.report now none))).Plays (asking c.entries ids)
      (.report (some (text now c.entries ids)), c) := by
  have written : (c.writeReport now {}).Plays (asking c.entries ids)
      { text := text now c.entries ids } := by
    rw [writeReport_steps]
    exact plays_bind_pure.2 ⟨ids, askIds_plays hl, rfl⟩
  exact report_plays_iff.2 ⟨_, written, rfl, rfl⟩

end Report

/-- A text with a report as of a time, given to whoever asks for it or written to the log. -/
inductive Inspection.Tells (now : Instant) (events : List (Event Gl)) :
    Inspection → Reply → String → Prop
  | replied {limit text} : Tells now events (.report now limit) (.report (some text)) text
  | logged {reply r} (written : .logged r ∈ events) :
      Tells now events (.logReport now) reply r.message

section Tells

open Report (ageOf shown)

variable {c : Cache} {listener : Listener} {i : Inspection} {now : Instant}
  {events : List (Event Gl)}
  {reply : Reply} {text : String}

theorem Inspection.Tells.read (h : (c.inspect listener i).Plays events reply)
    (ht : i.Tells now events reply text) :
    ∃ ids, ids.length = c.size ∧ Report.read text = some (shown now c.entries ids, c.size) := by
  cases ht with
  | replied =>
    obtain ⟨s, hs, he⟩ := plays_bind_pure.1 h
    have hr : s.refused = false := by
      by_contra hr
      rw [Bool.not_eq_false] at hr
      rw [if_pos hr] at he
      cases he
    rw [hr] at he
    obtain ⟨ids, hl, htext⟩ := Report.text_of_accepted hs hr
    cases he
    exact ⟨ids, hl, by rw [htext, Report.read_text]; rfl⟩
  | logged written =>
    obtain ⟨u, hu, -⟩ := plays_bind_pure.1 h
    obtain ⟨ids, hl, htext⟩ := Report.logReport_logs hu written
    exact ⟨ids, hl, by rw [htext, Report.read_append_text]; rfl⟩

theorem Inspection.Tells.ageOf_eq (h : (c.inspect listener i).Plays events reply)
    (ht : i.Tells now events reply text) (key : Key) :
    ageOf key text = (c.get? key).map fun e => ((e.lastUsed.age now).tenths : ℚ) / 10 := by
  obtain ⟨ids, hl, hr⟩ := ht.read h
  exact Report.ageOf_shown hl hr key

end Tells

theorem Cache.DestroyExit.kept {c c' : Cache} {key other : Key} {events : List (Event Gl)}
    {found : Bool} {e : Entry} (h : DestroyExit c key events found c')
    (he : c'.get? other = some e) :
    c.get? other = some e := by
  cases h with
  | absent missing => exact he
  | gone cached =>
    rw [get?_erase] at he
    split at he
    · cases he
    · exact he

namespace Instant

variable {used used' now now' : Instant}

/-- An age as a number of seconds, after all roundings, and in tenths as they are printed. -/
structure Aged (used now : Instant) (x : ℚ) (tenths : ℕ) : Prop where
  rounded : (now.since used).InSeconds x
  bits : now.nanos < 2 ^ 64 * Duration.nanosPerSecond →
    Binary64.denoted (used.age now).bits = some x
  nearest : IsNearest (10 * x) tenths
  printed : Report.readDecimal (used.age now).oneDecimal = some ((tenths : ℚ) / 10)

theorem aged (used now : Instant) : used.Aged now (used.age now).value (used.age now).tenths where
  rounded := (now.since used).inSeconds_toSeconds
  bits := by
    intro hlt
    apply Duration.denoted_toSeconds
    have hle : (now.since used).nanos ≤ now.nanos := Nat.sub_le _ _
    exact (Nat.div_lt_of_lt_mul (by rw [Nat.mul_comm]; omega)).le
  nearest := (used.age now).tenths_nearest
  printed := Report.readDecimal_oneDecimal _

theorem age_eq_zero (h : now.nanos ≤ used.nanos) : used.age now = Binary64.zero := by
  have hsince : now.since used = ⟨0⟩ := congrArg Duration.mk (Nat.sub_eq_zero_of_le h)
  rw [age, hsince, Duration.toSeconds_zero]

theorem age_mono (hu : used'.nanos ≤ used.nanos) (hn : now.nanos ≤ now'.nanos) :
    (used.age now).value ≤ (used'.age now').value := by
  apply Duration.toSeconds_mono
  simp only [since]
  omega

theorem tenths_mono (hu : used'.nanos ≤ used.nanos) (hn : now.nanos ≤ now'.nanos) :
    ((used.age now).tenths : ℚ) / 10 ≤ (used'.age now').tenths / 10 := by
  have h := Binary64.tenths_mono (age_mono hu hn)
  exact div_le_div_of_nonneg_right (by exact_mod_cast h) (by norm_num)

end Instant

namespace Keeper

open Report (ageOf)

variable {k : Keeper} {look : Inspection → k.Request} {s s' : k.State} {key : Key}

/-- How a keeper lets others look at its cache. Looking changes nothing, and an entry is not made or
freshened unless its program is wanted. -/
structure Shows (k : Keeper) (look : Inspection → k.Request) : Prop where
  inspects : ∀ {s s' listener i events reply},
    (k.perform s listener (look i)).Plays events (reply, s') →
    ((k.cache s).inspect listener i).Plays events reply ∧ s' = s
  idle : ∀ {s s' listener request events reply key e}, k.wanted request ≠ some key →
    (k.perform s listener request).Plays events (reply, s') → (k.cache s').get? key = some e →
    (k.cache s).get? key = some e

/-- The turn is a report as of `now`, and this is the text. -/
def Tells (k : Keeper) (look : Inspection → k.Request) (now : Instant) (t : Turn k.Request)
    (text : String) : Prop :=
  ∃ i, t.request = look i ∧ i.Tells now t.events t.reply text

/-- What holds of the ages in reports. -/
structure OrdersAges (k : Keeper) (look : Inspection → k.Request) : Prop where
  /-- Every entry is there, with its age. -/
  shown : ∀ {s s' t now text e}, (k.perform s t.listener t.request).Plays t.events (t.reply, s') →
    k.Tells look now t text → e ∈ (k.cache s).entries →
    ∃ x n, e.lastUsed.Aged now x n ∧ ageOf e.key text = some ((n : ℚ) / 10)
  /-- Of two entries, the one that was used earlier does not have the smaller age. -/
  within : ∀ {s s' t now text d e},
    (k.perform s t.listener t.request).Plays t.events (t.reply, s') →
    k.Tells look now t text → d ∈ (k.cache s).entries → e ∈ (k.cache s).entries →
    e.lastUsed.nanos ≤ d.lastUsed.nanos →
    ∃ x y, ageOf d.key text = some x ∧ ageOf e.key text = some y ∧ x ≤ y
  /-- What a later report shows without a use in between was there before, and not with a larger
  age. -/
  between : ∀ {s s' t turns u now now' text text' key y},
    Course k.perform s (t :: turns ++ [u]) s' → k.Tells look now t text →
      k.Tells look now' u text' →
    now.nanos ≤ now'.nanos → (∀ v ∈ turns, k.wanted v.request ≠ some key) →
    ageOf key text' = some y → ∃ x, ageOf key text = some x ∧ x ≤ y

theorem Shows.idle_course {turns : List (Turn k.Request)} {e : Entry} (hk : k.Shows look)
    (h : Course k.perform s turns s') (hn : ∀ t ∈ turns, k.wanted t.request ≠ some key)
    (he : (k.cache s').get? key = some e) : (k.cache s).get? key = some e := by
  induction h with
  | still => exact he
  | turn t past now ih =>
    apply ih
    · intro u hu
      exact hn u (by simp [hu])
    · exact hk.idle (hn t (by simp)) now he

theorem Shows.ageOf_eq {t : Turn k.Request} {now : Instant} {text : String} (hk : k.Shows look)
    (h : (k.perform s t.listener t.request).Plays t.events (t.reply, s'))
    (ht : k.Tells look now t text) (key : Key) :
    s' = s ∧ ageOf key text =
      ((k.cache s).get? key).map fun e => ((e.lastUsed.age now).tenths : ℚ) / 10 := by
  obtain ⟨i, hi, ht⟩ := ht
  rw [hi] at h
  obtain ⟨seen, hs⟩ := hk.inspects h
  exact ⟨hs, ht.ageOf_eq seen key⟩

theorem Shows.ageOf_entry {t : Turn k.Request} {now : Instant} {text : String} {e : Entry}
    (hk : k.Shows look) (h : (k.perform s t.listener t.request).Plays t.events (t.reply, s'))
    (ht : k.Tells look now t text) (he : e ∈ (k.cache s).entries) :
    ageOf e.key text = some (((e.lastUsed.age now).tenths : ℚ) / 10) := by
  rw [(hk.ageOf_eq h ht e.key).2, Cache.get?_eq_some.2 ⟨he, rfl⟩, Option.map_some]

theorem Shows.ordersAges (hk : k.Shows look) : k.OrdersAges look where
  shown := by
    intro s s' t now text e h ht he
    exact ⟨_, _, e.lastUsed.aged now, hk.ageOf_entry h ht he⟩
  within := by
    intro s s' t now text d e h ht hd he hle
    exact ⟨_, _, hk.ageOf_entry h ht hd, hk.ageOf_entry h ht he, Instant.tenths_mono hle le_rfl⟩
  between := by
    intro s s' t turns u now now' text text' key y h ht hu hnow hidle hy
    obtain ⟨b, first, h⟩ := Course.cons_iff.1 h
    obtain ⟨b', middle, last⟩ := Course.concat_iff.1 h
    obtain ⟨rfl, hage⟩ := hk.ageOf_eq first ht key
    have hage' := (hk.ageOf_eq last hu key).2
    rw [hy] at hage'
    obtain ⟨e, he, rfl⟩ := Option.map_eq_some_iff.1 hage'.symm
    rw [hk.idle_course middle hidle he] at hage
    exact ⟨_, hage, Instant.tenths_mono le_rfl hnow⟩

theorem ofCache_shows : ofCache.Shows .inspect where
  inspects {s s' listener i events reply} h := by
    change (Cache.perform s listener (.inspect i)).Plays events (reply, s') at h
    cases Cache.turn_exit h with
    | inspect seen => exact ⟨seen, rfl⟩
  idle hw h he := by
    cases Cache.turn_exit h with
    | lookup exit => exact (exit.spares fun hk => hw (congrArg some hk)).entry ▸ he
    | destroy exit => exact exit.kept he
    | destroyAll => cases he
    | inspect seen => exact he

theorem ofRenderer_shows : ofRenderer.Shows .inspect where
  inspects {s s' listener i events reply} h := by
    change (Renderer.perform s listener (.inspect i)).Plays events (reply, s') at h
    cases Renderer.turn_exit h with
    | inspect seen => exact ⟨seen, rfl⟩
  idle hw h he := by
    cases Renderer.turn_exit h with
    | program exit => exact (exit.spares fun hk => hw (congrArg some hk)).entry ▸ he
    | refused exit => exact (exit.spares fun hk => hw (congrArg some hk)).entry ▸ he
    | drawn exit => exact (exit.spares fun hk => hw (congrArg some hk)).entry ▸ he
    | destroy exit => exact exit.kept he
    | teardown => cases he
    | inspect seen => exact he

end Keeper

open Binary64 (denoted)
open Report (ageOf)

/-- An age does not get smaller if the last use is earlier or the age is taken later, neither as it
is rounded nor as it is printed. It is zero as long as the last use is still to come. So the ages in
a report are in the order of the last uses, and the age of a program that is not used does not get
smaller from one report to the next. -/
theorem ages_are_monotone :
    (∀ used used' now now' : Instant, used'.nanos ≤ used.nanos → now.nanos ≤ now'.nanos →
      ∃ x y m n, used.Aged now x m ∧ used'.Aged now' y n ∧ x ≤ y ∧ m ≤ n) ∧
    (∀ used now : Instant, now.nanos ≤ used.nanos → denoted (used.age now).bits = some 0) ∧
    Keeper.ofCache.OrdersAges .inspect ∧ Keeper.ofRenderer.OrdersAges .inspect := by
  refine ⟨?_, ?_, Keeper.ofCache_shows.ordersAges, Keeper.ofRenderer_shows.ordersAges⟩
  · intro used used' now now' hused hnow
    have hmono := Instant.age_mono hused hnow
    exact ⟨_, _, _, _, used.aged now, used'.aged now', hmono, Binary64.tenths_mono hmono⟩
  · intro used now hle
    rw [Instant.age_eq_zero hle]
    exact Binary64.denoted_zero

/-- An age for which seconds are rounded and the fraction is not seen, and the next larger one. In
the reports, one program is used again and the other is not. -/
theorem ages_are_monotone_absorbing :
    let used : Instant := ⟨0⟩
    let now : Instant := ⟨9007199254740993999999999⟩
    let now' : Instant := ⟨9007199254740994000000000⟩
    let c := Report.early
    let c' := c.touch ⟨.rgba, true⟩ ⟨13000000000⟩
    let text := Report.text ⟨12000000000⟩ c.entries [4294967295, 7]
    let text' := Report.text ⟨20000000000⟩ c'.entries [4294967295, 7]
    ((used.age now).bits = 0x4340000000000000 ∧ (used.age now').bits = 0x4340000000000001 ∧
      ∃ x y, denoted 0x4340000000000000 = some x ∧ denoted 0x4340000000000001 = some y ∧ x ≤ y) ∧
    denoted (now.age used).bits = some 0 ∧
    (∃ x y, ageOf ⟨.solid, false⟩ text = some x ∧ ageOf ⟨.rgba, true⟩ text = some y ∧ x ≤ y) ∧
    ageOf ⟨.solid, false⟩ text' = some 11 ∧ ∃ x, ageOf ⟨.solid, false⟩ text = some x ∧ x ≤ 11 := by
  intro used now now' c c' text text'
  obtain ⟨mono, zero, cache, -⟩ := ages_are_monotone
  have hbits : (used.age now).bits = 0x4340000000000000 := by decide +kernel
  have hbits' : (used.age now').bits = 0x4340000000000001 := by decide +kernel
  let t : Turn Keeper.ofCache.Request := ⟨{}, .inspect (.report ⟨12000000000⟩ none),
    .report (some text), Report.asking c.entries [4294967295, 7]⟩
  let u : Turn Keeper.ofCache.Request := ⟨{}, .inspect (.report ⟨20000000000⟩ none),
    .report (some text'), Report.asking c'.entries [4294967295, 7]⟩
  let v : Turn Keeper.ofCache.Request := ⟨{}, .lookup ⟨.rgba, true⟩ ⟨13000000000⟩,
    .program (.ok ⟨⟨.rgba, true⟩, ⟨4294967295⟩, {}, ⟨13000000000⟩⟩), []⟩
  have before : (Keeper.ofCache.perform c t.listener t.request).Plays t.events (t.reply, c) :=
    Report.report_plays c {} _ rfl
  have after : (Keeper.ofCache.perform c' u.listener u.request).Plays u.events (u.reply, c') :=
    Report.report_plays c' {} _ rfl
  have between : (Keeper.ofCache.perform c v.listener v.request).Plays v.events (v.reply, c') :=
    plays_bind_pure.2 ⟨_, .done _, rfl⟩
  have middle : Course Keeper.ofCache.perform c [v] c' := Course.cons_iff.2 ⟨c', between, .still _⟩
  have course : Course Keeper.ofCache.perform c (t :: [v] ++ [u]) c' :=
    Course.cons_iff.2 ⟨c, before, .turn u middle after⟩
  have ht : Keeper.ofCache.Tells .inspect ⟨12000000000⟩ t text := ⟨_, rfl, .replied⟩
  have hu : Keeper.ofCache.Tells .inspect ⟨20000000000⟩ u text' := ⟨_, rfl, .replied⟩
  have hy : ageOf ⟨.solid, false⟩ text' = some 11 := by
    have htenths : ((⟨9000000000⟩ : Instant).age ⟨20000000000⟩).tenths = 110 := by decide +kernel
    rw [(Keeper.ofCache_shows.ageOf_eq after hu ⟨.solid, false⟩).2]
    change some ((((⟨9000000000⟩ : Instant).age ⟨20000000000⟩).tenths : ℚ) / 10) = some 11
    rw [htenths]
    norm_num
  refine ⟨⟨hbits, hbits', ?_⟩, zero now used (by decide), ?_, hy, ?_⟩
  · obtain ⟨x, y, m, n, hx, hy, hle, -⟩ := mono used used now now' le_rfl (by decide)
    exact ⟨x, y, hbits ▸ hx.bits (by decide), hbits' ▸ hy.bits (by decide), hle⟩
  · exact cache.within before ht (d := ⟨⟨.solid, false⟩, ⟨7⟩, {}, ⟨9000000000⟩⟩)
      (e := ⟨⟨.rgba, true⟩, ⟨4294967295⟩, {}, ⟨1500000000⟩⟩) (by decide) (by decide) (by decide)
  · refine cache.between course ht hu (by decide) ?_ hy
    intro w hw
    rw [List.mem_singleton.1 hw]
    decide

end GlPrograms
