import GlPrograms.Proofs.Reading

namespace GlPrograms

variable {s : Sink} {limit : Nat} {whole : String}

/-- What has become of a text that was written to a sink piece by piece. -/
structure Sink.Given (s : Sink) (limit : Nat) (whole : String) : Prop where
  limited : s.limit = some limit
  beginning : s.text.toList <+: whole.toList
  room : s.text.utf8ByteSize ≤ limit
  refused : s.refused = decide (limit < whole.utf8ByteSize)
  complete : s.refused = false → s.text = whole

namespace Sink

theorem given_empty (limit : Nat) : ({ limit := some limit } : Sink).Given limit "" where
  limited := rfl
  beginning := List.nil_prefix
  room := Nat.zero_le limit
  refused := rfl
  complete _ := rfl

theorem Given.lt_of_refused (h : s.Given limit whole) (hr : s.refused = true) :
    limit < whole.utf8ByteSize := by
  rw [h.refused] at hr
  exact of_decide_eq_true hr

theorem Given.le_of_accepted (h : s.Given limit whole) (hr : s.refused = false) :
    whole.utf8ByteSize ≤ limit := by
  rw [h.refused] at hr
  exact Nat.le_of_not_lt (of_decide_eq_false hr)

theorem Given.after_refusal (h : s.Given limit whole) (hr : s.refused = true) (more : String) :
    s.Given limit (whole ++ more) where
  limited := h.limited
  beginning := by
    rw [String.toList_append]
    exact h.beginning.trans (List.prefix_append _ _)
  room := h.room
  refused := by
    have hlt := h.lt_of_refused hr
    rw [hr, String.utf8ByteSize_append]
    exact (decide_eq_true (by omega)).symm
  complete hn := by simp [hr] at hn

theorem Given.write (h : s.Given limit whole) (piece : String) :
    (s.write piece).Given limit (whole ++ piece) := by
  cases hr : s.refused with
  | true =>
    rw [Sink.write, if_pos hr]
    exact h.after_refusal hr piece
  | false =>
    have ht := h.complete hr
    have hfits : s.fits piece = decide ((whole ++ piece).utf8ByteSize ≤ limit) := by
      rw [Sink.fits, h.limited, ht, String.utf8ByteSize_append]
    rw [Sink.write, if_neg (by simp [hr]), hfits]
    by_cases hle : (whole ++ piece).utf8ByteSize ≤ limit
    · rw [if_pos (decide_eq_true hle), ht]
      refine ⟨h.limited, List.prefix_refl _, hle, ?_, fun _ => rfl⟩
      rw [hr]
      exact (decide_eq_false (Nat.not_lt.2 hle)).symm
    · rw [if_neg (by simpa using hle)]
      refine ⟨h.limited, ?_, h.room, ?_, fun hn => by cases hn⟩
      · rw [String.toList_append]
        exact h.beginning.trans (List.prefix_append _ _)
      · exact (decide_eq_true (Nat.lt_of_not_le hle)).symm

theorem Given.writeAll (h : s.Given limit whole) (pieces : List String) :
    (s.writeAll pieces).Given limit (whole ++ String.join pieces) := by
  induction pieces generalizing s whole with
  | nil => simpa [Sink.writeAll] using h
  | cons piece pieces ih =>
    rw [String.join_cons, ← String.append_assoc]
    exact ih (h.write piece)

end Sink

namespace Report

open GlPrograms.Action

variable {now : Instant} {es : List Entry} {ids : List UInt32} {events : List (Event Gl)}

def asking (es : List Entry) (ids : List UInt32) : List (Event Gl) :=
  es.zipWith (fun e id => .called (.programId e.program) id) ids

theorem answered_called (p : Program) (id : UInt32) (rest : List (Event Gl)) :
    answered (.called (.programId p) id :: rest) = id :: answered rest := rfl

theorem writeEntries_given {count count' : Nat} {s' : Sink} (hs : s.Given limit whole)
    (hl : ids.length = es.length) (h : (writeEntries now es count s).Plays events (count', s'))
    (hids : answered events <+: ids) :
    s'.Given limit (whole ++ String.join (lines now es ids)) ∧
      ∃ asked, events = (asking es ids).take asked ∧ ∀ i < es.length,
        i < asked ↔ (whole ++ String.join ((lines now es ids).take i)).utf8ByteSize ≤ limit := by
  induction es generalizing count s whole ids events with
  | nil =>
    obtain ⟨⟩ := h
    refine ⟨by simpa [lines] using hs, 0, rfl, ?_⟩
    intro i hi
    simp at hi
  | cons e es ih =>
    obtain _ | ⟨id, ids⟩ := ids
    · cases hl
    rw [writeEntries] at h
    cases hr : s.refused with
    | true =>
      rw [if_pos hr] at h
      obtain ⟨⟩ := h
      refine ⟨hs.after_refusal hr _, 0, rfl, ?_⟩
      intro i _
      have hlt := hs.lt_of_refused hr
      rw [String.utf8ByteSize_append]
      omega
    | false =>
      rw [if_neg (by simp [hr]), Gl.programId_bind, plays_call] at h
      obtain ⟨answer, rest, rfl, h⟩ := h
      rw [answered_called, List.cons_prefix_cons] at hids
      obtain ⟨rfl, hids⟩ := hids
      have hline := hs.writeAll (linePieces answer (e.lastUsed.age now) e.key)
      rw [join_linePieces] at hline
      obtain ⟨hgiven, asked, rfl, hasked⟩ := ih hline (Nat.succ.inj hl) h hids
      simp only [lines, List.zipWith_cons_cons, String.join_cons, ← String.append_assoc]
      refine ⟨hgiven, asked + 1, rfl, ?_⟩
      intro i hi
      cases i with
      | zero => simpa using hs.le_of_accepted hr
      | succ i =>
        rw [List.take_succ_cons, String.join_cons, ← String.append_assoc, Nat.add_lt_add_iff_right]
        exact hasked i (Nat.lt_of_succ_lt_succ hi)

theorem askIds_plays (hl : ids.length = es.length) : (askIds es).Plays (asking es ids) ids := by
  induction es generalizing ids with
  | nil =>
    obtain rfl := List.length_eq_zero_iff.1 hl
    exact .done _
  | cons e es ih =>
    obtain _ | ⟨id, ids⟩ := ids
    · cases hl
    rw [askIds_cons]
    exact plays_called.2 (plays_bind_pure.2 ⟨ids, ih (Nat.succ.inj hl), rfl⟩)

variable {c c' : Cache} {listener : Listener} {reply : Reply}

theorem writeReport_given {s : Sink} (hl : ids.length = c.size)
    (h : (c.writeReport now { limit := some limit }).Plays events s)
    (hids : answered events <+: ids) :
    s.Given limit (text now c.entries ids) ∧
      ∃ asked, events = (asking c.entries ids).take asked ∧ ∀ i < c.size,
        i < asked ↔ (preamble ++ title ++ columns
          ++ String.join ((lines now c.entries ids).take i)).utf8ByteSize ≤ limit := by
  have heading := ((Sink.given_empty limit).writeAll preamblePieces).write (title ++ columns)
  rw [join_preamblePieces, String.empty_append, ← String.append_assoc] at heading
  obtain ⟨⟨count, s⟩, hs, rfl⟩ := plays_bind_pure.1 h
  obtain ⟨hgiven, hasked⟩ := writeEntries_given heading hl hs hids
  refine ⟨?_, hasked⟩
  dsimp only
  cases hr : s.refused with
  | true =>
    rw [Sink.writeAll_refused hr]
    exact hgiven.after_refusal hr _
  | false =>
    obtain rfl : count = c.size := (count_of_accepted hs hr).trans (Nat.zero_add _)
    have hwhole := hgiven.writeAll (totalPieces c.size)
    rwa [join_totalPieces] at hwhole

theorem writeEntries_ends (now : Instant) (count : Nat) (s : Sink) (hl : ids.length = es.length) :
    ∃ events written, (writeEntries now es count s).Plays events written ∧
      answered events <+: ids := by
  induction es generalizing count s ids with
  | nil => exact ⟨[], _, .done _, List.nil_prefix⟩
  | cons e es ih =>
    obtain _ | ⟨id, ids⟩ := ids
    · cases hl
    rw [writeEntries]
    split
    · exact ⟨[], _, .done _, List.nil_prefix⟩
    · obtain ⟨rest, written, h, hids⟩ := ih (count + 1)
        (s.writeAll (linePieces id (e.lastUsed.age now) e.key)) (Nat.succ.inj hl)
      exact ⟨.called (.programId e.program) id :: rest, written, plays_called.2 h,
        List.cons_prefix_cons.2 ⟨rfl, hids⟩⟩

theorem report_plays_iff {limit : Option Nat} :
    (c.perform listener (.inspect (.report now limit))).Plays events (reply, c') ↔
      ∃ s, (c.writeReport now { limit }).Plays events s ∧
        reply = .report (if s.refused then none else some s.text) ∧ c' = c := by
  have steps : c.perform listener (.inspect (.report now limit)) =
      c.writeReport now { limit } >>= fun s =>
        pure (.report (if s.refused then none else some s.text), c) := Action.bind_assoc _ _ _
  simp only [steps, plays_bind_pure, Prod.mk.injEq]

/-- Whatever numbers the programs have, a report ends. It is refused exactly if it is longer than
there is room for, and the writer is left with a beginning of it. A program is asked for its number
exactly if there was room for all before its line. -/
theorem limited_reports (c : Cache) (listener : Listener) (now : Instant) (limit : Nat)
    (ids : List UInt32) (hl : ids.length = c.size) :
    let whole := text now c.entries ids
    let before (i : Nat) := preamble ++ title ++ columns
      ++ String.join ((lines now c.entries ids).take i)
    let reports (limit : Option Nat) := c.perform listener (.inspect (.report now limit))
    (∃ events, answered events = ids ∧ (reports none).Plays events (.report (some whole), c)) ∧
      (∃ events reply, answered events <+: ids ∧ (reports (some limit)).Plays events (reply, c)) ∧
      ∀ events reply c', answered events <+: ids →
        (reports (some limit)).Plays events (reply, c') →
        reply = .report (if whole.utf8ByteSize ≤ limit then some whole else none) ∧
          (∃ s, (c.writeReport now { limit := some limit }).Plays events s ∧
            s.refused = decide (limit < whole.utf8ByteSize) ∧
            s.text.toList <+: whole.toList ∧ s.text.utf8ByteSize ≤ limit ∧
            (whole.utf8ByteSize ≤ limit → s.text = whole)) ∧
          (∃ asked, events =
              (c.entries.zipWith (fun e id => .called (.programId e.program) id) ids).take asked ∧
            ∀ i < c.size, i < asked ↔ (before i).utf8ByteSize ≤ limit) ∧
          c' = c := by
  intro whole before reports
  refine ⟨?_, ?_, ?_⟩
  · have written : (c.writeReport now {}).Plays (asking c.entries ids) { text := whole } := by
      rw [writeReport_steps]
      exact plays_bind_pure.2 ⟨ids, askIds_plays hl, rfl⟩
    exact ⟨_, answered_zipWith hl, report_plays_iff.2 ⟨_, written, rfl, rfl⟩⟩
  · obtain ⟨events, ⟨count, s⟩, hs, hids⟩ := writeEntries_ends now 0
      ((Sink.writeAll { limit := some limit } preamblePieces).write (title ++ columns)) hl
    have written : (c.writeReport now { limit := some limit }).Plays events
        (s.writeAll (totalPieces count)) := plays_bind_pure.2 ⟨_, hs, rfl⟩
    exact ⟨events, _, hids, report_plays_iff.2 ⟨_, written, rfl, rfl⟩⟩
  · intro events reply c' hids h
    obtain ⟨s, hs, rfl, hc⟩ := report_plays_iff.1 h
    obtain ⟨given, hasked⟩ := writeReport_given hl hs hids
    refine ⟨?_, ⟨s, hs, given.refused, given.beginning, given.room, fun hle => ?_⟩, hasked, hc⟩
    · cases hr : s.refused with
      | true =>
        rw [if_neg (Nat.not_le.2 (given.lt_of_refused hr))]
        rfl
      | false =>
        rw [if_pos (given.le_of_accepted hr), given.complete hr]
        rfl
    · apply given.complete
      rw [given.refused]
      exact decide_eq_false (Nat.not_lt.2 hle)

/-- There is room for the heading and for the beginning of the first line, so the second program is
not asked for its number. -/
theorem limited_reports_tight :
    let limit := (preamble ++ title ++ columns).utf8ByteSize + 5
    ∃ events, (early.perform {} (.inspect (.report ⟨4000000000⟩ (some limit)))).Plays events
        (.report none, early) ∧
      events = [.called (.programId ⟨4294967295⟩) 4294967295] := by
  intro limit
  -- The size of the heading does not matter, and is not to be computed.
  have hgrow (heading rest : String) (h : 5 < rest.utf8ByteSize) :
      ¬ (heading ++ rest).utf8ByteSize ≤ heading.utf8ByteSize + 5 := by
    rw [String.utf8ByteSize_append]
    omega
  have hlong : ¬ (text ⟨4000000000⟩ early.entries [4294967295, 7]).utf8ByteSize ≤ limit := by
    rw [text, String.append_assoc]
    exact hgrow _ _ (by decide +kernel)
  obtain ⟨-, ⟨events, reply, hids, h⟩, every⟩ :=
    limited_reports early {} ⟨4000000000⟩ limit [4294967295, 7] rfl
  obtain ⟨hreply, -, ⟨asked, hevents, hasked⟩, -⟩ := every events reply early hids h
  rw [if_neg hlong] at hreply
  have hfirst : 0 < asked := by
    apply (hasked 0 (by decide)).2
    simp only [List.take_zero, String.join_nil, String.append_empty]
    exact Nat.le_add_right _ 5
  have hsecond : ¬ 1 < asked := fun hlt =>
    hgrow _ _ (by decide +kernel) ((hasked 1 (by decide)).1 hlt)
  obtain rfl : asked = 1 := by omega
  exact ⟨events, hreply ▸ h, hevents⟩

end Report

end GlPrograms
