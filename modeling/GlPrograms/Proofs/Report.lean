import GlPrograms.Proofs.Cache.Turns

namespace GlPrograms

theorem Sink.write_unlimited (text piece : String) :
    ({ text } : Sink).write piece = { text := text ++ piece } := rfl

theorem Sink.writeAll_unlimited (text : String) (pieces : List String) :
    ({ text } : Sink).writeAll pieces = { text := text ++ String.join pieces } := by
  induction pieces generalizing text with
  | nil => simp [writeAll]
  | cons piece pieces ih =>
    rw [writeAll, List.foldl_cons, write_unlimited, ← writeAll, ih, String.join_cons,
      String.append_assoc]

theorem Sink.writeAll_refused {s : Sink} (hr : s.refused = true) (pieces : List String) :
    s.writeAll pieces = s := by
  induction pieces with
  | nil => rfl
  | cons piece pieces ih =>
    rw [writeAll, List.foldl_cons, write, if_pos hr]
    exact ih

namespace Report

open GlPrograms.Action

variable {now : Instant} {es : List Entry} {ids : List UInt32} {events : List (Event Gl)}

def askIds (es : List Entry) : Action Gl (List UInt32) := es.mapM fun e => Gl.programId e.program

def lines (now : Instant) (es : List Entry) (ids : List UInt32) : List String :=
  es.zipWith (fun e id => line id (e.lastUsed.age now) e.key) ids

def text (now : Instant) (es : List Entry) (ids : List UInt32) : String :=
  preamble ++ title ++ columns ++ String.join (lines now es ids) ++ total es.length

theorem askIds_cons (e : Entry) (es : List Entry) :
    askIds (e :: es) =
      .call (.programId e.program) fun id => askIds es >>= fun ids => pure (id :: ids) := by
  simp only [askIds, List.mapM_cons, Gl.programId_bind]

theorem writeEntries_steps (now : Instant) (es : List Entry) (count : Nat) (start : String) :
    writeEntries now es count { text := start } =
      askIds es >>= fun ids =>
        pure (count + es.length, { text := start ++ String.join (lines now es ids) }) := by
  induction es generalizing count start with
  | nil => simp [writeEntries, askIds, lines]
  | cons e es ih =>
    rw [askIds_cons, writeEntries, if_neg (by simp), Gl.programId_bind, call_bind]
    congr 1
    funext id
    rw [Sink.writeAll_unlimited, join_linePieces, ih, bind_assoc]
    simp only [pure_bind, lines, List.zipWith_cons_cons, String.join_cons, String.append_assoc,
      List.length_cons, Nat.add_assoc, Nat.add_comm 1]

theorem writeReport_steps (c : Cache) (now : Instant) :
    c.writeReport now {} =
      askIds c.entries >>= fun ids => pure { text := text now c.entries ids } := by
  have heading : (({} : Sink).writeAll preamblePieces).write (title ++ columns) =
      { text := preamble ++ title ++ columns } := by
    rw [Sink.writeAll_unlimited, join_preamblePieces, Sink.write_unlimited, String.empty_append,
      String.append_assoc]
  have steps : c.writeReport now {} =
      writeEntries now c.entries 0
        ((({} : Sink).writeAll preamblePieces).write (title ++ columns)) >>=
        fun written => pure (written.2.writeAll (totalPieces written.1)) := rfl
  rw [steps, heading, writeEntries_steps, bind_assoc]
  refine congrArg (askIds c.entries >>= ·) (funext fun ids => ?_)
  rw [pure_bind, Nat.zero_add, Sink.writeAll_unlimited, join_totalPieces]
  rfl

theorem count_of_accepted {count count' : Nat} {s s' : Sink}
    (h : (writeEntries now es count s).Plays events (count', s')) (hr : s'.refused = false) :
    count' = count + es.length := by
  induction es generalizing count s events with
  | nil =>
    obtain ⟨⟩ := h
    rfl
  | cons e es ih =>
    rw [writeEntries] at h
    split at h
    · next refused =>
      obtain ⟨⟩ := h
      rw [refused] at hr
      cases hr
    · rw [Gl.programId_bind, plays_call] at h
      obtain ⟨id, rest, rfl, h⟩ := h
      rw [ih h, List.length_cons]
      omega

theorem askIds_exit (h : (askIds es).Plays events ids) :
    ids.length = es.length ∧
      events = es.zipWith (fun e id => .called (.programId e.program) id) ids := by
  induction es generalizing events ids with
  | nil =>
    obtain ⟨⟩ := h
    exact ⟨rfl, rfl⟩
  | cons e es ih =>
    rw [askIds_cons] at h
    obtain _ | ⟨id, h⟩ := h
    obtain ⟨rest, hr, rfl⟩ := plays_bind_pure.1 h
    obtain ⟨hl, rfl⟩ := ih hr
    exact ⟨congrArg (· + 1) hl, rfl⟩

theorem writeReport_exit {c : Cache} {s : Sink} (h : (c.writeReport now {}).Plays events s) :
    ∃ ids, ids.length = c.size ∧ s = { text := text now c.entries ids } ∧
      events = c.entries.zipWith (fun e id => .called (.programId e.program) id) ids := by
  rw [writeReport_steps] at h
  obtain ⟨ids, hids, rfl⟩ := plays_bind_pure.1 h
  obtain ⟨hl, rfl⟩ := askIds_exit hids
  exact ⟨ids, hl, rfl, rfl⟩

end Report

end GlPrograms
