import GlPrograms.Proofs.Cache.Turns
import GlPrograms.Proofs.Course
import Mathlib.Data.List.Nodup

namespace GlPrograms

inductive Gl.Object where
  | shader (s : Shader)
  | program (p : Program)
deriving DecidableEq

namespace Event

def created : Event Gl → Option Gl.Object
  | .called (.createShader _) (.ok s) => some (.shader s)
  | .called .createProgram (.ok p) => some (.program p)
  | _ => none

def deleted : Event Gl → Option Gl.Object
  | .called (.tell (.deleteShader s)) _ => some (.shader s)
  | .called (.tell (.deleteProgram p)) _ => some (.program p)
  | _ => none

theorem created_of_deleted {e : Event Gl} {o : Gl.Object} (h : e.deleted = some o) :
    e.created = none := by
  unfold deleted at h
  split at h
  · rfl
  · rfl
  · cases h

end Event

open Gl (Object)

def created (events : List (Event Gl)) : List Object := events.filterMap Event.created

def deleted (events : List (Event Gl)) : List Object := events.filterMap Event.deleted

/-- The events lead from some objects to others: what is created is there from then on, and only
what is there is deleted. -/
inductive Settles : List Object → List (Event Gl) → List Object → Prop
  | nil {before after} (same : before.Perm after) : Settles before [] after
  | cons {e before between after events}
      (now : (before ++ e.created.toList).Perm (e.deleted.toList ++ between))
      (later : Settles between events after) : Settles before (e :: events) after

variable {events first rest : List (Event Gl)} {before between after : List Object} {o : Object}

namespace Settles

theorem refl (objects : List Object) : Settles objects [] objects := .nil (.refl _)

theorem of_perm {before' : List Object} (hp : before'.Perm before)
    (h : Settles before events after) :
    Settles before' events after := by
  cases h with
  | nil same => exact .nil (hp.trans same)
  | cons now later => exact .cons ((hp.append_right _).trans now) later

theorem append (h : Settles before first between) (h' : Settles between rest after) :
    Settles before (first ++ rest) after := by
  induction h with
  | nil same => exact h'.of_perm same
  | cons now later ih => exact .cons now (ih h')

theorem frame (h : Settles before events after) (others : List Object) :
    Settles (before ++ others) events (after ++ others) := by
  induction h with
  | nil same => exact .nil (same.append_right _)
  | @cons e before between after events now later ih =>
    refine .cons ?_ ih
    rw [List.append_assoc, ← List.append_assoc e.deleted.toList]
    refine (List.perm_append_comm.append_left before).trans ?_
    rw [← List.append_assoc]
    exact now.append_right others

theorem create {e : Event Gl} (hc : e.created = some o) (hd : e.deleted = none)
    (later : Settles (o :: before) events after) : Settles before (e :: events) after := by
  refine .cons ?_ later
  rw [hc, hd]
  exact List.perm_append_comm

theorem delete {e : Event Gl} (hc : e.created = none) (hd : e.deleted = some o)
    (later : Settles before events after) : Settles (o :: before) (e :: events) after :=
  .cons (by simp [hc, hd]) later

theorem skip {e : Event Gl} (hc : e.created = none) (hd : e.deleted = none)
    (later : Settles before events after) : Settles before (e :: events) after :=
  .cons (by simp [hc, hd]) later

theorem quiet (h : ∀ e ∈ events, e.created = none ∧ e.deleted = none) :
    Settles before events before := by
  induction events with
  | nil => exact .refl _
  | cons e events ih =>
    obtain ⟨hc, hd⟩ := h e (by simp)
    exact .skip hc hd (ih fun e he => h e (by simp [he]))

theorem balance (h : Settles before events after) :
    (before ++ created events).Perm (deleted events ++ after) := by
  induction h with
  | nil same => simpa [created, deleted] using same
  | @cons e before between after events now later ih =>
    have hc : created (e :: events) = e.created.toList ++ created events := by
      cases he : e.created <;> simp [created, he]
    have hd : deleted (e :: events) = e.deleted.toList ++ deleted events := by
      cases he : e.deleted <;> simp [deleted, he]
    rw [hc, hd, List.append_assoc, ← List.append_assoc before]
    refine (now.append_right _).trans ?_
    rw [List.append_assoc]
    exact ih.append_left _

theorem split (h : Settles before (first ++ rest) after) :
    ∃ between, Settles before first between ∧ Settles between rest after := by
  induction first generalizing before with
  | nil => exact ⟨before, .refl _, h⟩
  | cons e first ih =>
    obtain _ | ⟨now, later⟩ := h
    obtain ⟨between, hf, hr⟩ := ih later
    exact ⟨between, .cons now hf, hr⟩

theorem deleted_lt_created {e : Event Gl} (h : Settles [] (first ++ e :: rest) after)
    (he : e.deleted = some o) : (deleted first).count o < (created first).count o := by
  obtain ⟨between, hf, hr⟩ := h.split
  obtain _ | ⟨now, later⟩ := hr
  rw [Event.created_of_deleted he, he] at now
  have hb := (hf.balance.count_eq o).trans List.count_append
  have hn : 0 < between.count o := by
    apply List.count_pos_iff.2
    simpa using now.symm.subset (List.mem_cons_self ..)
  rw [List.nil_append] at hb
  omega

end Settles

namespace Build

variable {α : Type} {settings : Settings} {stage : Stage} {parts : List String} {key : Key}

theorem complaint_settles (settings : Settings) (stage : Stage) (parts : List String)
    (log : String) :
    Settles before (complaint settings stage parts log) before := by
  refine .quiet fun e he => ?_
  rcases List.mem_cons.1 he with rfl | he
  · exact ⟨rfl, rfl⟩
  · split at he
    · rw [List.mem_singleton.1 he]
      exact ⟨rfl, rfl⟩
    · cases he

theorem StageExit.settles {use : Shader → List (Event Gl) → Except BuildError α → Prop}
    {left : Except BuildError α → List Object} {result : Except BuildError α}
    (h : StageExit settings stage parts use events result) (hl : ∀ e, left (.error e) = [])
    (hu : ∀ s inner result, use s inner result → Settles [] inner (left result)) :
    Settles [] events (left result) := by
  have around (s : Shader) (source : String) (accepted : Bool) (inner : List (Event Gl))
      (hi : Settles [] inner (left result)) :
      Settles [] (.called (.createShader stage) (.ok s) ::
        .called (.compileShader s source) accepted ::
        inner ++ [.called (.tell (.deleteShader s)) ()]) (left result) := by
    have hclose : Settles (left result ++ [.shader s]) [.called (.tell (.deleteShader s)) ()]
        (left result) := (Settles.delete rfl rfl (.refl _)).of_perm List.perm_append_comm
    exact .create rfl rfl (.skip rfl rfl ((hi.frame [.shader s]).append hclose))
  cases h with
  | refused reason =>
    rw [hl]
    exact .skip rfl rfl (.refl _)
  | rejected s text =>
    refine around s _ false (.called (.shaderLog s) text :: complaint settings stage parts _) ?_
    rw [hl]
    exact .skip rfl rfl (complaint_settles ..)
  | accepted s used => exact around s _ true _ (hu _ _ _ used)

def left : Except BuildError Program → List Object
  | .error _ => []
  | .ok p => [.program p]

theorem LinkExit.settles {vertex fragment : Shader} {result : Except BuildError Program}
    (h : LinkExit settings vertex fragment events result) : Settles [] events (left result) := by
  have hwired (p : Program) : Settles [] (wired vertex fragment p) [.program p] :=
    .create rfl rfl (.quiet (by simp [Event.created, Event.deleted]))
  cases h with
  | refused reason => exact .skip rfl rfl (.refl _)
  | rejected p text =>
    exact (hwired p).append <|
      .skip rfl rfl <| .skip rfl rfl <| .skip rfl rfl <| .delete rfl rfl (.refl _)
  | linked p => exact (hwired p).append (.skip rfl rfl (.refl _))

theorem assemble_settles {result : Except BuildError Program}
    (h : (assemble settings (Source.fragmentParts key)).Plays events result) :
    Settles [] events (left result) := by
  refine (assemble_exit h).settles (fun _ => rfl) fun vertex inner result h => ?_
  exact h.settles (fun _ => rfl) fun fragment inner result h => h.settles

theorem build_settles {result : Except BuildError Linked}
    (h : (build settings key).Plays events result) :
    Settles [] events (left (result.map Linked.program)) := by
  cases build_exit h with
  | failed assembled => exact .skip rfl rfl (assemble_settles assembled)
  | built l assembled =>
    exact .skip rfl rfl <| (assemble_settles assembled).append <|
      .quiet (by simp [located, Event.created, Event.deleted])

end Build

namespace Cache

variable {c c' : Cache} {key : Key} {now : Instant} {listener : Listener} {settings : Settings}
  {turns : List (Turn Request)}

def held (c : Cache) : List Object := c.entries.map fun e => .program e.program

theorem held_touch (c : Cache) (key : Key) (now : Instant) : (c.touch key now).held = c.held := by
  unfold held touch
  rw [List.map_map]
  refine List.map_congr_left fun e _ => ?_
  simp only [Function.comp]
  split <;> rfl

theorem held_erase {e : Entry} (h : c.get? key = some e) :
    c.held.Perm (.program e.program :: (c.erase key).held) := by
  obtain ⟨he, rfl⟩ := get?_eq_some.1 h
  have hothers : c.entries.erase e = (c.erase e.key).entries := by
    rw [List.Nodup.erase_eq_filter (List.Nodup.of_map _ c.distinct)]
    refine List.filter_congr fun d hd => ?_
    by_cases hk : d.key = e.key
    · simp [eq_of_key_eq hd he hk]
    · have hne : d ≠ e := fun hde => hk (hde ▸ rfl)
      simp [hk, hne]
  unfold held
  rw [← hothers]
  exact (List.perm_cons_erase he).map _

theorem LookupExit.settles {result : Except BuildError Entry}
    (h : LookupExit c key now events result c') : Settles c.held events c'.held := by
  cases h with
  | hit cached =>
    rw [held_touch]
    exact .refl _
  | failed missing build => exact (Build.build_settles build).frame c.held
  | @built events linked missing build =>
    have hnew : (c.insert ⟨key, linked.program, linked.locations, now⟩ missing).held =
        .program linked.program :: c.held := rfl
    rw [hnew]
    exact (Build.build_settles build).frame c.held

theorem settles_farewell (settings : Settings) (e : Entry) (others : List Object) :
    Settles (.program e.program :: others) (farewell settings e) others :=
  .skip rfl rfl (.delete rfl rfl (.refl _))

theorem settles_farewells (settings : Settings) (es : List Entry) :
    Settles (es.map fun e => .program e.program) (es.flatMap (farewell settings)) [] := by
  induction es with
  | nil => exact .refl _
  | cons e es ih => exact (settles_farewell settings e _).append ih

theorem TurnExit.settles {request : Request} {reply : Reply}
    (h : TurnExit c listener request events reply c') : Settles c.held events c'.held := by
  cases h with
  | lookup exit => exact exit.settles
  | destroy exit =>
    cases exit with
    | absent missing => exact .refl _
    | @gone e cached => exact (settles_farewell c.settings e _).of_perm (held_erase cached)
  | destroyAll => exact settles_farewells c.settings c.entries
  | inspect seen =>
    refine .quiet fun e he => ?_
    cases e with
    | logged r => exact ⟨rfl, rfl⟩
    | called call answer =>
      obtain ⟨p, rfl⟩ := (inspect_asks c listener _).of_plays seen he
      exact ⟨rfl, rfl⟩

theorem course_settles {start : Cache} (h : Course perform start turns c) :
    Settles start.held (history turns) c.held := by
  induction h with
  | still => exact .refl _
  | turn t past now ih =>
    rw [history_concat]
    exact ih.append (turn_exit now).settles

theorem count_held (c : Cache) (p : Program) :
    c.held.count (.program p) = c.entries.countP (·.program = p) := by
  unfold held
  rw [List.count_eq_countP, List.countP_map]
  refine List.countP_congr fun e _ => ?_
  simp

theorem shader_notMem_held (c : Cache) (s : Shader) : Object.shader s ∉ c.held := by
  simp [held]

/-- Of every program as many were created as were deleted or are cached, and of every shader as
many as were deleted. Nothing was deleted more often than it had been created by then. -/
theorem course_balances (h : Course perform (empty settings) turns c) :
    (∀ p, (created (history turns)).count (.program p) =
        (deleted (history turns)).count (.program p) + c.entries.countP (·.program = p)) ∧
      (∀ s, (created (history turns)).count (.shader s) =
        (deleted (history turns)).count (.shader s)) ∧
      ∀ seen e rest o, history turns = seen ++ e :: rest → e.deleted = some o →
        (deleted seen).count o < (created seen).count o := by
  have hs : Settles [] (history turns) c.held := course_settles h
  have hcount (o : Object) : (created (history turns)).count o =
      (deleted (history turns)).count o + c.held.count o := by
    rw [← List.count_append]
    exact hs.balance.count_eq o
  refine ⟨fun p => ?_, fun s => ?_, fun seen e rest o he hd => ?_⟩
  · rw [hcount, count_held]
  · rw [hcount, List.count_eq_zero.2 (c.shader_notMem_held s), Nat.add_zero]
  · rw [he] at hs
    exact hs.deleted_lt_created hd

def reusing : List (Cue Request) := [
  { request := .lookup ⟨.rgba, false⟩ ⟨1⟩ },
  { change := { nextName := some 1 }, request := .lookup ⟨.solid, true⟩ ⟨2⟩ },
  { change := { nextName := some 1, rejectLinks := some true },
    request := .lookup ⟨.rgbx, false⟩ ⟨3⟩ },
  { request := .destroy ⟨.rgba, false⟩ }]

theorem course_balances_reusing :
    ∃ turns c, Course perform (empty {}) turns c ∧
      (created (history turns)).count (.program ⟨3⟩) = 3 ∧
      (deleted (history turns)).count (.program ⟨3⟩) = 2 ∧
      c.entries.countP (·.program = ⟨3⟩) = 1 ∧
      (created (history turns)).count (.program ⟨3⟩) =
        (deleted (history turns)).count (.program ⟨3⟩) + c.entries.countP (·.program = ⟨3⟩) ∧
      (created (history turns)).count (.shader ⟨1⟩) =
        (deleted (history turns)).count (.shader ⟨1⟩) ∧
      ∃ seen e, history turns = seen ++ e :: [] ∧ e.deleted = some (.program ⟨3⟩) ∧
        (deleted seen).count (.program ⟨3⟩) < (created seen).count (.program ⟨3⟩) := by
  have course : Course perform _ _ _ := course_scripted reusing (empty {}) {}
  obtain ⟨programs, shaders, backed⟩ := course_balances course
  have last : history (scripted perform reusing (empty {}) {}).1 =
      (history (scripted perform reusing (empty {}) {}).1).dropLast ++
        [.called (.tell (.deleteProgram ⟨3⟩)) ()] := rfl
  exact ⟨_, _, course, by decide, by decide, by decide, programs _, shaders _,
    _, _, last, rfl, backed _ _ _ _ last rfl⟩

end Cache

end GlPrograms
