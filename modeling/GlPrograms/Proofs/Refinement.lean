import GlPrograms.Proofs.Lowering
import GlPrograms.Proofs.Retold
import GlPrograms.Proofs.Session.Scenes

namespace GlPrograms

open GlPrograms.Action

namespace Device

theorem created_of_names {c : Gl.Call} {d : Device} (h : d.names c = some 0) :
    ∃ o, Event.created (.called c (answer c d).1) = some o ∧ o.name = 0 := by
  cases c with
  | createShader stage =>
    simp only [names] at h
    simp only [answer]
    rcases hn : d.newShader stage with ⟨_ | name, d'⟩ <;> rw [hn] at h <;> cases h
    exact ⟨_, rfl, rfl⟩
  | createProgram =>
    simp only [names] at h
    simp only [answer]
    rcases hn : d.newProgram with ⟨_ | name, d'⟩ <;> rw [hn] at h <;> cases h
    exact ⟨_, rfl, rfl⟩
  | compileShader | shaderLog | linkProgram | programLog | programId | uniformLocation | tell =>
    cases h

end Device

namespace Event

theorem lowered_reworded (w : Wording) (location : String → Location) (c : Gl.Call)
    (answer : Gl.Answer c) :
    lowered location (.called c (c.reworded w answer)) = lowered location (.called c answer) := by
  cases c with
  | createShader stage => cases stage <;> cases answer <;> rfl
  | createProgram => cases answer <;> rfl
  | compileShader | shaderLog | linkProgram | programLog | programId | uniformLocation | tell => rfl

theorem all_lowered (location : String → Location) (c : Gl.Call) (answer : Gl.Answer c) :
    (lowered location (.called c answer)).all isCall := by
  cases c with
  | shaderLog | programLog =>
    rw [lowered]
    split <;> rfl
  | createShader stage => cases stage <;> rfl
  | tell c => cases c <;> rfl
  | createProgram | compileShader | linkProgram | programId | uniformLocation => rfl

theorem isCall_of_lowered {location : String → Location} {c : Gl.Call} {answer : Gl.Answer c}
    {e : Event Raw} (h : e ∈ lowered location (.called c answer)) : e.isCall :=
  List.all_eq_true.1 (all_lowered location c answer) e h

end Event

namespace Vantage

variable {α β : Type}

theorem run_calls_call (c : Gl.Call) (next : Gl.Answer c → Action Gl α) (d : Device) :
    calls.run (.call c next) d =
      let r := calls.run (next (Device.answer c d).1) (Device.answer c d).2
      (r.1, .called c (Device.answer c d).1 :: r.2.1, r.2.2) := rfl

theorem located {action : Action Gl α} {d : Device} {p : Program} {uniform : String}
    {answer : Option Location}
    (h : .called (.uniformLocation p uniform) answer ∈ (calls.run action d).2.1) :
    answer = if d.script.location uniform < 0 then none else some (d.script.location uniform) := by
  induction action generalizing d with
  | done a => cases h
  | call c next ih =>
    rcases List.mem_cons.1 h with he | h
    · cases he
      rfl
    · rw [← Device.location_answer c d]
      exact ih _ h
  | log r next ih =>
    rcases List.mem_cons.1 h with he | h
    · cases he
    · exact ih h

end Vantage

theorem Action.Retold.rawRun_eq {α β : Type} {f : α → β} {action : Action Gl α}
    {action' : Action Gl β} (h : Retold f action action') {d : Device}
    (hn : Nonzero (Vantage.calls.run action d).2.1) :
    Vantage.rawRun .native action' d =
      let r := Vantage.calls.run action d
      (f r.1, r.2.1.flatMap (Event.lowered d.script.location), r.2.2) := by
  induction h generalizing d with
  | done a => rfl
  | @call c next next' later ih =>
    rw [Vantage.run_calls_call] at hn ⊢
    obtain ⟨hc, hn⟩ := nonzero_cons.1 hn
    have hname : d.names c ≠ some 0 := by
      intro h0
      obtain ⟨o, ho, hz⟩ := Device.created_of_names h0
      exact hc o ho hz
    have hreply : (Vantage.entryPoints.reply c d).1 =
        c.reworded EntryPoint.words (Device.answer c d).1 := by
      rw [Vantage.entryPoints_reply hname]
      rfl
    rw [Vantage.rawRun_call, hreply, Event.lowered_reworded, ih _ hn, Device.location_answer]
    rfl
  | @log r next next' later ih =>
    rw [Vantage.rawRun_log, ih hn]
    rfl

theorem Action.Retold.run_beneath {α β : Type} {f : α → β} {action : Action Gl α}
    {action' : Action Gl β} (h : Retold f action action') {p : Platform} (hp : p.Documented)
    {d : Device} (hn : Nonzero (Vantage.calls.run action d).2.1) :
    let r := Vantage.calls.run action d
    let r' := (Vantage.beneath p).run action' d
    r'.1 = f r.1 ∧ r'.2.1.map Event.raw = r.2.1.flatMap (Event.lowered d.script.location) ∧
      r'.2.2 = r.2.2 := by
  have raw := h.rawRun_eq hn
  rw [← hp.rawRun_eq_native] at raw
  exact ⟨congrArg (·.1) raw, congrArg (·.2.1) raw, congrArg (·.2.2) raw⟩

namespace Session

variable {s : Subject}

theorem created_witnessed (l : Listener) (events : List (Event Gl)) :
    created (witnessed l events) = created events := by
  induction events with
  | nil => rfl
  | cons e events ih =>
    cases e with
    | called c answer =>
      rw [witnessed_called, created, List.filterMap_cons, ← created, ih]
      rfl
    | logged r =>
      rw [witnessed_logged]
      split
      · exact ih
      · exact ih

theorem nonzero_witnessed {l : Listener} {events : List (Event Gl)} :
    Nonzero (witnessed l events) ↔ Nonzero events := by
  rw [Nonzero, created_witnessed, Nonzero]

theorem witnessed_raw (l : Listener) (events : List (Event EntryPoints)) :
    (witnessed l events).map Event.raw = witnessed l (events.map Event.raw) := by
  induction events with
  | nil => rfl
  | cons e events ih =>
    cases e with
    | called c answer => exact congrArg (_ :: ·) ih
    | logged r =>
      rw [List.map_cons, Event.raw, witnessed_logged, witnessed_logged]
      split
      · exact congrArg (_ :: ·) ih
      · exact ih

theorem records_raw (events : List (Event EntryPoints)) :
    records (events.map Event.raw) = records events := by
  induction events with
  | nil => rfl
  | cons e events ih =>
    cases e with
    | called c answer => exact ih
    | logged r => exact congrArg (_ :: ·) ih

theorem witnessed_lowered (l : Listener) (location : String → Location) (events : List (Event Gl)) :
    witnessed l (events.flatMap (Event.lowered location)) =
      (witnessed l events).flatMap (Event.lowered location) := by
  induction events with
  | nil => rfl
  | cons e events ih =>
    cases e with
    | called c answer =>
      rw [List.flatMap_cons, witnessed_append,
        witnessed_calls fun e he => Event.isCall_of_lowered he, ih]
      rfl
    | logged r =>
      rw [List.flatMap_cons, Event.lowered, List.singleton_append, witnessed_logged,
        witnessed_logged, ih]
      split <;> rfl

theorem records_lowered (location : String → Location) (events : List (Event Gl)) :
    records (events.flatMap (Event.lowered location)) = records events := by
  induction events with
  | nil => rfl
  | cons e events ih =>
    rw [List.flatMap_cons, records, List.filterMap_append, ← records, ← records, ih]
    cases e with
    | called c answer =>
      have hq : records (Event.lowered location (.called c answer)) = [] := by
        refine List.filterMap_eq_nil_iff.2 fun e he => ?_
        have hc := Event.isCall_of_lowered he
        cases e with
        | called c answer => rfl
        | logged r => cases hc
      rw [hq]
      rfl
    | logged r => rfl

/-- A step on a platform, and the step that it is at the calls of the cache. The uniforms have these
locations. -/
structure Step.Lowers (location : String → Location) (one : Step Gl) (other : Step EntryPoints) :
    Prop where
  reply : other.reply = one.reply.retold
  ids : other.ids = one.ids
  showSources : other.showSources = one.showSources
  events : other.events.map Event.raw = one.events.flatMap (Event.lowered location)
  records : records other.events = records one.events
  located : ∀ p uniform answer, .called (.uniformLocation p uniform) answer ∈ one.events →
    answer = if location uniform < 0 then none else some (location uniform)

/-- The scene on the platform is the same in all but the calls and the reasons of refusals. -/
structure Scene.Refines {p : Platform} (one : Scene .calls s) (other : Scene (.beneath p) s) :
    Prop where
  op : other.op = one.op
  found : other.found = one.found
  listener : other.listener = one.listener
  device : other.device = one.device
  left : other.left = one.left
  step : one.step.Lowers one.device.script.location other.step

variable {p : Platform}

theorem lowers_of_run {α : Type} {action : Action Gl α} {l : Listener} {d : Device} {reply : Reply}
    {ids : Option (List UInt32)} {showSources : Bool} {events : List (Event EntryPoints)}
    (h : events.map Event.raw =
      (Vantage.calls.run action d).2.1.flatMap (Event.lowered d.script.location)) :
    Step.Lowers d.script.location
      ⟨reply, witnessed l (Vantage.calls.run action d).2.1, ids, showSources⟩
      ⟨reply.retold, witnessed l events, ids, showSources⟩ where
  reply := rfl
  ids := rfl
  showSources := rfl
  events := by rw [witnessed_raw, h, witnessed_lowered]
  records := by rw [← records_raw, witnessed_raw, h, witnessed_lowered, records_lowered]
  located p uniform answer h := Vantage.located (called_mem_witnessed.1 h)

theorem action_retold (hs : s.Indifferent) (l : Listener) (state : s.State) (op : Op s.Job) :
    Retold (Prod.map Reply.retold id) (action s l state op) (action s l state op) := by
  cases op with
  | job j => exact hs.perform l j state
  | script c => exact .done _
  | listen l => exact .done _
  | replace =>
    exact (hs.start _).bind fun fresh => (hs.stop state).bind fun _ => .done _

variable (hs : s.Indifferent) (hp : p.Documented)

include hs hp

theorem step_refines {op : Op s.Job} {w : World s.State}
    (hn : Nonzero (step .calls s op w).1.events) :
    (step (.beneath p) s op w).2 = (step .calls s op w).2 ∧
      (scene .calls s op w).Refines (scene (.beneath p) s op w) := by
  obtain ⟨hvalue, hraw, hdevice⟩ :=
    (action_retold hs (prepare w op).listener (prepare w op).state op).run_beneath hp
      (nonzero_witnessed.1 hn)
  have hw : (step (.beneath p) s op w).2 = (step .calls s op w).2 := by
    simp only [step_run, hvalue, hdevice]
    rfl
  refine ⟨hw, rfl, rfl, rfl, rfl, congrArg some hw, ?_⟩
  simp only [scene, step_run, hvalue, hdevice]
  exact lowers_of_run hraw

theorem ending_refines {w : World s.State} (hn : Nonzero (finish .calls s w).events) :
    (ending .calls s w).Refines (ending (.beneath p) s w) := by
  obtain ⟨hvalue, hraw, hdevice⟩ := (hs.stop w.state).run_beneath hp (nonzero_witnessed.1 hn)
  refine ⟨rfl, rfl, rfl, rfl, rfl, ?_⟩
  simp only [ending, finish, hdevice]
  exact lowers_of_run hraw

theorem opening_refines {settings : Settings} {l : Listener} {d : Device}
    (hn : Nonzero (start .calls s settings l d).1.events) :
    (start (.beneath p) s settings l d).2 = (start .calls s settings l d).2 ∧
      (opening .calls s settings l d).Refines (opening (.beneath p) s settings l d) := by
  obtain ⟨hvalue, hraw, hdevice⟩ := (hs.start settings).run_beneath hp (nonzero_witnessed.1 hn)
  have hw : (start (.beneath p) s settings l d).2 = (start .calls s settings l d).2 := by
    simp only [start, hvalue, hdevice]
    rfl
  refine ⟨hw, rfl, rfl, rfl, rfl, congrArg some hw, ?_⟩
  simp only [opening, start, hvalue, hdevice]
  exact lowers_of_run hraw

theorem scenes_refine {ops : List (Op s.Job)} {w : World s.State}
    (hn : ∀ scene ∈ scenes .calls s ops w, Nonzero scene.step.events) :
    List.Forall₂ Scene.Refines (scenes .calls s ops w) (scenes (.beneath p) s ops w) := by
  induction ops generalizing w with
  | nil => exact .cons (ending_refines hs hp (hn _ List.mem_cons_self)) .nil
  | cons op ops ih =>
    obtain ⟨hw, now⟩ := step_refines hs hp (hn _ List.mem_cons_self)
    have later := ih fun scene h => hn scene (.tail _ h)
    rw [scenes, scenes, hw]
    exact .cons now later

omit hs hp

/-- In every session that names no object zero, the GL of a platform sees the same as the cache,
step by step: the same worlds, replies, names and records, but for the reasons of refusals, and for
each call of the cache the calls that it stands for. -/
theorem entry_points_refine (hs : s = ofCache ∨ s = ofRenderer) (hp : p.Documented)
    (settings : Settings) (listener : Listener) (script : ScriptChange) (ops : List (Op s.Job))
    (hn : ∀ scene ∈ performance .calls s settings listener script ops,
      Nonzero scene.step.events) :
    List.Forall₂ Scene.Refines (performance .calls s settings listener script ops)
      (performance (.beneath p) s settings listener script ops) := by
  have indifferent : s.Indifferent := by
    rcases hs with rfl | rfl
    · exact ofCache_indifferent
    · exact ofRenderer_indifferent
  obtain ⟨hw, first⟩ := opening_refines indifferent hp (hn _ List.mem_cons_self)
  have rest := scenes_refine indifferent hp fun scene h => hn scene (.tail _ h)
  exact .cons first (hw ▸ rest)

def refusing : List (Op RendererJob) := [
  .script { locations := [("tex1", -7)] },
  .job (.request (.draw (.ofKey ⟨.yuvTwoPlanes, true⟩) (time ⟨1⟩))),
  .script { rejectStages := some [.vertex], vertexLog := some "" },
  .job (.request (.program ⟨.solid, false⟩ (time ⟨2⟩))),
  .script { rejectStages := some [], refusePrograms := some true },
  .job (.request (.program ⟨.solid, false⟩ (time ⟨3⟩)))]

theorem entry_points_refine_refusing :
    let one := performance .calls ofRenderer {} {} {} refusing
    let other := performance (.beneath .native) ofRenderer {} {} {} refusing
    (∀ scene ∈ one, Nonzero scene.step.events) ∧
      one.map (·.step.events.length) = [1, 0, 25, 0, 7, 0, 8, 2] ∧
      other.map (·.step.events.length) = [1, 0, 30, 0, 9, 0, 12, 2] ∧
      one[6].step.reply = .program (.error (.noProgram "out of objects")) ∧
      other[6].step.reply = .program (.error (.noProgram "Unable to create Program object")) ∧
      List.Forall₂ Scene.Refines one other := by
  intro one other
  have nonzero : ∀ scene ∈ one, Nonzero scene.step.events := by decide +kernel
  exact ⟨nonzero, by decide +kernel, by decide +kernel, rfl, rfl,
    entry_points_refine (.inr rfl) Platform.native_documented {} {} {} refusing nonzero⟩

end Session

end GlPrograms
