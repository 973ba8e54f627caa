import GlPrograms.Proofs.Report
import GlPrograms.Proofs.Session.Scenes
import GlPrograms.Proofs.Targets

namespace GlPrograms

namespace Action

variable {I J : Interface} {α σ : Type} {Q : Record → Prop}
  {f : (c : I.Call) → Action J (I.Answer c)}

theorem writes_ite {p : Prop} [Decidable p] {first second : Action I α} (hf : first.Writes Q)
    (hs : second.Writes Q) : (if p then first else second).Writes Q := by
  split
  · exact hf
  · exact hs

theorem Writes.translate {action : Action I α} (ha : action.Writes Q)
    (hf : ∀ c, (f c).Writes fun _ => False) : (action.translate f).Writes Q := by
  induction action with
  | done a => trivial
  | call c next ih =>
    exact ((hf c).mono fun _ => False.elim).bind fun answer => ih answer (ha answer)
  | log r next ih => exact ⟨ha.1, ih ha.2⟩

theorem plays_translate (answer : (c : J.Call) → σ → J.Answer c × σ) (action : Action I α) (s : σ) :
    ∃ events, action.Plays events ((action.translate f).run answer s).1 := by
  induction action generalizing s with
  | done a => exact ⟨[], .done a⟩
  | call c next ih =>
    obtain ⟨events, h⟩ := ih ((f c).run answer s).1 ((f c).run answer s).2.2
    rw [Action.translate, run_bind]
    exact ⟨_, .call _ h⟩
  | log r next ih =>
    obtain ⟨events, h⟩ := ih s
    exact ⟨_, .log h⟩

end Action

namespace Vantage

open GlPrograms.Action Report

variable {v : Vantage} {α : Type}

/-- What can be seen of asking for the number of a program. -/
def asking (v : Vantage) (p : Program) : List (Event v.interface) :=
  ((v.lower (.programId p)).run v.answer {}).2.1

theorem asking_calls (p : Program) : calls.asking p = [.called (.programId p) p.name] := rfl

theorem asking_entryPoints (p : Program) : entryPoints.asking p = [] := rfl

/-- The GL writes no records, and the number of a program is its name. -/
structure Lawful (v : Vantage) : Prop where
  quiet : ∀ c, (v.lower c).Writes fun _ => False
  asks : ∀ p d, (v.lower (.programId p)).run v.answer d = (p.name, v.asking p, d)

theorem calls_lawful : calls.Lawful where
  quiet _ := fun _ => trivial
  asks _ _ := rfl

theorem lower_silent (c : Gl.Call) : (Glow.lower c).Writes fun _ => False := by
  cases c with
  | compileShader s source => exact fun _ _ _ => trivial
  | linkProgram p => exact fun _ _ => trivial
  | programId p => trivial
  | createShader | shaderLog | createProgram | programLog | uniformLocation =>
    exact fun _ => trivial
  | tell c => cases c <;> exact fun _ => trivial

theorem native_silent (c : Glow.Call) : (Glow.native c).Writes fun _ => False := by
  cases c with
  | createShader | getShaderCompileStatus | createProgram | getProgramLinkStatus
  | getUniformLocation | shaderSource | compileShader | deleteShader | attachShader
  | bindAttribLocation | linkProgram | deleteProgram | useProgram => exact fun _ => trivial
  | getShaderInfoLog | getProgramInfoLog =>
    exact fun length => writes_ite trivial fun _ => trivial
  | uniformMatrix4 location | uniform1i location | uniform1f location | uniform4f location =>
    cases location with
    | none => trivial
    | some l => exact fun _ => trivial

theorem entryPoints_lawful : entryPoints.Lawful where
  quiet c := (lower_silent c).translate native_silent
  asks _ _ := rfl

theorem isCall_of_asking (hv : v.Lawful) {p : Program} {e : Event v.interface}
    (h : e ∈ v.asking p) : e.isCall := by
  cases e with
  | called c answer => rfl
  | logged r => exact ((hv.quiet _).of_plays (plays_run v.answer _ {}) h).elim

theorem run_askIds (hv : v.Lawful) (es : List Entry) (d : Device) :
    v.run (askIds es) d = (es.map (·.program.name), es.flatMap (v.asking ·.program), d) := by
  induction es with
  | nil => rfl
  | cons e es ih =>
    have hask : v.run (.call (.programId e.program) .done) d =
        (e.program.name, v.asking e.program, d) := by
      rw [run, Action.translate, Action.run_bind, hv.asks]
      exact Prod.ext rfl (Prod.ext (List.append_nil _) rfl)
    have hcons : askIds (e :: es) =
        (.call (.programId e.program) .done : Action Gl UInt32) >>= fun id =>
          askIds es >>= fun ids => pure (id :: ids) := askIds_cons e es
    rw [hcons, Vantage.run_bind, hask]
    dsimp only
    rw [Vantage.run_bind, ih]
    simp [run_pure]

theorem run_writeReport (hv : v.Lawful) (c : Cache) (now : Instant) (d : Device) :
    v.run (c.writeReport now {}) d =
      ({ text := text now c.entries (c.entries.map (·.program.name)) },
        c.entries.flatMap (v.asking ·.program), d) := by
  rw [writeReport_steps, Vantage.run_bind, run_askIds hv]
  simp [run_pure]

theorem run_logReport (hv : v.Lawful) (c : Cache) (listener : Listener) (now : Instant)
    (d : Device) :
    v.run (c.logReport listener now) d =
      if listener.hears .debug c.settings.scopeName then
        ((), c.entries.flatMap (v.asking ·.program) ++ [.logged ⟨.debug, c.settings.scopeName,
          c.settings.scopeDescription ++ "\n"
            ++ text now c.entries (c.entries.map (·.program.name))⟩], d)
      else ((), [], d) := by
  rw [Cache.logReport]
  split
  · rw [Vantage.run_bind, run_writeReport hv]
    rfl
  · rfl

theorem writes_run (hv : v.Lawful) {Q : Record → Prop} {action : Action Gl α} (ha : action.Writes Q)
    {d : Device} {r : Record} (hr : r ∈ records (v.run action d).2.1) : Q r :=
  (ha.translate hv.quiet).of_plays (plays_run v.answer _ d) (mem_records.1 hr)

theorem plays_of_run (v : Vantage) (action : Action Gl α) (d : Device) :
    ∃ events, action.Plays events (v.run action d).1 := plays_translate v.answer action d

theorem records_asking (hv : v.Lawful) (es : List Entry) :
    records (es.flatMap (v.asking ·.program)) = [] := by
  refine List.eq_nil_iff_forall_not_mem.2 fun r hr => ?_
  obtain ⟨e, -, he⟩ := List.mem_flatMap.1 (mem_records.1 hr)
  exact absurd (isCall_of_asking hv he) (by simp [Event.isCall])

theorem calls_asking (hv : v.Lawful) (es : List Entry) :
    GlPrograms.calls (es.flatMap (v.asking ·.program)) = es.flatMap (v.asking ·.program) := by
  refine List.filter_eq_self.2 fun e he => ?_
  obtain ⟨e', -, he⟩ := List.mem_flatMap.1 he
  exact isCall_of_asking hv he

end Vantage

/-- The reply without whether anyone listens to the scope. -/
def Reply.unheard : Reply → Reply
  | .scope name description _ => .scope name description false
  | reply => reply

theorem Listener.hears_all (severity : Severity) (target : String) :
    ({} : Listener).hears severity target := by
  cases severity <;> rfl

theorem Listener.keeps_all (r : Record) : ({} : Listener).keeps r := hears_all _ _

namespace Session

variable {v : Vantage} {s : Subject} (listener : Listener) (d : Device)

structure RunHears {State : Type} (listener : Listener) (reports : Prop)
    (full one : (Reply × State) × List (Event v.interface) × Device) : Prop where
  state : one.1.2 = full.1.2
  device : one.2.2 = full.2.2
  reply : one.1.1.unheard = full.1.1.unheard
  records : (records one.2.1).filter listener.keeps = (records full.2.1).filter listener.keeps
  calls : ¬ reports → calls one.2.1 = calls full.2.1

variable {listener} in
theorem RunHears.refl {State : Type} {reports : Prop}
    (r : (Reply × State) × List (Event v.interface) × Device) : RunHears listener reports r r :=
  ⟨rfl, rfl, rfl, rfl, fun _ => rfl⟩

theorem inspect_hears {State : Type} (hv : v.Lawful) (c : Cache) (i : Inspection) (state : State) :
    RunHears listener (∃ now, i = .logReport now)
      (v.run (c.inspect {} i >>= fun reply => pure (reply, state)) d)
      (v.run (c.inspect listener i >>= fun reply => pure (reply, state)) d) := by
  cases i with
  | get | contains | size | list | settings | report => exact .refl _
  | scope => exact ⟨rfl, rfl, rfl, rfl, fun _ => rfl⟩
  | logReport now =>
    by_cases hl : listener.hears .debug c.settings.scopeName
    · have same : c.logReport listener now = c.logReport {} now := by
        rw [Cache.logReport, if_pos hl, Cache.logReport, if_pos (Listener.hears_all _ _)]
      simp only [Cache.inspect, same]
      exact .refl _
    · simp only [Cache.inspect, bind_assoc, Vantage.run_bind, Vantage.run_logReport hv, if_neg hl,
        if_pos (Listener.hears_all _ _)]
      refine ⟨rfl, rfl, rfl, ?_, fun hn => absurd ⟨now, rfl⟩ hn⟩
      have deaf (message : String) : ¬ listener.keeps ⟨.debug, c.settings.scopeName, message⟩ := hl
      simp [Vantage.run_pure, records_append, Vantage.records_asking hv, records_logged,
        records_nil, deaf]

/-- A job is an inspection, or comes out the same whoever listens. -/
structure Subject.Overheard (s : Subject) (inspection? : s.Job → Option Inspection) : Prop where
  inspects : ∀ {job i}, inspection? job = some i → ∀ listener state,
    s.perform listener job state =
      ((s.cache state).inspect listener i >>= fun reply => pure (reply, state))
  others : ∀ {job}, inspection? job = none → ∀ listener listener' state,
    s.perform listener job state = s.perform listener' job state

def CacheJob.inspection? : CacheJob → Option Inspection
  | .request (.inspect i) => some i
  | _ => none

def RendererJob.inspection? : RendererJob → Option Inspection
  | .request (.inspect i) => some i
  | _ => none

theorem ofCache_overheard : ofCache.Overheard CacheJob.inspection? where
  inspects {job i} h listener c := by
    cases job with
    | request r =>
      cases r with
      | inspect j =>
        cases h
        rfl
      | lookup | destroy | destroyAll => cases h
    | series | build => cases h
  others {job} h listener listener' c := by
    cases job with
    | request r =>
      cases r with
      | inspect j => cases h
      | lookup | destroy | destroyAll => rfl
    | series | build => rfl

theorem ofRenderer_overheard : ofRenderer.Overheard RendererJob.inspection? where
  inspects {job i} h listener r := by
    cases job with
    | request asked =>
      cases asked with
      | inspect j =>
        cases h
        rfl
      | program | draw | destroy | teardown => cases h
    | programId | reportAfter => cases h
  others {job} h listener listener' r := by
    cases job with
    | request asked =>
      cases asked with
      | inspect j => cases h
      | program | draw | destroy | teardown => rfl
    | programId | reportAfter => rfl

def Op.Reports (inspection? : s.Job → Option Inspection) : Op s.Job → Prop
  | .job j => ∃ now, inspection? j = some (.logReport now)
  | .script _ | .listen _ | .replace => False

theorem action_hears {inspection? : s.Job → Option Inspection} (hs : s.Overheard inspection?)
    (hv : v.Lawful) (op : Op s.Job) (state : s.State) :
    RunHears listener (op.Reports inspection?) (v.run (action s {} state op) d)
      (v.run (action s listener state op) d) := by
  cases op with
  | script c => exact .refl _
  | listen l => exact .refl _
  | replace => exact .refl _
  | job j =>
    simp only [action]
    cases hi : inspection? j with
    | none =>
      rw [hs.others hi listener {}]
      exact .refl _
    | some i =>
      have heard := inspect_hears listener d hv (s.cache state) i state
      rw [hs.inspects hi, hs.inspects hi]
      refine ⟨heard.state, heard.device, heard.reply, heard.records, fun hn => heard.calls ?_⟩
      rintro ⟨now, rfl⟩
      exact hn ⟨now, hi⟩

/-- Whether the operation does something, and is not a change of the listener. -/
def Op.acts {Job : Type} : Op Job → Bool
  | .listen _ => false
  | .job _ | .script _ | .replace => true

def Scene.acts (scene : Scene v s) : Bool := scene.op.all Op.acts

/-- Scenes of the same operation with the same result, and with the same calls unless it logs the
report. Whether anyone listens may differ. -/
structure Scene.Alike (inspection? : s.Job → Option Inspection) (one other : Scene v s) : Prop where
  op : one.op = other.op
  found : one.found = other.found
  device : one.device = other.device
  left : one.left.map (fun w => (w.state, w.device)) = other.left.map fun w => (w.state, w.device)
  reply : one.step.reply.unheard = other.step.reply.unheard
  ids : one.step.ids = other.step.ids
  showSources : one.step.showSources = other.step.showSources
  calls : (∀ op, one.op = some op → ¬ op.Reports inspection?) →
    calls one.step.events = calls other.step.events

/-- A scene in which a listener hears what it keeps of what is heard in another. -/
structure Scene.Hears (inspection? : s.Job → Option Inspection) (one full : Scene v s) : Prop
    extends Scene.Alike inspection? one full where
  records : records one.step.events = (records full.step.events).filter one.listener.keeps

variable {listener} in
theorem records_heard {I : Interface} {events events' : List (Event I)}
    (h : (records events).filter listener.keeps = (records events').filter listener.keeps) :
    records (witnessed listener events) =
      (records (witnessed {} events')).filter listener.keeps := by
  have hall (rs : List Record) : rs.filter ({} : Listener).keeps = rs :=
    List.filter_eq_self.2 fun r _ => Listener.keeps_all r
  rw [records_witnessed, records_witnessed, hall, h]

def World.open {State : Type} (w : World State) : World State := { w with listener := {} }

theorem scene_hears {inspection? : s.Job → Option Inspection} (hs : s.Overheard inspection?)
    (hv : v.Lawful) {op : Op s.Job} (ha : op.acts) (w : World s.State) :
    (step v s op w.open).2 = (step v s op w).2.open ∧
      (scene v s op w).Hears inspection? (scene v s op w.open) := by
  have hp : prepare w.open op = (prepare w op).open := by
    cases op with
    | job | script | replace => rfl
    | listen => cases ha
  have heard := action_hears (prepare w op).listener (prepare w op).device hs hv op
    (prepare w op).state
  have hfull : step v s op w.open = (⟨_, _, _, _⟩, ⟨_, _, _⟩) := step_run op w.open
  rw [hp] at hfull
  have hone : step v s op w = (⟨_, _, _, _⟩, ⟨_, _, _⟩) := step_run op w
  refine ⟨?_, ⟨rfl, rfl, ?_, ?_, ?_, ?_, ?_, fun hn => ?_⟩, ?_⟩
  · rw [hfull, hone]
    exact congrArg₂ (World.mk · · {}) heard.state.symm heard.device.symm
  · exact (congrArg World.device hp).symm
  · simp only [scene, hfull, hone, Option.map_some]
    exact congrArg some (Prod.ext heard.state heard.device)
  · simp only [scene, hfull, hone]
    exact heard.reply
  · simp only [scene, hfull, hone]
    exact congrArg (fun state => some (programNames (s.cache state))) heard.state
  · simp only [scene, hfull, hone]
    exact congrArg (fun d : Device => d.script.showSources) heard.device
  · simp only [scene, hfull, hone, calls_witnessed]
    exact heard.calls (hn op rfl)
  · simp only [scene, hfull, hone]
    exact records_heard heard.records

variable {inspection? : s.Job → Option Inspection}

theorem opening_hears (settings : Settings) :
    (start v s settings {} d).2 = (start v s settings listener d).2.open ∧
      (opening v s settings listener d).Hears inspection? (opening v s settings {} d) := by
  refine ⟨rfl, ⟨rfl, rfl, rfl, rfl, rfl, rfl, rfl, fun _ => ?_⟩, records_heard rfl⟩
  simp only [opening, start, calls_witnessed]

theorem ending_hears (w : World s.State) :
    (ending v s w).Hears inspection? (ending v s w.open) := by
  refine ⟨⟨rfl, rfl, rfl, rfl, rfl, rfl, rfl, fun _ => ?_⟩, records_heard rfl⟩
  simp only [ending, finish, calls_witnessed]
  rfl

theorem scenes_hear (hs : s.Overheard inspection?) (hv : v.Lawful) (ops : List (Op s.Job))
    (w : World s.State) :
    List.Forall₂ (Scene.Hears inspection?) ((scenes v s ops w).filter Scene.acts)
      (scenes v s (ops.filter Op.acts) w.open) := by
  induction ops generalizing w with
  | nil => exact .cons (ending_hears w) .nil
  | cons op ops ih =>
    by_cases ha : op.acts
    · obtain ⟨hw, now⟩ := scene_hears hs hv ha w
      have hscene : (scene v s op w).acts := ha
      rw [scenes, List.filter_cons_of_pos hscene, List.filter_cons_of_pos ha, scenes, hw]
      exact .cons now (ih _)
    · have hscene : ¬ (scene v s op w).acts := ha
      have hw : (step v s op w).2.open = w.open := by
        cases op with
        | listen l => rfl
        | job | script | replace => exact absurd rfl ha
      rw [scenes, List.filter_cons_of_neg hscene, List.filter_cons_of_neg ha, ← hw]
      exact ih _

theorem performance_hears (hs : s.Overheard inspection?) (hv : v.Lawful) (settings : Settings)
    (script : ScriptChange) (ops : List (Op s.Job)) :
    List.Forall₂ (Scene.Hears inspection?)
      ((performance v s settings listener script ops).filter Scene.acts)
      (performance v s settings {} script (ops.filter Op.acts)) := by
  obtain ⟨hw, first⟩ := opening_hears listener (Device.rescript {} script) settings
  have hscene : (opening v s settings listener (Device.rescript {} script)).acts := rfl
  rw [performance, List.filter_cons_of_pos hscene, performance, hw]
  exact .cons first (scenes_hear hs hv ops _)

theorem Scene.Alike.symm {one other : Scene v s} (h : one.Alike inspection? other) :
    other.Alike inspection? one where
  op := h.op.symm
  found := h.found.symm
  device := h.device.symm
  left := h.left.symm
  reply := h.reply.symm
  ids := h.ids.symm
  showSources := h.showSources.symm
  calls hn := (h.calls (h.op ▸ hn)).symm

theorem Scene.Alike.trans {one other another : Scene v s} (h : one.Alike inspection? other)
    (h' : other.Alike inspection? another) : one.Alike inspection? another where
  op := h.op.trans h'.op
  found := h.found.trans h'.found
  device := h.device.trans h'.device
  left := h.left.trans h'.left
  reply := h.reply.trans h'.reply
  ids := h.ids.trans h'.ids
  showSources := h.showSources.trans h'.showSources
  calls hn := (h.calls hn).trans (h'.calls (h.op ▸ hn))

theorem alike_of_hears {l l' full : List (Scene v s)}
    (h : List.Forall₂ (Scene.Hears inspection?) l full)
    (h' : List.Forall₂ (Scene.Hears inspection?) l' full) :
    List.Forall₂ (Scene.Alike inspection?) l l' := by
  induction h generalizing l' with
  | nil =>
    cases h'
    exact .nil
  | cons one _ ih =>
    obtain _ | ⟨other, h'⟩ := h'
    exact .cons (one.toAlike.trans other.toAlike.symm) (ih h')

/-- In a session with these settings, records are written in the scope of the settings. The report
asks every program for its number if it is heard, and otherwise makes no call. -/
structure Scene.Discreet (settings : Settings) (inspection? : s.Job → Option Inspection)
    (scene : Scene v s) : Prop where
  targets : ∀ r ∈ records scene.step.events, r.target = settings.scopeName
  reports : ∀ op w, scene.op = some op → op.Reports inspection? → scene.left = some w →
    calls scene.step.events =
      if scene.listener.hears .debug settings.scopeName then
        (s.cache w.state).entries.flatMap (v.asking ·.program)
      else []
  listens : ∀ l, scene.op = some (.listen l) → scene.step.events = []

theorem Scene.discreet_of_no_op {settings : Settings} {scene : Scene v s} (ho : scene.op = none)
    (ht : ∀ r ∈ records scene.step.events, r.target = settings.scopeName) :
    scene.Discreet settings inspection? where
  targets := ht
  reports op w h := by
    rw [ho] at h
    cases h
  listens l h := by
    rw [ho] at h
    cases h

theorem targets_of_writes (hv : v.Lawful) {α : Type} {action : Action Gl α} {settings : Settings}
    (ha : action.Writes settings.Owns) {r : Record}
    (hr : r ∈ records (witnessed listener (v.run action d).2.1)) :
    r.target = settings.scopeName := by
  rw [records_witnessed] at hr
  have owned : settings.Owns r := Vantage.writes_run hv ha (List.mem_filter.1 hr).1
  exact owned

theorem action_owned (hk : s.KeepsScope) (state : s.State) (op : Op s.Job) :
    (action s listener state op).Writes (s.cache state).settings.Owns := by
  cases op with
  | script | listen => trivial
  | job j => exact hk.perform listener j state
  | replace => exact (hk.start _).bind fun fresh => (hk.stop state).bind fun _ => trivial

theorem action_settings (hk : s.KeepsScope) {state state' : s.State} {op : Op s.Job}
    {events : List (Event Gl)} {reply : Reply}
    (h : (action s listener state op).Plays events (reply, state')) :
    (s.cache state').settings = (s.cache state).settings := by
  cases op with
  | script | listen =>
    obtain ⟨⟩ := h
    rfl
  | job j => exact hk.performed h
  | replace =>
    obtain ⟨fresh, first, rest, -, hf, h⟩ := Action.plays_bind.1 h
    obtain ⟨_, -, he⟩ := Action.plays_bind_pure.1 h
    obtain ⟨-, rfl⟩ := Prod.mk.inj he
    exact hk.started hf

theorem step_settings (hk : s.KeepsScope) (op : Op s.Job) (w : World s.State) :
    (s.cache (step v s op w).2.state).settings = (s.cache w.state).settings := by
  obtain ⟨events, h⟩ := Vantage.plays_of_run v
    (action s (prepare w op).listener (prepare w op).state op) (prepare w op).device
  rw [← prepare_state op w]
  exact action_settings _ hk h

theorem step_reports (hs : s.Overheard inspection?) (hv : v.Lawful) {op : Op s.Job}
    (hr : op.Reports inspection?) (w : World s.State) :
    (step v s op w).2.state = w.state ∧
      calls (step v s op w).1.events =
        if w.listener.hears .debug (s.cache w.state).settings.scopeName then
          (s.cache w.state).entries.flatMap (v.asking ·.program)
        else [] := by
  cases op with
  | script | listen | replace => cases hr
  | job j =>
    obtain ⟨now, hi⟩ := hr
    have hrun := Vantage.run_logReport hv (s.cache w.state) w.listener now w.device
    simp only [step, prepare, action, hs.inspects hi, Cache.inspect, Vantage.run_bind, hrun,
      calls_witnessed]
    split
    · refine ⟨rfl, ?_⟩
      simp [Vantage.run_pure, calls_append, Vantage.calls_asking hv, calls_logged, calls_nil]
    · exact ⟨rfl, rfl⟩

theorem scene_discreet (hs : s.Overheard inspection?) (hk : s.KeepsScope) (hv : v.Lawful)
    (op : Op s.Job) (w : World s.State) :
    (scene v s op w).Discreet (s.cache w.state).settings inspection? where
  targets r hr := by
    rw [← prepare_state op w]
    exact targets_of_writes _ _ hv (action_owned _ hk _ op) hr
  reports op' w' ho hr hw := by
    obtain rfl : op = op' := Option.some.inj ho
    obtain rfl : (step v s op w).2 = w' := Option.some.inj hw
    obtain ⟨hstate, hcalls⟩ := step_reports hs hv hr w
    have hlistener : (scene v s op w).listener = w.listener := by
      cases op with
      | job j => rfl
      | script | listen | replace => cases hr
    rw [hstate, hlistener]
    exact hcalls
  listens l ho := by
    obtain rfl : op = .listen l := Option.some.inj ho
    rfl

theorem scenes_discreet (hs : s.Overheard inspection?) (hk : s.KeepsScope) (hv : v.Lawful)
    {settings : Settings} {ops : List (Op s.Job)} {w : World s.State}
    (hw : (s.cache w.state).settings = settings) {scene : Scene v s}
    (h : scene ∈ scenes v s ops w) :
    scene.Discreet settings inspection? := by
  induction ops generalizing w with
  | nil =>
    obtain rfl := List.mem_singleton.1 h
    exact Scene.discreet_of_no_op rfl fun r =>
      targets_of_writes w.listener w.device hv (hw ▸ hk.stop w.state)
  | cons op ops ih =>
    rcases List.mem_cons.1 h with rfl | h
    · exact hw ▸ scene_discreet hs hk hv op w
    · exact ih ((step_settings hk op w).trans hw) h

theorem performance_discreet (hs : s.Overheard inspection?) (hk : s.KeepsScope) (hv : v.Lawful)
    (settings : Settings) (script : ScriptChange) (ops : List (Op s.Job)) {scene : Scene v s}
    (h : scene ∈ performance v s settings listener script ops) :
    scene.Discreet settings inspection? := by
  rcases List.mem_cons.1 h with rfl | h
  · exact Scene.discreet_of_no_op rfl fun r => targets_of_writes listener _ hv (hk.start settings)
  · obtain ⟨events, hstart⟩ := Vantage.plays_of_run v (s.start settings) (Device.rescript {} script)
    exact scenes_discreet hs hk hv (hk.started hstart) h

inductive Subject.Inspected : (s : Subject) → (s.Job → Option Inspection) → Prop
  | cache : Inspected ofCache CacheJob.inspection?
  | renderer : Inspected ofRenderer RendererJob.inspection?

/-- Sessions that differ in nothing but who listens, and when, come to the same, and each listener
hears what it keeps of what is heard when all is. Only a logged report makes calls that hang on the
listener, and no record is written outside the scope. -/
theorem listening_changes_nothing (hs : s.Inspected inspection?)
    (hv : v = .calls ∨ v = .entryPoints) (settings : Settings) (script : ScriptChange)
    (listener listener' : Listener) (ops ops' : List (Op s.Job))
    (same : ops.filter Op.acts = ops'.filter Op.acts) :
    let one := performance v s settings listener script ops
    let other := performance v s settings listener' script ops'
    let full := performance v s settings {} script (ops.filter Op.acts)
    one.map Scene.shown = play v s settings listener script ops ∧
      List.Forall₂ (Scene.Alike inspection?) (one.filter Scene.acts) (other.filter Scene.acts) ∧
      List.Forall₂ (Scene.Hears inspection?) (one.filter Scene.acts) full ∧
      ∀ scene ∈ one, scene.Discreet settings inspection? := by
  intro one other full
  obtain ⟨overheard, keeps⟩ : s.Overheard inspection? ∧ s.KeepsScope := by
    cases hs with
    | cache => exact ⟨ofCache_overheard, ofCache_keepsScope⟩
    | renderer => exact ⟨ofRenderer_overheard, ofRenderer_keepsScope⟩
  have lawful : v.Lawful := by
    rcases hv with rfl | rfl
    · exact Vantage.calls_lawful
    · exact Vantage.entryPoints_lawful
  have heard := performance_hears listener overheard lawful settings script ops
  have heard' := performance_hears listener' overheard lawful settings script ops'
  rw [← same] at heard'
  exact ⟨rfl, alike_of_hears heard heard', heard, fun scene =>
    performance_discreet listener overheard keeps lawful settings script ops⟩

def attended : List (Op CacheJob) := [
  .job (.request (.lookup ⟨.rgba, false⟩ (time ⟨1⟩))),
  .listen ⟨.debug, none⟩,
  .job (.request (.inspect (.logReport (time ⟨2⟩))))]

def ignored : List (Op CacheJob) := [
  .job (.request (.lookup ⟨.rgba, false⟩ (time ⟨1⟩))),
  .job (.request (.inspect (.logReport (time ⟨2⟩)))),
  .listen ⟨.error, some []⟩]

theorem listening_changes_nothing_attended :
    let one := (performance .calls ofCache {} ⟨.off, none⟩ {} attended).filter Scene.acts
    let other := (performance .calls ofCache {} ⟨.warn, none⟩ {} ignored).filter Scene.acts
    let full := performance .calls ofCache {} {} {} (attended.filter Op.acts)
    attended.filter Op.acts = ignored.filter Op.acts ∧
      one.map (fun scene => (calls scene.step.events).length) = [0, 18, 1, 0] ∧
      other.map (fun scene => (calls scene.step.events).length) = [0, 18, 0, 0] ∧
      one.map (fun scene => (records scene.step.events).length) = [0, 0, 1, 1] ∧
      other.map (fun scene => (records scene.step.events).length) = [0, 0, 0, 0] ∧
      full.map (fun scene => (records scene.step.events).length) = [0, 1, 1, 1] ∧
      List.Forall₂ (Scene.Alike CacheJob.inspection?) one other ∧
      List.Forall₂ (Scene.Hears CacheJob.inspection?) one full := by
  intro one other full
  obtain ⟨-, alike, hears, -⟩ := listening_changes_nothing .cache (.inl rfl) {} {} ⟨.off, none⟩
    ⟨.warn, none⟩ attended ignored rfl
  exact ⟨rfl, by decide +kernel, by decide +kernel, by decide +kernel, by decide +kernel,
    by decide +kernel, alike, hears⟩

end Session

end GlPrograms
