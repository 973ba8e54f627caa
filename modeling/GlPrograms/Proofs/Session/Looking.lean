import GlPrograms.Proofs.Session.Listening

namespace GlPrograms

open GlPrograms.Action

/-- The elements with a mark. -/
def picked {α : Type} : List Bool → List α → List α
  | true :: marks, a :: as => a :: picked marks as
  | false :: marks, _ :: as => picked marks as
  | _, _ => []

/-- The record of a report. -/
def Cache.reported (c : Cache) (now : Instant) : Record :=
  ⟨.debug, c.settings.scopeName, c.settings.scopeDescription ++ "\n"
    ++ Report.text now c.entries (c.entries.map (·.program.name))⟩

namespace Vantage

variable {v : Vantage} {α : Type}

theorem run_of_asks (hv : v.Lawful) {action : Action Gl α} (ha : action.Only Cache.Asks)
    (d : Device) :
    (v.run action d).2.2 = d ∧
      ∀ e ∈ GlPrograms.calls (v.run action d).2.1, ∃ p, e ∈ v.asking p := by
  induction action with
  | done a => exact ⟨rfl, fun e he => by cases he⟩
  | call c next ih =>
    obtain ⟨⟨p, rfl⟩, hn⟩ := ha
    obtain ⟨hd, hcalls⟩ := ih p.name (hn p.name)
    have hrun : v.run (.call (.programId p) next) d = ((v.run (next p.name) d).1,
        v.asking p ++ (v.run (next p.name) d).2.1, (v.run (next p.name) d).2.2) := by
      rw [run, Action.translate, Action.run_bind, hv.asks]
      rfl
    rw [hrun]
    refine ⟨hd, fun e he => ?_⟩
    rw [calls_append] at he
    rcases List.mem_append.1 he with he | he
    · exact ⟨p, List.mem_of_mem_filter he⟩
    · exact hcalls e he
  | log r next ih => exact ih ha

end Vantage

namespace Cache

variable {c : Cache} {key : Key} (listener : Listener)

theorem perform_destroy_absent (h : c.contains key = false) :
    c.perform listener (.destroy key) = .done (.flag false, c) := by
  simp only [perform, destroy_missing (contains_eq_false.1 h)]
  rfl

theorem inspect_silent {i : Inspection} (h : ∀ now, i ≠ .logReport now) :
    (c.inspect listener i).Writes fun _ => False := by
  cases i with
  | get | contains | size | list | settings | scope => trivial
  | report now limit => exact (writeReport_writes c now _).bind fun _ => trivial
  | logReport now => exact absurd rfl (h now)

end Cache

theorem Renderer.perform_destroy_absent {r : Renderer} {key : Key} (listener : Listener)
    (h : r.cache.contains key = false) :
    r.perform listener (.destroy key) = .done (.flag false, r) := by
  simp only [perform, destroy, Cache.destroy_missing (Cache.contains_eq_false.1 h)]
  rfl

namespace Session

variable {v : Vantage} {s : Subject}

/-- Whether a job only looks at the cache. To destroy what is not there is no more than to look. -/
def CacheJob.looks (c : Cache) : CacheJob → Bool
  | .request (.inspect _) => true
  | .request (.destroy key) => !c.contains key
  | .request (.lookup _ _) | .request .destroyAll | .series _ _ _ | .build _ _ => false

def RendererJob.looks (r : Renderer) : RendererJob → Bool
  | .request (.inspect _) | .programId _ | .reportAfter _ _ => true
  | .request (.destroy key) => !r.cache.contains key
  | .request (.program _ _) | .request (.draw _ _) | .request .teardown => false

/-- An action that comes to a reply by asking for numbers of programs at most. It writes nothing,
unless it is to log the report. -/
structure Glance (i : Option Inspection) (look : Action Gl Reply) : Prop where
  asks : look.Only Cache.Asks
  silent : (∀ now, i ≠ some (.logReport now)) → look.Writes fun _ => False

theorem inspect_glance (c : Cache) (listener : Listener) (i : Inspection) :
    Glance (some i) (c.inspect listener i) where
  asks := Cache.inspect_asks c listener i
  silent h := Cache.inspect_silent listener fun now hi => h now (congrArg some hi)

theorem glance_done (i : Option Inspection) (reply : Reply) : Glance i (.done reply) :=
  ⟨trivial, fun _ => trivial⟩

theorem askProgramId_glance (c : Cache) (key : Key) :
    Glance none (RendererJob.askProgramId c key) := by
  unfold RendererJob.askProgramId
  split
  · exact glance_done none _
  · next e _ => exact ⟨⟨⟨e.program, rfl⟩, fun _ => trivial⟩, fun _ _ => trivial⟩

theorem reportByKey_glance (c : Cache) (key : Key) (delay : Duration) :
    Glance none (RendererJob.reportByKey c key delay) where
  asks := (Cache.writeReport_asks c _ _).bind fun _ => trivial
  silent _ := (Cache.writeReport_writes c _ _).bind fun _ => trivial

def Subject.Looks (s : Subject) (looks : s.State → s.Job → Bool)
    (inspection? : s.Job → Option Inspection) : Prop :=
  ∀ {state job}, looks state job → ∀ listener, ∃ look, Glance (inspection? job) look ∧
    s.perform listener job state = look >>= fun reply => pure (reply, state)

theorem ofCache_looks : ofCache.Looks CacheJob.looks CacheJob.inspection? := by
  intro c job h listener
  cases job with
  | request r =>
    cases r with
    | inspect i => exact ⟨_, inspect_glance c listener i, rfl⟩
    | destroy key =>
      have absent : c.contains key = false := by simpa [CacheJob.looks] using h
      exact ⟨_, glance_done none (.flag false), Cache.perform_destroy_absent listener absent⟩
    | lookup | destroyAll => cases h
  | series | build => cases h

theorem ofRenderer_looks : ofRenderer.Looks RendererJob.looks RendererJob.inspection? := by
  intro r job h listener
  cases job with
  | request asked =>
    cases asked with
    | inspect i => exact ⟨_, inspect_glance r.cache listener i, rfl⟩
    | destroy key =>
      have absent : r.cache.contains key = false := by simpa [RendererJob.looks] using h
      exact ⟨_, glance_done none (.flag false), Renderer.perform_destroy_absent listener absent⟩
    | program | draw | teardown => cases h
  | programId key => exact ⟨_, askProgramId_glance r.cache key, rfl⟩
  | reportAfter key delay => exact ⟨_, reportByKey_glance r.cache key delay, rfl⟩

def Op.looks (looks : s.State → s.Job → Bool) (state : s.State) : Op s.Job → Bool
  | .job j => looks state j
  | .script _ | .listen _ | .replace => false

/-- Every operation that is not kept only looks at the cache that it finds. -/
def Skimming (v : Vantage) (s : Subject) (looks : s.State → s.Job → Bool) :
    List Bool → List (Op s.Job) → World s.State → Bool
  | [], [], _ => true
  | kept :: marks, op :: ops, w =>
      (kept || op.looks looks w.state) && Skimming v s looks marks ops (step v s op w).2
  | _, _, _ => false

/-- What a scene shows in which the cache was only looked at. -/
structure Scene.Looks (inspection? : s.Job → Option Inspection) (scene : Scene v s) : Prop where
  asks : ∀ e ∈ calls scene.step.events, ∃ p, e ∈ v.asking p
  silent : ∀ op, scene.op = some op → ¬ op.Reports inspection? → records scene.step.events = []
  reports : ∀ j now w, scene.op = some (.job j) → inspection? j = some (.logReport now) →
    scene.left = some w → records scene.step.events =
      if scene.listener.hears .debug (s.cache w.state).settings.scopeName then
        [(s.cache w.state).reported now]
      else []

variable {looks : s.State → s.Job → Bool} {inspection? : s.Job → Option Inspection}

theorem records_of_report (hs : s.Overheard inspection?) (hv : v.Lawful) {j : s.Job} {now : Instant}
    (hi : inspection? j = some (.logReport now)) (w : World s.State) :
    records (step v s (.job j) w).1.events =
      if w.listener.hears .debug (s.cache w.state).settings.scopeName then
        [(s.cache w.state).reported now]
      else [] := by
  have hrun := Vantage.run_logReport hv (s.cache w.state) w.listener now w.device
  simp only [step, prepare, action, hs.inspects hi, Cache.inspect, Vantage.run_bind, hrun,
    records_witnessed]
  split
  · next heard =>
    have hk : w.listener.keeps ((s.cache w.state).reported now) := heard
    simp only [Vantage.run_pure, records_append, Vantage.records_asking hv, records_logged,
      records_nil, List.nil_append, List.append_nil]
    exact List.filter_cons_of_pos hk
  · rfl

theorem step_of_looks (hl : s.Looks looks inspection?) (hs : s.Overheard inspection?)
    (hv : v.Lawful)
    {op : Op s.Job} {w : World s.State} (h : op.looks looks w.state) :
    (step v s op w).2 = w ∧ (scene v s op w).Looks inspection? := by
  cases op with
  | script | listen | replace => cases h
  | job j =>
    obtain ⟨look, glance, hp⟩ := hl h w.listener
    obtain ⟨hd, hcalls⟩ := Vantage.run_of_asks hv glance.asks w.device
    have hstep : step v s (.job j) w =
        (⟨(v.run look w.device).1, witnessed w.listener (v.run look w.device).2.1,
          some (programNames (s.cache w.state)), (v.run look w.device).2.2.script.showSources⟩,
          ⟨w.state, (v.run look w.device).2.2, w.listener⟩) := by
      simp only [step, prepare, action, hp, Vantage.run_bind, Vantage.run_pure, List.append_nil]
    have hw : (step v s (.job j) w).2 = w := by rw [hstep, hd]
    refine ⟨hw, ?_, ?_, ?_⟩
    · intro e he
      apply hcalls
      simpa only [scene, hstep, calls_witnessed] using he
    · rintro op ⟨⟩ hn
      have quiet : records (v.run look w.device).2.1 = [] :=
        List.eq_nil_iff_forall_not_mem.2 fun r hr =>
          Vantage.writes_run hv (glance.silent fun now hi => hn ⟨now, hi⟩) hr
      simp only [scene, hstep, records_witnessed, quiet, List.filter_nil]
    · rintro _ now w' ⟨⟩ hi ⟨⟩
      rw [hw]
      exact records_of_report hs hv hi w

theorem scenes_skimmed (hl : s.Looks looks inspection?) (hs : s.Overheard inspection?)
    (hv : v.Lawful)
    {kept : List Bool} {ops : List (Op s.Job)} {w : World s.State}
    (h : Skimming v s looks kept ops w) :
    scenes v s (picked kept ops) w = picked (kept ++ [true]) (scenes v s ops w) ∧
      ∀ scene ∈ picked (kept.map (!·) ++ [false]) (scenes v s ops w), scene.Looks inspection? := by
  induction kept generalizing ops w with
  | nil =>
    cases ops with
    | nil => exact ⟨rfl, fun scene hscene => by cases hscene⟩
    | cons op ops => cases h
  | cons mark kept ih =>
    cases ops with
    | nil => cases h
    | cons op ops =>
      simp only [Skimming, Bool.and_eq_true, Bool.or_eq_true] at h
      obtain ⟨hop, hrest⟩ := h
      obtain ⟨same, looked⟩ := ih hrest
      cases mark with
      | true => exact ⟨congrArg (scene v s op w :: ·) same, looked⟩
      | false =>
        obtain ⟨hw, now⟩ := step_of_looks hl hs hv (hop.resolve_left Bool.false_ne_true)
        refine ⟨?_, fun scene hscene => ?_⟩
        · rw [hw] at same
          simpa only [scenes, picked, List.cons_append, hw] using same
        · rcases List.mem_cons.1 hscene with rfl | hscene
          · exact now
          · exact looked scene hscene

inductive Subject.Watched :
    (s : Subject) → (s.State → s.Job → Bool) → (s.Job → Option Inspection) → Prop
  | cache : Watched ofCache CacheJob.looks CacheJob.inspection?
  | renderer : Watched ofRenderer RendererJob.looks RendererJob.inspection?

/-- If some operations that only look are left out of a session, what is left of it, with its end,
is the same in every respect. What was left out made no calls but for the numbers of programs, and
wrote nothing but a report that was to be logged. -/
theorem looking_changes_nothing (hs : s.Watched looks inspection?)
    (hv : v = .calls ∨ v = .entryPoints)
    (settings : Settings) (script : ScriptChange) (listener : Listener) (ops : List (Op s.Job))
    (kept : List Bool)
    (skimming : Skimming v s looks kept ops
      (start v s settings listener (Device.rescript {} script)).2) :
    let whole := performance v s settings listener script ops
    let rest := performance v s settings listener script (picked kept ops)
    whole.map Scene.shown = play v s settings listener script ops ∧
      rest.map Scene.shown = play v s settings listener script (picked kept ops) ∧
      rest = picked (true :: kept ++ [true]) whole ∧
      ∀ scene ∈ picked (false :: kept.map (!·) ++ [false]) whole, scene.Looks inspection? := by
  intro whole rest
  obtain ⟨watched, overheard⟩ : s.Looks looks inspection? ∧ s.Overheard inspection? := by
    cases hs with
    | cache => exact ⟨ofCache_looks, ofCache_overheard⟩
    | renderer => exact ⟨ofRenderer_looks, ofRenderer_overheard⟩
  have lawful : v.Lawful := by
    rcases hv with rfl | rfl
    · exact Vantage.calls_lawful
    · exact Vantage.entryPoints_lawful
  obtain ⟨same, looked⟩ := scenes_skimmed watched overheard lawful skimming
  exact ⟨rfl, rfl, congrArg (_ :: ·) same, looked⟩

def skimmed : List (Op RendererJob) := [
  .job (.request (.program ⟨.rgba, false⟩ (time ⟨1⟩))),
  .job (.request (.inspect (.report (time ⟨2⟩) (some 100)))),
  .job (.request (.program ⟨.solid, true⟩ (time ⟨3⟩))),
  .job (.request (.inspect (.logReport clock))),
  .job (.request (.draw (.ofKey ⟨.rgba, false⟩) (time ⟨4⟩))),
  .job (.programId ⟨.solid, true⟩),
  .job (.request (.destroy ⟨.rgba, false⟩)),
  .job (.request (.destroy ⟨.rgba, false⟩))]

theorem looking_changes_nothing_skimmed :
    let kept := [true, false, true, false, true, false, true, false]
    let whole := performance .calls ofRenderer {} {} {} skimmed
    let rest := performance .calls ofRenderer {} {} {} (picked kept skimmed)
    let deleted := picked (false :: kept.map (!·) ++ [false]) whole
    Skimming .calls ofRenderer RendererJob.looks kept skimmed
        (start .calls ofRenderer {} {} (Device.rescript {} {})).2 ∧
      deleted.map (fun scene => (calls scene.step.events).length) = [0, 2, 1, 0] ∧
      deleted.map (fun scene => (records scene.step.events).length) = [0, 1, 0, 0] ∧
      rest.map (fun scene => (calls scene.step.events).length) = [0, 18, 18, 7, 1, 1] ∧
      rest = picked (true :: kept ++ [true]) whole ∧
      ∀ scene ∈ deleted, scene.Looks RendererJob.inspection? := by
  intro kept whole rest deleted
  have skimming : Skimming .calls ofRenderer RendererJob.looks kept skimmed
      (start .calls ofRenderer {} {} (Device.rescript {} {})).2 := by decide +kernel
  obtain ⟨-, -, same, looked⟩ :=
    looking_changes_nothing .renderer (.inl rfl) {} {} {} skimmed kept skimming
  exact ⟨skimming, by decide +kernel, by decide +kernel, by decide +kernel, same, looked⟩

end Session

end GlPrograms
