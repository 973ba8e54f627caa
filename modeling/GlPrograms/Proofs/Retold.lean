import GlPrograms.Proofs.Build.Steps
import GlPrograms.Proofs.Cache.Turns
import GlPrograms.Proofs.Glow
import GlPrograms.Session.Subject

namespace GlPrograms

/-- The same error, with its reason as the entry points would have it. -/
def BuildError.retold : BuildError → BuildError
  | .allocation "shader object" _ => .noShader "Unable to create Shader object"
  | .allocation "program object" _ => .noProgram "Unable to create Program object"
  | e => e

def Reply.retold : Reply → Reply
  | .program result => .program (result.mapError BuildError.retold)
  | .drawn result => .drawn (result.mapError BuildError.retold)
  | reply => reply

namespace Action

variable {α β γ δ : Type} {f : α → β} {g : γ → δ}

/-- Both actions do the same, although the second is told of refusals in the words of the entry
points, and `f` leads from the end of the first to that of the second. -/
inductive Retold (f : α → β) : Action Gl α → Action Gl β → Prop
  | done (a : α) : Retold f (done a) (done (f a))
  | call {c next next'}
      (later : ∀ answer, Retold f (next answer) (next' (c.reworded EntryPoint.words answer))) :
      Retold f (call c next) (call c next')
  | log {r next next'} (later : Retold f next next') : Retold f (log r next) (log r next')

theorem Retold.bind {action : Action Gl α} {action' : Action Gl β} {next : α → Action Gl γ}
    {next' : β → Action Gl δ} (h : Retold f action action')
    (hn : ∀ a, Retold g (next a) (next' (f a))) :
    Retold g (action >>= next) (action' >>= next') := by
  induction h with
  | done a => exact hn a
  | call later ih => exact .call ih
  | log later ih => exact .log ih

theorem retold_of_asks {action : Action Gl α} (h : action.Only Cache.Asks) :
    Retold id action action := by
  induction action with
  | done a => exact .done a
  | call c next ih =>
    obtain ⟨⟨p, rfl⟩, hn⟩ := h
    exact .call fun answer => ih answer (hn answer)
  | log r next ih => exact .log (ih h)

end Action

open GlPrograms.Action

namespace Build

variable {α : Type} {settings : Settings} {stage : Stage} {parts : List String}

abbrev outcome (result : Except BuildError α) : Except BuildError α :=
  result.mapError BuildError.retold

theorem rejectShader_retold (s : Shader) :
    Retold outcome (rejectShader (α := α) settings stage parts s)
      (rejectShader settings stage parts s) := by
  rw [rejectShader_steps]
  refine .call fun text => .log ?_
  cases settings.dumpRejected with
  | false => exact .done _
  | true => exact .log (.done _)

theorem withShader_retold {use : Shader → Action Gl (Except BuildError α)}
    (hu : ∀ s, Retold outcome (use s) (use s)) :
    Retold outcome (withShader settings stage parts use) (withShader settings stage parts use) := by
  rw [withShader_steps]
  refine .call fun made => ?_
  cases made with
  | error reason => exact .done _
  | ok s =>
    have close (result : Except BuildError α) :
        Retold outcome (Gl.tell (.deleteShader s) >>= fun _ => pure result)
          (Gl.tell (.deleteShader s) >>= fun _ => pure (outcome result)) :=
      .call fun _ => .done _
    refine .call fun accepted => ?_
    cases accepted with
    | true => exact (hu s).bind close
    | false => exact (rejectShader_retold s).bind close

theorem link_retold (vertex fragment : Shader) :
    Retold outcome (link settings vertex fragment) (link settings vertex fragment) := by
  rw [link_steps]
  refine .call fun made => ?_
  cases made with
  | error reason => exact .done _
  | ok p =>
    refine .call fun _ => .call fun _ => .call fun _ => .call fun _ => .call fun accepted => ?_
    cases accepted with
    | true => exact .done _
    | false => exact .call fun text => .log (.call fun _ => .done _)

theorem locate_retold (p : Program) : Retold id (locate p) (locate p) := by
  rw [locate_steps]
  refine .call fun projection => .call fun first => .call fun second => .call fun third => ?_
  exact .call fun alpha => .call fun color => .done _

theorem build_retold (settings : Settings) (key : Key) :
    Retold outcome (build settings key) (build settings key) := by
  have assembled : Retold outcome (assemble settings (Source.fragmentParts key))
      (assemble settings (Source.fragmentParts key)) :=
    withShader_retold fun vertex => withShader_retold fun fragment => link_retold vertex fragment
  rw [build_steps]
  refine .log (assembled.bind fun result => ?_)
  cases result with
  | error e => exact .done _
  | ok p => exact (locate_retold p).bind fun l => .done _

end Build

namespace Cache

open Build (outcome)

theorem lookup_retold (c : Cache) (key : Key) (now : Instant) :
    Retold (Prod.map outcome id) (c.lookup key now) (c.lookup key now) := by
  cases hc : c.get? key with
  | some e =>
    rw [lookup_cached hc]
    exact .done _
  | none =>
    rw [lookup_missing hc]
    refine (Build.build_retold c.settings key).bind fun built => ?_
    cases built with
    | error e => exact .done _
    | ok linked => exact .done _

theorem releaseAll_retold (settings : Settings) (es : List Entry) :
    Retold id (releaseAll settings es) (releaseAll settings es) := by
  induction es with
  | nil => exact .done _
  | cons e es ih => exact .log (.call fun _ => ih)

theorem destroy_retold (c : Cache) (key : Key) : Retold id (c.destroy key) (c.destroy key) := by
  cases hc : c.get? key with
  | none =>
    rw [destroy_missing hc]
    exact .done _
  | some e =>
    rw [destroy_cached hc]
    exact .log (.call fun _ => .done _)

theorem destroyAll_retold (c : Cache) : Retold id c.destroyAll c.destroyAll :=
  (releaseAll_retold c.settings c.entries).bind fun _ => .done _

theorem abandon_retold (c : Cache) : Retold id c.abandon c.abandon := by
  unfold abandon
  split
  · exact .done _
  · exact .log (.done _)

theorem inspect_retold (c : Cache) (listener : Listener) (i : Inspection) :
    Retold Reply.retold (c.inspect listener i) (c.inspect listener i) := by
  cases i with
  | get | contains | size | list | settings | scope => exact .done _
  | report now limit => exact (retold_of_asks (writeReport_asks c now _)).bind fun s => .done _
  | logReport now =>
    have asks : (c.logReport listener now).Only Asks := by
      unfold logReport
      split
      · exact (writeReport_asks c now _).bind fun _ => trivial
      · trivial
    exact (retold_of_asks asks).bind fun _ => .done _

theorem perform_retold (c : Cache) (listener : Listener) (request : Request) :
    Retold (Prod.map Reply.retold id) (c.perform listener request)
      (c.perform listener request) := by
  cases request with
  | lookup key now => exact (lookup_retold c key now).bind fun r => .done _
  | destroy key => exact (destroy_retold c key).bind fun r => .done _
  | destroyAll => exact (destroyAll_retold c).bind fun c => .done _
  | inspect i => exact (inspect_retold c listener i).bind fun reply => .done _

end Cache

namespace Renderer

theorem tellAll_retold (cs : List Gl.Command) : Retold id (Gl.tellAll cs) (Gl.tellAll cs) := by
  induction cs with
  | nil => exact .done _
  | cons c cs ih => exact .call fun _ => ih

theorem draw_retold (r : Renderer) (d : Draw) (now : Instant) :
    Retold (Prod.map Build.outcome id) (r.draw d now) (r.draw d now) := by
  refine (Cache.lookup_retold r.cache d.key now).bind fun (result, c) => ?_
  cases result with
  | error e => exact .done _
  | ok e => exact .call fun _ => (tellAll_retold _).bind fun _ => .done _

theorem perform_retold (r : Renderer) (listener : Listener) (request : Request) :
    Retold (Prod.map Reply.retold id) (r.perform listener request)
      (r.perform listener request) := by
  cases request with
  | program key now =>
    refine Retold.bind (f := Prod.map Build.outcome id) ?_ fun r => .done _
    exact (Cache.lookup_retold r.cache key now).bind fun r => .done _
  | draw d now => exact (draw_retold r d now).bind fun r => .done _
  | destroy key =>
    refine Retold.bind (f := id) ?_ fun r => .done _
    exact (Cache.destroy_retold r.cache key).bind fun r => .done _
  | teardown =>
    refine Retold.bind (f := id) ?_ fun r => .done _
    exact (Cache.destroyAll_retold r.cache).bind fun c => .done _
  | inspect i => exact (Cache.inspect_retold r.cache listener i).bind fun reply => .done _

theorem close_retold (r : Renderer) : Retold id r.close r.close := by
  refine Retold.bind (f := id) ?_ fun r => Cache.abandon_retold r.cache
  exact (Cache.destroyAll_retold r.cache).bind fun c => .done _

end Renderer

namespace Session

/-- A refusal told in other words changes the replies and nothing else. -/
structure Subject.Indifferent (s : Subject) : Prop where
  start : ∀ settings, Retold id (s.start settings) (s.start settings)
  perform : ∀ listener job state, Retold (Prod.map Reply.retold id) (s.perform listener job state)
    (s.perform listener job state)
  stop : ∀ state, Retold id (s.stop state) (s.stop state)

theorem lookUpEachSecond_retold (key : Key) (count : Nat) (c : Cache) (reply : Reply)
    (now : Instant) :
    Retold (Prod.map Reply.retold id) (CacheJob.lookUpEachSecond key c reply now count)
      (CacheJob.lookUpEachSecond key c reply.retold now count) := by
  induction count generalizing c reply now with
  | zero => exact .done _
  | succ count ih =>
    exact (Cache.lookup_retold c key now).bind fun r => ih r.2 (.program r.1) _

theorem buildBeside_retold (c : Cache) (key : Key) (now : Instant) :
    Retold Reply.retold (CacheJob.buildBeside c key now) (CacheJob.buildBeside c key now) := by
  refine (Build.build_retold c.settings key).bind fun built => ?_
  cases built with
  | error e => exact .done _
  | ok linked => exact .done _

theorem ofCache_indifferent : ofCache.Indifferent where
  start settings := .done _
  perform listener job c := by
    cases job with
    | request asked => exact Cache.perform_retold c listener asked
    | series key start count => exact lookUpEachSecond_retold key count c .nothing start
    | build key now => exact (buildBeside_retold c key now).bind fun reply => .done _
  stop := Cache.abandon_retold

theorem askProgramId_retold (c : Cache) (key : Key) :
    Retold Reply.retold (RendererJob.askProgramId c key) (RendererJob.askProgramId c key) := by
  unfold RendererJob.askProgramId
  split
  · exact .done _
  · exact .call fun id => .done _

theorem reportByKey_retold (c : Cache) (key : Key) (delay : Duration) :
    Retold Reply.retold (RendererJob.reportByKey c key delay)
      (RendererJob.reportByKey c key delay) :=
  (retold_of_asks (Cache.writeReport_asks c _ _)).bind fun _ => .done _

theorem ofRenderer_indifferent : ofRenderer.Indifferent where
  start settings := .log (.done _)
  perform listener job r := by
    cases job with
    | request asked => exact Renderer.perform_retold r listener asked
    | programId key => exact (askProgramId_retold r.cache key).bind fun reply => .done _
    | reportAfter key delay =>
      exact (reportByKey_retold r.cache key delay).bind fun reply => .done _
  stop := Renderer.close_retold

end Session

end GlPrograms
