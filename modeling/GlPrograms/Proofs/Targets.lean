import GlPrograms.Proofs.Ending
import GlPrograms.Session.Subject

namespace GlPrograms

open GlPrograms.Action

def Settings.Owns (s : Settings) (r : Record) : Prop := r.target = s.scopeName

theorem Build.build_owned (settings : Settings) (key : Key) :
    (build settings key).Writes settings.Owns :=
  (build_writes settings key).mono <| by
    rintro r (rfl | ⟨message, rfl⟩)
    · rfl
    · rfl

namespace Cache

theorem lookup_owned (c : Cache) (key : Key) (now : Instant) :
    (c.lookup key now).Writes c.settings.Owns := by
  cases hc : c.get? key with
  | some e =>
    rw [lookup_cached hc]
    trivial
  | none =>
    rw [lookup_missing hc]
    refine (Build.build_owned c.settings key).bind fun built => ?_
    cases built with
    | error e => trivial
    | ok linked => trivial

theorem releaseAll_owned (settings : Settings) (es : List Entry) :
    (releaseAll settings es).Writes settings.Owns := by
  induction es with
  | nil => trivial
  | cons e es ih => exact ⟨rfl, fun _ => ih⟩

theorem destroy_owned (c : Cache) (key : Key) : (c.destroy key).Writes c.settings.Owns := by
  cases hc : c.get? key with
  | none =>
    rw [destroy_missing hc]
    trivial
  | some e =>
    rw [destroy_cached hc]
    exact ⟨rfl, fun _ => trivial⟩

theorem destroyAll_owned (c : Cache) : c.destroyAll.Writes c.settings.Owns :=
  (releaseAll_owned c.settings c.entries).bind fun _ => trivial

theorem abandon_owned (c : Cache) : c.abandon.Writes c.settings.Owns := by
  unfold abandon
  split
  · trivial
  · exact ⟨rfl, trivial⟩

theorem inspect_owned (c : Cache) (listener : Listener) (i : Inspection) :
    (c.inspect listener i).Writes c.settings.Owns :=
  (inspect_writes c listener i).mono fun _ h => h.2.1

theorem perform_owned (c : Cache) (listener : Listener) (request : Request) :
    (c.perform listener request).Writes c.settings.Owns := by
  cases request with
  | lookup key now => exact (lookup_owned c key now).bind fun _ => trivial
  | destroy key => exact (destroy_owned c key).bind fun _ => trivial
  | destroyAll => exact (destroyAll_owned c).bind fun _ => trivial
  | inspect i => exact (inspect_owned c listener i).bind fun _ => trivial

end Cache

namespace Renderer

theorem tellAll_owned (settings : Settings) (cs : List Gl.Command) :
    (Gl.tellAll cs).Writes settings.Owns := by
  induction cs with
  | nil => trivial
  | cons c cs ih => exact fun _ => ih

theorem draw_owned (r : Renderer) (d : Draw) (now : Instant) :
    (r.draw d now).Writes r.cache.settings.Owns := by
  refine (Cache.lookup_owned r.cache d.key now).bind fun (result, c) => ?_
  cases result with
  | error e => trivial
  | ok e => exact fun _ => (tellAll_owned r.cache.settings _).bind fun _ => trivial

theorem teardown_owned (r : Renderer) : r.teardown.Writes r.cache.settings.Owns :=
  (Cache.destroyAll_owned r.cache).bind fun _ => trivial

theorem perform_owned (r : Renderer) (listener : Listener) (request : Request) :
    (r.perform listener request).Writes r.cache.settings.Owns := by
  cases request with
  | program key now =>
    have found : (r.program key now).Writes r.cache.settings.Owns :=
      (Cache.lookup_owned r.cache key now).bind fun _ => trivial
    exact found.bind fun _ => trivial
  | draw d now => exact (draw_owned r d now).bind fun _ => trivial
  | destroy key =>
    have destroyed : (r.destroy key).Writes r.cache.settings.Owns :=
      (Cache.destroy_owned r.cache key).bind fun _ => trivial
    exact destroyed.bind fun _ => trivial
  | teardown => exact (teardown_owned r).bind fun _ => trivial
  | inspect i => exact (Cache.inspect_owned r.cache listener i).bind fun _ => trivial

end Renderer

namespace Session

/-- The subject keeps its settings, and writes every record in their scope. -/
structure Subject.KeepsScope (s : Subject) : Prop where
  start : ∀ settings, (s.start settings).Writes settings.Owns
  perform : ∀ listener job state,
    (s.perform listener job state).Writes (s.cache state).settings.Owns
  stop : ∀ state, (s.stop state).Writes (s.cache state).settings.Owns
  started : ∀ {settings events state}, (s.start settings).Plays events state →
    (s.cache state).settings = settings
  performed : ∀ {listener job state events reply state'},
    (s.perform listener job state).Plays events (reply, state') →
      (s.cache state').settings = (s.cache state).settings

theorem lookup_settings {c c' : Cache} {key : Key} {now : Instant} {events : List (Event Gl)}
    {result : Except BuildError Entry} (h : (c.lookup key now).Plays events (result, c')) :
    c'.settings = c.settings := by
  cases Cache.lookup_exit h with
  | hit | failed | built => rfl

theorem cache_settings {c c' : Cache} (listener : Listener) (request : Cache.Request)
    {events : List (Event Gl)} {reply : Reply}
    (h : (c.perform listener request).Plays events (reply, c')) : c'.settings = c.settings :=
  (Cache.turn_exit h).settings_eq

theorem lookUpEachSecond_settings {key : Key} {count : Nat} {c c' : Cache} {reply reply' : Reply}
    {now : Instant} {events : List (Event Gl)}
    (h : (CacheJob.lookUpEachSecond key c reply now count).Plays events (reply', c')) :
    c'.settings = c.settings := by
  induction count generalizing c reply now events with
  | zero =>
    obtain ⟨⟩ := h
    rfl
  | succ count ih =>
    obtain ⟨⟨result, c₁⟩, first, rest, -, hl, h⟩ := plays_bind.1 h
    exact (ih h).trans (lookup_settings hl)

theorem lookUpEachSecond_owned (key : Key) (count : Nat) (c : Cache) (reply : Reply)
    (now : Instant) :
    (CacheJob.lookUpEachSecond key c reply now count).Writes c.settings.Owns := by
  induction count generalizing c reply now with
  | zero => trivial
  | succ count ih =>
    -- The next look-up is in the scope of what this one left, which has the same settings.
    refine (Cache.lookup_owned c key now).bind_of_plays fun events (result, c₁) hl => ?_
    rw [← lookup_settings hl]
    exact ih c₁ _ _

theorem buildBeside_owned (c : Cache) (key : Key) (now : Instant) :
    (CacheJob.buildBeside c key now).Writes c.settings.Owns := by
  refine (Build.build_owned c.settings key).bind fun built => ?_
  cases built with
  | error e => trivial
  | ok linked => trivial

theorem ofCache_keepsScope : ofCache.KeepsScope where
  start settings := trivial
  perform listener job c := by
    cases job with
    | request asked => exact Cache.perform_owned c listener asked
    | series key start count => exact lookUpEachSecond_owned key count c .nothing start
    | build key now => exact (buildBeside_owned c key now).bind fun _ => trivial
  stop := Cache.abandon_owned
  started h := by
    obtain ⟨⟩ := h
    rfl
  performed {listener job c events reply c'} h := by
    cases job with
    | request asked => exact cache_settings listener asked h
    | series key start count => exact lookUpEachSecond_settings h
    | build key now =>
      obtain ⟨reply, -, he⟩ := plays_bind_pure.1 h
      exact congrArg (·.2.settings) he

theorem askProgramId_owned (c : Cache) (key : Key) :
    (RendererJob.askProgramId c key).Writes c.settings.Owns := by
  unfold RendererJob.askProgramId
  split
  · trivial
  · exact fun _ => trivial

theorem reportByKey_owned (c : Cache) (key : Key) (delay : Duration) :
    (RendererJob.reportByKey c key delay).Writes c.settings.Owns :=
  (Cache.writeReport_writes c _ _).bind fun _ => trivial

theorem renderer_settings {r r' : Renderer} (listener : Listener) (request : Renderer.Request)
    {events : List (Event Gl)} {reply : Reply}
    (h : (r.perform listener request).Plays events (reply, r')) :
    r'.cache.settings = r.cache.settings := by
  obtain ⟨_, _, _, _, hc, -⟩ := (Renderer.turn_exit h).cache_turn
  exact hc.settings_eq

theorem ofRenderer_keepsScope : ofRenderer.KeepsScope where
  start settings := ⟨rfl, trivial⟩
  perform listener job r := by
    cases job with
    | request asked => exact Renderer.perform_owned r listener asked
    | programId key => exact (askProgramId_owned r.cache key).bind fun _ => trivial
    | reportAfter key delay => exact (reportByKey_owned r.cache key delay).bind fun _ => trivial
  stop r := by
    refine (Renderer.teardown_owned r).bind_of_plays fun events r' h => ?_
    obtain ⟨c, hd, rfl⟩ := plays_bind_pure.1 h
    obtain ⟨-, rfl⟩ := Cache.destroyAll_exit hd
    trivial
  started h := by
    obtain ⟨-, rfl⟩ := Renderer.create_exit h
    rfl
  performed {listener job r events reply r'} h := by
    cases job with
    | request asked => exact renderer_settings listener asked h
    | programId key =>
      obtain ⟨reply, -, he⟩ := plays_bind_pure.1 h
      exact congrArg (·.2.cache.settings) he
    | reportAfter key delay =>
      obtain ⟨reply, -, he⟩ := plays_bind_pure.1 h
      exact congrArg (·.2.cache.settings) he

end Session

end GlPrograms
