import GlPrograms.Proofs.Renderer
import GlPrograms.Proofs.Scripted

namespace GlPrograms

/-- Something that keeps a cache. -/
structure Keeper where
  State : Type
  Request : Type
  perform : State → Listener → Request → Action Gl (Reply × State)
  cache : State → Cache
  /-- The key that a request wants the program of. -/
  wanted : Request → Option Key
  /-- Whether a request shows the names of objects. -/
  Reports : Request → Prop
  unnamed : State → State

def Cache.Request.wanted : Cache.Request → Option Key
  | .lookup key _ => some key
  | _ => none

def Renderer.Request.wanted : Renderer.Request → Option Key
  | .program key _ => some key
  | .draw d _ => some d.key
  | _ => none

def Reply.failure : Reply → Option BuildError
  | .program (.error e) | .drawn (.error e) => some e
  | _ => none

namespace Cache

variable {c c' : Cache} {key other : Key} {now : Instant} {events : List (Event Gl)}
  {result : Except BuildError Entry}

theorem LookupExit.fails {e : BuildError} (h : LookupExit c key now events (.error e) c') :
    key ∉ c.keys ∧ c' = c ∧ (Build.build c.settings key).Plays events (.error e) := by
  cases h with
  | failed missing build => exact ⟨get?_eq_none.1 missing, rfl, build⟩

theorem LookupExit.misses (h : LookupExit c key now events result c') (hk : key ∉ c.keys) :
    events.countP Event.starts = 1 := by
  cases h with
  | hit cached => simp [get?_eq_none.2 hk] at cached
  | failed missing build => exact Build.build_starts build
  | built missing build => exact Build.build_starts build

theorem LookupExit.keeps_absent (h : LookupExit c key now events result c') (hne : key ≠ other)
    (hk : other ∉ c.keys) : other ∉ c'.keys := by
  cases h with
  | hit cached => rwa [keys_touch]
  | failed missing build => exact hk
  | built missing build => simp [hk, hne.symm]

theorem DestroyExit.keeps_absent {found : Bool} (h : DestroyExit c key events found c')
    (hk : other ∉ c.keys) : other ∉ c'.keys := by
  cases h with
  | absent missing => exact hk
  | gone cached => simp [hk]

end Cache

theorem Renderer.countP_drawing (e : Entry) (d : Draw) :
    (drawing e d).countP Event.starts = 0 := by
  rw [List.countP_eq_zero]
  intro x hx
  obtain ⟨c, -, rfl⟩ := List.mem_map.1 hx
  simp [Event.starts]

namespace Keeper

def ofCache : Keeper where
  State := Cache
  Request := Cache.Request
  perform := Cache.perform
  cache := id
  wanted := Cache.Request.wanted
  Reports := Cache.Request.Reports
  unnamed := Cache.unnamed

def ofRenderer : Keeper where
  State := Renderer
  Request := Renderer.Request
  perform := Renderer.perform
  cache := Renderer.cache
  wanted := Renderer.Request.wanted
  Reports := Renderer.Request.Reports
  unnamed := Renderer.unnamed

structure Lawful (k : Keeper) : Prop where
  fails : ∀ {s listener request key events reply s' e}, k.wanted request = some key →
    (k.perform s listener request).Plays events (reply, s') → reply.failure = some e →
    key ∉ (k.cache s).keys ∧ s' = s ∧ (Build.build (k.cache s).settings key).Plays events (.error e)
  misses : ∀ {s listener request key events reply s'}, k.wanted request = some key →
    key ∉ (k.cache s).keys → (k.perform s listener request).Plays events (reply, s') →
    events.countP Event.starts = 1
  absent : ∀ {s listener request key events reply s'}, k.wanted request ≠ some key →
    key ∉ (k.cache s).keys → (k.perform s listener request).Plays events (reply, s') →
    key ∉ (k.cache s').keys
  alike : ∀ {s s' listener request}, k.unnamed s = k.unnamed s' → ¬ k.Reports request →
    Action.Alike (Prod.map Reply.unnamed k.unnamed) (k.perform s listener request)
      (k.perform s' listener request)
  reports : ∀ {s listener request events reply s'}, k.Reports request →
    (k.perform s listener request).Plays events (reply, s') → s' = s
  steady : ∀ {w script} s listener request, Steady w script (k.perform s listener request)

theorem ofCache_lawful : ofCache.Lawful where
  fails hw h hf := by
    cases Cache.turn_exit h with
    | @lookup key now _ result _ exit =>
      cases hw
      cases result with
      | error e =>
        cases hf
        exact exit.fails
      | ok e => cases hf
    | destroy exit => cases hw
    | destroyAll => cases hw
    | inspect seen => cases hw
  misses hw hk h := by
    cases Cache.turn_exit h with
    | lookup exit =>
      cases hw
      exact exit.misses hk
    | destroy exit => cases hw
    | destroyAll => cases hw
    | inspect seen => cases hw
  absent hw hk h := by
    cases Cache.turn_exit h with
    | lookup exit => exact exit.keeps_absent (fun he => hw (congrArg some he)) hk
    | destroy exit => exact exit.keeps_absent hk
    | destroyAll => exact List.not_mem_nil
    | inspect seen => exact hk
  alike hs hr := Cache.perform_alike hs _ hr
  reports hr h := by
    cases Cache.turn_exit h with
    | lookup exit => cases hr
    | destroy exit => cases hr
    | destroyAll => cases hr
    | inspect seen => rfl
  steady := Cache.perform_steady

theorem ofRenderer_lawful : ofRenderer.Lawful where
  fails hw h hf := by
    cases Renderer.turn_exit h with
    | @program key now _ result _ exit =>
      cases hw
      cases result with
      | error e =>
        cases hf
        obtain ⟨hk, rfl, hb⟩ := exit.fails
        exact ⟨hk, rfl, hb⟩
      | ok e => cases hf
    | refused exit =>
      cases hw
      cases hf
      obtain ⟨hk, rfl, hb⟩ := exit.fails
      exact ⟨hk, rfl, hb⟩
    | drawn exit => cases hf
    | destroy exit => cases hw
    | teardown => cases hw
    | inspect seen => cases hw
  misses hw hk h := by
    cases Renderer.turn_exit h with
    | program exit =>
      cases hw
      exact exit.misses hk
    | refused exit =>
      cases hw
      exact exit.misses hk
    | drawn exit =>
      cases hw
      rw [List.countP_append, exit.misses hk, Renderer.countP_drawing]
    | destroy exit => cases hw
    | teardown => cases hw
    | inspect seen => cases hw
  absent hw hk h := by
    cases Renderer.turn_exit h with
    | program exit => exact exit.keeps_absent (fun he => hw (congrArg some he)) hk
    | refused exit => exact exit.keeps_absent (fun he => hw (congrArg some he)) hk
    | drawn exit => exact exit.keeps_absent (fun he => hw (congrArg some he)) hk
    | destroy exit => exact exit.keeps_absent hk
    | teardown => exact List.not_mem_nil
    | inspect seen => exact hk
  alike hs hr := Renderer.perform_alike (Renderer.mk.inj hs) _ hr
  reports hr h := by
    cases Renderer.turn_exit h with
    | program exit => cases hr
    | refused exit => cases hr
    | drawn exit => cases hr
    | destroy exit => cases hr
    | teardown => cases hr
    | inspect seen => rfl
  steady := Renderer.perform_steady

end Keeper

end GlPrograms
