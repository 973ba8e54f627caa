import GlPrograms.Proofs.Keeper

namespace GlPrograms

open GlPrograms.Action

open Gl (Object)

def Inspection.subject : Inspection → Option Key
  | .get key | .contains key => some key
  | _ => none

def Reply.named : Reply → List Object
  | .entry (some e) | .program (.ok e) => [.program e.program]
  | .entries es => es.map fun e => .program e.program
  | _ => []

/-- Which keys the requests of a keeper are for. -/
structure Keeper.Aims (k : Keeper) where
  /-- The key whose program is made, used or deleted. -/
  target : k.Request → Option Key
  /-- The key that the reply tells of. -/
  subject : k.Request → Option Key

namespace Cache

variable {c c' d d' : Cache} {key other : Key} {now : Instant} {events : List (Event Gl)}

def Request.target : Request → Option Key
  | .lookup key _ | .destroy key => some key
  | _ => none

def Request.subject : Request → Option Key
  | .inspect i => i.subject
  | request => request.target

structure Spares (key : Key) (c c' : Cache) : Prop where
  settings : c'.settings = c.settings
  entry : c'.get? key = c.get? key

theorem spares_refl (key : Key) (c : Cache) : Spares key c c := ⟨rfl, rfl⟩

theorem Spares.trans {c'' : Cache} (h : Spares key c c') (h' : Spares key c' c'') :
    Spares key c c'' :=
  ⟨h'.settings.trans h.settings, h'.entry.trans h.entry⟩

theorem SameAt.spared (h : SameAt key c d) (hc : Spares key c c') (hd : Spares key d d') :
    SameAt key c' d' where
  settings := by rw [hc.settings, hd.settings, h.settings]
  entry := by rw [hc.entry, hd.entry, h.entry]

theorem LookupExit.spares {result : Except BuildError Entry}
    (h : LookupExit c other now events result c') (hne : other ≠ key) : Spares key c c' := by
  cases h with
  | hit cached => exact ⟨rfl, by simp [get?_touch, hne.symm]⟩
  | failed missing build => exact spares_refl key c
  | built missing build => exact ⟨rfl, by simp [get?_insert, hne.symm]⟩

theorem DestroyExit.spares {found : Bool} (h : DestroyExit c other events found c')
    (hne : other ≠ key) : Spares key c c' := by
  cases h with
  | absent missing => exact spares_refl key c
  | gone cached => exact ⟨rfl, by simp [get?_erase, hne.symm]⟩

theorem SameAt.emptied (h : SameAt key c d) : SameAt key (empty c.settings) (empty d.settings) :=
  ⟨h.settings, rfl⟩

/-- Actions that reply the same about a key, and leave caches that are the same there. -/
structure Told (key : Key) (r r' : Reply) (c d : Cache) (ρ : Bonds) : Prop where
  reply : r.unnamed = r'.unnamed
  shown : Bonds.Bound ρ r.named r'.named
  same : SameAt key c d
  bonds : ρ = bonds key c d

theorem told_lookup (h : SameAt key c d) (now : Instant) :
    Paired (fun a b ρ => Told key (.program a.1) (.program b.1) a.2 b.2 ρ) (bonds key c d)
      (c.lookup key now) (d.lookup key now) := by
  refine (lookup_paired h now).mono fun a b ρ he => ?_
  obtain ⟨result, c'⟩ := a
  obtain ⟨result', d'⟩ := b
  obtain ⟨he, rfl⟩ := he
  refine ⟨congrArg Reply.program he.result_alike, ?_, he.sameAt h, rfl⟩
  rcases both_fail_or_succeed he.result_alike with ⟨x, rfl, rfl⟩ | ⟨e, e', rfl, rfl, -⟩
  · exact .nil
  · obtain ⟨hc, hd⟩ := he.cached
    exact .cons (by simp [bonds_cached hc hd]) .nil

theorem told_destroy (h : SameAt key c d) :
    Paired (fun a b ρ => Told key (.flag a.1) (.flag b.1) a.2 b.2 ρ) (bonds key c d)
      (c.destroy key) (d.destroy key) := by
  refine (destroy_paired h).mono fun a b ρ he => ?_
  obtain ⟨he, rfl⟩ := he
  refine ⟨?_, .nil, he.sameAt h, rfl⟩
  cases he with
  | absent => rfl
  | gone => rfl

theorem told_inspect {i : Inspection} (hi : i.subject = some key) (h : SameAt key c d)
    (listener : Listener) :
    Paired (fun a b ρ => Told key a b c d ρ) (bonds key c d) (c.inspect listener i)
      (d.inspect listener i) := by
  cases i with
  | get _ =>
    cases hi
    refine .done ⟨congrArg Reply.entry h.entry, ?_, h, rfl⟩
    rcases h.both with ⟨hc, hd⟩ | ⟨e, e', hc, hd, -⟩
    · rw [hc, hd]
      exact .nil
    · rw [hc, hd]
      exact .cons (by simp [bonds_cached hc hd]) .nil
  | contains _ =>
    cases hi
    exact .done ⟨congrArg Reply.flag h.contains_eq, .nil, h, rfl⟩
  | size | list | settings | scope | report | logReport => cases hi

end Cache

namespace Renderer

open Cache (SameAt bonds Told)

variable {r s : Renderer} {key : Key}

def Request.target : Request → Option Key
  | .program key _ | .destroy key => some key
  | .draw d _ => some d.key
  | _ => none

def Request.subject : Request → Option Key
  | .inspect i => i.subject
  | request => request.target

theorem told_draw {d : Draw} (h : SameAt d.key r.cache s.cache) (now : Instant) :
    Paired (fun a b ρ => Told d.key (.drawn a.1) (.drawn b.1) a.2.cache b.2.cache ρ)
      (bonds d.key r.cache s.cache) (r.draw d now) (s.draw d now) := by
  refine (draw_paired h now).mono ?_
  rintro a b ρ ⟨x, y, he, rfl, rfl, rfl⟩
  refine ⟨congrArg Reply.drawn ?_, .nil, he.sameAt h, rfl⟩
  rcases both_fail_or_succeed he.result_alike with ⟨e, hx, hy⟩ | ⟨e, e', hx, hy, -⟩
  · simp [drawn, hx, hy]
  · simp [drawn, hx, hy, Except.map]

end Renderer

namespace Keeper

open Cache (SameAt Spares bonds Told)

variable {k : Keeper}

structure Aims.Lawful (aims : k.Aims) : Prop where
  aimed : ∀ {request key}, aims.target request = some key → aims.subject request = some key
  spares : ∀ {s listener request other key events reply s'}, aims.subject request = some other →
    other ≠ key → (k.perform s listener request).Plays events (reply, s') →
    Spares key (k.cache s) (k.cache s')
  told : ∀ {s s' listener request key}, aims.subject request = some key →
    SameAt key (k.cache s) (k.cache s') →
    Paired (fun a b ρ => Told key a.1 b.1 (k.cache a.2) (k.cache b.2) ρ)
      (bonds key (k.cache s) (k.cache s')) (k.perform s listener request)
      (k.perform s' listener request)
  rest : ∀ {s s' listener request key events events' reply reply' a a'},
    aims.subject request = none → SameAt key (k.cache s) (k.cache s') →
    (k.perform s listener request).Plays events (reply, a) →
    (k.perform s' listener request).Plays events' (reply', a') →
    SameAt key (k.cache a) (k.cache a')

def cacheAims : ofCache.Aims := ⟨Cache.Request.target, Cache.Request.subject⟩

def rendererAims : ofRenderer.Aims := ⟨Renderer.Request.target, Renderer.Request.subject⟩

theorem cacheAims_lawful : cacheAims.Lawful where
  aimed {request key} h := by
    cases request with
    | lookup | destroy => exact h
    | destroyAll | inspect => cases h
  spares ht hne h := by
    cases Cache.turn_exit h with
    | lookup exit =>
      cases ht
      exact exit.spares hne
    | destroy exit =>
      cases ht
      exact exit.spares hne
    | destroyAll => cases ht
    | inspect seen => exact Cache.spares_refl _ _
  told {s s' listener request key} hs h := by
    cases request with
    | lookup _ now =>
      cases hs
      exact (Cache.told_lookup h now).bind fun a b ρ ht => .done ht
    | destroy _ =>
      cases hs
      exact (Cache.told_destroy h).bind fun a b ρ ht => .done ht
    | destroyAll => cases hs
    | inspect i => exact (Cache.told_inspect hs h listener).bind fun a b ρ ht => .done ht
  rest ht hs h h' := by
    have exit' := Cache.turn_exit h'
    cases Cache.turn_exit h with
    | lookup exit => cases ht
    | destroy exit => cases ht
    | destroyAll =>
      cases exit'
      exact hs.emptied
    | inspect seen =>
      cases exit'
      exact hs

theorem rendererAims_lawful : rendererAims.Lawful where
  aimed {request key} h := by
    cases request with
    | program | draw | destroy => exact h
    | teardown | inspect => cases h
  spares ht hne h := by
    cases Renderer.turn_exit h with
    | program exit =>
      cases ht
      exact exit.spares hne
    | refused exit =>
      cases ht
      exact exit.spares hne
    | drawn exit =>
      cases ht
      exact exit.spares hne
    | destroy exit =>
      cases ht
      exact exit.spares hne
    | teardown => cases ht
    | inspect seen => exact Cache.spares_refl _ _
  told {s s' listener request key} hs h := by
    cases request with
    | program _ now =>
      cases hs
      exact ((Cache.told_lookup h now).bind fun a b ρ ht => .done ht).bind fun a b ρ ht => .done ht
    | draw d now =>
      cases hs
      exact (Renderer.told_draw h now).bind fun a b ρ ht => .done ht
    | destroy _ =>
      cases hs
      exact ((Cache.told_destroy h).bind fun a b ρ ht => .done ht).bind fun a b ρ ht => .done ht
    | teardown => cases hs
    | inspect i => exact (Cache.told_inspect hs h listener).bind fun a b ρ ht => .done ht
  rest ht hs h h' := by
    have exit' := Renderer.turn_exit h'
    cases Renderer.turn_exit h with
    | program exit => cases ht
    | refused exit => cases ht
    | drawn exit => cases ht
    | destroy exit => cases ht
    | teardown =>
      cases exit'
      exact hs.emptied
    | inspect seen =>
      cases exit'
      exact hs

end Keeper

end GlPrograms
