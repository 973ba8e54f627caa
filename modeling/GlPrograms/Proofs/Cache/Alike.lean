import GlPrograms.Proofs.Build.Alike
import GlPrograms.Proofs.Cache.Turns

namespace GlPrograms

open GlPrograms.Action

open Gl (Object)

def Entry.unnamed (e : Entry) : Entry := { e with program := ⟨0⟩ }

def Reply.unnamed : Reply → Reply
  | .entry e => .entry (e.map Entry.unnamed)
  | .entries es => .entries (es.map Entry.unnamed)
  | .program result => .program (result.map Entry.unnamed)
  | reply => reply

def Inspection.Reports : Inspection → Prop
  | .report _ _ | .logReport _ => True
  | _ => False

namespace Cache

variable {c d : Cache} {key : Key} {now : Instant} {e : Entry}

def unnamed (c : Cache) : Cache where
  settings := c.settings
  entries := c.entries.map Entry.unnamed
  distinct := by
    rw [List.map_map]
    exact c.distinct

theorem settings_alike (h : c.unnamed = d.unnamed) : c.settings = d.settings := by
  have hs := congrArg Cache.settings h
  exact hs

theorem entries_alike (h : c.unnamed = d.unnamed) :
    c.entries.map Entry.unnamed = d.entries.map Entry.unnamed := by
  have hes := congrArg Cache.entries h
  exact hes

theorem get?_unnamed (c : Cache) (key : Key) :
    c.unnamed.get? key = (c.get? key).map Entry.unnamed := by
  simp only [get?, unnamed, List.find?_map]
  rfl

theorem unnamed_touch (c : Cache) (key : Key) (now : Instant) :
    (c.touch key now).unnamed = c.unnamed.touch key now := by
  simp only [touch, unnamed, List.map_map, Cache.mk.injEq, true_and]
  refine List.map_congr_left fun e _ => ?_
  by_cases hk : e.key = key
  · simp [Entry.unnamed, hk]
  · simp [Entry.unnamed, hk]

theorem unnamed_erase (c : Cache) (key : Key) : (c.erase key).unnamed = c.unnamed.erase key := by
  simp only [erase, unnamed, List.filter_map, Cache.mk.injEq, true_and]
  rfl

theorem unnamed_insert {e e' : Entry} (h : c.unnamed = d.unnamed) (he : e.unnamed = e'.unnamed)
    (absent : c.get? e.key = none) (absent' : d.get? e'.key = none) :
    (c.insert e absent).unnamed = (d.insert e' absent').unnamed := by
  obtain ⟨hs, hentries⟩ := Cache.mk.inj h
  simp only [insert, unnamed, List.map_cons, Cache.mk.injEq]
  exact ⟨hs, congrArg₂ List.cons he hentries⟩

/-- The caches have the same to say of one key, but for names. -/
structure SameAt (key : Key) (c d : Cache) : Prop where
  settings : c.settings = d.settings
  entry : (c.get? key).map Entry.unnamed = (d.get? key).map Entry.unnamed

theorem sameAt_of_unnamed (h : c.unnamed = d.unnamed) (key : Key) : SameAt key c d where
  settings := settings_alike h
  entry := by rw [← get?_unnamed, ← get?_unnamed, h]

theorem SameAt.both (h : SameAt key c d) : (c.get? key = none ∧ d.get? key = none) ∨
    ∃ e e', c.get? key = some e ∧ d.get? key = some e' ∧ e.unnamed = e'.unnamed := by
  have hg := h.entry
  cases hc : c.get? key with
  | none =>
    cases hd : d.get? key with
    | none => exact .inl ⟨rfl, rfl⟩
    | some e' => simp [hc, hd] at hg
  | some e =>
    cases hd : d.get? key with
    | none => simp [hc, hd] at hg
    | some e' => exact .inr ⟨e, e', rfl, rfl, by simpa [hc, hd] using hg⟩

theorem SameAt.contains_eq (h : SameAt key c d) : c.contains key = d.contains key := by
  have hs := congrArg Option.isSome h.entry
  rwa [Option.isSome_map, Option.isSome_map] at hs

/-- The program of a key in one cache stands for that in the other. -/
def bonds (key : Key) (c d : Cache) : Bonds :=
  List.zipWith (fun e e' => (.program e.program, .program e'.program)) (c.get? key).toList
    (d.get? key).toList

theorem bonds_cached {e' : Entry} (hc : c.get? key = some e) (hd : d.get? key = some e') :
    bonds key c d = [(.program e.program, .program e'.program)] := by
  simp [bonds, hc, hd]

theorem bonds_missing (hc : c.get? key = none) : bonds key c d = [] := by
  simp [bonds, hc]

inductive LookupEnds (c d : Cache) (key : Key) (now : Instant) :
    Except BuildError Entry × Cache → Except BuildError Entry × Cache → Prop
  | hit {e e' : Entry} (cached : c.get? key = some e) (cached' : d.get? key = some e')
      (same : e.unnamed = e'.unnamed) :
      LookupEnds c d key now (.ok { e with lastUsed := now }, c.touch key now)
        (.ok { e' with lastUsed := now }, d.touch key now)
  | failed (e : BuildError) (missing : c.get? key = none) (missing' : d.get? key = none) :
      LookupEnds c d key now (.error e, c) (.error e, d)
  | built (p p' : Program) (locations : Locations) (missing : c.get? key = none)
      (missing' : d.get? key = none) :
      LookupEnds c d key now
        (.ok ⟨key, p, locations, now⟩, c.insert ⟨key, p, locations, now⟩ missing)
        (.ok ⟨key, p', locations, now⟩, d.insert ⟨key, p', locations, now⟩ missing')

section LookupEnds

variable {a b : Except BuildError Entry × Cache}

theorem LookupEnds.result_alike (h : LookupEnds c d key now a b) :
    a.1.map Entry.unnamed = b.1.map Entry.unnamed := by
  cases h with
  | hit cached cached' same =>
    have hu := congrArg (fun x : Entry => { x with lastUsed := now }) same
    exact congrArg Except.ok hu
  | failed e missing missing' => rfl
  | built p p' locations missing missing' => rfl

theorem LookupEnds.cache_alike (h : LookupEnds c d key now a b) (hu : c.unnamed = d.unnamed) :
    a.2.unnamed = b.2.unnamed := by
  cases h with
  | hit cached cached' same => simp [unnamed_touch, hu]
  | failed e missing missing' => exact hu
  | built p p' locations missing missing' => exact unnamed_insert hu rfl missing missing'

theorem LookupEnds.sameAt (h : LookupEnds c d key now a b) (hs : SameAt key c d) :
    SameAt key a.2 b.2 := by
  cases h with
  | @hit e e' cached cached' same =>
    have hu := congrArg (fun x : Entry => { x with lastUsed := now }) same
    exact ⟨hs.settings, by simpa [get?_touch, cached, cached', Entry.unnamed] using hu⟩
  | failed e missing missing' => exact hs
  | built p p' locations missing missing' =>
    exact ⟨hs.settings, by simp [get?_insert, Entry.unnamed]⟩

theorem LookupEnds.cached {e e' : Entry} {c' d' : Cache}
    (h : LookupEnds c d key now (.ok e, c') (.ok e', d')) :
    c'.get? key = some e ∧ d'.get? key = some e' := by
  cases h with
  | hit cached cached' same => exact ⟨by simp [get?_touch, cached], by simp [get?_touch, cached']⟩
  | built p p' locations missing missing' => exact ⟨by simp [get?_insert], by simp [get?_insert]⟩

end LookupEnds

theorem lookup_paired (h : SameAt key c d) (now : Instant) :
    Paired (fun a b ρ => LookupEnds c d key now a b ∧ ρ = bonds key a.2 b.2) (bonds key c d)
      (c.lookup key now) (d.lookup key now) := by
  rcases h.both with ⟨hc, hd⟩ | ⟨e, e', hc, hd, he⟩
  · rw [lookup_missing hc, lookup_missing hd, h.settings]
    refine (Build.build_paired d.settings key _).bind fun a b ρ hab => ?_
    cases hab with
    | failed e => exact .done ⟨.failed e hc hd, rfl⟩
    | built p p' locations =>
      have ends : LookupEnds c d key now _ _ := .built p p' locations hc hd
      obtain ⟨hc', hd'⟩ := ends.cached
      exact .done ⟨ends, by rw [bonds_missing hc, bonds_cached hc' hd']⟩
  · rw [lookup_cached hc, lookup_cached hd]
    have ends : LookupEnds c d key now _ _ := .hit hc hd he
    obtain ⟨hc', hd'⟩ := ends.cached
    exact .done ⟨ends, by rw [bonds_cached hc hd, bonds_cached hc' hd']⟩

theorem lookup_alike (h : c.unnamed = d.unnamed) (key : Key) (now : Instant) :
    Alike (Prod.map (Except.map Entry.unnamed) Cache.unnamed) (c.lookup key now)
      (d.lookup key now) :=
  (lookup_paired (sameAt_of_unnamed h key) now).alike fun _ _ _ he =>
    Prod.ext he.1.result_alike (he.1.cache_alike h)

inductive DestroyEnds (c d : Cache) (key : Key) : Bool × Cache → Bool × Cache → Prop
  | absent : DestroyEnds c d key (false, c) (false, d)
  | gone : DestroyEnds c d key (true, c.erase key) (true, d.erase key)

theorem destroy_paired (h : SameAt key c d) :
    Paired (fun a b ρ => DestroyEnds c d key a b ∧ ρ = bonds key a.2 b.2) (bonds key c d)
      (c.destroy key) (d.destroy key) := by
  rcases h.both with ⟨hc, hd⟩ | ⟨e, e', hc, hd, he⟩
  · rw [destroy_missing hc, destroy_missing hd]
    exact .done ⟨.absent, rfl⟩
  · have hk : e.key = e'.key := (get?_eq_some.1 hc).2.trans (get?_eq_some.1 hd).2.symm
    rw [destroy_cached hc, destroy_cached hd, h.settings, bonds_cached hc hd]
    unfold release
    rw [hk]
    refine .log (.call rfl (.cons List.mem_cons_self .nil) fun _ _ _ => .done ⟨.gone, ?_⟩)
    rw [bonds_missing (by simp [get?_erase])]
    simp [Naming.after, Event.created, Event.deleted]

theorem destroy_alike (h : c.unnamed = d.unnamed) (key : Key) :
    Alike (Prod.map id Cache.unnamed) (c.destroy key) (d.destroy key) := by
  refine (destroy_paired (sameAt_of_unnamed h key)).alike fun a b ρ he => ?_
  obtain ⟨he, -⟩ := he
  cases he with
  | absent => simp [h]
  | gone => simp [unnamed_erase, h]

theorem DestroyEnds.sameAt {a b : Bool × Cache} (h : DestroyEnds c d key a b)
    (hs : SameAt key c d) :
    SameAt key a.2 b.2 := by
  cases h with
  | absent => exact hs
  | gone => exact ⟨hs.settings, by simp [get?_erase]⟩

theorem release_alike {settings : Settings} {e e' : Entry} (h : e.unnamed = e'.unnamed) :
    Alike id (release settings e) (release settings e') := by
  have hk := congrArg Entry.key h
  simp only [Entry.unnamed] at hk
  unfold release
  rw [hk]
  exact .log (.call rfl fun _ _ _ => .done rfl)

theorem releaseAll_alike {settings : Settings} {es es' : List Entry}
    (h : es.map Entry.unnamed = es'.map Entry.unnamed) :
    Alike id (releaseAll settings es) (releaseAll settings es') := by
  induction es generalizing es' with
  | nil =>
    obtain rfl := List.map_eq_nil_iff.1 h.symm
    exact .done rfl
  | cons e es ih =>
    cases es' with
    | nil => cases h
    | cons e' es' =>
      obtain ⟨he, hes⟩ := List.cons.inj h
      exact (release_alike he).bind fun _ _ _ => ih hes

theorem destroyAll_alike (h : c.unnamed = d.unnamed) :
    Alike Cache.unnamed c.destroyAll d.destroyAll := by
  unfold destroyAll
  rw [settings_alike h]
  exact (releaseAll_alike (entries_alike h)).bind fun _ _ _ => .done rfl

theorem inspect_alike (h : c.unnamed = d.unnamed) (listener : Listener) {i : Inspection}
    (hi : ¬ i.Reports) : Alike Reply.unnamed (c.inspect listener i) (d.inspect listener i) := by
  have hs := settings_alike h
  have hes := entries_alike h
  cases i with
  | get key => exact .done (congrArg Reply.entry (sameAt_of_unnamed h key).entry)
  | contains key =>
    exact .done (congrArg Reply.flag (sameAt_of_unnamed h key).contains_eq)
  | size =>
    have hl := congrArg List.length hes
    rw [List.length_map, List.length_map] at hl
    exact .done (congrArg Reply.size hl)
  | list => exact .done (congrArg Reply.entries hes)
  | settings => exact .done (congrArg Reply.settings hs)
  | scope =>
    refine .done ?_
    simp only [hs]
  | report now limit => exact absurd trivial hi
  | logReport now => exact absurd trivial hi

def Request.Reports : Request → Prop
  | .inspect i => i.Reports
  | _ => False

theorem perform_alike (h : c.unnamed = d.unnamed) (listener : Listener) {request : Request}
    (hr : ¬ request.Reports) : Alike (Prod.map Reply.unnamed Cache.unnamed)
      (c.perform listener request) (d.perform listener request) := by
  cases request with
  | lookup key now =>
    exact (lookup_alike h key now).pair Reply.program id (fun _ _ he => congrArg Reply.program he)
      fun _ _ he => he
  | destroy key =>
    exact (destroy_alike h key).pair Reply.flag id (fun _ _ he => congrArg Reply.flag he)
      fun _ _ he => he
  | destroyAll => exact (destroyAll_alike h).bind fun a b hab => .done (Prod.ext rfl hab)
  | inspect i => exact (inspect_alike h listener hr).bind fun a b hab => .done (Prod.ext hab h)

end Cache

end GlPrograms
