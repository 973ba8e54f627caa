import GlPrograms.Proofs.Build.Calls
import GlPrograms.Proofs.Cache.Recall
import GlPrograms.Proofs.Renderer
import Mathlib.Data.List.Forall2
import Mathlib.Data.List.ReduceOption

namespace GlPrograms

theorem forall₂_split {α β : Type} {R : α → β → Prop} {l : List α} {before after : List β} {b : β}
    (h : List.Forall₂ R l (before ++ b :: after)) :
    ∃ before' a after', l = before' ++ a :: after' ∧ List.Forall₂ R before' before ∧ R a b ∧
      List.Forall₂ R after' after := by
  obtain ⟨a, after', hab, hafter, hd⟩ :=
    List.forall₂_cons_right_iff.1 (List.forall₂_drop_append l before (b :: after) h)
  refine ⟨l.take before.length, a, after', ?_, List.forall₂_take_append l before _ h, hab, hafter⟩
  rw [← hd, List.take_append_drop]

namespace Locations

/-- The uploads of a draw in their order, each at its place. An inactive uniform leaves its place
empty. -/
def places (l : Locations) (d : Draw) : List (Option Gl.Command) := [
  l.projection.map (.setMatrix · d.projection),
  (l.samplers.get ⟨0, Nat.succ_pos 2⟩).map (.setSampler · 0),
  (l.samplers.get ⟨1, Nat.one_lt_succ_succ 1⟩).map (.setSampler · 1),
  (l.samplers.get ⟨2, Nat.lt_succ_self 2⟩).map (.setSampler · 2),
  l.alpha.map (.setFloat · d.alpha),
  l.color.map (.setVector · d.color)]

theorem toList_samplers (l : Locations) :
    l.samplers.toList = [l.samplers.get ⟨0, Nat.succ_pos 2⟩,
      l.samplers.get ⟨1, Nat.one_lt_succ_succ 1⟩, l.samplers.get ⟨2, Nat.lt_succ_self 2⟩] := by
  apply List.ext_getElem
  · simp
  · intro i hi _
    have hi : i = 0 ∨ i = 1 ∨ i = 2 := by
      rw [Vector.length_toList] at hi
      omega
    rcases hi with rfl | rfl | rfl <;> rfl

theorem uploads_eq (l : Locations) (d : Draw) : l.uploads d = (l.places d).reduceOption := by
  simp only [uploads, samplerUploads, toList_samplers, places, List.reduceOption,
    List.filterMap_eq_flatMap_toList]
  simp [List.zipIdx_cons]

theorem length_uploads (l : Locations) (d : Draw) : (l.uploads d).length = l.resolved := by
  rw [uploads_eq, List.reduceOption_length_eq, ← List.countP_eq_length_filter]
  simp [places, resolved, toList, toList_samplers, List.countP_cons]

end Locations

namespace Cache

variable {settings : Settings} {before after : List (Turn Request)} {t : Turn Request} {c : Cache}
  {key : Key} {e : Entry}

theorem recalled_of_obtained (h : Course perform (empty settings) (before ++ t :: after) c)
    (ho : t.obtained key = some e) : Recalled settings (before ++ [t]) e ∧ e.key = key := by
  obtain ⟨a, b, ha, now, -⟩ := h.split
  have hr := reflects_of_course ha
  obtain rfl := course_settings ha
  exact (hr.agrees now).recalled ho

theorem cached_of_obtained {between : List (Turn Request)}
    (h : Course perform (empty settings) (before ++ t :: between) c)
    (ho : t.obtained key = some e) (kept : ∀ u ∈ between, ¬ u.Removes key) : key ∈ c.keys :=
  ((reflects_of_course h).lives_iff key).2 ⟨before, t, between, rfl, by simp [ho], kept⟩

theorem LookupExit.draws_nothing {now : Instant} {events : List (Event Gl)}
    {result : Except BuildError Entry} {c' : Cache} (h : LookupExit c key now events result c')
    {call : Gl.Call} {answer : Gl.Answer call} (hc : .called call answer ∈ events) :
    ¬ call.Draws := by
  cases h with
  | hit cached => cases hc
  | failed missing build => exact (Build.build_drawless c.settings key).of_plays build hc
  | built missing build => exact (Build.build_drawless c.settings key).of_plays build hc

theorem LookupExit.hits {now : Instant} {events : List (Event Gl)}
    {result : Except BuildError Entry}
    {c' : Cache} (h : LookupExit c key now events result c') (hk : key ∈ c.keys) :
    events = [] ∧ ∃ e, result = .ok e := by
  cases h with
  | hit cached => exact ⟨rfl, _, rfl⟩
  | failed missing build => exact absurd hk (get?_eq_none.1 missing)
  | built missing build => exact absurd hk (get?_eq_none.1 missing)

end Cache

namespace Renderer

open GlPrograms.Action

variable {r r' : Renderer} {settings : Settings} {turns : List (Turn Request)}
  {t u : Turn Request} {v : Turn Cache.Request} {key : Key} {d : Draw} {now : Instant}

/-- The turn takes the entry of the key out of the cache, if there is one. -/
def Removes (t : Turn Request) (key : Key) : Prop :=
  t.request = .destroy key ∨ t.request = .teardown

/-- A turn of a renderer, and the turn of its cache within it. Only a draw that finds a program goes
on after that. -/
inductive Within : Turn Request → Turn Cache.Request → Prop
  | program {l key now reply events} :
      Within ⟨l, .program key now, reply, events⟩ ⟨l, .lookup key now, reply, events⟩
  | refused {l d now error events} :
      Within ⟨l, .draw d now, .drawn (.error error), events⟩
        ⟨l, .lookup d.key now, .program (.error error), events⟩
  | drawn {l d now e events} :
      Within ⟨l, .draw d now, .drawn (.ok ()), events ++ drawing e d⟩
        ⟨l, .lookup d.key now, .program (.ok e), events⟩
  | destroy {l key reply events} :
      Within ⟨l, .destroy key, reply, events⟩ ⟨l, .destroy key, reply, events⟩
  | teardown {l reply events} :
      Within ⟨l, .teardown, reply, events⟩ ⟨l, .destroyAll, reply, events⟩
  | inspect {l i reply events} :
      Within ⟨l, .inspect i, reply, events⟩ ⟨l, .inspect i, reply, events⟩

theorem Within.removes_iff (h : Within t v) (key : Key) : v.Removes key ↔ Removes t key := by
  cases h with
  | program | refused | drawn | destroy | teardown | inspect => simp [Turn.Removes, Removes]

theorem Within.events (h : Within t v) : ∃ rest, t.events = v.events ++ rest := by
  cases h with
  | drawn => exact ⟨_, rfl⟩
  | program | refused | destroy | teardown | inspect => exact ⟨[], (List.append_nil _).symm⟩

theorem turn_within (h : (r.perform t.listener t.request).Plays t.events (t.reply, r')) :
    ∃ v, Within t v ∧
      (r.cache.perform v.listener v.request).Plays v.events (v.reply, r'.cache) := by
  obtain ⟨l, request, reply, events⟩ := t
  dsimp only at h
  cases request with
  | program key now =>
    obtain ⟨⟨result, r₁⟩, hp, ⟨⟩⟩ := plays_bind_pure.1 h
    obtain ⟨⟨result, c⟩, hl, ⟨⟩⟩ := plays_bind_pure.1 hp
    exact ⟨_, .program, plays_bind_pure.2 ⟨_, hl, rfl⟩⟩
  | draw d now =>
    obtain ⟨⟨result, r₁⟩, hp, ⟨⟩⟩ := plays_bind_pure.1 h
    obtain ⟨⟨result, c⟩, first, rest, rfl, hl, h⟩ := plays_bind.1 hp
    cases result with
    | error error =>
      obtain ⟨⟩ := h
      rw [List.append_nil]
      exact ⟨_, .refused, plays_bind_pure.2 ⟨_, hl, rfl⟩⟩
    | ok e =>
      simp only [Gl.tell_bind] at h
      obtain _ | ⟨⟨⟩, h⟩ := h
      obtain ⟨u, hu, ⟨⟩⟩ := plays_bind_pure.1 h
      rw [Gl.tellAll_exit hu]
      exact ⟨_, .drawn (e := e), plays_bind_pure.2 ⟨_, hl, rfl⟩⟩
  | destroy key =>
    obtain ⟨⟨found, r₁⟩, hd, ⟨⟩⟩ := plays_bind_pure.1 h
    obtain ⟨⟨found, c⟩, hc, ⟨⟩⟩ := plays_bind_pure.1 hd
    exact ⟨_, .destroy, plays_bind_pure.2 ⟨_, hc, rfl⟩⟩
  | teardown =>
    obtain ⟨r₁, ht, ⟨⟩⟩ := plays_bind_pure.1 h
    obtain ⟨c, hd, ⟨⟩⟩ := plays_bind_pure.1 ht
    exact ⟨_, .teardown, plays_bind_pure.2 ⟨_, hd, rfl⟩⟩
  | inspect i =>
    obtain ⟨reply, hi, ⟨⟩⟩ := plays_bind_pure.1 h
    exact ⟨_, .inspect, plays_bind_pure.2 ⟨_, hi, rfl⟩⟩

theorem course_within (h : Course perform r turns r') :
    ∃ turns', List.Forall₂ Within turns turns' ∧ Course Cache.perform r.cache turns' r'.cache := by
  induction h with
  | still => exact ⟨[], .nil, .still _⟩
  | turn t past now ih =>
    obtain ⟨turns', within, course⟩ := ih
    obtain ⟨v, hv, played⟩ := turn_within now
    exact ⟨turns' ++ [v], List.rel_append within (.cons hv .nil), .turn v course played⟩

/-- The entry was built in some turn, its locations are the answers in that build, and its key was
not removed since. -/
def Built (settings : Settings) (turns : List (Turn Request)) (e : Entry) : Prop :=
  ∃ before first after vertex fragment rest, turns = before ++ first :: after ∧
    first.events = Build.completed settings e.key vertex fragment ⟨e.program, e.locations⟩ ++ rest ∧
    ∀ u ∈ after, ¬ Removes u e.key

theorem kept_within {past : List (Turn Cache.Request)} (within : List.Forall₂ Within turns past) :
    (∀ v ∈ past, ¬ v.Removes key) ↔ ∀ t ∈ turns, ¬ Removes t key := by
  induction within with
  | nil => simp
  | cons h within ih => simp [h.removes_iff, ih]

theorem built_of_recalled {past : List (Turn Cache.Request)} {e : Entry}
    (within : List.Forall₂ Within turns past) (h : Cache.Recalled settings past e) :
    Built settings turns e := by
  obtain ⟨n, first, made, ⟨before, after, rfl, -, -, -, kept⟩, -, -, -, build⟩ := h.begun
  obtain ⟨before', t, after', rfl, -, ht, hafter⟩ := forall₂_split within
  obtain ⟨vertex, fragment, he⟩ := Build.events_of_build build
  obtain ⟨rest, hrest⟩ := ht.events
  exact ⟨before', t, after', vertex, fragment, rest, rfl, he ▸ hrest, (kept_within hafter).1 kept⟩

/-- A draw that succeeds binds the program that is cached by then and makes one upload for each of
its locations, after the build if there was none before. -/
structure Shows (settings : Settings) (a b : Renderer) (t : Turn Request) (d : Draw) (e : Entry)
    (work : List (Event Gl)) : Prop where
  cached : b.cache.get? d.key = some e
  events : t.events = work ++ .called (.tell (.useProgram e.program)) () ::
    (e.locations.places d).reduceOption.map fun c => .called (.tell c) ()
  count : (e.locations.places d).reduceOption.length = e.locations.resolved
  hit : d.key ∈ a.cache.keys → work = []
  miss : d.key ∉ a.cache.keys → ∃ vertex fragment,
    work = Build.completed settings d.key vertex fragment ⟨e.program, e.locations⟩

theorem shows_of_lookup {a : Renderer} {e : Entry} {c : Cache} {work : List (Event Gl)}
    (h : Cache.LookupExit a.cache d.key now work (.ok e) c) (ht : t.events = work ++ drawing e d) :
    Shows a.cache.settings a ⟨c⟩ t d e work := by
  refine ⟨h.cached.1, ?_, ?_, fun hk => ?_, fun hk => ?_⟩
  · rw [ht, drawing, Locations.uploads_eq]
    rfl
  · rw [← Locations.uploads_eq, Locations.length_uploads]
  · cases h with
    | hit cached => rfl
    | built missing build => exact absurd hk (Cache.get?_eq_none.1 missing)
  · cases h with
    | hit cached => exact absurd (Cache.contains_iff.1 (by simp [Cache.contains, cached])) hk
    | built missing build => exact Build.events_of_build build

theorem Within.draw_cases (h : Within t v) (ht : t.request = .draw d now) :
    v.request = .lookup d.key now ∧ ∃ result, v.reply = .program result ∧
      t.reply = .drawn (result.map fun _ => ()) ∧
      ∀ e, result = .ok e → t.events = v.events ++ drawing e d := by
  cases h with
  | refused =>
    cases ht
    exact ⟨rfl, _, rfl, rfl, fun e he => by cases he⟩
  | @drawn l d' now' e events =>
    cases ht
    exact ⟨rfl, .ok e, rfl, rfl, fun _ he => by cases he; rfl⟩
  | program | destroy | teardown | inspect => cases ht

theorem Within.drawn_cases (h : Within t v) (ht : t.request = .draw d now)
    (hr : t.reply = .drawn (.ok ())) : ∃ e, v.request = .lookup d.key now ∧
      v.reply = .program (.ok e) ∧ t.events = v.events ++ drawing e d := by
  obtain ⟨hv, result, hp, hd, he⟩ := h.draw_cases ht
  cases result with
  | error error =>
    rw [hr] at hd
    cases hd
  | ok e => exact ⟨e, hv, hp, he e rfl⟩

theorem drawing_congr {e f : Entry} (hp : e.program = f.program) (hl : e.locations = f.locations) :
    drawing e d = drawing f d := by
  rw [drawing, drawing, hp, hl]

theorem draws_again {before between after : List (Turn Request)} {now' : Instant}
    (h : Course perform ⟨.empty settings⟩ (before ++ t :: between ++ u :: after) r)
    (ht : t.request = .draw d now) (hr : t.reply = .drawn (.ok ())) (hu : u.request = .draw d now')
    (kept : ∀ v ∈ between, ¬ Removes v d.key) :
    u.reply = .drawn (.ok ()) ∧ ∃ e work, t.events = work ++ drawing e d ∧ u.events = drawing e d ∧
      ∀ call answer, .called call answer ∈ work → ¬ call.Draws := by
  obtain ⟨turns, within, course⟩ := course_within h
  obtain ⟨front, w, back, rfl, hfront, hw, -⟩ := forall₂_split within.flip
  obtain ⟨before', v, between', rfl, -, hv, hbetween⟩ := forall₂_split hfront
  obtain ⟨e, hvr, hvp, hte⟩ := Within.drawn_cases hv ht hr
  obtain ⟨hwr, result, hwp, hud, hue⟩ := Within.draw_cases hw hu
  have ho : v.obtained d.key = some e := by simp [Turn.obtained, hvr, hvp]
  have kept' : ∀ w ∈ between', ¬ w.Removes d.key := (kept_within hbetween.flip).2 kept
  -- At the second draw the key is still cached, by the same build.
  obtain ⟨a, b, ha, now₂, -⟩ := course.split
  rw [hwr, hwp] at now₂
  obtain ⟨exit₂⟩ := Cache.turn_exit now₂
  obtain ⟨hquiet, f, rfl⟩ := exit₂.hits (Cache.cached_of_obtained ha ho kept')
  have ho₂ : w.obtained d.key = some f := by simp [Turn.obtained, hwr, hwp]
  obtain ⟨hf, hfk⟩ := Cache.recalled_of_obtained course ho₂
  have hsplit : before' ++ v :: between' ++ w :: back =
      before' ++ v :: (between' ++ w :: back) := by
    simp
  rw [hsplit] at course
  obtain ⟨he, hek⟩ := Cache.recalled_of_obtained course ho
  obtain ⟨-, hp, hl⟩ := (he.same_iff hf (by simp [hfk, ho₂]) (hek.symm ▸ kept')).2
    (hek.trans hfk.symm)
  obtain ⟨a₁, b₁, -, now₁, -⟩ := course.split
  rw [hvr, hvp] at now₁
  obtain ⟨exit₁⟩ := Cache.turn_exit now₁
  refine ⟨hud, e, v.events, hte, ?_, fun call answer hc => exit₁.draws_nothing hc⟩
  rw [hue f rfl, hquiet, drawing_congr hp hl]
  rfl

/-- A draw that succeeds binds the program that is cached for its key and uploads its values to the
locations that the GL told when that program was built, whatever the GL would tell by now. A draw of
the same values shows the same for as long as the key is not removed. -/
theorem draws_show_the_build (h : Course perform ⟨.empty settings⟩ turns r) :
    (∀ before t after d now, turns = before ++ t :: after → t.request = .draw d now →
      t.reply = .drawn (.ok ()) →
        ∃ a b e work, Course perform ⟨.empty settings⟩ before a ∧
          (a.perform t.listener t.request).Plays t.events (t.reply, b) ∧ Course perform b after r ∧
          Shows settings a b t d e work ∧ Built settings (before ++ [t]) e) ∧
      ∀ before t between u after d now now', turns = before ++ t :: between ++ u :: after →
        t.request = .draw d now → t.reply = .drawn (.ok ()) → u.request = .draw d now' →
        (∀ v ∈ between, ¬ Removes v d.key) →
          u.reply = .drawn (.ok ()) ∧ ∃ e work, t.events = work ++ drawing e d ∧
            u.events = drawing e d ∧ ∀ call answer, .called call answer ∈ work → ¬ call.Draws := by
  constructor
  · rintro before t after d now rfl ht hr
    obtain ⟨a, b, ha, played, hb⟩ := h.split
    obtain ⟨past, within, course⟩ := course_within ha
    obtain ⟨v, hv, played'⟩ := turn_within played
    have course' := Course.turn v course played'
    obtain ⟨e, hvr, hvp, hte⟩ := Within.drawn_cases hv ht hr
    have ho : v.obtained d.key = some e := by simp [Turn.obtained, hvr, hvp]
    obtain ⟨he, -⟩ := Cache.recalled_of_obtained course' ho
    obtain rfl : a.cache.settings = settings := Cache.course_settings course
    rw [hvr, hvp] at played'
    obtain ⟨exit⟩ := Cache.turn_exit played'
    exact ⟨a, b, e, v.events, ha, played, hb, shows_of_lookup exit hte,
      built_of_recalled (List.rel_append within (.cons hv .nil)) he⟩
  · rintro before t between u after d now now' rfl ht hr hu kept
    exact draws_again h ht hr hu kept

def relocated : List (Cue Request) := [
  { change := { locations := [("proj", 7), ("tex1", -1)] },
    request := .draw (.ofKey ⟨.yuvThreePlanes, false⟩) ⟨1⟩ },
  { change := { locations := [("proj", 9), ("tex1", 2)] }, request := .program ⟨.solid, true⟩ ⟨2⟩ },
  { request := .draw (.ofKey ⟨.yuvThreePlanes, false⟩) ⟨3⟩ }]

theorem draws_show_the_build_relocated :
    let d : Draw := .ofKey ⟨.yuvThreePlanes, false⟩
    let run := scripted perform relocated ⟨.empty {}⟩ {}
    let t := run.1[0]
    let u := run.1[2]
    Course perform ⟨.empty {}⟩ run.1 run.2 ∧ run.1 = [] ++ t :: [run.1[1]] ++ u :: [] ∧
      t.request = .draw d ⟨1⟩ ∧ u.request = .draw d ⟨3⟩ ∧ t.reply = .drawn (.ok ()) ∧
      (∀ v ∈ [run.1[1]], ¬ Removes v d.key) ∧ u.reply = .drawn (.ok ()) ∧
      u.events = ([.useProgram ⟨3⟩, .setMatrix 7 d.projection, .setSampler 1 0, .setSampler 3 2,
        .setFloat 4 d.alpha, .setVector 5 d.color] : List Gl.Command).map
          (fun c => .called (.tell c) ()) ∧
      (∃ a b e work, Shows {} a b u d e work ∧ Built {} run.1 e) ∧
      ∃ e work, t.events = work ++ drawing e d ∧ u.events = drawing e d := by
  intro d run t u
  have course : Course perform ⟨.empty {}⟩ run.1 run.2 := course_scripted relocated _ {}
  obtain ⟨shows, again⟩ := draws_show_the_build course
  have kept : ∀ v ∈ [run.1[1]], ¬ Removes v d.key := by
    intro v hv
    rw [List.mem_singleton.1 hv]
    rintro (h | h) <;> cases h
  obtain ⟨second, e, work, ht, hu, -⟩ := again [] t [run.1[1]] u [] d ⟨1⟩ ⟨3⟩ rfl rfl rfl rfl kept
  obtain ⟨a, b, f, work', -, -, -, shown, built⟩ := shows [t, run.1[1]] u [] d ⟨3⟩ rfl rfl second
  exact ⟨course, rfl, rfl, rfl, rfl, kept, second, rfl, ⟨a, b, f, work', shown, built⟩, e, work,
    ht, hu⟩

end Renderer

end GlPrograms
