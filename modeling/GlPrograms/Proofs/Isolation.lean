import GlPrograms.Proofs.Aims
import GlPrograms.Proofs.Played

namespace GlPrograms

theorem filter_split {α β : Type} {R : α → β → Prop} {p : α → Bool} {q : β → Bool}
    {before after : List α} {a : α} {l : List β}
    (h : List.Forall₂ R ((before ++ a :: after).filter p) (l.filter q)) (ha : p a) :
    ∃ before' b after', l = before' ++ b :: after' ∧
      List.Forall₂ R (before.filter p) (before'.filter q) ∧ R a b ∧
      List.Forall₂ R (after.filter p) (after'.filter q) := by
  induction before generalizing l with
  | nil =>
    rw [List.nil_append, List.filter_cons_of_pos ha] at h
    obtain ⟨b, u, hab, hu, hf⟩ := List.forall₂_cons_left_iff.1 h
    obtain ⟨before', after', rfl, hn, -, rfl⟩ := List.filter_eq_cons_iff.1 hf
    refine ⟨before', b, after', rfl, ?_, hab, hu⟩
    rw [List.filter_eq_nil_iff.2 hn]
    exact .nil
  | cons x before ih =>
    rw [List.cons_append] at h
    by_cases hx : p x
    · rw [List.filter_cons_of_pos hx] at h
      obtain ⟨y, u, hxy, hu, hf⟩ := List.forall₂_cons_left_iff.1 h
      obtain ⟨skipped, l', rfl, hn, hy, rfl⟩ := List.filter_eq_cons_iff.1 hf
      obtain ⟨before', b, after', rfl, hb, hab, hafter⟩ := ih hu
      refine ⟨skipped ++ y :: before', b, after', by simp, ?_, hab, hafter⟩
      rw [List.filter_cons_of_pos hx, List.filter_append, List.filter_eq_nil_iff.2 hn,
        List.nil_append, List.filter_cons_of_pos hy]
      exact .cons hxy hb
    · rw [List.filter_cons_of_neg hx] at h
      rw [List.filter_cons_of_neg hx]
      exact ih h

/-- A course that passes a turn, and the states on its way. -/
structure Passes {State Request : Type}
    (perform : State → Listener → Request → Action Gl (Reply × State)) (s : State)
    (before : List (Turn Request)) (b : State) (t : Turn Request) (c : State)
    (after : List (Turn Request)) (a : State) : Prop where
  before : Course perform s before b
  now : (perform b t.listener t.request).Plays t.events (t.reply, c)
  after : Course perform c after a

theorem Cache.perm_of_sameAt {c d : Cache} (h : ∀ key, SameAt key c d) :
    (c.entries.map Entry.unnamed).Perm (d.entries.map Entry.unnamed) := by
  have nodup (c : Cache) : (c.entries.map Entry.unnamed).Nodup :=
    List.Nodup.of_map Entry.key (c.unnamed.distinct)
  have mem (c : Cache) (e : Entry) :
      e ∈ c.entries.map Entry.unnamed ↔ (c.get? e.key).map Entry.unnamed = some e := by
    rw [← get?_unnamed, get?_eq_some]
    simp [unnamed]
  refine (List.perm_ext_iff_of_nodup (nodup c) (nodup d)).2 fun e => ?_
  rw [mem, mem, (h e.key).entry]

namespace Keeper

open Cache (SameAt Spares bonds)

variable {k : Keeper} {aims : k.Aims} {key : Key} {s s' a a' b b' c c' : k.State}
  {turns turns' : List (Turn k.Request)} {t u : Turn k.Request}

/-- Whether a request stays if those for all other keys go. -/
def Aims.keeps (aims : k.Aims) (key : Key) (request : k.Request) : Bool :=
  (aims.target request).all (· = key)

/-- Whether a request is about the key, or about no key more than another. -/
def Aims.concerns (aims : k.Aims) (key : Key) (request : k.Request) : Bool :=
  (aims.subject request).all (· = key)

/-- A request about a key that finds the same in two runs does the same there and leaves the same,
all but for the names of objects. -/
structure SameOutcome (k : Keeper) (key : Key) (b b' : k.State) (t u : Turn k.Request)
    (c c' : k.State) : Prop where
  request : t.request = u.request
  found : SameAt key (k.cache b) (k.cache b')
  events : Renamed .calls (bonds key (k.cache b) (k.cache b')) t.events u.events
    (bonds key (k.cache c) (k.cache c'))
  reply : t.reply.unnamed = u.reply.unnamed
  shown : Bonds.Bound (bonds key (k.cache c) (k.cache c')) t.reply.named u.reply.named
  left : SameAt key (k.cache c) (k.cache c')

/-- Every request about the key comes out the same in the second run, and at the same place, when
places are counted without the requests about other keys. -/
structure Aims.Agree (aims : k.Aims) (key : Key) (s : k.State)
    (turns turns' : List (Turn k.Request)) (a a' : k.State) : Prop where
  requests : (turns.filter (aims.concerns key ·.request)).map Turn.request =
    (turns'.filter (aims.concerns key ·.request)).map Turn.request
  outcomes : ∀ before t after, turns = before ++ t :: after → aims.subject t.request = some key →
    ∃ before' u after' b c b' c', turns' = before' ++ u :: after' ∧
      (before.filter (aims.concerns key ·.request)).length =
        (before'.filter (aims.concerns key ·.request)).length ∧
      Passes k.perform s before b t c after a ∧ Passes k.perform s before' b' u c' after' a' ∧
      SameOutcome k key b b' t u c c'
  last : SameAt key (k.cache a) (k.cache a')

/-- What the GL receives about the key is the same in the second run, too, all but for the names of
objects. -/
structure Aims.AgreeBelow (aims : k.Aims) (key : Key) (s : k.State)
    (shown shown' : List (Seen k.Request)) (a a' : k.State) : Prop where
  agree : aims.Agree key s (shown.map Seen.turn) (shown'.map Seen.turn) a a'
  outcomes : ∀ before t after, shown = before ++ t :: after →
    aims.subject t.turn.request = some key →
    ∃ before' u after' b c b' c', shown' = before' ++ u :: after' ∧
      (before.filter (aims.concerns key ·.turn.request)).length =
        (before'.filter (aims.concerns key ·.turn.request)).length ∧
      Passes k.perform s (before.map Seen.turn) b t.turn c (after.map Seen.turn) a ∧
      Passes k.perform s (before'.map Seen.turn) b' u.turn c' (after'.map Seen.turn) a' ∧
      SameOutcome k key b b' t.turn u.turn c c' ∧
      Renamed .raw (bonds key (k.cache b) (k.cache b')) t.raw u.raw
        (bonds key (k.cache c) (k.cache c'))

theorem Aims.concerns_iff {request : k.Request} : aims.concerns key request ↔
    aims.subject request = none ∨ aims.subject request = some key := by
  cases h : aims.subject request <;> simp [concerns, h]

namespace Aims.Lawful

theorem keeps_of_concerns (ha : aims.Lawful) {request : k.Request}
    (h : aims.concerns key request) : aims.keeps key request := by
  cases ht : aims.target request with
  | none => simp [keeps, ht]
  | some other =>
    rcases aims.concerns_iff.1 h with hn | hs
    · exact absurd (hn.symm.trans (ha.aimed ht)) (by simp)
    · have ho : some other = some key := (ha.aimed ht).symm.trans hs
      simp_all [keeps]

theorem filter_concerns (ha : aims.Lawful) (moves : List (Move k.Request)) :
    moves.filter (Move.fits (aims.concerns key)) =
      (moves.filter (Move.fits (aims.keeps key))).filter (Move.fits (aims.concerns key)) := by
  rw [List.filter_filter]
  refine List.filter_congr fun move _ => ?_
  cases move with
  | change c => rfl
  | ask listener request =>
    rw [Move.fits, Move.fits]
    by_cases hr : aims.concerns key request
    · rw [hr, ha.keeps_of_concerns hr]
      rfl
    · rw [Bool.eq_false_iff.2 hr]
      rfl

theorem spares_course (ha : aims.Lawful) (h : Course k.perform s turns a)
    (hn : ∀ t ∈ turns, ¬ aims.concerns key t.request) : Spares key (k.cache s) (k.cache a) := by
  induction h with
  | still => exact Cache.spares_refl key _
  | turn t past now ih =>
    refine (ih fun u hu => hn u (by simp [hu])).trans ?_
    have ht := hn t (by simp)
    cases hk : aims.subject t.request with
    | none => exact absurd (aims.concerns_iff.2 (.inl hk)) ht
    | some other =>
      refine ha.spares hk (fun he => ht ?_) now
      exact aims.concerns_iff.2 (.inr (he ▸ hk))

theorem sameOutcome (ha : aims.Lawful) (twins : t.Twins u) (ht : aims.subject t.request = some key)
    (hs : SameAt key (k.cache b) (k.cache b'))
    (h : (k.perform b t.listener t.request).Plays t.events (t.reply, c))
    (h' : (k.perform b' u.listener u.request).Plays u.events (u.reply, c')) :
    SameOutcome k key b b' t u c c' := by
  obtain ⟨hl, hr, habit, he, he'⟩ := twins
  rw [← hl, ← hr] at h'
  obtain ⟨ρ, events, reply, shown, same, rfl⟩ := (ha.told ht hs).plays h h' he he'
  exact ⟨hr, hs, events, reply, shown, same⟩

theorem sameAt_turn (ha : aims.Lawful) (twins : t.Twins u) (ht : aims.concerns key t.request)
    (hs : SameAt key (k.cache b) (k.cache b'))
    (h : (k.perform b t.listener t.request).Plays t.events (t.reply, c))
    (h' : (k.perform b' u.listener u.request).Plays u.events (u.reply, c')) :
    SameAt key (k.cache c) (k.cache c') := by
  rcases aims.concerns_iff.1 ht with hn | hk
  · rw [← twins.listener, ← twins.request] at h'
    exact ha.rest hn hs h h'
  · exact (ha.sameOutcome twins hk hs h h').left

theorem sameAt_course (ha : aims.Lawful)
    (twins : List.Forall₂ Turn.Twins (turns.filter (aims.concerns key ·.request))
      (turns'.filter (aims.concerns key ·.request)))
    (hs : SameAt key (k.cache s) (k.cache s')) (h : Course k.perform s turns a)
    (h' : Course k.perform s' turns' a') : SameAt key (k.cache a) (k.cache a') := by
  -- Between two turns that concern the key, neither run touches it.
  generalize hf : turns.filter (aims.concerns key ·.request) = kept at twins
  generalize hf' : turns'.filter (aims.concerns key ·.request) = kept' at twins
  induction twins generalizing s s' turns turns' with
  | nil =>
    exact hs.spared (ha.spares_course h (List.filter_eq_nil_iff.1 hf))
      (ha.spares_course h' (List.filter_eq_nil_iff.1 hf'))
  | cons twin twins ih =>
    obtain ⟨skipped, rest, rfl, hn, ht, hrest⟩ := List.filter_eq_cons_iff.1 hf
    obtain ⟨skipped', rest', rfl, hn', ht', hrest'⟩ := List.filter_eq_cons_iff.1 hf'
    obtain ⟨b, c, hb, now, later⟩ := h.split
    obtain ⟨b', c', hb', now', later'⟩ := h'.split
    have hsb := hs.spared (ha.spares_course hb hn) (ha.spares_course hb' hn')
    exact ih (ha.sameAt_turn twin ht hsb now now') later later' hrest hrest'

theorem outcomes (ha : aims.Lawful) {τ : Type} (turn : τ → Turn k.Request) {R : τ → τ → Prop}
    (hR : ∀ t u, R t u → (turn t).Twins (turn u)) {l' before after : List τ} {t : τ}
    (twins : List.Forall₂ R
      ((before ++ t :: after).filter fun x => aims.concerns key (turn x).request)
      (l'.filter fun x => aims.concerns key (turn x).request))
    (h : Course k.perform s ((before ++ t :: after).map turn) a)
    (h' : Course k.perform s (l'.map turn) a') (ht : aims.subject (turn t).request = some key) :
    ∃ before' u after' b c b' c', l' = before' ++ u :: after' ∧
      (before.filter fun x => aims.concerns key (turn x).request).length =
        (before'.filter fun x => aims.concerns key (turn x).request).length ∧
      Passes k.perform s (before.map turn) b (turn t) c (after.map turn) a ∧
      Passes k.perform s (before'.map turn) b' (turn u) c' (after'.map turn) a' ∧
      SameOutcome k key b b' (turn t) (turn u) c c' ∧ R t u := by
  have hk : aims.concerns key (turn t).request := aims.concerns_iff.2 (.inr ht)
  obtain ⟨before', u, after', rfl, hbefore, htu, -⟩ := filter_split twins hk
  rw [List.map_append, List.map_cons] at h h'
  obtain ⟨b, c, hb, now, later⟩ := h.split
  obtain ⟨b', c', hb', now', later'⟩ := h'.split
  have hturns : List.Forall₂ Turn.Twins ((before.map turn).filter (aims.concerns key ·.request))
      ((before'.map turn).filter (aims.concerns key ·.request)) := by
    rw [List.filter_map, List.filter_map, List.forall₂_map_left_iff, List.forall₂_map_right_iff]
    exact hbefore.imp hR
  have hs := ha.sameAt_course hturns ⟨rfl, rfl⟩ hb hb'
  exact ⟨before', u, after', b, c, b', c', rfl, hbefore.length_eq, ⟨hb, now, later⟩,
    ⟨hb', now', later'⟩, ha.sameOutcome (hR t u htu) ht hs now now', htu⟩

theorem agree (ha : aims.Lawful)
    (twins : List.Forall₂ Turn.Twins (turns.filter (aims.concerns key ·.request))
      (turns'.filter (aims.concerns key ·.request)))
    (h : Course k.perform s turns a) (h' : Course k.perform s turns' a') :
    aims.Agree key s turns turns' a a' := by
  refine ⟨?_, ?_, ha.sameAt_course twins ⟨rfl, rfl⟩ h h'⟩
  · rw [← List.forall₂_eq_eq_eq, List.forall₂_map_left_iff, List.forall₂_map_right_iff]
    exact twins.imp fun t u htu => htu.request
  rintro before t after rfl ht
  rw [← List.map_id (_ ++ _)] at h
  rw [← List.map_id turns'] at h'
  obtain ⟨before', u, after', b, c, b', c', hl, hlength, passes, passes', same, -⟩ :=
    ha.outcomes id (fun _ _ htu => htu) twins h h' ht
  rw [List.map_id, List.map_id] at passes passes'
  exact ⟨before', u, after', b, c, b', c', hl, hlength, passes, passes', same⟩

theorem agreeBelow (ha : aims.Lawful) {shown shown' : List (Seen k.Request)}
    (twins : List.Forall₂ Seen.Twins (shown.filter (aims.concerns key ·.turn.request))
      (shown'.filter (aims.concerns key ·.turn.request)))
    (h : Course k.perform s (shown.map Seen.turn) a)
    (h' : Course k.perform s (shown'.map Seen.turn) a') :
    aims.AgreeBelow key s shown shown' a a' := by
  constructor
  · refine ha.agree ?_ h h'
    rw [List.filter_map, List.filter_map, List.forall₂_map_left_iff, List.forall₂_map_right_iff]
    exact twins.imp fun t u htu => htu.turn
  · rintro before t after rfl ht
    obtain ⟨before', u, after', b, c, b', c', hl, hlength, passes, passes', same, htu⟩ :=
      ha.outcomes Seen.turn (fun _ _ => Seen.Twins.turn) twins h h' ht
    obtain ⟨location, hraw, hraw'⟩ := htu.raw
    refine ⟨before', u, after', b, c, b', c', hl, hlength, passes, passes', same, ?_⟩
    rw [hraw, hraw']
    exact same.events.lowered location htu.nonzero.1 htu.nonzero.2

end Aims.Lawful

theorem Lawful.played_twins (hk : k.Lawful) (aims : k.Aims) (w : Wording)
    {moves moves' : List (Move k.Request)}
    (h : moves.filter (Move.fits (aims.concerns key)) =
      moves'.filter (Move.fits (aims.concerns key)))
    (s s' : k.State) (d : Device) :
    List.Forall₂ Turn.Twins
      ((played (Device.worded w) k.perform moves s d).1.filter (aims.concerns key ·.request))
      ((played (Device.worded w) k.perform moves' s' d).1.filter
        (aims.concerns key ·.request)) := by
  -- Changes of the script are kept in both lists, and they alone decide which script is met.
  have answers (moves : List (Move k.Request)) (s : k.State) : List.Forall₂ (Turn.Answers w)
      ((played (Device.worded w) k.perform moves s d).1.filter (aims.concerns key ·.request))
      (asked d.script.unnumbered (moves.filter (Move.fits (aims.concerns key)))) := by
    rw [← asked_filter]
    refine List.rel_filter (fun t q ht => ?_) (hk.played_answers w moves s d)
    simp only [ht.request]
  exact forall₂_beside (answers moves s) (h ▸ answers moves' s') fun _ _ _ => Turn.Answers.twins

theorem Lawful.seen_twins (hk : k.Lawful) (aims : k.Aims) {p : Platform} (hp : p.Documented)
    {moves moves' : List (Move k.Request)}
    (h : moves.filter (Move.fits (aims.concerns key)) =
      moves'.filter (Move.fits (aims.concerns key)))
    {s s' : k.State} {d : Device} (hn : NeverZero p k.perform moves s d)
    (hn' : NeverZero p k.perform moves' s' d) :
    List.Forall₂ Seen.Twins
      ((seen p k.perform moves s d).1.filter (aims.concerns key ·.turn.request))
      ((seen p k.perform moves' s' d).1.filter (aims.concerns key ·.turn.request)) := by
  have answers {moves : List (Move k.Request)} {s : k.State}
      (hn : NeverZero p k.perform moves s d) :
      List.Forall₂ Seen.Answers
        ((seen p k.perform moves s d).1.filter (aims.concerns key ·.turn.request))
        (asked d.script.unnumbered (moves.filter (Move.fits (aims.concerns key)))) := by
    rw [← asked_filter]
    refine List.rel_filter (fun t q ht => ?_) (hk.seen_answers hp hn)
    simp only [ht.turn.request]
  exact forall₂_beside (answers hn) (h ▸ answers hn') fun _ _ _ => Seen.Answers.twins

/-- Whatever GL answers by habit, courses agree about every key for which the same is requested, and
if that is so for every key, they leave the same entries in some order. -/
def Aims.Isolate (aims : k.Aims) : Prop :=
  ∀ s turns turns' a a', Course k.perform s turns a → Course k.perform s turns' a' →
    (∀ key, List.Forall₂ Turn.Twins (turns.filter (aims.concerns key ·.request))
        (turns'.filter (aims.concerns key ·.request)) → aims.Agree key s turns turns' a a') ∧
      ((∀ key, List.Forall₂ Turn.Twins (turns.filter (aims.concerns key ·.request))
          (turns'.filter (aims.concerns key ·.request))) →
        ((k.cache a).entries.map Entry.unnamed).Perm ((k.cache a').entries.map Entry.unnamed))

/-- Two requests for different keys that follow each other change places. -/
inductive Aims.Swap (aims : k.Aims) : List (Move k.Request) → List (Move k.Request) → Prop
  | mk {i j} (before l m l' n after) (first : aims.subject m = some i)
      (second : aims.subject n = some j) (differ : i ≠ j) :
      Swap aims (before ++ .ask l m :: .ask l' n :: after)
        (before ++ .ask l' n :: .ask l m :: after)

/-- On a scripted GL, whose script may change between requests, the requests for all other keys can
be left out, and requests for different keys can change places. -/
structure Aims.IsolateOn (aims : k.Aims)
    (answer : (c : Gl.Call) → Device → Gl.Answer c × Device) : Prop where
  alone : ∀ key moves s d,
    let full := played answer k.perform moves s d
    let alone := played answer k.perform (moves.filter (Move.fits (aims.keeps key))) s d
    aims.Agree key s full.1 alone.1 full.2 alone.2
  swapped : ∀ moves moves' s d, aims.Swap moves moves' →
    let one := played answer k.perform moves s d
    let other := played answer k.perform moves' s d
    (∀ key, aims.Agree key s one.1 other.1 one.2 other.2) ∧
      ((k.cache one.2).entries.map Entry.unnamed).Perm ((k.cache other.2).entries.map Entry.unnamed)

/-- The same on a platform. There an object of the name zero would be taken for a refusal. -/
structure Aims.IsolateBelow (aims : k.Aims) (p : Platform) : Prop where
  alone : ∀ key moves s d, NeverZero p k.perform moves s d →
    NeverZero p k.perform (moves.filter (Move.fits (aims.keeps key))) s d →
    let full := seen p k.perform moves s d
    let alone := seen p k.perform (moves.filter (Move.fits (aims.keeps key))) s d
    aims.AgreeBelow key s full.1 alone.1 full.2 alone.2
  swapped : ∀ moves moves' s d, aims.Swap moves moves' → NeverZero p k.perform moves s d →
    NeverZero p k.perform moves' s d →
    let one := seen p k.perform moves s d
    let other := seen p k.perform moves' s d
    (∀ key, aims.AgreeBelow key s one.1 other.1 one.2 other.2) ∧
      ((k.cache one.2).entries.map Entry.unnamed).Perm ((k.cache other.2).entries.map Entry.unnamed)

theorem Aims.Lawful.isolate (ha : aims.Lawful) : aims.Isolate := by
  intro s turns turns' a a' h h'
  refine ⟨fun key twins => ha.agree twins h h', fun twins => Cache.perm_of_sameAt fun key => ?_⟩
  exact (ha.agree (twins key) h h').last

theorem Aims.Swap.filter_eq {moves moves' : List (Move k.Request)} (h : aims.Swap moves moves')
    (key : Key) : moves.filter (Move.fits (aims.concerns key)) =
      moves'.filter (Move.fits (aims.concerns key)) := by
  cases h with
  | @mk i j before l m l' n after first second differ =>
    by_cases hi : i = key
    · have hj : j ≠ key := fun hj => differ (hi.trans hj.symm)
      simp [Move.fits, concerns, List.filter_append, List.filter_cons, first, second, hj]
    · simp [Move.fits, concerns, List.filter_append, List.filter_cons, first, second, hi]

theorem Aims.Lawful.isolateOn (ha : aims.Lawful) (hk : k.Lawful) :
    aims.IsolateOn Device.answer := by
  rw [← Device.worded_same]
  constructor
  · intro key moves s d
    exact ha.agree (hk.played_twins aims _ (ha.filter_concerns moves) s s d) (course_played ..)
      (course_played ..)
  · intro moves moves' s d h
    have twins (key : Key) := hk.played_twins aims (fun _ reason => reason) (h.filter_eq key) s s d
    obtain ⟨agree, perm⟩ := ha.isolate s _ _ _ _ (course_played ..) (course_played ..)
    exact ⟨fun key => agree key (twins key), perm twins⟩

theorem Aims.Lawful.isolateBelow (ha : aims.Lawful) (hk : k.Lawful) {p : Platform}
    (hp : p.Documented) : aims.IsolateBelow p where
  alone key moves s d hn hn' :=
    ha.agreeBelow (hk.seen_twins aims hp (ha.filter_concerns moves) hn hn') (course_seen ..)
      (course_seen ..)
  swapped moves moves' s d h hn hn' := by
    have agree (key : Key) := ha.agreeBelow (hk.seen_twins aims hp (h.filter_eq key) hn hn')
      (course_seen ..) (course_seen ..)
    exact ⟨agree, Cache.perm_of_sameAt fun key => (agree key).agree.last⟩

/-- Keys are isolated wherever GL answers by habit, and so on a scripted GL, be it called directly
or beneath a binding. -/
structure Aims.Isolated (aims : k.Aims) : Prop where
  anywhere : aims.Isolate
  direct : aims.IsolateOn Device.answer
  below : ∀ p : Platform, p.Documented → aims.IsolateBelow p

theorem Aims.Lawful.isolated (ha : aims.Lawful) (hk : k.Lawful) : aims.Isolated where
  anywhere := ha.isolate
  direct := ha.isolateOn hk
  below _ hp := ha.isolateBelow hk hp

/-- The keys of a cache and of a renderer are isolated. What the GL of a platform receives is what
the calls of the cache stand for. -/
theorem keys_are_isolated :
    (cacheAims.Isolated ∧ rendererAims.Isolated) ∧
      ∀ p : Platform, p.Documented → ∀ {α : Type} (action : Action Gl α) (d : Device),
        let calls := action.run (Vantage.beneath p).reply d
        Vantage.rawRun p action d =
          (calls.1, calls.2.1.flatMap (Event.lowered d.script.location), calls.2.2) :=
  ⟨⟨cacheAims_lawful.isolated ofCache_lawful, rendererAims_lawful.isolated ofRenderer_lawful⟩,
    fun _ hp => hp.rawRun_eq⟩

def crossing : List (Move Renderer.Request) := [
  .change { rejectStages := some [.fragment] },
  .ask {} (.program ⟨.solid, true⟩ ⟨1⟩),
  .change { rejectStages := some [] },
  .ask {} (.draw (.ofKey ⟨.rgba, false⟩) ⟨2⟩),
  .ask {} (.program ⟨.solid, true⟩ ⟨3⟩),
  .ask {} (.destroy ⟨.rgba, false⟩),
  .ask {} (.draw (.ofKey ⟨.rgba, false⟩) ⟨4⟩)]

def crossingAlone : List (Move Renderer.Request) := (crossing.eraseIdx 4).eraseIdx 1

def crossingSwapped : List (Move Renderer.Request) :=
  crossing.take 3 ++ crossing[4] :: crossing[3] :: crossing.drop 5

def argumentsOf (function : String) (raw : List (Event Raw)) : List (List Word) :=
  raw.filterMap fun
    | .called c _ => if c.function = function then some c.arguments else none
    | .logged _ => none

theorem keys_are_isolated_crossing :
    let key : Key := ⟨.rgba, false⟩
    let r : Renderer := ⟨.empty {}⟩
    let full := seen .native Renderer.perform crossing r {}
    let alone := seen .native Renderer.perform crossingAlone r {}
    let swapped := seen .native Renderer.perform crossingSwapped r {}
    full.2.cache.entries.map Entry.program = [⟨11⟩, ⟨8⟩] ∧
      alone.2.cache.entries.map Entry.program = [⟨6⟩] ∧
      swapped.2.cache.entries.map Entry.program = [⟨11⟩, ⟨5⟩] ∧
      full.1.map (fun t => argumentsOf "UseProgram" t.raw) =
        [[], [[.program ⟨5⟩]], [], [], [[.program ⟨11⟩]]] ∧
      alone.1.map (fun t => argumentsOf "UseProgram" t.raw) =
        [[[.program ⟨3⟩]], [], [[.program ⟨6⟩]]] ∧
      rendererAims.AgreeBelow key r full.1 alone.1 full.2 alone.2 ∧
      (∀ key, rendererAims.AgreeBelow key r full.1 swapped.1 full.2 swapped.2) ∧
      (full.2.cache.entries.map Entry.unnamed).Perm
        (swapped.2.cache.entries.map Entry.unnamed) := by
  intro key r full alone swapped
  obtain ⟨⟨-, isolated⟩, -⟩ := keys_are_isolated
  have below := isolated.below .native Platform.native_documented
  have hf : NeverZero .native Renderer.perform crossing r {} := by decide +kernel
  have ha : NeverZero .native Renderer.perform crossingAlone r {} := by decide +kernel
  have hs : NeverZero .native Renderer.perform crossingSwapped r {} := by decide +kernel
  have agree := below.alone key crossing r {} hf ha
  have swap : rendererAims.Swap crossing crossingSwapped :=
    @Aims.Swap.mk ofRenderer rendererAims key ⟨.solid, true⟩ (crossing.take 3) {}
      (Renderer.Request.draw (.ofKey key) ⟨2⟩) {} (Renderer.Request.program ⟨.solid, true⟩ ⟨3⟩)
      (crossing.drop 5) rfl rfl (by decide)
  have swaps := below.swapped _ _ r {} swap hf hs
  exact ⟨by decide +kernel, by decide +kernel, by decide +kernel, by decide +kernel,
    by decide +kernel, agree, swaps⟩

end Keeper

end GlPrograms
