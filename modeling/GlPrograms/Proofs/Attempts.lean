import GlPrograms.Proofs.Build.Calls
import GlPrograms.Proofs.Cache.Recall
import GlPrograms.Proofs.Records
import Mathlib.Algebra.BigOperators.Group.Finset.Piecewise

namespace GlPrograms

instance : Fintype Key where
  elems := ⟨Key.all, by decide⟩
  complete := Key.mem_all

namespace Turn

def asks (t : Turn Cache.Request) (key : Key) : Bool := (t.lookupTime key).isSome

def found {Request : Type} (t : Turn Request) : Bool :=
  match t.reply with
  | .flag b => b
  | _ => false

theorem asks_iff {listener : Listener} {asked key : Key} {now : Instant} {reply : Reply}
    {events : List (Event Gl)} :
    Turn.asks ⟨listener, .lookup asked now, reply, events⟩ key ↔ asked = key := by
  by_cases h : asked = key <;> simp [asks, lookupTime, h]

end Turn

def tally {α : Type} (p : List α → α → Bool) (past : List α) : List α → Nat
  | [] => 0
  | a :: l => (p past a).toNat + tally p (past ++ [a]) l

theorem tally_concat {α : Type} (p : List α → α → Bool) (past l : List α) (a : α) :
    tally p past (l ++ [a]) = tally p past l + (p (past ++ l) a).toNat := by
  induction l generalizing past with
  | nil => simp [tally]
  | cons b l ih =>
    simp only [List.cons_append, tally, ih, List.append_assoc, List.nil_append]
    omega

namespace Cache

variable {settings : Settings} {turns before after past : List (Turn Request)} {t : Turn Request}
  {key : Key} {c c' : Cache}

instance : Decidable (t.Removes key) := inferInstanceAs (Decidable (_ ∨ _))

instance : Decidable (Lives turns key) :=
  inferInstanceAs (Decidable (Since (fun t => (t.obtained key).isSome) (·.Removes key) turns))

/-- The turn takes an entry of the key out of the cache. -/
def Removal (past : List (Turn Request)) (t : Turn Request) (key : Key) : Prop :=
  (t.request = .destroy key ∧ t.found) ∨ (t.request = .destroyAll ∧ Lives past key)

instance : Decidable (Removal past t key) := inferInstanceAs (Decidable (_ ∨ _))

def removals (turns : List (Turn Request)) (key : Key) : Nat :=
  tally (fun past t => Removal past t key) [] turns

/-- How many look-ups of the key came to a program that was linked. -/
def builds (turns : List (Turn Request)) (key : Key) : Nat :=
  (history (turns.filter (·.asks key))).countP Event.links

theorem removals_concat (turns : List (Turn Request)) (t : Turn Request) (key : Key) :
    removals (turns ++ [t]) key = removals turns key + if Removal turns t key then 1 else 0 := by
  rw [removals, tally_concat]
  by_cases h : Removal turns t key <;> simp [removals, h]

theorem builds_concat (turns : List (Turn Request)) (t : Turn Request) (key : Key) :
    builds (turns ++ [t]) key =
      builds turns key + if t.asks key then t.events.countP Event.links else 0 := by
  cases h : t.asks key <;> simp [builds, history, List.filter_append, h]

theorem countP_farewells (es : List Entry) {p : Event Gl → Bool}
    (hp : ∀ e, (farewell settings e).countP p = 0) :
    (es.flatMap (farewell settings)).countP p = 0 := by
  induction es with
  | nil => rfl
  | cons e es ih => simp [ih, hp]

theorem inspect_countP {listener : Listener} {i : Inspection} {events : List (Event Gl)}
    {reply : Reply}
    (h : (c.inspect listener i).Plays events reply) {p : Event Gl → Bool}
    (hc : ∀ q answer, p (.called (.programId q) answer) = false) (hl : ∀ r, p (.logged r) = false) :
    events.countP p = 0 := by
  rw [List.countP_eq_zero]
  intro e he
  cases e with
  | logged r => simp [hl]
  | called call answer =>
    obtain ⟨q, rfl⟩ := (inspect_asks c listener i).of_plays h he
    simp [hc]

/-- What a turn costs a cache: one attempt if it misses, nothing at all if it hits. -/
structure Costs (c : Cache) (t : Turn Request) : Prop where
  miss : ∀ key, t.asks key → key ∉ c.keys → t.events.countP Event.starts = 1 ∧
    ∀ other, t.events.countP (Event.announces other) = if other = key then 1 else 0
  hit : ∀ key, t.asks key → key ∈ c.keys → t.events = [] ∧ (t.obtained key).isSome
  idle : (∀ key, ¬ t.asks key) →
    t.events.countP Event.starts = 0 ∧ ∀ key, t.events.countP (Event.announces key) = 0

theorem costs_idle (ha : ∀ key, ¬ t.asks key) (hs : t.events.countP Event.starts = 0)
    (hm : ∀ key, t.events.countP (Event.announces key) = 0) : Costs c t :=
  ⟨fun key hk => absurd hk (ha key), fun key hk => absurd hk (ha key), fun _ => ⟨hs, hm⟩⟩

theorem LookupExit.costs {listener : Listener} {asked : Key} {now : Instant}
    {events : List (Event Gl)} {result : Except BuildError Entry}
    (h : LookupExit c asked now events result c') :
    Costs c ⟨listener, .lookup asked now, .program result, events⟩ := by
  have attempt {built : Except BuildError Linked} (missing : c.get? asked = none)
      (build : (Build.build c.settings asked).Plays events built) :
      Costs c ⟨listener, .lookup asked now, .program result, events⟩ := by
    refine ⟨?_, ?_, fun ha => absurd (Turn.asks_iff.2 rfl) (ha asked)⟩
    · rintro key ha -
      obtain rfl := Turn.asks_iff.1 ha
      exact ⟨Build.build_starts build, Build.build_announces build⟩
    · intro key ha hk
      obtain rfl := Turn.asks_iff.1 ha
      exact absurd hk (get?_eq_none.1 missing)
  cases h with
  | hit cached =>
    refine ⟨?_, ?_, fun ha => absurd (Turn.asks_iff.2 rfl) (ha asked)⟩
    · intro key ha hk
      obtain rfl := Turn.asks_iff.1 ha
      exact absurd (contains_iff.1 (by simp [contains, cached])) hk
    · rintro key ha -
      obtain rfl := Turn.asks_iff.1 ha
      exact ⟨rfl, by simp [Turn.obtained]⟩
  | failed missing build => exact attempt missing build
  | built missing build => exact attempt missing build

theorem costs_of_turn (hn : (c.perform t.listener t.request).Plays t.events (t.reply, c')) :
    Costs c t := by
  obtain ⟨listener, request, reply, events⟩ := t
  cases turn_exit hn with
  | lookup exit => exact exit.costs
  | destroy exit =>
    cases exit with
    | absent missing => exact costs_idle (by simp [Turn.asks, Turn.lookupTime]) rfl fun _ => rfl
    | gone cached =>
      exact costs_idle (by simp [Turn.asks, Turn.lookupTime]) rfl (not_announces_farewell _ _)
  | destroyAll =>
    exact costs_idle (by simp [Turn.asks, Turn.lookupTime]) (countP_farewells _ fun _ => rfl)
      fun key => countP_farewells _ fun e => not_announces_farewell _ e key
  | inspect seen =>
    exact costs_idle (by simp [Turn.asks, Turn.lookupTime])
      (inspect_countP seen (fun _ _ => rfl) fun _ => rfl) (not_announces_inspect seen)

theorem Reflects.linked (h : Reflects c.settings turns c.entries)
    (hn : (c.perform t.listener t.request).Plays t.events (t.reply, c')) (key : Key) :
    (if t.asks key then t.events.countP Event.links else 0) + (if key ∈ c.keys then 1 else 0) =
      (if Removal turns t key then 1 else 0) + if key ∈ c'.keys then 1 else 0 := by
  obtain ⟨listener, request, reply, events⟩ := t
  cases turn_exit hn with
  | @lookup asked now _ _ _ exit =>
    have hr : ¬ Removal turns ⟨listener, .lookup asked now, .program ‹_›, events⟩ key := by
      simp [Removal]
    rw [if_neg hr]
    simp only [Turn.asks_iff]
    cases exit with
    | hit cached => simp
    | failed missing build => simp [Build.build_links build, Except.isOk, Except.toBool]
    | built missing build =>
      have hnot := get?_eq_none.1 missing
      by_cases ha : asked = key
      · subst ha
        simp [Build.build_links build, Except.isOk, Except.toBool, hnot]
      · simp [ha, Ne.symm ha]
  | @destroy gone _ _ _ exit =>
    cases exit with
    | absent missing => simp [Turn.asks, Turn.lookupTime, Removal, Turn.found]
    | gone cached =>
      have hgone : gone ∈ c.keys := contains_iff.1 (by simp [contains, cached])
      by_cases hk : key = gone
      · subst hk
        simp [Turn.asks, Turn.lookupTime, Removal, Turn.found, hgone]
      · simp [Turn.asks, Turn.lookupTime, Removal, hk, Ne.symm hk]
  | destroyAll =>
    have hl : key ∈ c.keys ↔ Lives turns key := h.lives_iff key
    simp [Turn.asks, Turn.lookupTime, Removal, hl]
  | inspect seen => simp [Turn.asks, Turn.lookupTime, Removal]

theorem builds_eq (h : Course perform (empty settings) turns c) (key : Key) :
    builds turns key = removals turns key + if key ∈ c.keys then 1 else 0 := by
  induction h with
  | still => rfl
  | turn t past now ih =>
    have hr := reflects_of_course past
    obtain rfl := course_settings past
    have hl := hr.linked now key
    rw [builds_concat, removals_concat]
    omega

theorem links_of_turn (hn : (c.perform t.listener t.request).Plays t.events (t.reply, c')) :
    t.events.countP Event.links = ∑ key, if t.asks key then t.events.countP Event.links else 0 := by
  have none (h : t.events.countP Event.links = 0) :
      t.events.countP Event.links =
        ∑ key, if t.asks key then t.events.countP Event.links else 0 := by
    simp [h]
  obtain ⟨listener, request, reply, events⟩ := t
  cases turn_exit hn with
  | lookup exit => simp only [Turn.asks_iff, Finset.sum_ite_eq, Finset.mem_univ, if_true]
  | destroy exit =>
    cases exit with
    | absent missing => exact none rfl
    | gone cached => exact none rfl
  | destroyAll => exact none (countP_farewells _ fun _ => rfl)
  | inspect seen => exact none (inspect_countP seen (fun _ _ => rfl) fun _ => rfl)

theorem links_eq {start : Cache} (h : Course perform start turns c) :
    (history turns).countP Event.links = ∑ key, builds turns key := by
  induction h with
  | still => rfl
  | turn t past now ih =>
    simp only [history_concat, List.countP_append, builds_concat, Finset.sum_add_distrib,
      ← links_of_turn now, ih]

theorem size_eq (c : Cache) : c.size = ∑ key, if key ∈ c.keys then 1 else 0 := by
  have hcard : c.keys.toFinset.card = c.size := by
    rw [List.toFinset_card_of_nodup c.keys_nodup, keys, List.length_map, size]
  rw [← hcard, Finset.card_eq_sum_ones, ← Finset.sum_filter]
  congr 1
  ext key
  simp

theorem completed_of_turn (hn : (c.perform t.listener t.request).Plays t.events (t.reply, c'))
    (missing : key ∉ c.keys) (made : (t.obtained key).isSome) :
    ∃ vertex fragment linked, t.events = Build.completed c.settings key vertex fragment linked := by
  obtain ⟨now, hr⟩ := Turn.request_of_obtained made
  obtain ⟨listener, request, reply, events⟩ := t
  obtain rfl : request = .lookup key now := hr
  obtain ⟨exit⟩ := turn_exit hn
  cases exit with
  | hit cached => exact absurd (contains_iff.1 (by simp [contains, cached])) missing
  | failed absent build => simp [Turn.obtained] at made
  | @built _ linked absent build =>
    obtain ⟨vertex, fragment, he⟩ := Build.events_of_build build
    exact ⟨vertex, fragment, linked, he⟩

/-- A program is built by the look-up that begins the life of its key and by nothing else in that
life: the look-ups after it are hits, which neither call nor log anything. In all, as many links
succeeded as entries were removed or are still there. -/
theorem one_build_in_each_life (h : Course perform (empty settings) turns c) :
    (∀ key, key ∈ c.keys ↔ Lives turns key) ∧
      (∀ before t after, turns = before ++ t :: after →
        ∃ a b, Course perform (empty settings) before a ∧
          (a.perform t.listener t.request).Plays t.events (t.reply, b) ∧
          Course perform b after c ∧ Costs a t) ∧
      (∀ key, builds turns key = removals turns key + if key ∈ c.keys then 1 else 0) ∧
      (history turns).countP Event.links = (∑ key, removals turns key) + c.size ∧
      ∀ key before first after, turns = before ++ first :: after → ¬ Lives before key →
        (first.obtained key).isSome → (∀ u ∈ after, ¬ u.Removes key) →
        (∃ vertex fragment linked,
          first.events = Build.completed settings key vertex fragment linked) ∧
        ∀ u ∈ after, u.asks key → u.events = [] ∧ (u.obtained key).isSome := by
  refine ⟨(reflects_of_course h).lives_iff, ?_, builds_eq h, ?_, ?_⟩
  · rintro before t after rfl
    obtain ⟨a, b, ha, now, hb⟩ := h.split
    exact ⟨a, b, ha, now, hb, costs_of_turn now⟩
  · rw [links_eq h, size_eq, ← Finset.sum_add_distrib]
    exact Finset.sum_congr rfl fun key _ => builds_eq h key
  · rintro key before first after rfl dead made kept
    obtain ⟨a, b, ha, now, -⟩ := h.split
    have missing : key ∉ a.keys := fun hk => dead ((reflects_of_course ha).lives_iff key |>.1 hk)
    obtain rfl := course_settings ha
    refine ⟨completed_of_turn now missing made, fun u hu asked => ?_⟩
    obtain ⟨between, later, rfl⟩ := List.append_of_mem hu
    have hsplit : before ++ first :: (between ++ u :: later) =
        (before ++ first :: between) ++ u :: later := by simp
    rw [hsplit] at h
    obtain ⟨a', b', ha', now', -⟩ := h.split
    have lives : Lives (before ++ first :: between) key :=
      ⟨before, first, between, rfl, made, fun v hv => kept v (by simp [hv])⟩
    exact (costs_of_turn now').hit key asked ((reflects_of_course ha').lives_iff key |>.2 lives)

def interleaved : List (Cue Request) := [
  { change := { rejectStages := some [.fragment] }, request := .lookup ⟨.solid, true⟩ ⟨1⟩ },
  { change := { rejectStages := some [] }, request := .lookup ⟨.rgba, false⟩ ⟨2⟩ },
  { request := .lookup ⟨.solid, true⟩ ⟨3⟩ },
  { request := .lookup ⟨.rgba, false⟩ ⟨4⟩ },
  { request := .destroy ⟨.solid, true⟩ },
  { request := .lookup ⟨.rgba, false⟩ ⟨5⟩ },
  { request := .lookup ⟨.solid, true⟩ ⟨6⟩ }]

theorem one_build_in_each_life_interleaved :
    ∃ turns c before first after, Course perform (empty {}) turns c ∧
      turns = before ++ first :: after ∧ before.length = 1 ∧ after.length = 5 ∧
      c.keys = [⟨.solid, true⟩, ⟨.rgba, false⟩] ∧ ¬ Lives before ⟨.rgba, false⟩ ∧
      (first.obtained ⟨.rgba, false⟩).isSome ∧ (∀ u ∈ after, ¬ u.Removes ⟨.rgba, false⟩) ∧
      (∃ vertex fragment linked,
        first.events = Build.completed {} ⟨.rgba, false⟩ vertex fragment linked) ∧
      (∀ u ∈ after, u.asks ⟨.rgba, false⟩ → u.events = [] ∧ (u.obtained ⟨.rgba, false⟩).isSome) ∧
      builds turns ⟨.solid, true⟩ = 2 ∧ removals turns ⟨.solid, true⟩ = 1 ∧
      (history turns).countP Event.links = 3 ∧
      (history turns).countP Event.links = (∑ key, removals turns key) + c.size := by
  have course : Course perform _ _ _ := course_scripted interleaved (empty {}) {}
  obtain ⟨-, -, -, total, lives⟩ := one_build_in_each_life course
  have dead : ¬ Lives ((scripted perform interleaved (empty {}) {}).1.take 1) ⟨.rgba, false⟩ := by
    decide +kernel
  have kept : ∀ u ∈ (scripted perform interleaved (empty {}) {}).1.drop 2,
      ¬ u.Removes ⟨.rgba, false⟩ := by decide +kernel
  obtain ⟨built, silent⟩ := lives ⟨.rgba, false⟩ _ _ _ rfl dead (by decide +kernel) kept
  exact ⟨_, _, _, _, _, course, rfl, by decide +kernel, by decide +kernel, by decide +kernel, dead,
    by decide +kernel, kept, built, silent, by decide +kernel, by decide +kernel, by decide +kernel,
    total⟩

end Cache

end GlPrograms
