import GlPrograms.Proofs.Cache.History
import Mathlib.Data.List.Perm.Subperm

namespace GlPrograms.Cache

variable {settings : Settings} {turns : List (Turn Request)} {t : Turn Request} {key : Key}
  {entries : List Entry} {e : Entry} {c c' : Cache}

/-- The history tells of an entry: program and locations come from the build at the begin of the
key's life, the time from the latest look-up. -/
structure Recalled (settings : Settings) (turns : List (Turn Request)) (e : Entry) : Prop where
  begun : ∃ n first made, Begins turns e.key n first ∧ first.obtained e.key = some made ∧
    e.program = made.program ∧ e.locations = made.locations ∧
    (Build.build settings e.key).Plays first.events (.ok ⟨e.program, e.locations⟩)
  used : LastLookup turns e.key e.lastUsed

/-- The entries are those that the history tells of. -/
structure Reflects (settings : Settings) (turns : List (Turn Request)) (entries : List Entry) :
    Prop where
  distinct : (entries.map Entry.key).Nodup
  lives_iff : ∀ key, key ∈ entries.map Entry.key ↔ Lives turns key
  recalled : ∀ e ∈ entries, Recalled settings turns e
  newestFirst : entries.Pairwise fun d e => ∀ m n t u,
    Begins turns d.key m t → Begins turns e.key n u → n < m

theorem Recalled.lives (h : Recalled settings turns e) : Lives turns e.key := by
  obtain ⟨n, first, made, hb, -⟩ := h.begun
  exact hb.lives

theorem Recalled.concat (h : Recalled settings turns e) (hr : ¬ t.Removes e.key)
    (hl : t.lookupTime e.key = none) : Recalled settings (turns ++ [t]) e := by
  obtain ⟨n, first, made, hb, hm⟩ := h.begun
  exact ⟨⟨n, first, made, hb.concat hr, hm⟩, h.used.concat hl⟩

theorem Recalled.touch {now : Instant} (h : Recalled settings turns e) (hr : ¬ t.Removes e.key)
    (hl : t.lookupTime e.key = some now) :
    Recalled settings (turns ++ [t]) { e with lastUsed := now } := by
  obtain ⟨n, first, made, hb, hm⟩ := h.begun
  exact ⟨⟨n, first, made, hb.concat hr, hm⟩, lastLookup_concat hl⟩

theorem newestFirst_concat {l : List Entry} (hl : ∀ e ∈ l, Recalled settings turns e)
    (hr : ∀ e ∈ l, ¬ t.Removes e.key)
    (h : l.Pairwise fun d e => ∀ m n t u, Begins turns d.key m t → Begins turns e.key n u → n < m) :
    l.Pairwise fun d e => ∀ m n v u,
      Begins (turns ++ [t]) d.key m v → Begins (turns ++ [t]) e.key n u → n < m := by
  refine h.imp_of_mem fun {d e} hd he hde m n v u hm hn => ?_
  obtain ⟨m', _, _, hm', -⟩ := (hl d hd).begun
  obtain ⟨n', _, _, hn', -⟩ := (hl e he).begun
  rw [(hm.unique (hm'.concat (hr d hd))).1, (hn.unique (hn'.concat (hr e he))).1]
  exact hde _ _ _ _ hm' hn'

theorem reflects_nil : Reflects settings [] [] where
  distinct := List.nodup_nil
  lives_iff key := by simp [not_lives_nil]
  recalled e he := by cases he
  newestFirst := .nil

theorem Reflects.idle (h : Reflects settings turns entries) (ho : ∀ key, t.obtained key = none)
    (hr : ∀ key, Lives turns key → ¬ t.Removes key)
    (hl : ∀ key, Lives turns key → t.lookupTime key = none) :
    Reflects settings (turns ++ [t]) entries where
  distinct := h.distinct
  lives_iff key := by
    rw [h.lives_iff, lives_concat, ho]
    constructor
    · exact fun hk => .inr ⟨hk, hr key hk⟩
    · rintro (hk | ⟨hk, -⟩)
      · simp at hk
      · exact hk
  recalled e he :=
    (h.recalled e he).concat (hr _ (h.recalled e he).lives) (hl _ (h.recalled e he).lives)
  newestFirst :=
    newestFirst_concat h.recalled (fun e he => hr _ (h.recalled e he).lives) h.newestFirst

theorem Reflects.touch {now : Instant} (h : Reflects settings turns c.entries)
    (hc : c.get? key = some e) (hr : t.request = .lookup key now) :
    Reflects settings (turns ++ [t]) (c.touch key now).entries := by
  have hremoves (k : Key) : ¬ t.Removes k := by simp [Turn.Removes, hr]
  obtain ⟨he, hk⟩ := get?_eq_some.1 hc
  have hlives : Lives turns key := hk ▸ (h.recalled e he).lives
  have hkeys : (c.touch key now).entries.map Entry.key = c.entries.map Entry.key :=
    keys_touch c key now
  have hold : c.entries.Pairwise fun d e => ∀ m n v u,
      Begins (turns ++ [t]) d.key m v → Begins (turns ++ [t]) e.key n u → n < m :=
    newestFirst_concat h.recalled (fun e _ => hremoves e.key) h.newestFirst
  refine ⟨hkeys ▸ h.distinct, fun k => ?_, fun d hd => ?_, ?_⟩
  · rw [hkeys, h.lives_iff, lives_concat]
    constructor
    · exact fun hk => .inr ⟨hk, hremoves k⟩
    · rintro (ho | ⟨hk, -⟩)
      · obtain ⟨now', hr'⟩ := Turn.request_of_obtained ho
        rw [hr] at hr'
        cases hr'
        exact hlives
      · exact hk
  · obtain ⟨d, hd', rfl⟩ := List.mem_map.1 hd
    by_cases hdk : d.key = key
    · rw [if_pos hdk]
      exact (h.recalled d hd').touch (hremoves _) (by simp [Turn.lookupTime, hr, hdk])
    · rw [if_neg hdk]
      exact (h.recalled d hd').concat (hremoves _) (by simp [Turn.lookupTime, hr, Ne.symm hdk])
  · refine List.pairwise_map.2 (hold.imp fun {d e} hde => ?_)
    split <;> split <;> exact hde

theorem Reflects.insert {now : Instant} {linked : Linked} (h : Reflects settings turns c.entries)
    (hc : c.get? key = none) (hr : t.request = .lookup key now)
    (hp : t.reply = .program (.ok ⟨key, linked.program, linked.locations, now⟩))
    (hb : (Build.build settings key).Plays t.events (.ok linked)) :
    Reflects settings (turns ++ [t])
      (c.insert ⟨key, linked.program, linked.locations, now⟩ hc).entries := by
  have hremoves (k : Key) : ¬ t.Removes k := by simp [Turn.Removes, hr]
  have hnot : key ∉ c.entries.map Entry.key := get?_eq_none.1 hc
  have hdead : ¬ Lives turns key := fun hl => hnot ((h.lives_iff key).2 hl)
  have hmade : t.obtained key = some ⟨key, linked.program, linked.locations, now⟩ := by
    simp [Turn.obtained, hr, hp]
  have hbegin : Begins (turns ++ [t]) key turns.length t := begins_concat (by simp [hmade]) hdead
  have hold (d : Entry) (hd : d ∈ c.entries) : d.key ≠ key :=
    fun hk => hnot (hk ▸ List.mem_map_of_mem hd)
  rw [entries_insert]
  -- The old lives go on, and the new one begins after all of them.
  refine ⟨List.nodup_cons.2 ⟨hnot, h.distinct⟩, fun k => ?_, fun d hd => ?_, ?_⟩
  · rw [List.map_cons, List.mem_cons, h.lives_iff, lives_concat]
    by_cases hk : k = key
    · subst k
      simp [hmade]
    · have ho : t.obtained k = none := by simp [Turn.obtained, hr, hp, Ne.symm hk]
      simp [hk, ho, hremoves k]
  · rcases List.mem_cons.1 hd with rfl | hd
    · exact ⟨⟨_, t, _, hbegin, hmade, rfl, rfl, hb⟩,
        lastLookup_concat (by simp [Turn.lookupTime, hr])⟩
    · exact (h.recalled d hd).concat (hremoves _) (by simp [Turn.lookupTime, hr, (hold d hd).symm])
  · refine List.pairwise_cons.2 ⟨fun d hd m n v u hm hn => ?_,
      newestFirst_concat h.recalled (fun d _ => hremoves d.key) h.newestFirst⟩
    obtain ⟨n', _, _, hn', -⟩ := (h.recalled d hd).begun
    rw [(hm.unique hbegin).1, (hn.unique (hn'.concat (hremoves _))).1]
    exact hn'.lt_length

theorem Reflects.erase (h : Reflects settings turns c.entries) (hr : t.request = .destroy key) :
    Reflects settings (turns ++ [t]) (c.erase key).entries := by
  have hremoves (k : Key) : t.Removes k ↔ k = key := by simp [Turn.Removes, hr, eq_comm]
  have hkept (d : Entry) (hd : d ∈ (c.erase key).entries) : d ∈ c.entries ∧ ¬ t.Removes d.key := by
    obtain ⟨hd, hk⟩ := List.mem_filter.1 hd
    exact ⟨hd, fun he => by simp [(hremoves _).1 he] at hk⟩
  refine ⟨(c.erase key).distinct, fun k => ?_, fun d hd => ?_, ?_⟩
  · have hkeys : (c.erase key).entries.map Entry.key = (c.entries.map Entry.key).filter (· ≠ key) :=
      keys_erase c key
    have ho : t.obtained k = none := by simp [Turn.obtained, hr]
    rw [hkeys, lives_concat, ho, hremoves, List.mem_filter, h.lives_iff]
    simp
  · exact (h.recalled d (hkept d hd).1).concat (hkept d hd).2 (by simp [Turn.lookupTime, hr])
  · exact newestFirst_concat (fun d hd => h.recalled d (hkept d hd).1) (fun d hd => (hkept d hd).2)
      (h.newestFirst.sublist List.filter_sublist)

theorem reflects_destroyAll (hr : t.request = .destroyAll) :
    Reflects settings (turns ++ [t]) [] where
  distinct := List.nodup_nil
  lives_iff key := by simp [lives_concat, Turn.obtained, Turn.Removes, hr]
  recalled e he := by cases he
  newestFirst := .nil

theorem Reflects.ne_of_missing (h : Reflects settings turns c.entries) (missing : c.get? key = none)
    {other : Key} (hl : Lives turns other) : key ≠ other := by
  rintro rfl
  exact get?_eq_none.1 missing ((h.lives_iff _).2 hl)

theorem Reflects.turn (h : Reflects c.settings turns c.entries)
    (hn : (c.perform t.listener t.request).Plays t.events (t.reply, c')) :
    Reflects c.settings (turns ++ [t]) c'.entries := by
  obtain ⟨listener, request, reply, events⟩ := t
  cases turn_exit hn with
  | @lookup key now _ _ _ exit =>
    cases exit with
    | hit cached => exact h.touch cached rfl
    | failed missing build =>
      refine h.idle (fun _ => rfl) (fun _ _ => by simp [Turn.Removes]) fun k hk => ?_
      simp [Turn.lookupTime, h.ne_of_missing missing hk]
    | built missing build => exact h.insert missing rfl rfl build
  | @destroy key _ _ _ exit =>
    cases exit with
    | absent missing =>
      refine h.idle (fun _ => rfl) (fun k hk => ?_) fun _ _ => rfl
      simp [Turn.Removes, h.ne_of_missing missing hk]
    | gone cached => exact h.erase rfl
  | destroyAll => exact reflects_destroyAll rfl
  | inspect seen =>
    exact h.idle (fun _ => rfl) (fun _ _ => by simp [Turn.Removes]) fun _ _ => rfl

theorem reflects_of_course (h : Course perform (empty settings) turns c) :
    Reflects settings turns c.entries := by
  induction h with
  | still => exact reflects_nil
  | turn t past now ih =>
    obtain rfl := course_settings past
    exact ih.turn now

/-- What the history before a turn says about the reply of the turn. -/
def Agrees (settings : Settings) (past : List (Turn Request)) (t : Turn Request) : Prop :=
  match t.request, t.reply with
  | .lookup key now, .program (.ok e) =>
      Recalled settings (past ++ [t]) e ∧ e.key = key ∧ e.lastUsed = now
  | .lookup key _, .program (.error _) => ¬ Lives past key
  | .destroy key, .flag found => found = true ↔ Lives past key
  | .destroyAll, .nothing => True
  | .inspect (.get key), .entry found =>
      (found.isSome ↔ Lives past key) ∧ ∀ e ∈ found, Recalled settings past e ∧ e.key = key
  | .inspect (.contains key), .flag found => found = true ↔ Lives past key
  | .inspect .size, .size n =>
      (∃ keys : List Key, keys.Nodup ∧ (∀ key, key ∈ keys ↔ Lives past key) ∧ keys.length = n) ∧
        (n = 0 ↔ ∀ key, ¬ Lives past key)
  | .inspect .list, .entries es => Reflects settings past es
  | .inspect .settings, .settings s => s = settings
  | .inspect .scope, .scope name description heard =>
      name = settings.scopeName ∧ description = settings.scopeDescription ∧
        heard = t.listener.hears .debug settings.scopeName
  | .inspect (.report _ _), .report _ => True
  | .inspect (.logReport _), .nothing => True
  | _, _ => False

theorem Reflects.get?_isSome_iff (h : Reflects settings turns c.entries) (key : Key) :
    (c.get? key).isSome ↔ Lives turns key := by
  rw [← h.lives_iff]
  exact contains_iff

theorem Reflects.agrees (h : Reflects c.settings turns c.entries)
    (hn : (c.perform t.listener t.request).Plays t.events (t.reply, c')) :
    Agrees c.settings turns t := by
  have hr := h.turn hn
  obtain ⟨listener, request, reply, events⟩ := t
  dsimp only at hn
  cases turn_exit hn with
  | @lookup key now _ result _ exit =>
    cases result with
    | ok e =>
      obtain ⟨hc, hk, hu⟩ := exit.cached
      exact ⟨hr.recalled e (get?_eq_some.1 hc).1, hk, hu⟩
    | error e =>
      cases exit with
      | failed missing build =>
        intro hl
        simpa [missing] using (h.get?_isSome_iff key).2 hl
  | @destroy key _ found _ exit =>
    cases exit with
    | absent missing => simpa [Agrees, missing] using h.get?_isSome_iff key
    | gone cached => simpa [Agrees, cached] using h.get?_isSome_iff key
  | destroyAll => trivial
  | @inspect i _ _ seen =>
    cases i with
    | get key =>
      obtain ⟨⟩ := seen
      refine ⟨h.get?_isSome_iff key, fun e he => ?_⟩
      obtain ⟨he, hk⟩ := get?_eq_some.1 he
      exact ⟨h.recalled e he, hk⟩
    | contains key =>
      obtain ⟨⟩ := seen
      exact h.get?_isSome_iff key
    | size =>
      obtain ⟨⟩ := seen
      refine ⟨⟨c.keys, h.distinct, h.lives_iff, by simp [keys, size]⟩, ?_⟩
      rw [size, List.length_eq_zero_iff, ← List.map_eq_nil_iff (f := Entry.key),
        List.eq_nil_iff_forall_not_mem]
      exact forall_congr' fun key => not_congr (h.lives_iff key)
    | list =>
      obtain ⟨⟩ := seen
      exact h
    | settings =>
      obtain ⟨⟩ := seen
      rfl
    | scope =>
      obtain ⟨⟩ := seen
      exact ⟨rfl, rfl, rfl⟩
    | report now limit =>
      obtain ⟨s, -, ⟨⟩⟩ := Action.plays_bind_pure.1 seen
      trivial
    | logReport now =>
      obtain ⟨s, -, ⟨⟩⟩ := Action.plays_bind_pure.1 seen
      trivial

theorem Agrees.recalled (h : Agrees settings turns t) (ho : t.obtained key = some e) :
    Recalled settings (turns ++ [t]) e ∧ e.key = key := by
  obtain ⟨listener, request, reply, events⟩ := t
  unfold Turn.obtained at ho
  split at ho
  next asked now e' hr hp =>
    dsimp only at hr hp
    subst hr hp
    split at ho
    next he =>
      cases ho
      exact ⟨h.1, he ▸ h.2.1⟩
    next => cases ho
  next => cases ho

theorem Recalled.same_iff {past between : List (Turn Request)} {u : Turn Request} {d : Entry}
    (hd : Recalled settings (past ++ [t]) d)
    (he : Recalled settings (past ++ t :: between ++ [u]) e)
    (hu : (u.obtained e.key).isSome) (hb : ∀ v ∈ between, ¬ v.Removes d.key) :
    (d.key = e.key ∧ d.program = e.program ∧ d.locations = e.locations) ↔ d.key = e.key := by
  refine ⟨And.left, fun hk => ⟨hk, ?_⟩⟩
  obtain ⟨m, first, made, hm, hmade, hp, hl, -⟩ := hd.begun
  obtain ⟨n, first', made', hn, hmade', hp', hl', -⟩ := he.begun
  have hsplit : past ++ t :: between ++ [u] = past ++ [t] ++ (between ++ [u]) := by simp
  have hlater : ∀ v ∈ between ++ [u], ¬ v.Removes d.key := by
    intro v hv
    rcases List.mem_append.1 hv with hv | hv
    · exact hb v hv
    · rw [List.mem_singleton.1 hv, hk]
      exact Turn.not_removes_of_obtained hu
  rw [← hk, hsplit] at hn
  obtain ⟨-, rfl⟩ := (hm.append hlater).unique hn
  rw [← hk, hmade] at hmade'
  cases hmade'
  exact ⟨hp.trans hp'.symm, hl.trans hl'.symm⟩

theorem size_le (c : Cache) : c.size ≤ 18 := by
  have h : c.keys.length ≤ Key.all.length :=
    (c.keys_nodup.subperm fun k _ => Key.mem_all k).length_le
  have h18 : Key.all.length = 18 := by decide
  simpa [keys, size, h18] using h

/-- Whatever the GL answers, a cache that started empty holds what its history tells, every reply
agrees with the history before it, and two look-ups share an entry just when they share a key. -/
theorem course_follows_history (h : Course perform (empty settings) turns c) :
    Reflects settings turns c.entries ∧ c.size ≤ 18 ∧
      (∀ before t after, turns = before ++ t :: after → Agrees settings before t) ∧
      ∀ before t between u after j k d e, turns = before ++ t :: between ++ u :: after →
        t.obtained j = some d → u.obtained k = some e → (∀ v ∈ between, ¬ v.Removes j) →
        ((d.key = e.key ∧ d.program = e.program ∧ d.locations = e.locations) ↔ j = k) := by
  have agrees : ∀ before t after, turns = before ++ t :: after → Agrees settings before t := by
    rintro before t after rfl
    obtain ⟨a, b, ha, now, -⟩ := h.split
    have hr := reflects_of_course ha
    obtain rfl := course_settings ha
    exact hr.agrees now
  refine ⟨reflects_of_course h, c.size_le, agrees, ?_⟩
  intro before t between u after j k d e he hd hu hb
  obtain ⟨rd, rfl⟩ := (agrees before t (between ++ u :: after) (by simp [he])).recalled hd
  obtain ⟨re, rfl⟩ := (agrees (before ++ t :: between) u after he).recalled hu
  exact rd.same_iff re (by simp [hu]) hb

def rebuilding : List (Cue Request) := [
  { request := .lookup ⟨.rgba, false⟩ ⟨5⟩ },
  { change := { refuseShaders := some [.fragment] }, request := .lookup ⟨.solid, true⟩ ⟨6⟩ },
  { change := { refuseShaders := some [] }, request := .lookup ⟨.rgba, false⟩ ⟨2⟩ },
  { request := .lookup ⟨.solid, true⟩ ⟨7⟩ },
  { request := .destroy ⟨.rgba, false⟩ },
  { request := .lookup ⟨.rgba, false⟩ ⟨9⟩ }]

theorem course_follows_history_rebuilding :
    ∃ turns c, Course perform (empty {}) turns c ∧
      c.entries.map (fun e => (e.key, e.program, e.lastUsed)) =
        [(⟨.rgba, false⟩, ⟨10⟩, ⟨9⟩), (⟨.solid, true⟩, ⟨7⟩, ⟨7⟩)] ∧
      Reflects {} turns c.entries ∧ c.size ≤ 18 ∧
      ∃ t v u after d e, turns = [] ++ t :: [v] ++ u :: after ∧ Agrees {} [t] v ∧
        t.obtained ⟨.rgba, false⟩ = some d ∧ u.obtained ⟨.rgba, false⟩ = some e ∧
        ¬ v.Removes ⟨.rgba, false⟩ ∧ d.lastUsed = ⟨5⟩ ∧ e.lastUsed = ⟨2⟩ ∧
        d.program = e.program ∧ d.locations = e.locations := by
  have course : Course perform _ _ _ := course_scripted rebuilding (empty {}) {}
  obtain ⟨reflects, small, agrees, shared⟩ := course_follows_history course
  refine ⟨_, _, course, by decide, reflects, small, _, _, _, _, _, _, rfl,
    agrees [_] _ _ rfl, rfl, rfl, ?_, rfl, rfl, ?_⟩
  · rintro (h | h) <;> cases h
  · exact ((shared [] _ [_] _ _ ⟨.rgba, false⟩ ⟨.rgba, false⟩ _ _ rfl rfl rfl (by
      intro v hv
      rw [List.mem_singleton.1 hv]
      rintro (h | h) <;> cases h)).2 rfl).2

end GlPrograms.Cache
