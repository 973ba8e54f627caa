import GlPrograms.Proofs.Ending
import GlPrograms.Proofs.Session.Scenes
import GlPrograms.Proofs.Targets

namespace GlPrograms

/-- What a record tells a reader. -/
inductive Notice where
  | compiling (description : String)
  | deleting (description : String)
  | failure
  | other

def Record.about (words : String) (r : Record) : Option Key :=
  Key.all.find? fun key => r.message = words ++ key.description

def Record.notice (r : Record) : Notice :=
  match r.about "Compiling shader program for: ", r.about "Deleting shader program for: " with
  | some key, _ => .compiling key.description
  | none, some key => .deleting key.description
  | none, none => if r.severity = .error then .failure else .other

structure Trail where
  noted : List String := []
  /-- Whether the newest may still turn out to have failed. -/
  pending : Bool := false

namespace Trail

def follow (t : Trail) : Notice → Trail
  | .compiling description => ⟨description :: t.noted, true⟩
  | .deleting description => ⟨t.noted.erase description, false⟩
  | .failure => if t.pending then ⟨t.noted.tail, false⟩ else t
  | .other => t

def followAll (t : Trail) (rs : List Record) : Trail := rs.foldl (fun t r => t.follow r.notice) t

end Trail

def replay (rs : List Record) : List String := (Trail.followAll {} rs).noted

/-- The records that the listeners of some turns keep. -/
def heard {Request : Type} (turns : List (Turn Request)) : List Record :=
  turns.flatMap fun t => (records t.events).filter t.listener.keeps

def Event.refuses : Event Gl → Bool
  | .called (.createShader _) (.error _) => true
  | .called .createProgram (.error _) => true
  | _ => false

/-- No object was refused. -/
def Granted (events : List (Event Gl)) : Prop := ∀ e ∈ events, e.refuses = false

instance (events : List (Event Gl)) : Decidable (Granted events) :=
  inferInstanceAs (Decidable (∀ e ∈ events, e.refuses = false))

section Notices

variable {r : Record} {words : String} {key : Key}

theorem about_eq_some : r.about words = some key ↔ r.message = words ++ key.description := by
  constructor
  · intro h
    simpa using List.find?_some h
  · intro h
    cases hf : r.about words with
    | none =>
      have hn := List.find?_eq_none.1 hf key (Key.mem_all key)
      simp [h] at hn
    | some other =>
      have ho : r.message = words ++ other.description := by simpa using List.find?_some hf
      rw [Key.description_injective (String.append_right_inj words |>.1 (ho.symm.trans h))]

theorem about_eq_none (h : ∀ key : Key, r.message ≠ words ++ key.description) :
    r.about words = none := by
  cases hf : r.about words with
  | none => rfl
  | some key => exact absurd (about_eq_some.1 hf) (h key)

theorem about_of_head (words : String) {a : Char} (hw : words.toList.head? = some a)
    (hr : r.message.toList.head? ≠ some a) : r.about words = none := by
  refine about_eq_none fun key h => hr ?_
  rw [h, String.toList_append, List.head?_append, hw, Option.some_or]

theorem about_of_newline (words : String) (hw : '\n' ∉ words.toList)
    (hr : '\n' ∈ r.message.toList) :
    r.about words = none := by
  apply about_eq_none
  intro key h
  rw [h, String.toList_append] at hr
  rcases List.mem_append.1 hr with hr | hr
  · exact hw hr
  · exact key.newline_notMem_description hr

theorem notice_compiling (settings : Settings) (key : Key) :
    (Build.announcement settings key).notice = .compiling key.description := by
  have h : (Build.announcement settings key).about "Compiling shader program for: " = some key :=
    about_eq_some.2 rfl
  simp only [Record.notice, h]

theorem notice_deleting (target : String) (key : Key) :
    Record.notice ⟨.debug, target, "Deleting shader program for: " ++ key.description⟩ =
      .deleting key.description := by
  have hc : Record.about "Compiling shader program for: "
      ⟨.debug, target, "Deleting shader program for: " ++ key.description⟩ = none :=
    about_of_head "Compiling shader program for: " (a := 'C') rfl (by simp)
  have hd : Record.about "Deleting shader program for: "
      ⟨.debug, target, "Deleting shader program for: " ++ key.description⟩ = some key :=
    about_eq_some.2 rfl
  simp only [Record.notice, hc, hd]

theorem notice_error (hs : r.severity = .error) (hc : r.message.toList.head? ≠ some 'C')
    (hd : r.message.toList.head? ≠ some 'D') : r.notice = .failure := by
  simp only [Record.notice, about_of_head "Compiling shader program for: " rfl hc,
    about_of_head "Deleting shader program for: " rfl hd, hs, if_true]

theorem notice_report (hs : r.severity = .debug) (hm : '\n' ∈ r.message.toList) :
    r.notice = .other := by
  simp [Record.notice, about_of_newline "Compiling shader program for: " (by simp) hm,
    about_of_newline "Deleting shader program for: " (by simp) hm, hs]

end Notices

namespace Trail

variable {t : Trail} {first rest : List Record}

theorem followAll_append : t.followAll (first ++ rest) = (t.followAll first).followAll rest :=
  List.foldl_append

theorem followAll_cons {r : Record} :
    t.followAll (r :: rest) = (t.follow r.notice).followAll rest :=
  rfl

theorem followAll_unmoved (h : ∀ r ∈ rest, t.follow r.notice = t) : t.followAll rest = t := by
  induction rest with
  | nil => rfl
  | cons r rest ih =>
    rw [followAll_cons, h r (by simp)]
    exact ih fun x hx => h x (by simp [hx])

theorem followAll_others (h : ∀ r ∈ rest, r.notice = .other) : t.followAll rest = t := by
  apply followAll_unmoved
  intro r hr
  rw [h r hr]
  rfl

theorem followAll_failures (hp : t.pending = false) (h : ∀ r ∈ rest, r.notice = .failure) :
    t.followAll rest = t := by
  apply followAll_unmoved
  intro r hr
  rw [h r hr, follow, if_neg (by simp [hp])]

theorem followAll_withdrawn {description : String} (hne : rest ≠ [])
    (h : ∀ r ∈ rest, r.notice = .failure) :
    (t.follow (.compiling description)).followAll rest = ⟨t.noted, false⟩ := by
  cases rest with
  | nil => exact absurd rfl hne
  | cons r rest =>
    rw [followAll_cons, h r (by simp)]
    exact followAll_failures rfl fun x hx => h x (by simp [hx])

end Trail

namespace Build

open GlPrograms.Action

variable {α : Type} {settings : Settings} {stage : Stage} {parts : List String} {key : Key}
  {events : List (Event Gl)}

def Complains (rs : List Record) : Prop := rs ≠ [] ∧ ∀ r ∈ rs, r.notice = .failure

theorem notice_complaint {log : String} {r : Record}
    (h : .logged r ∈ complaint settings stage parts log) : r.notice = .failure := by
  rcases List.mem_cons.1 h with he | h
  · cases he
    cases stage with
    | vertex => exact notice_error rfl (by simp [Stage.text]) (by simp [Stage.text])
    | fragment => exact notice_error rfl (by simp [Stage.text]) (by simp [Stage.text])
  · split at h
    · cases List.mem_singleton.1 h
      exact notice_error rfl (by simp) (by simp)
    · cases h

theorem StageExit.complains {use : Shader → List (Event Gl) → Except BuildError α → Prop}
    {e : BuildError} (h : StageExit settings stage parts use events (.error e))
    (hg : Granted events)
    (hu : ∀ s inner, use s inner (.error e) → Granted inner → Complains (records inner)) :
    Complains (records events) := by
  cases h with
  | refused reason =>
    have hr := hg (.called (.createShader stage) (.error reason)) (by simp)
    cases hr
  | rejected s text =>
    simp only [List.cons_append, records_called, records_append, records_nil, List.append_nil]
    refine ⟨?_, fun r hr => notice_complaint (mem_records.1 hr)⟩
    rw [complaint, records_logged]
    exact List.cons_ne_nil _ _
  | @accepted s inner _ used =>
    simp only [List.cons_append, records_called, records_append, records_nil, List.append_nil]
    exact hu s inner used fun e he => hg e (by simp [he])

theorem LinkExit.complains {vertex fragment : Shader} {e : BuildError}
    (h : LinkExit settings vertex fragment events (.error e)) (hg : Granted events) :
    Complains (records events) := by
  cases h with
  | refused reason =>
    have hr := hg (.called .createProgram (.error reason)) (by simp)
    cases hr
  | rejected p text =>
    refine ⟨List.cons_ne_nil _ _, fun r hr => ?_⟩
    obtain rfl := List.mem_singleton.1 hr
    exact notice_error rfl (by simp) (by simp)

theorem assemble_complains {e : BuildError}
    (h : (assemble settings (Source.fragmentParts key)).Plays events (.error e))
    (hg : Granted events) : Complains (records events) :=
  (assemble_exit h).complains hg fun _ _ hv hg =>
    hv.complains hg fun _ _ hf hg => LinkExit.complains hf hg

theorem built_followed {linked : Linked} (h : (build settings key).Plays events (.ok linked))
    (t : Trail) : (t.followAll (records events)).noted = key.description :: t.noted := by
  obtain ⟨vertex, fragment, rfl⟩ := events_of_build h
  have hr : records (completed settings key vertex fragment linked) =
      [announcement settings key] := rfl
  rw [hr, Trail.followAll_cons, notice_compiling]
  rfl

theorem failed_followed {e : BuildError} (h : (build settings key).Plays events (.error e))
    (hg : Granted events) (t : Trail) : (t.followAll (records events)).noted = t.noted := by
  obtain ⟨assembled⟩ := build_exit h
  obtain ⟨hne, hf⟩ := assemble_complains assembled fun e he => hg e (by simp [he])
  rw [records_logged, Trail.followAll_cons, notice_compiling, Trail.followAll_withdrawn hne hf]

end Build

namespace Cache

open GlPrograms.Action

variable {c c' : Cache} {listener : Listener} {events : List (Event Gl)} {request : Request}
  {reply : Reply} {turns : List (Turn Request)} {settings : Settings}

def descriptions (c : Cache) : List String := c.entries.map fun e => e.key.description

theorem descriptions_eq (c : Cache) : c.descriptions = c.keys.map Key.description := by
  simp [descriptions, keys, Function.comp_def]

theorem descriptions_touch (key : Key) (now : Instant) :
    (c.touch key now).descriptions = c.descriptions := by
  rw [descriptions_eq, keys_touch, descriptions_eq]

theorem descriptions_insert {key : Key} (h : c.get? key = none) (p : Program) (l : Locations)
    (now : Instant) :
    (c.insert ⟨key, p, l, now⟩ h).descriptions = key.description :: c.descriptions := rfl

theorem descriptions_erase (key : Key) :
    (c.erase key).descriptions = c.descriptions.erase key.description := by
  have hi : Function.Injective Key.description := fun _ _ => Key.description_injective
  have hk : c.keys.filter (· ≠ key) = c.keys.erase key := by
    rw [c.keys_nodup.erase_eq_filter]
    refine List.filter_congr fun other _ => ?_
    simp [bne, beq_eq_decide]
  rw [descriptions_eq, keys_erase, hk, List.map_erase hi, descriptions_eq]

theorem records_farewell (settings : Settings) (e : Entry) : records (farewell settings e) =
    [⟨.debug, settings.scopeName, "Deleting shader program for: " ++ e.key.description⟩] := rfl

theorem farewell_followed (settings : Settings) (e : Entry) (t : Trail) :
    (t.followAll (records (farewell settings e))).noted = t.noted.erase e.key.description := by
  rw [records_farewell, Trail.followAll_cons, notice_deleting]
  rfl

theorem farewells_followed (settings : Settings) (es : List Entry) (t : Trail)
    (h : t.noted = es.map fun e => e.key.description) :
    (t.followAll (records (es.flatMap (farewell settings)))).noted = [] := by
  induction es generalizing t with
  | nil => exact h
  | cons e es ih =>
    rw [List.flatMap_cons, records_append, Trail.followAll_append]
    refine ih _ ?_
    rw [farewell_followed, h, List.map_cons, List.erase_cons_head]

theorem TurnExit.followed (h : TurnExit c listener request events reply c')
    (hg : Granted events) {t : Trail} (ht : t.noted = c.descriptions) :
    (t.followAll (records events)).noted = c'.descriptions := by
  cases h with
  | lookup exit =>
    cases exit with
    | hit cached =>
      rw [descriptions_touch]
      exact ht
    | failed missing hb =>
      rw [Build.failed_followed hb hg]
      exact ht
    | built missing hb =>
      rw [Build.built_followed hb, ht, descriptions_insert missing]
  | destroy exit =>
    cases exit with
    | absent missing => exact ht
    | @gone e cached =>
      obtain ⟨-, rfl⟩ := get?_eq_some.1 cached
      rw [farewell_followed, ht, descriptions_erase]
  | destroyAll => exact farewells_followed c.settings c.entries t ht
  | inspect seen =>
    rw [Trail.followAll_others fun r hr => ?_]
    · exact ht
    · obtain ⟨hs, -, hm⟩ := (inspect_writes c listener _).of_plays seen (mem_records.1 hr)
      exact notice_report hs hm

theorem TurnExit.all_kept (h : TurnExit c listener request events reply c')
    (ho : (c.perform listener request).Plays events (reply, c'))
    (hd : listener.hears .debug c.settings.scopeName)
    (he : listener.hears .error c.settings.scopeName) :
    (records events).filter listener.keeps = records events := by
  refine List.filter_eq_self.2 fun r hr => ?_
  have owned : r.target = c.settings.scopeName :=
    (perform_owned c listener request).of_plays ho (mem_records.1 hr)
  rw [Listener.keeps, owned]
  rcases h.severity_eq (mem_records.1 hr) with hs | hs
  · rw [hs]
    exact hd
  · rw [hs]
    exact he

/-- Everyone keeps what is written in the scope. -/
def Attentive (settings : Settings) (turns : List (Turn Request)) : Prop :=
  ∀ t ∈ turns, t.listener.hears .debug settings.scopeName ∧
    t.listener.hears .error settings.scopeName

instance (settings : Settings) (turns : List (Turn Request)) :
    Decidable (Attentive settings turns) :=
  inferInstanceAs (Decidable (∀ t ∈ turns,
    t.listener.hears .debug settings.scopeName ∧ t.listener.hears .error settings.scopeName))

theorem heard_concat (turns : List (Turn Request)) (t : Turn Request) :
    heard (turns ++ [t]) = heard turns ++ (records t.events).filter t.listener.keeps := by
  simp [heard]

theorem course_followed (h : Course perform (.empty settings) turns c)
    (hg : Granted (history turns))
    (hk : Attentive settings turns) :
    (Trail.followAll {} (heard turns)).noted = c.descriptions := by
  generalize hs : empty settings = start at h
  induction h with
  | still =>
    subst hs
    rfl
  | @turn turns mid c t past now ih =>
    have exit := turn_exit now
    obtain rfl : mid.settings = settings := by
      rw [course_settings past, ← hs]
      rfl
    obtain ⟨hd, he⟩ := hk t (by simp)
    have followed :=
      ih (fun e h => hg e (by simp [history_concat, h])) fun u h => hk u (by simp [h])
    rw [heard_concat, exit.all_kept now hd he, Trail.followAll_append]
    exact exit.followed (fun e h => hg e (by simp [history_concat, h])) followed

/-- Someone who reads all that is written, and knows how keys are described, knows at any time which
keys are cached and in which order: an addition that failed was taken back by an error before the
next record about a key. What a driver or a scope has to say never misleads the reader. -/
theorem log_retells_the_cache (settings : Settings) (turns : List (Turn Request)) (c : Cache)
    (course : Course perform (.empty settings) turns c) (granted : Granted (history turns))
    (attentive : Attentive settings turns) :
    (∀ before after, turns = before ++ after →
      ∃ mid, Course perform (.empty settings) before mid ∧ Course perform mid after c ∧
        replay (heard before) = mid.entries.map fun e => e.key.description) ∧
      Function.Injective Key.description := by
  refine ⟨?_, fun _ _ => Key.description_injective⟩
  rintro before after rfl
  obtain ⟨mid, past, later⟩ := Course.append_iff.1 course
  refine ⟨mid, past, later,
    course_followed past (fun e h => granted e ?_) fun t h => attentive t ?_⟩
  · rw [history, List.flatMap_append]
    exact List.mem_append_left _ h
  · exact List.mem_append_left _ h

/-- A scope and a driver that speak like the cache. -/
def mimic : Settings :=
  { scopeDescription := "Compiling shader program for: SHADER_VARIANT_RGBX +green" }

def mimicked : List (Cue Request) := [
  { request := .lookup ⟨.rgba, false⟩ ⟨1⟩ },
  { change := { rejectStages := some [.fragment],
                fragmentLog := some "Deleting shader program for: SHADER_VARIANT_RGBA -green" },
    request := .lookup ⟨.solid, true⟩ ⟨2⟩ },
  { change := { rejectStages := some [], rejectLinks := some true },
    request := .lookup ⟨.external, false⟩ ⟨3⟩ },
  { change := { rejectLinks := some false }, request := .lookup ⟨.solid, false⟩ ⟨4⟩ },
  { request := .inspect (.logReport ⟨5⟩) },
  { request := .lookup ⟨.external, true⟩ ⟨6⟩ },
  { request := .destroy ⟨.rgba, false⟩ }]

theorem log_retells_the_cache_mimicked :
    let (turns, c) := scripted perform mimicked (.empty mimic) {}
    Granted (history turns) ∧ Attentive mimic turns ∧
      (heard turns).map Record.severity =
        [.debug, .debug, .error, .error, .debug, .error, .debug, .debug, .debug, .debug] ∧
      replay (heard turns) = c.entries.map (fun e => e.key.description) ∧
      replay (heard turns) = ["SHADER_VARIANT_EXTERNAL +green", "SHADER_VARIANT_SOLID -green"] := by
  have granted : Granted (history (scripted perform mimicked (.empty mimic) {}).1) := by
    decide +kernel
  have attentive : Attentive mimic (scripted perform mimicked (.empty mimic) {}).1 := by
    decide +kernel
  obtain ⟨retold, -⟩ := log_retells_the_cache mimic _ _ (course_scripted mimicked (empty mimic) {})
    granted attentive
  obtain ⟨mid, -, done, noted⟩ := retold _ [] (List.append_nil _).symm
  obtain rfl := Course.nil_iff.1 done
  exact ⟨granted, attentive, by decide +kernel, noted, noted.trans (by decide +kernel)⟩

end Cache

end GlPrograms
