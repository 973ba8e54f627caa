import GlPrograms.Proofs.Ledger
import GlPrograms.Proofs.Played

namespace GlPrograms

def Turn.Alike {Request : Type} (Reports : Request → Prop) (t u : Turn Request) : Prop :=
  ¬ Reports t.request →
    t.events.map Event.unnamed = u.events.map Event.unnamed ∧ t.reply.unnamed = u.reply.unnamed

namespace Keeper

variable {k : Keeper} {s s' a a' : k.State} {key : Key} {turns turns' : List (Turn k.Request)}

theorem Lawful.course_alike (hk : k.Lawful) (twins : List.Forall₂ Turn.Twins turns turns')
    (hs : k.unnamed s = k.unnamed s') (h : Course k.perform s turns a)
    (h' : Course k.perform s' turns' a') :
    List.Forall₂ (Turn.Alike k.Reports) turns turns' ∧ k.unnamed a = k.unnamed a' := by
  induction twins generalizing s s' with
  | nil =>
    obtain rfl := Course.nil_iff.1 h
    obtain rfl := Course.nil_iff.1 h'
    exact ⟨.nil, hs⟩
  | @cons t u turns turns' htu twins ih =>
    obtain ⟨b, now, later⟩ := Course.cons_iff.1 h
    obtain ⟨b', now', later'⟩ := Course.cons_iff.1 h'
    obtain ⟨hl, hr, habit, ht, hu⟩ := htu
    rw [← hl, ← hr] at now'
    by_cases hreports : k.Reports t.request
    · obtain rfl := hk.reports hreports now
      obtain rfl := hk.reports hreports now'
      obtain ⟨halike, ha⟩ := ih hs later later'
      exact ⟨.cons (fun hn => absurd hreports hn) halike, ha⟩
    · obtain ⟨hevents, hvalue⟩ := (hk.alike hs hreports).plays now now' ht hu
      obtain ⟨hreply, hb⟩ := Prod.mk.inj hvalue
      obtain ⟨halike, ha⟩ := ih hb later later'
      exact ⟨.cons (fun _ => ⟨hevents, hreply⟩) halike, ha⟩

theorem Lawful.course_absent (hk : k.Lawful) (h : Course k.perform s turns a)
    (hw : ∀ t ∈ turns, k.wanted t.request ≠ some key) (hs : key ∉ (k.cache s).keys) :
    key ∉ (k.cache a).keys := by
  induction h with
  | still => exact hs
  | turn t past now ih =>
    exact hk.absent (hw t (by simp)) (ih fun u hu => hw u (by simp [hu])) now

/-- A request for the program of a key came to nothing and left no trace. -/
structure Atomic (k : Keeper) (s : k.State) (key : Key) (events : List (Event Gl)) (e : BuildError)
    (s' : k.State) : Prop where
  absent : key ∉ (k.cache s).keys
  unchanged : s' = s
  settled : Settles [] events []
  drawless : ∀ call answer, .called call answer ∈ events → ¬ call.Draws
  attempt : (Build.build (k.cache s).settings key).Plays events (.error e)
  once : events.countP Event.starts = 1
  /-- The next request for the program is a miss and builds. -/
  missesAgain : ∀ turns a (t : Turn k.Request) b, Course k.perform s' turns a →
    (∀ u ∈ turns, k.wanted u.request ≠ some key) → k.wanted t.request = some key →
    (k.perform a t.listener t.request).Plays t.events (t.reply, b) →
    key ∉ (k.cache a).keys ∧ t.events.countP Event.starts = 1
  /-- Whatever comes later goes as it would have gone without the request. -/
  noTrace : ∀ turns turns' a a', List.Forall₂ Turn.Twins turns turns' →
    Course k.perform s' turns a → Course k.perform s turns' a' →
    List.Forall₂ (Turn.Alike k.Reports) turns turns' ∧ k.unnamed a = k.unnamed a'

def FailsAtomically (k : Keeper) : Prop :=
  ∀ s listener request key events reply e s', k.wanted request = some key →
    (k.perform s listener request).Plays events (reply, s') → reply.failure = some e →
    k.Atomic s key events e s'

theorem Lawful.failsAtomically (hk : k.Lawful) : k.FailsAtomically := by
  intro s listener request key events reply e s' hw h hf
  obtain ⟨habsent, rfl, hbuild⟩ := hk.fails hw h hf
  refine ⟨habsent, rfl, Build.build_settles hbuild, fun call answer he => ?_, hbuild,
    Build.build_starts hbuild, fun turns a t b hc hother hwanted hnow => ?_,
    fun turns turns' a a' twins hc hc' => hk.course_alike twins rfl hc hc'⟩
  · exact (Build.build_drawless _ key).of_plays hbuild he
  · have hmiss := hk.course_absent hc hother habsent
    exact ⟨hmiss, hk.misses hwanted hmiss hnow⟩

theorem Lawful.scripted_twins (hk : k.Lawful) (cues : List (Cue k.Request)) (s s' : k.State)
    {d d' : Device} (hd : d.script.unnumbered = d'.script.unnumbered) :
    List.Forall₂ Turn.Twins (scripted k.perform cues s d).1 (scripted k.perform cues s' d').1 := by
  have answers (s : k.State) (d : Device) :=
    hk.played_answers (fun _ reason => reason) (cues.flatMap Cue.moves) s d
  rw [Device.worded_same] at answers
  rw [scripted_eq_played, scripted_eq_played]
  exact forall₂_beside (answers s d) (hd ▸ answers s' d') fun _ _ _ => Turn.Answers.twins

/-- On a scripted GL, what comes after a failed request is what would have come without it. -/
def ForgetsFailures (k : Keeper) : Prop :=
  ∀ s d listener request key e cues, k.wanted request = some key →
    let failed := (k.perform s listener request).run Device.answer d
    failed.1.1.failure = some e →
    let later := scripted k.perform cues failed.1.2 failed.2.2
    let without := scripted k.perform cues s d
    List.Forall₂ (Turn.Alike k.Reports) later.1 without.1 ∧ k.unnamed later.2 = k.unnamed without.2

theorem Lawful.forgetsFailures (hk : k.Lawful) : k.ForgetsFailures := by
  intro s d listener request key e cues hw failed hf later without
  have hplays := Action.plays_run Device.answer (k.perform s listener request) d
  have hatomic := hk.failsAtomically s listener request key _ _ e _ hw hplays hf
  have hscript := (hk.steady (w := fun _ reason => reason) s listener request [] d rfl).kept
  rw [Device.worded_same] at hscript
  exact hatomic.noTrace _ _ _ _ (hk.scripted_twins cues _ _ hscript)
    (course_scripted cues _ _) (course_scripted cues _ _)

/-- A look-up or a draw that fails leaves no trace in a cache or a renderer, whatever the GL
answers. A GL that answers by habit goes on as if the request had not been made, and a scripted GL
does. -/
theorem failures_are_atomic :
    (ofCache.FailsAtomically ∧ ofCache.ForgetsFailures) ∧
      ofRenderer.FailsAtomically ∧ ofRenderer.ForgetsFailures :=
  ⟨⟨ofCache_lawful.failsAtomically, ofCache_lawful.forgetsFailures⟩,
    ofRenderer_lawful.failsAtomically, ofRenderer_lawful.forgetsFailures⟩

theorem failures_are_atomic_refused_program :
    let key : Key := ⟨.rgba, true⟩
    let r : Renderer := ⟨(Cache.empty {}).insert ⟨⟨.solid, false⟩, ⟨7⟩, {}, ⟨1⟩⟩ rfl⟩
    let d : Device := { script := { refusePrograms := true } }
    let request : Renderer.Request := .draw (.ofKey key) ⟨5⟩
    let failed := (ofRenderer.perform r {} request).run Device.answer d
    let cues : List (Cue Renderer.Request) :=
      [{ change := { refusePrograms := some false }, request := .program key ⟨6⟩ }]
    let later := scripted ofRenderer.perform cues failed.1.2 failed.2.2
    let without := scripted ofRenderer.perform cues r d
    created failed.2.1 = [.shader ⟨1⟩, .shader ⟨2⟩] ∧
      deleted failed.2.1 = [.shader ⟨2⟩, .shader ⟨1⟩] ∧
      ofRenderer.Atomic r key failed.2.1 (.noProgram "out of objects") failed.1.2 ∧
      (ofRenderer.cache later.2).entries.map Entry.program = [⟨5⟩, ⟨7⟩] ∧
      (ofRenderer.cache without.2).entries.map Entry.program = [⟨3⟩, ⟨7⟩] ∧
      List.Forall₂ (Turn.Alike ofRenderer.Reports) later.1 without.1 ∧
      ofRenderer.unnamed later.2 = ofRenderer.unnamed without.2 := by
  intro key r d request failed cues later without
  obtain ⟨-, atomic, forgets⟩ := failures_are_atomic
  have hw : ofRenderer.wanted request = some key := rfl
  have hf : failed.1.1.failure = some (.noProgram "out of objects") := by decide
  have hplays := Action.plays_run_pair Device.answer (ofRenderer.perform r {} request) d
  have hatomic := atomic r {} request key _ _ (.noProgram "out of objects") _ hw hplays hf
  have hforgets := forgets r d {} request key (.noProgram "out of objects") cues hw hf
  exact ⟨by decide, by decide, hatomic, by decide, by decide, hforgets⟩

end Keeper

end GlPrograms
