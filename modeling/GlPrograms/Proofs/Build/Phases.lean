import GlPrograms.Proofs.Build.Exits
import GlPrograms.Proofs.Session.Scenes

namespace GlPrograms.Build

open GlPrograms.Action

/-- The objects of a build. Those that it does not come to may be any. -/
structure Objects where
  vertex : Shader := ⟨0⟩
  fragment : Shader := ⟨0⟩
  program : Program := ⟨0⟩

inductive Phase where
  | createVertex
  | compileVertex
  | createFragment
  | compileFragment
  | createProgram
  | attachVertex
  | attachFragment
  | bindPosition
  | bindTexcoord
  | link
deriving DecidableEq

namespace Phase

def all : List Phase :=
  [createVertex, compileVertex, createFragment, compileFragment, createProgram, attachVertex,
    attachFragment, bindPosition, bindTexcoord, link]

def earlier (phase : Phase) : List Phase := all.takeWhile (· ≠ phase)

/-- The call of a phase, if it succeeds. -/
def passed (key : Key) (o : Objects) : Phase → Event Gl
  | createVertex => .called (.createShader .vertex) (.ok o.vertex)
  | compileVertex => .called (.compileShader o.vertex Source.vertex) true
  | createFragment => .called (.createShader .fragment) (.ok o.fragment)
  | compileFragment => .called (.compileShader o.fragment (Source.fragment key)) true
  | createProgram => .called .createProgram (.ok o.program)
  | attachVertex => .called (.tell (.attachShader o.program o.vertex)) ()
  | attachFragment => .called (.tell (.attachShader o.program o.fragment)) ()
  | bindPosition => .called (.tell (.bindAttribute o.program 0 "position")) ()
  | bindTexcoord => .called (.tell (.bindAttribute o.program 1 "texcoord")) ()
  | link => .called (.linkProgram o.program) true

/-- How the object that a phase creates is deleted. -/
def deletion (o : Objects) : Phase → Option (Event Gl)
  | createVertex => some (.called (.tell (.deleteShader o.vertex)) ())
  | createFragment => some (.called (.tell (.deleteShader o.fragment)) ())
  | createProgram => some (.called (.tell (.deleteProgram o.program)) ())
  | _ => none

/-- How a phase can fail: its call, the call for the log of what was rejected, and the error. To
attach and to bind cannot fail. -/
inductive Fails (settings : Settings) (key : Key) (o : Objects) :
    Phase → List (Event Gl) → BuildError → Prop
  | createVertex (reason : String) :
      Fails settings key o createVertex [.called (.createShader .vertex) (.error reason)]
        (.allocation "shader object" reason)
  | compileVertex (text : String) :
      Fails settings key o compileVertex
        [.called (.compileShader o.vertex Source.vertex) false, .called (.shaderLog o.vertex) text]
        (.compile .vertex (Text.logExcerpt settings.logLimit text))
  | createFragment (reason : String) :
      Fails settings key o createFragment [.called (.createShader .fragment) (.error reason)]
        (.allocation "shader object" reason)
  | compileFragment (text : String) :
      Fails settings key o compileFragment
        [.called (.compileShader o.fragment (Source.fragment key)) false,
          .called (.shaderLog o.fragment) text]
        (.compile .fragment (Text.logExcerpt settings.logLimit text))
  | createProgram (reason : String) :
      Fails settings key o createProgram [.called .createProgram (.error reason)]
        (.allocation "program object" reason)
  | link (text : String) :
      Fails settings key o link
        [.called (.linkProgram o.program) false, .called (.programLog o.program) text]
        (.link (Text.logExcerpt settings.logLimit text))

end Phase

/-- The calls of a build in their order, and what comes of it. -/
inductive Goes (settings : Settings) (key : Key) : List (Event Gl) → Except BuildError Linked → Prop
  | through (o : Objects) (l : Locations) :
      Goes settings key
        (Phase.all.map (Phase.passed key o) ++
          [.called (.tell (.deleteShader o.fragment)) (),
            .called (.tell (.deleteShader o.vertex)) ()] ++
          located o.program l)
        (.ok ⟨o.program, l⟩)
  | stops (o : Objects) {phase : Phase} {failure : List (Event Gl)} {e : BuildError}
      (fails : phase.Fails settings key o failure e) :
      Goes settings key
        (phase.earlier.map (Phase.passed key o) ++ failure ++
          (phase.earlier.filterMap (Phase.deletion o)).reverse)
        (.error e)

section Exits

variable {α : Type} {settings : Settings} {key : Key} {stage : Stage} {parts : List String}
  {events : List (Event Gl)}

theorem rejectShader_plays (s : Shader) (text : String) :
    (rejectShader (α := α) settings stage parts s).Plays
      (.called (.shaderLog s) text ::
        complaint settings stage parts (Text.logExcerpt settings.logLimit text))
      (.error (.compile stage (Text.logExcerpt settings.logLimit text))) := by
  rw [rejectShader_steps, plays_called, complaint, plays_logged]
  cases settings.dumpRejected with
  | false => exact .done _
  | true => exact plays_logged.2 (.done _)

theorem plays_deleting (s : Shader) {action : Action Gl (Except BuildError α)}
    {result : Except BuildError α} (h : action.Plays events result) :
    (action >>= fun result => .call (.tell (.deleteShader s)) fun _ => .done result).Plays
      (events ++ [.called (.tell (.deleteShader s)) ()]) result :=
  plays_bind.2 ⟨result, events, _, rfl, h, plays_called.2 (.done _)⟩

theorem StageExit.plays {use : Shader → Action Gl (Except BuildError α)}
    {result : Except BuildError α}
    (h : StageExit settings stage parts (fun s => (use s).Plays) events result) :
    (withShader settings stage parts use).Plays events result := by
  rw [withShader_steps]
  cases h with
  | refused reason =>
    rw [plays_called]
    exact .done _
  | rejected s text =>
    simp only [List.cons_append, plays_called]
    exact plays_deleting s (rejectShader_plays s text)
  | accepted s used =>
    simp only [List.cons_append, plays_called]
    exact plays_deleting s used

theorem LinkExit.plays {vertex fragment : Shader} {result : Except BuildError Program}
    (h : LinkExit settings vertex fragment events result) :
    (link settings vertex fragment).Plays events result := by
  rw [link_steps]
  cases h with
  | refused reason =>
    rw [plays_called]
    exact .done _
  | rejected p text =>
    simp only [wired, List.cons_append, List.nil_append, plays_called, Bool.false_eq_true, if_false,
      rejectProgram_steps, plays_logged]
    exact .done _
  | linked p =>
    simp only [wired, List.cons_append, List.nil_append, plays_called, if_true]
    exact .done _

theorem assemble_plays_iff {result : Except BuildError Program} :
    (assemble settings (Source.fragmentParts key)).Plays events result ↔
      StageExit settings .vertex Source.vertexParts (fun vertex =>
        StageExit settings .fragment (Source.fragmentParts key) (LinkExit settings vertex))
        events result := by
  constructor
  · exact assemble_exit
  · intro h
    apply StageExit.plays
    refine h.mono fun vertex inner result h => ?_
    apply StageExit.plays
    exact h.mono fun fragment inner result h => h.plays

theorem locate_plays (p : Program) (l : Locations) : (locate p).Plays (located p l) l := by
  obtain ⟨projection, samplers, alpha, color⟩ := l
  have hs : #v[samplers[0], samplers[1], samplers[2]] = samplers := by
    ext i hi
    obtain rfl | rfl | rfl : i = 0 ∨ i = 1 ∨ i = 2 := by omega
    · rfl
    · rfl
    · rfl
  simp only [locate_steps, located, plays_called, hs]
  exact .done _

theorem BuildExit.plays {result : Except BuildError Linked}
    (h : BuildExit settings key events result) : (build settings key).Plays events result := by
  rw [build_steps]
  cases h with
  | failed assembled =>
    refine plays_logged.2 (plays_bind.2 ?_)
    exact ⟨_, _, [], (List.append_nil _).symm, assembled, .done _⟩
  | @built rest p l assembled =>
    refine plays_logged.2 (plays_bind.2 ?_)
    exact ⟨.ok p, rest, located p l, rfl, assembled, plays_bind_pure.2 ⟨l, locate_plays p l, rfl⟩⟩

theorem calls_complaint (settings : Settings) (stage : Stage) (parts : List String) (log : String) :
    calls (complaint settings stage parts log) = [] := by
  unfold complaint
  cases settings.dumpRejected with
  | false => rfl
  | true => rfl

theorem goes_of_plays {result : Except BuildError Linked}
    (h : (build settings key).Plays events result) : Goes settings key (calls events) result := by
  have cut {phase : Phase} {failure : List (Event Gl)} {e : BuildError} (o : Objects)
      (fails : phase.Fails settings key o failure e)
      (he : calls events = phase.earlier.map (Phase.passed key o) ++ failure ++
        (phase.earlier.filterMap (Phase.deletion o)).reverse) :
      Goes settings key (calls events) (.error e) := he ▸ .stops o fails
  cases build_exit h with
  | failed ha =>
    obtain reason | ⟨vertex, text⟩ | ⟨vertex, h⟩ := assemble_exit ha
    · exact cut {} (.createVertex reason) rfl
    · apply cut { vertex } (.compileVertex text)
      simp only [calls_logged, calls_called, calls_append, calls_complaint, List.cons_append]
      rfl
    · obtain reason | ⟨fragment, text⟩ | ⟨fragment, h⟩ := h
      · exact cut { vertex } (.createFragment reason) rfl
      · apply cut { vertex, fragment } (.compileFragment text)
        simp only [calls_logged, calls_called, calls_append, calls_complaint, List.cons_append]
        rfl
      · obtain reason | ⟨program, text⟩ | _ := h
        · exact cut { vertex, fragment } (.createProgram reason) rfl
        · exact cut { vertex, fragment, program } (.link text) rfl
  | @built _ program l ha =>
    obtain _ | _ | ⟨vertex, h⟩ := assemble_exit ha
    obtain _ | _ | ⟨fragment, h⟩ := h
    obtain _ | _ | _ := h
    exact Goes.through { vertex, fragment, program } l

theorem Phase.Fails.plays {phase : Phase} {o : Objects} {failure : List (Event Gl)} {e : BuildError}
    (h : phase.Fails settings key o failure e) :
    ∃ events, (assemble settings (Source.fragmentParts key)).Plays events (.error e) ∧
      calls events = phase.earlier.map (Phase.passed key o) ++ failure ++
        (phase.earlier.filterMap (Phase.deletion o)).reverse := by
  cases h with
  | createVertex reason => exact ⟨_, assemble_plays_iff.2 (.refused reason), rfl⟩
  | compileVertex text =>
    refine ⟨_, assemble_plays_iff.2 (.rejected o.vertex text), ?_⟩
    simp only [calls_called, calls_append, calls_complaint, List.cons_append]
    rfl
  | createFragment reason =>
    exact ⟨_, assemble_plays_iff.2 (.accepted o.vertex (.refused reason)), rfl⟩
  | compileFragment text =>
    refine ⟨_, assemble_plays_iff.2 (.accepted o.vertex (.rejected o.fragment text)), ?_⟩
    simp only [calls_called, calls_append, calls_complaint, List.cons_append]
    rfl
  | createProgram reason =>
    exact ⟨_, assemble_plays_iff.2 (.accepted o.vertex (.accepted o.fragment (.refused reason))),
      rfl⟩
  | link text =>
    exact ⟨_, assemble_plays_iff.2
      (.accepted o.vertex (.accepted o.fragment (.rejected o.program text))), rfl⟩

theorem Goes.plays {cs : List (Event Gl)} {result : Except BuildError Linked}
    (h : Goes settings key cs result) :
    ∃ events, (build settings key).Plays events result ∧ calls events = cs := by
  cases h with
  | through o l =>
    have assembled : (assemble settings (Source.fragmentParts key)).Plays _ (.ok o.program) :=
      assemble_plays_iff.2 (.accepted o.vertex (.accepted o.fragment (.linked o.program)))
    exact ⟨_, BuildExit.plays (.built l assembled), rfl⟩
  | stops o fails =>
    obtain ⟨events, assembled, hcalls⟩ := fails.plays
    exact ⟨_, BuildExit.plays (.failed assembled), hcalls⟩

end Exits

/-- The calls of a build beside a cache are those of its phases, up to the first that fails, and
every such course is possible. Nothing of the cache changes. -/
theorem build_goes_by_phases (c c' : Cache) (listener : Listener) (key : Key) (now : Instant)
    (cs : List (Event Gl)) (reply : Reply) :
    (∃ events, (Session.CacheJob.perform listener (.build key now) c).Plays events (reply, c') ∧
        calls events = cs) ↔
      c' = c ∧ ∃ result, Goes c.settings key cs result ∧
        reply =
          .program (result.map fun linked => ⟨key, linked.program, linked.locations, now⟩) := by
  have job : Session.CacheJob.perform listener (.build key now) c =
      Build.build c.settings key >>= fun result =>
        pure (.program (result.map fun linked => ⟨key, linked.program, linked.locations, now⟩),
          c) := by
    simp only [Session.CacheJob.perform, Session.CacheJob.buildBeside, bind_assoc]
    congr 1
    funext result
    cases result with
    | error e => rfl
    | ok linked => rfl
  simp only [job, plays_bind_pure, Prod.mk.injEq]
  constructor
  · rintro ⟨events, ⟨result, h, hreply, hc⟩, rfl⟩
    exact ⟨hc, result, goes_of_plays h, hreply⟩
  · rintro ⟨hc, result, h, hreply⟩
    obtain ⟨events, he, hcalls⟩ := h.plays
    exact ⟨events, ⟨result, he, hreply, hc⟩, hcalls⟩

end GlPrograms.Build
