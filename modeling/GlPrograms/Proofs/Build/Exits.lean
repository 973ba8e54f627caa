import GlPrograms.Action.Run
import GlPrograms.Proofs.Build.Steps

namespace GlPrograms

namespace Source

/-- The lines before the body of the fragment source, as they are to be written for a key. -/
def heading : Key → String
  | ⟨source, tinted⟩ =>
      "#version 100\n"
        ++ "#define DEF_GREEN_TINT "
        ++ (match tinted with | true => "true" | false => "false") ++ "\n"
        ++ "#define DEF_VARIANT " ++
          (match source with
            | .noTexture => "SHADER_VARIANT_NONE"
            | .rgbx => "SHADER_VARIANT_RGBX"
            | .rgba => "SHADER_VARIANT_RGBA"
            | .yuvThreePlanes => "SHADER_VARIANT_Y_U_V"
            | .yuvTwoPlanes => "SHADER_VARIANT_Y_UV"
            | .yuyvPacked => "SHADER_VARIANT_Y_XUXV"
            | .xyuvPacked => "SHADER_VARIANT_XYUV"
            | .solid => "SHADER_VARIANT_SOLID"
            | .external => "SHADER_VARIANT_EXTERNAL") ++ "\n"

theorem configuration_spelled (k : Key) : versionPragma ++ configuration k = heading k := by
  rcases k with ⟨source, tinted⟩
  cases source <;> cases tinted <;> decide +kernel

theorem heading_injective {j k : Key} (h : heading j = heading k) : j = k := by
  have separate : ∀ j ∈ Key.all, ∀ k ∈ Key.all, heading j = heading k → j = k := by
    decide +kernel
  exact separate j (Key.mem_all j) k (Key.mem_all k) h

theorem join_fragmentParts (k : Key) :
    String.join (fragmentParts k) = heading k ++ fragmentTemplate := by
  rw [← configuration_spelled]
  simp [fragmentParts, String.join]

end Source

namespace Build

open GlPrograms.Action

variable {α : Type} {settings : Settings} {stage : Stage} {parts : List String}

def complaint (settings : Settings) (stage : Stage) (parts : List String) (log : String) :
    List (Event Gl) :=
  .logged ⟨.error, settings.scopeName, stage.text ++ " shader info: " ++ log⟩ ::
    if settings.dumpRejected then
      [.logged ⟨.error, settings.scopeName, "shader source:\n" ++ Text.numbered parts⟩]
    else []

theorem reject_shader_exit {s : Shader} {events : List (Event Gl)} {result : Except BuildError α}
    (h : (rejectShader settings stage parts s).Plays events result) :
    ∃ text, events = .called (.shaderLog s) text ::
        complaint settings stage parts (Text.logExcerpt settings.logLimit text) ∧
      result = .error (.compile stage (Text.logExcerpt settings.logLimit text)) := by
  rw [rejectShader_steps] at h
  obtain _ | ⟨text, h⟩ := h
  obtain _ | _ | h := h
  refine ⟨text, ?_⟩
  cases hd : settings.dumpRejected with
  | false =>
    rw [hd] at h
    obtain ⟨⟩ := h
    simp [complaint, hd]
  | true =>
    rw [hd] at h
    obtain _ | _ | h := h
    obtain ⟨⟩ := h
    simp [complaint, hd]

/-- The ends of a bracket around a shader. The shader is deleted last, also when it was rejected. -/
inductive StageExit (settings : Settings) (stage : Stage) (parts : List String)
    (use : Shader → List (Event Gl) → Except BuildError α → Prop) :
    List (Event Gl) → Except BuildError α → Prop
  | refused (reason : String) :
      StageExit settings stage parts use [.called (.createShader stage) (.error reason)]
        (.error (.noShader reason))
  | rejected (s : Shader) (text : String) :
      StageExit settings stage parts use
        (.called (.createShader stage) (.ok s) ::
          .called (.compileShader s (String.join parts)) false ::
          .called (.shaderLog s) text ::
          complaint settings stage parts (Text.logExcerpt settings.logLimit text) ++
          [.called (.tell (.deleteShader s)) ()])
        (.error (.compile stage (Text.logExcerpt settings.logLimit text)))
  | accepted (s : Shader) {inner : List (Event Gl)} {result : Except BuildError α}
      (used : use s inner result) :
      StageExit settings stage parts use
        (.called (.createShader stage) (.ok s) ::
          .called (.compileShader s (String.join parts)) true ::
          inner ++ [.called (.tell (.deleteShader s)) ()])
        result

theorem StageExit.mono {use use' : Shader → List (Event Gl) → Except BuildError α → Prop}
    {events : List (Event Gl)} {result : Except BuildError α}
    (h : StageExit settings stage parts use events result)
    (hu : ∀ s inner result, use s inner result → use' s inner result) :
    StageExit settings stage parts use' events result := by
  cases h with
  | refused reason => exact .refused reason
  | rejected s text => exact .rejected s text
  | accepted s used => exact .accepted s (hu _ _ _ used)

theorem with_shader_exit {use : Shader → Action Gl (Except BuildError α)} {events : List (Event Gl)}
    {result : Except BuildError α} (h : (withShader settings stage parts use).Plays events result) :
    StageExit settings stage parts (fun s => (use s).Plays) events result := by
  rw [withShader_steps] at h
  obtain _ | ⟨made, h⟩ := h
  cases made with
  | error reason =>
    obtain ⟨⟩ := h
    exact .refused reason
  | ok s =>
    obtain _ | ⟨accepted, h⟩ := h
    cases accepted with
    | false =>
      obtain ⟨result, inner, rest, rfl, hi, h⟩ := plays_bind.1 h
      obtain _ | ⟨⟨⟩, h⟩ := h
      obtain ⟨⟩ := h
      obtain ⟨text, rfl, rfl⟩ := reject_shader_exit hi
      exact .rejected s text
    | true =>
      obtain ⟨result, inner, rest, rfl, hi, h⟩ := plays_bind.1 h
      obtain _ | ⟨⟨⟩, h⟩ := h
      obtain ⟨⟩ := h
      exact .accepted s hi

def wired (vertex fragment : Shader) (p : Program) : List (Event Gl) :=
  [.called .createProgram (.ok p),
    .called (.tell (.attachShader p vertex)) (),
    .called (.tell (.attachShader p fragment)) (),
    .called (.tell (.bindAttribute p 0 "position")) (),
    .called (.tell (.bindAttribute p 1 "texcoord")) ()]

inductive LinkExit (settings : Settings) (vertex fragment : Shader) :
    List (Event Gl) → Except BuildError Program → Prop
  | refused (reason : String) :
      LinkExit settings vertex fragment [.called .createProgram (.error reason)]
        (.error (.noProgram reason))
  | rejected (p : Program) (text : String) :
      LinkExit settings vertex fragment
        (wired vertex fragment p ++
          [.called (.linkProgram p) false, .called (.programLog p) text,
            .logged ⟨.error, settings.scopeName,
              "link info: " ++ Text.logExcerpt settings.logLimit text⟩,
            .called (.tell (.deleteProgram p)) ()])
        (.error (.link (Text.logExcerpt settings.logLimit text)))
  | linked (p : Program) :
      LinkExit settings vertex fragment
        (wired vertex fragment p ++ [.called (.linkProgram p) true]) (.ok p)

theorem link_exit {vertex fragment : Shader} {events : List (Event Gl)}
    {result : Except BuildError Program} (h : (link settings vertex fragment).Plays events result) :
    LinkExit settings vertex fragment events result := by
  rw [link_steps] at h
  obtain _ | ⟨made, h⟩ := h
  cases made with
  | error reason =>
    obtain ⟨⟩ := h
    exact .refused reason
  | ok p =>
    obtain _ | ⟨⟨⟩, h⟩ := h
    obtain _ | ⟨⟨⟩, h⟩ := h
    obtain _ | ⟨⟨⟩, h⟩ := h
    obtain _ | ⟨⟨⟩, h⟩ := h
    obtain _ | ⟨accepted, h⟩ := h
    cases accepted with
    | true =>
      obtain ⟨⟩ := h
      exact .linked p
    | false =>
      simp only [Bool.false_eq_true, if_false, rejectProgram_steps] at h
      obtain _ | ⟨text, h⟩ := h
      obtain _ | _ | h := h
      obtain _ | ⟨⟨⟩, h⟩ := h
      obtain ⟨⟩ := h
      exact .rejected p text

def located (p : Program) (l : Locations) : List (Event Gl) :=
  [.called (.uniformLocation p "proj") l.projection,
    .called (.uniformLocation p "tex") l.samplers[0],
    .called (.uniformLocation p "tex1") l.samplers[1],
    .called (.uniformLocation p "tex2") l.samplers[2],
    .called (.uniformLocation p "alpha") l.alpha,
    .called (.uniformLocation p "unicolor") l.color]

theorem locate_exit {p : Program} {events : List (Event Gl)} {l : Locations}
    (h : (locate p).Plays events l) : events = located p l := by
  rw [locate_steps] at h
  obtain _ | ⟨projection, h⟩ := h
  obtain _ | ⟨first, h⟩ := h
  obtain _ | ⟨second, h⟩ := h
  obtain _ | ⟨third, h⟩ := h
  obtain _ | ⟨alpha, h⟩ := h
  obtain _ | ⟨color, h⟩ := h
  obtain ⟨⟩ := h
  rfl

theorem assemble_exit {key : Key} {events : List (Event Gl)} {result : Except BuildError Program}
    (h : (assemble settings (Source.fragmentParts key)).Plays events result) :
    StageExit settings .vertex Source.vertexParts (fun vertex =>
      StageExit settings .fragment (Source.fragmentParts key) (LinkExit settings vertex))
      events result := by
  refine (with_shader_exit h).mono fun vertex inner result h => ?_
  exact (with_shader_exit h).mono fun fragment inner result h => link_exit h

def announcement (settings : Settings) (key : Key) : Record :=
  ⟨.debug, settings.scopeName, "Compiling shader program for: " ++ key.description⟩

inductive BuildExit (settings : Settings) (key : Key) :
    List (Event Gl) → Except BuildError Linked → Prop
  | failed {rest : List (Event Gl)} {e : BuildError}
      (assembled : (assemble settings (Source.fragmentParts key)).Plays rest (.error e)) :
      BuildExit settings key (.logged (announcement settings key) :: rest) (.error e)
  | built {rest : List (Event Gl)} {p : Program} (l : Locations)
      (assembled : (assemble settings (Source.fragmentParts key)).Plays rest (.ok p)) :
      BuildExit settings key (.logged (announcement settings key) :: rest ++ located p l)
        (.ok ⟨p, l⟩)

theorem build_exit {key : Key} {events : List (Event Gl)} {result : Except BuildError Linked}
    (h : (build settings key).Plays events result) : BuildExit settings key events result := by
  rw [build_steps] at h
  obtain _ | _ | h := h
  obtain ⟨assembled, first, rest, rfl, ha, h⟩ := plays_bind.1 h
  cases assembled with
  | error e =>
    obtain ⟨⟩ := h
    rw [List.append_nil]
    exact .failed ha
  | ok p =>
    obtain ⟨l, hl, ⟨⟩⟩ := plays_bind_pure.1 h
    rw [locate_exit hl]
    exact .built l ha

/-- All that happens in a build that succeeds. -/
def completed (settings : Settings) (key : Key) (vertex fragment : Shader) (linked : Linked) :
    List (Event Gl) :=
  [.logged (announcement settings key),
    .called (.createShader .vertex) (.ok vertex),
    .called (.compileShader vertex Source.vertexTemplate) true,
    .called (.createShader .fragment) (.ok fragment),
    .called (.compileShader fragment (Source.heading key ++ Source.fragmentTemplate)) true] ++
  wired vertex fragment linked.program ++
  [.called (.linkProgram linked.program) true,
    .called (.tell (.deleteShader fragment)) (),
    .called (.tell (.deleteShader vertex)) ()] ++
  located linked.program linked.locations

theorem events_of_build {key : Key} {events : List (Event Gl)} {linked : Linked}
    (h : (build settings key).Plays events (.ok linked)) :
    ∃ vertex fragment, events = completed settings key vertex fragment linked := by
  obtain _ | ⟨l, ha⟩ := build_exit h
  obtain _ | _ | ⟨vertex, hv⟩ := assemble_exit ha
  obtain _ | _ | ⟨fragment, hf⟩ := hv
  obtain _ | _ | ⟨p⟩ := hf
  refine ⟨vertex, fragment, ?_⟩
  rw [Source.join_fragmentParts]
  simp [completed, Source.vertexParts, String.join]

end Build

end GlPrograms
