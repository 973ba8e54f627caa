import GlPrograms.Build

namespace GlPrograms.Build

open GlPrograms.Action

variable {α : Type} {settings : Settings} {stage : Stage} {parts : List String}

theorem rejectShader_steps (s : Shader) :
    rejectShader (α := α) settings stage parts s =
      .call (.shaderLog s) fun text =>
        .log ⟨.error, settings.scopeName,
            stage.text ++ " shader info: " ++ Text.logExcerpt settings.logLimit text⟩ <|
          if settings.dumpRejected then
            .log ⟨.error, settings.scopeName, "shader source:\n" ++ Text.numbered parts⟩ <|
              .done (.error (.compile stage (Text.logExcerpt settings.logLimit text)))
          else .done (.error (.compile stage (Text.logExcerpt settings.logLimit text))) := by
  simp only [rejectShader, Gl.shaderLog_bind, Settings.say_bind]
  cases settings.dumpRejected with
  | false => rfl
  | true => rfl

theorem withShader_steps (use : Shader → Action Gl (Except BuildError α)) :
    withShader settings stage parts use =
      .call (.createShader stage) fun
        | .error reason => .done (.error (.noShader reason))
        | .ok s =>
            .call (.compileShader s (String.join parts)) fun accepted =>
              (if accepted then use s else rejectShader settings stage parts s) >>= fun result =>
                .call (.tell (.deleteShader s)) fun _ => .done result := by
  simp only [withShader, Gl.createShader_bind]
  congr 1
  funext made
  cases made with
  | error reason => rfl
  | ok s =>
    simp only [Gl.compileShader_bind]
    congr 1
    funext accepted
    cases accepted with
    | false => rfl
    | true => rfl

theorem rejectProgram_steps (p : Program) :
    rejectProgram settings p =
      .call (.programLog p) fun text =>
        .log ⟨.error, settings.scopeName,
            "link info: " ++ Text.logExcerpt settings.logLimit text⟩ <|
          .call (.tell (.deleteProgram p)) fun _ =>
            .done (.error (.link (Text.logExcerpt settings.logLimit text))) := rfl

theorem link_steps (vertex fragment : Shader) :
    link settings vertex fragment =
      .call .createProgram fun
        | .error reason => .done (.error (.noProgram reason))
        | .ok p =>
            .call (.tell (.attachShader p vertex)) fun _ =>
              .call (.tell (.attachShader p fragment)) fun _ =>
                .call (.tell (.bindAttribute p 0 "position")) fun _ =>
                  .call (.tell (.bindAttribute p 1 "texcoord")) fun _ =>
                    .call (.linkProgram p) fun accepted =>
                      if accepted then .done (.ok p) else rejectProgram settings p := rfl

theorem locate_steps (p : Program) :
    locate p =
      .call (.uniformLocation p "proj") fun projection =>
        .call (.uniformLocation p "tex") fun first =>
          .call (.uniformLocation p "tex1") fun second =>
            .call (.uniformLocation p "tex2") fun third =>
              .call (.uniformLocation p "alpha") fun alpha =>
                .call (.uniformLocation p "unicolor") fun color =>
                  .done ⟨projection, #v[first, second, third], alpha, color⟩ := rfl

theorem build_steps (settings : Settings) (key : Key) :
    build settings key =
      .log ⟨.debug, settings.scopeName, "Compiling shader program for: " ++ key.description⟩
        (assemble settings (Source.fragmentParts key) >>= fun
          | .error e => .done (.error e)
          | .ok p => locate p >>= fun l => .done (.ok ⟨p, l⟩)) := rfl

end GlPrograms.Build
