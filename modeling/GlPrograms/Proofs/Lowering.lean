import GlPrograms.Proofs.Bonds
import GlPrograms.Proofs.Glow

namespace GlPrograms

open Gl (Object)

def Gl.Object.name : Gl.Object → UInt32
  | .shader s => s.name
  | .program p => p.name

/-- No object that is created here is named zero. -/
def Nonzero (events : List (Event Gl)) : Prop := ∀ o ∈ created events, o.name ≠ 0

instance (events : List (Event Gl)) : Decidable (Nonzero events) :=
  inferInstanceAs (Decidable (∀ o ∈ created events, o.name ≠ 0))

theorem nonzero_cons {e : Event Gl} {events : List (Event Gl)} :
    Nonzero (e :: events) ↔ (∀ o, e.created = some o → o.name ≠ 0) ∧ Nonzero events := by
  unfold Nonzero created
  cases he : e.created <;> simp [he]

theorem Vantage.created_nonzero (c : Gl.Call) (d : Device) {o : Object}
    (h : Event.created (.called c (entryPoints.reply c d).1) = some o) : o.name ≠ 0 := by
  cases c with
  | createShader stage =>
    rw [reply, run_createShader] at h
    dsimp only at h
    split_ifs at h with hn
    · cases h
    · cases h
      exact hn
  | createProgram =>
    rw [reply, run_createProgram] at h
    dsimp only at h
    split_ifs at h with hn
    · cases h
    · cases h
      exact hn
  | compileShader | shaderLog | linkProgram | programLog | programId | uniformLocation | tell =>
    cases h

theorem Platform.Documented.nonzero_run {p : Platform} (h : p.Documented) {α : Type}
    (action : Action Gl α) (d : Device) :
    Nonzero (action.run (Vantage.beneath p).reply d).2.1 := by
  rw [h.reply_eq]
  induction action generalizing d with
  | done a => simp [Nonzero, created, Action.run]
  | call c next ih =>
    exact nonzero_cons.2 ⟨fun o ho => Vantage.created_nonzero c d ho, ih _ _⟩
  | log r next ih => exact nonzero_cons.2 ⟨fun o ho => (by cases ho), ih d⟩

namespace Word

def object? : Word → Option Object
  | shader s => some (.shader s)
  | program p => some (.program p)
  | number _ | location _ | text _ | singles _ => none

def rename (f : UInt32 → UInt32) : Word → Word
  | shader s => shader ⟨f s.name⟩
  | program p => program ⟨f p.name⟩
  | w => w

end Word

namespace Gl.Object

def word : Object → Word
  | shader s => .shader s
  | program p => .program p

@[simp] theorem object?_word (o : Object) : o.word.object? = some o := by
  cases o <;> rfl

theorem rename_word (o : Object) {f g : UInt32 → UInt32} (h : f o.name = g o.name) :
    o.word.rename f = o.word.rename g := by
  cases o with
  | shader s => exact congrArg (fun name => Word.shader ⟨name⟩) h
  | program p => exact congrArg (fun name => Word.program ⟨name⟩) h

end Gl.Object

def deletesObject (function : String) : Bool :=
  function = "DeleteShader" || function = "DeleteProgram"

/-- An object can stand for any other of its kind. The zero of a refusal stands for none. -/
def Naming.raw : Naming Raw where
  unnamed
    | .called c answer =>
        .called (⟨c.function, c.arguments.map (Word.rename fun _ => 0)⟩ : RawCall)
          ((answer : List Word).map (Word.rename fun name => if name = 0 then 0 else 1))
    | .logged r => .logged r
  named
    | .called c _ => c.arguments.filterMap Word.object?
    | .logged _ => []
  created
    | .called _ answer => ((answer : List Word).filterMap Word.object?).find? (·.name ≠ 0)
    | .logged _ => none
  deleted
    | .called c _ =>
        if deletesObject c.function then (c.arguments.filterMap Word.object?).head? else none
    | .logged _ => none

namespace Renamed

variable {ρ ρ' : Bonds}

theorem quiet_cons {I : Interface} {n : Naming I} {e e' : Event I} {events events' : List (Event I)}
    (same : n.unnamed e = n.unnamed e') (named : Bonds.Bound ρ (n.named e) (n.named e'))
    (hc : n.created e = none) (hd : n.deleted e = none) (later : Renamed n ρ events events' ρ') :
    Renamed n ρ (e :: events) (e' :: events') ρ' :=
  .cons same named (by rwa [Naming.after_quiet hc hd])

section Raw

variable {function : String} {arguments arguments' answer : List Word}
  {events events' : List (Event Raw)}

theorem raw_quiet_cons
    (same : arguments.map (Word.rename fun _ => 0) = arguments'.map (Word.rename fun _ => 0))
    (named : Bonds.Bound ρ (arguments.filterMap Word.object?) (arguments'.filterMap Word.object?))
    (hc : (answer.filterMap Word.object?).find? (·.name ≠ 0) = none)
    (hd : deletesObject function = false)
    (later : Renamed .raw ρ events events' ρ') :
    Renamed .raw ρ (.called ⟨function, arguments⟩ answer :: events)
      (.called ⟨function, arguments'⟩ answer :: events') ρ' := by
  refine quiet_cons ?_ named hc (if_neg (Bool.eq_false_iff.1 hd)) later
  rw [Naming.raw]
  dsimp only
  rw [same]

theorem raw_quiet
    (same : arguments.map (Word.rename fun _ => 0) = arguments'.map (Word.rename fun _ => 0))
    (named : Bonds.Bound ρ (arguments.filterMap Word.object?) (arguments'.filterMap Word.object?))
    (hc : (answer.filterMap Word.object?).find? (·.name ≠ 0) = none)
    (hd : deletesObject function = false) :
    Renamed .raw ρ [.called ⟨function, arguments⟩ answer]
      [.called ⟨function, arguments'⟩ answer] ρ :=
  raw_quiet_cons same named hc hd .nil

theorem raw_created {o o' : Object} (hf : deletesObject function = false)
    (ha : arguments.filterMap Word.object? = []) (ho : o.name ≠ 0) (ho' : o'.name ≠ 0)
    (same : o.word.rename (fun _ => 1) = o'.word.rename fun _ => 1) :
    Renamed .raw ρ [.called ⟨function, arguments⟩ [o.word]]
      [.called ⟨function, arguments⟩ [o'.word]] ((o, o') :: ρ) := by
  have told (o : Object) (ho : o.name ≠ 0) :
      o.word.rename (fun name => if name = 0 then 0 else 1) = o.word.rename fun _ => 1 :=
    o.rename_word (if_neg ho)
  have after : Naming.raw.after ρ (.called ⟨function, arguments⟩ [o.word])
      (.called ⟨function, arguments⟩ [o'.word]) = (o, o') :: ρ := by
    simp [Naming.after, Naming.raw, hf, ho, ho']
  refine .cons ?_ ?_ (after ▸ .nil)
  · simp [Naming.raw, told o ho, told o' ho', same]
  · simp [Naming.raw, ha]

theorem raw_deleted {o o' : Object} (hf : deletesObject function)
    (same : o.word.rename (fun _ => 0) = o'.word.rename fun _ => 0) (bound : (o, o') ∈ ρ) :
    Renamed .raw ρ [.called ⟨function, [o.word]⟩ []] [.called ⟨function, [o'.word]⟩ []]
      (ρ.diff [(o, o')]) := by
  have after : Naming.raw.after ρ (.called ⟨function, [o.word]⟩ [])
      (.called ⟨function, [o'.word]⟩ []) = ρ.diff [(o, o')] := by
    simp [Naming.after, Naming.raw, hf]
  refine .cons ?_ ?_ (after ▸ .nil)
  · simp [Naming.raw, same]
  · simpa [Naming.raw] using bound

theorem raw_log {o o' : Object} {query fetch log : String} (hq : deletesObject query = false)
    (hf : deletesObject fetch = false)
    (same : o.word.rename (fun _ => 0) = o'.word.rename fun _ => 0) (bound : (o, o') ∈ ρ) :
    let told (o : Object) : List (Event Raw) :=
      if log = "" then [.called ⟨query, [o.word, .number 35716]⟩ [.number 0]]
      else
        [.called ⟨query, [o.word, .number 35716]⟩ [.number (log.utf8ByteSize + 1)],
          .called ⟨fetch, [o.word, .number (log.utf8ByteSize + 1)]⟩
            [.number log.utf8ByteSize, .text log]]
    Renamed .raw ρ (told o) (told o') ρ := by
  intro told
  have words (n : Nat) : [o.word, .number n].map (Word.rename fun _ => 0) =
      [o'.word, .number n].map (Word.rename fun _ => 0) := congrArg (· :: [_]) same
  have named (n : Nat) : Bonds.Bound ρ ([o.word, .number n].filterMap Word.object?)
      ([o'.word, .number n].filterMap Word.object?) := by
    rw [List.filterMap_cons_some o.object?_word, List.filterMap_cons_some o'.object?_word]
    exact .cons bound .nil
  dsimp only [told]
  split
  · exact raw_quiet (words 35716) (named 35716) rfl hq
  · exact raw_quiet_cons (words 35716) (named 35716) rfl hq
      (raw_quiet (words _) (named _) rfl hf)

end Raw

theorem lowered_tell {c c' : Gl.Command} {answer answer' : Unit} (location : String → Location)
    (same : c.unnamed = c'.unnamed) (named : Bonds.Bound ρ c.named c'.named) :
    Renamed .raw ρ (Event.lowered location (.called (.tell c) answer))
      (Event.lowered location (.called (.tell c') answer'))
      (Naming.calls.after ρ (.called (.tell c) answer) (.called (.tell c') answer')) := by
  cases c with
  | deleteShader s =>
    cases c' <;> cases same
    obtain _ | ⟨bound, -⟩ := named
    exact @raw_deleted ρ "DeleteShader" (.shader s) (.shader _) rfl rfl bound
  | deleteProgram p =>
    cases c' <;> cases same
    obtain _ | ⟨bound, -⟩ := named
    exact @raw_deleted ρ "DeleteProgram" (.program p) (.program _) rfl rfl bound
  | attachShader | bindAttribute | useProgram | setMatrix | setSampler | setFloat | setVector =>
    cases c' <;> cases same
    exact raw_quiet rfl named rfl rfl

theorem lowered_call (location : String → Location) {c c' : Gl.Call} {answer : Gl.Answer c}
    {answer' : Gl.Answer c'}
    (same : Event.unnamed (.called c answer) = .unnamed (.called c' answer'))
    (named : Bonds.Bound ρ c.named c'.named)
    (hn : ∀ o, Event.created (.called c answer) = some o → o.name ≠ 0)
    (hn' : ∀ o, Event.created (.called c' answer') = some o → o.name ≠ 0) :
    Renamed .raw ρ (Event.lowered location (.called c answer))
      (Event.lowered location (.called c' answer'))
      (Naming.calls.after ρ (.called c answer) (.called c' answer')) := by
  cases c with
  | createShader stage =>
    cases c' with
    | createShader stage' =>
      obtain rfl : stage = stage' := Gl.Call.createShader.inj (Event.called.inj same).1
      have shown (made : Except String Shader) :
          Event.lowered location (.called (.createShader stage) made) =
            [.called ⟨"CreateShader", [.number stage.code]⟩
              [.shader ⟨made.toOption.elim 0 Shader.name⟩]] := by
        cases stage <;> rfl
      rw [shown, shown]
      rcases both_fail_or_succeed (Event.unnamedAnswer_eq same) with
        ⟨reason, rfl, rfl⟩ | ⟨s, s', rfl, rfl, -⟩
      · exact raw_quiet rfl .nil rfl rfl
      · exact @raw_created ρ _ _ (.shader s) (.shader s') rfl rfl (hn _ rfl) (hn' _ rfl) rfl
    | _ => cases same
  | compileShader s source =>
    cases c' <;> cases same
    exact raw_quiet_cons rfl named rfl rfl (raw_quiet_cons rfl named rfl rfl
      (raw_quiet rfl named rfl rfl))
  | shaderLog s =>
    cases c' <;> cases same
    obtain _ | ⟨bound, -⟩ := named
    exact @raw_log ρ (.shader s) (.shader _) _ _ _ rfl rfl rfl bound
  | createProgram =>
    cases c' with
    | createProgram =>
      rcases both_fail_or_succeed (Event.unnamedAnswer_eq same) with
        ⟨reason, rfl, rfl⟩ | ⟨p, p', rfl, rfl, -⟩
      · exact raw_quiet rfl .nil rfl rfl
      · exact @raw_created ρ _ _ (.program p) (.program p') rfl rfl (hn _ rfl) (hn' _ rfl) rfl
    | _ => cases same
  | linkProgram p =>
    cases c' <;> cases same
    exact raw_quiet_cons rfl named rfl rfl (raw_quiet rfl named rfl rfl)
  | programLog p =>
    cases c' <;> cases same
    obtain _ | ⟨bound, -⟩ := named
    exact @raw_log ρ (.program p) (.program _) _ _ _ rfl rfl rfl bound
  | programId p =>
    cases c' <;> cases same
    exact .nil
  | uniformLocation p uniform =>
    cases c' <;> cases same
    exact raw_quiet rfl named rfl rfl
  | tell c =>
    cases c' with
    | tell c' =>
      exact lowered_tell location (Gl.Call.tell.inj (Event.called.inj same).1) named
    | _ => cases same

theorem lowered_event (location : String → Location) {e e' : Event Gl}
    (same : e.unnamed = e'.unnamed) (named : Bonds.Bound ρ e.named e'.named)
    (hn : ∀ o, e.created = some o → o.name ≠ 0) (hn' : ∀ o, e'.created = some o → o.name ≠ 0) :
    Renamed .raw ρ (e.lowered location) (e'.lowered location) (Naming.calls.after ρ e e') := by
  cases e with
  | logged r =>
    cases e' with
    | called c answer => cases same
    | logged r' =>
      cases same
      exact quiet_cons rfl .nil rfl rfl .nil
  | called c answer =>
    cases e' with
    | logged r => cases same
    | called c' answer' => exact lowered_call location same named hn hn'

/-- Where all objects are renamed in the calls of the cache, they are renamed in what the GL
receives for them. -/
theorem lowered (location : String → Location) {events events' : List (Event Gl)}
    (h : Renamed .calls ρ events events' ρ') (hn : Nonzero events) (hn' : Nonzero events') :
    Renamed .raw ρ (events.flatMap (Event.lowered location))
      (events'.flatMap (Event.lowered location)) ρ' := by
  induction h with
  | nil => exact .nil
  | cons same named later ih =>
    obtain ⟨hn, hlater⟩ := nonzero_cons.1 hn
    obtain ⟨hn', hlater'⟩ := nonzero_cons.1 hn'
    rw [List.flatMap_cons, List.flatMap_cons]
    exact (lowered_event location same named hn hn').append (ih hlater hlater')

end Renamed

end GlPrograms
