import GlPrograms.Proofs.Cache.Turns

namespace GlPrograms

open GlPrograms.Action

def Event.announces (key : Key) : Event Gl → Bool
  | .logged r => decide (r.severity = .debug ∧
      r.message = "Compiling shader program for: " ++ key.description)
  | .called _ _ => false

namespace Build

variable {α : Type} {settings : Settings} {key : Key} {events : List (Event Gl)} {Q : Record → Prop}

theorem rejectShader_writes (hQ : ∀ message, Q ⟨.error, settings.scopeName, message⟩)
    (stage : Stage)
    (parts : List String) (s : Shader) :
    (rejectShader (α := α) settings stage parts s).Writes Q := by
  rw [rejectShader_steps]
  intro text
  refine ⟨hQ _, ?_⟩
  cases settings.dumpRejected with
  | false => trivial
  | true => exact ⟨hQ _, trivial⟩

theorem withShader_writes (hQ : ∀ message, Q ⟨.error, settings.scopeName, message⟩) {stage : Stage}
    {parts : List String} {use : Shader → Action Gl (Except BuildError α)}
    (hu : ∀ s, (use s).Writes Q) : (withShader settings stage parts use).Writes Q := by
  intro made
  cases made with
  | error reason => trivial
  | ok s =>
    have close (result : Except BuildError α) :
        (Gl.tell (.deleteShader s) >>= fun _ => pure result).Writes Q := fun _ => trivial
    intro accepted
    cases accepted with
    | true => exact (hu s).bind close
    | false => exact (rejectShader_writes hQ stage parts s).bind close

theorem link_writes (hQ : ∀ message, Q ⟨.error, settings.scopeName, message⟩)
    (vertex fragment : Shader) : (link settings vertex fragment).Writes Q := by
  rw [link_steps]
  intro made
  cases made with
  | error reason => trivial
  | ok p =>
    intro _ _ _ _ accepted
    cases accepted with
    | true => trivial
    | false => exact fun text => ⟨hQ _, fun _ => trivial⟩

theorem assemble_writes (hQ : ∀ message, Q ⟨.error, settings.scopeName, message⟩) (key : Key) :
    (assemble settings (Source.fragmentParts key)).Writes Q :=
  withShader_writes hQ fun vertex => withShader_writes hQ fun fragment =>
    link_writes hQ vertex fragment

theorem build_writes (settings : Settings) (key : Key) : (build settings key).Writes fun r =>
    r = announcement settings key ∨ ∃ message, r = ⟨.error, settings.scopeName, message⟩ := by
  refine ⟨.inl rfl,
    (assemble_writes (fun message => .inr ⟨message, rfl⟩) key).bind fun result => ?_⟩
  cases result with
  | error e => trivial
  | ok p => exact fun _ _ _ _ _ _ => trivial

theorem announces_announcement (settings : Settings) (key other : Key) :
    Event.announces other (.logged (announcement settings key)) = decide (other = key) := by
  by_cases h : other = key
  · subst h
    simp [Event.announces, announcement]
  · have hne : key.description ≠ other.description := fun hd =>
      h (Key.description_injective hd).symm
    simp [Event.announces, announcement, hne, h]

theorem build_announces {result : Except BuildError Linked}
    (h : (build settings key).Plays events result) (other : Key) :
    events.countP (Event.announces other) = if other = key then 1 else 0 := by
  have assembled {rest : List (Event Gl)} {result : Except BuildError Program}
      (ha : (assemble settings (Source.fragmentParts key)).Plays rest result) :
      rest.countP (Event.announces other) = 0 := by
    rw [List.countP_eq_zero]
    intro e he
    cases e with
    | called c answer => simp [Event.announces]
    | logged r =>
      have hr : r.severity = .error :=
        (assemble_writes (Q := fun r => r.severity = .error) (fun _ => rfl) key).of_plays ha he
      simp [Event.announces, hr]
  cases build_exit h with
  | failed ha => simp [List.countP_cons, announces_announcement, assembled ha]
  | @built _ p l ha =>
    have quiet : (located p l).countP (Event.announces other) = 0 := by
      simp [located, Event.announces]
    simp [List.countP_cons, announces_announcement, assembled ha, quiet]

end Build

namespace Cache

variable {c c' : Cache} {listener : Listener} {events : List (Event Gl)} {Q : Record → Prop}

theorem writeEntries_writes (now : Instant) (es : List Entry) (count : Nat) (s : Sink) :
    (Report.writeEntries now es count s).Writes Q := by
  induction es generalizing count s with
  | nil => trivial
  | cons e es ih =>
    unfold Report.writeEntries
    split
    · trivial
    · exact fun id => ih _ _

theorem writeReport_writes (c : Cache) (now : Instant) (s : Sink) :
    (c.writeReport now s).Writes Q :=
  (writeEntries_writes now c.entries _ _).bind fun _ => trivial

theorem inspect_writes (c : Cache) (listener : Listener) (i : Inspection) :
    (c.inspect listener i).Writes fun r =>
      r.severity = .debug ∧ r.target = c.settings.scopeName ∧ '\n' ∈ r.message.toList := by
  cases i with
  | get | contains | size | list | settings | scope => trivial
  | report now limit => exact (writeReport_writes c now _).bind fun _ => trivial
  | logReport now =>
    refine Writes.bind ?_ fun _ => trivial
    unfold logReport
    split
    · exact (writeReport_writes c now _).bind fun s => ⟨⟨rfl, rfl, by simp⟩, trivial⟩
    · trivial

theorem not_announces_farewell (settings : Settings) (e : Entry) (key : Key) :
    (farewell settings e).countP (Event.announces key) = 0 := by
  have hne : "Deleting shader program for: " ++ e.key.description ≠
      "Compiling shader program for: " ++ key.description := by
    intro h
    have hd := congrArg (fun s : String => s.toList.head?) h
    simp at hd
  simp [farewell, Event.announces, hne]

theorem not_announces_inspect {i : Inspection} {reply : Reply}
    (h : (c.inspect listener i).Plays events reply) (key : Key) :
    events.countP (Event.announces key) = 0 := by
  have oneLine : '\n' ∉ ("Compiling shader program for: " ++ key.description).toList := by
    simp [key.newline_notMem_description]
  rw [List.countP_eq_zero]
  intro e he
  cases e with
  | called call answer => simp [Event.announces]
  | logged r =>
    obtain ⟨-, -, hr⟩ := (inspect_writes c listener i).of_plays h he
    have hne : r.message ≠ "Compiling shader program for: " ++ key.description :=
      fun hm => oneLine (hm ▸ hr)
    simp [Event.announces, hne]

end Cache

end GlPrograms
