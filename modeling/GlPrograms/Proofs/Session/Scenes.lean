import GlPrograms.Session.Play

namespace GlPrograms

section Events

variable {I : Interface}

def Event.isCall : Event I → Bool
  | .called _ _ => true
  | .logged _ => false

def Event.record? : Event I → Option Record
  | .called _ _ => none
  | .logged r => some r

def calls (events : List (Event I)) : List (Event I) := events.filter Event.isCall

def records (events : List (Event I)) : List Record := events.filterMap Event.record?

variable {first rest events : List (Event I)}

theorem calls_nil : calls ([] : List (Event I)) = [] := rfl

theorem calls_called (c : I.Call) (answer : I.Answer c) :
    calls (.called c answer :: events) = .called c answer :: calls events := rfl

theorem calls_logged (r : Record) : calls (.logged r :: events) = calls events := rfl

theorem records_nil : records ([] : List (Event I)) = [] := rfl

theorem records_called (c : I.Call) (answer : I.Answer c) :
    records (.called c answer :: events) = records events := rfl

theorem records_logged (r : Record) : records (.logged r :: events) = r :: records events := rfl

theorem calls_append : calls (first ++ rest) = calls first ++ calls rest := List.filter_append ..

theorem records_append : records (first ++ rest) = records first ++ records rest :=
  List.filterMap_append

theorem mem_records {r : Record} :
    r ∈ records events ↔ .logged r ∈ events := by
  simp only [records, List.mem_filterMap]
  constructor
  · rintro ⟨_ | r', he, hr⟩
    · cases hr
    · exact Option.some.inj hr ▸ he
  · exact fun h => ⟨_, h, rfl⟩

end Events

namespace Session

section Witnessed

variable {I : Interface} {listener : Listener} {first rest events : List (Event I)}

theorem witnessed_called (c : I.Call) (answer : I.Answer c) :
    witnessed listener (.called c answer :: events) =
      .called c answer :: witnessed listener events := rfl

theorem witnessed_logged (r : Record) :
    witnessed listener (.logged r :: events) =
      if listener.keeps r then .logged r :: witnessed listener events
      else witnessed listener events := by
  by_cases hk : listener.keeps r
  · simp [witnessed, isKept, hk]
  · simp [witnessed, isKept, hk]

theorem witnessed_append :
    witnessed listener (first ++ rest) = witnessed listener first ++ witnessed listener rest := by
  simp [witnessed]

theorem witnessed_calls (h : ∀ e ∈ events, e.isCall) : witnessed listener events = events := by
  induction events with
  | nil => rfl
  | cons e events ih =>
    have he : e.isCall := h e (by simp)
    cases e with
    | called c answer => rw [witnessed_called, ih fun e he => h e (by simp [he])]
    | logged r => cases he

theorem calls_witnessed : calls (witnessed listener events) = calls events := by
  induction events with
  | nil => rfl
  | cons e events ih =>
    cases e with
    | called c answer => exact congrArg (_ :: ·) ih
    | logged r =>
      rw [witnessed_logged]
      split
      · exact ih
      · exact ih

theorem records_witnessed :
    records (witnessed listener events) = (records events).filter listener.keeps := by
  induction events with
  | nil => rfl
  | cons e events ih =>
    cases e with
    | called c answer => exact ih
    | logged r =>
      rw [witnessed_logged, records_logged]
      by_cases hr : listener.keeps r
      · rw [if_pos hr, List.filter_cons_of_pos hr, records_logged, ih]
      · rw [if_neg hr, List.filter_cons_of_neg hr, ih]

theorem called_mem_witnessed {c : I.Call} {answer : I.Answer c} :
    .called c answer ∈ witnessed listener events ↔ .called c answer ∈ events := by
  simp [witnessed, isKept]

end Witnessed

variable {v : Vantage} {s : Subject}

theorem prepare_state (op : Op s.Job) (w : World s.State) : (prepare w op).state = w.state := by
  cases op with
  | job | script | listen | replace => rfl

theorem step_run (op : Op s.Job) (w : World s.State) :
    step v s op w =
      let r :=
        v.run (action s (prepare w op).listener (prepare w op).state op) (prepare w op).device
      (⟨r.1.1, witnessed (prepare w op).listener r.2.1, some (programNames (s.cache r.1.2)),
          r.2.2.script.showSources⟩,
        ⟨r.1.2, r.2.2, (prepare w op).listener⟩) := rfl

end Session

end GlPrograms
