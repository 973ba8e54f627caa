import GlPrograms.Scripted.Change
import GlPrograms.Session.Subject
import GlPrograms.Vantage

namespace GlPrograms.Session

inductive Op (Job : Type) where
  | job (j : Job)
  | script (c : ScriptChange)
  | listen (l : Listener)
  /-- A new subject with the same settings takes the place of the old one, which ends then. -/
  | replace

structure World (State : Type) where
  state : State
  device : Device
  listener : Listener

structure Step (I : Interface) where
  reply : Reply
  /-- The calls, and those records that the listener keeps. -/
  events : List (Event I)
  /-- The names of the cached programs in the order of the cache, and none after the end. -/
  ids : Option (List UInt32)
  showSources : Bool

def programNames (c : Cache) : List UInt32 := c.entries.map (·.program.name)

def isKept {I : Interface} (l : Listener) : Event I → Bool
  | .called _ _ => true
  | .logged r => l.keeps r

/-- The calls of a step, and those of its records that the listener keeps. -/
def witnessed {I : Interface} (l : Listener) (events : List (Event I)) : List (Event I) :=
  events.filter (isKept l)

def action (s : Subject) (listener : Listener) (state : s.State) :
    Op s.Job → Action Gl (Reply × s.State)
  | .job j => s.perform listener j state
  | .replace => do
      let fresh ← s.start (s.cache state).settings
      s.stop state
      return (.nothing, fresh)
  | .script _ | .listen _ => return (.nothing, state)

/-- A change of script or listener is in force before the operation ends. -/
def prepare {State Job : Type} (w : World State) : Op Job → World State
  | .script c => { w with device := w.device.rescript c }
  | .listen l => { w with listener := l }
  | .job _ | .replace => w

def step (v : Vantage) (s : Subject) (op : Op s.Job) (w : World s.State) :
    Step v.interface × World s.State :=
  let w := prepare w op
  let ((reply, state), events, device) := v.run (action s w.listener w.state op) w.device
  (⟨reply, witnessed w.listener events, some (programNames (s.cache state)),
      device.script.showSources⟩,
    ⟨state, device, w.listener⟩)

def start (v : Vantage) (s : Subject) (settings : Settings) (listener : Listener) (d : Device) :
    Step v.interface × World s.State :=
  let (state, events, d) := v.run (s.start settings) d
  (⟨.nothing, witnessed listener events, some (programNames (s.cache state)), d.script.showSources⟩,
    ⟨state, d, listener⟩)

def finish (v : Vantage) (s : Subject) (w : World s.State) : Step v.interface :=
  let (_, events, d) := v.run (s.stop w.state) w.device
  ⟨.nothing, witnessed w.listener events, none, d.script.showSources⟩

/-- A step of a session. It is the start or the end if no operation is carried out. -/
structure Scene (v : Vantage) (s : Subject) where
  op : Option (Op s.Job)
  /-- The state as the step finds it, and none before the start. -/
  found : Option s.State
  listener : Listener
  /-- The GL as the step finds it. -/
  device : Device
  step : Step v.interface
  /-- The world after the step, and none after the end. -/
  left : Option (World s.State)

def scene (v : Vantage) (s : Subject) (op : Op s.Job) (w : World s.State) : Scene v s where
  op := some op
  found := some w.state
  listener := (prepare w op).listener
  device := (prepare w op).device
  step := (step v s op w).1
  left := some (step v s op w).2

def opening (v : Vantage) (s : Subject) (settings : Settings) (listener : Listener) (d : Device) :
    Scene v s where
  op := none
  found := none
  listener := listener
  device := d
  step := (start v s settings listener d).1
  left := some (start v s settings listener d).2

def ending (v : Vantage) (s : Subject) (w : World s.State) : Scene v s :=
  ⟨none, some w.state, w.listener, w.device, finish v s w, none⟩

def scenes (v : Vantage) (s : Subject) : List (Op s.Job) → World s.State → List (Scene v s)
  | [], w => [ending v s w]
  | op :: ops, w => scene v s op w :: scenes v s ops (step v s op w).2

def performance (v : Vantage) (s : Subject) (settings : Settings) (listener : Listener)
    (script : ScriptChange) (ops : List (Op s.Job)) : List (Scene v s) :=
  let d := Device.rescript {} script
  opening v s settings listener d :: scenes v s ops (start v s settings listener d).2

def present {I : Interface} : Event I → Event I
  | .called c answer => .called c answer
  | .logged r => .logged (hideLoggedAges r)

/-- A step as a transcript shows it: without the ages that hang on the clock. -/
def Scene.shown {v : Vantage} {s : Subject} (scene : Scene v s) : Step v.interface :=
  { scene.step with
    reply :=
      match scene.op, scene.found with
      | some (.job j), some state => s.shows state j scene.step.reply
      | _, _ => scene.step.reply
    events := scene.step.events.map present }

def play (v : Vantage) (s : Subject) (settings : Settings) (listener : Listener)
    (script : ScriptChange) (ops : List (Op s.Job)) : List (Step v.interface) :=
  (performance v s settings listener script ops).map Scene.shown

end GlPrograms.Session
